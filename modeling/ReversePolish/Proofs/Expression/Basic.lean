import ReversePolish.Proofs.Session.Reading
import ReversePolish.Proofs.Word.Scanning

/-!
# Expressions as trees

An expression is a tree with integers and variables for leaves and arithmetic
operations for inner nodes.  As the left operand of an operator is the one on
top of the stack, the words of an expression are those of its right part, then
those of its left part, and then the operator.

The value of an expression is exact.  It has one if every variable in it is
bound, nothing is divided by zero, and the value of every inner node fits into
a signed 64-bit word.  If it has none, one operation is the first to fail,
where the operations of the right part come before those of the left part and
that of the node comes last.  A variable without a value is no failure of its
own; the operation fails of which it is an operand, and the left operand is
looked at before the right one.
-/

namespace ReversePolish

/-- An arithmetic expression. -/
inductive Expression where
  | leaf (text : Text)
  | node (operation : Arithmetic) (left right : Expression)
deriving DecidableEq, Repr

namespace Expression

/-- The texts at the leaves. -/
def leaves : Expression → List Text
  | leaf text => [text]
  | node _ left right => left.leaves ++ right.leaves

/-- The words of an expression. -/
def words : Expression → List Text
  | leaf text => [text]
  | node operation left right => right.words ++ left.words ++ [[operation.symbol]]

/-- The exact value of an expression, if it has one and those of all inner nodes fit. -/
def value? (b : Bindings) : Expression → Option Int
  | leaf text => b.number? text
  | node operation left right => do
      let leftValue ← left.value? b
      let rightValue ← right.value? b
      let result ← operation.exactResult? leftValue rightValue
      if Numeral.Fits result then some result else none

/-- What an expression leaves on the stack if no operation in it fails: a leaf its text, an inner
node the canonical numeral of its value. -/
inductive Leaves (b : Bindings) : Expression → Text → Prop
  | leaf (text : Text) : Leaves b (leaf text) text
  | node {operation : Arithmetic} {left right : Expression} {value : Int}
      (h : (node operation left right).value? b = some value) :
      Leaves b (node operation left right) (Numeral.ofInt value)

/-- Why an operation fails whose operands are no failures. -/
inductive Fails (b : Bindings) (operation : Arithmetic) : Expression → Expression → Cause → Prop
  | unboundLeft {text : Text} {right : Expression}
      (hleft : b.number? text = none) :
      Fails b operation (leaf text) right (.unknownVariable text)
  | unboundRight {left : Expression} {text : Text} {leftValue : Int}
      (hleft : left.value? b = some leftValue)
      (hright : b.number? text = none) :
      Fails b operation left (leaf text) (.unknownVariable text)
  | noResult {left right : Expression} {leftValue rightValue : Int}
      (hleft : left.value? b = some leftValue)
      (hright : right.value? b = some rightValue)
      (hresult : operation.exactResult? leftValue rightValue = none) :
      Fails b operation left right .divisionByZero
  | tooLarge {left right : Expression} {leftValue rightValue result : Int}
      (hleft : left.value? b = some leftValue)
      (hright : right.value? b = some rightValue)
      (hresult : operation.exactResult? leftValue rightValue = some result)
      (hfits : ¬ Numeral.Fits result) :
      Fails b operation left right .overflow

/-- The first operation that fails, the number of words before it, and its cause. -/
inductive StopsAt (b : Bindings) : Expression → Arithmetic → Nat → Cause → Prop
  | inRight {operation failing : Arithmetic} {left right : Expression} {spot : Nat} {cause : Cause}
      (h : StopsAt b right failing spot cause) :
      StopsAt b (node operation left right) failing spot cause
  | inLeft {operation failing : Arithmetic} {left right : Expression} {spot : Nat} {cause : Cause}
      {rightEntry : Text}
      (hright : Leaves b right rightEntry)
      (h : StopsAt b left failing spot cause) :
      StopsAt b (node operation left right) failing (right.words.length + spot) cause
  | here {operation : Arithmetic} {left right : Expression} {cause : Cause}
      {leftEntry rightEntry : Text}
      (hright : Leaves b right rightEntry)
      (hleft : Leaves b left leftEntry)
      (h : Fails b operation left right cause) :
      StopsAt b (node operation left right) operation
        (right.words.length + left.words.length) cause

/-! ### Values -/

theorem value?_node_eq_some_iff
    {b : Bindings} {operation : Arithmetic} {left right : Expression} {value : Int} :
    (node operation left right).value? b = some value ↔
      ∃ leftValue rightValue, left.value? b = some leftValue ∧ right.value? b = some rightValue ∧
        operation.exactResult? leftValue rightValue = some value ∧ Numeral.Fits value := by
  rw [value?]
  constructor
  · intro h
    obtain ⟨leftValue, hleft, h⟩ := Option.bind_eq_some_iff.1 h
    obtain ⟨rightValue, hright, h⟩ := Option.bind_eq_some_iff.1 h
    obtain ⟨result, hresult, h⟩ := Option.bind_eq_some_iff.1 h
    split at h
    · rename_i hfits
      cases h
      exact ⟨leftValue, rightValue, hleft, hright, hresult, hfits⟩
    · cases h
  · rintro ⟨leftValue, rightValue, hleft, hright, hresult, hfits⟩
    simp [hleft, hright, hresult, hfits]

/-- An expression with a value leaves something on the stack. -/
theorem exists_leaves
    {b : Bindings} {e : Expression} {value : Int}
    (h : e.value? b = some value) :
    ∃ entry, e.Leaves b entry := by
  cases e with
  | leaf text => exact ⟨text, .leaf text⟩
  | node operation left right => exact ⟨_, .node h⟩

/-- Of two operands that are no failures the operation has a result, or it fails. -/
theorem exists_value_or_fails
    {b : Bindings} {left right : Expression} {leftEntry rightEntry : Text} (operation : Arithmetic)
    (hleft : left.Leaves b leftEntry)
    (hright : right.Leaves b rightEntry) :
    (∃ value, (node operation left right).value? b = some value) ∨
      ∃ cause, Fails b operation left right cause := by
  have hunbound : ∀ {e : Expression} {entry : Text}, e.Leaves b entry → e.value? b = none →
      ∃ text, e = leaf text ∧ b.number? text = none := by
    intro e entry he hnone
    cases he with
    | leaf text => exact ⟨_, rfl, hnone⟩
    | node h => rw [h] at hnone; cases hnone
  cases hleftValue : left.value? b with
  | none =>
      obtain ⟨text, rfl, htext⟩ := hunbound hleft hleftValue
      exact Or.inr ⟨_, .unboundLeft htext⟩
  | some leftValue =>
      cases hrightValue : right.value? b with
      | none =>
          obtain ⟨text, rfl, htext⟩ := hunbound hright hrightValue
          exact Or.inr ⟨_, .unboundRight hleftValue htext⟩
      | some rightValue =>
          cases hresult : operation.exactResult? leftValue rightValue with
          | none => exact Or.inr ⟨_, .noResult hleftValue hrightValue hresult⟩
          | some result =>
              by_cases hfits : Numeral.Fits result
              · exact Or.inl ⟨result, value?_node_eq_some_iff.2
                  ⟨leftValue, rightValue, hleftValue, hrightValue, hresult, hfits⟩⟩
              · exact Or.inr ⟨_, .tooLarge hleftValue hrightValue hresult hfits⟩

/-- Either no operation of an expression fails, or one is the first to fail. -/
theorem leaves_or_stopsAt
    (b : Bindings) (e : Expression) :
    (∃ entry, e.Leaves b entry) ∨ ∃ failing spot cause, e.StopsAt b failing spot cause := by
  induction e with
  | leaf text => exact Or.inl ⟨text, .leaf text⟩
  | node operation left right ihLeft ihRight =>
      rcases ihRight with ⟨rightEntry, hright⟩ | ⟨failing, spot, cause, hright⟩
      · rcases ihLeft with ⟨leftEntry, hleft⟩ | ⟨failing, spot, cause, hleft⟩
        · rcases exists_value_or_fails operation hleft hright with ⟨value, hvalue⟩ | ⟨cause, hfails⟩
          · exact Or.inl ⟨_, .node hvalue⟩
          · exact Or.inr ⟨_, _, _, .here hright hleft hfails⟩
        · exact Or.inr ⟨_, _, _, .inLeft hright hleft⟩
      · exact Or.inr ⟨_, _, _, .inRight hright⟩

theorem value_or_stopsAt
    (b : Bindings) (operation : Arithmetic) (left right : Expression) :
    (∃ value, (node operation left right).value? b = some value) ∨
      ∃ failing spot cause, (node operation left right).StopsAt b failing spot cause := by
  refine (leaves_or_stopsAt b (node operation left right)).imp_left ?_
  rintro ⟨entry, hentry⟩
  cases hentry with
  | node hvalue => exact ⟨_, hvalue⟩

end Expression

end ReversePolish
