import ReversePolish.Proofs.Expression.Basic
import ReversePolish.Proofs.Session.Splitting

/-!
# Evaluating expression trees

The words of an expression put its exact value on whatever stack there is, if
it has a value, and leave the bindings alone.  Otherwise they stop at the first
operation that fails, at its place among the words and for its cause.

The induction goes over the tree, for all sessions with the same bindings: each
part is evaluated on top of what the parts before it left there.
-/

namespace ReversePolish

namespace Expression

/-- Every leaf is an integer or a variable. -/
def HasOperands (e : Expression) : Prop :=
  ∀ t ∈ e.leaves, t.IsOperand

theorem HasOperands.of_leaf
    {text : Text}
    (h : (leaf text).HasOperands) :
    text.IsOperand :=
  h text List.mem_cons_self

theorem HasOperands.left
    {operation : Arithmetic} {left right : Expression}
    (h : (Expression.node operation left right).HasOperands) :
    left.HasOperands :=
  (List.forall_mem_append.1 h).1

theorem HasOperands.right
    {operation : Arithmetic} {left right : Expression}
    (h : (Expression.node operation left right).HasOperands) :
    right.HasOperands :=
  (List.forall_mem_append.1 h).2

theorem HasOperands.words
    {e : Expression}
    (h : e.HasOperands) :
    ∀ t ∈ e.words, t.IsClassifiable := by
  induction e with
  | leaf text =>
      exact fun t ht => (h t ht).isClassifiable
  | node operation left right ihLeft ihRight =>
      exact List.forall_mem_append.2 ⟨List.forall_mem_append.2 ⟨ihRight h.right, ihLeft h.left⟩,
        Session.isClassifiable_operator (.arithmetic operation)⟩

/-- The words of both operands of a node. -/
theorem HasOperands.operandWords
    {operation : Arithmetic} {left right : Expression}
    (h : (Expression.node operation left right).HasOperands) :
    ∀ t ∈ right.words ++ left.words, t.IsClassifiable :=
  List.forall_mem_append.2 ⟨h.right.words, h.left.words⟩

section Nodes

variable {b : Bindings} {e left right : Expression} {operation : Arithmetic}

/-- What an expression leaves on the stack is resolved to its value. -/
theorem Leaves.resolve
    {entry : Text} {value : Int}
    (hintegers : b.HasIntegers)
    (hleaves : e.HasOperands)
    (h : e.Leaves b entry)
    (hvalue : e.value? b = some value) :
    b.resolve entry = .ok value := by
  cases h with
  | leaf =>
      have hnumber : b.number? entry = some value := hvalue
      rw [hintegers.resolve hleaves.of_leaf, hnumber]
  | node h =>
      obtain rfl : _ = value := Option.some.inj (h.symm.trans hvalue)
      obtain ⟨_, _, -, -, -, hfits⟩ := value?_node_eq_some_iff.1 h
      exact Bindings.resolve_of_integer b (Token.ofText?_ofInt hfits)

theorem resolve_of_unbound_leaf
    {text : Text}
    (hintegers : b.HasIntegers)
    (hleaves : (leaf text).HasOperands)
    (hnumber : b.number? text = none) :
    b.resolve text = .error (.cause (.unknownVariable text)) := by
  rw [hintegers.resolve hleaves.of_leaf, hnumber]

theorem effect_of_value?
    {leftEntry rightEntry : Text} {value : Int}
    (hintegers : b.HasIntegers)
    (hleaves : (Expression.node operation left right).HasOperands)
    (hleft : left.Leaves b leftEntry)
    (hright : right.Leaves b rightEntry)
    (hvalue : (node operation left right).value? b = some value) :
    (Operator.arithmetic operation).effect b leftEntry rightEntry =
      .ok (.push (Numeral.ofInt value)) := by
  obtain ⟨leftValue, rightValue, hleftValue, hrightValue, hresult, hfits⟩ :=
    value?_node_eq_some_iff.1 hvalue
  rw [Operator.effect, hleft.resolve hintegers hleaves.left hleftValue,
    hright.resolve hintegers hleaves.right hrightValue]
  have heval : operation.eval leftValue rightValue = .ok value := by
    rw [Arithmetic.eval_eq, hresult]
    exact if_pos hfits
  refine Outcome.bind_eq_ok.2 ⟨leftValue, rfl, Outcome.bind_eq_ok.2 ⟨rightValue, rfl, ?_⟩⟩
  exact Outcome.bind_eq_ok.2 ⟨value, Outcome.mapError_eq_ok.2 heval, rfl⟩

/-- An operation that fails does so for the same cause on the stack. -/
theorem Fails.effect
    {leftEntry rightEntry : Text} {cause : Cause}
    (hintegers : b.HasIntegers)
    (hleaves : (Expression.node operation left right).HasOperands)
    (hleft : left.Leaves b leftEntry)
    (hright : right.Leaves b rightEntry)
    (h : Fails b operation left right cause) :
    (Operator.arithmetic operation).effect b leftEntry rightEntry = .error (.cause cause) := by
  have hcomputed : ∀ {leftValue rightValue : Int},
      left.value? b = some leftValue → right.value? b = some rightValue →
      operation.eval leftValue rightValue = .error cause →
      (Operator.arithmetic operation).effect b leftEntry rightEntry = .error (.cause cause) := by
    intro leftValue rightValue hleftValue hrightValue heval
    refine Outcome.bind_eq_error.2 (Or.inr ⟨leftValue, ?_, ?_⟩)
    · exact hleft.resolve hintegers hleaves.left hleftValue
    refine Outcome.bind_eq_error.2 (Or.inr ⟨rightValue, ?_, ?_⟩)
    · exact hright.resolve hintegers hleaves.right hrightValue
    exact Outcome.bind_eq_error.2 (Or.inl (Outcome.mapError_eq_error.2 ⟨cause, heval, rfl⟩))
  cases h with
  | unboundLeft hnumber =>
      cases hleft
      exact Outcome.bind_eq_error.2
        (Or.inl (resolve_of_unbound_leaf hintegers hleaves.left hnumber))
  | @unboundRight _ _ leftValue hleftValue hnumber =>
      cases hright
      refine Outcome.bind_eq_error.2 (Or.inr ⟨leftValue, ?_, ?_⟩)
      · exact hleft.resolve hintegers hleaves.left hleftValue
      exact Outcome.bind_eq_error.2
        (Or.inl (resolve_of_unbound_leaf hintegers hleaves.right hnumber))
  | noResult hleftValue hrightValue hresult =>
      refine hcomputed hleftValue hrightValue ?_
      rw [Arithmetic.eval_eq, hresult]
  | tooLarge hleftValue hrightValue hresult hfits =>
      refine hcomputed hleftValue hrightValue ?_
      rw [Arithmetic.eval_eq, hresult]
      exact if_neg hfits

end Nodes

section Trees

variable {b : Bindings} {e : Expression}

/-- The words of an expression in which no operation fails put what it leaves on the stack. -/
theorem Leaves.leads
    {entry : Text} {s : Session}
    (hintegers : b.HasIntegers)
    (hleaves : e.HasOperands)
    (hs : s.bindings = b)
    (h : e.Leaves b entry) :
    s.Leads e.words (s.push entry) := by
  induction e generalizing s entry with
  | leaf text =>
      cases h
      exact s.leads_operand hleaves.of_leaf
  | node operation left right ihLeft ihRight =>
      cases h with
      | @node _ _ _ value hvalue =>
          obtain ⟨_, _, hleftValue, hrightValue, -, -⟩ := value?_node_eq_some_iff.1 hvalue
          obtain ⟨rightEntry, hright⟩ := exists_leaves hrightValue
          obtain ⟨leftEntry, hleft⟩ := exists_leaves hleftValue
          have hoperands : s.Leads (right.words ++ left.words)
              ((s.push rightEntry).push leftEntry) :=
            (ihRight hleaves.right hs hright).append hleaves.right.words hleaves.left.words
              (ihLeft hleaves.left hs hleft)
          refine hoperands.append hleaves.operandWords
            (Session.isClassifiable_operator (.arithmetic operation)) ?_
          have heffect := effect_of_value? hintegers hleaves hleft hright hvalue
          rw [← hs] at heffect
          exact Session.leads_operator heffect

/-- The words of an expression stop at the first operation that fails. -/
theorem StopsAt.halt?_evaluate
    {failing : Arithmetic} {spot : Nat} {cause : Cause} {s : Session}
    (hintegers : b.HasIntegers)
    (hleaves : e.HasOperands)
    (hs : s.bindings = b)
    (h : e.StopsAt b failing spot cause) :
    (s.evaluate e.words).halt? = some (.stopped [failing.symbol] spot cause) := by
  induction h generalizing s with
  | @inRight operation failing left right spot cause _ ih =>
      refine Session.halt?_append_of_halted hleaves.operandWords
        (Session.isClassifiable_operator (.arithmetic operation)) ?_
      exact Session.halt?_append_of_halted hleaves.right.words hleaves.left.words
        (ih hleaves.right hs)
  | @inLeft operation failing left right spot cause rightEntry hright _ ih =>
      have hfirst : s.Leads right.words (s.push rightEntry) :=
        hright.leads hintegers hleaves.right hs
      refine Session.halt?_append_of_halted hleaves.operandWords
        (Session.isClassifiable_operator (.arithmetic operation)) ?_
      rw [Session.halt?_append_of_leads hleaves.right.words hleaves.left.words hfirst,
        ih (s := s.push rightEntry) hleaves.left hs]
      rfl
  | @here operation left right cause leftEntry rightEntry hright hleft hfails =>
      have hoperands : s.Leads (right.words ++ left.words)
          ((s.push rightEntry).push leftEntry) :=
        (hright.leads hintegers hleaves.right hs).append hleaves.right.words hleaves.left.words
          (hleft.leads hintegers hleaves.left hs)
      have heffect := hfails.effect hintegers hleaves hleft hright
      rw [← hs] at heffect
      refine (Session.halt?_append_of_leads hleaves.operandWords
        (Session.isClassifiable_operator (.arithmetic operation)) hoperands).trans ?_
      rw [Session.halt?_operator heffect, List.length_append]
      rfl

end Trees

/-- **The words of an expression leave its exact value on the stack, if it has one, and stop at
the first operation that fails, if it has none.** -/
theorem evaluate_words
    {s : Session} {operation : Arithmetic} {left right : Expression}
    (hintegers : s.bindings.HasIntegers)
    (hleaves : (node operation left right).HasOperands) :
    let e := node operation left right
    ((s.evaluate e.words).halt? = none ↔ ∃ value, e.value? s.bindings = some value) ∧
      (∀ value, e.value? s.bindings = some value →
        (s.evaluate e.words).session = s.push (Numeral.ofInt value)) ∧
      (e.value? s.bindings = none →
        ∃ failing spot cause, e.StopsAt s.bindings failing spot cause) ∧
      ∀ failing spot cause, e.StopsAt s.bindings failing spot cause →
        (s.evaluate e.words).halt? = some (.stopped [failing.symbol] spot cause) ∧
          e.words[spot]? = some [failing.symbol] := by
  intro e
  have hleads : ∀ value, e.value? s.bindings = some value →
      s.Leads e.words (s.push (Numeral.ofInt value)) :=
    fun value hvalue => (Leaves.node hvalue).leads hintegers hleaves rfl
  have hstops : ∀ failing spot cause, e.StopsAt s.bindings failing spot cause →
      (s.evaluate e.words).halt? = some (.stopped [failing.symbol] spot cause) :=
    fun failing spot cause h => h.halt?_evaluate hintegers hleaves rfl
  have houtcome : (∃ value, e.value? s.bindings = some value) ∨
      ∃ failing spot cause, e.StopsAt s.bindings failing spot cause :=
    value_or_stopsAt s.bindings operation left right
  refine ⟨⟨?_, ?_⟩, fun value hvalue => (hleads value hvalue).2, ?_, ?_⟩
  · intro hdone
    refine houtcome.resolve_right ?_
    rintro ⟨failing, spot, cause, h⟩
    rw [hstops failing spot cause h] at hdone
    cases hdone
  · rintro ⟨value, hvalue⟩
    exact (hleads value hvalue).1
  · intro hnone
    refine houtcome.resolve_left ?_
    rintro ⟨value, hvalue⟩
    rw [hnone] at hvalue
    cases hvalue
  · intro failing spot cause h
    have hhalt := hstops failing spot cause h
    exact ⟨hhalt, (Session.evaluate_eq_stopped hhalt).1⟩

/-- A difference on top of an entry that is no word, and a sum with an unbound variable in which
the product fails first. -/
theorem evaluate_words_difference :
    let s := Session.ofRecord ⟨["x y".toList], [("A".toList, "+5".toList)]⟩
    let quotient := node .divide (leaf "-7".toList) (leaf "2".toList)
    let difference := node .subtract (leaf "A".toList) quotient
    let product := node .multiply (leaf "9223372036854775807".toList) (leaf "A".toList)
    let sum := node .add (leaf "B".toList) product
    difference.words = ["2", "-7", "/", "A", "-"].map String.toList ∧
      (s.evaluate difference.words).session = s.push "8".toList ∧
      (s.evaluate sum.words).halt? = some (.stopped "*".toList 2 .overflow) := by
  intro s quotient difference product sum
  have hintegers : s.bindings.HasIntegers := by
    intro pair hpair
    have hbindings : s.bindings.toList = [("A".toList, "+5".toList)] := by
      decide +kernel
    rw [hbindings, List.mem_singleton] at hpair
    subst hpair
    exact ⟨5, by decide +kernel⟩
  have hdifference : difference.HasOperands := by
    simp only [HasOperands, difference, quotient, leaves, List.cons_append, List.nil_append,
      List.forall_mem_cons]
    exact ⟨Or.inr ⟨'A', by decide +kernel⟩, Or.inl ⟨-7, by decide +kernel⟩,
      Or.inl ⟨2, by decide +kernel⟩, List.forall_mem_nil _⟩
  have hsum : sum.HasOperands := by
    simp only [HasOperands, sum, product, leaves, List.cons_append, List.nil_append,
      List.forall_mem_cons]
    exact ⟨Or.inr ⟨'B', by decide +kernel⟩, Or.inl ⟨Numeral.largest, by decide +kernel⟩,
      Or.inr ⟨'A', by decide +kernel⟩, List.forall_mem_nil _⟩
  have hvalue : difference.value? s.bindings = some 8 := by
    decide +kernel
  have hlargest : (leaf "9223372036854775807".toList).value? s.bindings =
      some Numeral.largest := by
    decide +kernel
  have hfive : (leaf "A".toList).value? s.bindings = some 5 := by
    decide +kernel
  have hstops : sum.StopsAt s.bindings .multiply 2 .overflow :=
    .inRight (.here (.leaf _) (.leaf _) (.tooLarge hlargest hfive rfl (by decide)))
  exact ⟨rfl, (evaluate_words hintegers hdifference).2.1 8 hvalue,
    ((evaluate_words hintegers hsum).2.2.2 _ _ _ hstops).1⟩

end Expression

end ReversePolish
