import ReversePolish.Proofs.Arithmetic
import ReversePolish.Proofs.Bindings.Layout
import ReversePolish.Proofs.Session.Stepping
import ReversePolish.Proofs.Word.Classification

/-!
# Valid sessions

A session is valid if its texts mean what they should as words: the entries of
the stack are integers or variables, the names variables and the values
integers.  Evaluating keeps a session valid, however it ends, and keeps the
layout of its bindings orderly.  What makes this so for arithmetic is that a
result fits before its numeral goes on the stack.
-/

namespace ReversePolish

/-- An entry that may stand on the stack. -/
def Text.IsOperand (t : Text) : Prop :=
  t.IsInteger ∨ t.IsName

theorem Text.isOperand_iff
    {t : Text} :
    t.IsOperand ↔ ∃ token, Token.ofText? t = .ok (some token) ∧ token.isOperand = true := by
  constructor
  · rintro (⟨value, h⟩ | ⟨letter, h⟩)
    · exact ⟨_, h, rfl⟩
    · exact ⟨_, h, rfl⟩
  · rintro ⟨token, h, hoperand⟩
    cases token with
    | integer value => exact Or.inl ⟨value, h⟩
    | name letter => exact Or.inr ⟨letter, h⟩
    | operator op => cases hoperand

theorem Text.IsOperand.isClassifiable
    {t : Text}
    (h : t.IsOperand) :
    t.IsClassifiable := by
  obtain ⟨token, htoken, -⟩ := isOperand_iff.1 h
  exact ⟨_, htoken⟩

/-- An operand that is no integer is a variable. -/
theorem Text.IsOperand.isName
    {t : Text}
    (h : t.IsOperand)
    (hinteger : Text.integer? t = .ok none) :
    t.IsName := by
  refine h.resolve_left ?_
  rintro ⟨value, hvalue⟩
  rw [Text.integer?_eq_some_iff.2 hvalue] at hinteger
  cases hinteger

namespace Session

/-- Every text of the session means what it should as a word. -/
structure IsValid (s : Session) : Prop where
  entries : ∀ t ∈ s.stack.entries, t.IsOperand
  names : ∀ pair ∈ s.bindings.toList, pair.1.IsName
  values : ∀ pair ∈ s.bindings.toList, pair.2.IsInteger

theorem IsValid.operands
    {s : Session}
    (h : s.IsValid) :
    ∀ t ∈ s.stack.toList, t.IsOperand :=
  fun t ht => h.entries t (List.mem_reverse.1 ht)

theorem isValid_fresh : fresh.IsValid where
  entries t ht := by cases ht
  names pair hpair := by cases Bindings.mem_toList_ofList (l := []) hpair
  values pair hpair := by cases Bindings.mem_toList_ofList (l := []) hpair

theorem IsValid.push
    {s : Session} {entry : Text}
    (h : s.IsValid)
    (hentry : entry.IsOperand) :
    (s.push entry).IsValid where
  entries := List.forall_mem_cons.2 ⟨hentry, h.entries⟩
  names := h.names
  values := h.values

theorem IsValid.insert
    {s : Session} {name value : Text}
    (h : s.IsValid)
    (hname : name.IsName)
    (hvalue : value.IsInteger) :
    IsValid { s with bindings := s.bindings.insert name value } where
  entries := h.entries
  names pair hpair := by
    rcases Bindings.mem_toList_insert hpair with rfl | hmem
    · exact hname
    · exact h.names pair hmem
  values pair hpair := by
    rcases Bindings.mem_toList_insert hpair with rfl | hmem
    · exact hvalue
    · exact h.values pair hmem

theorem IsValid.of_takeOperands
    {s popped : Session} {left right : Text}
    (h : s.IsValid)
    (hoperands : s.takeOperands = .ok (left, right, popped)) :
    left.IsOperand ∧ right.IsOperand ∧ popped.IsValid := by
  obtain ⟨hentries, hbindings⟩ := takeOperands_eq_ok hoperands
  have hall := h.entries
  rw [hentries, List.forall_mem_cons, List.forall_mem_cons] at hall
  obtain ⟨hleft, hright, hbelow⟩ := hall
  refine ⟨hleft, hright, hbelow, ?_, ?_⟩
  · rw [hbindings]
    exact h.names
  · rw [hbindings]
    exact h.values

end Session

/-- An arithmetic operator puts the numeral of an integer that fits on the stack. -/
theorem Operator.effect_arithmetic_eq_ok
    {operation : Arithmetic} {b : Bindings} {left right : Text} {effect : Effect}
    (h : (arithmetic operation).effect b left right = .ok effect) :
    ∃ n, Numeral.Fits n ∧ effect = .push (Numeral.ofInt n) := by
  obtain ⟨leftValue, -, h⟩ := Outcome.bind_eq_ok.1 h
  obtain ⟨rightValue, -, h⟩ := Outcome.bind_eq_ok.1 h
  obtain ⟨result, heval, h⟩ := Outcome.bind_eq_ok.1 h
  have hfits : Numeral.Fits result :=
    Arithmetic.fits_of_eval (Outcome.mapError_eq_ok.1 heval)
  exact ⟨result, hfits, (Except.ok.inj h).symm⟩

/-- An assignment binds what is no integer to an integer. -/
theorem Operator.effect_assign_eq_ok
    {b : Bindings} {left right : Text} {effect : Effect}
    (h : assign.effect b left right = .ok effect) :
    effect = .bind right left ∧ left.IsInteger ∧ Text.integer? right = .ok none := by
  obtain ⟨rightValue?, hright, h⟩ := Outcome.bind_eq_ok.1 h
  cases rightValue? with
  | some value => cases h
  | none =>
      obtain ⟨leftValue?, hleft, h⟩ := Outcome.bind_eq_ok.1 h
      cases leftValue? with
      | none => cases h
      | some value =>
          have hinteger : left.IsInteger :=
            ⟨value, Text.integer?_eq_some_iff.1 (Outcome.mapError_eq_ok.1 hleft)⟩
          exact ⟨(Except.ok.inj h).symm, hinteger, Outcome.mapError_eq_ok.1 hright⟩

namespace Session

theorem IsValid.perform
    {s : Session} {op : Operator} {b : Bindings} {left right : Text} {effect : Effect}
    (h : s.IsValid)
    (hright : right.IsOperand)
    (heffect : op.effect b left right = .ok effect) :
    (s.perform effect).IsValid := by
  cases op with
  | arithmetic operation =>
      obtain ⟨n, hfits, rfl⟩ := Operator.effect_arithmetic_eq_ok heffect
      exact h.push (Or.inl ⟨n, Token.ofText?_ofInt hfits⟩)
  | assign =>
      obtain ⟨rfl, hleft, hname⟩ := Operator.effect_assign_eq_ok heffect
      exact h.insert (hright.isName hname) hleft

theorem IsValid.step
    {s next : Session} {w : Word}
    (h : s.IsValid)
    (hw : Token.ofText? w.text = .ok w.token?)
    (hstep : s.step w = .ok next) :
    next.IsValid := by
  rcases step_eq_ok hstep with
    ⟨token, htoken, hoperand, rfl⟩ | ⟨op, left, right, popped, effect, -, hoperands, heffect, rfl⟩
  · rw [htoken] at hw
    exact h.push (Text.isOperand_iff.2 ⟨token, hw, hoperand⟩)
  · obtain ⟨-, hright, hpopped⟩ := h.of_takeOperands hoperands
    exact hpopped.perform hright heffect

theorem IsValid.run
    {s : Session} {words : List Word}
    (h : s.IsValid)
    (hwords : ∀ w ∈ words, Token.ofText? w.text = .ok w.token?) :
    (s.run words).session.IsValid := by
  refine run_invariant ?_ ?_ h
  · intro t w next hw ht hstep
    exact ht.step (hwords w hw) hstep
  · intro t w interruption hw ht hstep
    rcases step_eq_error hstep with heq | ⟨left, right, hoperands⟩
    · rw [heq]
      exact ht
    · exact (ht.of_takeOperands hoperands).2.2

/-- Evaluating keeps a session valid, however it ends. -/
theorem IsValid.evaluate
    {s : Session}
    (h : s.IsValid)
    (texts : List Text) :
    (s.evaluate texts).session.IsValid := by
  rw [Session.evaluate]
  split
  · exact h
  · rename_i words hwords
    exact h.run fun w hw => Word.token?_of_classifyFrom hwords hw

/-- Evaluating keeps the layout of the bindings orderly. -/
theorem isOrderly_evaluate
    {s : Session}
    (h : s.bindings.IsOrderly)
    (texts : List Text) :
    (s.evaluate texts).session.bindings.IsOrderly := by
  rw [Session.evaluate]
  split
  · exact h
  · rename_i words hwords
    refine run_invariant (P := fun t => t.bindings.IsOrderly) ?_ ?_ h
    · intro t w next _ ht hstep
      rcases step_eq_ok hstep with
        ⟨token, -, -, rfl⟩ | ⟨op, left, right, popped, effect, -, hoperands, heffect, rfl⟩
      · exact ht
      · have hpopped : popped.bindings.IsOrderly := by
          rw [(takeOperands_eq_ok hoperands).2]
          exact ht
        cases effect with
        | push entry => exact hpopped
        | bind name value => exact hpopped.insert name value
    · intro t w interruption _ ht hstep
      rcases step_eq_error hstep with heq | ⟨left, right, hoperands⟩
      · rw [heq]
        exact ht
      · rw [(takeOperands_eq_ok hoperands).2]
        exact ht

end Session

end ReversePolish
