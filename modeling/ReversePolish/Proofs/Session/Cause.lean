import ReversePolish.Proofs.Session.Validity

/-!
# Causes

A word that stops an evaluation does so in one of three ways: it has no
meaning, it is an operator that misses an operand, or it is an operator whose
two operands do not suit it.  Each way has causes of its own, so the cause
tells which it was, and there is always one.
-/

namespace ReversePolish

/-- Whether a cause is a fault of the operands that an operator has found. -/
def Cause.liesInOperands : Cause → Bool
  | unknownVariable _ | invalidTarget _ | invalidValue _ | divisionByZero | overflow => true
  | unexplained | missingOperand | unsupported => false

namespace Bindings

theorem resolve_eq_cause
    {b : Bindings} {t : Text} {c : Cause}
    (h : b.resolve t = .error (.cause c)) :
    c = .unknownVariable t := by
  rcases Outcome.bind_eq_error.1 h with hinteger | ⟨value?, -, h⟩
  · obtain ⟨f, -, hf⟩ := Outcome.mapError_eq_error.1 hinteger
    cases hf
  · cases value? with
    | some value => cases h
    | none =>
        simp only at h
        split at h
        · cases h
          rfl
        · obtain ⟨f, -, hf⟩ := Outcome.mapError_eq_error.1 h
          cases hf

end Bindings

theorem Arithmetic.eval_eq_error
    {operation : Arithmetic} {left right : Int} {c : Cause}
    (h : operation.eval left right = .error c) :
    c = .divisionByZero ∨ c = .overflow := by
  rw [eval_eq] at h
  split at h
  · cases h
    exact Or.inl rfl
  · split at h
    · cases h
    · cases h
      exact Or.inr rfl

/-- What is wrong with the operands of an operator is a fault of theirs. -/
theorem Operator.liesInOperands_of_effect
    {op : Operator} {b : Bindings} {left right : Text} {c : Cause}
    (h : op.effect b left right = .error (.cause c)) :
    c.liesInOperands = true := by
  cases op with
  | arithmetic operation =>
      rcases Outcome.bind_eq_error.1 h with hleft | ⟨_, -, h⟩
      · rw [Bindings.resolve_eq_cause hleft]
        rfl
      · rcases Outcome.bind_eq_error.1 h with hright | ⟨_, -, h⟩
        · rw [Bindings.resolve_eq_cause hright]
          rfl
        · rcases Outcome.bind_eq_error.1 h with heval | ⟨_, -, h⟩
          · obtain ⟨c', heval, hc⟩ := Outcome.mapError_eq_error.1 heval
            cases hc
            rcases Arithmetic.eval_eq_error heval with rfl | rfl <;> rfl
          · cases h
  | assign =>
      rcases Outcome.bind_eq_error.1 h with hright | ⟨rightValue?, -, h⟩
      · obtain ⟨f, -, hf⟩ := Outcome.mapError_eq_error.1 hright
        cases hf
      · cases rightValue? with
        | some value =>
            cases h
            rfl
        | none =>
            rcases Outcome.bind_eq_error.1 h with hleft | ⟨leftValue?, -, h⟩
            · obtain ⟨f, -, hf⟩ := Outcome.mapError_eq_error.1 hleft
              cases hf
            · cases leftValue? with
              | some value => cases h
              | none =>
                  cases h
                  rfl

namespace Session

/-- The ways in which a word stops an evaluation. -/
theorem cause_of_step
    {s halted : Session} {w : Word} {word : Text} {spot : Nat} {c : Cause}
    (h : s.step w = .error ⟨.stopped word spot c, halted⟩) :
    (w.token? = none ∧ c = .unsupported) ∨
      ∃ op, w.token? = some (.operator op) ∧
        ((s.stack.entries.length < 2 ∧ c = .missingOperand) ∨
          (2 ≤ s.stack.entries.length ∧ c.liesInOperands = true)) := by
  rw [step] at h
  split at h
  · rename_i htoken
    cases h
    exact Or.inl ⟨htoken, rfl⟩
  · cases h
  · cases h
  · rename_i op htoken
    rw [operate] at h
    split at h
    · rename_i restored hoperands
      cases h
      exact Or.inr ⟨op, htoken, Or.inl ⟨(takeOperands_eq_error hoperands).2, rfl⟩⟩
    · rename_i left right popped hoperands
      split at h
      · cases h
      · rename_i c' hcause
        cases h
        refine Or.inr ⟨op, htoken, Or.inr ⟨?_, Operator.liesInOperands_of_effect hcause⟩⟩
        rw [(takeOperands_eq_ok hoperands).1, List.length_cons, List.length_cons]
        omega
      · cases h

theorem step_ne_unexplained
    {s halted : Session} {w : Word} {word : Text} {spot : Nat} :
    s.step w ≠ .error ⟨.stopped word spot .unexplained, halted⟩ := by
  intro h
  rcases cause_of_step h with ⟨-, hc⟩ | ⟨op, -, ⟨-, hc⟩ | ⟨-, hc⟩⟩ <;> cases hc

theorem run_ne_unexplained
    (s : Session) (words : List Word) (word : Text) (spot : Nat) :
    (s.run words).halt? ≠ some (.stopped word spot .unexplained) := by
  induction words generalizing s with
  | nil => exact fun h => (by cases h)
  | cons w rest ih =>
      cases hstep : s.step w with
      | error interruption =>
          obtain ⟨halt, halted⟩ := interruption
          rw [run_cons_of_error rest hstep]
          intro hhalt
          cases hhalt
          exact step_ne_unexplained hstep
      | ok next =>
          rw [run_cons_of_ok rest hstep]
          exact ih next

/-- Whatever the texts in a session are, a word that stops an evaluation has a known cause. -/
theorem evaluate_ne_unexplained
    (s : Session) (texts : List Text) (word : Text) (spot : Nat) :
    (s.evaluate texts).halt? ≠ some (.stopped word spot .unexplained) := by
  rw [evaluate]
  split
  · exact fun h => (by cases h)
  · exact s.run_ne_unexplained _ word spot

/-- An operator misses an operand exactly when the stack is not high enough for it. -/
theorem step_eq_missingOperand_iff
    {s : Session} {w : Word} :
    (∃ word spot halted, s.step w = .error ⟨.stopped word spot .missingOperand, halted⟩) ↔
      (∃ op, w.token? = some (.operator op)) ∧ s.stack.entries.length < 2 := by
  constructor
  · rintro ⟨word, spot, halted, h⟩
    rcases cause_of_step h with ⟨-, hc⟩ | ⟨op, htoken, ⟨hlow, -⟩ | ⟨-, hc⟩⟩
    · cases hc
    · exact ⟨⟨op, htoken⟩, hlow⟩
    · cases hc
  · rintro ⟨⟨op, htoken⟩, hlow⟩
    obtain ⟨restored, hoperands⟩ := exists_takeOperands_eq_error_iff.2 hlow
    refine ⟨w.text, w.spot, restored, ?_⟩
    simp only [step, htoken, operate, hoperands]

end Session

end ReversePolish
