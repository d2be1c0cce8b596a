import ReversePolish.Proofs.Session.Parallel

/-!
# Entries beneath the stack

What is left on the stack from earlier calculations does not take part in a
new one.  Evaluating an expression does the same whether there are further
entries beneath the stack or not: it ends for the same reason, also when a
numeral cannot be read and the operands are gone, makes the same bindings and
leaves the entries where they are.

One end is an exception, for an operator that misses operands above would find
them beneath.
-/

namespace ReversePolish

/-- The stack with further entries beneath it, given from the bottom to the top. -/
def Stack.above (s : Stack) (below : List Text) : Stack :=
  ⟨s.entries ++ below.reverse⟩

@[simp] theorem Stack.toList_above
    (s : Stack) (below : List Text) :
    (s.above below).toList = below ++ s.toList := by
  simp [above, toList]

/-- The session with further entries beneath its stack. -/
def Session.above (s : Session) (below : List Text) : Session :=
  { s with stack := s.stack.above below }

/-- The step with further entries beneath its stack. -/
def Step.above (step : Step) (below : List Text) : Step :=
  { step with stack := step.stack.above below }

/-- The evaluation with further entries beneath all its stacks. -/
def Evaluation.above (e : Evaluation) (below : List Text) : Evaluation :=
  ⟨e.session.above below, e.steps.map fun step => step.above below, e.halt?⟩

namespace Session

variable {s : Session} (below : List Text)

theorem above_push
    (s : Session) (entry : Text) :
    (s.push entry).above below = (s.above below).push entry := rfl

theorem above_perform
    (s : Session) (effect : Effect) :
    (s.perform effect).above below = (s.above below).perform effect := by
  cases effect with
  | push entry => rfl
  | bind name value => rfl

/-- Operands that are found on the stack are found whatever is beneath it. -/
theorem takeOperands_above
    {popped : Session} {left right : Text}
    (h : s.takeOperands = .ok (left, right, popped)) :
    (s.above below).takeOperands = .ok (left, right, popped.above below) := by
  obtain ⟨⟨entries⟩, bindings⟩ := s
  rcases entries with _ | ⟨top, _ | ⟨next, rest⟩⟩
  · cases h
  · cases h
  · cases h
    rfl

/-- A word that does not miss operands does the same whatever is beneath the stack. -/
theorem step_above
    {w : Word}
    (h : ∀ i, s.step w = .error i → ∀ word spot, i.halt ≠ .stopped word spot .missingOperand) :
    Outcome.Agree (fun s t => t = s.above below)
      (Interruption.Parallel fun s t => t = s.above below)
      (s.step w) ((s.above below).step w) := by
  refine step_parallel rfl (fun _ _ _ => (above_push below s w.text).symm) fun op htoken => ?_
  refine operate_parallel rfl ?_ ?_
  · intro restored hoperands
    have hstep : s.step w = .error ⟨.stopped w.text w.spot .missingOperand, restored⟩ := by
      simp only [step, htoken, operate, hoperands]
    exact absurd rfl (h _ hstep w.text w.spot)
  · intro left right popped hoperands
    exact ⟨left, right, popped.above below, takeOperands_above below hoperands, rfl, rfl,
      fun effect _ => (above_perform below popped effect).symm⟩

/-- **Evaluating is local to the part of the stack that it uses**: unless it ends for want of
operands, it goes the same way whatever is beneath the stack. -/
theorem evaluate_above
    {texts : List Text}
    (h : ∀ word spot, (s.evaluate texts).halt? ≠ some (.stopped word spot .missingOperand)) :
    (s.above below).evaluate texts = (s.evaluate texts).above below := by
  have hparallel : (s.evaluate texts).Parallel (fun s t => t = s.above below)
      ((s.above below).evaluate texts) := by
    refine evaluate_parallel
      (Q := fun halt => ∀ word spot, halt ≠ .stopped word spot .missingOperand) ?_ ?_ rfl
    · rintro s _ w - - rfl hend
      exact step_above below hend
    · intro halt hhalt word spot heq
      exact h word spot (heq ▸ hhalt)
  obtain ⟨hsession, hsteps, hhalt⟩ := hparallel
  have hmap : List.Forall₂ (fun a b => a.above below = b) (s.evaluate texts).steps
      ((s.above below).evaluate texts).steps := by
    refine hsteps.imp ?_
    rintro ⟨word, stack⟩ ⟨_, _⟩ ⟨rfl, u, _, rfl, rfl, rfl⟩
    rfl
  rw [← List.forall₂_map_left_iff (f := fun step : Step => step.above below),
    List.forall₂_eq_eq_eq] at hmap
  rw [Evaluation.above, ← hsession, hmap, ← hhalt]

/-- A value that cannot be read ends the evaluation with the operands gone, and what is beneath them
is left. -/
theorem evaluate_above_unreadable_value :
    let s : Session := .ofRecord ⟨["5".toList], [("A".toList, "x y".toList)]⟩
    let texts : List Text := ["2".toList, "A".toList, "*".toList, "1".toList]
    let below : List Text := [[], "B".toList]
    (s.evaluate texts).halt? = some (.unreadable (.malformed "x y".toList)) ∧
      (s.above below).evaluate texts = (s.evaluate texts).above below ∧
      ((s.above below).evaluate texts).session.stack.toList = [[], "B".toList, "5".toList] := by
  intro s texts below
  have hhalt : (s.evaluate texts).halt? = some (.unreadable (.malformed "x y".toList)) := by
    decide +kernel
  have habove : (s.above below).evaluate texts = (s.evaluate texts).above below := by
    refine evaluate_above below fun word spot hmissing => ?_
    rw [hhalt] at hmissing
    cases hmissing
  refine ⟨hhalt, habove, ?_⟩
  rw [habove]
  decide +kernel

end Session

end ReversePolish
