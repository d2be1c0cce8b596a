import Mathlib.Data.List.Forall2
import ReversePolish.Proofs.Session.Atomicity

/-!
# Evaluations in parallel

The same words are evaluated in two sessions.  If every word keeps a relation
between the two, be it done or not, then evaluating keeps it, ends for the
same reason in both and reports the same words.

A relation may be kept only as long as the first session does not come to
certain ends.  So what is asked of a word is asked only where its end, if it
has one, is among those that are admitted.
-/

namespace ReversePolish

/-- The sessions are related and end for the same reason. -/
def Interruption.Parallel (R : Session → Session → Prop) (i j : Interruption) : Prop :=
  R i.session j.session ∧ j.halt = i.halt

/-- The word is the same, and the stacks are those of related sessions. -/
def Step.Parallel (R : Session → Session → Prop) (a b : Step) : Prop :=
  b.word = a.word ∧ ∃ s t : Session, R s t ∧ a.stack = s.stack ∧ b.stack = t.stack

/-- The evaluations end for the same reason, if they do, in related sessions, and so are all
sessions on the way. -/
structure Evaluation.Parallel (R : Session → Session → Prop) (e e' : Evaluation) : Prop where
  session : R e.session e'.session
  steps : List.Forall₂ (Step.Parallel R) e.steps e'.steps
  halt : e'.halt? = e.halt?

namespace Session

open Outcome (Agree)

variable {R : Session → Session → Prop} {s t : Session}

/-! ### One word -/

/-- An operator keeps a relation if it finds operands in both sessions or in neither, and does the
same with them. -/
theorem operate_parallel
    {w : Word} {op : Operator}
    (h : R s t)
    (hmissing : ∀ restored, s.takeOperands = .error restored →
      ∃ restored', t.takeOperands = .error restored')
    (htaken : ∀ left right popped, s.takeOperands = .ok (left, right, popped) →
      ∃ left' right' popped', t.takeOperands = .ok (left', right', popped') ∧
        op.effect popped'.bindings left' right' = op.effect popped.bindings left right ∧
        R popped popped' ∧
        ∀ effect, op.effect popped.bindings left right = .ok effect →
          R (popped.perform effect) (popped'.perform effect)) :
    Agree R (Interruption.Parallel R) (s.operate w op) (t.operate w op) := by
  cases hs : s.takeOperands with
  | error restored =>
      obtain ⟨restored', ht⟩ := hmissing restored hs
      obtain ⟨rfl, -⟩ := takeOperands_eq_error hs
      obtain ⟨rfl, -⟩ := takeOperands_eq_error ht
      simp only [operate, hs, ht]
      exact .error ⟨h, rfl⟩
  | ok taken =>
      obtain ⟨left, right, popped⟩ := taken
      obtain ⟨left', right', popped', ht, heffect, hpopped, hperform⟩ :=
        htaken left right popped hs
      simp only [operate, hs, ht, heffect]
      cases hresult : op.effect popped.bindings left right with
      | ok effect => exact .ok (hperform effect hresult)
      | error obstacle =>
          cases obstacle with
          | cause c =>
              -- The operands are put back, so both sessions are as they were.
              simp only [putBack_of_takeOperands hs, putBack_of_takeOperands ht]
              exact .error ⟨h, rfl⟩
          | fault f => exact .error ⟨hpopped, rfl⟩

theorem step_parallel
    {w : Word}
    (h : R s t)
    (hpush : ∀ token, w.token? = some token → token.isOperand = true →
      R (s.push w.text) (t.push w.text))
    (hoperate : ∀ op, w.token? = some (.operator op) →
      Agree R (Interruption.Parallel R) (s.operate w op) (t.operate w op)) :
    Agree R (Interruption.Parallel R) (s.step w) (t.step w) := by
  cases htoken : w.token? with
  | none =>
      simp only [step, htoken]
      exact .error ⟨h, rfl⟩
  | some token =>
      cases token with
      | integer value =>
          simp only [step, htoken]
          exact .ok (hpush _ htoken rfl)
      | name letter =>
          simp only [step, htoken]
          exact .ok (hpush _ htoken rfl)
      | operator op =>
          simp only [step, htoken]
          exact hoperate op htoken

/-! ### Expressions -/

section Expressions

variable {Q : Halt → Prop}

/-- **What every word keeps, evaluating keeps**, as long as the first session comes to an end that
is admitted. -/
theorem run_parallel
    {words : List Word}
    (hstep : ∀ s t w, w ∈ words → R s t → (∀ i, s.step w = .error i → Q i.halt) →
      Agree R (Interruption.Parallel R) (s.step w) (t.step w))
    (hhalt : ∀ halt, (s.run words).halt? = some halt → Q halt)
    (h : R s t) :
    (s.run words).Parallel R (t.run words) := by
  induction words generalizing s t with
  | nil => exact ⟨h, .nil, rfl⟩
  | cons w rest ih =>
      have hagree := hstep s t w List.mem_cons_self h fun i hi => by
        rw [run_cons_of_error rest hi] at hhalt
        exact hhalt i.halt rfl
      generalize hs : s.step w = result, ht : t.step w = result' at hagree
      cases hagree with
      | ok hnext =>
          rw [run_cons_of_ok rest hs] at hhalt ⊢
          rw [run_cons_of_ok rest ht]
          obtain ⟨hsession, hsteps, hsame⟩ := ih
            (fun s t w' hw' => hstep s t w' (List.mem_cons_of_mem w hw')) hhalt hnext
          exact ⟨hsession, .cons ⟨rfl, _, _, hnext, rfl, rfl⟩ hsteps, hsame⟩
      | error herror =>
          rw [run_cons_of_error rest hs, run_cons_of_error rest ht]
          exact ⟨herror.1, .nil, congrArg some herror.2⟩

theorem evaluate_parallel
    {texts : List Text}
    (hstep : ∀ s t w, w.text ∈ texts → Token.ofText? w.text = .ok w.token? → R s t →
      (∀ i, s.step w = .error i → Q i.halt) →
      Agree R (Interruption.Parallel R) (s.step w) (t.step w))
    (hhalt : ∀ halt, (s.evaluate texts).halt? = some halt → Q halt)
    (h : R s t) :
    (s.evaluate texts).Parallel R (t.evaluate texts) := by
  cases hwords : Word.classify texts with
  | error fault =>
      simp only [evaluate, hwords]
      exact ⟨h, .nil, rfl⟩
  | ok words =>
      rw [evaluate_of_classify s hwords] at hhalt ⊢
      rw [evaluate_of_classify t hwords]
      refine run_parallel ?_ hhalt h
      intro s t w hw
      have htext : w.text ∈ texts := by
        rw [← Word.map_text_of_classifyFrom hwords]
        exact List.mem_map_of_mem hw
      exact hstep s t w htext (Word.token?_of_classifyFrom hwords hw)

end Expressions

end Session

end ReversePolish
