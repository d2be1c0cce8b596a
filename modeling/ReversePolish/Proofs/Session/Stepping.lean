import ReversePolish.Session.Evaluation

/-!
# Steps and runs

What one word does to a session is said once here: `step_eq_ok` lists the ways
in which a word can be evaluated, and `step_eq_stopped` says that a word which
cannot be evaluated leaves the session alone, operands included.

Runs over words compose.  A run over two pieces is the run over the first
piece and, unless that halts, the run over the second from where the first
one ended.  The steps of a run that goes through hold each word with the stack
as the words up to it leave it.
-/

namespace ReversePolish

namespace Session

/-! ### Operands -/

theorem takeOperands_eq_ok
    {s popped : Session} {left right : Text}
    (h : s.takeOperands = .ok (left, right, popped)) :
    s.stack.entries = left :: right :: popped.stack.entries ∧
      popped.bindings = s.bindings := by
  obtain ⟨⟨entries⟩, bindings⟩ := s
  rcases entries with _ | ⟨top, _ | ⟨next, below⟩⟩
  · cases h
  · cases h
  · cases h
    exact ⟨rfl, rfl⟩

/-- Where operands are missing, the session is as it was. -/
theorem takeOperands_eq_error
    {s restored : Session}
    (h : s.takeOperands = .error restored) :
    restored = s ∧ s.stack.entries.length < 2 := by
  obtain ⟨⟨entries⟩, bindings⟩ := s
  rcases entries with _ | ⟨top, _ | ⟨next, below⟩⟩
  · cases h
    exact ⟨rfl, Nat.zero_lt_two⟩
  · cases h
    exact ⟨rfl, Nat.one_lt_two⟩
  · cases h

theorem exists_takeOperands_eq_error_iff
    {s : Session} :
    (∃ restored, s.takeOperands = .error restored) ↔ s.stack.entries.length < 2 := by
  constructor
  · rintro ⟨restored, h⟩
    exact (takeOperands_eq_error h).2
  · intro h
    cases hoperands : s.takeOperands with
    | error restored => exact ⟨restored, rfl⟩
    | ok taken =>
        obtain ⟨left, right, popped⟩ := taken
        rw [(takeOperands_eq_ok hoperands).1, List.length_cons, List.length_cons] at h
        omega

/-- Operands that are put back stand where they were taken from. -/
theorem putBack_of_takeOperands
    {s popped : Session} {left right : Text}
    (h : s.takeOperands = .ok (left, right, popped)) :
    popped.putBack left right = s := by
  obtain ⟨hentries, hbindings⟩ := takeOperands_eq_ok h
  obtain ⟨⟨entries⟩, bindings⟩ := s
  obtain ⟨⟨below⟩, bindings'⟩ := popped
  cases hentries
  cases hbindings
  rfl

/-! ### One word -/

/-- A word that is evaluated goes on the stack itself or does what its operator does. -/
theorem step_eq_ok
    {s next : Session} {w : Word}
    (h : s.step w = .ok next) :
    (∃ token, w.token? = some token ∧ token.isOperand = true ∧ next = s.push w.text) ∨
      ∃ op left right popped effect, w.token? = some (.operator op) ∧
        s.takeOperands = .ok (left, right, popped) ∧
        op.effect popped.bindings left right = .ok effect ∧
        next = popped.perform effect := by
  rw [step] at h
  split at h
  · cases h
  · rename_i value htoken
    cases h
    exact Or.inl ⟨_, htoken, rfl, rfl⟩
  · rename_i letter htoken
    cases h
    exact Or.inl ⟨_, htoken, rfl, rfl⟩
  · rename_i op htoken
    right
    rw [operate] at h
    split at h
    · cases h
    · rename_i left right popped hoperands
      split at h
      · rename_i effect heffect
        cases h
        exact ⟨op, left, right, popped, effect, htoken, hoperands, heffect, rfl⟩
      · cases h
      · cases h

/-- A word that cannot be evaluated leaves the session as it found it. -/
theorem step_eq_stopped
    {s halted : Session} {w : Word} {word : Text} {spot : Nat} {cause : Cause}
    (h : s.step w = .error ⟨.stopped word spot cause, halted⟩) :
    word = w.text ∧ spot = w.spot ∧ halted = s := by
  rw [step] at h
  split at h
  · cases h
    exact ⟨rfl, rfl, rfl⟩
  · cases h
  · cases h
  · rw [operate] at h
    split at h
    · rename_i restored hoperands
      cases h
      exact ⟨rfl, rfl, (takeOperands_eq_error hoperands).1⟩
    · rename_i left right popped hoperands
      split at h
      · cases h
      · cases h
        exact ⟨rfl, rfl, putBack_of_takeOperands hoperands⟩
      · cases h

/-- Whatever ends a word early, the operands are back or off the stack. -/
theorem step_eq_error
    {s : Session} {w : Word} {interruption : Interruption}
    (h : s.step w = .error interruption) :
    interruption.session = s ∨
      ∃ left right, s.takeOperands = .ok (left, right, interruption.session) := by
  obtain ⟨⟨word, spot, cause⟩ | fault, halted⟩ := interruption
  · exact Or.inl (step_eq_stopped h).2.2
  · right
    rw [step] at h
    split at h
    · cases h
    · cases h
    · cases h
    · rw [operate] at h
      split at h
      · cases h
      · rename_i left right popped hoperands
        split at h
        · cases h
        · cases h
        · cases h
          exact ⟨left, right, hoperands⟩

end Session

/-! ### Runs -/

namespace Evaluation

/-- An evaluation with steps before it. -/
def behind (e : Evaluation) (steps : List Step) : Evaluation :=
  ⟨e.session, steps ++ e.steps, e.halt?⟩

@[simp] theorem session_behind
    (e : Evaluation) (steps : List Step) :
    (e.behind steps).session = e.session := rfl

@[simp] theorem steps_behind
    (e : Evaluation) (steps : List Step) :
    (e.behind steps).steps = steps ++ e.steps := rfl

@[simp] theorem halt?_behind
    (e : Evaluation) (steps : List Step) :
    (e.behind steps).halt? = e.halt? := rfl

theorem behind_behind
    (e : Evaluation) (first second : List Step) :
    (e.behind second).behind first = e.behind (first ++ second) := by
  simp [behind]

/-- Goes on where an evaluation ended, unless something ended it early. -/
def andThen (e : Evaluation) (next : Session → Evaluation) : Evaluation :=
  match e.halt? with
  | some _ => e
  | none => (next e.session).behind e.steps

theorem andThen_of_halted
    {e : Evaluation} {halt : Halt} (next : Session → Evaluation)
    (h : e.halt? = some halt) :
    e.andThen next = e := by
  rw [andThen, h]

theorem andThen_of_done
    {e : Evaluation} (next : Session → Evaluation)
    (h : e.halt? = none) :
    e.andThen next = (next e.session).behind e.steps := by
  rw [andThen, h]

/-- Steps before an evaluation stay before all that follows it. -/
theorem behind_andThen
    (e : Evaluation) (steps : List Step) (next : Session → Evaluation) :
    (e.behind steps).andThen next = (e.andThen next).behind steps := by
  cases h : e.halt? with
  | none =>
      rw [andThen_of_done next h, andThen_of_done next (e := e.behind steps) h, behind_behind]
      rfl
  | some halt => rw [andThen_of_halted next h, andThen_of_halted (e := e.behind steps) next h]

end Evaluation

namespace Session

@[simp] theorem run_nil
    (s : Session) :
    s.run [] = ⟨s, [], none⟩ := rfl

theorem run_cons_of_ok
    {s next : Session} {w : Word} (rest : List Word)
    (h : s.step w = .ok next) :
    s.run (w :: rest) = (next.run rest).behind [⟨w.text, next.stack⟩] := by
  rw [run, h]
  rfl

theorem run_cons_of_error
    {s : Session} {interruption : Interruption} {w : Word} (rest : List Word)
    (h : s.step w = .error interruption) :
    s.run (w :: rest) = ⟨interruption.session, [], some interruption.halt⟩ := by
  rw [run, h]

theorem run_append
    (s : Session) (first rest : List Word) :
    s.run (first ++ rest) = (s.run first).andThen fun t => t.run rest := by
  induction first generalizing s with
  | nil => rfl
  | cons w first ih =>
      rw [List.cons_append]
      cases hstep : s.step w with
      | error interruption =>
          rw [run_cons_of_error _ hstep, run_cons_of_error _ hstep]
          rfl
      | ok next =>
          rw [run_cons_of_ok _ hstep, run_cons_of_ok _ hstep, ih, Evaluation.behind_andThen]

/-- What every word keeps, done or not, a run keeps. -/
theorem run_invariant
    {P : Session → Prop} {s : Session} {words : List Word}
    (hdone : ∀ s w next, w ∈ words → P s → s.step w = .ok next → P next)
    (hended : ∀ s w interruption, w ∈ words → P s → s.step w = .error interruption →
      P interruption.session)
    (hs : P s) :
    P (s.run words).session := by
  induction words generalizing s with
  | nil => exact hs
  | cons w rest ih =>
      cases hstep : s.step w with
      | error interruption =>
          rw [run_cons_of_error rest hstep]
          exact hended s w interruption List.mem_cons_self hs hstep
      | ok next =>
          rw [run_cons_of_ok rest hstep, Evaluation.session_behind]
          refine ih ?_ ?_ (hdone s w next List.mem_cons_self hs hstep)
          · intro t w' next' hw'
            exact hdone t w' next' (List.mem_cons_of_mem w hw')
          · intro t w' interruption hw'
            exact hended t w' interruption (List.mem_cons_of_mem w hw')

/-- What goes through goes through up to every word. -/
theorem halt?_run_take
    {s : Session} {words : List Word}
    (h : (s.run words).halt? = none)
    (n : Nat) :
    (s.run (words.take n)).halt? = none := by
  cases hhalt : (s.run (words.take n)).halt? with
  | none => rfl
  | some halt =>
      rw [← List.take_append_drop n words, run_append,
        Evaluation.andThen_of_halted _ hhalt, hhalt] at h
      exact h

/-- A run that stops did all the words before the one where it stops, and nothing else. -/
theorem run_eq_stopped
    {s : Session} {words : List Word} {word : Text} {spot : Nat} {cause : Cause}
    (h : (s.run words).halt? = some (.stopped word spot cause)) :
    ∃ done w rest, words = done ++ w :: rest ∧ word = w.text ∧ spot = w.spot ∧
      (s.run done).halt? = none ∧ (s.run words).session = (s.run done).session ∧
      (s.run words).steps = (s.run done).steps := by
  induction words generalizing s with
  | nil => cases h
  | cons w rest ih =>
      cases hstep : s.step w with
      | error interruption =>
          rw [run_cons_of_error rest hstep] at h ⊢
          obtain ⟨halt, halted⟩ := interruption
          cases h
          obtain ⟨hword, hspot, rfl⟩ := step_eq_stopped hstep
          exact ⟨[], w, rest, rfl, hword, hspot, rfl, rfl, rfl⟩
      | ok next =>
          rw [run_cons_of_ok rest hstep] at h ⊢
          obtain ⟨done, w', rest', rfl, hword, hspot, hdone, hsession, hsteps⟩ := ih h
          refine ⟨w :: done, w', rest', rfl, hword, hspot, ?_, ?_, ?_⟩
          · rw [run_cons_of_ok done hstep]
            exact hdone
          · rw [run_cons_of_ok done hstep]
            exact hsession
          · rw [run_cons_of_ok done hstep]
            exact congrArg (_ :: ·) hsteps

/-- The steps of a run that goes through. -/
theorem steps_run
    {s : Session} {words : List Word}
    (h : (s.run words).halt? = none) :
    (s.run words).steps =
      words.mapIdx fun i w => ⟨w.text, (s.run (words.take (i + 1))).session.stack⟩ := by
  induction words generalizing s with
  | nil => rfl
  | cons w rest ih =>
      cases hstep : s.step w with
      | error interruption =>
          rw [run_cons_of_error rest hstep] at h
          cases h
      | ok next =>
          rw [run_cons_of_ok rest hstep] at h ⊢
          rw [List.mapIdx_cons]
          simp only [List.take_succ_cons, run_cons_of_ok _ hstep, List.take_zero, run_nil]
          exact congrArg (_ :: ·) (ih h)

end Session

end ReversePolish
