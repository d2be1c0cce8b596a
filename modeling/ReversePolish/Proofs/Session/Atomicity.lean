import ReversePolish.Proofs.Session.Stepping
import ReversePolish.Proofs.Word.Classification

/-!
# Words that fail

An expression is evaluated up to the first word that cannot be.  The session
is then the one that the words before it lead to, stack and bindings alike:
the failing word takes nothing away and adds nothing, whatever the texts in
the session are.  Every word before it was reported once, in order, with the
stack as the words up to it leave it.
-/

namespace ReversePolish
namespace Session

/-- The steps of an expression that is evaluated to its end: each word with the stack that the
words up to it lead to. -/
def trail (s : Session) (texts : List Text) : List Step :=
  texts.mapIdx fun i word => ⟨word, (s.evaluate (texts.take (i + 1))).session.stack⟩

theorem evaluate_of_classify
    {texts : List Text} {words : List Word} (s : Session)
    (h : Word.classify texts = .ok words) :
    s.evaluate texts = s.run words := by
  rw [evaluate, h]

theorem evaluate_take
    {texts : List Text} {words : List Word} (s : Session)
    (h : Word.classify texts = .ok words)
    (n : Nat) :
    s.evaluate (texts.take n) = s.run (words.take n) :=
  evaluate_of_classify s (Word.classifyFrom_take h n)

/-- Unless a text cannot be classified, evaluating is running over the words. -/
theorem exists_classify_of_halt?
    (s : Session) (texts : List Text)
    (h : ∀ fault, (s.evaluate texts).halt? ≠ some (.unreadable fault)) :
    ∃ words, Word.classify texts = .ok words := by
  cases hwords : Word.classify texts with
  | ok words => exact ⟨words, rfl⟩
  | error fault =>
      rw [evaluate, hwords] at h
      exact absurd rfl (h fault)

theorem trail_of_classify
    {texts : List Text} {words : List Word} (s : Session)
    (h : Word.classify texts = .ok words) :
    s.trail texts =
      words.mapIdx fun i w => ⟨w.text, (s.run (words.take (i + 1))).session.stack⟩ := by
  have htexts : words.map Word.text = texts := Word.map_text_of_classifyFrom h
  simp only [trail, evaluate_take s h]
  rw [← htexts, List.mapIdx_eq_zipIdx_map, List.mapIdx_eq_zipIdx_map, List.zipIdx_map,
    List.map_map]
  rfl

theorem steps_evaluate
    {s : Session} {texts : List Text}
    (h : (s.evaluate texts).halt? = none) :
    (s.evaluate texts).steps = s.trail texts := by
  obtain ⟨words, hwords⟩ := exists_classify_of_halt? s texts (by simp [h])
  rw [evaluate_of_classify s hwords] at h ⊢
  rw [trail_of_classify s hwords]
  exact steps_run h

/-- A word that fails leaves what the words before it lead to. -/
theorem evaluate_eq_stopped
    {s : Session} {texts : List Text} {word : Text} {spot : Nat} {cause : Cause}
    (h : (s.evaluate texts).halt? = some (.stopped word spot cause)) :
    texts[spot]? = some word ∧
      (s.evaluate (texts.take spot)).halt? = none ∧
      (s.evaluate texts).session = (s.evaluate (texts.take spot)).session ∧
      (s.evaluate texts).steps = (s.evaluate (texts.take spot)).steps := by
  obtain ⟨words, hwords⟩ := exists_classify_of_halt? s texts (by simp [h])
  rw [evaluate_of_classify s hwords] at h ⊢
  obtain ⟨done, w, rest, rfl, rfl, rfl, hdone, hsession, hsteps⟩ := run_eq_stopped h
  have hspot : w.spot = done.length := by
    rw [Word.spot_of_classifyFrom hwords, Nat.zero_add]
  have hrun : s.evaluate (texts.take w.spot) = s.run done := by
    rw [evaluate_take s hwords, hspot, List.take_left']
    rfl
  rw [hrun]
  refine ⟨?_, hdone, hsession, hsteps⟩
  rw [← Word.map_text_of_classifyFrom hwords, hspot]
  simp

theorem halt?_evaluate_take
    {s : Session} {texts : List Text}
    (h : (s.evaluate texts).halt? = none)
    (n : Nat) :
    (s.evaluate (texts.take n)).halt? = none := by
  obtain ⟨words, hwords⟩ := exists_classify_of_halt? s texts (by simp [h])
  rw [evaluate_of_classify s hwords] at h
  rw [evaluate_take s hwords]
  exact halt?_run_take h n

/-- **A word that fails is atomic, and the words before it stick.** -/
theorem failing_word_atomic
    (s : Session) (texts : List Text) :
    (∀ word spot cause,
        (s.evaluate texts).halt? = some (.stopped word spot cause) →
          texts[spot]? = some word ∧
          (∀ n ≤ spot, (s.evaluate (texts.take n)).halt? = none) ∧
          (s.evaluate texts).session = (s.evaluate (texts.take spot)).session ∧
          (s.evaluate texts).steps = s.trail (texts.take spot)) ∧
      ((s.evaluate texts).halt? = none →
        (∀ n, (s.evaluate (texts.take n)).halt? = none) ∧
        (s.evaluate texts).steps = s.trail texts) := by
  refine ⟨?_, fun h => ⟨halt?_evaluate_take h, steps_evaluate h⟩⟩
  intro word spot cause h
  obtain ⟨hword, hdone, hsession, hsteps⟩ := evaluate_eq_stopped h
  refine ⟨hword, ?_, hsession, hsteps.trans (steps_evaluate hdone)⟩
  intro n hn
  have htake : texts.take n = (texts.take spot).take n := by
    rw [List.take_take, Nat.min_eq_left hn]
  rw [htake]
  exact halt?_evaluate_take hdone n

/-- The stack of unchecked texts and the bound name are as they were before the sum failed. -/
theorem failing_word_atomic_unknown_name :
    let s : Session := .ofRecord ⟨["x y".toList, "B".toList], [("B".toList, "7".toList)]⟩
    let texts : List Text := ["5".toList, "C".toList, "+".toList, "1".toList]
    (s.evaluate texts).halt? =
        some (.stopped "+".toList 2 (.unknownVariable "C".toList)) ∧
      (s.evaluate texts).session = (s.evaluate (texts.take 2)).session :=
  have h : _ := by decide +kernel
  ⟨h, ((failing_word_atomic _ _).1 _ _ _ h).2.2.1⟩

end Session
end ReversePolish
