import ReversePolish.Proofs.Session.Atomicity
import ReversePolish.Proofs.Session.Reachability

/-!
# How the evaluation of an expression ends

An evaluation should come to its end or to a word that cannot be evaluated,
whatever the words are.  A single kind of word keeps it from that: a numeral
with so many zeros before its few significant digits that it cannot be read.
All words are looked at before the first is evaluated, so with such a word
anywhere in an expression nothing is done, not even for the words before it.
-/

namespace ReversePolish
namespace Session

/-- An evaluation ends as it should: all words are done, or one of them fails for a cause of its
own and leaves what the words before it lead to. -/
inductive EndsAtAWord (s : Session) (texts : List Text) : Prop
  | done (hhalt : (s.evaluate texts).halt? = none)
  | failed {word : Text} {spot : Nat} {cause : Cause}
      (hcause : cause ≠ .unexplained)
      (hhalt : (s.evaluate texts).halt? = some (.stopped word spot cause))
      (hword : texts[spot]? = some word)
      (hbefore : (s.evaluate (texts.take spot)).halt? = none)
      (hsession : (s.evaluate texts).session = (s.evaluate (texts.take spot)).session)

theorem IsValid.endsAtAWord
    {s : Session} {texts : List Text}
    (h : s.IsValid)
    (htexts : ∀ t ∈ texts, t.IsClassifiable) :
    s.EndsAtAWord texts := by
  rcases h.evaluate_ends htexts with hdone | ⟨word, spot, cause, hcause, hhalt⟩
  · exact .done hdone
  · obtain ⟨hword, hbefore, hsession, -⟩ := evaluate_eq_stopped hhalt
    exact .failed hcause hhalt hword hbefore hsession

/-- The first overlong word of an expression ends its evaluation before any word is done. -/
theorem evaluate_of_isOverlong
    {before : List Text} {t : Text} (s : Session) (after : List Text)
    (hbefore : ∀ u ∈ before, ¬ Numeral.IsOverlong u)
    (ht : Numeral.IsOverlong t) :
    s.evaluate (before ++ t :: after) =
      ⟨s, [], some (.unreadable (.tooLong (Numeral.digits t).length))⟩ := by
  have hclassify : Word.classify (before ++ t :: after) =
      .error (.tooLong (Numeral.digits t).length) :=
    Word.classifyFrom_eq_error_iff.2 ⟨before, t, after, rfl,
      fun u hu => Text.isClassifiable_iff.2 (hbefore u hu), ht, rfl⟩
  rw [evaluate, hclassify]

theorem exists_first_isOverlong
    {texts : List Text}
    (h : ∃ t ∈ texts, Numeral.IsOverlong t) :
    ∃ before t after, texts = before ++ t :: after ∧
      (∀ u ∈ before, ¬ Numeral.IsOverlong u) ∧ Numeral.IsOverlong t := by
  have hclassify : ¬ ∃ words, Word.classify texts = .ok words := by
    intro hwords
    obtain ⟨t, hmem, ht⟩ := h
    exact Text.isClassifiable_iff.1 (Word.exists_classify_iff.1 hwords t hmem) ht
  cases hwords : Word.classify texts with
  | ok words => exact absurd ⟨words, hwords⟩ hclassify
  | error f =>
      obtain ⟨before, t, after, rfl, hbefore, ht, -⟩ := Word.classifyFrom_eq_error_iff.1 hwords
      exact ⟨before, t, after, rfl, fun u hu => Text.isClassifiable_iff.1 (hbefore u hu), ht⟩

theorem not_endsAtAWord_of_isOverlong
    {s : Session} {texts : List Text}
    (h : ∃ t ∈ texts, Numeral.IsOverlong t) :
    ¬ s.EndsAtAWord texts := by
  obtain ⟨before, t, after, rfl, hbefore, ht⟩ := exists_first_isOverlong h
  have hevaluate := s.evaluate_of_isOverlong after hbefore ht
  rintro (hhalt | ⟨-, hhalt, -, -, -⟩)
  · rw [hevaluate] at hhalt
    cases hhalt
  · rw [hevaluate] at hhalt
    cases hhalt

/-- **An evaluation ends as it should unless one of its words is overlong; then it does nothing.**
Every text that is not overlong can be classified. -/
theorem Reachable.endsAtAWord_iff
    {s : Session}
    (h : s.Reachable) :
    (∀ t : Text, t.IsClassifiable ↔ ¬ Numeral.IsOverlong t) ∧
      (∀ texts, s.EndsAtAWord texts ↔ ∀ t ∈ texts, ¬ Numeral.IsOverlong t) ∧
      ∀ before t after, (∀ u ∈ before, ¬ Numeral.IsOverlong u) → Numeral.IsOverlong t →
        s.evaluate (before ++ t :: after) =
          ⟨s, [], some (.unreadable (.tooLong (Numeral.digits t).length))⟩ := by
  refine ⟨fun t => Text.isClassifiable_iff, fun texts => ⟨?_, ?_⟩, ?_⟩
  · intro hends t hmem ht
    exact not_endsAtAWord_of_isOverlong ⟨t, hmem, ht⟩ hends
  · intro htexts
    exact h.isValid_and_isOrderly.1.endsAtAWord
      fun t ht => Text.isClassifiable_iff.2 (htexts t ht)
  · intro before t after hbefore ht
    exact s.evaluate_of_isOverlong after hbefore ht

/-- A division by zero is an end as it should be, and the words before the operator are done. -/
theorem endsAtAWord_iff_zero_division :
    let texts := ["00".toList, "3".toList, "/".toList]
    (fresh.evaluate texts).halt? = some (.stopped "/".toList 2 .divisionByZero) ∧
      (fresh.EndsAtAWord texts ↔ ∀ t ∈ texts, ¬ Numeral.IsOverlong t) := by
  intro texts
  have hhalt : (fresh.evaluate texts).halt? = some (.stopped "/".toList 2 .divisionByZero) := by
    decide +kernel
  exact ⟨hhalt, (Reachable.endsAtAWord_iff .fresh).2.1 texts⟩

/-- The number one, spelled with enough zeros before it, can neither be classified nor lets the
word before it be done. -/
theorem overlong_one_not_endsAtAWord :
    let t : Text := List.replicate 4300 '0' ++ ['1']
    Token.ofText? t = .error (.tooLong 4301) ∧ Reachable fresh ∧
      fresh.evaluate ["3".toList, t] = ⟨fresh, [], some (.unreadable (.tooLong 4301))⟩ ∧
      ¬ fresh.EndsAtAWord ["3".toList, t] := by
  intro t
  have ht : Numeral.IsOverlong t := Numeral.isOverlong_zeros_one (Nat.le_refl 4300)
  have hlength : (Numeral.digits t).length = 4301 := Numeral.length_digits_zeros_one 4300
  have hthree : ∀ u ∈ ["3".toList], ¬ Numeral.IsOverlong u := by
    intro u hu hoverlong
    rw [List.mem_singleton.1 hu] at hoverlong
    exact absurd hoverlong.tooLong (by decide)
  refine ⟨?_, .fresh, ?_, not_endsAtAWord_of_isOverlong ⟨t, by simp, ht⟩⟩
  · rw [← hlength]
    exact Token.ofText?_eq_error_iff.2 ⟨ht, rfl⟩
  · rw [← hlength]
    exact fresh.evaluate_of_isOverlong [] hthree ht

end Session
end ReversePolish
