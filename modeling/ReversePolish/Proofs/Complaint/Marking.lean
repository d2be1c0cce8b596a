import ReversePolish.Command.Run
import ReversePolish.Proofs.Session.Splitting

/-!
# The word under the carets

The line of an expression is its words with a blank between any two.  A mark
that starts behind the words before a word, each with its blank, and is as
wide as the word covers that word and nothing else, also if words are empty or
hold blanks themselves.  So the carets are as many as the word has characters,
or one if it has none, and what stands before them is as wide as what stands
before the word.  The blanks that are trimmed off the line shown above them
change neither.

A complaint about an expression marks the word at which evaluating it stopped.
-/

namespace ReversePolish

/-- An index names the position that it counts to, from the start or from the end. -/
theorem Position.exists_ofIndex?_eq_some
    {size : Nat} {index : Int}
    (hlow : -size ≤ index)
    (hhigh : index < size) :
    ∃ n : Fin size, ofIndex? size index = some n ∧
      (n : Int) = if index < 0 then index + size else index := by
  have hposition : 0 ≤ (if index < 0 then index + size else index) ∧
      (if index < 0 then index + size else index) < size := by
    split <;> omega
  exact ⟨_, dif_pos hposition, Int.toNat_of_nonneg hposition.1⟩

/-! ### Excerpts -/

namespace Excerpt

theorem joined_cons
    (word : Text) {rest : List Text}
    (h : rest ≠ []) :
    joined (word :: rest) = word ++ [' '] ++ joined rest := by
  cases rest with
  | nil => exact absurd rfl h
  | cons next rest => simp [joined]

/-- A line is what stands before a word, each word with a blank behind it, then the word, and then
what stands after it, each word with a blank before it. -/
theorem joined_append_cons
    (before : List Text) (word : Text) (after : List Text) :
    joined (before ++ word :: after) =
      before.flatMap (· ++ [' ']) ++ (word ++ after.flatMap ([' '] ++ ·)) := by
  induction before with
  | nil => exact Text.intercalate_cons [' '] word after
  | cons first before ih =>
      rw [List.cons_append, joined_cons first (by simp), ih, List.flatMap_cons,
        ← List.append_assoc]

theorem length_flatMap_blank
    (words : List Text) :
    (words.flatMap (· ++ [' '])).length = extent words := by
  induction words with
  | nil => rfl
  | cons word rest ih =>
      rw [List.flatMap_cons, List.length_append, List.length_append, List.length_singleton, ih,
        extent]

theorem joined_eq
    (words : List Text) (n : Fin words.length) :
    joined words = (words.take n).flatMap (· ++ [' ']) ++
      (words.get n ++ (words.drop (n + 1)).flatMap ([' '] ++ ·)) := by
  have hsplit : words.take n ++ words.get n :: words.drop (n + 1) = words := by
    rw [List.get_eq_getElem, ← List.drop_eq_getElem_cons n.isLt, List.take_append_drop]
  rw [← joined_append_cons, hsplit]

/-- A word ends within its line. -/
theorem extent_add_length_le
    (words : List Text) (n : Fin words.length) :
    extent (words.take n) + (words.get n).length ≤ (joined words).length := by
  rw [joined_eq words n, List.length_append, List.length_append, length_flatMap_blank]
  omega

/-- No caret is cut off at the end of the line if the mark ends within it. -/
theorem carets_eq
    {e : Excerpt}
    (h : e.start + e.width ≤ e.line.length) :
    e.carets = max 1 e.width := by
  rw [carets, Nat.min_eq_left (Nat.le_sub_of_add_le' h)]

/-- The excerpt marks the word at a position of an expression: what stands before the mark are the
words before that word, each with a blank behind it, and the mark covers the word. -/
structure Marks (e : Excerpt) (words : List Text) (n : Fin words.length) : Prop where
  line : e.line = joined words
  before : e.line.take e.start = (words.take n).flatMap (· ++ [' '])
  stretch : (e.line.drop e.start).take e.width = words.get n
  within : e.start + e.width ≤ e.line.length
  /-- Below the line there is a blank, or a tab, for each character before the mark, and then a
  caret for each character of the word, or one for an empty word. -/
  shown : e.toText = margin ++ Text.trimEnd e.line ++ '\n' ::
    ((margin ++ e.line.take e.start).map under ++
      List.replicate (max 1 (words.get n).length) '^' ++ ' ' :: e.caption)

/-- The excerpt of a word marks it. -/
theorem marks_of_ofIndex?
    {words : List Text} {index : Int} {n : Fin words.length} (caption : Text)
    (h : Position.ofIndex? words.length index = some n) :
    ∃ e, ofWord? words index caption = some e ∧ e.caption = caption ∧ e.Marks words n := by
  have hwithin := extent_add_length_le words n
  refine ⟨⟨joined words, extent (words.take n), (words.get n).length, caption⟩, ?_, rfl,
    rfl, ?_, ?_, hwithin, ?_⟩
  · rw [ofWord?, h, Option.map_some]
  · rw [joined_eq words n, ← length_flatMap_blank, List.take_left]
  · rw [joined_eq words n, ← length_flatMap_blank, List.drop_left, List.take_left]
  · rw [toText, carets_eq hwithin, List.map_append]

end Excerpt

/-! ### Complaints -/

namespace Complaint

theorem toText_eq
    (c : Complaint) :
    c.toText = c.intro ++
      (c.excerpts.map Excerpt.toText ++ c.footer).flatMap (['\n'] ++ ·) := by
  rw [toText, List.cons_append, Text.intercalate_cons]

/-- What is told of a stop is an excerpt, between the cause and perhaps a line at the end. -/
theorem exists_ofStop?_eq_some
    {words : List Text} {spot : Nat} {e : Excerpt} (cause : Cause)
    (h : Excerpt.ofWord? words spot "stopped here".toList = some e) :
    ∃ c, ofStop? words spot cause = some c ∧ c.excerpts = [e] ∧
      c.toText = cause.message ++ '\n' :: (e.toText ++ c.footer.flatMap (['\n'] ++ ·)) := by
  rw [ofStop?, h, Option.map_some]
  refine ⟨_, rfl, rfl, ?_⟩
  rw [toText_eq]
  rfl

/-- **An excerpt marks exactly the word that an index names, and a complaint marks the word that
stopped its evaluation.** -/
theorem marks_failing_word :
    (∀ (words : List Text) (index : Int) (caption : Text),
      -words.length ≤ index → index < words.length →
        ∃ (n : Fin words.length) (e : Excerpt),
          (n : Int) = (if index < 0 then index + words.length else index) ∧
            Excerpt.ofWord? words index caption = some e ∧ e.caption = caption ∧
            e.Marks words n) ∧
      ∀ (s : Session) (words : List Text) (word : Text) (spot : Nat) (cause : Cause),
        (s.evaluate words).halt? = some (.stopped word spot cause) →
          ∃ (n : Fin words.length) (e : Excerpt) (c : Complaint),
            n = spot ∧ words.get n = word ∧
              (s.evaluate (words.take n)).halt? = none ∧
              (s.evaluate (words.take (n + 1))).halt? = some (.stopped word spot cause) ∧
              ofStop? words spot cause = some c ∧
              (∀ quiet, (Work.evaluating s quiet words).complaints = [c]) ∧
              c.excerpts = [e] ∧ e.caption = "stopped here".toList ∧ e.Marks words n ∧
              c.toText =
                cause.message ++ '\n' :: (e.toText ++ c.footer.flatMap (['\n'] ++ ·)) := by
  constructor
  · intro words index caption hlow hhigh
    obtain ⟨n, hindex, hn⟩ := Position.exists_ofIndex?_eq_some hlow hhigh
    obtain ⟨e, he, hcaption, hmarks⟩ := Excerpt.marks_of_ofIndex? caption hindex
    exact ⟨n, e, hn, he, hcaption, hmarks⟩
  · intro s words word spot cause h
    obtain ⟨hword, hbefore, -⟩ := Session.evaluate_eq_stopped h
    obtain ⟨hspot, hget⟩ := List.getElem?_eq_some_iff.1 hword
    obtain ⟨e, he, hcaption, hmarks⟩ :=
      Excerpt.marks_of_ofIndex? "stopped here".toList (Position.ofIndex?_natCast hspot)
    obtain ⟨c, hc, hexcerpts, htext⟩ := exists_ofStop?_eq_some cause he
    refine ⟨⟨spot, hspot⟩, e, c, rfl, hget, hbefore, Session.halt?_evaluate_take_succ h, hc,
      ?_, hexcerpts, hcaption, hmarks, htext⟩
    intro quiet
    simp only [Work.evaluating, h, hc, Option.toList_some]

/-- A tab before the mark stands below it again.  A word of blanks is trimmed off the line and has
its carets all the same. -/
theorem marks_failing_word_blanks :
    let expression : List Text := ["a\tb".toList, "".toList, "cd".toList]
    let stopping : List Text := ["7".toList, " \t".toList]
    (∃ e : Excerpt, Excerpt.ofWord? expression (-1) [] = some e ∧
        (e.line.drop e.start).take e.width = "cd".toList ∧
        e.toText = " >>> a\tb  cd\n      \t   ^^ ".toList) ∧
      (Session.fresh.evaluate stopping).halt? = some (.stopped " \t".toList 1 .unsupported) ∧
      ∃ e : Excerpt, (e.line.drop e.start).take e.width = " \t".toList ∧
        e.toText = " >>> 7\n       ^^ stopped here".toList := by
  intro expression stopping
  have hhalt : (Session.fresh.evaluate stopping).halt? =
      some (.stopped " \t".toList 1 .unsupported) := by
    decide +kernel
  obtain ⟨hindex, hstop⟩ := marks_failing_word
  obtain ⟨⟨n, hn⟩, e, hposition, he, hcaption, hmarks⟩ :=
    hindex expression (-1) [] (by decide) (by decide)
  obtain rfl : n = 2 := Int.ofNat.inj hposition
  obtain ⟨⟨m, hm⟩, e', c, rfl, -, -, -, -, -, -, hcaption', hmarks', -⟩ :=
    hstop Session.fresh stopping _ _ _ hhalt
  refine ⟨⟨e, he, hmarks.stretch, ?_⟩, hhalt, e', hmarks'.stretch, ?_⟩
  · rw [hmarks.shown, hmarks.before, hmarks.line, hcaption]
    rfl
  · rw [hmarks'.shown, hmarks'.before, hmarks'.line, hcaption']
    rfl

end Complaint

end ReversePolish
