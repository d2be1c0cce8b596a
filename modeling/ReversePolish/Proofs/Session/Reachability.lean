import Mathlib.Data.List.Perm.Subperm
import ReversePolish.Proofs.Session.Cause
import ReversePolish.Proofs.Session.Reading
import ReversePolish.Proofs.Session.Resuming

/-!
# Sessions that can be reached

A calculation starts with a fresh session and goes on by evaluating, by
starting over, by restoring what was recorded of it, and by resuming whatever
a disk holds.  All sessions on the way are valid and orderly.  As no name is
bound twice and a name is a letter, there are at most 26 bindings.

In such a session a word that cannot be evaluated has a cause of its own:
nothing else ends the evaluation of words that can be classified.
-/

namespace ReversePolish

namespace Session

/-! ### The number of bindings -/

/-- The texts of all variables. -/
def letters : List Text :=
  (List.range 26).map fun n => [Char.ofNat (0x41 + n)]

theorem mem_letters_of_isName
    {t : Text}
    (h : t.IsName) :
    t ∈ letters := by
  obtain ⟨letter, htoken⟩ := h
  obtain ⟨hletter, rfl⟩ := Token.ofText?_eq_name_iff.1 htoken
  have hrange := (Lexeme.isLetter_iff letter).1 hletter
  refine List.mem_map.2 ⟨letter.toNat - 0x41, List.mem_range.2 (by omega), ?_⟩
  have hnumber : 0x41 + (letter.toNat - 0x41) = letter.toNat := by omega
  rw [hnumber, Char.ofNat_toNat]

/-- There are no more bindings than letters. -/
theorem IsValid.size_le
    {s : Session}
    (h : s.IsValid)
    (horderly : s.bindings.IsOrderly) :
    s.bindings.size ≤ 26 := by
  have hsubset : s.bindings.toList.map Prod.fst ⊆ letters := by
    intro name hname
    obtain ⟨pair, hpair, rfl⟩ := List.mem_map.1 hname
    exact mem_letters_of_isName (h.names pair hpair)
  have hlength := (horderly.nodup_names.subperm hsubset).length_le
  rw [List.length_map] at hlength
  exact hlength

/-! ### Sessions on the way -/

/-- What a calculation can come to: it starts with a fresh session, as it does again when it is
started over, and goes on from any session that it came to, or with one that some disk holds. -/
inductive Reachable : Session → Prop
  | fresh : Reachable fresh
  | evaluate {s : Session} (h : Reachable s) (texts : List Text) :
      Reachable (s.evaluate texts).session
  | restore {s : Session} (h : Reachable s) : Reachable (ofRecord s.toRecord)
  | resume {s : Session} {d : Disk} {p : Path} (h : resume d p = .ok s) : Reachable s

theorem Reachable.isValid_and_isOrderly
    {s : Session}
    (h : s.Reachable) :
    s.IsValid ∧ s.bindings.IsOrderly := by
  induction h with
  | fresh => exact ⟨isValid_fresh, Bindings.isOrderly_empty⟩
  | evaluate _ texts ih => exact ⟨ih.1.evaluate texts, isOrderly_evaluate ih.2 texts⟩
  | restore _ ih =>
      rw [ofRecord_toRecord ih.2]
      exact ih
  | resume h => exact isValid_of_resume h

/-- In a valid session only a word that fails can end the evaluation of an expression, and it has
one of the seven causes that are known. -/
theorem IsValid.evaluate_ends
    {s : Session} {texts : List Text}
    (h : s.IsValid)
    (htexts : ∀ t ∈ texts, t.IsClassifiable) :
    (s.evaluate texts).halt? = none ∨
      ∃ word spot cause, cause ≠ .unexplained ∧
        (s.evaluate texts).halt? = some (.stopped word spot cause) := by
  cases hhalt : (s.evaluate texts).halt? with
  | none => exact Or.inl rfl
  | some halt =>
      cases halt with
      | stopped word spot cause =>
          refine Or.inr ⟨word, spot, cause, ?_, rfl⟩
          rintro rfl
          exact s.evaluate_ne_unexplained texts word spot hhalt
      | unreadable f => exact absurd hhalt (h.evaluate_ne_unreadable htexts f)

/-- **Every session on the way is well formed, and evaluating it meets no error but a word's.** -/
theorem Reachable.invariant
    {s : Session}
    (h : s.Reachable) :
    (∀ t ∈ s.stack.toList, t.IsOperand) ∧
      (∀ pair ∈ s.bindings.toList, pair.1.IsName ∧ pair.2.IsInteger) ∧
      (s.bindings.toList.map Prod.fst).Nodup ∧
      (∀ i, ∀ pair ∈ s.bindings.chain i, Bindings.bucket pair.1 = i) ∧
      s.bindings.size ≤ 26 ∧
      ∀ texts : List Text, (∀ t ∈ texts, t.IsClassifiable) →
        (s.evaluate texts).halt? = none ∨
          ∃ word spot cause, cause ≠ .unexplained ∧
            (s.evaluate texts).halt? = some (.stopped word spot cause) := by
  obtain ⟨hvalid, horderly⟩ := h.isValid_and_isOrderly
  refine ⟨?_, ?_, horderly.nodup_names, horderly.placed, hvalid.size_le horderly, ?_⟩
  · exact fun t ht => hvalid.entries t (List.mem_reverse.1 ht)
  · exact fun pair hpair => ⟨hvalid.names pair hpair, hvalid.values pair hpair⟩
  · exact fun texts htexts => hvalid.evaluate_ends htexts

/-- The least integer is bound and would be divided by -1, which overflows. -/
theorem invariant_least_quotient :
    let s := (fresh.evaluate
      ["A".toList, "-9223372036854775808".toList, "=".toList, "-1".toList, "A".toList]).session
    s.stack.toList = ["-1".toList, "A".toList] ∧
      (∀ t ∈ s.stack.toList, t.IsOperand) ∧ s.bindings.size ≤ 26 ∧
      (s.evaluate ["/".toList]).halt? = some (.stopped "/".toList 0 .overflow) ∧
      ((s.evaluate ["/".toList]).halt? = none ∨
        ∃ word spot cause, cause ≠ .unexplained ∧
          (s.evaluate ["/".toList]).halt? = some (.stopped word spot cause)) := by
  intro s
  have hstack : s.stack.toList = ["-1".toList, "A".toList] := by
    decide +kernel
  have hhalt : (s.evaluate ["/".toList]).halt? = some (.stopped "/".toList 0 .overflow) := by
    decide +kernel
  have hslash : Word.classify ["/".toList] = .ok
      [⟨"/".toList, 0, some (.operator (.arithmetic .divide))⟩] := by
    decide +kernel
  have hreachable : s.Reachable := .evaluate .fresh _
  obtain ⟨hentries, -, -, -, hsize, hends⟩ := Reachable.invariant hreachable
  exact ⟨hstack, hentries, hsize, hhalt, hends _ (Word.exists_classify_iff.1 ⟨_, hslash⟩)⟩

end Session

end ReversePolish
