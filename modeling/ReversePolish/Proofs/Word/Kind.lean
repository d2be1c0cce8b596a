import ReversePolish.Proofs.Numeral.Canonical
import ReversePolish.Proofs.Outcome
import ReversePolish.Word.Basic

/-!
# Kinds of words

A text is a single lexeme in three ways: as an integer, it is an optional sign
before ASCII digits; as a variable, one letter; as an operator, one of five
characters.  This module says so for `Lexeme.scan?`, and carries it over to
`Token.ofText?`: an integer has to be in range besides, and its value is what
reading gives.

The canonical numeral of every integer that fits is again an integer as a
word, so the result of an operation can always go back to the stack.
-/

namespace ReversePolish

namespace Numeral

/-- An optional sign before ASCII digits. -/
def IsSpelling (t : Text) : Prop :=
  AllDigits t ∨
    ∃ sign digits, Lexeme.isSign sign = true ∧ AllDigits digits ∧ t = sign :: digits

theorem isSpelling_ofInt
    (n : Int) :
    IsSpelling (ofInt n) := by
  rw [ofInt_eq]
  split
  · exact Or.inr ⟨'-', ofNat n.natAbs, by decide, allDigits_ofNat n.natAbs, rfl⟩
  · exact Or.inl (allDigits_ofNat n.natAbs)

/-- An integer that passes the test of range and is read fits. -/
theorem fits_of_inRange
    {t : Text} {n : Int}
    (hrange : inRange t = .ok true)
    (hread : read t = .ok n) :
    Fits n := by
  rw [inRange] at hrange
  split at hrange
  · cases hrange
  · rw [hread] at hrange
    exact of_decide_eq_true (Except.ok.inj hrange)

end Numeral

namespace Lexeme

/-! ### Texts of one lexeme -/

theorem scan?_nil : scan? [] = some [] := by
  rw [scan?]

theorem scan?_of_next?_eq_none
    {t : Text}
    (hne : t ≠ [])
    (h : next? t = none) :
    scan? t = none := by
  cases t with
  | nil => exact absurd rfl hne
  | cons c t =>
      rw [scan?]
      split
      · rfl
      · rename_i hsome
        rw [h] at hsome
        cases hsome

theorem scan?_of_next?_eq_some
    {t rest : Text} {lexeme : Lexeme}
    (h : next? t = some (lexeme, rest)) :
    scan? t = (scan? rest).map (lexeme :: ·) := by
  cases t with
  | nil => cases h
  | cons c t =>
      rw [scan?]
      split
      · rename_i hnone
        rw [h] at hnone
        cases hnone
      · rename_i hsome
        rw [h] at hsome
        cases hsome
        rfl

/-- Only the empty text has no lexemes. -/
theorem scan?_eq_nil_iff
    {t : Text} :
    scan? t = some [] ↔ t = [] := by
  constructor
  · intro h
    by_contra hne
    cases hnext : next? t with
    | none =>
        rw [scan?_of_next?_eq_none hne hnext] at h
        cases h
    | some found =>
        rw [scan?_of_next?_eq_some hnext] at h
        obtain ⟨lexemes, -, hcons⟩ := Option.map_eq_some_iff.1 h
        cases hcons
  · rintro rfl
    exact scan?_nil

theorem scan?_eq_cons_iff
    {t : Text} {lexeme : Lexeme} {lexemes : List Lexeme} :
    scan? t = some (lexeme :: lexemes) ↔
      ∃ rest, next? t = some (lexeme, rest) ∧ scan? rest = some lexemes := by
  constructor
  · intro h
    cases hnext : next? t with
    | none =>
        by_cases ht : t = []
        · rw [ht, scan?_nil] at h
          cases h
        · rw [scan?_of_next?_eq_none ht hnext] at h
          cases h
    | some found =>
        obtain ⟨first, rest⟩ := found
        rw [scan?_of_next?_eq_some hnext] at h
        obtain ⟨others, hrest, hcons⟩ := Option.map_eq_some_iff.1 h
        obtain ⟨rfl, rfl⟩ := List.cons.inj hcons
        exact ⟨rest, rfl, hrest⟩
  · rintro ⟨rest, hnext, hrest⟩
    rw [scan?_of_next?_eq_some hnext, hrest]
    rfl

theorem scan?_eq_singleton_iff
    {t : Text} {lexeme : Lexeme} :
    scan? t = some [lexeme] ↔ next? t = some (lexeme, []) := by
  rw [scan?_eq_cons_iff]
  constructor
  · rintro ⟨rest, hnext, hrest⟩
    rw [← scan?_eq_nil_iff.1 hrest]
    exact hnext
  · intro h
    exact ⟨[], h, scan?_nil⟩

/-- A whole text is the lexeme of an integer when it is a sign and digits. -/
theorem next?_eq_integer_iff
    {t text : Text} :
    next? t = some (integer text, []) ↔ Numeral.IsSpelling t ∧ text = t := by
  cases t with
  | nil =>
      refine ⟨fun h => (by cases h), ?_⟩
      rintro ⟨h | ⟨sign, digits, -, -, h⟩, -⟩
      · exact absurd rfl h.ne_nil
      · cases h
  | cons c rest =>
      constructor
      · intro h
        simp only [next?] at h
        split at h
        · rename_i hc
          simp only [Option.some.injEq, Prod.mk.injEq, integer.injEq,
            List.dropWhile_eq_nil_iff] at h
          obtain ⟨htext, hrest⟩ := h
          rw [List.takeWhile_eq_self_iff.2 hrest] at htext hc
          refine ⟨?_, htext.symm⟩
          simp only [Bool.or_eq_true, Bool.and_eq_true, Bool.not_eq_true',
            List.isEmpty_eq_false_iff] at hc
          rcases hc with hc | ⟨hc, hne⟩
          · exact Or.inl ⟨List.cons_ne_nil c rest, List.forall_mem_cons.2 ⟨hc, hrest⟩⟩
          · exact Or.inr ⟨c, rest, hc, ⟨hne, hrest⟩, rfl⟩
        · split at h
          · cases h
          · obtain ⟨op, -, hop⟩ := Option.map_eq_some_iff.1 h
            cases hop
      · rintro ⟨h, rfl⟩
        have hrest : (∀ d ∈ rest, isDigit d = true) ∧
            (isDigit c || (isSign c && !(rest.takeWhile isDigit).isEmpty)) = true := by
          rcases h with h | ⟨sign, digits, hsign, hdigits, heq⟩
          · obtain ⟨hc, hrest⟩ := List.forall_mem_cons.1 h.isDigit
            exact ⟨hrest, by rw [hc]; rfl⟩
          · obtain ⟨rfl, rfl⟩ := List.cons.inj heq
            refine ⟨hdigits.isDigit, ?_⟩
            rw [List.takeWhile_eq_self_iff.2 hdigits.isDigit, hsign,
              List.isEmpty_eq_false_iff.2 hdigits.ne_nil]
            simp
        simp only [next?]
        rw [if_pos hrest.2, List.takeWhile_eq_self_iff.2 hrest.1,
          List.dropWhile_eq_nil_iff.2 hrest.1]

theorem isLetter_iff
    (c : Char) :
    isLetter c = true ↔ 0x41 ≤ c.toNat ∧ c.toNat < 0x5b := by
  have hlow : 'A' ≤ c ↔ 0x41 ≤ c.toNat := Char.le_def.trans UInt32.le_iff_toNat_le
  have hhigh : c ≤ 'Z' ↔ c.toNat ≤ 0x5a := Char.le_def.trans UInt32.le_iff_toNat_le
  simp only [isLetter, Bool.and_eq_true, decide_eq_true_eq, hlow, hhigh]
  omega

/-- A whole text is the lexeme of a variable when it is that letter. -/
theorem next?_eq_name_iff
    {t : Text} {letter : Char} :
    next? t = some (name letter, []) ↔ isLetter letter = true ∧ t = [letter] := by
  constructor
  · intro h
    cases t with
    | nil => cases h
    | cons c rest =>
        simp only [next?] at h
        split at h
        · cases h
        · split at h
          · rename_i hletter
            obtain ⟨hname, hrest⟩ := Prod.mk.inj (Option.some.inj h)
            obtain rfl := name.inj hname
            exact ⟨hletter, by rw [hrest]⟩
          · obtain ⟨op, -, hop⟩ := Option.map_eq_some_iff.1 h
            cases hop
  · rintro ⟨hletter, rfl⟩
    have hdigit : isDigit letter = false := by
      by_contra h
      rw [Bool.not_eq_false, Numeral.isDigit_iff] at h
      have hlow := (isLetter_iff letter).1 hletter
      omega
    simp [next?, hdigit, hletter]

end Lexeme

namespace Token

/-! ### Meanings of texts -/

/-- The three ways in which a text has a meaning. -/
theorem ofText?_eq_some
    {t : Text} {token : Token}
    (h : ofText? t = .ok (some token)) :
    (∃ text value, Lexeme.scan? t = some [.integer text] ∧
        Numeral.inRange text = .ok true ∧ Numeral.read text = .ok value ∧
        token = integer value) ∨
      (∃ letter, Lexeme.scan? t = some [.name letter] ∧ token = name letter) ∨
      (∃ op, Lexeme.scan? t = some [.operator op] ∧ token = operator op) := by
  rw [ofText?] at h
  split at h
  · rename_i text hscan
    obtain ⟨inRange, hrange, h⟩ := Outcome.bind_eq_ok.1 h
    cases inRange with
    | false => cases h
    | true =>
        obtain ⟨value, hread, h⟩ := Outcome.bind_eq_ok.1 h
        cases h
        exact Or.inl ⟨text, value, hscan, hrange, hread, rfl⟩
  · rename_i letter hscan
    cases h
    exact Or.inr (Or.inl ⟨letter, hscan, rfl⟩)
  · rename_i op hscan
    cases h
    exact Or.inr (Or.inr ⟨op, hscan, rfl⟩)
  · cases h

/-- What is an integer as a word: a spelling in range, with the value that is read. -/
theorem ofText?_eq_integer_iff
    {t : Text} {value : Int} :
    ofText? t = .ok (some (integer value)) ↔
      Numeral.IsSpelling t ∧ Numeral.inRange t = .ok true ∧ Numeral.read t = .ok value := by
  constructor
  · intro h
    rcases ofText?_eq_some h with ⟨text, n, hscan, hrange, hread, heq⟩ | ⟨_, _, heq⟩ | ⟨_, _, heq⟩
    · obtain ⟨hspelling, rfl⟩ :=
        Lexeme.next?_eq_integer_iff.1 (Lexeme.scan?_eq_singleton_iff.1 hscan)
      cases heq
      exact ⟨hspelling, hrange, hread⟩
    · cases heq
    · cases heq
  · rintro ⟨hspelling, hrange, hread⟩
    have hscan : Lexeme.scan? t = some [.integer t] :=
      Lexeme.scan?_eq_singleton_iff.2 (Lexeme.next?_eq_integer_iff.2 ⟨hspelling, rfl⟩)
    rw [ofText?, hscan]
    simp only [hrange, hread]
    rfl

/-- What is a variable as a word: a letter. -/
theorem ofText?_eq_name_iff
    {t : Text} {letter : Char} :
    ofText? t = .ok (some (name letter)) ↔ Lexeme.isLetter letter = true ∧ t = [letter] := by
  rw [← Lexeme.next?_eq_name_iff, ← Lexeme.scan?_eq_singleton_iff]
  constructor
  · intro h
    rcases ofText?_eq_some h with ⟨_, _, _, _, _, heq⟩ | ⟨c, hscan, heq⟩ | ⟨_, _, heq⟩
    · cases heq
    · cases heq
      exact hscan
    · cases heq
  · intro h
    rw [ofText?, h]
    rfl

/-- The canonical numeral of an integer that fits is that integer as a word. -/
theorem ofText?_ofInt
    {n : Int}
    (h : Numeral.Fits n) :
    ofText? (Numeral.ofInt n) = .ok (some (integer n)) :=
  ofText?_eq_integer_iff.2
    ⟨Numeral.isSpelling_ofInt n, Numeral.inRange_ofInt h, Numeral.read_ofInt h⟩

end Token

namespace Text

/-- A text that can be classified as a word. -/
def IsClassifiable (t : Text) : Prop :=
  ∃ token?, Token.ofText? t = .ok token?

/-- A text that is an integer as a word. -/
def IsInteger (t : Text) : Prop :=
  ∃ value, Token.ofText? t = .ok (some (.integer value))

/-- A text that is a variable as a word. -/
def IsName (t : Text) : Prop :=
  ∃ letter, Token.ofText? t = .ok (some (.name letter))

theorem isName_iff
    {t : Text} :
    t.IsName ↔ ∃ token, Token.ofText? t = .ok (some token) ∧ token.isName = true := by
  constructor
  · rintro ⟨letter, h⟩
    exact ⟨.name letter, h, rfl⟩
  · rintro ⟨token, h, hname⟩
    cases token with
    | name letter => exact ⟨letter, h⟩
    | integer n => cases hname
    | operator op => cases hname

theorem isInteger_iff
    {t : Text} :
    t.IsInteger ↔ ∃ token, Token.ofText? t = .ok (some token) ∧ token.isInteger = true := by
  constructor
  · rintro ⟨n, h⟩
    exact ⟨.integer n, h, rfl⟩
  · rintro ⟨token, h, hinteger⟩
    cases token with
    | integer n => exact ⟨n, h⟩
    | name letter => cases hinteger
    | operator op => cases hinteger

theorem integer?_eq_some_iff
    {t : Text} {value : Int} :
    integer? t = .ok (some value) ↔ Token.ofText? t = .ok (some (.integer value)) := by
  rw [integer?]
  cases Token.ofText? t with
  | error f => exact ⟨fun h => (by cases h), fun h => (by cases h)⟩
  | ok token? =>
      rcases token? with _ | ⟨n⟩ | letter | op <;>
        exact ⟨fun h => (by cases h; try rfl), fun h => (by cases h; try rfl)⟩

/-- The value of an integer is what reading gives, and it fits. -/
theorem read_of_ofText?
    {t : Text} {value : Int}
    (h : Token.ofText? t = .ok (some (.integer value))) :
    Numeral.read t = .ok value ∧ Numeral.Fits value := by
  obtain ⟨-, hrange, hread⟩ := Token.ofText?_eq_integer_iff.1 h
  exact ⟨hread, Numeral.fits_of_inRange hrange hread⟩

end Text

end ReversePolish
