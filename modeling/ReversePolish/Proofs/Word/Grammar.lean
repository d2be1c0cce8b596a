import Mathlib.Data.Nat.Digits.Defs
import ReversePolish.Proofs.Word.Overlong
import ReversePolish.Proofs.Word.Scanning

/-!
# The grammar of words

A word is an integer, a variable or an operator, and nothing else has a
meaning.  An integer is spelled with an optional sign before ASCII digits, and
its value has to fit into a signed 64-bit word; no limit on its digits is part
of the grammar.  Counting the significant digits first is a shortcut: whatever
it turns down has a value that does not fit.

Classifying follows this grammar on all texts that it can classify, that is,
on all that are not overlong.
-/

namespace ReversePolish

/-- The grammar of words: a text with what it means. -/
inductive IsWord : Text → Token → Prop
  | integer {t : Text}
      (hspelling : Numeral.IsSpelling t)
      (hfits : Numeral.Fits (Numeral.spelledValue t)) :
      IsWord t (.integer (Numeral.spelledValue t))
  | name {letter : Char}
      (hletter : Lexeme.isLetter letter = true) :
      IsWord [letter] (.name letter)
  | operator (op : Operator) :
      IsWord [op.symbol] (.operator op)

namespace Numeral

/-! ### Counting digits -/

theorem valueOfDigits_eq_ofDigits
    (values : List Nat) :
    valueOfDigits values = Nat.ofDigits 10 values.reverse := by
  rw [Nat.ofDigits_eq_foldr, List.foldr_reverse, valueOfDigits]
  simp only [Nat.cast_id, Nat.add_comm]

theorem magnitude_cons
    (c : Char) (t : Text) :
    magnitude (c :: t) = magnitude t + 10 ^ t.length * (c.toNat - 0x30) := by
  rw [magnitude, List.map_cons, valueOfDigits_eq_ofDigits, Nat.ofDigits_reverse_cons,
    ← valueOfDigits_eq_ofDigits, List.length_map]
  rfl

/-- A number below a power of ten has no more digits behind its zeros than the power says. -/
theorem length_dropWhile_le_of_magnitude_lt
    {t : Text} {n : Nat}
    (hdigits : ∀ c ∈ t, Lexeme.isDigit c = true)
    (h : magnitude t < 10 ^ n) :
    (t.dropWhile (· == '0')).length ≤ n := by
  induction t with
  | nil => exact Nat.zero_le n
  | cons c t ih =>
      obtain ⟨hc, hrest⟩ := List.forall_mem_cons.1 hdigits
      rw [magnitude_cons] at h
      by_cases hzero : c = '0'
      · subst hzero
        exact ih hrest (Nat.lt_of_le_of_lt (Nat.le_add_right _ _) h)
      · rw [List.dropWhile_cons_of_neg (by simpa using hzero), List.length_cons]
        -- A first digit that is no zero is worth a power of ten at least.
        have hpositive : 1 ≤ c.toNat - 0x30 := by
          have hne : c.toNat ≠ 0x30 := fun heq => hzero (Char.toNat_inj.1 heq)
          have hlow := ((isDigit_iff c).1 hc).1
          omega
        have hpower : 10 ^ t.length < 10 ^ n :=
          calc
            10 ^ t.length ≤ 10 ^ t.length * (c.toNat - 0x30) := Nat.le_mul_of_pos_right _ hpositive
            _ ≤ magnitude t + 10 ^ t.length * (c.toNat - 0x30) := Nat.le_add_left _ _
            _ < 10 ^ n := h
        exact (Nat.pow_lt_pow_iff_right (by decide)).1 hpower

theorem magnitude_lt_of_fits
    {t : Text}
    (h : Fits (spelledValue t)) :
    magnitude (digits t) < 10 ^ mostDigits := by
  simp only [Fits, spelledValue, smallest, largest, mostDigits] at *
  split at h <;> omega

/-- The count lets every integer pass that fits. -/
theorem IsSpelling.length_significant_le
    {t : Text}
    (h : IsSpelling t)
    (hfits : Fits (spelledValue t)) :
    (significant t).length ≤ mostDigits := by
  rw [h.significant_eq]
  exact length_dropWhile_le_of_magnitude_lt (fun c hc => (List.mem_filter.1 hc).2)
    (magnitude_lt_of_fits hfits)

/-- A numeral that fits is in range, and it is read, unless it is overlong. -/
theorem IsSpelling.inRange_of_fits
    {t : Text}
    (h : IsSpelling t)
    (hfits : Fits (spelledValue t))
    (hoverlong : ¬ IsOverlong t) :
    inRange t = .ok true ∧ read t = .ok (spelledValue t) := by
  have hcount := h.length_significant_le hfits
  have hlimit : ¬ digitLimit < (digits t).length := by
    intro hlimit
    rw [h.significant_eq] at hcount
    exact hoverlong ⟨h, hlimit, hcount⟩
  have hread : read t = .ok (spelledValue t) := by
    rw [h.read_eq, if_neg hlimit]
  refine ⟨?_, hread⟩
  rw [inRange, if_neg (Nat.not_lt.2 hcount), hread]
  exact congrArg Except.ok (decide_eq_true hfits)

/-- What reading makes of a numeral is the integer that it spells. -/
theorem IsSpelling.eq_spelledValue_of_read
    {t : Text} {value : Int}
    (h : IsSpelling t)
    (hread : read t = .ok value) :
    value = spelledValue t := by
  rw [h.read_eq] at hread
  split at hread
  · cases hread
  · exact (Except.ok.inj hread).symm

end Numeral

/-! ### Words -/

namespace Token

/-- What is an operator as a word: its character. -/
theorem ofText?_eq_operator_iff
    {t : Text} {op : Operator} :
    ofText? t = .ok (some (operator op)) ↔ t = [op.symbol] := by
  constructor
  · intro h
    rcases ofText?_eq_some h with ⟨_, _, _, _, _, heq⟩ | ⟨_, _, heq⟩ | ⟨other, hscan, heq⟩
    · cases heq
    · cases heq
    · cases heq
      exact (Lexeme.isFirst_of_next? (Lexeme.scan?_eq_singleton_iff.1 hscan)).split
  · rintro rfl
    have hformed : (Lexeme.operator op).IsFormed := trivial
    have hscan : Lexeme.scan? [op.symbol] = some [.operator op] :=
      Lexeme.scan?_eq_singleton_iff.2 hformed.next?_text
    rw [ofText?, hscan]
    rfl

/-- A text that is found to have a meaning has it by the grammar. -/
theorem isWord_of_ofText?
    {t : Text} {token : Token}
    (h : ofText? t = .ok (some token)) :
    IsWord t token := by
  cases token with
  | integer value =>
      obtain ⟨hspelling, hrange, hread⟩ := ofText?_eq_integer_iff.1 h
      have hfits := Numeral.fits_of_inRange hrange hread
      obtain rfl := hspelling.eq_spelledValue_of_read hread
      exact .integer hspelling hfits
  | name letter =>
      obtain ⟨hletter, rfl⟩ := ofText?_eq_name_iff.1 h
      exact .name hletter
  | operator op =>
      rw [ofText?_eq_operator_iff.1 h]
      exact .operator op

/-- A text that has a meaning by the grammar is found to have it, unless it is overlong. -/
theorem ofText?_of_isWord
    {t : Text} {token : Token}
    (h : IsWord t token)
    (hoverlong : ¬ Numeral.IsOverlong t) :
    ofText? t = .ok (some token) := by
  cases h with
  | integer hspelling hfits =>
      exact ofText?_eq_integer_iff.2
        ⟨hspelling, hspelling.inRange_of_fits hfits hoverlong⟩
  | name hletter => exact ofText?_eq_name_iff.2 ⟨hletter, rfl⟩
  | operator op => exact ofText?_eq_operator_iff.2 rfl

/-- A text without a meaning by the grammar is no word, unless it is overlong. -/
theorem ofText?_eq_none_iff
    {t : Text}
    (hoverlong : ¬ Numeral.IsOverlong t) :
    ofText? t = .ok none ↔ ∀ token, ¬ IsWord t token := by
  constructor
  · intro h token htoken
    rw [ofText?_of_isWord htoken hoverlong] at h
    cases h
  · intro h
    obtain ⟨token?, htoken⟩ := Text.isClassifiable_iff.2 hoverlong
    cases token? with
    | none => exact htoken
    | some token => exact absurd (isWord_of_ofText? htoken) (h token)

/-- **Words are scanned by longest match and classified by their grammar.**  There is only one way
of scanning by longest match, and it is the one in use.  An overlong text aside, a text has the
meaning that the grammar gives it, and none if the grammar gives it none.  The count of digits
turns down no integer that fits. -/
theorem ofText?_iff_grammar :
    (∀ scan : Text → Option (List Lexeme),
        scan = Lexeme.scan? ↔ ∀ t lexemes, scan t = some lexemes ↔ Lexeme.Scans t lexemes) ∧
      (∀ t, ¬ Numeral.IsOverlong t →
        (∀ token, ofText? t = .ok (some token) ↔ IsWord t token) ∧
          (ofText? t = .ok none ↔ ∀ token, ¬ IsWord t token)) ∧
      ∀ t, Numeral.IsSpelling t → Numeral.Fits (Numeral.spelledValue t) →
        (Numeral.significant t).length ≤ Numeral.mostDigits := by
  refine ⟨fun scan => Lexeme.eq_scan?_iff, ?_, ?_⟩
  · intro t hoverlong
    refine ⟨fun token => ⟨isWord_of_ofText?, fun h => ofText?_of_isWord h hoverlong⟩, ?_⟩
    exact ofText?_eq_none_iff hoverlong
  · exact fun t hspelling hfits => hspelling.length_significant_le hfits

/-- The least integer behind more zeros than it has digits, and the number that is one too large. -/
theorem ofText?_iff_grammar_bounds :
    let least := "-000000000000000000009223372036854775808".toList
    let tooLarge := "9223372036854775808".toList
    ofText? least = .ok (some (.integer Numeral.smallest)) ∧
      (Numeral.significant least).length ≤ Numeral.mostDigits ∧
      ofText? tooLarge = .ok none := by
  intro least tooLarge
  have hleast : ¬ Numeral.IsOverlong least :=
    fun h => absurd h.tooLong (by decide +kernel)
  have htooLarge : ¬ Numeral.IsOverlong tooLarge :=
    fun h => absurd h.tooLong (by decide +kernel)
  have hdigits : least.tail.all Lexeme.isDigit = true := by
    decide +kernel
  have hspelling : Numeral.IsSpelling least :=
    Or.inr ⟨'-', least.tail, by decide, ⟨by decide +kernel, List.all_eq_true.1 hdigits⟩, rfl⟩
  have hvalue : Numeral.spelledValue least = Numeral.smallest := by
    decide +kernel
  have hfits : Numeral.Fits (Numeral.spelledValue least) := by
    rw [hvalue]
    decide
  have hnone : ∀ token, ¬ IsWord tooLarge token := by
    intro token htoken
    generalize ht : tooLarge = t at htoken
    cases htoken with
    | integer _ hfits =>
        subst ht
        revert hfits
        decide +kernel
    | name => cases congrArg List.length ht
    | operator => cases congrArg List.length ht
  refine ⟨?_, ofText?_iff_grammar.2.2 least hspelling hfits,
    (ofText?_iff_grammar.2.1 tooLarge htooLarge).2.2 hnone⟩
  rw [← hvalue]
  exact ((ofText?_iff_grammar.2.1 least hleast).1 _).2 (.integer hspelling hfits)

end Token

end ReversePolish
