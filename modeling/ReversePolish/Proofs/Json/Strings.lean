import ReversePolish.Json.Parser
import ReversePolish.Json.Printer
import ReversePolish.Proofs.Text.Utf8

/-!
# Reading back strings

A string is written character by character: as it stands, by a short escape,
by number, or as a surrogate pair.  Reading it gives the numbers of these
units, and joining the pairs gives the characters back.
-/

namespace ReversePolish
namespace Json

/-! ### Units -/

/-- The units of sixteen bits of a character. -/
def unitsOf (c : Char) : List Nat :=
  if c.toNat < 0x10000 then [c.toNat]
  else [highSurrogate c.toNat, lowSurrogate c.toNat]

theorem hexDigit?_digitChar :
    ∀ d, d < 16 → hexDigit? (Nat.digitChar d) = some d := by
  decide

theorem hexadecimal_four
    (n : Nat) :
    Text.hexadecimal 4 n =
      [Nat.digitChar (n / 16 / 16 / 16 % 16), Nat.digitChar (n / 16 / 16 % 16),
        Nat.digitChar (n / 16 % 16), Nat.digitChar (n % 16)] := rfl

/-- A unit that is written by number is read as this number. -/
theorem readCodes_escapedUnit
    {n : Nat} (rest : Text)
    (h : n < 0x10000) :
    readCodes (escapedUnit n ++ rest) = (readCodes rest).map fun p => (n :: p.1, p.2) := by
  have hunit : hexUnit? (Nat.digitChar (n / 16 / 16 / 16 % 16))
      (Nat.digitChar (n / 16 / 16 % 16)) (Nat.digitChar (n / 16 % 16))
      (Nat.digitChar (n % 16)) = some n := by
    simp only [hexUnit?, hexDigit?_digitChar _ (Nat.mod_lt _ (by decide : 0 < 16))]
    exact congrArg some (by omega)
  rw [escapedUnit, hexadecimal_four]
  simp only [List.cons_append, List.nil_append]
  rw [readCodes, hunit]
  cases readCodes rest <;> rfl

theorem readCodes_shortEscape
    {c mark : Char} (rest : Text)
    (h : shortEscape? c = some mark) :
    readCodes ('\x5c' :: mark :: rest) =
      (readCodes rest).map fun p => (c.toNat :: p.1, p.2) := by
  have hmark : unescape? mark = some c ∧ mark ≠ 'u' := by
    unfold shortEscape? at h
    split at h <;> cases h <;> decide
  rw [readCodes, hmark.1]
  · cases readCodes rest <;> rfl
  · intro a b c d rest' hu
    exact absurd hu hmark.2

theorem readCodes_plain
    {c : Char} (rest : Text)
    (hquote : c ≠ '\x22')
    (hbackslash : c ≠ '\x5c')
    (hcontrol : ¬ c < ' ') :
    readCodes (c :: rest) = (readCodes rest).map fun p => (c.toNat :: p.1, p.2) := by
  rw [readCodes]
  · rw [if_neg (not_or.2 ⟨hcontrol, hbackslash⟩)]
    cases readCodes rest <;> rfl
  · exact hquote
  · intro a b c d rest' h
    exact absurd h hbackslash
  · intro mark rest' h
    exact absurd h hbackslash

theorem readCodes_escapedCode
    (c : Char) (rest : Text) :
    readCodes (escapedCode c.toNat ++ rest) =
      (readCodes rest).map fun p => (unitsOf c ++ p.1, p.2) := by
  have hc := Text.toNat_lt c
  rw [escapedCode, unitsOf]
  split
  · rename_i h
    rw [readCodes_escapedUnit rest h]
    rfl
  · have hhigh : highSurrogate c.toNat < 0x10000 := by
      rw [highSurrogate]
      omega
    have hlow : lowSurrogate c.toNat < 0x10000 := by
      rw [lowSurrogate]
      omega
    rw [List.append_assoc, readCodes_escapedUnit _ hhigh, readCodes_escapedUnit rest hlow,
      Option.map_map]
    rfl

theorem shortEscape?_eq_none
    {c : Char}
    (h : shortEscape? c = none) :
    c ≠ '\x22' ∧ c ≠ '\x5c' := by
  constructor
  · rintro rfl
    cases h
  · rintro rfl
    cases h

/-- A character that has a short escape fits into one unit. -/
theorem unitsOf_of_shortEscape?
    {c mark : Char}
    (h : shortEscape? c = some mark) :
    unitsOf c = [c.toNat] := by
  unfold shortEscape? at h
  split at h <;> first | rfl | cases h

theorem toNat_le_of_le_tilde
    {c : Char}
    (h : c ≤ '~') :
    c.toNat ≤ 0x7e :=
  UInt32.le_iff_toNat_le.1 (Char.le_def.1 h)

/-- What is written for a character is read as its units. -/
theorem readCodes_writeSymbol
    (c : Char) (rest : Text) :
    readCodes (writeSymbol (.char c) ++ rest) =
      (readCodes rest).map fun p => (unitsOf c ++ p.1, p.2) := by
  rw [writeSymbol]
  split
  · rename_i mark hmark
    rw [unitsOf_of_shortEscape? hmark]
    exact readCodes_shortEscape rest hmark
  · rename_i hnone
    split
    · rename_i hrange
      obtain ⟨hquote, hbackslash⟩ := shortEscape?_eq_none hnone
      have htilde := toNat_le_of_le_tilde hrange.2
      rw [unitsOf, if_pos (by omega)]
      exact readCodes_plain rest hquote hbackslash (Char.not_lt.2 hrange.1)
    · exact readCodes_escapedCode c rest

theorem readCodes_flatMap_writeSymbol
    (t rest : Text) :
    readCodes ((Text.Symbol.ofText t).flatMap writeSymbol ++ '\x22' :: rest) =
      some (t.flatMap unitsOf, rest) := by
  induction t with
  | nil => rfl
  | cons c t ih =>
      have hcons : (Text.Symbol.ofText (c :: t)).flatMap writeSymbol =
          writeSymbol (.char c) ++ (Text.Symbol.ofText t).flatMap writeSymbol := rfl
      rw [hcons, List.append_assoc, readCodes_writeSymbol, ih]
      rfl

/-! ### Characters -/

theorem symbolsOfCodes_cons
    {code : Nat} (rest : List Nat)
    (h : isHighSurrogate code = false) :
    symbolsOfCodes (code :: rest) = symbolOfCode code :: symbolsOfCodes rest := by
  cases rest with
  | nil => rfl
  | cons next rest => rw [symbolsOfCodes, h, Bool.false_and, if_neg Bool.false_ne_true]

/-- A character is no surrogate. -/
theorem not_surrogate
    (c : Char) :
    isHighSurrogate c.toNat = false ∧ isLowSurrogate c.toNat = false := by
  have h := Text.toNat_scalar c
  simp only [isHighSurrogate, isLowSurrogate, Bool.and_eq_false_iff, decide_eq_false_iff_not]
  omega

theorem symbolOfCode_toNat
    (c : Char) :
    symbolOfCode c.toNat = .char c := by
  obtain ⟨hhigh, hlow⟩ := not_surrogate c
  rw [symbolOfCode, hhigh, hlow, Bool.or_false, if_neg Bool.false_ne_true, Char.ofNat_toNat]

theorem joinPair_surrogates
    {n : Nat}
    (h : 0x10000 ≤ n) :
    joinPair (highSurrogate n) (lowSurrogate n) = n := by
  unfold joinPair highSurrogate lowSurrogate
  omega

/-- The units of a character join to the character. -/
theorem symbolsOfCodes_unitsOf
    (c : Char) (rest : List Nat) :
    symbolsOfCodes (unitsOf c ++ rest) = .char c :: symbolsOfCodes rest := by
  have hc := Text.toNat_lt c
  rw [unitsOf]
  split
  · rw [List.singleton_append, symbolsOfCodes_cons rest (not_surrogate c).1,
      symbolOfCode_toNat]
  · rename_i h
    have hhigh : isHighSurrogate (highSurrogate c.toNat) = true := by
      rw [isHighSurrogate, highSurrogate, Bool.and_eq_true, decide_eq_true_iff,
        decide_eq_true_iff]
      omega
    have hlow : isLowSurrogate (lowSurrogate c.toNat) = true := by
      rw [isLowSurrogate, lowSurrogate, Bool.and_eq_true, decide_eq_true_iff,
        decide_eq_true_iff]
      omega
    have hjoin := joinPair_surrogates (Nat.le_of_not_lt h)
    rw [List.cons_append, List.singleton_append, symbolsOfCodes, hhigh, hlow, Bool.and_true,
      if_pos rfl, hjoin, Char.ofNat_toNat]

theorem symbolsOfCodes_flatMap_unitsOf
    (t : Text) :
    symbolsOfCodes (t.flatMap unitsOf) = Text.Symbol.ofText t := by
  induction t with
  | nil => rfl
  | cons c t ih =>
      rw [List.flatMap_cons, symbolsOfCodes_unitsOf, ih]
      rfl

/-- A string that was written reads back, whatever follows it. -/
theorem readString_writeString
    (t rest : Text) :
    readString ((Text.Symbol.ofText t).flatMap writeSymbol ++ '\x22' :: rest) =
      some (Text.Symbol.ofText t, rest) := by
  rw [readString, readCodes_flatMap_writeSymbol, ← symbolsOfCodes_flatMap_unitsOf]
  rfl

end Json
end ReversePolish
