import Mathlib.Data.List.TakeWhile
import ReversePolish.Numeral.Reader
import ReversePolish.Word.Lexeme

/-!
# Reading back numerals

A numeral in ASCII digits, with or without a sign, is read as the number that
its digits spell, unless there are more of them than a numeral may have.  The
canonical numeral of an integer that fits into a signed 64-bit word has few
enough of them: reading gives the integer back, and the numeral passes the
count of significant digits as well.
-/

namespace ReversePolish
namespace Numeral

/-- A text that consists of ASCII digits, of which there is at least one. -/
structure AllDigits (t : Text) : Prop where
  ne_nil : t ≠ []
  isDigit : ∀ c ∈ t, Lexeme.isDigit c = true

/-- The number that ASCII digits spell. -/
def magnitude (digits : Text) : Nat :=
  valueOfDigits (digits.map fun c => c.toNat - 0x30)

theorem isDigit_iff
    (c : Char) :
    Lexeme.isDigit c = true ↔ 0x30 ≤ c.toNat ∧ c.toNat < 0x3a := by
  have hlow : '0' ≤ c ↔ 0x30 ≤ c.toNat := Char.le_def.trans UInt32.le_iff_toNat_le
  have hhigh : c ≤ '9' ↔ c.toNat ≤ 0x39 := Char.le_def.trans UInt32.le_iff_toNat_le
  simp only [Lexeme.isDigit, Bool.and_eq_true, decide_eq_true_eq, hlow, hhigh]
  omega

namespace Mark

theorem ofChar_of_isDigit
    {c : Char}
    (h : Lexeme.isDigit c = true) :
    ofChar c = digit (c.toNat - 0x30) := by
  obtain ⟨low, high⟩ := (isDigit_iff c).1 h
  rw [ofChar, Text.DecimalDigit.value?_of_ascii c low high]

theorem ofChar_plus : ofChar '+' = sign false := by
  decide

theorem ofChar_minus : ofChar '-' = sign true := by
  decide

theorem map_ofChar
    {t : Text}
    (h : ∀ c ∈ t, Lexeme.isDigit c = true) :
    t.map ofChar = (t.map fun c => c.toNat - 0x30).map digit := by
  rw [List.map_map]
  exact List.map_congr_left fun c hc => ofChar_of_isDigit (h c hc)

end Mark

theorem wellSpaced_map_digit
    (values : List Nat) :
    wellSpaced (values.map .digit) = true := by
  induction values with
  | nil => rfl
  | cons value rest ih =>
      cases rest with
      | nil => rfl
      | cons next rest => exact ih

/-- Digits behind a sign, or behind none, are read by their value, unless they are too many. -/
theorem read_of_marks
    {t : Text} {marks : List Mark} {negative : Bool} {values : List Nat}
    (hmarks : (t.map Mark.ofChar).dropWhile (· == .blank) = marks)
    (hsign : splitSign marks = (negative, values.map .digit))
    (hne : values ≠ []) :
    read t =
      if digitLimit < values.length then .error (.tooLong values.length)
      else .ok (if negative then -(valueOfDigits values : Int) else valueOfDigits values) := by
  have hbody : ∀ mark ∈ values.map Mark.digit, mark.isBody = true := by
    intro mark hmark
    obtain ⟨value, -, rfl⟩ := List.mem_map.1 hmark
    rfl
  have htake : (values.map Mark.digit).takeWhile Mark.isBody = values.map .digit :=
    List.takeWhile_eq_self_iff.2 hbody
  have hdrop : (values.map Mark.digit).dropWhile Mark.isBody = [] :=
    List.dropWhile_eq_nil_iff.2 hbody
  have hdigits : (values.map Mark.digit).filterMap Mark.digitValue? = values := by
    rw [List.filterMap_map]
    exact List.filterMap_some
  have hempty : values.isEmpty = false := by
    cases values with
    | nil => exact absurd rfl hne
    | cons => rfl
  simp only [read, hmarks, hsign, htake, hdrop, hdigits, wellSpaced_map_digit]
  simp [hempty]

/-- An unsigned numeral in ASCII digits. -/
theorem read_digits
    {t : Text}
    (h : AllDigits t) :
    read t =
      if digitLimit < t.length then .error (.tooLong t.length) else .ok (magnitude t) := by
  obtain ⟨hne, hd⟩ := h
  have hmap := Mark.map_ofChar hd
  have hmarks : (t.map Mark.ofChar).dropWhile (· == .blank) =
      (t.map fun c => c.toNat - 0x30).map .digit := by
    rw [hmap]
    cases t with
    | nil => rfl
    | cons c rest => rfl
  have hsign : splitSign ((t.map fun c => c.toNat - 0x30).map Mark.digit) =
      (false, (t.map fun c => c.toNat - 0x30).map .digit) := by
    cases t with
    | nil => rfl
    | cons c rest => rfl
  rw [read_of_marks hmarks hsign (by simpa using hne), List.length_map]
  rfl

/-- A numeral in ASCII digits behind a sign. -/
theorem read_sign_digits
    {sign : Char} {t : Text}
    (hsign : Lexeme.isSign sign = true)
    (h : AllDigits t) :
    read (sign :: t) =
      if digitLimit < t.length then .error (.tooLong t.length)
      else .ok (if sign = '-' then -(magnitude t : Int) else magnitude t) := by
  obtain ⟨hne, hd⟩ := h
  have hmap := Mark.map_ofChar hd
  simp only [Lexeme.isSign, Bool.or_eq_true, beq_iff_eq] at hsign
  rcases hsign with rfl | rfl
  · have hmarks : (('+' :: t).map Mark.ofChar).dropWhile (· == .blank) =
        .sign false :: (t.map fun c => c.toNat - 0x30).map .digit := by
      rw [List.map_cons, hmap, Mark.ofChar_plus]
      rfl
    rw [read_of_marks hmarks rfl (by simpa using hne), List.length_map]
    rfl
  · have hmarks : (('-' :: t).map Mark.ofChar).dropWhile (· == .blank) =
        .sign true :: (t.map fun c => c.toNat - 0x30).map .digit := by
      rw [List.map_cons, hmap, Mark.ofChar_minus]
      rfl
    rw [read_of_marks hmarks rfl (by simpa using hne), List.length_map]
    rfl

/-! ### Canonical numerals -/

theorem allDigits_ofNat
    (n : Nat) :
    AllDigits (ofNat n) := by
  refine ⟨Nat.toDigits_ne_nil, ?_⟩
  intro c hc
  have hdigit : c.isDigit = true := Nat.isDigit_of_mem_toDigits (by omega) (by omega) hc
  rw [isDigit_iff]
  simp only [Char.isDigit, Bool.and_eq_true, decide_eq_true_eq, ge_iff_le,
    UInt32.le_iff_toNat_le] at hdigit
  have hlow : 0x30 ≤ c.toNat := hdigit.1
  have hhigh : c.toNat ≤ 0x39 := hdigit.2
  omega

@[simp] theorem magnitude_ofNat
    (n : Nat) :
    magnitude (ofNat n) = n := by
  have h := Nat.ofDigitChars_ten_toDigits (n := n)
  rw [Nat.ofDigitChars_eq_foldl] at h
  rw [magnitude, valueOfDigits, List.foldl_map]
  exact h

/-- The canonical numeral of an integer is its sign, if it is negative, and digits. -/
theorem ofInt_eq
    (n : Int) :
    ofInt n = if n < 0 then '-' :: ofNat n.natAbs else ofNat n.natAbs := by
  cases n with
  | ofNat n =>
      have h : ¬ Int.ofNat n < 0 := Int.not_lt.2 (Int.natCast_nonneg n)
      rw [if_neg h]
      rfl
  | negSucc n =>
      rw [if_pos (Int.negSucc_lt_zero n)]
      rfl

/-- The numeral of an integer that fits has few enough digits to be counted and read. -/
theorem length_ofNat_natAbs_le
    {n : Int}
    (h : Fits n) :
    (ofNat n.natAbs).length ≤ mostDigits := by
  refine (Nat.length_toDigits_le_iff (by omega) (by decide)).2 ?_
  obtain ⟨hlow, hhigh⟩ := h
  simp only [smallest, largest, mostDigits] at *
  omega

theorem read_ofInt
    {n : Int}
    (h : Fits n) :
    read (ofInt n) = .ok n := by
  have hlength := length_ofNat_natAbs_le h
  have hlimit : ¬ digitLimit < (ofNat n.natAbs).length :=
    Nat.not_lt.2 (le_trans hlength (by decide))
  rw [ofInt_eq]
  split
  · rw [read_sign_digits (by decide) (allDigits_ofNat n.natAbs), if_neg hlimit, magnitude_ofNat]
    simp only [if_true]
    congr 1
    omega
  · rw [read_digits (allDigits_ofNat n.natAbs), if_neg hlimit, magnitude_ofNat]
    congr 1
    omega

theorem length_significant_le
    (t : Text) :
    (significant t).length ≤ t.length :=
  ((List.dropWhile_sublist _).trans (List.dropWhile_sublist _)).length_le

theorem length_significant_cons_le
    (sign : Char) (t : Text)
    (hsign : Lexeme.isSign sign = true) :
    (significant (sign :: t)).length ≤ t.length := by
  have h : significant (sign :: t) = significant t :=
    congrArg (List.dropWhile (· == '0')) (List.dropWhile_cons_of_pos hsign)
  rw [h]
  exact length_significant_le t

/-- The canonical numeral of an integer that fits passes the test of range. -/
theorem inRange_ofInt
    {n : Int}
    (h : Fits n) :
    inRange (ofInt n) = .ok true := by
  have hlength := length_ofNat_natAbs_le h
  have hsignificant : ¬ mostDigits < (significant (ofInt n)).length := by
    rw [ofInt_eq]
    split
    · have := length_significant_cons_le '-' (ofNat n.natAbs) (by decide)
      omega
    · have := length_significant_le (ofNat n.natAbs)
      omega
  rw [inRange, if_neg hsignificant, read_ofInt h]
  simp [Except.map, h]

end Numeral
end ReversePolish
