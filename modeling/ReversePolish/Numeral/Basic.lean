import ReversePolish.Text.Basic

/-!
# Numerals

The integers of the calculator are those of a signed 64-bit word.  `Fits` is
the range, `ofInt` the canonical numeral: the decimal digits without leading
zeros, after a minus sign if the integer is negative.
-/

namespace ReversePolish
namespace Numeral

/-- The least integer of a signed 64-bit word. -/
def smallest : Int := -0x8000000000000000

/-- The greatest integer of a signed 64-bit word. -/
def largest : Int := 0x7fffffffffffffff

/-- The integers of a signed 64-bit word. -/
def Fits (n : Int) : Prop :=
  smallest ≤ n ∧ n ≤ largest

instance (n : Int) : Decidable (Fits n) :=
  inferInstanceAs (Decidable (smallest ≤ n ∧ n ≤ largest))

/-- The number of decimal digits of the greatest integer. -/
def mostDigits : Nat := 19

/-- The canonical numeral of a natural number. -/
def ofNat (n : Nat) : Text :=
  Nat.toDigits 10 n

/-- The canonical numeral of an integer. -/
def ofInt : Int → Text
  | .ofNat n => ofNat n
  | .negSucc n => '-' :: ofNat (n + 1)

/-- The greatest integer has as many digits as are counted for it. -/
theorem length_ofInt_largest : (ofInt largest).length = mostDigits := by
  decide

end Numeral
end ReversePolish
