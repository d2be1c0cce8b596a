import ReversePolish.Decimal.Binary64
import ReversePolish.Text.Basic

/-!
# The shortest decimal that reads back

A floating-point value is written with the fewest decimal digits that still
round to it, and among the decimals of that length the nearest one is taken.

The decimals that round to a value form an interval around it, which reaches
half way to either neighbour and includes its ends when the significand is
even.  For one digit, two digits and so on, the two neighbours of the value
on the grid of decimals with so many digits are tried; the first grid with a
neighbour in the interval decides.  Seventeen digits always suffice.

The digits stand around a decimal point while their exponent is at least -4
and below 16, with at least one digit on either side.  Outside this range an
exponent of at least two digits follows them.
-/

namespace ReversePolish
namespace Decimal

/-- The decimals that round to a value, in quarters of the last place of its
significand: the value, the two ends, and whether the ends belong to them. -/
structure RoundingInterval where
  value : Nat
  low : Nat
  high : Nat
  closed : Bool
  /-- Two to this power is a quarter of the last place. -/
  exponent : Int

/-- The decimals that round to a positive value. -/
def roundingInterval (significand : Nat) (exponent : Int) : RoundingInterval where
  value := 4 * significand
  low :=
    if significand = Nat.pow 2 Binary64.fractionBits ∧ Binary64.leastExponent < exponent then
      4 * significand - 1
    else 4 * significand - 2
  high := 4 * significand + 2
  closed := significand % 2 = 0
  exponent := exponent - 2

namespace RoundingInterval

/-- The factor that turns quarters of the last place into units of ten to the
power `scale`, as a numerator and a denominator. -/
def factor (i : RoundingInterval) (scale : Int) : Nat × Nat :=
  let (twoUp, twoDown) := power 2 i.exponent
  let (tenUp, tenDown) := power 10 scale
  (twoUp * tenDown, twoDown * tenUp)

/-- Whether `count` times ten to the power `scale` lies in the interval. -/
def contains (i : RoundingInterval) (scale : Int) (count : Nat) : Bool :=
  let (up, down) := i.factor scale
  if i.closed then i.low * up ≤ count * down && count * down ≤ i.high * up
  else i.low * up < count * down && count * down < i.high * up

/-- The point of the interval on the grid of multiples of ten to the power
`scale` that is nearest to the value, if one of its neighbours on the grid
lies in the interval. -/
def onGrid? (i : RoundingInterval) (scale : Int) : Option Nat :=
  let (up, down) := i.factor scale
  let below := i.value * up / down
  match i.contains scale below, i.contains scale (below + 1) with
  | true, true => some (roundHalfEven (i.value * up) down)
  | true, false => some below
  | false, true => some (below + 1)
  | false, false => none

/-- The first hit on grids that get finer by a factor of ten, starting at `scale`. -/
def search (i : RoundingInterval) : (grids : Nat) → (scale : Int) → Nat × Int
  | 0, scale => (i.value, scale)
  | grids + 1, scale =>
      match i.onGrid? scale with
      | some count => (count, scale)
      | none => search i grids (scale - 1)

/-- The exponent of the first digit of the value. -/
def leadingScale (i : RoundingInterval) : Int :=
  let guess := ((Nat.log2 i.value : Int) + i.exponent) * 30103 / 100000
  let (up, down) := i.factor (guess + 1)
  if down ≤ i.value * up then guess + 1 else guess

end RoundingInterval

/-- The number of grids that are tried. -/
def mostDigits : Nat := 17

/-- The digits without the zeros at their end. -/
def dropTrailingZeros (digits : Text) : Text :=
  (digits.reverse.dropWhile (· == '0')).reverse

/-- The digits of the shortest decimal for a positive value, and the exponent of the first. -/
def shortest (significand : Nat) (exponent : Int) : Text × Int :=
  let i := roundingInterval significand exponent
  let (count, scale) := i.search mostDigits i.leadingScale
  let digits := Nat.toDigits 10 count
  (dropTrailingZeros digits, scale + digits.length - 1)

/-- How decimals are laid out. -/
structure Layout where
  /-- From this exponent of the first digit on a decimal point is used. -/
  leastPositional : Int
  /-- Below this exponent a decimal point is used. -/
  positionalBound : Int
  /-- The least number of digits of a written exponent. -/
  exponentDigits : Nat

/-- A point is used from four places behind it to sixteen before it. -/
def layout : Layout := ⟨-4, 16, 2⟩

namespace Layout

/-- The written exponent, with its sign. -/
def exponentText (l : Layout) (exponent : Int) : Text :=
  let digits := Nat.toDigits 10 exponent.natAbs
  ['e', if exponent < 0 then '-' else '+'] ++
    List.replicate (l.exponentDigits - digits.length) '0' ++ digits

/-- Digits whose first has the given exponent. -/
def render (l : Layout) (digits : Text) (exponent : Int) : Text :=
  if l.leastPositional ≤ exponent ∧ exponent < l.positionalBound then
    if exponent < 0 then
      "0.".toList ++ List.replicate (exponent.natAbs - 1) '0' ++ digits
    else
      let whole := exponent.toNat + 1
      let padded := digits ++ List.replicate (whole + 1 - digits.length) '0'
      padded.take whole ++ '.' :: padded.drop whole
  else
    let mantissa := match digits with
      | first :: second :: rest => first :: '.' :: second :: rest
      | _ => digits
    mantissa ++ l.exponentText exponent

end Layout

namespace Binary64

/-- The shortest text of a value; infinities and the undefined value are named as given. -/
def render (infinity notANumber : Text) : Binary64 → Text
  | nan => notANumber
  | infinite negative => (if negative then ['-'] else []) ++ infinity
  | finite negative significand exponent =>
      (if negative then ['-'] else []) ++
        if significand = 0 then "0.0".toList
        else
          let (digits, first) := shortest significand exponent
          layout.render digits first

end Binary64

end Decimal
end ReversePolish
