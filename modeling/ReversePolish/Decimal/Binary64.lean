/-!
# Binary floating point of 64 bits

A finite value is a significand times a power of two, with a sign.  The
significand has at most 53 bits and the exponent lies between -1074 and 971.
`ofDecimal` takes a decimal to the nearest of these values, and to the one
with the even significand when two are equally near.  What is too large
becomes infinite and what is too small becomes zero.
-/

namespace ReversePolish
namespace Decimal

/-- The values of binary floating point with 53 bits of precision. -/
inductive Binary64 where
  /-- The value is `significand` times two to the power `exponent`, negated if asked for. -/
  | finite (negative : Bool) (significand : Nat) (exponent : Int)
  | infinite (negative : Bool)
  | nan
deriving DecidableEq, Repr

/-- The numerator and denominator of `base` to an integer power. -/
def power (base : Nat) (exponent : Int) : Nat × Nat :=
  (Nat.pow base exponent.toNat, Nat.pow base (-exponent).toNat)

/-- The natural number nearest to a quotient, the even one if two are equally near. -/
def roundHalfEven (numerator denominator : Nat) : Nat :=
  let quotient := numerator / denominator
  let twice := 2 * (numerator % denominator)
  if twice < denominator then quotient
  else if denominator < twice then quotient + 1
  else quotient + quotient % 2

namespace Binary64

/-- The least exponent. -/
def leastExponent : Int := -1074

/-- The greatest exponent. -/
def greatestExponent : Int := 971

/-- The bits of a significand, all but the first. -/
def fractionBits : Nat := 52

/-- The greatest power of two, by its exponent, that a positive quotient reaches. -/
def floorLog2 (numerator denominator : Nat) : Int :=
  let guess : Int := (Nat.log2 numerator : Int) - Nat.log2 denominator
  let (up, down) := power 2 guess
  if denominator * up ≤ numerator * down then guess else guess - 1

/-- The value nearest to a positive quotient. -/
def ofQuotient (negative : Bool) (numerator denominator : Nat) : Binary64 :=
  let exponent := max (floorLog2 numerator denominator - fractionBits) leastExponent
  let (up, down) := power 2 exponent
  let significand := roundHalfEven (numerator * down) (denominator * up)
  let (significand, exponent) :=
    if significand = Nat.pow 2 (fractionBits + 1) then (Nat.pow 2 fractionBits, exponent + 1)
    else (significand, exponent)
  if greatestExponent < exponent then infinite negative
  else finite negative significand exponent

/-- The value nearest to `digits` times ten to the power `exponent`. -/
def ofDecimal (negative : Bool) (digits : Nat) (exponent : Int) : Binary64 :=
  let magnitude : Int := (Nat.toDigits 10 digits).length + exponent
  if digits = 0 ∨ magnitude < -330 then finite negative 0 leastExponent
  else if 330 < magnitude then infinite negative
  else
    let (up, down) := power 10 exponent
    ofQuotient negative (digits * up) down

end Binary64

end Decimal
end ReversePolish
