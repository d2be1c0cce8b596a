/-!
# Quotients

Division cuts the quotient off towards zero: the magnitudes are divided, and
the result is negated when exactly one operand is negative.  There is no
quotient by zero.
-/

namespace ReversePolish
namespace Quotient

/-- The quotient of two integers, rounded towards zero. -/
def towardsZero? (dividend divisor : Int) : Option Int :=
  if divisor = 0 then none
  else
    let magnitude : Int := (dividend.natAbs / divisor.natAbs : Nat)
    if (dividend < 0) = (divisor < 0) then some magnitude else some (-magnitude)

theorem towardsZero?_eq_none_iff
    (dividend divisor : Int) :
    towardsZero? dividend divisor = none ↔ divisor = 0 := by
  unfold towardsZero?
  split
  · simp [*]
  · split <;> simp [*]

end Quotient
end ReversePolish
