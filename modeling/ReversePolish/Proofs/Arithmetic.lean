import ReversePolish.Session.Evaluation

/-!
# Exact arithmetic

The operations compute over all integers before their results are measured
against a signed 64-bit word.  Division is division with the remainder's sign
that of the dividend, so it rounds towards zero; it has no result only where
the divisor is zero.
-/

namespace ReversePolish

namespace Quotient

theorem towardsZero?_eq
    (dividend divisor : Int) :
    towardsZero? dividend divisor =
      if divisor = 0 then none else some (dividend.tdiv divisor) := by
  rw [towardsZero?]
  split
  · rfl
  · rename_i hne
    obtain ⟨m, hm⟩ := Int.eq_nat_or_neg dividend
    obtain ⟨n, hn⟩ := Int.eq_nat_or_neg divisor
    have hquotient : ((m / n : Nat) : Int) = Int.tdiv m n := Int.ofNat_tdiv m n
    have hzero : m = 0 → Int.tdiv m n = 0 := by
      rintro rfl
      exact Int.zero_tdiv n
    simp only [eq_iff_iff]
    rcases hm with rfl | rfl <;> rcases hn with rfl | rfl <;>
      simp only [Int.natAbs_neg, Int.natAbs_natCast, Int.neg_tdiv, Int.tdiv_neg, hquotient]
    · rw [if_pos (by omega)]
    · rw [if_neg (by omega)]
    · split
      · rw [hzero (by omega), Int.neg_zero]
      · rfl
    · split
      · rw [Int.neg_neg]
      · rw [hzero (by omega), Int.neg_zero, Int.neg_zero]

end Quotient

namespace Arithmetic

/-- The mathematical result of an operation on two integers, if it has one. -/
def exactResult? (operation : Arithmetic) (left right : Int) : Option Int :=
  match operation with
  | add => some (left + right)
  | subtract => some (left - right)
  | multiply => some (left * right)
  | divide => if right = 0 then none else some (left.tdiv right)

/-- Division by zero comes before overflow. -/
theorem eval_eq
    (operation : Arithmetic) (left right : Int) :
    operation.eval left right =
      match operation.exactResult? left right with
      | none => .error .divisionByZero
      | some n => if Numeral.Fits n then .ok n else .error .overflow := by
  cases operation with
  | add => rfl
  | subtract => rfl
  | multiply => rfl
  | divide =>
      rw [eval, exactResult?, Quotient.towardsZero?_eq]
      by_cases h : right = 0
      · rw [if_pos h]
        rfl
      · rw [if_neg h]
        rfl

/-- A result that is given fits. -/
theorem fits_of_eval
    {operation : Arithmetic} {left right result : Int}
    (h : operation.eval left right = .ok result) :
    Numeral.Fits result := by
  rw [eval_eq] at h
  split at h
  · cases h
  · split at h
    · rename_i hfits
      cases h
      exact hfits
    · cases h

end Arithmetic

end ReversePolish
