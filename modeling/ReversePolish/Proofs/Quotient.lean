import ReversePolish.Proofs.Arithmetic

/-!
# Division with a remainder

A quotient is cut off towards zero when what it leaves of the dividend is
smaller than the divisor and lies on the dividend's side of zero.  For a
divisor other than zero there is exactly one such quotient, whatever the size
of the operands, and it is the one that division gives.

Within a signed 64-bit word only one division leaves the word: the least
integer has no negative there.
-/

namespace ReversePolish

namespace Quotient

/-- A quotient with the remainder that it leaves: the remainder is smaller than the divisor in
magnitude, and it is zero or has the sign of the dividend. -/
structure IsDivision (dividend divisor quotient remainder : Int) : Prop where
  sum : dividend = divisor * quotient + remainder
  smaller : remainder.natAbs < divisor.natAbs
  sign : remainder = 0 ∨ remainder.sign = dividend.sign

section Division

variable {dividend divisor quotient remainder : Int}

theorem isDivision_tdiv
    (dividend : Int)
    (h : divisor ≠ 0) :
    IsDivision dividend divisor (dividend.tdiv divisor) (dividend.tmod divisor) := by
  refine ⟨(Int.mul_tdiv_add_tmod dividend divisor).symm, ?_, ?_⟩
  · rw [Int.natAbs_tmod]
    exact Nat.mod_lt _ (Int.natAbs_pos.2 h)
  · by_cases hdvd : divisor ∣ dividend
    · exact Or.inl (Int.tmod_eq_zero_of_dvd hdvd)
    · right
      rw [Int.sign_tmod, if_neg hdvd]

namespace IsDivision

theorem divisor_ne_zero
    (h : IsDivision dividend divisor quotient remainder) :
    divisor ≠ 0 := by
  rintro rfl
  exact Nat.not_lt_zero _ h.smaller

theorem remainder_nonneg
    (h : IsDivision dividend divisor quotient remainder)
    (hdividend : 0 ≤ dividend) :
    0 ≤ remainder := by
  rcases h.sign with hzero | hsign
  · exact Int.le_of_eq hzero.symm
  · rw [← Int.sign_nonneg_iff, hsign]
    exact Int.sign_nonneg_iff.2 hdividend

theorem remainder_nonpos
    (h : IsDivision dividend divisor quotient remainder)
    (hdividend : dividend ≤ 0) :
    remainder ≤ 0 := by
  rcases h.sign with hzero | hsign
  · exact Int.le_of_eq hzero
  · rw [← Int.sign_nonpos_iff, hsign]
    exact Int.sign_nonpos_iff.2 hdividend

/-- Two remainders on the same side of zero are less than the divisor apart. -/
theorem natAbs_sub_lt
    {quotient' remainder' : Int}
    (h : IsDivision dividend divisor quotient remainder)
    (h' : IsDivision dividend divisor quotient' remainder') :
    (remainder' - remainder).natAbs < divisor.natAbs := by
  have hsmaller := h.smaller
  have hsmaller' := h'.smaller
  rcases Int.le_total 0 dividend with hdividend | hdividend
  · have hnonneg := h.remainder_nonneg hdividend
    have hnonneg' := h'.remainder_nonneg hdividend
    omega
  · have hnonpos := h.remainder_nonpos hdividend
    have hnonpos' := h'.remainder_nonpos hdividend
    omega

/-- There is only one quotient, with only one remainder. -/
theorem unique
    {quotient' remainder' : Int}
    (h : IsDivision dividend divisor quotient remainder)
    (h' : IsDivision dividend divisor quotient' remainder') :
    quotient' = quotient ∧ remainder' = remainder := by
  have hdifference : divisor * (quotient - quotient') = remainder' - remainder := by
    rw [Int.mul_sub]
    have hsum := h.sum
    have hsum' := h'.sum
    omega
  have hremainder : remainder' - remainder = 0 :=
    Int.eq_zero_of_dvd_of_natAbs_lt_natAbs ⟨_, hdifference.symm⟩ (h.natAbs_sub_lt h')
  rw [hremainder] at hdifference
  have hquotient := (Int.mul_eq_zero.1 hdifference).resolve_left h.divisor_ne_zero
  omega

end IsDivision

theorem towardsZero?_eq_some_iff :
    towardsZero? dividend divisor = some quotient ↔
      ∃ remainder, IsDivision dividend divisor quotient remainder := by
  rw [towardsZero?_eq]
  constructor
  · intro h
    split at h
    · cases h
    · rename_i hne
      cases h
      exact ⟨_, isDivision_tdiv dividend hne⟩
  · rintro ⟨remainder, h⟩
    rw [if_neg h.divisor_ne_zero, (h.unique (isDivision_tdiv dividend h.divisor_ne_zero)).1]

theorem towardsZero?_neg
    (dividend divisor : Int) :
    towardsZero? (-dividend) divisor = (towardsZero? dividend divisor).map (- ·) := by
  rw [towardsZero?_eq, towardsZero?_eq, Int.neg_tdiv]
  split <;> rfl

theorem towardsZero?_neg_right
    (dividend divisor : Int) :
    towardsZero? dividend (-divisor) = (towardsZero? dividend divisor).map (- ·) := by
  simp only [towardsZero?_eq, Int.tdiv_neg, Int.neg_eq_zero]
  split <;> rfl

/-- The quotient by anything but a unit is at most half the dividend, and fits with it. -/
theorem not_fits_tdiv_iff
    (hdividend : Numeral.Fits dividend)
    (hdivisor : divisor ≠ 0) :
    ¬ Numeral.Fits (dividend.tdiv divisor) ↔ dividend = Numeral.smallest ∧ divisor = -1 := by
  unfold Numeral.Fits Numeral.smallest Numeral.largest at *
  have hcases : divisor = 1 ∨ divisor = -1 ∨ 2 ≤ divisor.natAbs := by omega
  rcases hcases with rfl | rfl | hlarge
  · rw [Int.tdiv_one]
    omega
  · rw [Int.tdiv_neg, Int.tdiv_one]
    omega
  · have hhalf : (dividend.tdiv divisor).natAbs ≤ dividend.natAbs / 2 := by
      rw [Int.natAbs_tdiv]
      exact Nat.div_le_div_left hlarge Nat.zero_lt_two
    omega

end Division

/-- **Division is exact and rounds towards zero.**  It fails for the divisor zero alone.  Otherwise
its quotient is, with some remainder, the only division there is; negating one operand negates it;
and a dividend in range has a quotient out of range in one case. -/
theorem towardsZero?_exact
    (dividend divisor : Int) :
    (towardsZero? dividend divisor = none ↔ divisor = 0) ∧
      (divisor ≠ 0 → ∃ quotient remainder,
        towardsZero? dividend divisor = some quotient ∧
          IsDivision dividend divisor quotient remainder ∧
          (∀ quotient' remainder', IsDivision dividend divisor quotient' remainder' →
            quotient' = quotient ∧ remainder' = remainder) ∧
          towardsZero? (-dividend) divisor = some (-quotient) ∧
          towardsZero? dividend (-divisor) = some (-quotient) ∧
          (Numeral.Fits dividend →
            (¬ Numeral.Fits quotient ↔ dividend = Numeral.smallest ∧ divisor = -1))) := by
  refine ⟨towardsZero?_eq_none_iff dividend divisor, fun hdivisor => ?_⟩
  have hdivision := isDivision_tdiv dividend hdivisor
  have hquotient := towardsZero?_eq_some_iff.2 ⟨_, hdivision⟩
  refine ⟨_, _, hquotient, hdivision, fun _ _ => hdivision.unique, ?_, ?_, ?_⟩
  · rw [towardsZero?_neg, hquotient, Option.map_some]
  · rw [towardsZero?_neg_right, hquotient, Option.map_some]
  · exact fun hdividend => not_fits_tdiv_iff hdividend hdivisor

/-- Half of minus seven is cut off upwards, and the least integer has no negative in range. -/
theorem towardsZero?_exact_smallest :
    (∃ remainder, IsDivision (-7) 2 (-3) remainder) ∧
      ∃ quotient, towardsZero? Numeral.smallest (-1) = some quotient ∧
        ¬ Numeral.Fits quotient := by
  have hhalf : towardsZero? (-7) 2 = some (-3) := rfl
  obtain ⟨quotient, remainder, hquotient, hdivision, -⟩ :=
    (towardsZero?_exact (-7) 2).2 (by decide)
  obtain ⟨negative, -, hnegative, -, -, -, -, hrange⟩ :=
    (towardsZero?_exact Numeral.smallest (-1)).2 (by decide)
  rw [hhalf] at hquotient
  cases hquotient
  exact ⟨⟨remainder, hdivision⟩, negative, hnegative,
    (hrange (by decide)).2 ⟨rfl, rfl⟩⟩

end Quotient

namespace Arithmetic

/-- One division of integers in range overflows. -/
theorem eval_divide_eq_overflow_iff
    {left right : Int}
    (hleft : Numeral.Fits left) :
    divide.eval left right = .error .overflow ↔ left = Numeral.smallest ∧ right = -1 := by
  rw [eval_eq, exactResult?]
  by_cases hright : right = 0
  · subst hright
    simp
  · rw [if_neg hright, ← Quotient.not_fits_tdiv_iff hleft hright]
    by_cases hresult : Numeral.Fits (left.tdiv right) <;> simp [hresult]

end Arithmetic

end ReversePolish
