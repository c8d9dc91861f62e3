import Directive.Binary64.Rounding
import Mathlib.Algebra.Group.Nat.Defs

/-!
# Integers among the binary64 numbers

The integers of the safe range are converted to binary64 numbers exactly, and no
other integer is rounded into that range.  An integer of at most 53 bits is
shifted to a significand of exactly 53, which no digit leaves; a longer one
keeps its leading bit, so it stays as large as the first integer behind the
range.
-/

namespace Directive

theorem fractionCount_eq : fractionCount = 2 ^ 52 :=
  rfl

namespace Binary64

theorem unitsPerOne_eq : unitsPerOne = 2 ^ 1074 := by
  unfold unitsPerOne
  -- a power this large is not to be computed
  generalize 1074 = shift
  exact Nat.one_shiftLeft shift

theorem unitsPerOne_pos : 0 < unitsPerOne := by
  simp only [unitsPerOne_eq, Nat.two_pow_pos]

/-! ## Ranks -/

theorem divideToEven_mul (quotient : Nat) {denominator : Nat} (positive : 0 < denominator) :
    divideToEven (quotient * denominator) denominator = quotient := by
  simp [divideToEven, positive]

theorem div_le_divideToEven (numerator denominator : Nat) :
    numerator / denominator ≤ divideToEven numerator denominator := by
  simp only [divideToEven]
  split
  · exact Nat.le_refl _
  · split
    · exact Nat.le_succ _
    · exact Nat.le_add_right _ _

/-- The rank whose significand has its leading bit. -/
theorem units_rank {fraction : Nat} (shift : Nat) (leads : fractionCount ≤ fraction)
    (fits : fraction < 2 * fractionCount) :
    units (fractionCount * shift + fraction) = fraction * 2 ^ shift := by
  obtain ⟨rest, rfl⟩ := Nat.exists_eq_add_of_le leads
  have small : rest < fractionCount := by omega
  have rankEq : fractionCount * shift + (fractionCount + rest) =
      rest + fractionCount * (shift + 1) := by
    rw [Nat.mul_add, Nat.mul_one]
    omega
  have positive : 0 < fractionCount := by omega
  have normal : ¬ rest + fractionCount * (shift + 1) < fractionCount := by
    rw [← rankEq]
    omega
  rw [units, significand, scale, rankEq, if_neg normal, Nat.add_mul_mod_self_left,
    Nat.mod_eq_of_lt small, Nat.add_mul_div_left _ _ positive, Nat.div_eq_of_lt small,
    Nat.shiftLeft_eq, Nat.zero_add, Nat.add_sub_cancel]

theorem le_units {rank shift : Nat} (behind : fractionCount * (shift + 1) ≤ rank) :
    fractionCount * 2 ^ shift ≤ units rank := by
  have positive : 0 < fractionCount := by decide
  have quotient : shift + 1 ≤ rank / fractionCount :=
    (Nat.le_div_iff_mul_le positive).mpr (by rwa [Nat.mul_comm] at behind)
  have normal : ¬ rank < fractionCount := by
    intro below
    rw [Nat.div_eq_of_lt below] at quotient
    omega
  have leads : fractionCount ≤ significand rank := by
    rw [significand, if_neg normal]
    exact Nat.le_add_right _ _
  have enough : shift ≤ scale rank := by
    rw [scale]
    omega
  rw [units, Nat.shiftLeft_eq]
  exact Nat.mul_le_mul leads (Nat.pow_le_pow_right (by decide) enough)

theorem log2_mul_two_pow {fraction : Nat} (shift : Nat) (leads : fractionCount ≤ fraction)
    (fits : fraction < 2 * fractionCount) : (fraction * 2 ^ shift).log2 = 52 + shift := by
  rw [fractionCount_eq] at leads fits
  have positive : fraction * 2 ^ shift ≠ 0 :=
    Nat.mul_ne_zero (by omega) (Nat.ne_of_gt (Nat.two_pow_pos shift))
  rw [Nat.log2_eq_iff positive, Nat.pow_add, Nat.add_right_comm, Nat.pow_add]
  exact ⟨Nat.mul_le_mul_right _ leads, (Nat.mul_lt_mul_right (Nat.two_pow_pos shift)).mpr fits⟩

/-- A number with a significand of 53 bits is not rounded. -/
theorem nearestRank_mul_two_pow {fraction : Nat} (shift : Nat) (leads : fractionCount ≤ fraction)
    (fits : fraction < 2 * fractionCount) :
    nearestRank (fraction * 2 ^ shift) 1 = fractionCount * shift + fraction := by
  rw [nearestRank, Nat.div_one, log2_mul_two_pow shift leads fits, Nat.add_sub_cancel_left,
    Nat.one_shiftLeft, divideToEven_mul fraction (Nat.two_pow_pos shift)]

/-- A number keeps its leading bit. -/
theorem le_nearestRank {numerator shift : Nat} (large : fractionCount * 2 ^ shift ≤ numerator) :
    fractionCount * (shift + 1) ≤ nearestRank numerator 1 := by
  have nonzero : numerator ≠ 0 := by
    intro zero
    rw [zero, fractionCount_eq, ← Nat.pow_add] at large
    exact absurd large (Nat.not_le.mpr (Nat.two_pow_pos _))
  have bits : 52 + shift ≤ numerator.log2 := by
    rw [Nat.le_log2 nonzero, Nat.pow_add, ← fractionCount_eq]
    exact large
  obtain ⟨further, furtherEq⟩ := Nat.exists_eq_add_of_le (Nat.le_of_add_right_le bits)
  have leads : fractionCount ≤ numerator / 2 ^ further := by
    rw [Nat.le_div_iff_mul_le (Nat.two_pow_pos further), fractionCount_eq, ← Nat.pow_add,
      ← furtherEq]
    exact Nat.log2_self_le nonzero
  rw [nearestRank, Nat.div_one, furtherEq, Nat.add_sub_cancel_left, Nat.one_shiftLeft]
  calc fractionCount * (shift + 1)
      ≤ fractionCount * (further + 1) := Nat.mul_le_mul_left _ (by omega)
    _ = fractionCount * further + fractionCount := Nat.mul_succ _ _
    _ ≤ fractionCount * further + numerator / 2 ^ further := Nat.add_le_add_left leads _
    _ ≤ _ := Nat.add_le_add_left (div_le_divideToEven _ _) _

/-! ## Integers -/

/-- An integer of the safe range in units, as a significand of 53 bits that is
shifted. -/
theorem exists_fraction {number : Nat} (positive : 0 < number) (safe : number ≤ maxSafeInteger) :
    ∃ fraction shift, number * unitsPerOne = fraction * 2 ^ shift ∧ shift ≤ 1074 ∧
      fractionCount ≤ fraction ∧ fraction < 2 * fractionCount := by
  have nonzero : number ≠ 0 := Nat.ne_of_gt positive
  have bits : number.log2 ≤ 52 := by
    rw [← Nat.lt_succ_iff, Nat.log2_lt nonzero]
    exact Nat.lt_succ_of_le safe
  obtain ⟨missing, sum⟩ := Nat.exists_eq_add_of_le bits
  refine ⟨number * 2 ^ missing, 1074 - missing, ?_, Nat.sub_le _ _, ?_, ?_⟩
  · rw [unitsPerOne_eq, Nat.mul_assoc, ← Nat.pow_add]
    congr 2
    omega
  · rw [fractionCount_eq, sum, Nat.pow_add]
    exact Nat.mul_le_mul_right _ (Nat.log2_self_le nonzero)
  · have double : 2 * fractionCount = 2 ^ (number.log2 + 1) * 2 ^ missing := by
      rw [← Nat.pow_add, fractionCount_eq, ← Nat.pow_succ']
      congr 1
      omega
    rw [double]
    exact (Nat.mul_lt_mul_right (Nat.two_pow_pos missing)).mpr Nat.lt_log2_self

theorem units_nearestRank {number : Nat} (safe : number ≤ maxSafeInteger) :
    units (nearestRank (number * unitsPerOne) 1) = number * unitsPerOne ∧
      nearestRank (number * unitsPerOne) 1 < infiniteRank := by
  rcases Nat.eq_zero_or_pos number with rfl | positive
  · rw [Nat.zero_mul]
    exact ⟨by decide, by decide⟩
  · obtain ⟨fraction, shift, numberEq, bounded, leads, fits⟩ := exists_fraction positive safe
    rw [numberEq, nearestRank_mul_two_pow shift leads fits, units_rank shift leads fits]
    refine ⟨rfl, ?_⟩
    calc fractionCount * shift + fraction
        < fractionCount * shift + 2 * fractionCount := Nat.add_lt_add_left fits _
      _ = (shift + 2) * fractionCount := by rw [Nat.add_mul, Nat.mul_comm fractionCount]
      _ ≤ infiniteRank := Nat.mul_le_mul_right _ (by omega)

/-- What is at least the first integer behind the safe range stays so. -/
theorem le_units_nearestRank {number : Nat} (tooLarge : maxSafeInteger < number) :
    (maxSafeInteger + 1) * unitsPerOne ≤ units (nearestRank (number * unitsPerOne) 1) := by
  have large : (maxSafeInteger + 1) * unitsPerOne ≤ number * unitsPerOne :=
    Nat.mul_le_mul_right _ tooLarge
  obtain ⟨shift, unitsEq⟩ : ∃ shift, unitsPerOne = 2 ^ shift := ⟨_, unitsPerOne_eq⟩
  have bound : maxSafeInteger + 1 = fractionCount * 2 := rfl
  have first : (maxSafeInteger + 1) * unitsPerOne = fractionCount * 2 ^ (shift + 1) := by
    rw [unitsEq, bound, Nat.mul_assoc, ← Nat.pow_succ']
  rw [first] at large ⊢
  exact le_units (le_nearestRank large)

/-- An integer of the safe range is converted exactly. -/
theorem toInt?_ofQuotient (negative : Bool) {number : Nat} (safe : number ≤ maxSafeInteger) :
    (ofQuotient negative number 1).toInt? =
      some (if negative then -(number : Int) else number) := by
  obtain ⟨unitsEq, finite⟩ := units_nearestRank safe
  have rankEq : min (nearestRank (number * unitsPerOne) 1) infiniteRank =
      nearestRank (number * unitsPerOne) 1 := Nat.min_eq_left (Nat.le_of_lt finite)
  simp only [ofQuotient, ofRank, toInt?, rankEq, unitsEq, finite,
    Nat.mul_div_cancel _ unitsPerOne_pos, Nat.mul_mod_left]
  rfl

theorem toInt?_ofInt {integer : Int} (safe : integer.natAbs ≤ maxSafeInteger) :
    (ofInt integer).toInt? = some integer := by
  rw [ofInt, toInt?_ofQuotient _ safe]
  simp only [decide_eq_true_eq, Option.some.injEq]
  split <;> omega

/-- An integer outside the safe range stays outside. -/
theorem natAbs_of_toInt?_ofQuotient {negative : Bool} {number : Nat} {integer : Int}
    (tooLarge : maxSafeInteger < number)
    (rounded : (ofQuotient negative number 1).toInt? = some integer) :
    maxSafeInteger < integer.natAbs := by
  rw [ofQuotient, ofRank, toInt?] at rounded
  simp only [Option.ite_none_right_eq_some, Bool.and_eq_true, decide_eq_true_eq,
    Option.some.injEq] at rounded
  obtain ⟨⟨finite, -⟩, rfl⟩ := rounded
  have rankEq : min (nearestRank (number * unitsPerOne) 1) infiniteRank =
      nearestRank (number * unitsPerOne) 1 := by omega
  have atLeast : maxSafeInteger + 1 ≤
      units (nearestRank (number * unitsPerOne) 1) / unitsPerOne :=
    (Nat.le_div_iff_mul_le unitsPerOne_pos).mpr (le_units_nearestRank tooLarge)
  rw [rankEq]
  generalize units (nearestRank (number * unitsPerOne) 1) / unitsPerOne = magnitude at atLeast ⊢
  split <;> omega

/-- No integer outside the safe range is rounded into it. -/
theorem isSafeInteger_ofQuotient_iff (negative : Bool) (number : Nat) :
    (ofQuotient negative number 1).isSafeInteger ↔ number ≤ maxSafeInteger := by
  constructor
  · intro isSafe
    apply Nat.not_lt.mp
    intro tooLarge
    rw [isSafeInteger] at isSafe
    split at isSafe
    · cases isSafe
    · next integer rounded =>
        have outside := natAbs_of_toInt?_ofQuotient tooLarge rounded
        exact absurd (of_decide_eq_true isSafe) (Nat.not_le.mpr outside)
  · intro safe
    rw [isSafeInteger, toInt?_ofQuotient negative safe]
    cases negative <;> simpa using safe

theorem nearestRank_ne_zero {number : Nat} (positive : 0 < number) :
    nearestRank (number * unitsPerOne) 1 ≠ 0 := by
  have some : 0 < units (nearestRank (number * unitsPerOne) 1) := by
    by_cases safe : number ≤ maxSafeInteger
    · rw [(units_nearestRank safe).1]
      exact Nat.mul_pos positive unitsPerOne_pos
    · have large := le_units_nearestRank (Nat.lt_of_not_le safe)
      exact Nat.lt_of_lt_of_le (Nat.mul_pos (Nat.succ_pos _) unitsPerOne_pos) large
  intro zero
  rw [zero] at some
  exact absurd some (by decide)

/-- Without the sign of a zero, a sign and a magnitude give the number that is
nearest to an integer. -/
theorem withoutZeroSign_ofQuotient (negative : Bool) (number : Nat) :
    (ofQuotient negative number 1).withoutZeroSign =
      ofInt (if negative then -(number : Int) else number) := by
  rcases Nat.eq_zero_or_pos number with rfl | positive
  · cases negative <;> decide
  · have nonzero : min (nearestRank (number * unitsPerOne) 1) infiniteRank ≠ 0 := by
      have infinite : 0 < infiniteRank := by decide
      have ranked := nearestRank_ne_zero positive
      omega
    have kept : (ofQuotient negative number 1).withoutZeroSign =
        ofQuotient negative number 1 := by
      rw [ofQuotient, ofRank, withoutZeroSign, if_neg nonzero]
    rw [kept, ofInt]
    cases negative
    · have plain : ¬ ((number : Int) < 0) := by omega
      simp [plain]
    · simp [positive]

end Binary64

end Directive
