import Mathlib.Data.Rat.Floor
import QueryExec.Proofs.Floating.Rounding

/-!
Arithmetic on finite numbers. Each operation rounds its exact result once, so the exact result alone
tells whether the rounded one is finite.
-/

namespace QueryExec.Floating

/-- The whole part of a number, toward zero. -/
def truncated (number : ℚ) : Int :=
  if 0 ≤ number then ⌊number⌋ else ⌈number⌉

theorem truncated_neg (number : ℚ) : truncated (-number) = -truncated number := by
  unfold truncated
  rcases lt_trichotomy number 0 with negative | rfl | positive
  · rw [if_pos (by linarith), if_neg (by linarith), Int.floor_neg]
  · simp
  · rw [if_neg (by linarith), if_pos positive.le, Int.ceil_neg]

theorem truncated_quotient (numerator denominator : Nat) :
    truncated ((numerator : ℚ) / denominator) = (numerator / denominator : Nat) := by
  rw [truncated, if_pos (by positivity), Rat.floor_natCast_div_natCast]
  rfl

/-- Division of integers toward zero is that of the numbers that they are. -/
theorem truncated_div (dividend divisor : Int) :
    truncated ((dividend : ℚ) / divisor) = dividend.tdiv divisor := by
  obtain ⟨numerator, rfl | rfl⟩ := dividend.eq_nat_or_neg <;>
    obtain ⟨denominator, rfl | rfl⟩ := divisor.eq_nat_or_neg
  · exact truncated_quotient numerator denominator
  · rw [Int.tdiv_neg, Int.cast_neg, div_neg, truncated_neg]
    exact congrArg _ (truncated_quotient numerator denominator)
  · rw [Int.neg_tdiv, Int.cast_neg, neg_div, truncated_neg]
    exact congrArg _ (truncated_quotient numerator denominator)
  · rw [Int.tdiv_neg, Int.neg_tdiv, neg_neg, Int.cast_neg, Int.cast_neg, neg_div_neg_eq]
    exact truncated_quotient numerator denominator

/-- The number that a finite one is. -/
def Scaled.worth (scaled : Scaled) : ℚ :=
  signed scaled.negative scaled.magnitude.worth

theorem Scaled.significand_worth (scaled : Scaled) :
    scaled.significand * 2 ^ scaled.magnitude.exponent = scaled.worth := by
  obtain ⟨negative, magnitude⟩ := scaled
  cases negative with
  | false => simp [significand, worth, signed, Dyadic.worth]
  | true => simp [significand, worth, signed, Dyadic.worth]

theorem Scaled.worth_eq_zero_iff {scaled : Scaled} :
    scaled.worth = 0 ↔ scaled.magnitude.significand = 0 := by
  have unitPos : (2 : ℚ) ^ scaled.magnitude.exponent ≠ 0 := by positivity
  have none : scaled.significand = 0 ↔ scaled.magnitude.significand = 0 := by
    unfold significand
    split <;> omega
  rw [← scaled.significand_worth, mul_eq_zero_iff_right unitPos, Int.cast_eq_zero, none]

theorem signed_mul (negative : Bool) (magnitude unit : ℚ) :
    signed negative (magnitude * unit) = signed negative magnitude * unit := by
  cases negative with
  | false => rfl
  | true => exact (neg_mul magnitude unit).symm

theorem signed_div (negative other : Bool) (dividend divisor : ℚ) :
    signed (negative != other) (dividend / divisor) =
      signed negative dividend / signed other divisor := by
  cases negative <;> cases other <;> simp [signed, neg_div, div_neg]

variable {format : Format} {number left right : Floating format} {exact first second : ℚ}

theorem Stands.view (stands : number.Stands exact) :
    ∃ scaled, number.view = .finite scaled ∧ scaled.worth = exact ∧
      scaled.negative = number.isNegative := by
  obtain ⟨negative, rank, rfl, finite, same⟩ := stands
  exact ⟨_, view_finite negative finite, same, rfl⟩

theorem Stands.neg (stands : number.Stands exact) : number.neg.Stands (-exact) := by
  obtain ⟨negative, rank, rfl, finite, rfl⟩ := stands
  refine ⟨!negative, rank, rfl, finite, ?_⟩
  cases negative with
  | false => rfl
  | true => exact (neg_neg _).symm

theorem Stands.is_zero_iff (stands : number.Stands exact) : number.isZero = true ↔ exact = 0 := by
  obtain ⟨negative, rank, rfl, -, rfl⟩ := stands
  have worthZero : format.worth 0 = 0 := by
    simp [Format.worth, Format.magnitude_zero, Dyadic.worth]
  have none : format.worth rank.val = 0 ↔ rank.val = 0 := by
    rw [← worthZero, format.worth_strict_mono.injective.eq_iff]
  have magnitude : signed negative (format.worth rank.val) = 0 ↔ format.worth rank.val = 0 := by
    cases negative with
    | false => exact Iff.rfl
    | true => exact neg_eq_zero
  rw [magnitude, none]
  exact beq_iff_eq

theorem zero_rounds (negative : Bool) : (zero negative : Floating format).Rounds 0 := by
  refine ⟨negative, _, 0, rfl, le_rfl, ?_, Format.rounds_zero ?_⟩
  · cases negative <;> simp [signed]
  · exact (format.worth_nonneg 0).trans_lt Format.worth_lt_midpoint

theorem of_scaled_rounds (zeroNegative : Bool) (significand exponent : Int) :
    (ofScaled zeroNegative significand exponent : Floating format).Rounds
      (significand * 2 ^ exponent) := by
  unfold ofScaled
  split
  next none =>
    rw [none, Int.cast_zero, zero_mul]
    exact zero_rounds zeroNegative
  next present =>
    have rounds := @of_ratio_rounds format (significand < 0) _
      (dyadic_ratio_denominator ⟨significand.natAbs, exponent⟩)
    have exact : signed (significand < 0) (Dyadic.worth ⟨significand.natAbs, exponent⟩) =
        significand * 2 ^ exponent := by
      rw [Dyadic.worth, signed_mul, signed_nat_abs]
    rw [dyadic_ratio_worth, exact] at rounds
    exact rounds

theorem of_int_rounds (whole : Int) : (ofInt whole : Floating format).Rounds whole := by
  have rounds := @of_scaled_rounds format false whole 0
  rw [zpow_zero, mul_one] at rounds
  exact rounds

/-- Bringing two numbers to one exponent changes neither. -/
theorem aligned_worth (one other : Scaled) :
    (aligned one other).1 * 2 ^ (aligned one other).2.2 = one.worth ∧
      (aligned one other).2.1 * 2 ^ (aligned one other).2.2 = other.worth := by
  have moved : ∀ scaled : Scaled, ∀ exponent, exponent ≤ scaled.magnitude.exponent →
      ((scaled.significand * twoTo (scaled.magnitude.exponent - exponent).toNat : Int) : ℚ) *
        2 ^ exponent = scaled.worth := by
    intro scaled exponent lower
    obtain ⟨places, raised⟩ := Int.eq_ofNat_of_zero_le (sub_nonneg.mpr lower)
    have above : scaled.magnitude.exponent = places + exponent := by omega
    rw [← scaled.significand_worth, raised, Int.toNat_natCast, above, zpow_add₀ (by norm_num),
      zpow_natCast]
    push_cast [two_to_cast]
    ring
  exact ⟨moved one _ (min_le_left _ _), moved other _ (min_le_right _ _)⟩

theorem add_rounds (ofLeft : left.Stands first) (ofRight : right.Stands second) :
    (left.add right).Rounds (first + second) := by
  obtain ⟨one, seen, rfl, -⟩ := ofLeft.view
  obtain ⟨other, seen', rfl, -⟩ := ofRight.view
  obtain ⟨augend, addend⟩ := aligned_worth one other
  unfold add
  rw [seen, seen', ← augend, ← addend, ← add_mul, ← Int.cast_add]
  exact of_scaled_rounds _ _ _

theorem sub_rounds (ofLeft : left.Stands first) (ofRight : right.Stands second) :
    (left.sub right).Rounds (first - second) := by
  obtain ⟨one, seen, -, -⟩ := ofLeft.view
  obtain ⟨other, seen', -, -⟩ := ofRight.view
  unfold sub
  rw [seen, seen', sub_eq_add_neg]
  exact add_rounds ofLeft ofRight.neg

theorem mul_rounds (ofLeft : left.Stands first) (ofRight : right.Stands second) :
    (left.mul right).Rounds (first * second) := by
  obtain ⟨one, seen, rfl, -⟩ := ofLeft.view
  obtain ⟨other, seen', rfl, -⟩ := ofRight.view
  have product : one.worth * other.worth = (one.significand * other.significand : Int) *
      2 ^ (one.magnitude.exponent + other.magnitude.exponent) := by
    rw [← one.significand_worth, ← other.significand_worth, zpow_add₀ (by norm_num)]
    push_cast
    ring
  unfold mul
  rw [seen, seen', product]
  exact of_scaled_rounds _ _ _

theorem div_rounds (ofLeft : left.Stands first) (ofRight : right.Stands second)
    (nonzero : second ≠ 0) : (left.div right).Rounds (first / second) := by
  obtain ⟨one, seen, rfl, side⟩ := ofLeft.view
  obtain ⟨other, seen', rfl, side'⟩ := ofRight.view
  have present := Scaled.worth_eq_zero_iff.not.mp nonzero
  have unitPos : (2 : ℚ) ^ one.magnitude.exponent ≠ 0 := by positivity
  have quotient : (Ratio.scaleDown ⟨one.magnitude.significand, other.magnitude.significand⟩
      (other.magnitude.exponent - one.magnitude.exponent)).worth =
        one.magnitude.worth / other.magnitude.worth := by
    rw [scale_down_worth, zpow_sub₀ (by norm_num), Ratio.worth, Dyadic.worth, Dyadic.worth]
    field_simp
  unfold div
  rw [seen, seen', ← side, ← side']
  dsimp only
  rw [if_neg present, Scaled.worth, Scaled.worth, ← signed_div, ← quotient]
  exact of_ratio_rounds _ (scale_down_denominator (Nat.pos_of_ne_zero present) _)

/-- The remainder has the sign of the dividend, as division is toward zero. -/
theorem rem_rounds (ofLeft : left.Stands first) (ofRight : right.Stands second)
    (nonzero : second ≠ 0) :
    (left.rem right).Rounds (first - second * truncated (first / second)) := by
  obtain ⟨one, seen, rfl, -⟩ := ofLeft.view
  obtain ⟨other, seen', rfl, -⟩ := ofRight.view
  have present := Scaled.worth_eq_zero_iff.not.mp nonzero
  obtain ⟨dividend, divisor⟩ := aligned_worth one other
  unfold rem
  rw [seen, seen']
  dsimp only
  rw [if_neg present]
  generalize aligned one other = common at dividend divisor ⊢
  obtain ⟨numerator, denominator, exponent⟩ := common
  dsimp only at dividend divisor ⊢
  have unitPos : (2 : ℚ) ^ exponent ≠ 0 := by positivity
  have remainder : one.worth - other.worth * truncated (one.worth / other.worth) =
      (numerator.tmod denominator : Int) * 2 ^ exponent := by
    rw [← dividend, ← divisor, mul_div_mul_right _ _ unitPos, truncated_div, Int.tmod_def]
    push_cast
    ring
  rw [remainder]
  exact of_scaled_rounds _ _ _

end QueryExec.Floating
