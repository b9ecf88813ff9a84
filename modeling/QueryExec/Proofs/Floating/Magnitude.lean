import Mathlib.Algebra.Order.Field.Power
import Mathlib.Algebra.Order.Field.Rat
import Mathlib.Order.Monotone.Basic
import Mathlib.Tactic.FieldSimp
import Mathlib.Tactic.Linarith
import Mathlib.Tactic.LinearCombination
import Mathlib.Tactic.NormNum
import Mathlib.Tactic.Positivity
import Mathlib.Tactic.Ring
import QueryExec.Floating.Basic

/-!
What the ranks of a format are worth: each rank is one unit in the last place above the one
before it, so ranks are in the order of their worth. A number with no more bits than a significand
has a rank of its own, and rounding finds it.
-/

namespace QueryExec.Floating

theorem two_to_pos (exponent : Nat) : 0 < twoTo exponent :=
  Nat.two_pow_pos exponent

theorem two_to_cast (exponent : Nat) : (twoTo exponent : ℚ) = 2 ^ exponent :=
  Nat.cast_pow 2 exponent

theorem ten_to_cast (exponent : Nat) : (tenTo exponent : ℚ) = 10 ^ exponent :=
  Nat.cast_pow 10 exponent

/-- A power of either sign as a quotient of two powers. -/
theorem power_quotient (base : ℚ) (nonzero : base ≠ 0) (exponent : Int) :
    base ^ exponent.toNat / base ^ (-exponent).toNat = base ^ exponent := by
  rw [← zpow_natCast, ← zpow_natCast, ← zpow_sub₀ nonzero]
  congr 1
  omega

/-- The number that a magnitude is. -/
def Dyadic.worth (dyadic : Dyadic) : ℚ :=
  dyadic.significand * 2 ^ dyadic.exponent

def Ratio.worth (ratio : Ratio) : ℚ :=
  ratio.numerator / ratio.denominator

theorem scale_down_worth (ratio : Ratio) (exponent : Int) :
    (ratio.scaleDown exponent).worth = ratio.worth / 2 ^ exponent := by
  have quotient := power_quotient 2 (by norm_num) exponent
  unfold Ratio.scaleDown Ratio.worth
  split
  · rename_i positive
    have none : (-exponent).toNat = 0 := by omega
    rw [none, pow_zero, div_one] at quotient
    rw [← quotient]
    push_cast [two_to_cast]
    field_simp
  · rename_i negative
    have none : exponent.toNat = 0 := by omega
    rw [none, pow_zero] at quotient
    rw [← quotient]
    push_cast [two_to_cast]
    field_simp

theorem dyadic_ratio_worth (dyadic : Dyadic) : dyadic.ratio.worth = dyadic.worth := by
  rw [Dyadic.ratio, scale_down_worth, Ratio.worth, Dyadic.worth, zpow_neg]
  simp

namespace Format

variable (format : Format)

/-- The number of a finite rank. -/
def worth (rank : Nat) : ℚ :=
  (format.magnitude rank).worth

/-- The unit in the last place of a finite rank. -/
def unit (rank : Nat) : ℚ :=
  2 ^ (format.magnitude rank).exponent

theorem unit_pos (rank : Nat) : 0 < format.unit rank := by
  unfold unit
  positivity

/-- The next rank has the next significand, or starts the next binade. -/
theorem magnitude_succ (rank : Nat) :
    format.magnitude (rank + 1) =
        ⟨(format.magnitude rank).significand + 1, (format.magnitude rank).exponent⟩ ∨
      (format.magnitude rank).significand + 1 = 2 * twoTo format.fractionBits ∧
        format.magnitude (rank + 1) =
          ⟨twoTo format.fractionBits, (format.magnitude rank).exponent + 1⟩ := by
  have positive := two_to_pos format.fractionBits
  generalize bound : twoTo format.fractionBits = size at positive ⊢
  have split : rank = size * (rank / size) + rank % size := (Nat.div_add_mod rank size).symm
  have below : rank % size < size := Nat.mod_lt rank positive
  generalize binade : rank / size = quotient at split
  generalize fraction : rank % size = remainder at split below
  by_cases last : remainder + 1 = size
  · have next : rank + 1 = size * (quotient + 1) := by rw [Nat.mul_succ]; omega
    have binadeNext : (rank + 1) / size = quotient + 1 := by
      rw [next, Nat.mul_div_cancel_left _ positive]
    have fractionNext : (rank + 1) % size = 0 := by rw [next, Nat.mul_mod_right]
    unfold magnitude
    simp only [bound, binade, fraction, binadeNext, fractionNext]
    by_cases first : quotient = 0
    · subst first
      left
      simp [last]
    · right
      simp only [first, if_false, Nat.succ_ne_zero, Nat.add_sub_cancel]
      refine ⟨by omega, ?_⟩
      rw [Nat.zero_add]
      congr 1
      omega
  · have binadeNext : (rank + 1) / size = quotient := by
      rw [split, Nat.add_assoc, Nat.mul_add_div positive, Nat.div_eq_of_lt (by omega)]
      omega
    have fractionNext : (rank + 1) % size = remainder + 1 := by
      rw [split, Nat.add_assoc, Nat.mul_add_mod, Nat.mod_eq_of_lt (by omega)]
    left
    unfold magnitude
    simp only [bound, binade, fraction, binadeNext, fractionNext]
    split
    · rfl
    · congr 1
      exact Nat.add_right_comm _ _ _

theorem worth_succ (rank : Nat) :
    format.worth (rank + 1) = format.worth rank + format.unit rank := by
  rcases format.magnitude_succ rank with next | ⟨last, next⟩
  · simp only [worth, unit, Dyadic.worth, next]
    push_cast
    ring
  · have full : ((format.magnitude rank).significand : ℚ) + 1 =
        2 * (twoTo format.fractionBits : ℚ) := by exact_mod_cast last
    simp only [worth, unit, Dyadic.worth, next]
    rw [zpow_add_one₀ (by norm_num)]
    linear_combination (-(2 : ℚ) ^ (format.magnitude rank).exponent) * full

theorem worth_strict_mono : StrictMono format.worth :=
  strictMono_nat_of_lt_succ fun rank => by
    rw [worth_succ]
    exact lt_add_of_pos_right _ (format.unit_pos rank)

theorem magnitude_zero : format.magnitude 0 = ⟨0, format.lowestExponent⟩ := by
  simp [magnitude]

theorem significand_pos {rank : Nat} (positive : 0 < rank) :
    0 < (format.magnitude rank).significand := by
  obtain ⟨before, rfl⟩ := Nat.exists_eq_succ_of_ne_zero (Nat.ne_of_gt positive)
  rcases format.magnitude_succ before with next | ⟨-, next⟩
  · simp [next]
  · simpa [next] using two_to_pos _

end Format

theorem Ratio.round_even_whole {ratio : Ratio} {whole : Nat} (positive : 0 < ratio.denominator)
    (same : ratio.worth = whole) : ratio.roundEven = whole := by
  have nonzero : (ratio.denominator : ℚ) ≠ 0 := by exact_mod_cast Nat.ne_of_gt positive
  have product : ratio.numerator = whole * ratio.denominator := by
    have cast := (div_eq_iff nonzero).mp same
    exact_mod_cast cast
  unfold roundEven
  rw [product, Nat.mul_div_cancel _ positive, Nat.mul_mod_left]
  simp [positive]

theorem scale_down_denominator {ratio : Ratio} (positive : 0 < ratio.denominator)
    (exponent : Int) : 0 < (ratio.scaleDown exponent).denominator := by
  unfold Ratio.scaleDown
  split
  · exact Nat.mul_pos positive (two_to_pos _)
  · exact positive

theorem dyadic_ratio_denominator (dyadic : Dyadic) : 0 < dyadic.ratio.denominator :=
  scale_down_denominator Nat.one_pos _

/-- The binary exponent is that of the greatest power of two below. -/
theorem binary_exponent_bounds {ratio : Ratio} (nonzero : ratio.numerator ≠ 0)
    (positive : 0 < ratio.denominator) :
    2 ^ ratio.binaryExponent ≤ ratio.worth ∧ ratio.worth < 2 ^ (ratio.binaryExponent + 1) := by
  have numeratorLow : (2 : ℚ) ^ (ratio.numerator.log2 : Int) ≤ ratio.numerator := by
    exact_mod_cast Nat.log2_self_le nonzero
  have numeratorHigh : (ratio.numerator : ℚ) < 2 ^ (ratio.numerator.log2 + 1 : Int) := by
    exact_mod_cast Nat.lt_log2_self
  have denominatorLow : (2 : ℚ) ^ (ratio.denominator.log2 : Int) ≤ ratio.denominator := by
    exact_mod_cast Nat.log2_self_le (Nat.ne_of_gt positive)
  have denominatorHigh : (ratio.denominator : ℚ) < 2 ^ (ratio.denominator.log2 + 1 : Int) := by
    exact_mod_cast Nat.lt_log2_self
  have denominatorPos : (0 : ℚ) < ratio.denominator := by exact_mod_cast positive
  generalize estimated : (ratio.numerator.log2 : Int) - ratio.denominator.log2 = estimate
  have above : ratio.worth < 2 ^ (estimate + 1) := by
    rw [Ratio.worth, div_lt_iff₀ denominatorPos]
    calc (ratio.numerator : ℚ) < 2 ^ (ratio.numerator.log2 + 1 : Int) := numeratorHigh
      _ = 2 ^ (estimate + 1) * 2 ^ (ratio.denominator.log2 : Int) := by
        rw [← zpow_add₀ (by norm_num)]
        congr 1
        omega
      _ ≤ 2 ^ (estimate + 1) * ratio.denominator := by gcongr
  have below : 2 ^ (estimate - 1) ≤ ratio.worth := by
    rw [Ratio.worth, le_div_iff₀ denominatorPos]
    calc 2 ^ (estimate - 1) * (ratio.denominator : ℚ)
        ≤ 2 ^ (estimate - 1) * 2 ^ (ratio.denominator.log2 + 1 : Int) := by gcongr
      _ = 2 ^ (ratio.numerator.log2 : Int) := by
        rw [← zpow_add₀ (by norm_num)]
        congr 1
        omega
      _ ≤ ratio.numerator := numeratorLow
  have scaledPos : (0 : ℚ) < (ratio.scaleDown estimate).denominator := by
    exact_mod_cast scale_down_denominator positive estimate
  have less : (ratio.scaleDown estimate).numerator < (ratio.scaleDown estimate).denominator ↔
      ratio.worth < 2 ^ estimate := by
    rw [← div_lt_one (by positivity : (0 : ℚ) < 2 ^ estimate), ← scale_down_worth, Ratio.worth,
      div_lt_one scaledPos]
    exact_mod_cast Iff.rfl
  unfold Ratio.binaryExponent
  simp only [estimated]
  split
  · rename_i smaller
    exact ⟨below, by simpa using less.mp smaller⟩
  · rename_i larger
    exact ⟨le_of_not_gt fun small => larger (less.mpr small), above⟩

/-- The format has ranks of its own for every significand at the exponent. -/
structure Format.Ample (format : Format) (exponent : Int) : Prop where
  low : format.lowestExponent + format.fractionBits ≤ exponent
  high : exponent - format.lowestExponent + 3 ≤ twoTo format.exponentBits

theorem binary32_ample : Format.binary32.Ample 0 := ⟨by decide, by decide⟩

theorem binary64_ample : Format.binary64.Ample 0 := ⟨by decide, by decide⟩

/-- A rank that is put together from a binade and a significand. Only the lowest binade has
significands without all their bits. -/
theorem Format.magnitude_composed (format : Format) (binade : Nat) {significand : Nat}
    (low : binade = 0 ∨ twoTo format.fractionBits ≤ significand)
    (high : significand < 2 * twoTo format.fractionBits) :
    format.magnitude (binade * twoTo format.fractionBits + significand) =
      ⟨significand, format.lowestExponent + binade⟩ := by
  have positive := two_to_pos format.fractionBits
  unfold magnitude
  generalize twoTo format.fractionBits = size at low high positive ⊢
  rcases Nat.lt_or_ge significand size with subnormal | normal
  · obtain rfl : binade = 0 := by omega
    rw [Nat.zero_mul, Nat.zero_add, Nat.div_eq_of_lt subnormal, Nat.mod_eq_of_lt subnormal]
    simp
  · have arranged : binade * size + significand = size * (binade + 1) + (significand - size) := by
      rw [Nat.mul_succ, Nat.mul_comm]
      omega
    have quotient : (binade * size + significand) / size = binade + 1 := by
      rw [arranged, Nat.mul_add_div positive, Nat.div_eq_of_lt (by omega), Nat.add_zero]
    have remainder : (binade * size + significand) % size = significand - size := by
      rw [arranged, Nat.mul_add_mod, Nat.mod_eq_of_lt (by omega)]
    simp only [quotient, remainder]
    simp [Nat.sub_add_cancel normal]

theorem Format.worth_composed (format : Format) (binade : Nat) {significand : Nat}
    (low : twoTo format.fractionBits ≤ significand)
    (high : significand < 2 * twoTo format.fractionBits) :
    format.worth (binade * twoTo format.fractionBits + significand) =
      significand * 2 ^ (format.lowestExponent + binade) := by
  rw [worth, format.magnitude_composed binade (.inr low) high, Dyadic.worth]

/-- The greatest power of two below a number that a significand and an exponent give. -/
theorem binary_exponent_composed {ratio : Ratio} {significand : Nat} {exponent : Int}
    (present : ratio.numerator ≠ 0) (positive : 0 < ratio.denominator) (nonzero : significand ≠ 0)
    (same : ratio.worth = significand * 2 ^ exponent) :
    ratio.binaryExponent = significand.log2 + exponent := by
  have powerPos : (0 : ℚ) < 2 ^ exponent := by positivity
  obtain ⟨least, greatest⟩ := binary_exponent_bounds present positive
  rw [same] at least greatest
  have low : (2 : ℚ) ^ (significand.log2 + exponent) ≤ significand * 2 ^ exponent := by
    rw [zpow_add₀ (by norm_num)]
    have cast : (2 : ℚ) ^ (significand.log2 : Int) ≤ significand := by
      exact_mod_cast Nat.log2_self_le nonzero
    gcongr
  have high : significand * (2 : ℚ) ^ exponent < 2 ^ (significand.log2 + 1 + exponent) := by
    rw [zpow_add₀ (by norm_num)]
    have cast : (significand : ℚ) < 2 ^ (significand.log2 + 1 : Int) := by
      exact_mod_cast Nat.lt_log2_self
    gcongr
  have first := (zpow_lt_zpow_iff_right₀ (by norm_num : (1 : ℚ) < 2)).mp
    (lt_of_le_of_lt least high)
  have second := (zpow_lt_zpow_iff_right₀ (by norm_num : (1 : ℚ) < 2)).mp
    (lt_of_le_of_lt low greatest)
  omega

/-- A significand has all its bits once it is moved up by the missing ones. -/
theorem aligned_bounds {significand bits shift : Nat} (nonzero : significand ≠ 0)
    (aligned : significand.log2 + shift = bits) :
    twoTo bits ≤ significand * 2 ^ shift ∧ significand * 2 ^ shift < 2 * twoTo bits := by
  constructor
  · calc twoTo bits = 2 ^ significand.log2 * 2 ^ shift := by
          rw [← Nat.pow_add]
          exact congrArg (Nat.pow 2) aligned.symm
      _ ≤ significand * 2 ^ shift := Nat.mul_le_mul_right _ (Nat.log2_self_le nonzero)
  · calc significand * 2 ^ shift < 2 ^ (significand.log2 + 1) * 2 ^ shift :=
          Nat.mul_lt_mul_of_pos_right Nat.lt_log2_self (Nat.two_pow_pos _)
      _ = 2 * twoTo bits := by
        rw [← Nat.pow_add, Nat.mul_comm 2]
        exact congrArg (Nat.pow 2) (by omega : significand.log2 + 1 + shift = bits + 1)

/-- Rounding of a positive quotient: the chosen exponent is that of a binade, in which the quotient is
rounded to a whole significand. -/
theorem nearest_placed (format : Format) {ratio : Ratio} (present : ratio.numerator ≠ 0)
    {exponent : Int}
    (chosen : max format.lowestExponent (ratio.binaryExponent - format.fractionBits) = exponent) :
    ∃ binade : Nat, format.lowestExponent + (binade : Int) = exponent ∧
      format.nearest ratio = min format.infinityRank
        (binade * twoTo format.fractionBits + (ratio.scaleDown exponent).roundEven) := by
  refine ⟨(exponent - format.lowestExponent).toNat, by omega, ?_⟩
  rw [Format.nearest, if_neg present]
  simp only [chosen]

/-- Rounding is exact where a significand at an ample exponent gives the number. -/
theorem nearest_exact {format : Format} {exponent : Int} (ample : format.Ample exponent)
    {ratio : Ratio} (significand : Nat) (positive : 0 < ratio.denominator)
    (same : ratio.worth = significand * 2 ^ exponent)
    (bounded : significand < 2 * twoTo format.fractionBits) :
    format.nearest ratio < format.infinityRank ∧
      format.worth (format.nearest ratio) = ratio.worth := by
  have size := two_to_pos format.fractionBits
  have enough := ample.low
  have room := ample.high
  by_cases zero : ratio.numerator = 0
  · rw [Format.nearest, if_pos zero, Format.worth, Format.magnitude_zero, Ratio.worth, zero]
    refine ⟨Nat.mul_pos (by omega) size, ?_⟩
    simp [Dyadic.worth]
  have nonzero : significand ≠ 0 := by
    rintro rfl
    have denominatorPos : (0 : ℚ) < ratio.denominator := by exact_mod_cast positive
    rw [Ratio.worth, div_eq_iff (ne_of_gt denominatorPos), Nat.cast_zero, zero_mul, zero_mul]
      at same
    exact zero (by exact_mod_cast same)
  have binary := binary_exponent_composed zero positive nonzero same
  have bits : significand.log2 ≤ format.fractionBits := by
    have small : significand < 2 ^ (format.fractionBits + 1) := by
      rw [Nat.pow_succ, Nat.mul_comm]
      exact bounded
    have := (Nat.log2_lt nonzero).mpr small
    omega
  generalize shifted : format.fractionBits - significand.log2 = shift
  obtain ⟨significandLow, significandHigh⟩ :=
    aligned_bounds nonzero (by omega : significand.log2 + shift = format.fractionBits)
  have moved : significand * (2 : ℚ) ^ exponent =
      (significand * 2 ^ shift : Nat) * 2 ^ (exponent - shift) := by
    rw [zpow_sub₀ (by norm_num), zpow_natCast]
    push_cast
    field_simp
  have chosen : max format.lowestExponent (ratio.binaryExponent - format.fractionBits) =
      exponent - shift := by
    rw [binary]
    omega
  have rounded : (ratio.scaleDown (exponent - shift)).roundEven = significand * 2 ^ shift := by
    refine Ratio.round_even_whole (scale_down_denominator positive _) ?_
    rw [scale_down_worth, same, moved]
    field_simp
  obtain ⟨place, placed, found⟩ := nearest_placed format zero chosen
  rw [rounded] at found
  have finite : place * twoTo format.fractionBits + significand * 2 ^ shift <
      format.infinityRank := by
    calc place * twoTo format.fractionBits + significand * 2 ^ shift
        < (place + 2) * twoTo format.fractionBits := by
          rw [Nat.add_mul]
          omega
      _ ≤ format.infinityRank := Nat.mul_le_mul_right _ (by omega)
  rw [found, Nat.min_eq_right (Nat.le_of_lt finite)]
  refine ⟨finite, ?_⟩
  rw [format.worth_composed _ significandLow significandHigh, placed, same, moved]

variable {format target : Format}

/-- A magnitude with a sign. -/
def signed (negative : Bool) (worth : ℚ) : ℚ :=
  if negative then -worth else worth

theorem abs_signed (negative : Bool) {magnitude : ℚ} (nonnegative : 0 ≤ magnitude) :
    |signed negative magnitude| = magnitude := by
  cases negative with
  | false => exact abs_of_nonneg nonnegative
  | true => exact (abs_neg magnitude).trans (abs_of_nonneg nonnegative)

theorem signed_nat_abs (whole : Int) : signed (whole < 0) (whole.natAbs : ℚ) = whole := by
  rw [Nat.cast_natAbs, Int.cast_abs, signed]
  split
  next below => rw [abs_of_neg (by exact_mod_cast of_decide_eq_true below), neg_neg]
  next above =>
    have nonnegative : 0 ≤ whole := Int.not_lt.mp fun below => above (decide_eq_true below)
    rw [abs_of_nonneg (by exact_mod_cast nonnegative)]

theorem Format.worth_nonneg (format : Format) (rank : Nat) : 0 ≤ format.worth rank := by
  unfold worth Dyadic.worth
  positivity

/-- The number is finite and this. -/
def Stands (number : Floating format) (worth : ℚ) : Prop :=
  ∃ negative rank, number = .number negative rank ∧ rank.val < format.infinityRank ∧
    signed negative (format.worth rank.val) = worth

theorem of_int_stands (ample : format.Ample 0) {whole : Int}
    (bounded : whole.natAbs < 2 * twoTo format.fractionBits) :
    (ofInt whole : Floating format).Stands whole := by
  unfold ofInt ofScaled
  split
  · rename_i zero
    have := ample.low
    have := ample.high
    refine ⟨false, _, rfl, Nat.mul_pos (by omega) (two_to_pos _), ?_⟩
    simp [signed, Format.worth, Format.magnitude_zero, Dyadic.worth, zero]
  · obtain ⟨finite, exact⟩ := nearest_exact ample whole.natAbs
      (dyadic_ratio_denominator ⟨whole.natAbs, 0⟩) (dyadic_ratio_worth ⟨whole.natAbs, 0⟩) bounded
    refine ⟨_, _, rfl, finite, ?_⟩
    rw [exact, dyadic_ratio_worth, Dyadic.worth, zpow_zero, mul_one]
    exact signed_nat_abs whole

theorem view_infinite (negative : Bool) {rank : Fin (format.infinityRank + 1)}
    (top : rank.val = format.infinityRank) : (number negative rank).view = .infinite negative :=
  if_pos top

theorem view_finite (negative : Bool) {rank : Fin (format.infinityRank + 1)}
    (finite : rank.val < format.infinityRank) :
    (number negative rank).view = .finite ⟨negative, format.magnitude rank.val⟩ :=
  if_neg (Nat.ne_of_lt finite)

/-- Rounding to a format that has the number does not change it. -/
theorem convert_stands {exponent : Int} (ample : target.Ample exponent)
    {number : Floating format} {worth : ℚ} (significand : Nat) (stands : number.Stands worth)
    (magnitude : |worth| = significand * 2 ^ exponent)
    (bounded : significand < 2 * twoTo target.fractionBits) :
    (number.convert : Floating target).Stands worth := by
  obtain ⟨negative, rank, rfl, finite, same⟩ := stands
  have unsigned : (format.magnitude rank.val).ratio.worth = |worth| := by
    rw [dyadic_ratio_worth, ← same]
    exact (abs_signed negative (format.worth_nonneg _)).symm
  rw [convert, view_finite negative finite]
  obtain ⟨fits, exact⟩ := nearest_exact ample significand (dyadic_ratio_denominator _)
    (unsigned.trans magnitude) bounded
  refine ⟨negative, _, rfl, fits, ?_⟩
  refine (congrArg (signed negative) exact).trans ?_
  rw [dyadic_ratio_worth]
  exact same

/-- Finite numbers are at one place exactly when they are the same. -/
theorem stands_position_iff {first second : Floating format} {left right : ℚ}
    (ofFirst : first.Stands left) (ofSecond : second.Stands right) :
    first.position = second.position ↔ left = right := by
  obtain ⟨negative, rank, rfl, -, worth⟩ := ofFirst
  obtain ⟨negative', rank', rfl, -, worth'⟩ := ofSecond
  have zero : format.worth 0 = 0 := by simp [Format.worth, Format.magnitude_zero, Dyadic.worth]
  have ordered := format.worth_strict_mono
  have least : ∀ rank, 0 ≤ format.worth rank := fun rank =>
    zero ▸ ordered.monotone (Nat.zero_le rank)
  have nothing : ∀ rank, format.worth rank = 0 → rank = 0 := fun rank none =>
    ordered.injective (none.trans zero.symm)
  rw [← worth, ← worth']
  unfold position signed
  cases negative <;> cases negative' <;> simp only [Bool.false_eq_true, if_true, if_false]
  · rw [Int.ofNat_inj, ordered.injective.eq_iff]
  · constructor
    · intro same
      have none : rank.val = 0 ∧ rank'.val = 0 := by omega
      rw [none.1, none.2, zero, neg_zero]
    · intro same
      have first := nothing rank.val (by linarith [least rank.val, least rank'.val])
      have second := nothing rank'.val (by linarith [least rank.val, least rank'.val])
      omega
  · constructor
    · intro same
      have none : rank.val = 0 ∧ rank'.val = 0 := by omega
      rw [none.1, none.2, zero, neg_zero]
    · intro same
      have first := nothing rank.val (by linarith [least rank.val, least rank'.val])
      have second := nothing rank'.val (by linarith [least rank.val, least rank'.val])
      omega
  · rw [neg_inj, neg_inj, Int.ofNat_inj, ordered.injective.eq_iff]

theorem convert_is_nan (source : Floating format) :
    (source.convert : Floating target).isNaN = source.isNaN := by
  cases source with
  | nan negative => rfl
  | number negative rank =>
      unfold convert
      rcases Nat.eq_or_lt_of_le (Nat.le_of_lt_succ rank.isLt) with top | finite
      · rw [view_infinite negative top]
        rfl
      · rw [view_finite negative finite]
        rfl

theorem single_magnitude {rank : Nat} (finite : rank < Format.binary32.infinityRank) :
    (Format.binary32.magnitude rank).significand < 2 * twoTo 23 ∧
      Format.binary64.Ample (Format.binary32.magnitude rank).exponent := by
  have size : twoTo Format.binary32.fractionBits = 8388608 := by decide
  have top : Format.binary32.infinityRank = 255 * 8388608 := by decide
  have lowest : Format.binary32.lowestExponent = -149 := by decide
  have wide : Format.binary64.lowestExponent = -1074 := by decide
  have exponents : twoTo Format.binary64.exponentBits = 2048 := by decide
  have fraction : Format.binary64.fractionBits = 52 := rfl
  have significands : twoTo 23 = 8388608 := by decide
  rw [top] at finite
  rw [significands]
  unfold Format.magnitude
  simp only [size, lowest]
  split
  · refine ⟨by simp only; omega, ?_, ?_⟩ <;> rw [wide] <;> simp only [exponents, fraction] <;> omega
  · refine ⟨by simp only; omega, ?_, ?_⟩ <;> rw [wide] <;> simp only [exponents, fraction] <;> omega

/-- Widening is exact. -/
theorem widen_stands {number : Floating .binary32} {worth : ℚ} (stands : number.Stands worth) :
    (number.convert : Floating .binary64).Stands worth := by
  obtain ⟨negative, rank, rfl, finite, same⟩ := id stands
  obtain ⟨bounded, ample⟩ := single_magnitude finite
  refine convert_stands ample (Format.binary32.magnitude rank).significand stands ?_
    (bounded.trans_le (Nat.mul_le_mul_left 2 (Nat.pow_le_pow_right (by decide) (by decide))))
  have nonnegative : 0 ≤ Format.binary32.worth rank.val := by
    unfold Format.worth Dyadic.worth
    positivity
  rw [← same]
  cases negative with
  | false => exact abs_of_nonneg nonnegative
  | true => exact (abs_neg _).trans (abs_of_nonneg nonnegative)

/-- Numbers that widening brings to one place were at one place. -/
theorem widen_position {first second : Floating .binary32} (number : first.isNaN = false)
    (number' : second.isNaN = false)
    (same : (first.convert : Floating .binary64).position =
      (second.convert : Floating .binary64).position) : first.position = second.position := by
  have top : ∀ negative, ∀ rank : Fin (Format.binary32.infinityRank + 1),
      rank.val = Format.binary32.infinityRank →
        ((Floating.number negative rank).convert : Floating .binary64).position =
          if negative then -(Format.binary64.infinityRank : Int)
          else Format.binary64.infinityRank := by
    intro negative rank top
    rw [convert, view_infinite negative top]
    rfl
  have inside : ∀ {number : Floating .binary64} {worth}, number.Stands worth →
      -(Format.binary64.infinityRank : Int) < number.position ∧
        number.position < Format.binary64.infinityRank := by
    rintro _ _ ⟨negative, rank, rfl, finite, -⟩
    cases negative <;> simp only [position, Bool.false_eq_true, if_false, if_true] <;> omega
  cases first with
  | nan negative => cases number
  | number negative rank =>
      cases second with
      | nan negative' => cases number'
      | number negative' rank' =>
          rcases Nat.eq_or_lt_of_le (Nat.le_of_lt_succ rank.isLt) with infinite | finite <;>
            rcases Nat.eq_or_lt_of_le (Nat.le_of_lt_succ rank'.isLt) with infinite' | finite'
          · rw [top negative rank infinite, top negative' rank' infinite'] at same
            have signs : negative = negative' := by
              cases negative <;> cases negative' <;> first | rfl | cases same
            simp only [position, infinite, infinite', signs]
          · have bounds := inside (widen_stands ⟨negative', rank', rfl, finite', rfl⟩)
            rw [top negative rank infinite] at same
            split at same <;> omega
          · have bounds := inside (widen_stands ⟨negative, rank, rfl, finite, rfl⟩)
            rw [top negative' rank' infinite'] at same
            split at same <;> omega
          · have stands : (Floating.number negative rank).Stands _ := ⟨_, _, rfl, finite, rfl⟩
            have stands' : (Floating.number negative' rank').Stands _ := ⟨_, _, rfl, finite', rfl⟩
            rw [stands_position_iff stands stands']
            exact (stands_position_iff (widen_stands stands) (widen_stands stands')).mp same

end QueryExec.Floating
