import QueryExec.Proofs.Floating.Magnitude

/-!
Rounding to a format. A magnitude is rounded past a rank exactly when it lies beyond the middle
between the rank and the next one, or in the middle where the significand of the rank is odd. What
rounds to infinity is therefore known by one bound.
-/

namespace QueryExec.Floating

/-- A quotient rounds past a whole number from half a unit above it on, where half a unit suffices
for an odd number only. -/
theorem Ratio.lt_round_even_iff {ratio : Ratio} (positive : 0 < ratio.denominator) (whole : Nat) :
    whole < ratio.roundEven ↔
      (whole : ℚ) + 1 / 2 < ratio.worth ∨ (whole : ℚ) + 1 / 2 = ratio.worth ∧ whole % 2 = 1 := by
  obtain ⟨numerator, denominator⟩ := ratio
  dsimp only at positive
  have denominatorPos : (0 : ℚ) < denominator := by exact_mod_cast positive
  have less : (whole : ℚ) + 1 / 2 < numerator / denominator ↔
      2 * (whole * denominator) + denominator < 2 * numerator := by
    rw [lt_div_iff₀ denominatorPos, ← @Nat.cast_lt ℚ]
    push_cast
    constructor <;> intro <;> linarith
  have equal : (whole : ℚ) + 1 / 2 = numerator / denominator ↔
      2 * (whole * denominator) + denominator = 2 * numerator := by
    rw [eq_div_iff (ne_of_gt denominatorPos), ← @Nat.cast_inj ℚ]
    push_cast
    constructor <;> intro <;> linarith
  rw [Ratio.worth, less, equal]
  have split := Nat.div_add_mod numerator denominator
  have smaller := Nat.mod_lt numerator positive
  unfold roundEven
  dsimp only
  generalize numerator / denominator = quotient at split ⊢
  generalize numerator % denominator = remainder at split smaller ⊢
  rw [Nat.mul_comm] at split
  rcases Nat.lt_trichotomy whole quotient with below | same | above
  · have step := Nat.mul_le_mul_right denominator below
    rw [Nat.succ_mul] at step
    refine iff_of_true ?_ (.inl (by omega))
    split_ifs <;> omega
  · subst same
    split_ifs <;> omega
  · have step := Nat.mul_le_mul_right denominator above
    rw [Nat.succ_mul] at step
    refine iff_of_false ?_ ?_
    · split_ifs <;> omega
    · omega

namespace Format

variable (format : Format)

/-- The number halfway between a rank and the next one. -/
def midpoint (rank : Nat) : ℚ :=
  format.worth rank + format.unit rank / 2

/-- The magnitude is nearer to the next rank than to this one, or as near and this one is odd. -/
def Passes (rank : Nat) (magnitude : ℚ) : Prop :=
  format.midpoint rank < magnitude ∨
    format.midpoint rank = magnitude ∧ (format.magnitude rank).significand % 2 = 1

/-- The rank is the one to which the magnitude is rounded: it is above the ranks that the magnitude
passes. -/
def Rounds (magnitude : ℚ) (rank : Nat) : Prop :=
  ∀ below, below < rank ↔ below < format.infinityRank ∧ format.Passes below magnitude

variable {format} {rank other : Nat} {magnitude : ℚ}

theorem midpoint_of_magnitude {significand exponent : Nat}
    (same : format.magnitude rank = ⟨significand, exponent + 1⟩) :
    format.midpoint rank = (2 * significand + 1) * 2 ^ exponent := by
  rw [midpoint, worth, unit, same, Dyadic.worth, zpow_add_one₀ (by norm_num), zpow_natCast]
  ring

theorem worth_lt_midpoint : format.worth rank < format.midpoint rank :=
  lt_add_of_pos_right _ (half_pos (format.unit_pos rank))

theorem midpoint_lt_worth : format.midpoint rank < format.worth (rank + 1) := by
  have unitPos := format.unit_pos rank
  rw [midpoint, format.worth_succ]
  linarith

theorem Passes.midpoint_le (passes : format.Passes rank magnitude) :
    format.midpoint rank ≤ magnitude :=
  passes.elim le_of_lt fun tie => tie.1.le

/-- What reaches a higher rank passes this one. -/
theorem passes_of_worth_le (below : rank < other) (reaches : format.worth other ≤ magnitude) :
    format.Passes rank magnitude :=
  .inl (midpoint_lt_worth.trans_le ((format.worth_strict_mono.monotone below).trans reaches))

/-- What does not exceed a rank does not pass it or a higher one. -/
theorem not_passes_of_le_worth (above : other ≤ rank) (bounded : magnitude ≤ format.worth other) :
    ¬format.Passes rank magnitude := fun passes =>
  absurd (bounded.trans (format.worth_strict_mono.monotone above))
    (not_le.mpr (worth_lt_midpoint.trans_le passes.midpoint_le))

/-- The middle above a rank that is put together from a binade and a significand. -/
theorem passes_composed (binade : Nat) {significand : Nat}
    (low : binade = 0 ∨ twoTo format.fractionBits ≤ significand)
    (high : significand < 2 * twoTo format.fractionBits) :
    format.Passes (binade * twoTo format.fractionBits + significand) magnitude ↔
      (significand + 1 / 2) * 2 ^ (format.lowestExponent + binade) < magnitude ∨
        (significand + 1 / 2) * 2 ^ (format.lowestExponent + binade) = magnitude ∧
          significand % 2 = 1 := by
  have middle : format.midpoint (binade * twoTo format.fractionBits + significand) =
      (significand + 1 / 2) * 2 ^ (format.lowestExponent + binade) := by
    rw [midpoint, worth, unit, format.magnitude_composed binade low high, Dyadic.worth]
    ring
  rw [Passes, middle, format.magnitude_composed binade low high]

/-- A magnitude that a finite rank has is rounded to it. -/
theorem rounds_worth (finite : rank < format.infinityRank) :
    format.Rounds (format.worth rank) rank := by
  intro below
  constructor
  · intro less
    exact ⟨less.trans finite, passes_of_worth_le less le_rfl⟩
  · rintro ⟨-, passes⟩
    by_contra above
    exact not_passes_of_le_worth (Nat.le_of_not_lt above) le_rfl passes

/-- What passes the greatest finite rank, and with it every other, is rounded to infinity. -/
theorem rounds_infinity (beyond : format.worth format.infinityRank ≤ magnitude) :
    format.Rounds magnitude format.infinityRank := fun _ =>
  ⟨fun less => ⟨less, passes_of_worth_le less beyond⟩, And.left⟩

/-- What is below half the least magnitude is rounded to zero. -/
theorem rounds_zero (less : magnitude < format.midpoint 0) : format.Rounds magnitude 0 := by
  intro below
  refine iff_of_false (Nat.not_lt_zero below) ?_
  rintro ⟨-, passes⟩
  have ordered := format.worth_strict_mono.monotone (Nat.zero_le below)
  have unitLe : format.midpoint 0 ≤ format.midpoint below := by
    rcases Nat.eq_zero_or_pos below with rfl | positive
    · exact le_rfl
    · exact (midpoint_lt_worth.trans_le (format.worth_strict_mono.monotone positive)).le.trans
        worth_lt_midpoint.le
  exact absurd (unitLe.trans passes.midpoint_le) (not_le.mpr less)

/-- Past a rank with an odd significand the middle itself belongs to the next rank. -/
theorem Rounds.lt_iff {below : Nat} (rounds : format.Rounds magnitude rank)
    (finite : below < format.infinityRank) (odd : (format.magnitude below).significand % 2 = 1) :
    below < rank ↔ format.midpoint below ≤ magnitude := by
  rw [rounds below, and_iff_right finite, Passes, and_iff_left odd, ← le_iff_lt_or_eq]

end Format

open Format

variable {format : Format}

/-- Where a positive quotient lies in its binade: below twice the least normal significand, and, if
the binade is not the lowest, not below that one. -/
theorem binade_bounds {ratio : Ratio} (present : ratio.numerator ≠ 0)
    (positive : 0 < ratio.denominator) {binade : Nat} {exponent : Int}
    (chosen : max format.lowestExponent (ratio.binaryExponent - format.fractionBits) = exponent)
    (placed : format.lowestExponent + (binade : Int) = exponent) :
    (binade ≠ 0 → twoTo format.fractionBits * 2 ^ exponent ≤ ratio.worth) ∧
      ratio.worth < 2 * twoTo format.fractionBits * 2 ^ exponent := by
  obtain ⟨least, greatest⟩ := binary_exponent_bounds present positive
  have size : (twoTo format.fractionBits : ℚ) * 2 ^ exponent =
      2 ^ (format.fractionBits + exponent) := by
    rw [two_to_cast, ← zpow_natCast, ← zpow_add₀ (by norm_num)]
  constructor
  · intro raised
    rw [size]
    exact (zpow_le_zpow_right₀ (by norm_num) (by omega)).trans least
  · rw [mul_assoc, size, ← zpow_one_add₀ (by norm_num)]
    exact greatest.trans_le (zpow_le_zpow_right₀ (by norm_num) (by omega))

/-- In a binade the significands that are passed decide on every rank: the ranks below the binade are
passed, those above it are not. -/
theorem composed_lt_iff {binade significand : Nat} {magnitude : ℚ}
    (low : binade ≠ 0 →
      twoTo format.fractionBits * 2 ^ (format.lowestExponent + binade) ≤ magnitude)
    (high : magnitude < 2 * twoTo format.fractionBits * 2 ^ (format.lowestExponent + binade))
    (rounded : ∀ whole, whole < significand ↔
      ((whole : ℚ) + 1 / 2) * 2 ^ (format.lowestExponent + binade) < magnitude ∨
        ((whole : ℚ) + 1 / 2) * 2 ^ (format.lowestExponent + binade) = magnitude ∧ whole % 2 = 1)
    (below : Nat) :
    below < binade * twoTo format.fractionBits + significand ↔ format.Passes below magnitude := by
  have unitPos : (0 : ℚ) < 2 ^ (format.lowestExponent + binade) := by positivity
  have sizePos := two_to_pos format.fractionBits
  by_cases lower : binade ≠ 0 ∧ below < binade * twoTo format.fractionBits + twoTo format.fractionBits
  · -- Below the binade: the magnitude reaches its first rank.
    obtain ⟨raised, less⟩ := lower
    have reaches := low raised
    have first := format.worth_composed binade le_rfl (by omega)
    have enough : twoTo format.fractionBits - 1 < significand := by
      refine (rounded _).mpr (.inl (lt_of_lt_of_le ?_ reaches))
      rw [Nat.cast_sub sizePos]
      push_cast
      linarith
    exact iff_of_true (by omega) (passes_of_worth_le less (first.trans_le reaches))
  by_cases upper : (binade + 1) * twoTo format.fractionBits + twoTo format.fractionBits ≤ below
  · -- Above the binade: the magnitude does not reach the first rank of the next one.
    have next : format.worth ((binade + 1) * twoTo format.fractionBits + twoTo format.fractionBits) =
        2 * twoTo format.fractionBits * 2 ^ (format.lowestExponent + binade) := by
      rw [format.worth_composed (binade + 1) le_rfl (by omega), Nat.cast_succ, ← add_assoc,
        zpow_add_one₀ (by norm_num)]
      ring
    have bounded : ¬2 * twoTo format.fractionBits < significand := by
      rw [rounded]
      push_cast
      rintro (beyond | ⟨tie, -⟩) <;> linarith
    rw [Nat.succ_mul] at upper
    rw [← next] at high
    exact iff_of_false (by omega) (not_passes_of_le_worth (by rwa [Nat.succ_mul]) high.le)
  · rw [Nat.succ_mul] at upper
    obtain ⟨within, rfl⟩ : ∃ within, below = binade * twoTo format.fractionBits + within := by
      refine Nat.exists_eq_add_of_le ?_
      rcases Nat.eq_zero_or_pos binade with rfl | raised
      · omega
      · omega
    have normal : binade = 0 ∨ twoTo format.fractionBits ≤ within := by omega
    rw [passes_composed binade normal (by omega), Nat.add_lt_add_iff_left, rounded]

/-- The nearest rank is the one to which the quotient is rounded. -/
theorem nearest_rounds {ratio : Ratio} (positive : 0 < ratio.denominator) :
    format.Rounds ratio.worth (format.nearest ratio) := by
  by_cases zero : ratio.numerator = 0
  · have none : ratio.worth = format.worth 0 := by
      simp [Ratio.worth, zero, worth, magnitude_zero, Dyadic.worth]
    rw [nearest, if_pos zero, none]
    exact rounds_zero worth_lt_midpoint
  obtain ⟨binade, placed, found⟩ := nearest_placed format zero rfl
  obtain ⟨low, high⟩ := binade_bounds zero positive rfl placed
  rw [← placed] at found low high
  have unitPos : (0 : ℚ) < 2 ^ (format.lowestExponent + binade) := by positivity
  have rounded := Ratio.lt_round_even_iff
    (scale_down_denominator positive (format.lowestExponent + binade))
  simp only [scale_down_worth, lt_div_iff₀ unitPos, eq_div_iff (ne_of_gt unitPos)] at rounded
  intro below
  rw [found, Nat.lt_min, composed_lt_iff low high rounded]

/-- The number is what the exact one is rounded to. -/
def Rounds (number : Floating format) (exact : ℚ) : Prop :=
  ∃ negative rank magnitude, number = .number negative rank ∧ 0 ≤ magnitude ∧
    signed negative magnitude = exact ∧ format.Rounds magnitude rank.val

theorem signed_side (negative : Bool) {magnitude : ℚ} (positive : 0 < magnitude) :
    decide (signed negative magnitude < 0) = negative := by
  cases negative with
  | false => exact decide_eq_false (not_lt.mpr positive.le)
  | true => exact decide_eq_true (neg_lt_zero.mpr positive)

theorem Ratio.worth_nonneg (ratio : Ratio) : 0 ≤ ratio.worth := by
  unfold worth
  positivity

theorem of_ratio_rounds (negative : Bool) {ratio : Ratio} (positive : 0 < ratio.denominator) :
    (ofRatio negative ratio : Floating format).Rounds (signed negative ratio.worth) :=
  ⟨negative, _, _, rfl, ratio.worth_nonneg, rfl, nearest_rounds positive⟩

section Numbers

variable {number : Floating format} {exact : ℚ}

theorem Stands.rounds (stands : number.Stands exact) : number.Rounds exact := by
  obtain ⟨negative, rank, rfl, finite, same⟩ := stands
  exact ⟨negative, rank, _, rfl, format.worth_nonneg _, same, rounds_worth finite⟩

theorem Stands.unique {other : ℚ} (stands : number.Stands exact) (also : number.Stands other) :
    exact = other := by
  obtain ⟨negative, rank, rfl, -, rfl⟩ := stands
  obtain ⟨_, _, ⟨⟩, -, rfl⟩ := also
  rfl

theorem Stands.is_finite (stands : number.Stands exact) : number.isFinite = true := by
  obtain ⟨negative, rank, rfl, finite, -⟩ := stands
  exact bne_iff_ne.mpr (Nat.ne_of_lt finite)

/-- A finite number is some number. -/
theorem stands_of_finite (finite : number.isFinite = true) : ∃ exact, number.Stands exact := by
  cases number with
  | nan negative => cases finite
  | number negative rank =>
      have bounded : rank.val ≠ format.infinityRank := bne_iff_ne.mp finite
      exact ⟨_, negative, rank, rfl, Nat.lt_of_le_of_ne (Nat.le_of_lt_succ rank.isLt) bounded, rfl⟩

/-- The format rounds to infinity what reaches the limit. -/
structure Format.Limit (format : Format) (limit : ℚ) : Prop where
  some : 0 < format.infinityRank
  odd : (format.magnitude (format.infinityRank - 1)).significand % 2 = 1
  middle : format.midpoint (format.infinityRank - 1) = limit

/-- A rounded number is finite below the limit of its format and infinite from there on. -/
theorem Rounds.cases {limit : ℚ} (bounds : format.Limit limit) (rounds : number.Rounds exact) :
    number.isFinite = true ∧ |exact| < limit ∨
      number = infinite (decide (exact < 0)) ∧ limit ≤ |exact| := by
  obtain ⟨negative, rank, magnitude, rfl, nonnegative, rfl, rounded⟩ := rounds
  have least := bounds.some
  have bounded := rank.isLt
  have reaches := rounded.lt_iff (Nat.sub_one_lt_of_lt least) bounds.odd
  rw [bounds.middle] at reaches
  rw [abs_signed negative nonnegative]
  rcases Nat.lt_or_ge (format.infinityRank - 1) rank.val with top | finite
  · right
    have limitPos : 0 < limit := bounds.middle ▸
      (format.worth_nonneg _).trans_lt worth_lt_midpoint
    have same : rank = ⟨format.infinityRank, Nat.lt_succ_self _⟩ := Fin.ext (by simp only; omega)
    refine ⟨?_, reaches.mp top⟩
    rw [same, signed_side negative (limitPos.trans_le (reaches.mp top)), infinite]
  · left
    refine ⟨bne_iff_ne.mpr (by omega), not_le.mp fun far => ?_⟩
    exact absurd (reaches.mpr far) (Nat.not_lt.mpr finite)

end Numbers

theorem binary64_limit : Format.binary64.Limit (2 ^ 1024 - 2 ^ 970) := by
  have last : Format.binary64.magnitude (Format.binary64.infinityRank - 1) =
      ⟨2 ^ 53 - 1, 970 + 1⟩ := by decide
  refine ⟨by decide, congrArg (Dyadic.significand · % 2) last, ?_⟩
  have wide : (2 : ℚ) ^ 1024 = 2 ^ 54 * 2 ^ 970 := pow_add 2 54 970
  rw [@midpoint_of_magnitude _ _ _ 970 last, wide, ← sub_one_mul]
  congr 1
  norm_num

theorem binary32_limit : Format.binary32.Limit (2 ^ 128 - 2 ^ 103) := by
  have last : Format.binary32.magnitude (Format.binary32.infinityRank - 1) =
      ⟨2 ^ 24 - 1, 103 + 1⟩ := by decide
  refine ⟨by decide, congrArg (Dyadic.significand · % 2) last, ?_⟩
  rw [@midpoint_of_magnitude _ _ _ 103 last]
  norm_num

end QueryExec.Floating
