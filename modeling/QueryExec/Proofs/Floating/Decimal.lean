import QueryExec.Floating.Shortest
import QueryExec.Proofs.Floating.Magnitude

/-!
The shortest decimal of a magnitude lies in the rounding interval of the magnitude, and the
intervals of different ranks do not meet. A decimal is therefore the shortest one of one rank at
most.
-/

namespace QueryExec.Floating

/-- The number that a decimal is. -/
def Decimal.worth (decimal : Decimal) : ℚ :=
  decimal.units * 10 ^ decimal.exponent

namespace Interval

/-- The interval has the number. -/
def Holds (interval : Interval) (number : ℚ) : Prop :=
  if interval.closed then
    interval.lower ≤ number * interval.denominator ∧
      number * interval.denominator ≤ interval.upper
  else
    interval.lower < number * interval.denominator ∧
      number * interval.denominator < interval.upper

theorem ten_to_pos (exponent : Nat) : 0 < tenTo exponent :=
  Nat.pow_pos (by decide)

/-- A point of the grid that the interval reaches lies in the interval. -/
theorem holds_of_reaches {interval : Interval} {exponent : Int} {units : Nat}
    (reached : (interval.inUnits exponent).reaches units = true) :
    interval.Holds (Decimal.worth ⟨units, exponent⟩) := by
  have quotient := power_quotient 10 (by norm_num) exponent
  have factorPos : (0 : ℚ) < 10 ^ (-exponent).toNat := by positivity
  have scaled : (units * (interval.denominator * tenTo exponent.toNat : Nat) : ℚ) =
      Decimal.worth ⟨units, exponent⟩ * interval.denominator * 10 ^ (-exponent).toNat := by
    rw [Decimal.worth, ← quotient]
    push_cast [ten_to_cast]
    field_simp
  have least : ∀ bound : Nat, ((bound * tenTo (-exponent).toNat : Nat) : ℚ) =
      bound * 10 ^ (-exponent).toNat := by
    intro bound
    push_cast [ten_to_cast]
    rfl
  unfold reaches inUnits at reached
  unfold Holds
  cases closed : interval.closed with
  | true =>
      simp only [closed, if_true, Bool.and_eq_true, decide_eq_true_eq] at reached ⊢
      obtain ⟨low, high⟩ := reached
      have lower : ((interval.lower * tenTo (-exponent).toNat : Nat) : ℚ) ≤
          units * (interval.denominator * tenTo exponent.toNat : Nat) := by exact_mod_cast low
      have upper : (units * (interval.denominator * tenTo exponent.toNat : Nat) : ℚ) ≤
          ((interval.upper * tenTo (-exponent).toNat : Nat) : ℚ) := by exact_mod_cast high
      rw [least, scaled] at lower upper
      exact ⟨le_of_mul_le_mul_right lower factorPos, le_of_mul_le_mul_right upper factorPos⟩
  | false =>
      simp only [closed, if_false, Bool.false_eq_true, Bool.and_eq_true, decide_eq_true_eq]
        at reached ⊢
      obtain ⟨low, high⟩ := reached
      have lower : ((interval.lower * tenTo (-exponent).toNat : Nat) : ℚ) <
          units * (interval.denominator * tenTo exponent.toNat : Nat) := by exact_mod_cast low
      have upper : (units * (interval.denominator * tenTo exponent.toNat : Nat) : ℚ) <
          ((interval.upper * tenTo (-exponent).toNat : Nat) : ℚ) := by exact_mod_cast high
      rw [least, scaled] at lower upper
      exact ⟨lt_of_mul_lt_mul_right lower factorPos.le,
        lt_of_mul_lt_mul_right upper factorPos.le⟩

theorem reaches_nearest {interval : Interval} {units : Nat}
    (nearest : interval.nearestWhole? = some units) : interval.reaches units = true := by
  unfold nearestWhole? at nearest
  cases low : interval.reaches (interval.middle / interval.denominator) <;>
    cases high : interval.reaches (interval.middle / interval.denominator + 1) <;>
      simp only [low, high] at nearest
  · cases nearest
  · cases nearest
    exact high
  · cases nearest
    exact low
  · split at nearest <;> cases nearest <;> assumption

/-- The search ends in the interval if one of the grids that it tries has a point there. -/
theorem search_holds {interval : Interval} (fuel : Nat) (start : Int)
    (found : ∃ finer < fuel, (interval.inUnits (start - finer)).nearestWhole? ≠ none) :
    interval.Holds (interval.search fuel start).worth := by
  induction fuel generalizing start with
  | zero =>
      obtain ⟨finer, impossible, -⟩ := found
      exact absurd impossible (Nat.not_lt_zero _)
  | succ fuel later =>
      unfold search
      split
      · rename_i units nearest
        exact holds_of_reaches (reaches_nearest nearest)
      · rename_i missed
        obtain ⟨finer, bounded, present⟩ := found
        cases finer with
        | zero =>
            rw [Nat.cast_zero, Int.sub_zero] at present
            exact absurd missed present
        | succ finer =>
            refine later (start - 1) ⟨finer, by omega, ?_⟩
            have same : start - 1 - (finer : Int) = start - ((finer + 1 : Nat) : Int) := by omega
            rw [same]
            exact present

/-- A grid that has the middle itself has a point in the interval. -/
theorem nearest_of_middle {interval : Interval} (below : interval.lower < interval.middle)
    (above : interval.middle < interval.upper)
    (whole : interval.denominator ∣ interval.middle) : interval.nearestWhole? ≠ none := by
  have exact : interval.middle / interval.denominator * interval.denominator = interval.middle :=
    Nat.div_mul_cancel whole
  have reached : interval.reaches (interval.middle / interval.denominator) = true := by
    unfold reaches
    simp only [exact]
    split <;> simp <;> omega
  unfold nearestWhole?
  simp only [reached]
  cases interval.reaches (interval.middle / interval.denominator + 1) <;> simp

end Interval

/-- The magnitude lies on the last grid that is tried. -/
theorem middle_on_finest (format : Format) (magnitude : Dyadic) :
    let finest := (Interval.around format magnitude).inUnits (min 0 magnitude.exponent)
    finest.denominator ∣ finest.middle := by
  obtain ⟨significand, exponent⟩ := magnitude
  simp only [Interval.around, Interval.inUnits]
  have coarse : (min 0 exponent).toNat = 0 := by omega
  rw [coarse]
  change twoTo (-(exponent - 2)).toNat * 1 ∣ _
  rw [Nat.mul_one]
  by_cases negative : exponent < 0
  · have places : (-(min 0 exponent)).toNat = (-exponent).toNat := by omega
    have denominator : twoTo (-(exponent - 2)).toNat = 4 * twoTo (-exponent).toNat := by
      have more : (-(exponent - 2)).toNat = 2 + (-exponent).toNat := by omega
      rw [more]
      exact Nat.pow_add 2 2 _
    have tens : tenTo (-exponent).toNat = twoTo (-exponent).toNat * 5 ^ (-exponent).toNat :=
      Nat.mul_pow 2 5 _
    rw [places, denominator, tens]
    exact ⟨significand * twoTo (exponent - 2).toNat * 5 ^ (-exponent).toNat, by ring⟩
  · have divides : twoTo (-(exponent - 2)).toNat ∣ 4 :=
      Nat.pow_dvd_pow 2 (by omega : (-(exponent - 2)).toNat ≤ 2)
    exact Dvd.dvd.mul_right (Dvd.dvd.mul_right (Dvd.dvd.mul_right divides _) _) _

theorem shortest_holds (format : Format) {magnitude : Dyadic}
    (positive : 0 < magnitude.significand) :
    (Interval.around format magnitude).Holds (shortest format magnitude).worth := by
  unfold shortest
  have enough : min 0 magnitude.exponent ≤ magnitude.decimalBound := by
    unfold Dyadic.decimalBound
    omega
  refine Interval.search_holds _ _
    ⟨(magnitude.decimalBound - min 0 magnitude.exponent).toNat, Nat.lt_succ_self _, ?_⟩
  have last : magnitude.decimalBound -
      ((magnitude.decimalBound - min 0 magnitude.exponent).toNat : Int) =
        min 0 magnitude.exponent := by
    omega
  rw [last]
  have factor := Nat.mul_pos (two_to_pos (magnitude.exponent - 2).toNat)
    (Interval.ten_to_pos (-(min 0 magnitude.exponent)).toNat)
  refine Interval.nearest_of_middle ?_ ?_ (middle_on_finest format magnitude)
  · simp only [Interval.around, Interval.inUnits]
    rw [Nat.mul_assoc, Nat.mul_assoc (4 * magnitude.significand)]
    refine Nat.mul_lt_mul_of_pos_right ?_ factor
    split <;> omega
  · simp only [Interval.around, Interval.inUnits]
    rw [Nat.mul_assoc, Nat.mul_assoc (4 * magnitude.significand + 2)]
    exact Nat.mul_lt_mul_of_pos_right (by omega) factor

/-- Half a unit above a rank is no more than half a unit below the next one, or a quarter where
the next one is the first of its binade. -/
theorem half_above_le (format : Format) (rank : Nat) :
    format.worth rank + format.unit rank / 2 ≤ format.worth (rank + 1) -
      (if (format.magnitude (rank + 1)).significand = twoTo format.fractionBits then 1 else 2 : Nat)
        / 4 * format.unit (rank + 1) := by
  have unitPos := format.unit_pos rank
  rw [format.worth_succ]
  rcases format.magnitude_succ rank with next | ⟨-, next⟩
  · have same : format.unit (rank + 1) = format.unit rank := by simp only [Format.unit, next]
    rw [same]
    split <;> push_cast <;> linarith
  · have double : format.unit (rank + 1) = format.unit rank * 2 := by
      simp only [Format.unit, next]
      exact zpow_add_one₀ (by norm_num) _
    rw [double, if_pos (by rw [next])]
    push_cast
    linarith

/-- The ends of an interval are counted in quarters of a unit, over a power of two. -/
theorem quarters_worth (exponent : Int) (quarters : Nat) :
    ((quarters * twoTo (exponent - 2).toNat : Nat) : ℚ) =
      quarters / 4 * 2 ^ exponent * (twoTo (-(exponent - 2)).toNat : ℚ) := by
  have quotient := power_quotient 2 (by norm_num) (exponent - 2)
  have denominatorPos : (0 : ℚ) < 2 ^ (-(exponent - 2)).toNat := by positivity
  have quarter : (2 : ℚ) ^ (exponent - 2) = 2 ^ exponent / 4 := by
    rw [zpow_sub₀ (by norm_num)]
    norm_num
  rw [quarter, div_eq_iff (ne_of_gt denominatorPos)] at quotient
  push_cast [two_to_cast]
  rw [quotient]
  ring

/-- An interval reaches half a unit up, and down no further than half a unit of the rank
before. The ends belong to it only where the significand is even. -/
theorem around_between (format : Format) {rank : Nat} {number : ℚ}
    (holds : (Interval.around format (format.magnitude (rank + 1))).Holds number) :
    if (format.magnitude (rank + 1)).significand % 2 = 0 then
      format.worth rank + format.unit rank / 2 ≤ number ∧
        number ≤ format.worth (rank + 1) + format.unit (rank + 1) / 2
    else
      format.worth rank + format.unit rank / 2 < number ∧
        number < format.worth (rank + 1) + format.unit (rank + 1) / 2 := by
  have positive := format.significand_pos (Nat.succ_pos rank)
  have lowered := half_above_le format rank
  unfold Interval.Holds Interval.around at holds
  unfold Format.worth Format.unit Dyadic.worth at lowered ⊢
  generalize format.magnitude (rank + 1) = magnitude at holds positive lowered ⊢
  obtain ⟨significand, exponent⟩ := magnitude
  simp only at holds positive lowered ⊢
  have castPos : (0 : ℚ) < (twoTo (-(exponent - 2)).toNat : ℚ) := by
    exact_mod_cast two_to_pos _
  simp only [quarters_worth, decide_eq_true_eq] at holds
  have least : ((4 * significand -
        if significand = twoTo format.fractionBits then 1 else 2 : Nat) : ℚ) =
      4 * significand - (if significand = twoTo format.fractionBits then 1 else 2 : Nat) := by
    rw [Nat.cast_sub (by split <;> omega)]
    push_cast
    rfl
  rw [least] at holds
  split at holds
  · rename_i even
    rw [if_pos even]
    have low := le_of_mul_le_mul_right holds.1 castPos
    have high := le_of_mul_le_mul_right holds.2 castPos
    push_cast at high
    constructor <;> linarith
  · rename_i odd
    rw [if_neg odd]
    have low := lt_of_mul_lt_mul_right holds.1 castPos.le
    have high := lt_of_mul_lt_mul_right holds.2 castPos.le
    push_cast at high
    constructor <;> linarith

/-- The intervals of different ranks do not meet. -/
theorem around_apart (format : Format) {lower upper : Nat} (below : lower < upper) {number : ℚ}
    (ofLower : (Interval.around format (format.magnitude (lower + 1))).Holds number)
    (ofUpper : (Interval.around format (format.magnitude (upper + 1))).Holds number) : False := by
  have first := around_between format ofLower
  have second := around_between format ofUpper
  have high : number ≤ format.worth (lower + 1) + format.unit (lower + 1) / 2 := by
    split at first
    · exact first.2
    · exact first.2.le
  have low : format.worth upper + format.unit upper / 2 ≤ number := by
    split at second
    · exact second.1
    · exact second.1.le
  rcases Nat.eq_or_lt_of_le (Nat.succ_le_of_lt below) with rfl | further
  · -- At the common end of two neighbours one of the significands is odd.
    have parity : (format.magnitude (lower + 1)).significand % 2 ≠ 0 ∨
        (format.magnitude (lower + 1 + 1)).significand % 2 ≠ 0 := by
      rcases format.magnitude_succ (lower + 1) with next | ⟨last, -⟩
      · rw [next]
        change _ ∨ ((format.magnitude (lower + 1)).significand + 1) % 2 ≠ 0
        omega
      · omega
    rcases parity with odd | odd
    · rw [if_neg odd] at first
      exact absurd (lt_of_lt_of_le first.2 low) (lt_irrefl _)
    · rw [if_neg odd] at second
      exact absurd (lt_of_le_of_lt high second.1) (lt_irrefl _)
  · have ordered : format.worth (lower + 1 + 1) ≤ format.worth upper :=
      format.worth_strict_mono.monotone further
    rw [format.worth_succ (lower + 1)] at ordered
    have unitPos := format.unit_pos (lower + 1)
    have unitPos' := format.unit_pos upper
    linarith

theorem rank_of_decimal (format : Format) {first second : Nat} (positive : 0 < first)
    (positive' : 0 < second)
    (same : (shortest format (format.magnitude first)).worth =
      (shortest format (format.magnitude second)).worth) : first = second := by
  obtain ⟨first, rfl⟩ := Nat.exists_eq_succ_of_ne_zero (Nat.ne_of_gt positive)
  obtain ⟨second, rfl⟩ := Nat.exists_eq_succ_of_ne_zero (Nat.ne_of_gt positive')
  have ofFirst := shortest_holds format (format.significand_pos positive)
  have ofSecond := shortest_holds format (format.significand_pos positive')
  rcases Nat.lt_trichotomy first second with below | equal | above
  · rw [same] at ofFirst
    exact (around_apart format below ofFirst ofSecond).elim
  · rw [equal]
  · rw [← same] at ofSecond
    exact (around_apart format above ofSecond ofFirst).elim

theorem shortest_positive (format : Format) {rank : Nat} (positive : 0 < rank) :
    0 < (shortest format (format.magnitude rank)).worth := by
  obtain ⟨rank, rfl⟩ := Nat.exists_eq_succ_of_ne_zero (Nat.ne_of_gt positive)
  have between := around_between format (shortest_holds format (format.significand_pos positive))
  have unitPos := format.unit_pos rank
  have nonnegative : 0 ≤ format.worth rank := by
    unfold Format.worth Dyadic.worth
    positivity
  split at between <;> linarith [between.1]

end QueryExec.Floating
