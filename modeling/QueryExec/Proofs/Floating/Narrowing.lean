import QueryExec.Datum
import QueryExec.Proofs.Floating.Arithmetic

/-!
Narrowing. Numbers of either floating-point kind are made in double precision, and one of the
narrower kind is then rounded again. What rounds to infinity is known by one bound for each kind.
-/

namespace QueryExec

namespace Floating

open Format

/-- The doubles that are rounded to infinity when they are narrowed are those to which a magnitude
of some half unit below the limit is rounded already. -/
theorem narrowing_limit {rank : Nat} {magnitude : ℚ}
    (rounds : Format.binary64.Rounds magnitude rank) :
    2 ^ 128 - 2 ^ 103 ≤ Format.binary64.worth rank ↔ 2 ^ 128 - 2 ^ 103 - 2 ^ 74 ≤ magnitude := by
  generalize found : 1149 * 2 ^ 52 + (2 ^ 53 - 2 ^ 28 - 1) = before
  have last : Format.binary64.magnitude before = ⟨2 ^ 53 - 2 ^ 28 - 1, 74 + 1⟩ := by
    rw [← found]
    decide
  have next : Format.binary64.magnitude (before + 1) = ⟨2 ^ 53 - 2 ^ 28, 75⟩ := by
    rw [← found]
    decide
  have bounded : before < Format.binary64.infinityRank := by
    rw [← found]
    decide
  have limit : Format.binary64.worth (before + 1) = 2 ^ 128 - 2 ^ 103 := by
    rw [worth, next, Dyadic.worth]
    norm_num
  have middle : Format.binary64.midpoint before = 2 ^ 128 - 2 ^ 103 - 2 ^ 74 := by
    rw [@midpoint_of_magnitude _ _ _ 74 last]
    norm_num
  rw [← middle, ← limit, Format.binary64.worth_strict_mono.le_iff_le, Nat.succ_le_iff]
  exact rounds.lt_iff bounded (congrArg (Dyadic.significand · % 2) last)

/-- A double that is narrowed was rounded twice, and so the limit lies half a unit of the double
lower. -/
theorem narrow_cases {number : Floating .binary64} {exact : ℚ} (rounds : number.Rounds exact)
    (finite : number.isFinite = true) :
    (number.convert : Floating .binary32).isFinite = true ∧ |exact| < 2 ^ 128 - 2 ^ 103 - 2 ^ 74 ∨
      (number.convert : Floating .binary32) = infinite (decide (exact < 0)) ∧
        2 ^ 128 - 2 ^ 103 - 2 ^ 74 ≤ |exact| := by
  obtain ⟨negative, rank, magnitude, rfl, nonnegative, rfl, rounded⟩ := rounds
  have bounded : rank.val ≠ Format.binary64.infinityRank := bne_iff_ne.mp finite
  have again : ((number negative rank).convert : Floating .binary32).Rounds
      (signed negative (Format.binary64.worth rank.val)) := by
    rw [convert, view_finite negative (Nat.lt_of_le_of_ne (Nat.le_of_lt_succ rank.isLt) bounded)]
    have rounds := @of_ratio_rounds .binary32 negative _
      (dyadic_ratio_denominator (Format.binary64.magnitude rank.val))
    rw [dyadic_ratio_worth] at rounds
    exact rounds
  have shared := narrowing_limit rounded
  rcases again.cases binary32_limit with ⟨ended, near⟩ | ⟨ended, far⟩
  · rw [abs_signed negative (Format.worth_nonneg _ _)] at near
    rw [abs_signed negative nonnegative]
    exact .inl ⟨ended, not_le.mp fun far => absurd (shared.mpr far) (not_le.mpr near)⟩
  · rw [abs_signed negative (Format.worth_nonneg _ _)] at far
    rw [abs_signed negative nonnegative]
    have reaches := shared.mp far
    have limitPos : (0 : ℚ) < 2 ^ 128 - 2 ^ 103 := by norm_num
    have boundPos : (0 : ℚ) < 2 ^ 128 - 2 ^ 103 - 2 ^ 74 := by norm_num
    rw [ended, signed_side negative (limitPos.trans_le far),
      signed_side negative (boundPos.trans_le reaches)]
    exact .inr ⟨rfl, reaches⟩

end Floating

open Floating

/-- The least magnitude that becomes infinite when it is rounded to double precision and from there
to this one. It is half a unit above the greatest double; for the narrower kind the first rounding
moves it down from half a unit above the greatest number by half a unit of the double. -/
def Precision.bound : Precision → ℚ
  | double => 2 ^ 1024 - 2 ^ 970
  | real => 2 ^ 128 - 2 ^ 103 - 2 ^ 74

theorem Precision.power_le_bound {exponent : Nat} (small : exponent ≤ 970) :
    2 ^ exponent ≤ double.bound := by
  have wide : (2 : ℚ) ^ 1024 = 2 ^ 54 * 2 ^ 970 := pow_add 2 54 970
  calc (2 : ℚ) ^ exponent
      ≤ 2 ^ 970 := pow_le_pow_right₀ (by norm_num) small
    _ ≤ (2 ^ 54 - 1) * 2 ^ 970 := le_mul_of_one_le_left (by positivity) (by norm_num)
    _ = 2 ^ 1024 - 2 ^ 970 := by rw [sub_one_mul, wide]

theorem Precision.bound_le (precision : Precision) : precision.bound ≤ double.bound := by
  cases precision with
  | double => exact le_rfl
  | real =>
      have small : real.bound ≤ 2 ^ 128 := by norm_num [bound]
      exact small.trans (power_le_bound (by decide))

theorem infinite_not_finite {format : Format} (negative : Bool) :
    (infinite negative : Floating format).isFinite = false :=
  bne_self_eq_false _

theorem infinite_is_infinite {format : Format} (negative : Bool) :
    (infinite negative : Floating format).isInfinite = true :=
  beq_self_eq_true _

theorem not_infinite_of_finite {format : Format} {number : Floating format}
    (finite : number.isFinite = true) : number.isInfinite = false := by
  cases number with
  | nan negative => rfl
  | number negative rank => exact beq_false_of_ne (bne_iff_ne.mp finite)

theorem infinite_convert {format target : Format} (negative : Bool) :
    ((infinite negative : Floating format).convert : Floating target) = infinite negative := by
  rw [convert, infinite, view_infinite negative rfl]

namespace Datum

/-- A double in the precision. -/
def inPrecision (precision : Precision) (number : Floating .binary64) : Datum :=
  match precision with
  | .real => .real number.convert
  | .double => .double number

variable {number : Floating .binary64} {exact : ℚ} {value : Datum}

/-- What becomes of a rounded number in the precision. -/
theorem in_precision_cases (precision : Precision) (rounds : number.Rounds exact) :
    (∃ result : Floating precision.format, inPrecision precision number = .floating precision result ∧
      result.isFinite = true ∧ |exact| < precision.bound) ∨
    inPrecision precision number = .floating precision (infinite (decide (exact < 0))) ∧
      precision.bound ≤ |exact| := by
  rcases rounds.cases binary64_limit with ⟨finite, near⟩ | ⟨rfl, far⟩
  · cases precision with
    | double => exact .inl ⟨number, rfl, finite, near⟩
    | real =>
        rcases narrow_cases rounds finite with ⟨ended, near⟩ | ⟨ended, far⟩
        · exact .inl ⟨_, rfl, ended, near⟩
        · exact .inr ⟨congrArg Datum.real ended, far⟩
  · refine .inr ⟨?_, precision.bound_le.trans far⟩
    cases precision with
    | double => rfl
    | real => exact congrArg Datum.real (infinite_convert _)

/-- The value is a number, and if it is a floating-point one, a finite one. -/
def isFiniteNumber : Datum → Bool
  | whole _ _ => true
  | floating _ number => number.isFinite
  | _ => false

/-- In double precision the value is this finite number. -/
def InDouble (value : Datum) (exact : ℚ) : Prop :=
  ∃ number, value.double? = some number ∧ number.Stands exact

theorem InDouble.unique {other : ℚ} (standing : value.InDouble exact) (also : value.InDouble other) :
    exact = other := by
  obtain ⟨number, taken, stands⟩ := standing
  obtain ⟨number', taken', stands'⟩ := also
  obtain rfl := Option.some.inj (taken.symm.trans taken')
  exact stands.unique stands'

theorem not_null_of_double (taken : value.double? = some number) : value.isNull = false := by
  cases value <;> first | rfl | cases taken

theorem whole_bounded {width : Width} (number : Whole width) :
    |(number.value : ℚ)| < Precision.double.bound := by
  have low := number.lowest_le
  have high := number.le_highest
  have small : |number.value| ≤ 2 ^ 64 := by
    rw [abs_le]
    cases width <;> simp only [Width.lowest, Width.highest] at low high <;> omega
  calc |(number.value : ℚ)| ≤ 2 ^ 64 := by exact_mod_cast small
    _ < 2 ^ 65 := by norm_num
    _ ≤ Precision.double.bound := Precision.power_le_bound (by decide)

/-- A finite number is one in double precision. -/
theorem in_double_of_finite (finite : value.isFiniteNumber = true) : ∃ exact, value.InDouble exact := by
  cases value with
  | whole width number =>
      have rounds : (ofInt number.value : Floating .binary64).Rounds number.value :=
        of_int_rounds number.value
      rcases rounds.cases binary64_limit with ⟨ended, -⟩ | ⟨-, far⟩
      · obtain ⟨exact, stands⟩ := stands_of_finite ended
        exact ⟨exact, _, rfl, stands⟩
      · exact absurd far (not_le.mpr (whole_bounded number))
  | floating precision number =>
      obtain ⟨exact, stands⟩ := stands_of_finite finite
      cases precision with
      | double => exact ⟨exact, number, rfl, stands⟩
      | real => exact ⟨exact, _, rfl, widen_stands stands⟩
  | _ => cases finite

end Datum

end QueryExec
