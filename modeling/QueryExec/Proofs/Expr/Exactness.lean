import QueryExec.Proofs.Expr.Wholes

/-!
Arithmetic on whole numbers is exact. Results are computed in 128 bits, which the product of two
unsigned numbers can exceed, and then checked against the width of the stronger operand. All the
same, the outcome is the mathematical result wherever that width has it; any other result is refused
and none is wrapped.
-/

namespace QueryExec

open QueryExec.Action

/-- Division toward zero: the remainder is smaller than the divisor and has the sign of the
dividend. -/
structure Truncated (dividend divisor quotient remainder : Int) : Prop where
  whole : divisor * quotient + remainder = dividend
  smaller : remainder.natAbs < divisor.natAbs
  nonneg : 0 ≤ dividend → 0 ≤ remainder
  nonpos : dividend ≤ 0 → remainder ≤ 0

theorem Truncated.divisor_ne {dividend divisor quotient remainder : Int}
    (truncated : Truncated dividend divisor quotient remainder) : divisor ≠ 0 := by
  rintro rfl
  exact absurd truncated.smaller (Nat.not_lt_zero _)

/-- There is one such quotient and remainder, except by zero. -/
theorem truncated_iff {dividend divisor quotient remainder : Int} :
    Truncated dividend divisor quotient remainder ↔
      divisor ≠ 0 ∧ dividend.tdiv divisor = quotient ∧ dividend.tmod divisor = remainder := by
  constructor
  · intro truncated
    have byNumber := truncated.divisor_ne
    have whole := truncated.whole
    have smaller := truncated.smaller
    refine ⟨byNumber, ?_⟩
    rcases Int.le_total 0 dividend with positive | negative
    · have sign := truncated.nonneg positive
      exact (Int.tdiv_tmod_unique positive byNumber).mpr ⟨by omega, sign, by omega⟩
    · have sign := truncated.nonpos negative
      exact (Int.tdiv_tmod_unique' negative byNumber).mpr ⟨by omega, by omega, sign⟩
  · rintro ⟨byNumber, rfl, rfl⟩
    have smaller : (dividend.tmod divisor).natAbs < divisor.natAbs := by
      rw [Int.natAbs_tmod]
      exact Nat.mod_lt _ (Int.natAbs_pos.mpr byNumber)
    refine ⟨Int.mul_tdiv_add_tmod dividend divisor, smaller, Int.tmod_nonneg divisor, ?_⟩
    intro negative
    have mirrored := Int.tmod_nonneg divisor (Int.neg_nonneg_of_nonpos negative)
    rw [Int.neg_tmod] at mirrored
    omega

namespace Arithmetic

/-- The operators that have no result by zero. -/
def divides : Arithmetic → Bool
  | div | mod => true
  | add | sub | mul => false

/-- The mathematical result of an operator. -/
def Gives (op : Arithmetic) (left right result : Int) : Prop :=
  match op with
  | add => result = left + right
  | sub => result = left - right
  | mul => result = left * right
  | div => ∃ remainder, Truncated left right result remainder
  | mod => ∃ quotient, Truncated left right quotient result

variable {op : Arithmetic} {width : Width} {left right result : Int}

theorem gives_div : div.Gives left right result ↔ right ≠ 0 ∧ left.tdiv right = result := by
  unfold Gives
  simp only [truncated_iff, exists_and_left, exists_eq', and_true]

theorem gives_mod : mod.Gives left right result ↔ right ≠ 0 ∧ left.tmod right = result := by
  unfold Gives
  simp only [truncated_iff, exists_and_left, ↓existsAndEq, true_and]

/-- An operator has one result, or none where it divides by zero. -/
theorem Gives.unique {other : Int} (gives : op.Gives left right result)
    (also : op.Gives left right other) : result = other := by
  cases op with
  | add => exact gives.trans also.symm
  | sub => exact gives.trans also.symm
  | mul => exact gives.trans also.symm
  | div => exact (gives_div.mp gives).2.symm.trans (gives_div.mp also).2
  | mod => exact (gives_mod.mp gives).2.symm.trans (gives_mod.mp also).2

theorem Gives.not_by_zero (gives : op.Gives left right result) :
    ¬(op.divides = true ∧ right = 0) := by
  rintro ⟨divides, zero⟩
  cases op with
  | add => cases divides
  | sub => cases divides
  | mul => cases divides
  | div => exact (gives_div.mp gives).1 zero
  | mod => exact (gives_mod.mp gives).1 zero

/-- What exceeds 128 bits exceeds every width, so nothing is refused for the way it is computed. -/
theorem wide_fits (width : Width) (result : Int) :
    (wide? result).bind (Datum.ofWhole? width) = Datum.ofWhole? width result := by
  unfold wide?
  split
  next => rfl
  next beyond =>
    have outside : Whole.ofInt? width result = none := by
      rw [Whole.of_int_none_iff]
      simp only [Conversion.leastNumeral, Conversion.greatestNumeral] at beyond
      cases width <;> simp only [Width.lowest, Width.highest] <;> omega
    simp only [Option.bind_none, Datum.ofWhole?, outside, Option.map_none]

/-- The result is in the width, or it is refused. -/
def Checked (width : Width) (result : Int) (outcome : Except ValueError Datum) : Prop :=
  (∃ number : Whole width, number.value = result ∧ outcome = .ok (.whole width number)) ∨
    (∀ number : Whole width, number.value ≠ result) ∧ outcome = .error (.overflow (.whole width))

theorem checked_of_whole (width : Width) (result : Int) :
    Checked width result
      (match Datum.ofWhole? width result with
      | some value => .ok value
      | none => .error (.overflow (.whole width))) := by
  cases fits : Whole.ofInt? width result with
  | some number =>
      refine .inl ⟨number, ((Whole.of_int_some_iff result number).mp fits).symm, ?_⟩
      simp only [Datum.ofWhole?, fits, Option.map_some]
  | none =>
      refine .inr ⟨?_, by simp only [Datum.ofWhole?, fits, Option.map_none]⟩
      rintro number rfl
      rw [Whole.of_int_value] at fits
      cases fits

theorem checked_wide (width : Width) (result : Int) :
    Checked width result
      (match (wide? result).bind (Datum.ofWhole? width) with
      | some value => .ok value
      | none => .error (.overflow (.whole width))) := by
  rw [wide_fits]
  exact checked_of_whole width result

/-- An operator divides by zero, or its mathematical result is checked. -/
theorem on_whole_cases (op : Arithmetic) (width : Width) (left right : Int) :
    (op.divides = true ∧ right = 0 ∧ op.onWhole width left right = .error .divisionByZero) ∨
      ∃ result, op.Gives left right result ∧
        Checked width result (op.onWhole width left right) := by
  cases op with
  | add => exact .inr ⟨_, rfl, checked_wide width _⟩
  | sub => exact .inr ⟨_, rfl, checked_wide width _⟩
  | mul => exact .inr ⟨_, rfl, checked_wide width _⟩
  | div =>
      by_cases zero : right = 0
      · exact .inl ⟨rfl, zero, if_pos zero⟩
      · refine .inr ⟨_, gives_div.mpr ⟨zero, rfl⟩, ?_⟩
        rw [show onWhole div width left right = _ from if_neg zero]
        exact checked_wide width _
  | mod =>
      by_cases zero : right = 0
      · exact .inl ⟨rfl, zero, if_pos zero⟩
      · refine .inr ⟨_, gives_mod.mpr ⟨zero, rfl⟩, ?_⟩
        rw [show onWhole mod width left right = _ from if_neg zero]
        exact checked_wide width _

theorem on_whole_ok_iff {value : Datum} : op.onWhole width left right = .ok value ↔
    ∃ result : Whole width, value = .whole width result ∧ op.Gives left right result.value := by
  rcases on_whole_cases op width left right with
    ⟨divides, zero, ended⟩ | ⟨result, gives, ⟨number, rfl, ended⟩ | ⟨outside, ended⟩⟩
  · rw [ended]
    constructor
    · nofun
    · rintro ⟨_, _, gives⟩
      exact absurd ⟨divides, zero⟩ gives.not_by_zero
  · rw [ended]
    constructor
    · rintro ⟨⟩
      exact ⟨number, rfl, gives⟩
    · rintro ⟨other, rfl, also⟩
      rw [Whole.same_value (also.unique gives)]
  · rw [ended]
    constructor
    · nofun
    · rintro ⟨other, _, also⟩
      exact absurd (also.unique gives) (outside other)

theorem on_whole_error_iff {cause : ValueError} : op.onWhole width left right = .error cause ↔
    cause = .divisionByZero ∧ op.divides = true ∧ right = 0 ∨
      cause = .overflow (.whole width) ∧ ¬(op.divides = true ∧ right = 0) ∧
        ∀ result : Whole width, ¬op.Gives left right result.value := by
  rcases on_whole_cases op width left right with
    ⟨divides, zero, ended⟩ | ⟨result, gives, ⟨number, rfl, ended⟩ | ⟨outside, ended⟩⟩
  · rw [ended]
    constructor
    · rintro ⟨⟩
      exact .inl ⟨rfl, divides, zero⟩
    · rintro (⟨rfl, _⟩ | ⟨_, proper, _⟩)
      · rfl
      · exact absurd ⟨divides, zero⟩ proper
  · rw [ended]
    constructor
    · nofun
    · rintro (⟨_, byZero⟩ | ⟨_, _, none⟩)
      · exact absurd byZero gives.not_by_zero
      · exact absurd gives (none number)
  · rw [ended]
    constructor
    · rintro ⟨⟩
      exact .inr ⟨rfl, gives.not_by_zero, fun other also => outside other (also.unique gives)⟩
    · rintro (⟨_, byZero⟩ | ⟨rfl, _⟩)
      · exact absurd byZero gives.not_by_zero
      · rfl

end Arithmetic

/-- The value of a whole number below zero, or its overflow. -/
theorem Datum.checked_negate {width : Width} (number : Whole width) :
    Arithmetic.Checked width (-number.value) (whole width number).negate :=
  Arithmetic.checked_of_whole width _

theorem Datum.negate_ok_iff {width : Width} {number : Whole width} {value : Datum} :
    (whole width number).negate = .ok value ↔
      ∃ result : Whole width, value = .whole width result ∧ result.value = -number.value := by
  rcases checked_negate number with ⟨result, same, ended⟩ | ⟨outside, ended⟩
  · rw [ended]
    constructor
    · rintro ⟨⟩
      exact ⟨result, rfl, same⟩
    · rintro ⟨other, rfl, also⟩
      rw [Whole.same_value (also.trans same.symm)]
  · rw [ended]
    constructor
    · nofun
    · rintro ⟨other, _, also⟩
      exact absurd also (outside other)

theorem Datum.negate_error_iff {width : Width} {number : Whole width} {cause : ValueError} :
    (whole width number).negate = .error cause ↔
      cause = .overflow (.whole width) ∧ ∀ result : Whole width, result.value ≠ -number.value := by
  rcases checked_negate number with ⟨result, same, ended⟩ | ⟨outside, ended⟩
  · rw [ended]
    constructor
    · nofun
    · rintro ⟨_, none⟩
      exact absurd same (none result)
  · rw [ended]
    constructor
    · rintro ⟨⟩
      exact ⟨rfl, outside⟩
    · rintro ⟨rfl, _⟩
      rfl

/-- What becomes of the outcome of an operator on values when it ends an evaluation. -/
def Interrupt.ofValue (cause : ValueError) : Interrupt :=
  .failed (.value none cause)

theorem run_of_value {result : Type} (outcome : Except ValueError result) (journal : Journal) :
    (ofValue outcome).run journal = (outcome.mapError Interrupt.ofValue, journal) := by
  cases outcome <;> rfl

section Outcomes

variable {result : Type} {outcome : Except ValueError result}

theorem map_of_value_ok_iff {value : result} :
    outcome.mapError Interrupt.ofValue = .ok value ↔ outcome = .ok value := by
  cases outcome <;> simp [Except.mapError]

theorem map_of_value_error_iff {interrupt : Interrupt} :
    outcome.mapError Interrupt.ofValue = .error interrupt ↔
      ∃ cause, outcome = .error cause ∧ interrupt = .ofValue cause := by
  cases outcome <;> simp [Except.mapError, eq_comm]

end Outcomes

namespace Expr

variable {scope : Scope} {left right : Expr} {first second : Width} {one : Whole first}
  {other : Whole second} {start middle after : Journal}

theorem run_arithmetic (op : Arithmetic)
    (ofLeft : (left.eval scope).run start = (.ok (.whole first one), middle))
    (ofRight : (right.eval scope).run middle = (.ok (.whole second other), after)) :
    ((binary (.arithmetic op) left right).eval scope).run start =
      ((op.onWhole (first.stronger second) one.value other.value).mapError .ofValue, after) := by
  unfold eval
  rw [run_bind, ofLeft]
  dsimp only
  rw [run_bind, ofRight]
  exact run_of_value _ after

theorem run_negation (ofLeft : (left.eval scope).run start = (.ok (.whole first one), middle)) :
    ((unary .neg left).eval scope).run start =
      ((Datum.whole first one).negate.mapError .ofValue, middle) := by
  unfold eval
  rw [run_bind, ofLeft]
  exact run_of_value _ middle

/-- Operators on operands that evaluate to whole numbers: the outcome is the mathematical result in
the stronger of their widths, a division by zero where there is none, and otherwise the overflow of
that width; and a number is negated in its own width or overflows it. -/
theorem whole_arithmetic_exact
    (ofLeft : (left.eval scope).run start = (.ok (.whole first one), middle))
    (ofRight : (right.eval scope).run middle = (.ok (.whole second other), after)) :
    (∀ op : Arithmetic, ∃ outcome,
      ((binary (.arithmetic op) left right).eval scope).run start = (outcome, after) ∧
      (∀ value, outcome = .ok value ↔ ∃ result : Whole (first.stronger second),
        value = .whole (first.stronger second) result ∧
          op.Gives one.value other.value result.value) ∧
      ∀ interrupt, outcome = .error interrupt ↔
        interrupt = .ofValue .divisionByZero ∧ op.divides = true ∧ other.value = 0 ∨
          interrupt = .ofValue (.overflow (.whole (first.stronger second))) ∧
            ¬(op.divides = true ∧ other.value = 0) ∧
            ∀ result : Whole (first.stronger second),
              ¬op.Gives one.value other.value result.value) ∧
    ∃ outcome, ((unary .neg left).eval scope).run start = (outcome, middle) ∧
      (∀ value, outcome = .ok value ↔
        ∃ result : Whole first, value = .whole first result ∧ result.value = -one.value) ∧
      ∀ interrupt, outcome = .error interrupt ↔
        interrupt = .ofValue (.overflow (.whole first)) ∧
          ∀ result : Whole first, result.value ≠ -one.value := by
  constructor
  · intro op
    refine ⟨_, run_arithmetic op ofLeft ofRight, fun value => ?_, fun interrupt => ?_⟩
    · rw [map_of_value_ok_iff, Arithmetic.on_whole_ok_iff]
    · simp only [map_of_value_error_iff, Arithmetic.on_whole_error_iff]
      constructor
      · rintro ⟨_, ⟨rfl, byZero⟩ | ⟨rfl, beyond⟩, rfl⟩
        · exact .inl ⟨rfl, byZero⟩
        · exact .inr ⟨rfl, beyond⟩
      · rintro (⟨rfl, byZero⟩ | ⟨rfl, beyond⟩)
        · exact ⟨_, .inl ⟨rfl, byZero⟩, rfl⟩
        · exact ⟨_, .inr ⟨rfl, beyond⟩, rfl⟩
  · refine ⟨_, run_negation ofLeft, fun value => ?_, fun interrupt => ?_⟩
    · rw [map_of_value_ok_iff, Datum.negate_ok_iff]
    · simp only [map_of_value_error_iff, Datum.negate_error_iff]
      constructor
      · rintro ⟨_, ⟨rfl, outside⟩, rfl⟩
        exact ⟨rfl, outside⟩
      · rintro ⟨rfl, outside⟩
        exact ⟨_, ⟨rfl, outside⟩, rfl⟩

end Expr

/-! The largest unsigned number, whose square exceeds 128 bits, and the least bigint, which has no
quotient by minus one. -/

namespace Extremes

def scope : Scope :=
  { context := ⟨0, .standard, {}⟩, column := Scope.noRow, parameter? := fun _ => none, outer? := fun _ => none }

def largest : Whole .ubigint :=
  ⟨18446744073709551615, by decide, by decide⟩

def least : Whole .bigint :=
  ⟨-9223372036854775808, by decide, by decide⟩

def minusOne : Whole .smallint :=
  ⟨-1, by decide, by decide⟩

theorem literal_runs {width : Width} (number : Whole width) :
    ((Expr.literal (.whole width number)).eval scope).run {} = (.ok (.whole width number), {}) :=
  rfl

/-- An operator on two literals. -/
def applied (op : Arithmetic) {first second : Width} (one : Whole first) (other : Whole second) :
    Except Interrupt Datum :=
  (((Expr.binary (.arithmetic op) (.literal (.whole first one))
    (.literal (.whole second other))).eval scope).run {}).1

/-- The square and the quotient overflow, the remainder is zero, and neither number can be
negated. -/
theorem extremes_not_wrapped :
    applied .mul largest largest = .error (.ofValue (.overflow .ubigint)) ∧
      applied .div least minusOne = .error (.ofValue (.overflow .bigint)) ∧
      applied .mod least minusOne = .ok (.whole .bigint ⟨0, by decide, by decide⟩) ∧
      (((Expr.unary .neg (.literal (.whole .bigint least))).eval scope).run {}).1 =
        .error (.ofValue (.overflow .bigint)) := by
  have squares := Expr.whole_arithmetic_exact (literal_runs largest) (literal_runs largest)
  have quotients := Expr.whole_arithmetic_exact (literal_runs least) (literal_runs minusOne)
  refine ⟨?_, ?_, ?_, ?_⟩
  · obtain ⟨outcome, ran, -, stopped⟩ := squares.1 .mul
    refine (congrArg Prod.fst ran).trans ((stopped _).mpr (.inr ⟨rfl, nofun, ?_⟩))
    intro result gives
    have high := result.le_highest
    rw [show result.value = _ from gives] at high
    exact absurd high (by decide)
  · obtain ⟨outcome, ran, -, stopped⟩ := quotients.1 .div
    refine (congrArg Prod.fst ran).trans ((stopped _).mpr (.inr ⟨rfl, by decide, ?_⟩))
    intro result gives
    have high := result.le_highest
    rw [← (Arithmetic.gives_div.mp gives).2] at high
    exact absurd high (by decide)
  · obtain ⟨outcome, ran, answered, -⟩ := quotients.1 .mod
    exact (congrArg Prod.fst ran).trans
      ((answered _).mpr ⟨_, rfl, Arithmetic.gives_mod.mpr ⟨by decide, by decide⟩⟩)
  · obtain ⟨outcome, ran, -, stopped⟩ := quotients.2
    refine (congrArg Prod.fst ran).trans ((stopped _).mpr ⟨rfl, fun result same => ?_⟩)
    have high := result.le_highest
    rw [same] at high
    exact absurd high (by decide)

end Extremes

end QueryExec
