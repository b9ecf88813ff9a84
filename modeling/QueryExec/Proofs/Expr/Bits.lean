import Mathlib.Data.Nat.Digits.Defs
import QueryExec.Expr.Evaluate
import QueryExec.Proofs.Action.Agreement
import QueryExec.Proofs.Conversion.Texts
import QueryExec.Proofs.Journal

/-!
The bit operators. Whatever an operand is, it counts by a pattern of 64 bits: a truth value, a whole
number of any width or the text of a signed one by its number modulo `2 ^ 64`, and anything else, apart
from the rounded floating-point numbers, as zero with one warning. The complement flips the pattern
and the count has its ones.
-/

namespace QueryExec

open QueryExec.Action Text

section Ones

theorem ones_step (number : Nat) : ones number = number % 2 + ones (number / 2) := by
  by_cases zero : number = 0
  · subst zero
    simp [ones]
  · conv => lhs; unfold ones
    exact if_neg zero

/-- The ones among the binary digits. -/
theorem ones_eq_count (number : Nat) : ones number = (Nat.digits 2 number).count 1 := by
  induction number using ones.induct with
  | case1 => simp [ones]
  | case2 number positive induction =>
      rw [ones_step, induction, Nat.digits_def' (by decide) (Nat.pos_of_ne_zero positive),
        List.count_cons]
      rcases Nat.mod_two_eq_zero_or_one number with even | odd
      · simp [even]
      · simp [odd, Nat.add_comm]

/-- A pattern and its complement have all ones together: by induction on the bits, of which the last
one is in exactly one of both. -/
theorem ones_complement {bits number : Nat} (bounded : number < 2 ^ bits) :
    ones number + ones (2 ^ bits - 1 - number) = bits := by
  induction bits generalizing number with
  | zero =>
      obtain rfl : number = 0 := Nat.lt_one_iff.mp bounded
      simp [ones]
  | succ bits induction =>
      rw [Nat.pow_succ] at bounded ⊢
      have halves := @induction (number / 2) (by omega)
      have half : (2 ^ bits * 2 - 1 - number) / 2 = 2 ^ bits - 1 - number / 2 := by omega
      rw [ones_step number, ones_step (2 ^ bits * 2 - 1 - number), half]
      omega

end Ones

namespace Datum

/-- The integer that a value is: the number of a truth value or of a whole number, or the one that a
text spells between blanks, if that is a signed number of 64 bits. -/
inductive Integral : Datum → Int → Prop
  | boolean (truth : Bool) : Integral (.boolean truth) truth.toNat
  | whole {width : Width} (number : Whole width) : Integral (.whole width number) number.value
  | text {text : String} {core : List Char} (number : Whole .bigint)
      (trimmed : TrimsTo text.toList core) (spelled : SpellsInteger core number.value) :
      Integral (.text text) number.value

variable {number : Int}

theorem integral_boolean_iff {truth : Bool} : (boolean truth).Integral number ↔ truth.toNat = number :=
  ⟨fun | .boolean _ => rfl, fun same => same ▸ .boolean truth⟩

theorem integral_whole_iff {width : Width} {whole : Whole width} :
    (Datum.whole width whole).Integral number ↔ whole.value = number :=
  ⟨fun | .whole _ => rfl, fun same => same ▸ .whole whole⟩

theorem integral_text_iff {text : String} {signed : Whole .bigint} :
    (Datum.text text).Integral signed.value ↔ SpellsInteger (trim text.toList) signed.value := by
  constructor
  · intro integral
    generalize same : signed.value = number at integral
    cases integral with
    | text number trimmed spelled => exact trimmed.eq_trim ▸ spelled
  · exact .text signed (trims_to_trim _)

/-- A value is one integer at most. -/
theorem Integral.unique {value : Datum} {other : Int} (integral : value.Integral number)
    (also : value.Integral other) : number = other := by
  cases integral with
  | boolean truth => exact integral_boolean_iff.mp also
  | whole whole => exact integral_whole_iff.mp also
  | text signed trimmed spelled =>
      cases also with
      | text signed' trimmed' spelled' =>
          rw [trimmed.eq_trim] at spelled
          rw [trimmed'.eq_trim] at spelled'
          exact spelled.unique spelled'

/-- It is a signed number of 64 bits, unless the value is of the unsigned width. -/
theorem Integral.signed {value : Datum} (integral : value.Integral number)
    (other : value.kind? ≠ some .ubigint) : ∃ signed : Whole .bigint, signed.value = number := by
  cases integral with
  | boolean truth => cases truth <;> exact ⟨⟨_, by decide, by decide⟩, rfl⟩
  | @whole width number =>
      have low := number.lowest_le
      have high := number.le_highest
      refine ⟨⟨number.value, ?_, ?_⟩, rfl⟩ <;>
        cases width <;> simp only [Width.lowest, Width.highest] at low high ⊢ <;>
        first | omega | exact absurd rfl other
  | text signed trimmed spelled => exact ⟨signed, rfl⟩

end Datum

namespace Catalog

open Conversion

variable {value converted : Datum} {kind : Kind}

theorem bytes_to_whole (bytes : List UInt8) (width : Width) :
    standard.convert (.bytes bytes) (.whole width) = .error (.unsupported .bytes (.whole width)) := by
  simp [convert, Datum.kind?, standard_find, standard?, isStandard, Kind.isNumeric, Kind.isWhole,
    Kind.isFloating]

theorem boolean_to_whole (truth : Bool) (width : Width) :
    standard.convert (.boolean truth) (.whole width) = fit (.boolean truth) width truth.toNat := by
  have made : standard.convert (.boolean truth) (.whole width) = toWhole width (.boolean truth) :=
    standard_convert_eq rfl nofun rfl
  rw [made]
  cases truth <;> rfl

/-- The conversion to a signed number of 64 bits finds the integer that a value is, if it is such a
number. -/
theorem to_bigint_iff (ofKind : value.kind? = some kind) (exact : kind.isFloating = false) :
    standard.convert value .bigint = .ok converted ↔
      ∃ signed : Whole .bigint, converted = .whole .bigint signed ∧ value.Integral signed.value := by
  cases value with
  | null => cases ofKind
  | floating precision number =>
      cases ofKind
      cases exact
  | bytes bytes =>
      rw [bytes_to_whole]
      constructor
      · nofun
      · rintro ⟨_, -, integral⟩
        cases integral
  | boolean truth =>
      rw [boolean_to_whole, fit_ok_iff]
      simp only [Datum.integral_boolean_iff, eq_comm]
  | whole width number =>
      rw [whole_to_whole, fit_ok_iff]
      simp only [Datum.integral_whole_iff, eq_comm]
  | text text =>
      have made : standard.convert (.text text) .bigint = toWhole .bigint (.text text) :=
        standard_convert_eq rfl nofun rfl
      rw [made]
      simp only [text_to_whole_ok_iff, Datum.integral_text_iff]

end Catalog

/-- The pattern that a value counts by and the journal that this leaves: nothing is noted of an
integer, and one warning of anything else. -/
inductive Datum.CountsBy (context : Context) (value : Datum) (before : Journal) :
    Nat → Journal → Prop
  | integer {number : Int} {pattern : Nat} (integral : value.Integral number)
      (congruent : (pattern : Int) = number % 2 ^ 64) : CountsBy context value before pattern before
  | other {cause : CastError} (none : ∀ number, ¬value.Integral number)
      (failed : Catalog.standard.convert value .bigint = .error cause) {after : Journal}
      (noted : after = before.warn context cause.message)
      (warned : (after.of context).warnings =
        if (before.of context).warnings.length < context.settings.maxWarnings then
          (before.of context).warnings ++ [cause.message]
        else (before.of context).warnings) :
      CountsBy context value before 0 after

namespace Context

variable {context : Context} {value : Datum} {kind : Kind}

theorem wrap_unsigned_pattern (number : Int) :
    ((Whole.wrapUnsigned number).value.toNat : Int) = number % 2 ^ 64 := by
  have low : 0 ≤ number % 18446744073709551616 := Int.emod_nonneg number (by decide)
  exact Int.toNat_of_nonneg low

variable (standard : context.catalog = .standard)
  (lenient : context.settings.castErrorsFatal = false)

include standard lenient

/-- What is converted to a signed number counts by it, and a failed conversion is noted. -/
theorem pattern_of_integer_counts (ofKind : value.kind? = some kind)
    (exact : kind.isFloating = false) (signed : kind ≠ .ubigint) (before : Journal) :
    ∃ (bits : Whole .ubigint) (after : Journal),
      (context.patternOfInteger value).run before = (.ok bits, after) ∧
        value.CountsBy context before bits.value.toNat after := by
  unfold patternOfInteger
  rw [standard]
  cases made : Catalog.standard.convert value .bigint with
  | ok converted =>
      obtain ⟨number, rfl, integral⟩ := (Catalog.to_bigint_iff ofKind exact).mp made
      exact ⟨_, before, rfl, .integer integral (wrap_unsigned_pattern _)⟩
  | error cause =>
      have none : ∀ number, ¬value.Integral number := by
        intro number integral
        have other : value.kind? ≠ some .ubigint := fun unsigned =>
          signed (Option.some.inj (ofKind.symm.trans unsigned))
        obtain ⟨number, rfl⟩ := integral.signed other
        rw [(Catalog.to_bigint_iff ofKind exact).mpr ⟨number, rfl, integral⟩] at made
        cases made
      refine ⟨Whole.wrapUnsigned 0, before.warn context cause.message, ?_,
        .other none made rfl (before.warnings_warn context cause.message)⟩
      dsimp only
      rw [run_bind, recover, if_neg (Bool.eq_false_iff.mp lenient)]
      rfl

/-- An unsigned number is its own pattern, and every other value is converted. -/
theorem bit_pattern_counts (ofKind : value.kind? = some kind) (exact : kind.isFloating = false)
    (before : Journal) : ∃ (bits : Whole .ubigint) (after : Journal),
      (context.bitPattern value).run before = (.ok bits, after) ∧
        value.CountsBy context before bits.value.toNat after := by
  by_cases unsigned : kind = .ubigint
  · subst unsigned
    cases value <;> cases ofKind
    rename_i number
    have low := number.lowest_le
    have high := number.le_highest
    simp only [Width.lowest, Width.highest] at low high
    refine ⟨number, before, rfl, .integer (.whole number) ?_⟩
    omega
  · have converted : context.bitPattern value = context.patternOfInteger value := by
      cases value with
      | whole width number =>
          cases width <;> first | rfl | exact absurd (Option.some.inj ofKind).symm unsigned
      | floating precision number =>
          cases ofKind
          cases exact
      | _ => rfl
    rw [converted]
    exact pattern_of_integer_counts standard lenient ofKind exact unsigned before

end Context

namespace Expr

/-- The expression gives this number in this width and leaves the journal `after`. -/
def GivesWhole (scope : Scope) (start : Journal) (expression : Expr) (width : Width) (number : Int)
    (after : Journal) : Prop :=
  ∃ whole : Whole width, whole.value = number ∧
    (expression.eval scope).run start = (.ok (.whole width whole), after)

variable {scope : Scope} {operand : Expr} {value : Datum} {kind : Kind} {bits : Whole .ubigint}
  {start before after : Journal}

theorem run_bit_operators (evaluated : (operand.eval scope).run start = (.ok value, before))
    (present : value.isNull = false)
    (counted : (scope.context.bitPattern value).run before = (.ok bits, after)) :
    ((unary .complement operand).eval scope).run start =
        (.ok (.whole .ubigint bits.complement), after) ∧
      ((unary .popCount operand).eval scope).run start =
        (.ok (.whole .bigint bits.popCount), after) := by
  unfold eval
  rw [run_bind, evaluated, run_bind, evaluated]
  simp only [Context.applyUnary, present, Bool.false_eq_true, if_false, run_bind, counted]
  exact ⟨rfl, rfl⟩

theorem run_bit_operators_of_null (evaluated : (operand.eval scope).run start = (.ok .null, before)) :
    ((unary .complement operand).eval scope).run start = (.ok .null, before) ∧
      ((unary .popCount operand).eval scope).run start = (.ok .null, before) := by
  unfold eval
  rw [run_bind, evaluated, run_bind, evaluated]
  exact ⟨rfl, rfl⟩

/-- The bit operators under lenient conversions. NULL gives NULL. Any other operand that is no
floating-point number counts by a pattern of 64 bits, which is that of its integer, or zero with a
warning if it is none: the complement is the largest pattern without it, the count has its ones, both
counts have all bits together, and the complement of the complement is the pattern again. -/
theorem bit_operators_follow_pattern (standard : scope.context.catalog = .standard)
    (lenient : scope.context.settings.castErrorsFatal = false)
    (evaluated : (operand.eval scope).run start = (.ok value, before)) :
    (value = .null →
      ((unary .complement operand).eval scope).run start = (.ok .null, before) ∧
        ((unary .popCount operand).eval scope).run start = (.ok .null, before)) ∧
    ∀ kind, value.kind? = some kind → kind.isFloating = false → ∃ pattern after,
      value.CountsBy scope.context before pattern after ∧
      GivesWhole scope start (unary .complement operand) .ubigint (2 ^ 64 - 1 - pattern) after ∧
      GivesWhole scope start (unary .popCount operand) .bigint ((Nat.digits 2 pattern).count 1)
        after ∧
      (∃ unset : Nat, GivesWhole scope start (unary .popCount (unary .complement operand)) .bigint
        unset after ∧ (Nat.digits 2 pattern).count 1 + unset = 64) ∧
      GivesWhole scope start (unary .complement (unary .complement operand)) .ubigint pattern
        after := by
  refine ⟨fun null => run_bit_operators_of_null (null ▸ evaluated), ?_⟩
  intro kind ofKind exact
  obtain ⟨bits, after, counted, counts⟩ :=
    Context.bit_pattern_counts standard lenient ofKind exact before
  have present : value.isNull = false := by cases value <;> first | rfl | cases ofKind
  obtain ⟨flipped, set⟩ := run_bit_operators evaluated present counted
  have own : (scope.context.bitPattern (.whole .ubigint bits.complement)).run after =
      (.ok bits.complement, after) := rfl
  obtain ⟨restored, unset⟩ := run_bit_operators flipped rfl own
  have low := bits.lowest_le
  have high := bits.le_highest
  simp only [Width.lowest, Width.highest] at low high
  have below : bits.value.toNat < 2 ^ 64 := by omega
  have flips : bits.complement.value = 2 ^ 64 - 1 - bits.value.toNat := by
    change (18446744073709551615 : Int) - bits.value = _
    omega
  have together := ones_complement below
  rw [show 2 ^ 64 - 1 - bits.value.toNat = bits.complement.value.toNat by omega,
    ones_eq_count bits.value.toNat] at together
  have restores : bits.complement.complement.value = bits.value.toNat := by
    change (18446744073709551615 : Int) - bits.complement.value = _
    omega
  exact ⟨bits.value.toNat, after, counts, ⟨_, flips, flipped⟩,
    ⟨_, congrArg Nat.cast (ones_eq_count _), set⟩, ⟨_, ⟨_, rfl, unset⟩, together⟩,
    ⟨_, restores, restored⟩⟩

end Expr

/-! A negative number that a text spells, and a byte string, which is no number. -/

namespace Masks

def scope : Scope :=
  { context := ⟨0, .standard, {}⟩
    column := Scope.noRow
    parameter? := fun _ => none
    outer? := fun _ => none }

def spelled : Datum :=
  .text " -2 "

def unreadable : Datum :=
  .bytes [255]

theorem spelled_integral : spelled.Integral (-2) := by
  have trimmed : TrimsTo " -2 ".toList ['-', '2'] := by
    refine ⟨[' '], [' '], rfl, List.forall_mem_singleton.mpr rfl,
      List.forall_mem_singleton.mpr rfl, ?_, ?_⟩ <;>
    · rintro _ ⟨⟩
      decide
  exact .text ⟨-2, by decide, by decide⟩ trimmed
    (.minus ⟨List.cons_ne_nil _ _, by simp [Numeric], rfl⟩)

/-- The text counts by its number, of whose pattern only the last bit is not set. The byte string counts
as zero and is noted. -/
theorem one_bit_unset :
    Expr.GivesWhole scope {} (.unary .complement (.literal spelled)) .ubigint 1 {} ∧
      Expr.GivesWhole scope {} (.unary .popCount (.literal spelled)) .bigint 63 {} ∧
      ∃ after, Expr.GivesWhole scope {} (.unary .popCount (.literal unreadable)) .bigint 0 after ∧
        (after.of scope.context).warnings = ["cannot cast bytea to bigint"] := by
  have ofText := (Expr.bit_operators_follow_pattern rfl rfl
    (rfl : ((Expr.literal spelled).eval scope).run {} = (.ok spelled, {}))).2 .text rfl rfl
  have ofBytes := (Expr.bit_operators_follow_pattern rfl rfl
    (rfl : ((Expr.literal unreadable).eval scope).run {} = (.ok unreadable, {}))).2 .bytes rfl rfl
  obtain ⟨pattern, after, counts, flipped, set, -⟩ := ofText
  obtain ⟨pattern', after', counts', -, set', -⟩ := ofBytes
  have last : pattern = 18446744073709551614 ∧ after = {} := by
    cases counts with
    | integer integral congruent =>
        rw [integral.unique spelled_integral] at congruent
        exact ⟨Int.ofNat_inj.mp congruent, rfl⟩
    | other none => exact absurd spelled_integral (none _)
  obtain ⟨rfl, rfl⟩ := last
  refine ⟨flipped, set, after', ?_⟩
  cases counts' with
  | integer integral congruent => cases integral
  | other none failed noted warned =>
      rw [unreadable, Catalog.bytes_to_whole] at failed
      cases failed
      exact ⟨set', warned⟩

end Masks

end QueryExec
