import QueryExec.Proofs.Conversion.Wholes
import QueryExec.Proofs.Floating.Narrowing
import QueryExec.Proofs.Floating.Reading

/-!
Conversion of numbers to the floating-point kinds. Narrowing a finite double is checked, so every
number that a value holds becomes a finite one or is refused. Reading a text has no such check: a
numeral that rounds to infinity in double precision is read as infinite, for both kinds.
-/

namespace QueryExec

open Floating Text

/-- The number that a value is: a whole number, a finite floating-point number, or a text that spells
a decimal between blanks. -/
inductive Datum.Denotes : Datum → ℚ → Prop
  | whole {width : Width} (number : Whole width) : Denotes (.whole width number) number.value
  | floating {precision : Precision} {number : Floating precision.format} {exact : ℚ}
      (stands : number.Stands exact) : Denotes (.floating precision number) exact
  | text {text : String} {core : List Char} {number : ℚ} (trimmed : TrimsTo text.toList core)
      (spelled : SpellsDecimal core number) : Denotes (.text text) number

/-- The numbers of a precision are below what rounds to infinity. -/
theorem Precision.stands_bounded {precision : Precision} {number : Floating precision.format}
    {exact : ℚ} (stands : number.Stands exact) : |exact| < precision.bound := by
  obtain ⟨negative, rank, rfl, finite, rfl⟩ := stands
  rw [abs_signed negative (Format.worth_nonneg _ _)]
  refine ((Format.worth_strict_mono _).monotone (Nat.le_sub_one_of_lt finite)).trans_lt ?_
  cases precision with
  | double =>
      change Format.binary64.worth (Format.binary64.infinityRank - 1) < 2 ^ 1024 - 2 ^ 970
      rw [← binary64_limit.middle]
      exact Format.worth_lt_midpoint
  | real =>
      have last : Format.binary32.magnitude (Format.binary32.infinityRank - 1) =
          ⟨2 ^ 24 - 1, 104⟩ := by decide
      change Format.binary32.worth (Format.binary32.infinityRank - 1) < real.bound
      rw [Format.worth, last, Dyadic.worth]
      norm_num [bound]

namespace Conversion

variable {value : Datum} {number : ℚ} {target : Precision}

/-- How a number ends as one of a floating-point kind. -/
inductive EndsFloating (value : Datum) (target : Precision) (number : ℚ) :
    Except CastError Datum → Prop
  | finite {result : Floating target.format} (near : |number| < target.bound)
      (fits : result.isFinite = true) :
      EndsFloating value target number (.ok (.floating target result))
  | refused (beyond : target.bound ≤ |number|) (near : |number| < Precision.double.bound) :
      EndsFloating value target number (.error (outOfRange value (.floating target)))
  | infinite (far : Precision.double.bound ≤ |number|) :
      EndsFloating value target number
        (.ok (.floating target (infinite (decide (number < 0)))))

/-- In double precision a number is rounded. -/
theorem double_of_denotes (denotes : value.Denotes number) (target : Kind) :
    ∃ rounded, doubleOf value target = .ok rounded ∧ rounded.Rounds number := by
  cases denotes with
  | whole number => exact ⟨_, rfl, of_int_rounds number.value⟩
  | @floating precision number exact stands =>
      cases precision with
      | double => exact ⟨number, rfl, stands.rounds⟩
      | real => exact ⟨_, rfl, (widen_stands stands).rounds⟩
  | text trimmed spelled =>
      rw [trimmed.eq_trim] at spelled
      obtain ⟨rounded, read, rounds⟩ := @read_rounds .binary64 _ _ spelled
      refine ⟨rounded, ?_, rounds⟩
      unfold doubleOf
      dsimp only
      rw [read]

/-- Only a finite double is checked when it is narrowed. -/
theorem to_floating_ends (denotes : value.Denotes number) :
    EndsFloating value target number (toFloating target value) := by
  obtain ⟨rounded, taken, rounds⟩ := double_of_denotes denotes (.floating target)
  unfold toFloating
  rw [taken]
  cases target with
  | double =>
      rcases rounds.cases binary64_limit with ⟨finite, near⟩ | ⟨rfl, far⟩
      · exact .finite near finite
      · exact .infinite far
  | real =>
      change EndsFloating value .real number
        (if rounded.isFinite && (rounded.convert : Floating .binary32).isInfinite then
          .error (outOfRange value .real) else .ok (.real rounded.convert))
      rcases rounds.cases binary64_limit with ⟨finite, near⟩ | ⟨rfl, far⟩
      · rcases narrow_cases rounds finite with ⟨fits, bounded⟩ | ⟨ended, beyond⟩
        · rw [finite, not_infinite_of_finite fits]
          exact .finite bounded fits
        · rw [finite, ended, infinite_is_infinite]
          exact .refused beyond near
      · rw [infinite_not_finite, infinite_convert]
        exact .infinite far

/-- A number of the target kind is itself, any other is rounded. -/
theorem standard_ends (denotes : value.Denotes number) (target : Precision) :
    EndsFloating value target number (Catalog.standard.convert value (.floating target)) := by
  have made : ∀ source, value.kind? = some source → source ≠ .floating target →
      isStandard source (.floating target) = true → value.isNull = false →
        EndsFloating value target number (Catalog.standard.convert value (.floating target)) := by
    intro source ofKind other listed present
    have differs : ¬value.kind? = some (.floating target) := by
      rw [ofKind]
      exact fun same => other (Option.some.inj same)
    rw [Catalog.standard_convert_eq ofKind other listed, convert, present, if_neg differs]
    exact to_floating_ends denotes
  cases id denotes with
  | @whole width _ => exact made (.whole width) rfl nofun (by cases width <;> cases target <;> rfl) rfl
  | text trimmed spelled => exact made .text rfl nofun (by cases target <;> rfl) rfl
  | @floating precision result _ stands =>
      by_cases same : precision = target
      · subst same
        have itself : Catalog.standard.convert (.floating precision result) (.floating precision) =
            .ok (.floating precision result) := if_pos rfl
        rw [itself]
        exact .finite (Precision.stands_bounded stands) stands.is_finite
      · refine made (.floating precision) rfl (fun equal => same (Kind.floating.inj equal)) ?_ rfl
        cases precision <;> cases target <;> first | rfl | exact absurd rfl same

/-- The outcome is no finite number exactly where the number is infinite in double precision already. -/
theorem EndsFloating.not_finite_iff {outcome : Except CastError Datum}
    (ends : EndsFloating value target number outcome) :
    (∃ result : Floating target.format,
      outcome = .ok (.floating target result) ∧ result.isFinite = false) ↔
    Precision.double.bound ≤ |number| := by
  cases ends with
  | finite near fits =>
      refine iff_of_false ?_ (not_le.mpr (near.trans_le target.bound_le))
      rintro ⟨_, ⟨⟩, infinite⟩
      exact absurd (fits.symm.trans infinite) nofun
  | refused beyond near => exact iff_of_false nofun (not_le.mpr near)
  | infinite far => exact iff_of_true ⟨_, rfl, infinite_not_finite _⟩ far

/-- No number but that of a text is so great. -/
theorem text_of_far (denotes : value.Denotes number) (far : Precision.double.bound ≤ |number|) :
    ∃ text, value = .text text := by
  cases denotes with
  | whole number => exact absurd far (not_le.mpr (Datum.whole_bounded number))
  | @floating precision _ _ stands =>
      exact absurd far (not_le.mpr ((Precision.stands_bounded stands).trans_le precision.bound_le))
  | text trimmed spelled => exact ⟨_, rfl⟩

end Conversion

namespace Catalog

open Conversion

variable {value : Datum} {number : ℚ}

/-- Conversion of a number to a floating-point kind: it becomes a finite number of the kind or is out
of range, unless it rounds to infinity in double precision already. Only a text holds such a number,
and it becomes an infinite one. -/
theorem number_to_floating (denotes : value.Denotes number) (target : Precision) :
    EndsFloating value target number (standard.convert value (.floating target)) ∧
      ((∃ result : Floating target.format,
        standard.convert value (.floating target) = .ok (.floating target result) ∧
          result.isFinite = false) ↔ Precision.double.bound ≤ |number|) ∧
      (Precision.double.bound ≤ |number| → ∃ text, value = .text text) := by
  have ends := standard_ends denotes target
  exact ⟨ends, ends.not_finite_iff, text_of_far denotes⟩

/-! A text that no floating-point number is near. -/

namespace Distant

theorem spelled : (Datum.text "1e400").Denotes (1 * 10 ^ 400) := by
  have digits : SpellsNatural ['1'] 1 := ⟨List.cons_ne_nil _ _, by simp [Numeric], rfl⟩
  have exponent : SpellsInteger ['4', '0', '0'] 400 := .plain ⟨List.cons_ne_nil _ _, by simp [Numeric], rfl⟩
  have magnitude : SpellsMagnitude ['1', 'e', '4', '0', '0'] ((1 : Int) * 10 ^ (400 : Int)) :=
    .plain digits (.marked (.inl rfl) exponent)
  rw [Int.cast_one] at magnitude
  have trimmed : TrimsTo "1e400".toList ['1', 'e', '4', '0', '0'] := by
    refine ⟨[], [], rfl, List.forall_mem_nil _, List.forall_mem_nil _, ?_, ?_⟩ <;>
    · rintro _ ⟨⟩
      decide
  exact .text trimmed (.plain magnitude)

theorem far : Precision.double.bound ≤ |(1 * 10 ^ 400 : ℚ)| := by
  rw [one_mul, abs_of_pos (by positivity)]
  calc Precision.double.bound
      ≤ (2 : ℚ) ^ 1026 := by
        refine (sub_le_self _ (by positivity)).trans ?_
        exact pow_le_pow_right₀ (by norm_num) (by norm_num)
    _ = (2 ^ 3) ^ 342 := pow_mul 2 3 342
    _ ≤ 10 ^ 342 := pow_le_pow_left₀ (by norm_num) (by norm_num) _
    _ ≤ 10 ^ 400 := pow_le_pow_right₀ (by norm_num) (by norm_num)

/-- It becomes an infinite number of either kind. -/
theorem distant_text_infinite :
    (∃ result : Floating .binary64,
      standard.convert (.text "1e400") .double = .ok (.double result) ∧ result.isFinite = false) ∧
    ∃ result : Floating .binary32,
      standard.convert (.text "1e400") .real = .ok (.real result) ∧ result.isFinite = false :=
  ⟨(number_to_floating spelled .double).2.1.mpr far, (number_to_floating spelled .real).2.1.mpr far⟩

end Distant

end Catalog

end QueryExec
