import QueryExec.Proofs.Row.Equality
import QueryExec.Proofs.Text.Spelling

/-!
Conversion of texts to whole numbers. Between blanks a numeral is an optional sign and one or more
digits, and all else is malformed. A numeral is read in 128 bits before it is fitted into the width,
so one beyond them is malformed as well, although it is spelled as it should be.
-/

namespace QueryExec

open Text

namespace Catalog

variable {value : Datum} {source target : Kind}

/-- Between two kinds with a standard conversion the standard catalog makes that conversion, failures
included. -/
theorem standard_convert_eq (ofKind : value.kind? = some source) (other : source ≠ target)
    (listed : Conversion.isStandard source target = true) :
    standard.convert value target = Conversion.convert target value := by
  unfold convert
  simp only [ofKind, if_neg other, standard_find, Conversion.standard?, if_pos listed]

end Catalog

namespace Text

/-- A text spells one integer at most. -/
theorem SpellsInteger.unique {characters : List Char} {number other : Int}
    (spelled : SpellsInteger characters number) (also : SpellsInteger characters other) :
    number = other :=
  Option.some.inj ((read_integer_iff.mpr spelled).symm.trans (read_integer_iff.mpr also))

end Text

namespace Conversion

/-- The integers of 128 bits. -/
def Wide (number : Int) : Prop :=
  -2 ^ 127 ≤ number ∧ number < 2 ^ 127

theorem wide_iff {number : Int} : Wide number ↔ leastNumeral ≤ number ∧ number ≤ greatestNumeral := by
  unfold Wide leastNumeral greatestNumeral
  omega

/-- Every width lies within 128 bits. -/
theorem wide_of_whole {width : Width} (number : Whole width) : Wide number.value := by
  have low := number.lowest_le
  have high := number.le_highest
  unfold Wide
  cases width <;> simp only [Width.lowest, Width.highest] at low high <;> omega

variable {text : String} {number : Int} {width : Width} {value : Datum}

/-- A text is read as the number that its core spells, unless the number is too wide. -/
theorem integer_of_text_iff : integerOfText text = some number ↔
    SpellsInteger (trim text.toList) number ∧ Wide number := by
  unfold integerOfText
  simp only [← read_integer_iff, wide_iff]
  cases readInteger (trim text.toList) with
  | none => simp
  | some found =>
      dsimp only
      split
      next wide =>
        constructor
        · rintro ⟨⟩
          exact ⟨rfl, wide⟩
        · rintro ⟨same, -⟩
          exact same
      next beyond =>
        constructor
        · nofun
        · rintro ⟨⟨⟩, wide⟩
          exact absurd wide beyond

theorem integer_of_text_none_iff : integerOfText text = none ↔
    ∀ number, SpellsInteger (trim text.toList) number → ¬Wide number := by
  rw [Option.eq_none_iff_forall_ne_some]
  simp only [ne_eq, integer_of_text_iff, not_and]

theorem fit_ok_iff {converted : Datum} : fit value width number = .ok converted ↔
    ∃ whole : Whole width, converted = .whole width whole ∧ whole.value = number := by
  refine ⟨fit_value, ?_⟩
  rintro ⟨whole, rfl, rfl⟩
  unfold fit Datum.ofWhole?
  rw [Whole.of_int_value]
  rfl

theorem fit_error_iff {cause : CastError} : fit value width number = .error cause ↔
    cause = outOfRange value (.whole width) ∧ (number < width.lowest ∨ width.highest < number) := by
  unfold fit Datum.ofWhole?
  rw [← Whole.of_int_none_iff]
  cases Whole.ofInt? width number with
  | some whole => simp
  | none => simp [eq_comm]

/-- What becomes of a text: its number is fitted into the width, or it has none that can be read. -/
theorem text_to_whole_cases (text : String) (width : Width) :
    (∃ number, SpellsInteger (trim text.toList) number ∧ Wide number ∧
      toWhole width (.text text) = fit (.text text) width number) ∨
    (∀ number, SpellsInteger (trim text.toList) number → ¬Wide number) ∧
      toWhole width (.text text) = .error (.malformed text (.whole width)) := by
  cases read : integerOfText text with
  | some number =>
      obtain ⟨spelled, wide⟩ := integer_of_text_iff.mp read
      exact .inl ⟨number, spelled, wide, by simp only [toWhole, read]⟩
  | none => exact .inr ⟨integer_of_text_none_iff.mp read, by simp only [toWhole, read]⟩

theorem text_to_whole_ok_iff : toWhole width (.text text) = .ok value ↔
    ∃ number : Whole width, value = .whole width number ∧
      SpellsInteger (trim text.toList) number.value := by
  rcases text_to_whole_cases text width with ⟨number, spelled, -, ended⟩ | ⟨none, ended⟩
  · rw [ended, fit_ok_iff]
    constructor
    · rintro ⟨whole, rfl, rfl⟩
      exact ⟨whole, rfl, spelled⟩
    · rintro ⟨whole, rfl, also⟩
      exact ⟨whole, rfl, also.unique spelled⟩
  · rw [ended]
    constructor
    · nofun
    · rintro ⟨whole, -, spelled⟩
      exact absurd (wide_of_whole whole) (none _ spelled)

theorem text_to_whole_error_iff {cause : CastError} :
    toWhole width (.text text) = .error cause ↔
      (cause = .outOfRange text (.whole width) ∧ ∃ number,
        SpellsInteger (trim text.toList) number ∧ Wide number ∧
          (number < width.lowest ∨ width.highest < number)) ∨
      cause = .malformed text (.whole width) ∧
        ∀ number, SpellsInteger (trim text.toList) number → ¬Wide number := by
  rcases text_to_whole_cases text width with ⟨number, spelled, wide, ended⟩ | ⟨none, ended⟩
  · rw [ended, fit_error_iff]
    constructor
    · rintro ⟨rfl, outside⟩
      exact .inl ⟨rfl, number, spelled, wide, outside⟩
    · rintro (⟨rfl, other, also, -, outside⟩ | ⟨-, none⟩)
      · exact ⟨rfl, also.unique spelled ▸ outside⟩
      · exact absurd wide (none number spelled)
  · rw [ended]
    constructor
    · rintro ⟨⟩
      exact .inr ⟨rfl, none⟩
    · rintro (⟨-, number, spelled, wide, -⟩ | ⟨rfl, -⟩)
      · exact absurd wide (none number spelled)
      · rfl

end Conversion

namespace Catalog

open Conversion

/-- Conversion of any text to a whole number. What is left of the text without its outer blanks
decides: the result is the number of the width that it spells, a spelled number outside the width is
out of range, and all else is malformed, to which numbers beyond 128 bits belong. -/
theorem text_read_as_whole (text : String) (width : Width) :
    ∃ core, (∀ characters, TrimsTo text.toList characters ↔ characters = core) ∧
      (∀ value, standard.convert (.text text) (.whole width) = .ok value ↔
        ∃ number : Whole width, value = .whole width number ∧ SpellsInteger core number.value) ∧
      ∀ cause, standard.convert (.text text) (.whole width) = .error cause ↔
        (cause = .outOfRange text (.whole width) ∧ ∃ number, SpellsInteger core number ∧
          Wide number ∧ (number < width.lowest ∨ width.highest < number)) ∨
        cause = .malformed text (.whole width) ∧
          ∀ number, SpellsInteger core number → ¬Wide number := by
  have made : standard.convert (.text text) (.whole width) = toWhole width (.text text) :=
    standard_convert_eq rfl nofun rfl
  rw [made]
  exact ⟨trim text.toList, fun characters =>
    ⟨TrimsTo.eq_trim, fun same => same ▸ trims_to_trim text.toList⟩,
    fun _ => text_to_whole_ok_iff, fun _ => text_to_whole_error_iff⟩

end Catalog

end QueryExec
