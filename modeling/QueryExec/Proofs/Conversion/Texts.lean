import QueryExec.Proofs.Conversion.Wholes
import QueryExec.Proofs.Text.Written

/-!
Conversion to text and back. Truth values and whole numbers come back from their texts, and a whole
number goes into any width by way of its text as it goes there directly. A byte string does not come
back: its text has two digits for each byte, and it is this text whose bytes the conversion to a byte
string gives.
-/

namespace QueryExec

open Text

namespace Conversion

/-- What is written as a whole number is read as that number. -/
theorem integer_of_written {width : Width} (number : Whole width) :
    integerOfText (writeInteger number.value) = some number.value := by
  have spelled := write_integer_spells number.value
  refine integer_of_text_iff.mpr ⟨?_, wide_of_whole number⟩
  rw [trim_bare spelled.bare]
  exact spelled

/-- What a number becomes in a width: the same number of the width, or a failure that has its text. -/
inductive EndsWhole (target : Width) (number : Int) (text : String) :
    Except CastError Datum → Prop
  | fits (result : Whole target) (same : result.value = number) :
      EndsWhole target number text (.ok (.whole target result))
  | refused (outside : number < target.lowest ∨ target.highest < number) :
      EndsWhole target number text (.error (.outOfRange text (.whole target)))

theorem fit_ends (value : Datum) (target : Width) (number : Int) :
    EndsWhole target number value.toText (fit value target number) := by
  cases ended : fit value target number with
  | ok converted =>
      obtain ⟨result, rfl, same⟩ := fit_ok_iff.mp ended
      exact .fits result same
  | error cause =>
      obtain ⟨rfl, outside⟩ := fit_error_iff.mp ended
      exact .refused outside

end Conversion

namespace Catalog

open Conversion

variable {width : Width}

theorem whole_to_text (number : Whole width) :
    standard.convert (.whole width number) .text = .ok (.text (writeInteger number.value)) :=
  standard_convert_eq rfl nofun (by cases width <;> rfl)

/-- The text of a whole number is fitted into a width like the number itself. -/
theorem written_to_whole (number : Whole width) (target : Width) :
    standard.convert (.text (writeInteger number.value)) (.whole target) =
      fit (.whole width number) target number.value := by
  have made : standard.convert (.text (writeInteger number.value)) (.whole target) =
      toWhole target (.text (writeInteger number.value)) := standard_convert_eq rfl nofun rfl
  rw [made, toWhole, integer_of_written]
  rfl

theorem whole_to_whole (number : Whole width) (target : Width) :
    standard.convert (.whole width number) (.whole target) =
      fit (.whole width number) target number.value := by
  by_cases own : width = target
  · subst own
    rw [fit_ok_iff.mpr ⟨number, rfl, rfl⟩]
    exact if_pos rfl
  · have other : Kind.whole width ≠ .whole target := fun same => own (Kind.whole.inj same)
    have listed : isStandard (.whole width) (.whole target) = true := by
      cases width <;> cases target <;> first | rfl | exact absurd rfl own
    rw [standard_convert_eq rfl other listed]
    exact if_neg fun same => other (Option.some.inj same)

/-- Truth values and whole numbers are converted to text and back without a loss. By way of its text
a whole number becomes in any width what it becomes there directly: the same number, or the failure
to be in range. -/
theorem exact_values_survive_text :
    (∀ truth : Bool, ∃ text, standard.convert (.boolean truth) .text = .ok (.text text) ∧
      standard.convert (.text text) .boolean = .ok (.boolean truth)) ∧
    ∀ (width : Width) (number : Whole width), ∃ text,
      standard.convert (.whole width number) .text = .ok (.text text) ∧
      SpellsInteger text.toList number.value ∧
      standard.convert (.text text) (.whole width) = .ok (.whole width number) ∧
      ∀ target : Width,
        standard.convert (.text text) (.whole target) =
          standard.convert (.whole width number) (.whole target) ∧
        EndsWhole target number.value text (standard.convert (.text text) (.whole target)) := by
  refine ⟨fun truth => ?_, fun width number => ⟨writeInteger number.value, whole_to_text number,
    write_integer_spells number.value, ?_, fun target => ⟨?_, ?_⟩⟩⟩
  · cases truth
    · exact ⟨"f", by rfl, by rfl⟩
    · exact ⟨"t", by rfl, by rfl⟩
  · rw [written_to_whole]
    exact fit_ok_iff.mpr ⟨number, rfl, rfl⟩
  · rw [written_to_whole, whole_to_whole]
  · rw [written_to_whole]
    exact fit_ends (.whole width number) target number.value

theorem bytes_to_text (bytes : List UInt8) :
    standard.convert (.bytes bytes) .text =
      .ok (.text (String.ofList ('\\' :: 'x' :: hexOfBytes bytes))) :=
  standard_convert_eq rfl nofun rfl

theorem text_to_bytes (text : String) :
    standard.convert (.text text) .bytes = .ok (.bytes text.toUTF8.toList) :=
  standard_convert_eq rfl nofun rfl

/-- A byte string becomes the text of its digits, and that text becomes the codes of its own
characters, which are another byte string. The first one can be read from their digits. -/
theorem byte_strings_become_their_texts (bytes : List UInt8) : ∃ digits result,
    SpellsBytes digits bytes ∧
    standard.convert (.bytes bytes) .text =
      .ok (.text (String.ofList ('\\' :: 'x' :: digits))) ∧
    standard.convert (.text (String.ofList ('\\' :: 'x' :: digits))) .bytes = .ok (.bytes result) ∧
    result.map UInt8.toNat = ('\\' :: 'x' :: digits).map Char.toNat ∧
    result ≠ bytes ∧
    readHexBytes ((result.drop 2).map fun byte => Char.ofNat byte.toNat) = some bytes := by
  have ascii : ∀ character ∈ '\\' :: 'x' :: hexOfBytes bytes, character.toNat < 128 :=
    List.forall_mem_cons.mpr ⟨by decide, List.forall_mem_cons.mpr ⟨by decide, hex_bytes_ascii bytes⟩⟩
  have written := text_to_bytes (String.ofList ('\\' :: 'x' :: hexOfBytes bytes))
  rw [utf8_ascii ascii] at written
  refine ⟨_, _, hex_bytes_spell bytes, bytes_to_text bytes, written, ?_, ?_, ?_⟩
  · rw [List.map_map]
    exact List.map_congr_left fun character among => code_of_ascii (ascii character among)
  · intro same
    have lengths := congrArg List.length same
    rw [List.length_map, List.length_cons, List.length_cons, length_hex_of_bytes] at lengths
    omega
  · rw [List.map_cons, List.map_cons, List.drop_succ_cons, List.drop_succ_cons, List.drop_zero,
      characters_of_codes (hex_bytes_ascii bytes)]
    exact read_hex_of_bytes bytes

/-- Two bytes come back as six. -/
theorem two_bytes_come_back_as_six :
    standard.convert (.bytes [0, 255]) .text = .ok (.text "\\x00ff") ∧
      standard.convert (.text "\\x00ff") .bytes = .ok (.bytes [92, 120, 48, 48, 102, 102]) ∧
      standard.convert (.text "\\x00ff") .bytes ≠ .ok (.bytes [0, 255]) := by
  have ascii : ∀ character ∈ ['\\', 'x', '0', '0', 'f', 'f'], character.toNat < 128 := by simp
  have codes : ("\\x00ff" : String).toUTF8.toList = [92, 120, 48, 48, 102, 102] := utf8_ascii ascii
  have back : standard.convert (.text "\\x00ff") .bytes =
      .ok (.bytes [92, 120, 48, 48, 102, 102]) := by
    rw [text_to_bytes, codes]
  refine ⟨(bytes_to_text [0, 255]).trans rfl, back, ?_⟩
  rw [back]
  decide

end Catalog

end QueryExec
