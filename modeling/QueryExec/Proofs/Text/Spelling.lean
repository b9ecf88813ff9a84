import Mathlib.Data.List.TakeWhile
import QueryExec.Proofs.Text.Numeral
import QueryExec.Text.Blank

/-!
Spellings. A text determines what is left of it without the blanks at its ends, and reading a whole
number accepts exactly an optional sign before one or more digits.
-/

namespace QueryExec.Text

/-- The text is blanks, the core and blanks, and the core has no blank at either end. -/
def TrimsTo (characters core : List Char) : Prop :=
  ∃ before after, characters = before ++ core ++ after ∧
    (∀ character ∈ before, isBlank character = true) ∧
    (∀ character ∈ after, isBlank character = true) ∧
    (∀ character ∈ core.head?, isBlank character = false) ∧
    ∀ character ∈ core.getLast?, isBlank character = false

section Trimming

variable {characters core : List Char}

theorem drop_blanks_iff {rest : List Char} : characters.dropWhile isBlank = rest ↔
    ∃ before, characters = before ++ rest ∧ (∀ character ∈ before, isBlank character = true) ∧
      ∀ character ∈ rest.head?, isBlank character = false := by
  constructor
  · rintro rfl
    refine ⟨_, List.takeWhile_append_dropWhile.symm, fun _ => List.mem_takeWhile_imp, ?_⟩
    intro character first
    have stopped := List.head?_dropWhile_not isBlank characters
    rw [Option.mem_def.mp first] at stopped
    exact stopped
  · rintro ⟨before, rfl, blank, stops⟩
    rw [List.dropWhile_append_of_pos blank]
    cases rest with
    | nil => rfl
    | cons first rest =>
        have kept : ¬isBlank first = true := by simp [stops first rfl]
        exact List.dropWhile_cons_of_neg kept

theorem trims_to_trim (characters : List Char) : TrimsTo characters (trim characters) := by
  obtain ⟨before, same, blankBefore, first⟩ := drop_blanks_iff.mp (Eq.refl (characters.dropWhile isBlank))
  obtain ⟨after, reversed, blankAfter, last⟩ :=
    drop_blanks_iff.mp (Eq.refl ((characters.dropWhile isBlank).reverse.dropWhile isBlank))
  have kept : characters.dropWhile isBlank = trim characters ++ after.reverse := by
    rw [← List.reverse_inj, reversed]
    simp [trim]
  refine ⟨before, after.reverse, ?_, blankBefore, ?_, ?_, ?_⟩
  · rw [List.append_assoc, ← kept]
    exact same
  · simpa using blankAfter
  · intro character member
    refine first character ?_
    rw [kept, List.head?_append, Option.mem_def.mp member]
    rfl
  · intro character member
    refine last character ?_
    rw [← List.getLast?_reverse]
    exact member

/-- There is one such core. -/
theorem TrimsTo.eq_trim (trims : TrimsTo characters core) : core = trim characters := by
  obtain ⟨before, after, rfl, blankBefore, blankAfter, first, last⟩ := trims
  unfold trim
  cases core with
  | nil =>
      have none : (before ++ [] ++ after).dropWhile isBlank = [] :=
        drop_blanks_iff.mpr ⟨before ++ after, by simp, by
          simpa [or_imp, forall_and] using ⟨blankBefore, blankAfter⟩, by simp⟩
      rw [none]
      rfl
  | cons head rest =>
      have front : (before ++ (head :: rest) ++ after).dropWhile isBlank = head :: rest ++ after :=
        drop_blanks_iff.mpr ⟨before, List.append_assoc .., blankBefore, first⟩
      have back : (head :: rest ++ after).reverse.dropWhile isBlank = (head :: rest).reverse :=
        drop_blanks_iff.mpr ⟨after.reverse, List.reverse_append, by simpa using blankAfter, by
          rw [List.head?_reverse]
          exact last⟩
      rw [front, back, List.reverse_reverse]

end Trimming

/-- What has a spelling without a sign, with an optional sign before it. -/
inductive Signed {value : Type} [Neg value] (unsigned : List Char → value → Prop) :
    List Char → value → Prop
  | plain {characters : List Char} {number : value} (spelled : unsigned characters number) :
      Signed unsigned characters number
  | plus {characters : List Char} {number : value} (spelled : unsigned characters number) :
      Signed unsigned ('+' :: characters) number
  | minus {characters : List Char} {number : value} (spelled : unsigned characters number) :
      Signed unsigned ('-' :: characters) (-number)

/-- One or more digits. -/
structure SpellsNatural (characters : List Char) (number : Int) : Prop where
  present : characters ≠ []
  numeric : ∀ character ∈ characters, Numeric character
  worth : number = numeral characters

/-- An optional sign and one or more digits. -/
abbrev SpellsInteger : List Char → Int → Prop :=
  Signed SpellsNatural

theorem digit_some_iff {character : Char} {value : Nat} :
    digit? character = some value ↔ Numeric character ∧ value = character.toNat - '0'.toNat := by
  have bounds : ('0' ≤ character ∧ character ≤ '9') ↔ Numeric character := Iff.rfl
  unfold digit?
  split
  · rename_i inside
    simp [bounds.mp inside, eq_comm]
  · rename_i outside
    simp [bounds.not.mp outside]

theorem read_digits_iff {before number : Nat} {characters : List Char} :
    readDigits before characters = some number ↔
      (∀ character ∈ characters, Numeric character) ∧ number = numeralFrom before characters := by
  induction characters generalizing before with
  | nil => simp [readDigits, numeralFrom, eq_comm]
  | cons first rest induction =>
      have step : readDigits before (first :: rest) =
          (digit? first).bind fun value => readDigits (before * 10 + value) rest := rfl
      rw [step, Option.bind_eq_some_iff, List.forall_mem_cons]
      constructor
      · rintro ⟨value, digit, more⟩
        obtain ⟨numeric, rfl⟩ := digit_some_iff.mp digit
        obtain ⟨others, rfl⟩ := induction.mp more
        exact ⟨⟨numeric, others⟩, rfl⟩
      · rintro ⟨⟨numeric, others⟩, rfl⟩
        exact ⟨_, digit_some_iff.mpr ⟨numeric, rfl⟩, induction.mpr ⟨others, rfl⟩⟩

theorem read_natural_iff {characters : List Char} {number : Nat} :
    readNatural characters = some number ↔ SpellsNatural characters number := by
  cases characters with
  | nil => exact ⟨nofun, fun spelled => absurd rfl spelled.present⟩
  | cons first rest =>
      refine read_digits_iff.trans ⟨fun read => ⟨nofun, read.1, ?_⟩, fun spelled =>
        ⟨spelled.numeric, ?_⟩⟩
      · exact congrArg Nat.cast read.2
      · exact_mod_cast spelled.worth

/-- Digits do not start with a sign. -/
theorem SpellsNatural.unsigned {characters : List Char} {number : Int}
    (spelled : SpellsNatural characters number) (rest : List Char) :
    characters ≠ '-' :: rest ∧ characters ≠ '+' :: rest := by
  constructor
  · rintro rfl
    exact absurd (spelled.numeric _ List.mem_cons_self) (by decide)
  · rintro rfl
    exact absurd (spelled.numeric _ List.mem_cons_self) (by decide)

/-- A reading of digits to which a sign is given. -/
theorem read_signed_iff {characters : List Char} {sign : Int → Int} {number : Int} :
    ((do return (← readNatural characters : Int)) : Option Int).map sign = some number ↔
      ∃ value, SpellsNatural characters value ∧ sign value = number := by
  simp only [Option.map_eq_some_iff, Option.bind_eq_bind, Option.bind_eq_some_iff, read_natural_iff,
    Option.pure_def, Option.some.injEq]
  constructor
  · rintro ⟨_, ⟨value, spelled, rfl⟩, rfl⟩
    exact ⟨_, spelled, rfl⟩
  · rintro ⟨value, spelled, rfl⟩
    obtain rfl := spelled.worth
    exact ⟨_, ⟨_, spelled, rfl⟩, rfl⟩

/-- Reading accepts what is spelled so, and nothing else. -/
theorem read_integer_iff {characters : List Char} {number : Int} :
    readInteger characters = some number ↔ SpellsInteger characters number := by
  constructor
  · intro read
    unfold readInteger at read
    split at read
    · obtain ⟨value, spelled, rfl⟩ := read_signed_iff.mp read
      exact .minus spelled
    · obtain ⟨value, spelled, rfl⟩ := read_signed_iff.mp read
      exact .plus spelled
    · obtain ⟨value, spelled, rfl⟩ := read_signed_iff.mp read
      exact .plain spelled
  · intro spelling
    cases spelling with
    | plus spelled => exact read_signed_iff.mpr ⟨number, spelled, rfl⟩
    | minus spelled => exact read_signed_iff.mpr ⟨_, spelled, rfl⟩
    | plain spelled =>
        unfold readInteger
        split
        · exact absurd rfl (spelled.unsigned _).1
        · exact absurd rfl (spelled.unsigned _).2
        · exact read_signed_iff.mpr ⟨number, spelled, rfl⟩

end QueryExec.Text
