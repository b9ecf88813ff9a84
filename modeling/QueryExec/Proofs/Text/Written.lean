import Mathlib.Data.List.Basic
import QueryExec.Proofs.Text.Spelling

/-!
Written texts. What is written as an integer spells it and has nothing to trim, the digits of a byte
string are read as that string, and a text of ASCII characters has one byte for each of them.
-/

namespace QueryExec.Text

theorem numeric_not_blank {character : Char} (numeric : Numeric character) :
    isBlank character = false := by
  obtain ⟨low, high⟩ := numeric
  simp only [isBlank, Bool.or_eq_false_iff, Bool.and_eq_false_iff, decide_eq_false_iff_not,
    beq_eq_false_iff_ne]
  omega

/-- No digit and no sign is blank. -/
theorem SpellsInteger.bare {characters : List Char} {number : Int}
    (spelled : SpellsInteger characters number) :
    ∀ character ∈ characters, isBlank character = false := by
  cases spelled with
  | plain digits => exact fun character among => numeric_not_blank (digits.numeric character among)
  | plus digits =>
      exact List.forall_mem_cons.mpr
        ⟨rfl, fun character among => numeric_not_blank (digits.numeric character among)⟩
  | minus digits =>
      exact List.forall_mem_cons.mpr
        ⟨rfl, fun character among => numeric_not_blank (digits.numeric character among)⟩

/-- There is nothing to trim where nothing is blank. -/
theorem trim_bare {characters : List Char}
    (bare : ∀ character ∈ characters, isBlank character = false) : trim characters = characters := by
  have trims : TrimsTo characters characters :=
    ⟨[], [], (List.append_nil _).symm, List.forall_mem_nil _, List.forall_mem_nil _,
      fun character first => bare character (List.mem_of_mem_head? first),
      fun character last => bare character (List.mem_of_mem_getLast? last)⟩
  exact trims.eq_trim.symm

theorem digits_spell (number : Nat) : SpellsNatural (digits number) number where
  present := digits_ne_nil number
  numeric := numeric_digits number
  worth := congrArg Nat.cast (numeral_digits number).symm

/-- The text of an integer spells it. -/
theorem write_integer_spells (number : Int) : SpellsInteger (writeInteger number).toList number := by
  have natural (number : Nat) : (writeNatural number).toList = digits number := String.toList_ofList
  cases number with
  | ofNat number =>
      rw [writeInteger, natural]
      exact .plain (digits_spell number)
  | negSucc number =>
      rw [writeInteger, String.toList_append, natural]
      exact .minus (digits_spell (number + 1))

/-- The digits of the text of a byte string, by what they are worth. -/
def hexNumerals : List Char :=
  ['0', '1', '2', '3', '4', '5', '6', '7', '8', '9', 'a', 'b', 'c', 'd', 'e', 'f']

/-- Two digits for each byte, the upper one first. -/
inductive SpellsBytes : List Char → List UInt8 → Prop
  | nil : SpellsBytes [] []
  | cons {high low : Char} {rest : List Char} {byte : UInt8} {bytes : List UInt8}
      (upper : hexNumerals[byte.toNat / 16]? = some high)
      (lower : hexNumerals[byte.toNat % 16]? = some low) (more : SpellsBytes rest bytes) :
      SpellsBytes (high :: low :: rest) (byte :: bytes)

theorem hex_numeral {value : Nat} (below : value < 16) :
    hexNumerals[value]? = some (hexDigit value) := by
  have each : ∀ value : Fin 16, hexNumerals[value.val]? = some (hexDigit value.val) := by decide
  exact each ⟨value, below⟩

theorem hex_bytes_spell (bytes : List UInt8) : SpellsBytes (hexOfBytes bytes) bytes := by
  induction bytes with
  | nil => exact .nil
  | cons byte bytes more =>
      have bounded := byte.toNat_lt
      exact .cons (hex_numeral (by omega)) (hex_numeral (by omega)) more

theorem length_hex_of_bytes (bytes : List UInt8) :
    (hexOfBytes bytes).length = 2 * bytes.length := by
  simp [hexOfBytes, hexOfByte, Nat.mul_comm]

theorem hex_bytes_ascii (bytes : List UInt8) : ∀ digit ∈ hexOfBytes bytes, digit.toNat < 128 := by
  have each : ∀ value : Fin 16, (hexDigit value.val).toNat < 128 := by decide
  intro digit among
  obtain ⟨byte, -, digits⟩ := List.mem_flatMap.mp among
  have bounded := byte.toNat_lt
  rcases List.mem_pair.mp digits with rfl | rfl
  · exact each ⟨byte.toNat / 16, by omega⟩
  · exact each ⟨byte.toNat % 16, by omega⟩

/-- The bytes of a text of ASCII characters are the codes of its characters. -/
theorem utf8_ascii {characters : List Char}
    (ascii : ∀ character ∈ characters, character.toNat < 128) :
    (String.ofList characters).toUTF8.toList =
      characters.map fun character => UInt8.ofNat character.toNat := by
  have encoded : ∀ character ∈ characters,
      String.utf8EncodeChar character = [UInt8.ofNat character.toNat] :=
    fun character among => if_pos (Nat.le_of_lt_succ (ascii character among))
  calc (String.ofList characters).toUTF8.toList
      = characters.flatMap String.utf8EncodeChar := by
        rw [String.toUTF8_eq_toByteArray, String.toByteArray_ofList]
        exact (bytes_from _ 0 []).trans List.toList_data_toByteArray
    _ = characters.flatMap fun character => [UInt8.ofNat character.toNat] :=
        List.flatMap_congr encoded
    _ = characters.map fun character => UInt8.ofNat character.toNat := List.map_eq_flatMap.symm

theorem code_of_ascii {character : Char} (ascii : character.toNat < 128) :
    (UInt8.ofNat character.toNat).toNat = character.toNat :=
  UInt8.toNat_ofNat_of_lt' (Nat.lt_trans ascii (by decide))

/-- The characters can be read from their codes. -/
theorem characters_of_codes {characters : List Char}
    (ascii : ∀ character ∈ characters, character.toNat < 128) :
    (characters.map fun character => UInt8.ofNat character.toNat).map
      (fun code => Char.ofNat code.toNat) = characters := by
  rw [List.map_map]
  refine (List.map_congr_left fun character among => ?_).trans (List.map_id _)
  exact (congrArg Char.ofNat (code_of_ascii (ascii character among))).trans (Char.ofNat_toNat _)

end QueryExec.Text
