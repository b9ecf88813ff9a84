import QueryExec.Text.Hex
import QueryExec.Text.Numeral

/-!
What is written can be told apart: a run of digits determines its number, the digits of a byte
string determine its bytes, and the bytes of a text determine the text.
-/

namespace QueryExec.Text

/-- What a run of digits is worth after `before` was read. -/
def numeralFrom (before : Nat) (characters : List Char) : Nat :=
  characters.foldl (fun value character => value * 10 + (character.toNat - '0'.toNat)) before

def numeral (characters : List Char) : Nat :=
  numeralFrom 0 characters

/-- One of the ten ASCII digits. -/
def Numeric (character : Char) : Prop :=
  48 ≤ character.toNat ∧ character.toNat ≤ 57
deriving Decidable

theorem digit_to_nat {value : Nat} (below : value < 10) : (digit value).toNat = 48 + value := by
  unfold digit
  have zero : '0'.toNat = 48 := rfl
  have valid : (48 + value).isValidChar := Or.inl (by omega)
  rw [zero, Char.ofNat, dif_pos valid]
  rfl

theorem numeral_from_append (before : Nat) (first second : List Char) :
    numeralFrom before (first ++ second) = numeralFrom (numeralFrom before first) second :=
  List.foldl_append

theorem numeral_append_digit (characters : List Char) {value : Nat} (below : value < 10) :
    numeral (characters ++ [digit value]) = numeral characters * 10 + value := by
  have zero : '0'.toNat = 48 := rfl
  rw [numeral, numeral_from_append]
  change numeral characters * 10 + ((digit value).toNat - '0'.toNat) = _
  rw [digit_to_nat below, zero]
  omega

theorem numeral_digits (number : Nat) : numeral (digits number) = number := by
  induction number using digits.induct with
  | case1 number below =>
      rw [digits, if_pos below]
      exact (numeral_append_digit [] below).trans (by simp [numeral, numeralFrom])
  | case2 number large smaller =>
      rw [digits, if_neg large, numeral_append_digit _ (Nat.mod_lt _ (by decide)), smaller]
      omega

theorem numeric_digits (number : Nat) : ∀ character ∈ digits number, Numeric character := by
  have single : ∀ value, value < 10 → Numeric (digit value) := by
    intro value below
    rw [Numeric, digit_to_nat below]
    omega
  induction number using digits.induct with
  | case1 number below =>
      rw [digits, if_pos below]
      simpa using single number below
  | case2 number large smaller =>
      rw [digits, if_neg large]
      intro character member
      rcases List.mem_append.mp member with earlier | last
      · exact smaller character earlier
      · rw [List.mem_singleton.mp last]
        exact single _ (Nat.mod_lt _ (by decide))

theorem digits_ne_nil (number : Nat) : digits number ≠ [] := by
  rw [digits]
  split <;> simp

theorem natural_text_injective {first second : Nat}
    (same : writeNatural first = writeNatural second) : first = second := by
  rw [← numeral_digits first, ← numeral_digits second, String.ofList_injective same]

/-- Digits do not start with a sign. -/
theorem digits_unsigned (number : Nat) (rest : List Char) : digits number ≠ '-' :: rest := by
  intro same
  have member : '-' ∈ digits number := same ▸ List.mem_cons_self
  exact absurd (numeric_digits number _ member).1 (by decide)

theorem integer_text_injective {first second : Int}
    (same : writeInteger first = writeInteger second) : first = second := by
  have signed : ∀ number, ("-" ++ writeNatural number) = String.ofList ('-' :: digits number) := by
    intro number
    exact (@String.ofList_append ['-'] (digits number)).symm
  cases first with
  | ofNat left =>
      cases second with
      | ofNat right => rw [natural_text_injective same]
      | negSucc right =>
          have both := same.trans (signed (right + 1))
          exact absurd (String.ofList_injective both) (digits_unsigned left _)
  | negSucc left =>
      cases second with
      | ofNat right =>
          have both := same.symm.trans (signed (left + 1))
          exact absurd (String.ofList_injective both) (digits_unsigned right _)
      | negSucc right =>
          have both := ((signed (left + 1)).symm.trans same).trans (signed (right + 1))
          have rest := (List.cons.inj (String.ofList_injective both)).2
          have equal := congrArg numeral rest
          rw [numeral_digits, numeral_digits] at equal
          rw [Nat.succ.inj equal]

theorem read_hex_digit {value : Nat} (below : value < 16) :
    hexDigit? (hexDigit value) = some value := by
  have each : ∀ value : Fin 16, hexDigit? (hexDigit value.val) = some value.val := by decide
  exact each ⟨value, below⟩

/-- The digits of a byte string are read as that string. -/
theorem read_hex_of_bytes (bytes : List UInt8) : readHexBytes (hexOfBytes bytes) = some bytes := by
  induction bytes with
  | nil => rfl
  | cons byte rest later =>
      have bounded := byte.toNat_lt
      have upper : hexDigit? (hexDigit (byte.toNat / 16)) = some (byte.toNat / 16) :=
        read_hex_digit (by omega)
      have lower : hexDigit? (hexDigit (byte.toNat % 16)) = some (byte.toNat % 16) :=
        read_hex_digit (by omega)
      have whole : UInt8.ofNat (byte.toNat / 16 * 16 + byte.toNat % 16) = byte := by
        rw [Nat.div_add_mod', UInt8.ofNat_toNat]
      change readHexBytes (hexDigit (byte.toNat / 16) :: hexDigit (byte.toNat % 16) ::
        hexOfBytes rest) = some (byte :: rest)
      simp only [readHexBytes, upper, lower, later, whole, Option.bind_eq_bind, Option.bind_some]

theorem hex_bytes_injective {first second : List UInt8}
    (same : hexOfBytes first = hexOfBytes second) : first = second := by
  have read := read_hex_of_bytes first
  rw [same, read_hex_of_bytes second] at read
  exact (Option.some.inj read).symm

theorem bytes_from (bytes : ByteArray) (index : Nat) (before : List UInt8) :
    ByteArray.toList.loop bytes index before =
      before.reverse ++ bytes.data.toList.drop index := by
  induction index, before using ByteArray.toList.loop.induct bytes with
  | case1 index before inside later =>
      have bounded : index < bytes.data.toList.length := inside
      have byte : bytes.get! index = bytes.data.toList[index] :=
        getElem!_pos bytes.data index inside
      rw [ByteArray.toList.loop, if_pos inside, later, List.drop_eq_getElem_cons bounded, byte,
        List.reverse_cons, List.append_assoc, List.singleton_append]
  | case2 index before outside =>
      have ended : bytes.data.toList.length ≤ index := Nat.not_lt.mp outside
      rw [ByteArray.toList.loop, if_neg outside, List.drop_eq_nil_of_le ended, List.append_nil]

theorem utf8_injective {first second : String}
    (same : first.toUTF8.toList = second.toUTF8.toList) : first = second := by
  have listed : ∀ bytes : ByteArray, bytes.toList = bytes.data.toList := fun bytes =>
    bytes_from bytes 0 []
  rw [listed, listed] at same
  exact String.toByteArray_inj.mp (ByteArray.ext (Array.toList_inj.mp same))

end QueryExec.Text
