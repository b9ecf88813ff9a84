/-!
Hexadecimal text: two lower-case digits for a byte, and fixed-width words.
-/

namespace QueryExec.Text

def hexDigit (value : Nat) : Char :=
  if value < 10 then Char.ofNat ('0'.toNat + value) else Char.ofNat ('a'.toNat + (value - 10))

def hexDigit? (character : Char) : Option Nat :=
  if '0' ≤ character ∧ character ≤ '9' then some (character.toNat - '0'.toNat)
  else if 'a' ≤ character ∧ character ≤ 'f' then some (character.toNat - 'a'.toNat + 10)
  else if 'A' ≤ character ∧ character ≤ 'F' then some (character.toNat - 'A'.toNat + 10)
  else none

def hexOfByte (byte : UInt8) : List Char :=
  [hexDigit (byte.toNat / 16), hexDigit (byte.toNat % 16)]

def hexOfBytes (bytes : List UInt8) : List Char :=
  bytes.flatMap hexOfByte

/-- The last `width` digits of a number. -/
def hexOfNatural : Nat → Nat → List Char
  | 0, _ => []
  | width + 1, number => hexOfNatural width (number / 16) ++ [hexDigit (number % 16)]

def readHexDigits : Nat → List Char → Option Nat
  | before, [] => some before
  | before, character :: rest => do
      let value ← hexDigit? character
      readHexDigits (before * 16 + value) rest

/-- One byte for each pair of digits. -/
def readHexBytes : List Char → Option (List UInt8)
  | [] => some []
  | high :: low :: rest => do
      let upper ← hexDigit? high
      let lower ← hexDigit? low
      let bytes ← readHexBytes rest
      some (UInt8.ofNat (upper * 16 + lower) :: bytes)
  | [_] => none

end QueryExec.Text
