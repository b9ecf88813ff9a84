/-!
Decimal numerals: writing of whole numbers and reading of an optional sign followed by one or
more ASCII digits. Reading a written number gives the number back.
-/

namespace QueryExec.Text

def digit (value : Nat) : Char :=
  Char.ofNat ('0'.toNat + value)

/-- The value of an ASCII digit. -/
def digit? (character : Char) : Option Nat :=
  if '0' ≤ character ∧ character ≤ '9' then some (character.toNat - '0'.toNat) else none

/-- The digits of a number, the leading one first; zero has one digit. -/
def digits (number : Nat) : List Char :=
  if number < 10 then [digit number] else digits (number / 10) ++ [digit (number % 10)]

/-- The number that a run of digits continues, when `before` was read so far. -/
def readDigits : Nat → List Char → Option Nat
  | before, [] => some before
  | before, character :: rest => do
      let value ← digit? character
      readDigits (before * 10 + value) rest

/-- One or more digits. -/
def readNatural : List Char → Option Nat
  | [] => none
  | characters => readDigits 0 characters

/-- An optional sign and one or more digits. -/
def readInteger : List Char → Option Int
  | '-' :: rest => (readNatural rest).map fun number => -(number : Int)
  | '+' :: rest => (readNatural rest).map fun number => (number : Int)
  | characters => (readNatural characters).map fun number => (number : Int)

def writeNatural (number : Nat) : String :=
  String.ofList (digits number)

def writeInteger : Int → String
  | .ofNat number => writeNatural number
  | .negSucc number => "-" ++ writeNatural (number + 1)

end QueryExec.Text
