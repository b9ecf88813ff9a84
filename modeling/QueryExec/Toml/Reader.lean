import QueryExec.Floating.Text
import QueryExec.Text.Hex
import QueryExec.Whole

/-!
Reading of the pieces of a TOML document: blanks, comments, keys, strings, numbers, dates and
nested values. A reader takes characters from the front and fails on text that does not conform.
Values that no setting can have are read for their form only.
-/

namespace QueryExec.Toml

inductive Value
  | text (value : String)
  | integer (value : Int)
  | boolean (value : Bool)
  | floating
  | moment
  | array (items : List Value)
  | inline (entries : List (List String × Value))

abbrev Reader (result : Type) : Type := StateT (List Char) Option result

namespace Reader

variable {result : Type}

def peek : Reader (Option Char) :=
  return (← get).head?

def takeIf (accepted : Char → Bool) : Reader Char := do
  match ← get with
  | first :: rest => if accepted first then set rest; pure first else failure
  | [] => failure

def expect (wanted : Char) : Reader Unit := do
  let _ ← takeIf (· == wanted)

def expectAll (wanted : List Char) : Reader Unit :=
  wanted.forM expect

def takeWhile (accepted : Char → Bool) : Reader (List Char) := do
  let input ← get
  set (input.dropWhile accepted)
  pure (input.takeWhile accepted)

/-- Repeats a reader until it fails; at most so many times. -/
def many (reader : Reader result) : Nat → Reader (List result)
  | 0 => pure []
  | bound + 1 => do
      match ← optional reader with
      | some first => return first :: (← many reader bound)
      | none => pure []

/-- A bound on repetitions of readers that take something. -/
def bound : Reader Nat :=
  return (← get).length + 1

end Reader

open Reader

def isSpace (character : Char) : Bool :=
  character == ' ' || character == '\t'

def spaces : Reader Unit := do
  let _ ← takeWhile isSpace

def lineBreak : Reader Unit :=
  expect '\n' <|> expectAll ['\r', '\n']

def endOfLine : Reader Unit := do
  if (← get).isEmpty then pure () else lineBreak

/-- Characters that may stand in a comment or between quotes. -/
def isPrintable (character : Char) : Bool :=
  character == '\t' || (0x20 ≤ character.toNat && character.toNat != 0x7F)

def comment : Reader Unit := do
  expect '#'
  let _ ← takeWhile isPrintable

/-- Blanks and an optional comment up to the end of the line. -/
def restOfLine : Reader Unit := do
  spaces
  let _ ← optional comment
  endOfLine

/-- Blanks, line breaks and comments between the items of an array. -/
def filler : Reader Unit := do
  let piece := discard (takeIf isSpace) <|> lineBreak <|> (do comment; lineBreak)
  let _ ← many piece (← bound)

def hexCode : Nat → Nat → Reader Nat
  | 0, before => pure before
  | count + 1, before => do
      let character ← takeIf fun candidate => (Text.hexDigit? candidate).isSome
      hexCode count (before * 16 + (Text.hexDigit? character).getD 0)

def scalar (digits : Nat) : Reader Char := do
  let code ← hexCode digits 0
  if code.isValidChar then pure (Char.ofNat code) else failure

def quote : Char := Char.ofNat 0x22

def apostrophe : Char := Char.ofNat 0x27

/-- The characters that one letter after a backslash stands for. -/
def shortEscapes : List (Char × Char) :=
  [('b', '\x08'), ('f', '\x0c'), ('n', '\n'), ('r', '\r'), ('t', '\t'), (quote, quote),
    ('\\', '\\')]

/-- What follows a backslash. -/
def escaped : Reader Char := do
  let letter ← takeIf fun _ => true
  if letter = 'u' then scalar 4
  else if letter = 'U' then scalar 8
  else
    match shortEscapes.lookup letter with
    | some character => pure character
    | none => failure

def basicCharacter : Reader Char :=
  (do expect '\\'; escaped) <|>
    takeIf fun candidate => isPrintable candidate && candidate != quote && candidate != '\\'

def basicText : Reader String := do
  expect quote
  let characters ← many basicCharacter (← bound)
  expect quote
  pure (String.ofList characters)

def literalText : Reader String := do
  expect apostrophe
  let characters ← takeWhile fun candidate => isPrintable candidate && candidate != apostrophe
  expect apostrophe
  pure (String.ofList characters)

/-- A backslash at the end of a line joins it with the next text. -/
def joinedLines : Reader (List Char) := do
  expect '\\'
  spaces
  lineBreak
  let _ ← many (discard (takeIf isSpace) <|> lineBreak) (← bound)
  pure []

def brokenLine : Reader (List Char) := do
  lineBreak
  pure ['\n']

/-- One or two quotes that do not end the text. -/
def innerQuotes (mark : Char) : Reader (List Char) := do
  let quotes := (← get).takeWhile (· == mark)
  match quotes.length with
  | 1 => do expect mark; pure [mark]
  | 2 => do expectAll [mark, mark]; pure [mark, mark]
  | _ => failure

/-- The end of a text of several lines; up to two quotes before it belong to the text. -/
def closingQuotes (mark : Char) : Reader (List Char) := do
  let quotes ← takeWhile (· == mark)
  if 3 ≤ quotes.length ∧ quotes.length ≤ 5 then pure (quotes.drop 3) else failure

def multiText (mark : Char) (piece : Reader (List Char)) : Reader String := do
  expectAll [mark, mark, mark]
  let _ ← optional lineBreak
  let pieces ← many (piece <|> brokenLine <|> innerQuotes mark) (← bound)
  let ending ← closingQuotes mark
  pure (String.ofList (pieces.flatten ++ ending))

def multiBasicText : Reader String :=
  multiText quote (joinedLines <|> List.singleton <$> basicCharacter)

def multiLiteralText : Reader String :=
  multiText apostrophe
    (List.singleton <$> takeIf fun candidate => isPrintable candidate && candidate != apostrophe)

def anyText : Reader String :=
  multiBasicText <|> multiLiteralText <|> basicText <|> literalText

def isBareKey (character : Char) : Bool :=
  character.isAlphanum || character == '-' || character == '_'

def simpleKey : Reader String :=
  basicText <|> literalText <|> do
    let characters ← takeWhile isBareKey
    if characters.isEmpty then failure else pure (String.ofList characters)

/-- How deep keys and values may nest. -/
def depthLimit : Nat := 80

/-- Simple keys joined by points. -/
def dottedKey : Reader (List String) := do
  let part := do
    spaces
    let key ← simpleKey
    spaces
    pure key
  let first ← part
  let rest ← many (do expect '.'; part) (← bound)
  if rest.length + 1 < depthLimit then pure (first :: rest) else failure

def isDigit (character : Char) : Bool :=
  character.isDigit

/-- Digits in which single underscores may stand between two digits. -/
def groupedDigits (accepted : Char → Bool) : Reader (List Char) := do
  let first ← takeIf accepted
  let rest ← many (do
    let _ ← optional (expect '_')
    takeIf accepted) (← bound)
  pure (first :: rest)

def sign : Reader (Option Char) :=
  optional (takeIf fun candidate => candidate == '+' || candidate == '-')

/-- A decimal number without leading zeros. -/
def plainDigits : Reader (List Char) := do
  if (← peek) = some '0' then
    expect '0'
    pure ['0']
  else groupedDigits isDigit

def decimalInteger : Reader Int := do
  let mark ← sign
  let number ← (Text.readNatural (← plainDigits) : Option Nat)
  pure (if mark = some '-' then -(number : Int) else number)

def radixInteger (letter : Char) (radix : Nat) : Reader Int := do
  expectAll ['0', letter]
  let digits ← groupedDigits fun candidate =>
    (Text.hexDigit? candidate).any (· < radix)
  pure (digits.foldl (fun before candidate =>
    before * radix + (Text.hexDigit? candidate).getD 0) 0 : Nat)

/-- Integers have 64 bits. -/
def integer : Reader Value := do
  let number ←
    radixInteger 'x' 16 <|> radixInteger 'o' 8 <|> radixInteger 'b' 2 <|> decimalInteger
  if Width.bigint.lowest ≤ number ∧ number ≤ Width.bigint.highest then pure (.integer number)
  else failure

def exponent : Reader (List Char) := do
  let _ ← takeIf fun candidate => candidate == 'e' || candidate == 'E'
  let mark ← sign
  let digits ← groupedDigits isDigit
  pure ('e' :: (mark.toList ++ digits))

def fraction : Reader (List Char) := do
  expect '.'
  return '.' :: (← groupedDigits isDigit)

/-- A number with a fraction, an exponent or both; an overflow to positive infinity is refused. -/
def finiteFloat : Reader Value := do
  let mark ← sign
  let whole ← plainDigits
  let rest ← exponent <|> do
    let digits ← fraction
    return digits ++ (← optional exponent).getD []
  let number ← (Floating.read (mark.toList ++ whole ++ rest) : Option (Floating .binary64))
  if number = Floating.infinite false then failure else pure .floating

def specialFloat : Reader Value := do
  let _ ← sign
  expectAll ['i', 'n', 'f'] <|> expectAll ['n', 'a', 'n']
  pure .floating

/-- A number of so many digits in a range. -/
def fixedNumber (digits least greatest : Nat) : Reader Nat := do
  let characters := (← get).take digits
  let number ← (Text.readNatural characters : Option Nat)
  set ((← get).drop digits)
  if characters.length = digits ∧ least ≤ number ∧ number ≤ greatest then pure number
  else failure

def daysIn (year month : Nat) : Nat :=
  if month = 2 then
    if year % 4 = 0 ∧ (year % 100 ≠ 0 ∨ year % 400 = 0) then 29 else 28
  else if month ∈ [4, 6, 9, 11] then 30
  else 31

def date : Reader Unit := do
  let year ← fixedNumber 4 0 9999
  expect '-'
  let month ← fixedNumber 2 1 12
  expect '-'
  let _ ← fixedNumber 2 1 (daysIn year month)

def time : Reader Unit := do
  let _ ← fixedNumber 2 0 23
  expect ':'
  let _ ← fixedNumber 2 0 59
  expect ':'
  let _ ← fixedNumber 2 0 60
  let _ ← optional do
    expect '.'
    let digits ← takeWhile isDigit
    if digits.isEmpty then failure

def offset : Reader Unit :=
  discard (takeIf fun candidate => candidate == 'Z' || candidate == 'z') <|> do
    let _ ← takeIf fun candidate => candidate == '+' || candidate == '-'
    let _ ← fixedNumber 2 0 23
    expect ':'
    let _ ← fixedNumber 2 0 59

def dateTime : Reader Unit := do
  date
  let _ ← optional do
    let _ ← takeIf fun candidate => candidate == 'T' || candidate == 't' || candidate == ' '
    time
    let _ ← optional offset

def moment : Reader Value := do
  dateTime <|> time
  pure .moment

def truth : Reader Value :=
  (do expectAll ['t', 'r', 'u', 'e']; pure (.boolean true)) <|>
    do expectAll ['f', 'a', 'l', 's', 'e']; pure (.boolean false)

/-- Items separated by commas; a comma after the last item is allowed where `trailing` holds. -/
def separated {result : Type} (item : Reader result) (trailing : Bool) : Reader (List result) := do
  match ← optional item with
  | none => pure []
  | some first => do
      let rest ← many (do expect ','; item) (← bound)
      if trailing then
        let _ ← optional (expect ',')
      pure (first :: rest)

/-- A value nested at most so many levels deep. -/
def value : (depth : Nat) → Reader Value
  | 0 => failure
  | depth + 1 => do
      match ← peek with
      | some '[' => do
          if depth = 0 then failure
          expect '['
          let items ← separated (do
            filler
            let item ← value depth
            filler
            pure item) true
          filler
          expect ']'
          pure (.array items)
      | some '\x7b' => do
          if depth = 0 then failure
          expect '\x7b'
          spaces
          let entries ← separated (do
            let key ← dottedKey
            expect '='
            spaces
            let item ← value depth
            spaces
            pure (key, item)) false
          spaces
          expect '\x7d'
          pure (.inline entries)
      | _ =>
          Value.text <$> anyText <|> moment <|> finiteFloat <|> specialFloat <|> truth <|> integer

end QueryExec.Toml
