import QueryExec.Floating.Basic
import QueryExec.Floating.Shortest
import QueryExec.Text.Numeral

/-!
Text of floating-point numbers. Writing uses the shortest digits that read back, always in
positional notation and without a point when there is no fraction. Reading accepts an optional
sign before `inf`, `infinity`, `nan` in either case, or decimal digits with an optional point
and exponent.
-/

namespace QueryExec

open Floating Text

namespace Floating

/-- Positional notation: the exponent moves the point and never appears. -/
def Decimal.positional (decimal : Decimal) : List Char :=
  let written := digits decimal.units
  if 0 ≤ decimal.exponent then written ++ List.replicate decimal.exponent.toNat '0'
  else
    let places := (-decimal.exponent).toNat
    if places < written.length then
      written.take (written.length - places) ++ '.' :: written.drop (written.length - places)
    else '0' :: '.' :: (List.replicate (places - written.length) '0' ++ written)

variable {format : Format}

def Scaled.write (format : Format) (scaled : Scaled) : List Char :=
  let unsigned :=
    if scaled.magnitude.significand = 0 then ['0']
    else (shortest format scaled.magnitude).positional
  if scaled.negative then '-' :: unsigned else unsigned

def write (source : Floating format) : String :=
  match source.view with
  | .nan _ => "NaN"
  | .infinite false => "Infinity"
  | .infinite true => "-Infinity"
  | .finite scaled => String.ofList (scaled.write format)

/-- A magnitude as it is spelled. -/
inductive Literal
  | nan
  | infinite
  | decimal (value : Decimal)
deriving DecidableEq, Repr

def isDigit (character : Char) : Bool :=
  (digit? character).isSome

/-- The exponent of a decimal: nothing, or `e` with an optional sign and digits. -/
def readExponent : List Char → Option Int
  | [] => some 0
  | mark :: rest => if mark = 'e' ∨ mark = 'E' then readInteger rest else none

/-- Digits with an optional point and exponent; at least one digit stands before or after the
point. -/
def readDecimal (characters : List Char) : Option Decimal := do
  let whole := characters.takeWhile isDigit
  let (fraction, rest) :=
    match characters.dropWhile isDigit with
    | '.' :: afterPoint => (afterPoint.takeWhile isDigit, afterPoint.dropWhile isDigit)
    | rest => ([], rest)
  let value ← readNatural (whole ++ fraction)
  let exponent ← readExponent rest
  some ⟨value, exponent - fraction.length⟩

def readLiteral (characters : List Char) : Option Literal :=
  let word := String.ofList (characters.map Char.toLower)
  if word = "nan" then some .nan
  else if word = "inf" ∨ word = "infinity" then some .infinite
  else (readDecimal characters).map .decimal

/-- The magnitude of a decimal. Beyond the powers of ten that bound every finite magnitude from
above and every positive one from below, the nearest rank is known without computing. -/
def ofDecimal (negative : Bool) (decimal : Decimal) : Floating format :=
  let extent : Int := twoTo format.exponentBits + format.fractionBits
  let top := decimal.exponent + (digits decimal.units).length
  if decimal.units = 0 ∨ top < -extent then zero negative
  else if extent < top then infinite negative
  else
    ofRatio negative
      ⟨decimal.units * tenTo decimal.exponent.toNat, tenTo (-decimal.exponent).toNat⟩

def ofLiteral (negative : Bool) : Literal → Floating format
  | .nan => nan negative
  | .infinite => infinite negative
  | .decimal value => ofDecimal negative value

/-- Reads a number, rounding it to the format. -/
def read : List Char → Option (Floating format)
  | '-' :: rest => (readLiteral rest).map (ofLiteral true)
  | '+' :: rest => (readLiteral rest).map (ofLiteral false)
  | characters => (readLiteral characters).map (ofLiteral false)

end Floating

end QueryExec
