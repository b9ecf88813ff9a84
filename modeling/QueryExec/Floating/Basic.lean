import QueryExec.Floating.Format

/-!
Floating-point numbers of a format and their exact operations: each operation forms its exact
result and rounds once. A not-a-number keeps its sign, which the total order can tell, and no
payload.
-/

namespace QueryExec

open Floating

/-- A number is a sign and the rank of its magnitude; the greatest rank is infinity. Of what is not
a number only the sign is kept: bit patterns that differ in their payload are one value here. -/
inductive Floating (format : Format)
  | nan (negative : Bool)
  | number (negative : Bool) (rank : Fin (format.infinityRank + 1))
deriving DecidableEq, Repr

namespace Floating

variable {format target : Format}

def infinite (negative : Bool) : Floating format :=
  .number negative ⟨format.infinityRank, Nat.lt_succ_self _⟩

def ofRatio (negative : Bool) (ratio : Ratio) : Floating format :=
  .number negative ⟨format.nearest ratio, Nat.lt_succ_of_le (nearest_le_infinity_rank format ratio)⟩

def zero (negative : Bool) : Floating format :=
  .number negative ⟨0, Nat.succ_pos _⟩

/-- `significand * 2 ^ exponent`; `zeroNegative` is the sign of a zero result. -/
def ofScaled (zeroNegative : Bool) (significand exponent : Int) : Floating format :=
  if significand = 0 then zero zeroNegative
  else ofRatio (significand < 0) (Dyadic.ratio ⟨significand.natAbs, exponent⟩)

def ofInt (number : Int) : Floating format :=
  ofScaled false number 0

def isNaN : Floating format → Bool
  | nan _ => true
  | number _ _ => false

def isInfinite : Floating format → Bool
  | nan _ => false
  | number _ rank => rank.val == format.infinityRank

def isFinite : Floating format → Bool
  | nan _ => false
  | number _ rank => rank.val != format.infinityRank

def isZero : Floating format → Bool
  | nan _ => false
  | number _ rank => rank.val == 0

def isNegative : Floating format → Bool
  | nan negative => negative
  | number negative _ => negative

/-- A finite number is `significand * 2 ^ exponent` with a signed significand. -/
structure Scaled where
  negative : Bool
  magnitude : Dyadic

def Scaled.significand (scaled : Scaled) : Int :=
  if scaled.negative then -(scaled.magnitude.significand : Int) else scaled.magnitude.significand

/-- What a number is, apart from how it is stored. -/
inductive View
  | nan (negative : Bool)
  | infinite (negative : Bool)
  | finite (scaled : Scaled)

def view : Floating format → View
  | nan negative => .nan negative
  | number negative rank =>
      if rank.val = format.infinityRank then .infinite negative
      else .finite ⟨negative, format.magnitude rank.val⟩

def neg : Floating format → Floating format
  | nan negative => nan (!negative)
  | number negative rank => number (!negative) rank

/-- The result of an operation that has none, such as zero times infinity. -/
def invalid : Floating format :=
  nan true

/-- Two finite numbers brought to their smaller exponent. -/
def aligned (left right : Scaled) : Int × Int × Int :=
  let exponent := min left.magnitude.exponent right.magnitude.exponent
  (left.significand * twoTo (left.magnitude.exponent - exponent).toNat,
    right.significand * twoTo (right.magnitude.exponent - exponent).toNat, exponent)

/-- The first operand that is not a number is the result. -/
def add (left right : Floating format) : Floating format :=
  match left.view, right.view with
  | .nan _, _ => left
  | _, .nan _ => right
  | .infinite first, .infinite second => if first = second then left else invalid
  | .infinite _, _ => left
  | _, .infinite _ => right
  | .finite first, .finite second =>
      let (augend, addend, exponent) := aligned first second
      ofScaled (first.negative && second.negative) (augend + addend) exponent

def sub (left right : Floating format) : Floating format :=
  match left.view, right.view with
  | .nan _, _ => left
  | _, .nan _ => right
  | _, _ => left.add right.neg

def mul (left right : Floating format) : Floating format :=
  let negative := left.isNegative != right.isNegative
  match left.view, right.view with
  | .nan _, _ => left
  | _, .nan _ => right
  | .finite first, .finite second =>
      ofScaled negative (first.significand * second.significand)
        (first.magnitude.exponent + second.magnitude.exponent)
  | _, _ => if left.isZero || right.isZero then invalid else infinite negative

def div (left right : Floating format) : Floating format :=
  let negative := left.isNegative != right.isNegative
  match left.view, right.view with
  | .nan _, _ => left
  | _, .nan _ => right
  | .infinite _, .infinite _ => invalid
  | .infinite _, .finite _ => infinite negative
  | .finite _, .infinite _ => zero negative
  | .finite first, .finite second =>
      if second.magnitude.significand = 0 then
        if first.magnitude.significand = 0 then invalid else infinite negative
      else
        ofRatio negative
          (Ratio.scaleDown ⟨first.magnitude.significand, second.magnitude.significand⟩
            (second.magnitude.exponent - first.magnitude.exponent))

/-- The remainder of division truncated toward zero; it has the sign of the dividend. -/
def rem (left right : Floating format) : Floating format :=
  match left.view, right.view with
  | .nan _, _ => left
  | _, .nan _ => right
  | .infinite _, _ => invalid
  | .finite _, .infinite _ => left
  | .finite first, .finite second =>
      if second.magnitude.significand = 0 then invalid
      else
        let (dividend, divisor, exponent) := aligned first second
        ofScaled first.negative (dividend.tmod divisor) exponent

/-- The same number rounded to another format. -/
def convert (source : Floating format) : Floating target :=
  match source.view with
  | .nan negative => nan negative
  | .infinite negative => infinite negative
  | .finite scaled => ofRatio scaled.negative scaled.magnitude.ratio

/-- The whole part of a finite number, toward zero. -/
def truncate? (source : Floating format) : Option Int :=
  match source.view with
  | .finite scaled =>
      let ratio := scaled.magnitude.ratio
      let whole : Int := (ratio.numerator / ratio.denominator : Nat)
      some (if scaled.negative then -whole else whole)
  | _ => none

/-- The nearest whole number; a tie goes away from zero. -/
def round (source : Floating format) : Floating format :=
  match source.view with
  | .finite scaled =>
      let ratio := scaled.magnitude.ratio
      let whole := (2 * ratio.numerator + ratio.denominator) / (2 * ratio.denominator)
      ofRatio scaled.negative ⟨whole, 1⟩
  | _ => source

/-- Places numbers on a line with both zeros at one point. -/
def position : Floating format → Int
  | nan negative => if negative then -(format.infinityRank + 1 : Int) else format.infinityRank + 1
  | number negative rank => if negative then -(rank.val : Int) else rank.val

/-- Places every value on a line of its own: a negative zero lies below a positive one, and
what is not a number lies beyond the infinity of its sign. -/
def totalPosition : Floating format → Int
  | nan negative => if negative then -(format.infinityRank + 2 : Int) else format.infinityRank + 1
  | number negative rank => if negative then -(rank.val + 1 : Int) else rank.val

/-- Numbers compare by value, and by the total order when one is not a number. As no payload is
kept, two of one sign that are not numbers are equal, where the total order of bit patterns would
go by their payloads. -/
def order (left right : Floating format) : Ordering :=
  if left.isNaN || right.isNaN then compare left.totalPosition right.totalPosition
  else compare left.position right.position

def signPlace (format : Format) : Nat :=
  twoTo (format.fractionBits + format.exponentBits)

def toBits : Floating format → Nat
  | nan negative =>
      (if negative then signPlace format else 0) + format.infinityRank +
        twoTo (format.fractionBits - 1)
  | number negative rank => (if negative then signPlace format else 0) + rank.val

def ofBits (bits : Nat) : Floating format :=
  let negative := signPlace format ≤ bits
  let rank := bits % signPlace format
  if bounded : rank < format.infinityRank + 1 then number negative ⟨rank, bounded⟩
  else nan negative

end Floating

end QueryExec
