import QueryExec.Floating.Format

/-!
The shortest decimal that reads back as a given finite magnitude: the coarsest power-of-ten
grid with a point in the interval of quotients that round to the magnitude, and of its points
the one nearer to the magnitude, the upper one at an exact tie.
-/

namespace QueryExec.Floating

/-- The magnitude `units * 10 ^ exponent`. -/
structure Decimal where
  units : Nat
  exponent : Int
deriving DecidableEq, Repr

/-- A magnitude and the ends of its rounding interval over one denominator. The ends belong to
the interval when `closed` holds. -/
structure Interval where
  lower : Nat
  middle : Nat
  upper : Nat
  denominator : Nat
  closed : Bool

/-- Magnitudes halfway to either neighbour round to the even significand. Below a power of two
the neighbour is nearer. -/
def Interval.around (format : Format) (magnitude : Dyadic) : Interval :=
  let below := if magnitude.significand = twoTo format.fractionBits then 1 else 2
  let significand := 4 * magnitude.significand
  let exponent := magnitude.exponent - 2
  let factor := twoTo exponent.toNat
  { lower := (significand - below) * factor
    middle := significand * factor
    upper := (significand + 2) * factor
    denominator := twoTo (-exponent).toNat
    closed := magnitude.significand % 2 = 0 }

/-- The interval in units of `10 ^ exponent`. -/
def Interval.inUnits (interval : Interval) (exponent : Int) : Interval :=
  let factor := tenTo (-exponent).toNat
  { interval with
    lower := interval.lower * factor
    middle := interval.middle * factor
    upper := interval.upper * factor
    denominator := interval.denominator * tenTo exponent.toNat }

def Interval.reaches (interval : Interval) (units : Nat) : Bool :=
  let point := units * interval.denominator
  if interval.closed then interval.lower ≤ point && point ≤ interval.upper
  else interval.lower < point && point < interval.upper

/-- The whole number in the interval that is nearest to its middle. -/
def Interval.nearestWhole? (interval : Interval) : Option Nat :=
  let low := interval.middle / interval.denominator
  let remainder := interval.middle % interval.denominator
  match interval.reaches low, interval.reaches (low + 1) with
  | true, true => some (if 2 * remainder < interval.denominator then low else low + 1)
  | true, false => some low
  | false, true => some (low + 1)
  | false, false => none

/-- Tries the grid of `10 ^ exponent` and then finer ones. -/
def Interval.search (interval : Interval) : Nat → Int → Decimal
  | 0, exponent =>
      let scaled := interval.inUnits exponent
      ⟨scaled.middle / scaled.denominator, exponent⟩
  | finer + 1, exponent =>
      match (interval.inUnits exponent).nearestWhole? with
      | some units => ⟨units, exponent⟩
      | none => interval.search finer (exponent - 1)

/-- An exponent whose power of ten exceeds the magnitude; 0.30103 is just above the decimal
logarithm of two. -/
def Dyadic.decimalBound (magnitude : Dyadic) : Int :=
  (magnitude.exponent + magnitude.significand.log2 + 1) * 30103 / 100000 + 1

/-- The shortest decimal of a magnitude that is not zero. The magnitude itself lies on the
grid of the lower of its binary exponent and zero, so the search ends there at the latest. -/
def shortest (format : Format) (magnitude : Dyadic) : Decimal :=
  let coarsest := magnitude.decimalBound
  let finest := min 0 magnitude.exponent
  (Interval.around format magnitude).search ((coarsest - finest).toNat + 1) coarsest

end QueryExec.Floating
