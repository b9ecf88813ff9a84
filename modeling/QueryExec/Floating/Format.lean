/-!
Binary interchange formats and rounding. A magnitude is known by its rank: the number of
smaller magnitudes of its format, which is also its bit pattern without the sign. The rank one
past the greatest finite magnitude stands for infinity, so rounding is one formula for
subnormal, normal and overflowing values.
-/

namespace QueryExec.Floating

/-- The power `2 ^ exponent`. -/
def twoTo (exponent : Nat) : Nat :=
  Nat.pow 2 exponent

/-- The power `10 ^ exponent`. -/
def tenTo (exponent : Nat) : Nat :=
  Nat.pow 10 exponent

structure Format where
  fractionBits : Nat
  exponentBits : Nat
deriving DecidableEq, Repr

/-- The magnitude `significand * 2 ^ exponent`. -/
structure Dyadic where
  significand : Nat
  exponent : Int
deriving DecidableEq, Repr

namespace Format

def binary32 : Format := ⟨23, 8⟩

def binary64 : Format := ⟨52, 11⟩

/-- The rank of infinity. -/
def infinityRank (format : Format) : Nat :=
  (twoTo format.exponentBits - 1) * twoTo format.fractionBits

/-- The exponent of the unit in the last place of a subnormal magnitude. -/
def lowestExponent (format : Format) : Int :=
  2 - (twoTo (format.exponentBits - 1) : Int) - format.fractionBits

/-- The magnitude of a finite rank. -/
def magnitude (format : Format) (rank : Nat) : Dyadic :=
  let binade := rank / twoTo format.fractionBits
  let fraction := rank % twoTo format.fractionBits
  if binade = 0 then ⟨fraction, format.lowestExponent⟩
  else ⟨fraction + twoTo format.fractionBits, format.lowestExponent + (binade - 1 : Nat)⟩

end Format

/-- A quotient of natural numbers. -/
structure Ratio where
  numerator : Nat
  denominator : Nat
deriving DecidableEq, Repr

/-- The quotient divided by `2 ^ exponent`. -/
def Ratio.scaleDown (ratio : Ratio) (exponent : Int) : Ratio :=
  if 0 ≤ exponent then ⟨ratio.numerator, ratio.denominator * twoTo exponent.toNat⟩
  else ⟨ratio.numerator * twoTo (-exponent).toNat, ratio.denominator⟩

/-- The nearest whole number; a tie goes to the even neighbour. -/
def Ratio.roundEven (ratio : Ratio) : Nat :=
  let quotient := ratio.numerator / ratio.denominator
  let remainder := ratio.numerator % ratio.denominator
  if 2 * remainder < ratio.denominator then quotient
  else if ratio.denominator < 2 * remainder then quotient + 1
  else quotient + quotient % 2

/-- The greatest `e` with `2 ^ e` at most the quotient, which is not zero. -/
def Ratio.binaryExponent (ratio : Ratio) : Int :=
  let estimate : Int := (ratio.numerator.log2 : Int) - ratio.denominator.log2
  let scaled := ratio.scaleDown estimate
  if scaled.numerator < scaled.denominator then estimate - 1 else estimate

def Dyadic.ratio (dyadic : Dyadic) : Ratio :=
  Ratio.scaleDown ⟨dyadic.significand, 1⟩ (-dyadic.exponent)

/-- The rank of the magnitude nearest to a quotient; a tie goes to the even rank. -/
def Format.nearest (format : Format) (ratio : Ratio) : Nat :=
  if ratio.numerator = 0 then 0
  else
    let exponent := max format.lowestExponent (ratio.binaryExponent - format.fractionBits)
    let significand := (ratio.scaleDown exponent).roundEven
    min format.infinityRank
      ((exponent - format.lowestExponent).toNat * twoTo format.fractionBits + significand)

theorem nearest_le_infinity_rank (format : Format) (ratio : Ratio) :
    format.nearest ratio ≤ format.infinityRank := by
  unfold Format.nearest
  split
  · exact Nat.zero_le _
  · exact Nat.min_le_left _ _

end QueryExec.Floating
