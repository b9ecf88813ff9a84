/-!
Whole numbers of a fixed width. Nothing wraps: a number is of a width when it lies in its range,
and only the bit patterns of the bit operators reduce a number into a range.
-/

namespace QueryExec

inductive Width
  | smallint
  | integer
  | bigint
  | ubigint
deriving DecidableEq, Repr

namespace Width

def lowest : Width → Int
  | smallint => -32768
  | integer => -2147483648
  | bigint => -9223372036854775808
  | ubigint => 0

def highest : Width → Int
  | smallint => 32767
  | integer => 2147483647
  | bigint => 9223372036854775807
  | ubigint => 18446744073709551615

end Width

structure Whole (width : Width) where
  value : Int
  lowest_le : width.lowest ≤ value
  le_highest : value ≤ width.highest
deriving DecidableEq

namespace Whole

variable {width : Width}

instance : Repr (Whole width) := ⟨fun number level => reprPrec number.value level⟩

@[ext]
theorem same_value {left right : Whole width} (same : left.value = right.value) : left = right := by
  cases left
  cases right
  cases same
  rfl

/-- The number in this width, if it fits. -/
def ofInt? (width : Width) (number : Int) : Option (Whole width) :=
  if bounds : width.lowest ≤ number ∧ number ≤ width.highest then
    some ⟨number, bounds.1, bounds.2⟩
  else none

theorem of_int_value (number : Whole width) : ofInt? width number.value = some number := by
  simp [ofInt?, number.lowest_le, number.le_highest]

theorem of_int_some_iff (number : Int) (whole : Whole width) :
    ofInt? width number = some whole ↔ number = whole.value := by
  constructor
  · intro found
    unfold ofInt? at found
    split at found
    · cases found
      rfl
    · cases found
  · rintro rfl
    exact of_int_value whole

theorem of_int_none_iff (number : Int) :
    ofInt? width number = none ↔ number < width.lowest ∨ width.highest < number := by
  unfold ofInt?
  split <;> rename_i bounds
  · simp only [reduceCtorEq, false_iff]
    omega
  · simp only [true_iff]
    omega

/-- The number of a 64-bit width that is congruent to an integer modulo `2 ^ 64`. -/
def wrapSigned (number : Int) : Whole .bigint :=
  ⟨number.bmod 18446744073709551616, by
    have bound := Int.le_bmod (x := number) (m := 18446744073709551616) (by decide)
    simp only [Width.lowest]
    omega, by
    have bound := Int.bmod_lt (x := number) (m := 18446744073709551616) (by decide)
    simp only [Width.highest]
    omega⟩

def wrapUnsigned (number : Int) : Whole .ubigint :=
  ⟨number % 18446744073709551616, by
    simp only [Width.lowest]
    omega, by
    simp only [Width.highest]
    omega⟩

end Whole

end QueryExec
