import Mathlib.Order.Defs.LinearOrder
import QueryExec.Catalog

/-!
How values of one kind compare. Apart from floating-point numbers they are in a linear order, so
the least and the greatest of several values are unique. Equality of grouping keys is equality of
what the values stand for, whatever their kind.
-/

namespace QueryExec

namespace Datum

/-- NULL or a value of the kind. -/
def Fits (kind : Kind) (value : Datum) : Prop :=
  value = .null ∨ value.kind? = some kind

/-- These values are in a linear order. -/
structure Ranked (inside : Datum → Prop) : Prop where
  total : ∀ {left right}, inside left → inside right → ∃ ordering,
    left.order? right = some ordering ∧ right.order? left = some ordering.swap
  same : ∀ {left right}, inside left → inside right → left.order? right = some .eq → left = right
  trans : ∀ {first second third}, inside first → inside second → inside third →
    first.order? second = some .lt → second.order? third = some .lt →
      first.order? third = some .lt

/-- Values that compare as what is inside them are in the order of that. -/
theorem ranked_of_compare {member : Type} (value : member → Datum)
    (compares : member → member → Ordering) [Std.TransCmp compares] [Std.LawfulEqCmp compares]
    (orders : ∀ left right, (value left).order? (value right) = some (compares left right)) :
    Ranked fun datum => ∃ one, datum = value one where
  total := by
    rintro _ _ ⟨left, rfl⟩ ⟨right, rfl⟩
    have swapped : compares right left = (compares left right).swap := Std.OrientedCmp.eq_swap
    exact ⟨_, orders left right, swapped ▸ orders right left⟩
  same := by
    rintro _ _ ⟨left, rfl⟩ ⟨right, rfl⟩ equal
    rw [orders] at equal
    rw [Std.LawfulEqCmp.compare_eq_iff_eq.mp (Option.some.inj equal)]
  trans := by
    rintro _ _ _ ⟨first, rfl⟩ ⟨second, rfl⟩ ⟨third, rfl⟩ below above
    rw [orders] at below above ⊢
    rw [Std.TransCmp.lt_trans (Option.some.inj below) (Option.some.inj above)]

instance bytes_trans : Std.TransCmp fun left right : List UInt8 => compareOfLessAndEq left right :=
  Std.TransOrd.compareOfLessAndEq_of_lt_trans_of_lt_iff
    (fun below above => List.lt_trans below above)
    (by
      intro left right
      constructor
      · exact fun below => ⟨List.lt_asymm below, fun same => List.lt_irrefl _ (same ▸ below)⟩
      · rintro ⟨notAbove, other⟩
        have cases : left < right ∨ left = right ∨ right < left :=
          Std.Trichotomous.rel_or_eq_or_rel_swap
        rcases cases with below | same | above
        · exact below
        · exact absurd same other
        · exact absurd above notAbove)

instance bytes_lawful :
    Std.LawfulEqCmp fun left right : List UInt8 => compareOfLessAndEq left right where
  compare_self := by
    intro bytes
    simp [compareOfLessAndEq, List.lt_irrefl]
  eq_of_compare := by
    intro left right equal
    unfold compareOfLessAndEq at equal
    split at equal
    · cases equal
    · split at equal
      · assumption
      · cases equal

instance whole_trans (width : Width) :
    Std.TransCmp fun left right : Whole width => compare left.value right.value where
  eq_swap := by
    intro left right
    have swapped : compare left.value right.value = (compare right.value left.value).swap :=
      Std.OrientedCmp.eq_swap
    exact swapped
  isLE_trans := by
    intro first second third
    have trans : (compare first.value second.value).isLE →
        (compare second.value third.value).isLE → (compare first.value third.value).isLE :=
      Std.TransCmp.isLE_trans
    exact trans

instance whole_lawful (width : Width) :
    Std.LawfulEqCmp fun left right : Whole width => compare left.value right.value where
  compare_self := by
    intro number
    have same : compare number.value number.value = .eq := Std.ReflCmp.compare_self
    exact same
  eq_of_compare := fun equal => Whole.same_value (Std.LawfulEqCmp.eq_of_compare equal)

/-- Values of a kind other than the floating-point ones are in a linear order. -/
theorem ranked_of_kind {kind : Kind} (exact : kind.isFloating = false) :
    Ranked fun value => value.kind? = some kind := by
  have narrowed : ∀ {member : Type} (value : member → Datum),
      (∀ datum, datum.kind? = some kind → ∃ one, datum = value one) →
      (Ranked fun datum => ∃ one, datum = value one) →
      Ranked fun datum => datum.kind? = some kind := by
    intro member value inside ranked
    exact {
      total := fun left right => ranked.total (inside _ left) (inside _ right)
      same := fun left right => ranked.same (inside _ left) (inside _ right)
      trans := fun first second third =>
        ranked.trans (inside _ first) (inside _ second) (inside _ third) }
  cases kind with
  | boolean =>
      refine narrowed boolean ?_ (ranked_of_compare boolean compare fun _ _ => rfl)
      intro datum kind
      cases datum <;> cases kind
      exact ⟨_, rfl⟩
  | whole width =>
      refine narrowed (whole width) ?_ (ranked_of_compare (whole width)
        (fun left right => compare left.value right.value) fun _ _ => rfl)
      intro datum kind
      cases datum <;> cases kind
      exact ⟨_, rfl⟩
  | floating precision => cases exact
  | text =>
      refine narrowed text ?_ (ranked_of_compare text compare fun _ _ => rfl)
      intro datum kind
      cases datum <;> cases kind
      exact ⟨_, rfl⟩
  | bytes =>
      refine narrowed bytes ?_ (ranked_of_compare bytes
        (fun left right => compareOfLessAndEq left right) fun _ _ => rfl)
      intro datum kind
      cases datum <;> cases kind
      exact ⟨_, rfl⟩

/-- What a value stands for as a grouping key: of floating-point numbers only their place counts,
and what is not a number is all one. -/
inductive KeyClass
  | exact (value : Datum)
  | place (position : Int)
  | notNumber
deriving DecidableEq

def keyClass : Datum → KeyClass
  | floating precision value =>
      match (floating precision value).double? with
      | some number => if number.isNaN then .notNumber else .place number.position
      | none => .notNumber
  | other => .exact other

theorem order_eq_iff {format : Floating.Format} (left right : Floating format) :
    (left.isNaN && right.isNaN || some (left.order right) == some .eq) = true ↔
      (left.isNaN = true ∧ right.isNaN = true) ∨
        (left.isNaN = false ∧ right.isNaN = false ∧ left.position = right.position) := by
  have equal : ∀ first second : Int, compare first second = .eq ↔ first = second :=
    fun first second => Std.LawfulEqCmp.compare_eq_iff_eq
  cases left with
  | nan negative =>
      cases right with
      | nan other => simp [Floating.isNaN]
      | number other rank =>
          have bound := rank.isLt
          simp only [Floating.order, Floating.isNaN, Floating.totalPosition]
          cases negative <;> cases other <;> simp [equal] <;> omega
  | number negative rank =>
      cases right with
      | nan other =>
          have bound := rank.isLt
          simp only [Floating.order, Floating.isNaN, Floating.totalPosition]
          cases negative <;> cases other <;> simp [equal] <;> omega
      | number other rank' => simp [Floating.order, Floating.isNaN, equal]

theorem group_equal_floating {precision : Precision} (left right : Floating precision.format) :
    (floating precision left).groupEqual (floating precision right) = true ↔
      (floating precision left).keyClass = (floating precision right).keyClass := by
  have classes : ∀ first second : Floating .binary64,
      (first.isNaN && second.isNaN || some (first.order second) == some .eq) = true ↔
        (if first.isNaN then KeyClass.notNumber else .place first.position) =
          if second.isNaN then .notNumber else .place second.position := by
    intro first second
    rw [order_eq_iff]
    cases first.isNaN <;> cases second.isNaN <;> simp
  cases precision with
  | real => exact classes left.convert right.convert
  | double => exact classes left right

theorem of_int_is_number {format : Floating.Format} (number : Int) :
    (Floating.ofInt number : Floating format).isNaN = false := by
  unfold Floating.ofInt Floating.ofScaled
  split <;> rfl

theorem group_equal_whole {width : Width} (left right : Whole width) :
    (whole width left).groupEqual (whole width right) = true ↔ left = right := by
  have notNaN : bothNaN (whole width left) (whole width right) = false := by
    unfold bothNaN
    simp [double?, of_int_is_number]
  have equal : compare left.value right.value = .eq ↔ left.value = right.value :=
    Std.LawfulEqCmp.compare_eq_iff_eq
  change (bothNaN (whole width left) (whole width right) ||
    some (compare left.value right.value) == some .eq) = true ↔ _
  rw [notNaN, Bool.false_or]
  simp only [beq_iff_eq, Option.some.injEq, equal]
  exact ⟨Whole.same_value, congrArg Whole.value⟩

/-- NULL is the same key as NULL and as nothing else. -/
theorem null_equal_iff (value : Datum) :
    null.groupEqual value = true ↔ null.keyClass = value.keyClass := by
  cases value with
  | floating precision number =>
      have other : (floating precision number).keyClass ≠ .exact null := by
        change (match (floating precision number).double? with
          | some number => if number.isNaN then KeyClass.notNumber else .place number.position
          | none => .notNumber) ≠ _
        split
        · split <;> simp
        · simp
      simpa [groupEqual, keyClass] using Ne.symm other
  | _ => simp [groupEqual, keyClass]

theorem group_equal_null (value : Datum) : value.groupEqual null = null.groupEqual value := by
  cases value <;> rfl

/-- Values of one kind are equal keys exactly when they stand for the same. -/
theorem group_equal_iff {kind : Kind} {left right : Datum} (ofLeft : left.kind? = some kind)
    (ofRight : right.kind? = some kind) :
    left.groupEqual right = true ↔ left.keyClass = right.keyClass := by
  cases left <;> cases ofLeft <;> cases right <;> cases ofRight
  · simp [groupEqual, bothNaN, double?, order?, keyClass]
  · rw [group_equal_whole]
    simp [keyClass]
  · exact group_equal_floating _ _
  · simp [groupEqual, bothNaN, double?, order?, keyClass]
  · have equal : ∀ first second : List UInt8,
        compareOfLessAndEq first second = .eq ↔ first = second :=
      fun _ _ => bytes_lawful.compare_eq_iff_eq
    simp [groupEqual, bothNaN, double?, order?, keyClass, equal]

/-- So are NULL and values of one kind. -/
theorem group_equal_fits {kind : Kind} {left right : Datum} (fitsLeft : left.Fits kind)
    (fitsRight : right.Fits kind) :
    left.groupEqual right = true ↔ left.keyClass = right.keyClass := by
  rcases fitsLeft with rfl | ofLeft
  · exact null_equal_iff right
  · rcases fitsRight with rfl | ofRight
    · rw [group_equal_null, null_equal_iff]
      exact eq_comm
    · exact group_equal_iff ofLeft ofRight

end Datum

namespace Catalog

variable {kind : Kind} {value left right : Datum}

theorem convert_fitting (catalog : Catalog) (fits : value.Fits kind) :
    catalog.convert value kind = .ok value := by
  rcases fits with rfl | ofKind
  · rfl
  · unfold convert
    rw [ofKind]
    exact if_pos rfl

/-- Keys of a column are equal exactly when they stand for the same. -/
theorem keys_equal_iff (catalog : Catalog) (fitsLeft : left.Fits kind)
    (fitsRight : right.Fits kind) :
    catalog.keysEqual kind left right = true ↔ left.keyClass = right.keyClass := by
  have compared : catalog.keysEqual kind left right = left.groupEqual right := by
    unfold keysEqual
    rw [catalog.convert_fitting fitsLeft, catalog.convert_fitting fitsRight]
    exact ite_self _
  rw [compared]
  exact Datum.group_equal_fits fitsLeft fitsRight

end Catalog

end QueryExec
