import QueryExec.Proofs.Floating.Text
import QueryExec.Proofs.Types.Operators

/-!
What the standard conversions do to grouping keys. A conversion that merges nothing keeps different
keys apart, and every conversion takes one key to one key, apart from the texts of zeros.
-/

namespace QueryExec

open Floating Text

/-- A column of this kind does not keep the values of the other kind apart. -/
def Kind.merges : Kind → Kind → Bool
  | .boolean, .whole _ => true
  | .boolean, .text => true
  | .whole _, .floating _ => true
  | .whole _, .text => true
  | .floating .real, .whole width => width != .smallint
  | .floating .real, .floating precision => precision == .double
  | .floating .double, .whole width => width == .bigint || width == .ubigint
  | .floating _, .text => true
  | _, _ => false

namespace Datum

/-- Zeros of one kind and of opposite signs, which are one key although their texts differ. -/
def OppositeZeros (left right : Datum) : Prop :=
  ∃ precision negative, left = .floating precision (Floating.zero negative) ∧
    right = .floating precision (Floating.zero !negative)

variable {left right : Datum} {kind : Kind}

theorem group_equal_same (kinds : left.kind? = right.kind?) :
    left.groupEqual right = true ↔ left.keyClass = right.keyClass := by
  cases ofLeft : left.kind? with
  | none =>
      rw [kind_none_iff.mp ofLeft, kind_none_iff.mp (kinds.symm.trans ofLeft)]
      exact null_equal_iff .null
  | some kind => exact group_equal_iff ofLeft (kinds.symm.trans ofLeft)

/-- What a number in double precision stands for. -/
def numberClass (number : Floating .binary64) : KeyClass :=
  if number.isNaN then .notNumber else .place number.position

theorem key_class_real (number : Floating .binary32) :
    (real number).keyClass = numberClass number.convert :=
  rfl

theorem number_class_eq {first second : Floating .binary64}
    (same : numberClass first = numberClass second) :
    (first.isNaN = true ∧ second.isNaN = true) ∨
      (first.isNaN = false ∧ second.isNaN = false ∧ first.position = second.position) := by
  unfold numberClass at same
  cases ofFirst : first.isNaN <;> cases ofSecond : second.isNaN <;>
    simp only [ofFirst, ofSecond, Bool.false_eq_true, if_true, if_false] at same
  · exact .inr ⟨rfl, rfl, KeyClass.place.inj same⟩
  · cases same
  · cases same
  · exact .inl ⟨rfl, rfl⟩

theorem zeros_of_position {format : Format} {first second : Floating format}
    (number : first.isNaN = false) (number' : second.isNaN = false)
    (same : first.position = second.position) :
    first = second ∨ ∃ negative, first = Floating.zero negative ∧
      second = Floating.zero !negative := by
  cases first with
  | nan negative => cases number
  | number negative rank =>
      cases second with
      | nan negative' => cases number'
      | number negative' rank' =>
          have zero : ∀ rank : Fin (format.infinityRank + 1), rank.val = 0 →
              rank = ⟨0, Nat.succ_pos _⟩ := fun rank none => Fin.ext none
          unfold Floating.position at same
          cases negative <;> cases negative' <;>
            simp only [Bool.false_eq_true, if_true, if_false] at same
          · exact .inl (by rw [Fin.ext (Int.ofNat_inj.mp same)])
          · rw [zero rank (by omega), zero rank' (by omega)]
            exact .inr ⟨false, rfl, rfl⟩
          · rw [zero rank (by omega), zero rank' (by omega)]
            exact .inr ⟨true, rfl, rfl⟩
          · exact .inl (by rw [Fin.ext (Int.ofNat_inj.mp (Int.neg_inj.mp same))])

/-- Floating-point numbers that are one key are no numbers, are the same, or are zeros. -/
theorem floating_of_key {precision : Precision} {first second : Floating precision.format}
    (same : (floating precision first).keyClass = (floating precision second).keyClass) :
    (first.isNaN = true ∧ second.isNaN = true) ∨ first = second ∨
      ∃ negative, first = Floating.zero negative ∧ second = Floating.zero !negative := by
  cases precision with
  | double =>
      rcases number_class_eq same with neither | ⟨number, number', place⟩
      · exact .inl neither
      · exact .inr (zeros_of_position number number' place)
  | real =>
      have widened := @number_class_eq first.convert second.convert same
      rw [convert_is_nan, convert_is_nan] at widened
      rcases widened with neither | ⟨number, number', place⟩
      · exact .inl neither
      · exact .inr (zeros_of_position number number' (widen_position number number' place))

/-- Text tells values of a kind apart as far as they are different keys. -/
theorem text_separates {source : Kind} (other : source ≠ .text) (ofLeft : left.kind? = some source)
    (ofRight : right.kind? = some source) (same : left.toText = right.toText) :
    left.keyClass = right.keyClass := by
  have numbers : ∀ {first second : Floating .binary64}, first.write = second.write →
      numberClass first = numberClass second := by
    intro first second written
    rcases write_injective written with ⟨notNumber, notNumber'⟩ | rfl
    · simp [numberClass, notNumber, notNumber']
    · rfl
  cases left <;> cases ofLeft <;> cases right <;> cases ofRight
  case boolean.refl.boolean.refl first second =>
    have truth : first = second := by
      cases first <;> cases second <;> first | rfl | exact absurd same (by decide)
    rw [truth]
  case whole.refl.whole.refl width first second =>
    rw [Whole.same_value (integer_text_injective same)]
  case floating.refl.floating.refl precision first second =>
    cases precision with
    | double => exact numbers same
    | real => exact numbers same
  case text.refl.text.refl => exact absurd rfl other
  case bytes.refl.bytes.refl first second =>
    have digits := (List.cons.inj (List.cons.inj (String.ofList_injective same)).2).2
    rw [hex_bytes_injective digits]

end Datum

namespace Conversion

variable {left right first second : Datum} {source column : Kind}

theorem fit_value {value : Datum} {width : Width} {number : Int} {result : Datum}
    (fitted : fit value width number = .ok result) :
    ∃ whole : Whole width, result = .whole width whole ∧ whole.value = number := by
  unfold fit Datum.ofWhole? at fitted
  cases made : Whole.ofInt? width number with
  | none =>
      rw [made] at fitted
      cases fitted
  | some whole =>
      rw [made] at fitted
      cases fitted
      exact ⟨whole, rfl, ((Whole.of_int_some_iff number whole).mp made).symm⟩

/-- Whole numbers that fit as the same were the same. -/
theorem fit_injective {value value' : Datum} {width : Width} {number number' : Int}
    (fitted : fit value width number = .ok first) (fitted' : fit value' width number' = .ok second)
    (same : first.keyClass = second.keyClass) : number = number' := by
  obtain ⟨whole, rfl, rfl⟩ := fit_value fitted
  obtain ⟨whole', rfl, rfl⟩ := fit_value fitted'
  cases same
  rfl

/-- Whole numbers with no more bits than a significand stay apart in double precision. -/
theorem double_separates {number number' : Int} (bounded : number.natAbs < 2 * twoTo 52)
    (bounded' : number'.natAbs < 2 * twoTo 52)
    (same : Datum.numberClass (Floating.ofInt number) =
      Datum.numberClass (Floating.ofInt number')) : number = number' := by
  rcases Datum.number_class_eq same with ⟨notNumber, -⟩ | ⟨-, -, place⟩
  · rw [Datum.of_int_is_number] at notNumber
    cases notNumber
  · have stands := of_int_stands binary64_ample bounded
    have stands' := of_int_stands binary64_ample bounded'
    exact_mod_cast (stands_position_iff stands stands').mp place

theorem real_separates {number number' : Int} (bounded : number.natAbs < 2 * twoTo 23)
    (bounded' : number'.natAbs < 2 * twoTo 23)
    (same : (Datum.real (Floating.ofInt number : Floating .binary64).convert).keyClass =
      (Datum.real (Floating.ofInt number' : Floating .binary64).convert).keyClass) :
    number = number' := by
  have narrowed : ∀ {number : Int}, number.natAbs < 2 * twoTo 23 →
      ((Floating.ofInt number : Floating .binary64).convert : Floating .binary32).Stands
        number := by
    intro number bounded
    have wide : number.natAbs < 2 * twoTo 52 :=
      bounded.trans_le (Nat.mul_le_mul_left 2 (Nat.pow_le_pow_right (by decide) (by decide)))
    refine convert_stands binary32_ample number.natAbs (of_int_stands binary64_ample wide) ?_
      bounded
    rw [zpow_zero, mul_one, Nat.cast_natAbs, Int.cast_abs]
  have widened := widen_stands (narrowed bounded)
  have widened' := widen_stands (narrowed bounded')
  rw [Datum.key_class_real, Datum.key_class_real] at same
  rcases Datum.number_class_eq same with ⟨notNumber, -⟩ | ⟨-, -, place⟩
  · rw [convert_is_nan, convert_is_nan, Datum.of_int_is_number] at notNumber
    cases notNumber
  · exact_mod_cast (stands_position_iff widened widened').mp place

theorem to_real_value {value : Datum} {number : Floating .binary64}
    (double : value.double? = some number) (worded : value.kind? ≠ some .text)
    (converted : toFloating .real value = .ok first) :
    first = .real number.convert := by
  have read : doubleOf value .real = .ok number := by
    unfold doubleOf
    cases value <;> first | exact absurd rfl worded | simp only [double]
  unfold toFloating at converted
  rw [read] at converted
  change (if _ then _ else _) = _ at converted
  split at converted <;> cases converted
  rfl

theorem to_floating_separates {precision : Precision}
    (faithful : (Kind.floating precision).merges source = false)
    (other : source ≠ .floating precision)
    (standard : isStandard source (.floating precision) = true) (ofLeft : left.kind? = some source)
    (ofRight : right.kind? = some source) (converted : toFloating precision left = .ok first)
    (converted' : toFloating precision right = .ok second)
    (same : first.keyClass = second.keyClass) : left.keyClass = right.keyClass := by
  have bits : twoTo 23 = 8388608 ∧ twoTo 52 = 4503599627370496 := ⟨by decide, by decide⟩
  cases source with
  | boolean => cases standard
  | text => cases precision <;> cases faithful
  | bytes => cases standard
  | whole width =>
      cases left <;> cases ofLeft
      cases right <;> cases ofRight
      rename_i number number'
      have low := number.lowest_le
      have high := number.le_highest
      have low' := number'.lowest_le
      have high' := number'.le_highest
      cases precision with
      | real =>
          have narrow : width = .smallint := by simpa [Kind.merges] using faithful
          subst narrow
          rw [to_real_value rfl (by simp [Datum.kind?]) converted,
            to_real_value rfl (by simp [Datum.kind?]) converted'] at same
          simp only [Width.lowest, Width.highest] at low high low' high'
          rw [Whole.same_value (real_separates (by omega) (by omega) same)]
      | double =>
          cases converted
          cases converted'
          cases width <;> first | cases faithful; done | skip
          all_goals
            simp only [Width.lowest, Width.highest] at low high low' high'
            rw [Whole.same_value (double_separates (by omega) (by omega) same)]
  | floating precision' =>
      cases left <;> cases ofLeft
      cases right <;> cases ofRight
      cases precision <;> cases precision'
      · exact absurd rfl other
      · cases faithful
      · cases converted
        cases converted'
        exact same
      · exact absurd rfl other

/-- A conversion that merges nothing keeps different keys apart. -/
theorem convert_separates (faithful : column.merges source = false) (other : source ≠ column)
    (standard : isStandard source column = true) (ofLeft : left.kind? = some source)
    (ofRight : right.kind? = some source) (converted : convert column left = .ok first)
    (converted' : convert column right = .ok second) (same : first.keyClass = second.keyClass) :
    left.keyClass = right.keyClass := by
  have present : ∀ {value : Datum}, value.kind? = some source → ¬ value.isNull = true := by
    intro value ofKind null
    rw [Datum.is_null_iff.mp null] at ofKind
    cases ofKind
  have foreign : ∀ {value : Datum}, value.kind? = some source → ¬ value.kind? = some column := by
    intro value ofKind own
    exact other (Option.some.inj (ofKind.symm.trans own))
  unfold convert at converted converted'
  rw [if_neg (present ofLeft), if_neg (foreign ofLeft)] at converted
  rw [if_neg (present ofRight), if_neg (foreign ofRight)] at converted'
  cases column with
  | text =>
      cases converted
      cases converted'
      exact Datum.text_separates other ofLeft ofRight
        (Datum.text.inj (Datum.KeyClass.exact.inj same))
  | bytes =>
      cases left <;> cases ofLeft <;> cases right <;> cases ofRight <;>
        first | cases converted; done | skip
      cases converted
      cases converted'
      rw [utf8_injective (Datum.bytes.inj (Datum.KeyClass.exact.inj same))]
  | boolean =>
      cases source with
      | boolean => exact absurd rfl other
      | whole width => cases faithful
      | floating precision => cases standard
      | text => cases faithful
      | bytes => cases standard
  | whole width =>
      cases source with
      | boolean =>
          cases left <;> cases ofLeft
          cases right <;> cases ofRight
          rename_i truth truth'
          have numbers := fit_injective converted converted' same
          cases truth <;> cases truth' <;> first | rfl | cases numbers
      | whole width' =>
          cases left <;> cases ofLeft
          cases right <;> cases ofRight
          rw [Whole.same_value (fit_injective converted converted' same)]
      | floating precision => cases faithful
      | text => cases faithful
      | bytes => cases standard
  | floating precision =>
      exact to_floating_separates faithful other standard ofLeft ofRight converted converted' same

theorem convert_zero (negative : Bool) :
    (Floating.zero negative : Floating .binary64).convert =
      (Floating.zero negative : Floating .binary32) := by
  cases negative <;> decide +kernel

theorem narrow_zero (negative : Bool) :
    toFloating .real (.double (Floating.zero negative)) = .ok (.real (Floating.zero negative)) := by
  change (if (Floating.zero negative : Floating .binary64).isFinite &&
    ((Floating.zero negative : Floating .binary64).convert : Floating .binary32).isInfinite
    then .error (outOfRange (.double (Floating.zero negative)) .real)
    else Except.ok (Datum.real (Floating.zero negative : Floating .binary64).convert)) = _
  rw [convert_zero]
  exact if_neg (by cases negative <;> decide +kernel)

theorem truncate_zero (precision : Precision) (negative : Bool) :
    (Floating.zero negative : Floating precision.format).truncate? = some 0 := by
  cases precision <;> cases negative <;> decide +kernel

theorem truncate_nan {format : Format} {number : Floating format}
    (notNumber : number.isNaN = true) : number.truncate? = none := by
  cases number with
  | nan negative => rfl
  | number negative rank => cases notNumber

section OneKey

variable {precision : Precision} {number number' : Floating precision.format}

/-- Floating-point numbers that are one key have one text, apart from zeros. -/
theorem text_respects (same : (Datum.floating precision number).keyClass =
      (Datum.floating precision number').keyClass)
    (spelled : ¬ (Datum.floating precision number).OppositeZeros (.floating precision number')) :
    (Datum.floating precision number).toText = (Datum.floating precision number').toText := by
  rcases Datum.floating_of_key same with ⟨notNumber, notNumber'⟩ | rfl | ⟨negative, zero, zero'⟩
  · cases number <;> cases notNumber
    cases number' <;> cases notNumber'
    cases precision <;> rfl
  · rfl
  · exact absurd ⟨precision, negative, by rw [zero], by rw [zero']⟩ spelled

/-- Floating-point numbers that are one key are cut to one whole number. -/
theorem to_whole_respects {width : Width} (same : (Datum.floating precision number).keyClass =
      (Datum.floating precision number').keyClass)
    (converted : toWhole width (.floating precision number) = .ok first) :
    toWhole width (.floating precision number') = .ok first := by
  rcases Datum.floating_of_key same with ⟨notNumber, -⟩ | rfl | ⟨negative, rfl, rfl⟩
  · simp only [toWhole, truncate_nan notNumber] at converted
    cases converted
  · exact converted
  · simp only [toWhole, truncate_zero] at converted ⊢
    obtain ⟨whole, rfl, zero⟩ := fit_value converted
    rw [← zero]
    simp [fit, Datum.ofWhole?, Whole.of_int_value]

theorem to_floating_respects {target : Precision} (other : precision ≠ target)
    (same : (Datum.floating precision number).keyClass =
      (Datum.floating precision number').keyClass)
    (converted : toFloating target (.floating precision number) = .ok first) :
    ∃ second, toFloating target (.floating precision number') = .ok second ∧
      first.keyClass = second.keyClass := by
  cases precision <;> cases target
  · exact absurd rfl other
  · cases converted
    exact ⟨_, rfl, same⟩
  · rcases Datum.floating_of_key same with ⟨notNumber, notNumber'⟩ | rfl | ⟨negative, rfl, rfl⟩
    · cases number <;> cases notNumber
      cases number' <;> cases notNumber'
      cases converted
      exact ⟨_, rfl, rfl⟩
    · exact ⟨first, converted, rfl⟩
    · cases (narrow_zero negative).symm.trans converted
      refine ⟨.real (Floating.zero !negative), narrow_zero !negative, ?_⟩
      cases negative <;> decide +kernel
  · exact absurd rfl other

/-- Floating-point numbers that are one key convert to one key, apart from the texts of zeros. -/
theorem floating_respects (same : (Datum.floating precision number).keyClass =
      (Datum.floating precision number').keyClass)
    (spelled : column = .text → ¬ (Datum.floating precision number).OppositeZeros
      (.floating precision number'))
    (other : Kind.floating precision ≠ column)
    (standard : isStandard (.floating precision) column = true)
    (converted : convert column (.floating precision number) = .ok first) :
    ∃ second, convert column (.floating precision number') = .ok second ∧
      first.keyClass = second.keyClass := by
  have foreign : ∀ number, ¬ (Datum.floating precision number).kind? = some column := by
    intro number own
    exact other (Option.some.inj own)
  unfold convert at converted ⊢
  rw [if_neg (by simp [Datum.isNull]), if_neg (foreign number)] at converted
  rw [if_neg (by simp [Datum.isNull]), if_neg (foreign number')]
  cases column with
  | boolean => cases standard
  | bytes => cases standard
  | text =>
      cases converted
      exact ⟨_, rfl, by rw [text_respects same (spelled rfl)]⟩
  | whole width => exact ⟨first, to_whole_respects same converted, rfl⟩
  | floating target =>
      exact to_floating_respects (fun one => other (congrArg _ one)) same converted

end OneKey

theorem listed_iff {conversion : Conversion} :
    conversion ∈ allStandard ↔ ∃ source target, standard? source target = some conversion := by
  constructor
  · intro listed
    obtain ⟨source, -, among⟩ := List.mem_flatMap.mp listed
    obtain ⟨target, -, made⟩ := List.mem_filterMap.mp among
    exact ⟨source, target, made⟩
  · rintro ⟨source, target, made⟩
    exact List.mem_flatMap.mpr ⟨source, source.mem_all,
      List.mem_filterMap.mpr ⟨target, target.mem_all, made⟩⟩

theorem standard_some {target : Kind} {conversion : Conversion}
    (made : standard? source target = some conversion) :
    conversion.source = source ∧ conversion.target = target := by
  unfold standard? at made
  split at made <;> cases made
  exact ⟨rfl, rfl⟩

end Conversion

end QueryExec
