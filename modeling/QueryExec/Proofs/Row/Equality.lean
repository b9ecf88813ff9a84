import QueryExec.Proofs.Row.Conversion

/-!
Equality of grouping keys under the standard conversions. Values of one kind are compared as they
are, and values of different kinds after conversion to the kind of the column. Where that
conversion is faithful the two ways fit together; where it gives different values of a kind one
result, those values differ although both are equal to the result.
-/

namespace QueryExec

open Floating

namespace Catalog

variable {value result left right : Datum} {source target column : Kind}

/-- The standard catalog has the standard conversion of each pair. -/
theorem standard_find (source target : Kind) :
    standard.find? source target = Conversion.standard? source target := by
  cases found : standard.find? source target with
  | some conversion =>
      have named := List.find?_some found
      simp only [Bool.and_eq_true, decide_eq_true_eq] at named
      obtain ⟨source', target', made⟩ := Conversion.listed_iff.mp (List.mem_of_find?_eq_some found)
      obtain ⟨ofSource, ofTarget⟩ := Conversion.standard_some made
      rw [← made, ← ofSource, ← ofTarget, named.1, named.2]
  | none =>
      cases made : Conversion.standard? source target with
      | none => rfl
      | some conversion =>
          have missing := List.find?_eq_none.mp found conversion
            (Conversion.listed_iff.mpr ⟨source, target, made⟩)
          obtain ⟨ofSource, ofTarget⟩ := Conversion.standard_some made
          simp [ofSource, ofTarget] at missing

theorem standard_convert_iff (ofKind : value.kind? = some source) (other : source ≠ target) :
    standard.convert value target = .ok result ↔
      Conversion.isStandard source target = true ∧
        Conversion.convert target value = .ok result := by
  unfold convert
  simp only [ofKind, if_neg other, standard_find, Conversion.standard?]
  cases Conversion.isStandard source target <;> simp

/-- Values of one kind are compared as they are. -/
theorem keys_of_one_kind (kinds : left.kind? = right.kind?) :
    standard.keysEqual column left right = true ↔ left.keyClass = right.keyClass := by
  rw [keysEqual, if_pos kinds]
  exact Datum.group_equal_same kinds

/-- Values of two kinds are compared after conversion. -/
theorem keys_of_two_kinds (kinds : left.kind? ≠ right.kind?) :
    standard.keysEqual column left right = true ↔ ∃ first second,
      standard.convert left column = .ok first ∧ standard.convert right column = .ok second ∧
        first.keyClass = second.keyClass := by
  rw [keysEqual, if_neg kinds]
  cases converted : standard.convert left column with
  | error cause => simp
  | ok first =>
      cases converted' : standard.convert right column with
      | error cause => simp
      | ok second =>
          simp [Datum.group_equal_fits (standard_fits converted) (standard_fits converted')]

theorem standard_separates {first second : Datum}
    (faithful : ∀ source, left.kind? = some source → column.merges source = false)
    (kinds : left.kind? = right.kind?) (converted : standard.convert left column = .ok first)
    (converted' : standard.convert right column = .ok second)
    (same : first.keyClass = second.keyClass) : left.keyClass = right.keyClass := by
  cases ofLeft : left.kind? with
  | none =>
      rw [Datum.kind_none_iff.mp ofLeft, Datum.kind_none_iff.mp (kinds.symm.trans ofLeft)]
  | some source =>
      have ofRight := kinds.symm.trans ofLeft
      by_cases own : source = column
      · rw [convert_fitting _ (.inr (ofLeft.trans (congrArg some own)))] at converted
        rw [convert_fitting _ (.inr (ofRight.trans (congrArg some own)))] at converted'
        cases converted
        cases converted'
        exact same
      · obtain ⟨listed, converted⟩ := (standard_convert_iff ofLeft own).mp converted
        obtain ⟨-, converted'⟩ := (standard_convert_iff ofRight own).mp converted'
        exact Conversion.convert_separates (faithful source ofLeft) own listed ofLeft ofRight
          converted converted' same

theorem standard_respects {first : Datum} (kinds : left.kind? = right.kind?)
    (same : left.keyClass = right.keyClass)
    (spelled : column = .text → ¬ left.OppositeZeros right)
    (converted : standard.convert left column = .ok first) :
    ∃ second, standard.convert right column = .ok second ∧ first.keyClass = second.keyClass := by
  cases left with
  | floating precision number =>
      cases right <;> cases kinds
      rename_i number'
      by_cases own : Kind.floating precision = column
      · have kept := standard.convert_fitting (.inr (congrArg some own) :
          (Datum.floating precision number).Fits column)
        cases kept.symm.trans converted
        exact ⟨_, convert_fitting _ (.inr (congrArg some own)), same⟩
      · obtain ⟨listed, converted⟩ := (standard_convert_iff rfl own).mp converted
        obtain ⟨second, converted', equal⟩ :=
          Conversion.floating_respects same spelled own listed converted
        exact ⟨second, (standard_convert_iff rfl own).mpr ⟨listed, converted'⟩, equal⟩
  | _ =>
      cases right <;> cases kinds
      cases same
      exact ⟨first, converted, rfl⟩

/-- The ways in which one value may be another key than a third although both are the same key as
a second: the column merges values of the kind of the two outer ones, or the column is of text
and has zeros of opposite signs. -/
inductive Astray (column : Kind) (first second third : Datum) : Prop
  | merged (source : Kind) (ofFirst : first.kind? = some source)
      (ofThird : third.kind? = some source) (other : second.kind? ≠ some source)
      (merges : column.merges source = true)
  | zerosBefore (spelled : column = .text) (zeros : first.OppositeZeros second)
      (other : second.kind? ≠ third.kind?)
  | zerosAfter (spelled : column = .text) (zeros : second.OppositeZeros third)
      (other : first.kind? ≠ second.kind?)

theorem opposite_zeros_symm (zeros : left.OppositeZeros right) : right.OppositeZeros left := by
  obtain ⟨precision, negative, rfl, rfl⟩ := zeros
  exact ⟨precision, !negative, rfl, by rw [Bool.not_not]⟩

theorem keys_equal_symm (column : Kind) (left right : Datum) :
    standard.keysEqual column left right = standard.keysEqual column right left := by
  rw [Bool.eq_iff_iff]
  by_cases kinds : left.kind? = right.kind?
  · rw [keys_of_one_kind kinds, keys_of_one_kind kinds.symm]
    exact eq_comm
  · rw [keys_of_two_kinds kinds, keys_of_two_kinds (Ne.symm kinds)]
    constructor
    · rintro ⟨first, second, converted, converted', same⟩
      exact ⟨second, first, converted', converted, same.symm⟩
    · rintro ⟨first, second, converted, converted', same⟩
      exact ⟨second, first, converted', converted, same.symm⟩

/-- Of the first two values, of one kind, the first is converted to what the second is. -/
theorem keys_equal_before {first second third : Datum} (kinds : first.kind? = second.kind?)
    (other : second.kind? ≠ third.kind?) (spelled : column = .text → ¬ first.OppositeZeros second)
    (same : standard.keysEqual column first second = true)
    (same' : standard.keysEqual column second third = true) :
    standard.keysEqual column first third = true := by
  rw [keys_of_one_kind kinds] at same
  rw [keys_of_two_kinds other] at same'
  rw [keys_of_two_kinds (kinds ▸ other)]
  obtain ⟨middle, last, converted, converted', equal⟩ := same'
  obtain ⟨start, converted'', equal'⟩ := standard_respects kinds.symm same.symm
    (fun text zeros => spelled text (opposite_zeros_symm zeros)) converted
  exact ⟨start, last, converted'', converted', equal'.symm.trans equal⟩

theorem keys_equal_trans {first second third : Datum}
    (same : standard.keysEqual column first second = true)
    (same' : standard.keysEqual column second third = true) :
    standard.keysEqual column first third = true ∨ Astray column first second third := by
  by_cases kinds : first.kind? = second.kind?
  · by_cases kinds' : second.kind? = third.kind?
    · rw [keys_of_one_kind kinds] at same
      rw [keys_of_one_kind kinds'] at same'
      exact .inl ((keys_of_one_kind (kinds.trans kinds')).mpr (same.trans same'))
    · by_cases zeros : column = .text ∧ first.OppositeZeros second
      · exact .inr (.zerosBefore zeros.1 zeros.2 kinds')
      · exact .inl (keys_equal_before kinds kinds' (not_and.mp zeros) same same')
  · by_cases kinds' : second.kind? = third.kind?
    · by_cases zeros : column = .text ∧ second.OppositeZeros third
      · exact .inr (.zerosAfter zeros.1 zeros.2 kinds)
      · left
        rw [keys_equal_symm] at same same' ⊢
        exact keys_equal_before kinds'.symm (Ne.symm kinds)
          (fun text opposite => zeros ⟨text, opposite_zeros_symm opposite⟩) same' same
    · obtain ⟨start, middle, converted, converted', equal⟩ := (keys_of_two_kinds kinds).mp same
      obtain ⟨middle', last, again, converted'', equal'⟩ := (keys_of_two_kinds kinds').mp same'
      cases converted'.symm.trans again
      by_cases outer : first.kind? = third.kind?
      · by_cases merges : ∃ source, first.kind? = some source ∧ column.merges source = true
        · obtain ⟨source, ofFirst, merges⟩ := merges
          refine .inr (.merged source ofFirst (outer.symm.trans ofFirst) ?_ merges)
          exact fun ofSecond => kinds (ofFirst.trans ofSecond.symm)
        · refine .inl ((keys_of_one_kind outer).mpr ?_)
          refine standard_separates ?_ outer converted converted'' (equal.trans equal')
          intro source ofFirst
          exact Bool.eq_false_iff.mpr fun merged => merges ⟨source, ofFirst, merged⟩
      · exact .inl ((keys_of_two_kinds outer).mpr
          ⟨start, last, converted, converted'', equal.trans equal'⟩)

/-- Two values that are converted to one are apart, and both are the same key as the result. -/
theorem apart_of_converted {first third : Datum} {source : Kind}
    (ofFirst : first.kind? = some source) (ofThird : third.kind? = some source)
    (other : source ≠ column)
    (converted : standard.convert first column = .ok result)
    (converted' : standard.convert third column = .ok result)
    (apart : first.keyClass ≠ third.keyClass) :
    standard.keysEqual column first result = true ∧ standard.keysEqual column result third = true ∧
      standard.keysEqual column first third = false := by
  have ofResult : result.kind? = some column :=
    ((standard_converts converted).resolve_left fun null => by
      rw [null.1] at ofFirst
      cases ofFirst).2
  have kept := standard.convert_fitting (.inr ofResult)
  have foreign : first.kind? ≠ result.kind? := by
    rw [ofFirst, ofResult]
    exact fun same => other (Option.some.inj same)
  have foreign' : result.kind? ≠ third.kind? := by
    rw [ofThird, ofResult]
    exact fun same => other (Option.some.inj same).symm
  refine ⟨(keys_of_two_kinds foreign).mpr ⟨_, _, converted, kept, rfl⟩,
    (keys_of_two_kinds foreign').mpr ⟨_, _, kept, converted', rfl⟩, ?_⟩
  rw [Bool.eq_false_iff]
  exact fun same => apart ((keys_of_one_kind (ofFirst.trans ofThird.symm)).mp same)

section Merging

variable {source : Kind}

/-- Some values of the kind are apart although both are the same key as a third. -/
def Apart (column source : Kind) : Prop :=
  ∃ first second third : Datum, first.kind? = some source ∧ third.kind? = some source ∧
    standard.keysEqual column first second = true ∧
      standard.keysEqual column second third = true ∧
        standard.keysEqual column first third = false

theorem apart_of_merged (first third result : Datum) (ofFirst : first.kind? = some source)
    (ofThird : third.kind? = some source)
    (listed : Conversion.isStandard source column = true)
    (converted : Conversion.convert column first = .ok result)
    (converted' : Conversion.convert column third = .ok result)
    (apart : first.keyClass ≠ third.keyClass) : Apart column source := by
  have other : source ≠ column := by
    rintro rfl
    simp [Conversion.isStandard] at listed
  exact ⟨first, result, third, ofFirst, ofThird,
    apart_of_converted ofFirst ofThird other
      ((standard_convert_iff ofFirst other).mpr ⟨listed, converted⟩)
      ((standard_convert_iff ofThird other).mpr ⟨listed, converted'⟩) apart⟩

/-- The whole number of any width that can have it. -/
def wholeOf (width : Width) (number : Nat) (small : number ≤ 32767) : Datum :=
  .whole width ⟨number, by cases width <;> simp only [Width.lowest] <;> omega,
    by cases width <;> simp only [Width.highest] <;> omega⟩

/-- The least positive number, which is zero as a whole number and in single precision. -/
def leastPositive (precision : Precision) : Datum :=
  .floating precision (.number false ⟨1, by cases precision <;> decide⟩)

theorem merging_apart (merges : column.merges source = true) : Apart column source := by
  cases column with
  | boolean =>
      cases source with
      | whole width =>
          refine apart_of_merged (wholeOf width 1 (by decide)) (wholeOf width 2 (by decide)) _ rfl
            rfl (by cases width <;> rfl) rfl rfl ?_
          simp [Datum.keyClass, wholeOf]
      | text =>
          exact apart_of_merged (.text "t") (.text "y") _ rfl rfl rfl rfl rfl
            (by decide)
      | _ => cases merges
  | whole width =>
      cases source with
      | floating precision =>
          apply apart_of_merged (.floating precision (Floating.zero false))
            (leastPositive precision) (wholeOf width 0 (by decide)) rfl rfl rfl
          · cases precision <;> cases width <;> decide +kernel
          · cases precision <;> cases width <;> decide +kernel
          · cases precision <;> decide +kernel
      | text =>
          apply apart_of_merged (.text "0") (.text "00") (wholeOf width 0 (by decide)) rfl rfl rfl
          · cases width <;> rfl
          · cases width <;> rfl
          · decide
      | _ => cases merges
  | floating precision =>
      cases source with
      | whole width =>
          -- The successor of twice the greatest fraction is the first number to be rounded.
          generalize number : 2 * (twoTo precision.format.fractionBits : Int) = even
          have rounded : ∀ low low' high high',
              Conversion.convert (.floating precision) (.whole width ⟨even, low, high⟩) =
                .ok (.floating precision (Floating.ofInt even)) →
              Conversion.convert (.floating precision) (.whole width ⟨even + 1, low', high'⟩) =
                .ok (.floating precision (Floating.ofInt even)) →
              Apart (.floating precision) (.whole width) := fun _ _ _ _ converted converted' =>
            apart_of_merged _ _ _ rfl rfl rfl converted converted' (by simp [Datum.keyClass])
          subst number
          cases precision <;> cases width <;> first
            | cases merges; done
            | exact rounded (by decide) (by decide) (by decide) (by decide) (by decide +kernel)
                (by decide +kernel)
      | floating precision' =>
          cases precision <;> cases precision' <;> first | cases merges; done | skip
          exact apart_of_merged (.double (Floating.zero false)) (leastPositive .double)
            (.real (Floating.zero false)) rfl rfl rfl
            (by decide +kernel) (by decide +kernel) (by decide +kernel)
      | text =>
          apply apart_of_merged (.text "inf") (.text "infinity")
            (.floating precision (Floating.infinite false)) rfl rfl rfl
          · cases precision <;> rfl
          · cases precision <;> rfl
          · decide
      | _ => cases precision <;> cases merges
  | _ => cases source <;> cases merges

/-- Zeros of opposite signs are one key, and only one of them is the same key as its text. -/
theorem zeros_apart (precision : Precision) (negative : Bool) :
    ∃ third, standard.keysEqual .text (.floating precision (Floating.zero negative))
        (.floating precision (Floating.zero !negative)) = true ∧
      standard.keysEqual .text (.floating precision (Floating.zero !negative)) third = true ∧
        standard.keysEqual .text (.floating precision (Floating.zero negative)) third = false := by
  refine ⟨.text (if negative then "0" else "-0"), ?_, ?_, ?_⟩ <;>
    cases precision <;> cases negative <;> decide +kernel

end Merging

/-- Equality of grouping keys is reflexive and symmetric, and it is transitive except where a value
of one kind stands between two of another that the column merges, and between zeros of opposite
signs and their texts. In each of these cases there are values for which it is not. -/
theorem keys_equal_equivalence (column : Kind) :
    (∀ value, standard.keysEqual column value value = true) ∧
    (∀ left right, standard.keysEqual column left right = standard.keysEqual column right left) ∧
    (∀ first second third, standard.keysEqual column first second = true →
      standard.keysEqual column second third = true →
        standard.keysEqual column first third = true ∨ Astray column first second third) ∧
    (∀ source, column.merges source = true → Apart column source) ∧
    (∀ precision negative, column = .text →
      ∃ third, standard.keysEqual column (.floating precision (Floating.zero negative))
          (.floating precision (Floating.zero !negative)) = true ∧
        standard.keysEqual column (.floating precision (Floating.zero !negative)) third = true ∧
          standard.keysEqual column (.floating precision (Floating.zero negative)) third =
            false) := by
  refine ⟨fun value => (keys_of_one_kind rfl).mpr rfl, keys_equal_symm column,
    fun first second third => keys_equal_trans, fun source => merging_apart, ?_⟩
  rintro precision negative rfl
  exact zeros_apart precision negative

namespace Numerals

/-- Two spellings of one number are each the same key as the number and are not the same key as
each other. -/
theorem spellings_apart :
    standard.keysEqual .integer (.text "1") (.whole .integer ⟨1, by decide, by decide⟩) = true ∧
      standard.keysEqual .integer (.whole .integer ⟨1, by decide, by decide⟩) (.text " 1") = true ∧
        standard.keysEqual .integer (.text "1") (.text " 1") = false := by
  decide +kernel

/-- Three values of three kinds that one column has as one key. -/
theorem numbers_together :
    standard.keysEqual .bigint (.text " 7") (.real (Floating.ofInt 7)) = true := by
  refine ((keys_equal_equivalence .bigint).2.2.1 (.text " 7")
    (.whole .integer ⟨7, by decide, by decide⟩) (.real (Floating.ofInt 7)) (by decide +kernel)
    (by decide +kernel)).resolve_right ?_
  intro astray
  cases astray with
  | merged source ofFirst ofThird =>
      cases ofFirst
      cases ofThird
  | zerosBefore spelled => cases spelled
  | zerosAfter spelled => cases spelled

end Numerals

end Catalog

end QueryExec
