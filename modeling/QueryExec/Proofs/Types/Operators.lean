import QueryExec.Proofs.Row.Comparison
import QueryExec.Expr.Apply

/-!
Kinds of results. A standard conversion gives a value of its target or fails, and an operator gives
a value of the kind that is known of it before, whatever values of their kinds its operands have.
-/

namespace QueryExec

namespace Datum

variable {value result : Datum} {kind : Kind}

theorem Fits.kind_of_present (fits : value.Fits kind) (present : value ≠ .null) :
    value.kind? = some kind :=
  fits.resolve_left present

theorem of_whole_kind {width : Width} {number : Int} (made : ofWhole? width number = some result) :
    result.kind? = some (.whole width) := by
  obtain ⟨whole, _, rfl⟩ := Option.map_eq_some_iff.mp made
  rfl

end Datum

namespace Conversion

variable {value result : Datum} {target : Kind}

theorem fit_kind {width : Width} {number : Int} (fitted : fit value width number = .ok result) :
    result.kind? = some (.whole width) := by
  unfold fit at fitted
  split at fitted
  next made =>
    cases fitted
    exact Datum.of_whole_kind made
  next => cases fitted

theorem to_boolean_kind (converted : toBoolean value = .ok result) :
    result.kind? = some .boolean := by
  unfold toBoolean at converted
  split at converted
  · split at converted <;> cases converted
    rfl
  · cases converted
    rfl
  · cases converted

theorem to_whole_kind {width : Width} (converted : toWhole width value = .ok result) :
    result.kind? = some (.whole width) := by
  unfold toWhole at converted
  split at converted
  · exact fit_kind converted
  · split at converted
    · exact fit_kind converted
    · cases converted
  · split at converted
    · exact fit_kind converted
    · cases converted
  · exact fit_kind converted
  · cases converted

theorem to_floating_kind {precision : Precision}
    (converted : toFloating precision value = .ok result) :
    result.kind? = some (.floating precision) := by
  unfold toFloating at converted
  cases doubled : doubleOf value (.floating precision) with
  | error cause =>
      rw [doubled] at converted
      cases converted
  | ok number =>
      rw [doubled] at converted
      cases precision with
      | double =>
          cases converted
          rfl
      | real =>
          change (if _ then _ else _) = _ at converted
          split at converted <;> cases converted
          rfl

theorem to_bytes_kind (converted : toBytes value = .ok result) : result.kind? = some .bytes := by
  unfold toBytes at converted
  split at converted <;> cases converted
  rfl

/-- A value that is not NULL converts to a value of the target. -/
theorem convert_kind (converted : convert target value = .ok result) (present : value ≠ .null) :
    result.kind? = some target := by
  unfold convert at converted
  rw [if_neg (fun null => present (Datum.is_null_iff.mp null))] at converted
  split at converted
  next own =>
    cases converted
    exact own
  next =>
    cases target with
    | boolean => exact to_boolean_kind converted
    | whole width => exact to_whole_kind converted
    | floating precision => exact to_floating_kind converted
    | text =>
        cases converted
        rfl
    | bytes => exact to_bytes_kind converted

theorem standard_applies {conversion : Conversion} (listed : conversion ∈ allStandard) :
    conversion.apply = convert conversion.target := by
  obtain ⟨source, _, among⟩ := List.mem_flatMap.mp listed
  obtain ⟨target, _, made⟩ := List.mem_filterMap.mp among
  unfold standard? at made
  split at made <;> cases made
  rfl

end Conversion

namespace Catalog

variable {value result : Datum} {target : Kind}

/-- Among the standard conversions NULL is what NULL converts to and nothing else. -/
theorem standard_converts (converted : standard.convert value target = .ok result) :
    value = .null ∧ result = .null ∨ value ≠ .null ∧ result.kind? = some target := by
  unfold convert at converted
  split at converted
  next missing =>
    cases converted
    exact .inl ⟨Datum.kind_none_iff.mp missing, rfl⟩
  next source ofKind =>
    have present : value ≠ .null := by
      rintro rfl
      cases ofKind
    refine .inr ⟨present, ?_⟩
    split at converted
    next own =>
      cases converted
      exact ofKind.trans (congrArg some own)
    next =>
      split at converted
      next conversion found =>
        have listed := List.mem_of_find?_eq_some found
        have named := List.find?_some found
        simp only [Bool.and_eq_true, decide_eq_true_eq] at named
        rw [Conversion.standard_applies listed, named.2] at converted
        exact Conversion.convert_kind converted present
      next => cases converted

theorem standard_fits (converted : standard.convert value target = .ok result) :
    result.Fits target :=
  (standard_converts converted).imp And.right And.right

end Catalog

variable {left right result : Datum}

theorem Arithmetic.fitted_kind {width : Width} {number : Int}
    (made : (match (wide? number).bind (Datum.ofWhole? width) with
      | some value => .ok value
      | none => .error (.overflow (.whole width)) : Except ValueError Datum) = .ok result) :
    result.kind? = some (.whole width) := by
  split at made
  next fitting =>
    cases made
    obtain ⟨_, _, fits⟩ := Option.bind_eq_some_iff.mp fitting
    exact Datum.of_whole_kind fits
  next => cases made

theorem Arithmetic.on_whole_kind {op : Arithmetic} {width : Width} {first second : Int}
    (applied : op.onWhole width first second = .ok result) :
    result.kind? = some (.whole width) := by
  cases op with
  | add => exact fitted_kind applied
  | sub => exact fitted_kind applied
  | mul => exact fitted_kind applied
  | div =>
      unfold onWhole at applied
      dsimp only at applied
      split at applied
      · cases applied
      · exact fitted_kind applied
  | mod =>
      unfold onWhole at applied
      dsimp only at applied
      split at applied
      · cases applied
      · exact fitted_kind applied

theorem Arithmetic.narrowed_kind {precision : Precision} {lost : Bool} {number : Floating .binary64}
    (made : (if lost then .error (.overflow (.floating precision))
      else
        match precision with
        | .real => .ok (.real number.convert)
        | .double => .ok (.double number) : Except ValueError Datum) = .ok result) :
    result.kind? = some (.floating precision) := by
  split at made
  · cases made
  · split at made <;> cases made <;> rfl

theorem Arithmetic.on_floating_kind {op : Arithmetic} {precision : Precision}
    {first second : Floating .binary64}
    (applied : op.onFloating precision first second = .ok result) :
    result.kind? = some (.floating precision) := by
  cases op with
  | add => exact narrowed_kind applied
  | sub => exact narrowed_kind applied
  | mul => exact narrowed_kind applied
  | div =>
      unfold onFloating at applied
      dsimp only at applied
      split at applied
      · cases applied
      · exact narrowed_kind applied
  | mod =>
      unfold onFloating at applied
      dsimp only at applied
      split at applied
      · cases applied
      · exact narrowed_kind applied

/-- The kind of a result is the one that is known from the kinds of the operands. -/
theorem Arithmetic.apply_kind {op : Arithmetic} {first second : Kind}
    (ofLeft : left.kind? = some first) (ofRight : right.kind? = some second)
    (applied : op.apply left right = .ok result) :
    ∃ kind, first.arithmetic? second = some kind ∧ result.kind? = some kind := by
  cases left with
  | null => cases ofLeft
  | boolean _ => cases right <;> cases applied
  | text _ => cases right <;> cases applied
  | bytes _ => cases right <;> cases applied
  | whole width number =>
      cases ofLeft
      cases right with
      | null => cases ofRight
      | boolean _ => cases applied
      | text _ => cases applied
      | bytes _ => cases applied
      | whole other _ =>
          cases ofRight
          exact ⟨_, rfl, on_whole_kind applied⟩
      | floating precision _ =>
          cases ofRight
          refine ⟨.double, rfl, ?_⟩
          cases precision <;> exact on_floating_kind applied
  | floating precision number =>
      cases ofLeft
      cases right with
      | null => cases ofRight
      | boolean _ => cases precision <;> cases applied
      | text _ => cases precision <;> cases applied
      | bytes _ => cases precision <;> cases applied
      | whole other _ =>
          cases ofRight
          refine ⟨.double, rfl, ?_⟩
          cases precision <;> exact on_floating_kind applied
      | floating other _ =>
          cases ofRight
          refine ⟨_, rfl, ?_⟩
          cases precision <;> cases other <;> exact on_floating_kind applied

theorem Datum.of_truth_fits (truth : Option Bool) : (Datum.ofTruth truth).Fits .boolean := by
  cases truth with
  | none => exact .inl rfl
  | some value => exact .inr rfl

theorem Comparison.apply_kind {op : Comparison} (applied : op.apply left right = .ok result) :
    result.kind? = some .boolean := by
  unfold apply at applied
  split at applied <;> cases applied
  rfl

theorem Connective.apply_fits {op : Connective}
    (applied : (BinaryOp.connective op).apply left right = .ok result) : result.Fits .boolean := by
  simp only [BinaryOp.apply] at applied
  cases first : left.truth? with
  | error cause =>
      rw [first] at applied
      cases applied
  | ok leftTruth =>
      cases second : right.truth? with
      | error cause =>
          rw [first, second] at applied
          cases applied
      | ok rightTruth =>
          rw [first, second] at applied
          cases applied
          exact Datum.of_truth_fits _

theorem Datum.negate_kind (negated : left.negate = .ok result) : result.kind? = left.kind? := by
  cases left with
  | null =>
      cases negated
      rfl
  | floating precision value =>
      cases negated
      rfl
  | whole width value =>
      unfold Datum.negate at negated
      dsimp only at negated
      split at negated <;> cases negated
      next made => exact Datum.of_whole_kind made
  | boolean _ => cases negated
  | text _ => cases negated
  | bytes _ => cases negated

theorem Datum.invert_fits (inverted : left.invert = .ok result) : result.Fits .boolean := by
  unfold Datum.invert at inverted
  cases truth : left.truth? with
  | error cause =>
      rw [truth] at inverted
      cases inverted
  | ok value =>
      rw [truth] at inverted
      cases inverted
      exact Datum.of_truth_fits _

end QueryExec
