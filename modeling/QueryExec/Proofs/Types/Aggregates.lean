import QueryExec.Proofs.Accumulator
import QueryExec.Proofs.Plan
import QueryExec.Proofs.Types.Operators

/-!
Kinds of aggregates. An accumulator over a column of one kind answers NULL or a value of the kind
that its function is declared with, whatever values of the column it was fed, and also where it was
fed none. So the rows of an aggregation have values of the types that it is built with: its keys
those of the key columns and its results those of the functions.
-/

namespace QueryExec

open QueryExec.Action

/-- Each value is NULL or of the kind of its column. -/
def RowType.Holds (type : RowType) (values : List Datum) : Prop :=
  ∀ (index : Nat) (column : ColumnType) (value : Datum), type.columns[index]? = some column →
    values[index]? = some value → value.Fits column.kind

namespace Accumulator

variable {accumulator next : Accumulator} {input output : Kind} {value : Datum}

/-- What is accumulated of one kind amounts to another. -/
def Reduces (input output : Kind) : Accumulator → Prop
  | count _ => output = .bigint
  | sum _ =>
      (∃ width, input = .whole width ∧ output = .bigint) ∨
        ∃ precision, input = .floating precision ∧ output = .double
  | extremum _ _ => output = input
  | concat _ _ => output = .text

/-- What was accumulated so far amounts to a value of the kind. -/
structure Gathers (input output : Kind) (accumulator : Accumulator) : Prop where
  reduces : accumulator.Reduces input output
  result : accumulator.result.Fits output

theorem concat_result_fits (separator : String) (parts : List String) :
    (concat separator parts).result.Fits .text := by
  cases parts with
  | nil => exact .inl rfl
  | cons first rest => exact .inr rfl

theorem start_gathers {aggregate : Aggregate} {column type : ColumnType}
    (started : aggregate.start = .ok accumulator)
    (typed : aggregate.function.resultType column = .ok type) :
    accumulator.Gathers column.kind type.kind := by
  obtain ⟨function, option?⟩ := aggregate
  cases function with
  | count =>
      cases option? <;> cases started
      cases typed
      exact ⟨rfl, .inr rfl⟩
  | sum =>
      cases option? <;> cases started
      unfold AggregateFunction.resultType at typed
      dsimp only at typed
      split at typed <;> cases typed
      next width ofWidth => exact ⟨.inl ⟨width, ofWidth, rfl⟩, .inl rfl⟩
      next precision ofPrecision => exact ⟨.inr ⟨precision, ofPrecision, rfl⟩, .inl rfl⟩
  | min =>
      cases option? <;> cases started
      cases typed
      exact ⟨rfl, .inl rfl⟩
  | max =>
      cases option? <;> cases started
      cases typed
      exact ⟨rfl, .inl rfl⟩
  | groupConcat =>
      cases typed
      unfold Aggregate.start at started
      split at started <;> cases started
      all_goals first
        | exact ⟨rfl, concat_result_fits _ _⟩
        | contradiction

theorem reset_gathers (gathers : accumulator.Gathers input output) :
    accumulator.reset.Gathers input output := by
  obtain ⟨reduces, _⟩ := gathers
  cases accumulator with
  | count seen =>
      cases reduces
      exact ⟨rfl, .inr rfl⟩
  | sum total => exact ⟨reduces, .inl rfl⟩
  | extremum keep current => exact ⟨reduces, .inl rfl⟩
  | concat separator parts => exact ⟨reduces, .inl rfl⟩

/-- Without any value the result is NULL or the number zero. -/
theorem empty_result_fits (gathers : accumulator.Gathers input output) :
    accumulator.emptyResult.Fits output := by
  cases accumulator with
  | count seen =>
      cases gathers.reduces
      exact .inr rfl
  | sum total => exact .inl rfl
  | extremum keep current => exact .inl rfl
  | concat separator parts => exact .inl rfl

/-- Whole numbers add up to a bigint and floating-point numbers to a double. -/
theorem sum_input_fits {total added : RunningSum} (reduces : (sum total).Reduces input output)
    (before : total.result.Fits output) (ofKind : value.kind? = some input)
    (made : total.input value = .ok added) : added.result.Fits output := by
  unfold RunningSum.input at made
  rcases reduces with ⟨width, rfl, rfl⟩ | ⟨precision, rfl, rfl⟩
  · cases value <;> cases ofKind
    dsimp only at made
    split at made
    next fitting _ =>
      cases total with
      | nothing =>
          cases made
          exact .inr rfl
      | whole total =>
          unfold RunningSum.addWhole at made
          dsimp only at made
          split at made <;> cases made
          exact .inr rfl
      | floating total => rcases before with impossible | impossible <;> cases impossible
    next => cases made
  · have doubled (number : Floating .binary64) :
        (total.addFloating number).result.Fits .double := by
      cases total <;> exact .inr rfl
    cases value <;> cases ofKind
    cases precision <;> cases made <;> exact doubled _

/-- A value of the column keeps the result of its kind. -/
theorem input_gathers (gathers : accumulator.Gathers input output) (fits : value.Fits input)
    (made : accumulator.input value = .ok next) : next.Gathers input output := by
  obtain ⟨reduces, result⟩ := gathers
  cases missing : value.isNull with
  | true =>
      rw [input_null missing] at made
      cases made
      exact ⟨reduces, result⟩
  | false =>
      have ofKind : value.kind? = some input := fits.kind_of_present
        fun null => by
          rw [null] at missing
          cases missing
      cases accumulator with
      | count seen =>
          rw [input_count missing] at made
          cases made
          cases reduces
          exact ⟨rfl, .inr rfl⟩
      | sum total =>
          obtain ⟨later, added, rfl⟩ := sum_of_input missing made
          exact ⟨reduces, sum_input_fits reduces result ofKind added⟩
      | extremum keep current =>
          obtain ⟨leading, rfl, rfl | rfl⟩ := extremum_of_input missing made
          · cases reduces
            exact ⟨rfl, fits⟩
          · exact ⟨reduces, result⟩
      | concat separator parts =>
          rw [input_concat missing] at made
          cases made
          cases reduces
          exact ⟨rfl, concat_result_fits separator _⟩

end Accumulator

namespace Plan

/-- Each accumulator that is started gathers the values of its column for its result. -/
theorem aggregate_types_gather {aggregates : List Aggregate} {columns types : List ColumnType}
    {accumulators : List Accumulator} (typed : aggregateTypes aggregates columns = .ok types)
    (ready : startAccumulators aggregates = .ok accumulators)
    (enough : aggregates.length = columns.length) {index : Nat} {accumulator : Accumulator}
    (found : accumulators[index]? = some accumulator) :
    ∃ column type, columns[index]? = some column ∧ types[index]? = some type ∧
      accumulator.Gathers column.kind type.kind := by
  have each := accumulators_started ready
  clear ready
  induction each generalizing columns types index with
  | nil =>
      have none : ([] : List Accumulator)[index]? = none := List.getElem?_nil
      exact absurd (none.symm.trans found) nofun
  | cons started _ induction =>
      cases columns with
      | nil => cases enough
      | cons column columns =>
          obtain ⟨_, _, typed⟩ := ok_of_bind typed
          obtain ⟨type, typedFirst, typed⟩ := ok_of_bind typed
          obtain ⟨types, typedOthers, same⟩ := ok_of_bind typed
          cases same
          cases index with
          | zero =>
              cases found
              exact ⟨column, type, rfl, rfl, Accumulator.start_gathers started typedFirst⟩
          | succ index =>
              exact induction typedOthers (Nat.succ.inj enough) found

end Plan

namespace Grouping

variable {plan : GroupingPlan} {aggregates : List Aggregate} {key : List Datum}
  {accumulators : List Accumulator}

/-- So many values, each of which fits its column in the rows that the aggregation makes. -/
structure Keyed (plan : GroupingPlan) (key : List Datum) : Prop where
  width : key.length = plan.keys
  fits : ∀ (index : Nat) (column : ColumnType) (value : Datum),
    plan.outputType.columns[index]? = some column → key[index]? = some value →
      value.Fits column.kind

/-- Each accumulator gathers its column of the input for its column of the output. -/
def Gathering (plan : GroupingPlan) (accumulators : List Accumulator) : Prop :=
  ∀ index accumulator, accumulators[index]? = some accumulator → ∃ column type,
    plan.inputType.columns[plan.keys + index]? = some column ∧
      plan.outputType.columns[plan.keys + index]? = some type ∧
        accumulator.Gathers column.kind type.kind

section Built

variable
  (built : Plan.groupedTypes plan.inputType.columns plan.keys aggregates =
    .ok plan.outputType.columns)

include built

theorem grouped_types_eq : plan.keys + aggregates.length = plan.inputType.columns.length ∧
    ∃ types, Plan.aggregateTypes aggregates (plan.inputType.columns.drop plan.keys) = .ok types ∧
      plan.outputType.columns = plan.inputType.columns.take plan.keys ++ types := by
  unfold Plan.groupedTypes at built
  split at built
  next same =>
    obtain ⟨types, typed, made⟩ := ok_of_bind built
    exact ⟨same, types, typed, (Except.ok.inj made).symm⟩
  next => cases built

/-- Keys have the same types in both rows. -/
theorem key_column_eq {index : Nat} (below : index < plan.keys) :
    plan.outputType.columns[index]? = plan.inputType.columns[index]? := by
  obtain ⟨enough, types, _, made⟩ := grouped_types_eq built
  have within : index < (plan.inputType.columns.take plan.keys).length := by
    rw [List.length_take]
    omega
  rw [made, List.getElem?_append_left within, List.getElem?_take_of_lt below]

theorem keyed_of_columns (read : List.Forall₂ (fun index (value : Datum) => ∀ column,
      plan.inputType.columns[index]? = some column → value.Fits column.kind)
    (List.range plan.keys) key) : Keyed plan key where
  width := read.length_eq.symm.trans List.length_range
  fits := by
    intro index column value typed found
    have below : index < plan.keys := by
      have within := (List.getElem?_eq_some_iff.mp found).1
      rwa [← read.length_eq, List.length_range] at within
    rw [key_column_eq built below] at typed
    obtain ⟨within, rfl⟩ := List.getElem?_eq_some_iff.mp found
    have fits := read.get (i := index) (by rwa [List.length_range]) within
    rw [List.get_eq_getElem, List.getElem_range] at fits
    exact fits column typed

theorem gathering_of_start (ready : Plan.startAccumulators aggregates = .ok accumulators) :
    Gathering plan accumulators := by
  intro index accumulator found
  obtain ⟨enough, types, typed, made⟩ := grouped_types_eq built
  have long : aggregates.length = (plan.inputType.columns.drop plan.keys).length := by
    rw [List.length_drop]
    omega
  obtain ⟨column, type, ofColumn, ofType, gathers⟩ :=
    Plan.aggregate_types_gather typed ready long found
  have taken : (plan.inputType.columns.take plan.keys).length = plan.keys := by
    rw [List.length_take]
    omega
  refine ⟨column, type, by rwa [List.getElem?_drop] at ofColumn, ?_, gathers⟩
  rw [made, List.getElem?_append_right (by omega), taken, Nat.add_sub_cancel_left]
  exact ofType

end Built

theorem gathering_reset (gathering : Gathering plan accumulators) :
    Gathering plan (accumulators.map Accumulator.reset) := by
  intro index accumulator found
  rw [List.getElem?_map] at found
  obtain ⟨before, present, rfl⟩ := Option.map_eq_some_iff.mp found
  obtain ⟨column, type, ofColumn, ofType, gathers⟩ := gathering index before present
  exact ⟨column, type, ofColumn, ofType, Accumulator.reset_gathers gathers⟩

/-- Feeding one accumulator a value of its column keeps them gathering. -/
theorem gathering_input {front back : List Accumulator} {accumulator next : Accumulator}
    {value : Datum} (gathering : Gathering plan (front ++ accumulator :: back))
    (fits : ∀ column, plan.inputType.columns[plan.keys + front.length]? = some column →
      value.Fits column.kind)
    (made : accumulator.input value = .ok next) : Gathering plan (front ++ next :: back) := by
  have replaced : front ++ next :: back = (front ++ accumulator :: back).set front.length next := by
    rw [List.set_append_right _ _ (Nat.le_refl _), Nat.sub_self, List.set_cons_zero]
  intro index other found
  rw [replaced] at found
  by_cases own : front.length = index
  · subst own
    have present : (front ++ accumulator :: back)[front.length]? = some accumulator := by
      rw [List.getElem?_append_right (Nat.le_refl _), Nat.sub_self]
      rfl
    obtain ⟨column, type, ofColumn, ofType, gathers⟩ := gathering _ accumulator present
    rw [List.getElem?_set_self (List.getElem?_eq_some_iff.mp present).1] at found
    cases found
    exact ⟨column, type, ofColumn, ofType,
      Accumulator.input_gathers gathers (fits column ofColumn) made⟩
  · rw [List.getElem?_set_ne own] at found
    exact gathering index other found

/-- What is made of a key and results has the types of the output. -/
theorem results_hold (keyed : Keyed plan key) (gathering : Gathering plan accumulators)
    (answer : Accumulator → Datum)
    (fits : ∀ {accumulator input output}, accumulator.Gathers input output →
      (answer accumulator).Fits output) :
    plan.outputType.Holds (key ++ accumulators.map answer) := by
  intro index column value typed found
  by_cases below : index < key.length
  · rw [List.getElem?_append_left below] at found
    exact keyed.fits index column value typed found
  · rw [List.getElem?_append_right (by omega), List.getElem?_map, keyed.width] at found
    obtain ⟨accumulator, present, rfl⟩ := Option.map_eq_some_iff.mp found
    obtain ⟨_, type, _, ofType, gathers⟩ := gathering _ accumulator present
    have place : plan.keys + (index - plan.keys) = index := by
      have width := keyed.width
      omega
    rw [place, typed] at ofType
    cases ofType
    exact fits gathers

end Grouping

end QueryExec
