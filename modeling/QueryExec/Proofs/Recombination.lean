import QueryExec.Proofs.Segments
import QueryExec.Proofs.Trace

/-!
Grouping in pieces. An aggregation gives one row for each run of equal keys, so several rows may
be about one key when the rows do not come in the order of their keys. Combining the rows about
one key gives what grouping all rows at once gives, whatever the order. The runs that are given are
segments of the rows, and no two are about one key exactly when equal keys come together.
-/

namespace QueryExec

open QueryExec.Action

/-- Whether two keys are equal, column by column under the types of the columns. -/
def Catalog.keysAlike (catalog : Catalog) : List ColumnType → List Datum → List Datum → Bool
  | type :: types, left :: lefts, right :: rights =>
      catalog.keysEqual type.kind left right && catalog.keysAlike types lefts rights
  | _, _, _ => true

/-- Every value is NULL or of the kind of its column. -/
def FitColumns (types : List ColumnType) (values : List Datum) : Prop :=
  ∀ (place : Nat) (type : ColumnType) (value : Datum),
    types[place]? = some type → values[place]? = some value → value.Fits type.kind

section Fitting

variable {types : List ColumnType} {type : ColumnType} {values : List Datum} {value : Datum}

theorem FitColumns.head (fits : FitColumns (type :: types) (value :: values)) :
    value.Fits type.kind :=
  fits 0 type value rfl rfl

theorem FitColumns.tail (fits : FitColumns (type :: types) (value :: values)) :
    FitColumns types values :=
  fun place => fits (place + 1)

theorem FitColumns.take (fits : FitColumns types values) (count : Nat) :
    FitColumns types (values.take count) := by
  intro place type value ofType present
  refine fits place type value ofType ?_
  rw [List.getElem?_take] at present
  split at present
  · exact present
  · cases present

/-- Keys are equal exactly when their values stand for the same. -/
theorem keys_alike_iff (catalog : Catalog) {left right : List Datum}
    (enough : left.length ≤ types.length) (long : left.length = right.length)
    (fitsLeft : FitColumns types left) (fitsRight : FitColumns types right) :
    catalog.keysAlike types left right = true ↔
      left.map Datum.keyClass = right.map Datum.keyClass := by
  induction left generalizing types right with
  | nil =>
      cases right with
      | nil => cases types <;> simp [Catalog.keysAlike]
      | cons => cases long
  | cons first left induction =>
      cases right with
      | nil => cases long
      | cons second right =>
          cases types with
          | nil => cases enough
          | cons type types =>
              have others := induction (Nat.le_of_succ_le_succ enough) (Nat.succ.inj long)
                fitsLeft.tail fitsRight.tail
              unfold Catalog.keysAlike
              rw [Bool.and_eq_true, catalog.keys_equal_iff fitsLeft.head fitsRight.head, others]
              simp

end Fitting

/-- Each accumulator takes one value. -/
def Accumulator.TakeAll : List Accumulator → List Datum → List Accumulator → Prop
  | [], [], [] => True
  | accumulator :: rest, value :: values, next :: others =>
      accumulator.input value = .ok next ∧ TakeAll rest values others
  | _, _, _ => False

open Accumulator

section Taking

variable {accumulators nexts : List Accumulator} {values : List Datum}

theorem take_all_length (taken : TakeAll accumulators values nexts) :
    values.length = accumulators.length ∧ nexts.length = accumulators.length := by
  induction accumulators generalizing values nexts with
  | nil =>
      cases values <;> cases nexts <;> first | exact ⟨rfl, rfl⟩ | cases taken
  | cons accumulator rest induction =>
      cases values with
      | nil => cases nexts <;> cases taken
      | cons value values =>
          cases nexts with
          | nil => cases taken
          | cons next nexts =>
              obtain ⟨one, other⟩ := induction taken.2
              exact ⟨congrArg (· + 1) one, congrArg (· + 1) other⟩

theorem take_all_place (taken : TakeAll accumulators values nexts) {place : Nat}
    {next : Accumulator} (present : nexts[place]? = some next) :
    ∃ accumulator value, accumulators[place]? = some accumulator ∧ values[place]? = some value ∧
      accumulator.input value = .ok next := by
  induction accumulators generalizing values nexts place with
  | nil =>
      cases values <;> cases nexts <;> first | cases present | cases taken
  | cons accumulator rest induction =>
      cases values with
      | nil => cases nexts <;> cases taken
      | cons value values =>
          cases nexts with
          | nil => cases taken
          | cons first nexts =>
              cases place with
              | zero =>
                  cases present
                  exact ⟨accumulator, value, rfl, rfl, taken.1⟩
              | succ place => exact induction taken.2 present

end Taking

namespace Run

variable {catalog : Catalog} {view : View} {column keys : Nat} {key : List Datum}
  {types : List ColumnType} {accumulators nexts : List Accumulator} {run : Run}

theorem absorb_reads (absorbed : absorb view column accumulators = .ok nexts) :
    ∃ values, view.ShowsFrom column values ∧ TakeAll accumulators values nexts := by
  induction accumulators generalizing column nexts with
  | nil =>
      cases absorbed
      exact ⟨[], trivial, trivial⟩
  | cons accumulator rest induction =>
      obtain ⟨value, read, absorbed⟩ := ok_of_bind absorbed
      obtain ⟨next, taken, absorbed⟩ := ok_of_bind absorbed
      obtain ⟨others, left, same⟩ := ok_of_bind absorbed
      cases same
      obtain ⟨values, shown, takenToo⟩ := induction left
      exact ⟨value :: values, ⟨read, shown⟩, ok_of_map_error taken, takenToo⟩

/-- Where a row is read, its key is compared with the key of the run. -/
theorem matches_key_eq (enough : key.length ≤ types.length) {values : List Datum}
    (long : values.length = key.length) (shown : view.ShowsFrom column values) :
    matchesKey catalog view column key types = .ok (catalog.keysAlike types key values) := by
  induction key generalizing column types values with
  | nil =>
      unfold matchesKey Catalog.keysAlike
      cases types <;> rfl
  | cons current key induction =>
      cases values with
      | nil => cases long
      | cons value values =>
          cases types with
          | nil => cases enough
          | cons type types =>
              unfold matchesKey Catalog.keysAlike
              rw [shown.1]
              change (if catalog.keysEqual type.kind current value = true then _ else _) = _
              split
              next equal =>
                rw [induction (Nat.le_of_succ_le_succ enough) (Nat.succ.inj long) shown.2, equal,
                  Bool.true_and]
              next other => rw [Bool.eq_false_iff.mpr other, Bool.false_and]

/-- A key that is found equal was read to its end. -/
theorem matches_key_reads (enough : key.length ≤ types.length)
    (equal : matchesKey catalog view column key types = .ok true) :
    ∃ values, values.length = key.length ∧ view.ShowsFrom column values := by
  induction key generalizing column types with
  | nil => exact ⟨[], rfl, trivial⟩
  | cons current key induction =>
      cases types with
      | nil => cases enough
      | cons type types =>
          obtain ⟨value, read, equal⟩ := ok_of_bind equal
          split at equal
          · obtain ⟨values, long, shown⟩ := induction (Nat.le_of_succ_le_succ enough) equal
            exact ⟨value :: values, congrArg (· + 1) long, read, shown⟩
          · cases equal

/-- A row that begins a run is read to its end. -/
theorem begin_reads (begun : begin keys accumulators view = .ok run) :
    ∃ key values, key.length = keys ∧ view.ShowsFrom 0 (key ++ values) ∧ run.key = key ∧
      TakeAll accumulators values run.accumulators := by
  obtain ⟨key, read, begun⟩ := ok_of_bind begun
  obtain ⟨nexts, absorbed, same⟩ := ok_of_bind begun
  cases same
  rw [List.range_eq_range'] at read
  obtain ⟨long, shown⟩ := View.read_columns_iff.mp read
  obtain ⟨values, shownToo, taken⟩ := absorb_reads absorbed
  refine ⟨key, values, long, View.shows_append.mpr ⟨shown, ?_⟩, rfl, taken⟩
  rw [Nat.zero_add, long]
  exact shownToo

/-- A row that extends a run is read to its end. -/
theorem extend_reads (enough : run.key.length ≤ types.length) (long : run.key.length = keys)
    (equal : matchesKey catalog view 0 run.key types = .ok true) {longer : Run}
    (extended : run.extend keys view = .ok longer) :
    ∃ key values, key.length = keys ∧ view.ShowsFrom 0 (key ++ values) ∧
      catalog.keysAlike types run.key key = true ∧ longer.key = run.key ∧
      TakeAll run.accumulators values longer.accumulators := by
  obtain ⟨nexts, absorbed, same⟩ := ok_of_bind extended
  cases same
  obtain ⟨key, longToo, shown⟩ := matches_key_reads enough equal
  obtain ⟨values, shownToo, taken⟩ := absorb_reads absorbed
  refine ⟨key, values, longToo.trans long, View.shows_append.mpr ⟨shown, ?_⟩, ?_, rfl, taken⟩
  · rw [Nat.zero_add, longToo, long]
    exact shownToo
  · rw [matches_key_eq enough longToo shown] at equal
    exact Except.ok.inj equal

end Run

/-- A full row that has NULL or a value of the kind of the column in every column. -/
def RowOf (types : List ColumnType) (values : List Datum) : Prop :=
  values.length = types.length ∧ FitColumns types values

/-- What the key of a row stands for. -/
def keyClasses (keys : Nat) (row : List Datum) : List Datum.KeyClass :=
  (row.take keys).map Datum.keyClass

/-- The accumulators know the columns of these rows, one each. -/
def KnowAll (keys : Nat) (functions : List Combinable) (entries : List (List Datum))
    (accumulators : List Accumulator) : Prop :=
  accumulators.length = functions.length ∧
    ∀ (place : Nat) (function : Combinable) (accumulator : Accumulator),
      functions[place]? = some function → accumulators[place]? = some accumulator →
        function.Knows (columnOf keys place entries) accumulator

/-- The run adds up the rows of the segment. -/
structure Represents (types : List ColumnType) (keys : Nat) (functions : List Combinable)
    (segment : Segment (List Datum)) (run : Run) : Prop where
  key : run.key = segment.1.take keys
  knows : KnowAll keys functions segment.entries run.accumulators
  uniform : ∀ member ∈ segment.2, keyClasses keys member = keyClasses keys segment.1
  rows : ∀ entry ∈ segment.entries, RowOf types entry

/-- The table has the values of the rows. -/
def Tabulates (types : List ColumnType) (rows : List Row) (table : List (List Datum)) : Prop :=
  List.Forall₂ (fun row values => row.view.ShowsFrom 0 values ∧ RowOf types values) rows table

theorem Tabulates.full {types : List ColumnType} {rows : List Row} {table : List (List Datum)}
    (tabulated : Tabulates types rows table) : ∀ entry ∈ table, RowOf types entry := by
  have sorted := tabulated.flip.imp fun _ _ both => And.symm both
  exact ((List.forall₂_and_left _ _).mp sorted).1

section Runs

variable {catalog : Catalog} {types : List ColumnType} {keys : Nat} {functions : List Combinable}
  {view : View} {segment : Segment (List Datum)} {run : Run}

theorem row_of_key_length (width : types.length = keys + functions.length) {values : List Datum}
    (row : RowOf types values) : (values.take keys).length = keys := by
  rw [List.length_take, row.1, width]
  exact Nat.min_eq_left (Nat.le_add_right _ _)

/-- Keys of full rows are equal exactly when they stand for the same. -/
theorem row_keys_alike_iff (catalog : Catalog) (width : types.length = keys + functions.length)
    {left right : List Datum} (one : RowOf types left) (other : RowOf types right) :
    catalog.keysAlike types (left.take keys) (right.take keys) = true ↔
      keyClasses keys left = keyClasses keys right := by
  refine keys_alike_iff catalog ?_ ?_ (one.2.take keys) (other.2.take keys)
  · rw [row_of_key_length width one, width]
    exact Nat.le_add_right _ _
  · rw [row_of_key_length width one, row_of_key_length width other]

theorem exact_columns (width : types.length = keys + functions.length)
    (plain : ∀ type ∈ types.drop keys, type.kind.isFloating = false) {table : List (List Datum)}
    (rows : ∀ entry ∈ table, RowOf types entry) : ExactColumns keys functions table := by
  intro place function present
  have inside : keys + place < types.length := by
    rw [width]
    exact Nat.add_lt_add_left (List.getElem?_eq_some_iff.mp present).1 keys
  have ofType : types[keys + place]? = some types[keys + place] := List.getElem?_eq_getElem inside
  refine ⟨types[keys + place].kind, plain _ ?_, ?_⟩
  · rw [List.mem_iff_getElem?]
    exact ⟨place, by rw [List.getElem?_drop, ofType]⟩
  · intro value among
    obtain ⟨entry, isEntry, rfl⟩ := List.mem_map.mp among
    obtain ⟨long, fits⟩ := rows entry isEntry
    have insideToo : keys + place < entry.length := long ▸ inside
    have here : entry[keys + place]? = some entry[keys + place] :=
      List.getElem?_eq_getElem insideToo
    rw [here]
    exact fits _ _ _ ofType here

theorem know_all_fresh (keys : Nat) (functions : List Combinable) :
    KnowAll keys functions [] (functions.map Combinable.fresh) := by
  refine ⟨List.length_map _, ?_⟩
  intro place function accumulator present started
  rw [List.getElem?_map, present] at started
  cases started
  exact function.knows_fresh

/-- Accumulators that take one more row know one more row. -/
theorem know_all_take {entries : List (List Datum)} {key values : List Datum}
    {accumulators nexts : List Accumulator} (long : key.length = keys)
    (exact : ExactColumns keys functions (entries ++ [key ++ values]))
    (know : KnowAll keys functions entries accumulators)
    (taken : Accumulator.TakeAll accumulators values nexts) :
    KnowAll keys functions (entries ++ [key ++ values]) nexts := by
  refine ⟨(take_all_length taken).2.trans know.1, ?_⟩
  intro place function next present isNext
  obtain ⟨accumulator, value, isBefore, isValue, took⟩ := take_all_place taken isNext
  obtain ⟨kind, plain, fits⟩ := exact place function present
  have more : columnOf keys place (entries ++ [key ++ values]) =
      columnOf keys place entries ++ [value] := by
    unfold columnOf
    rw [List.map_append, List.map_singleton, List.getElem?_append_right (by omega), long,
      Nat.add_sub_cancel_left, isValue]
    rfl
  rw [more] at fits ⊢
  have fitsBefore : ∀ member ∈ columnOf keys place entries, member.Fits kind :=
    fun member among => fits member (List.mem_append_left _ among)
  exact Combinable.knows_input plain fitsBefore (fits value (by simp))
    (know.2 place function accumulator present isBefore) took

section Steps

variable (width : types.length = keys + functions.length)
  (plain : ∀ type ∈ types.drop keys, type.kind.isFloating = false)
  (fits : ∀ values, view.ShowsFrom 0 values → FitColumns types values)

include width plain fits

/-- A run begins with one row. -/
theorem represents_begun (begun : Run.begin keys (functions.map Combinable.fresh) view = .ok run) :
    ∃ values, RowOf types values ∧ view.ShowsFrom 0 values ∧
      Represents types keys functions (values, []) run := by
  obtain ⟨key, values, long, shown, isKey, taken⟩ := Run.begin_reads begun
  have row : RowOf types (key ++ values) := by
    refine ⟨?_, fits _ shown⟩
    rw [List.length_append, long, (take_all_length taken).1, List.length_map, width]
  have rows : ∀ entry ∈ [key ++ values], RowOf types entry := by
    intro entry among
    rw [List.mem_singleton.mp among]
    exact row
  refine ⟨key ++ values, row, shown, ?_, ?_, List.forall_mem_nil _, rows⟩
  · rw [isKey, List.take_left' long]
  · exact know_all_take long (exact_columns width plain rows) (know_all_fresh keys functions) taken

variable (represents : Represents types keys functions segment run)

include represents

/-- A row with the key of a run is one more row of it. -/
theorem represents_extended
    (equal : Run.matchesKey catalog view 0 run.key types = .ok true) {longer : Run}
    (extended : run.extend keys view = .ok longer) :
    ∃ values, RowOf types values ∧ view.ShowsFrom 0 values ∧
      Represents types keys functions (segment.1, segment.2 ++ [values]) longer := by
  have isFirst := represents.rows segment.1 List.mem_cons_self
  have long : run.key.length = keys := by
    rw [represents.key]
    exact row_of_key_length width isFirst
  obtain ⟨key, values, longToo, shown, alike, same, taken⟩ :=
    Run.extend_reads (by omega) long equal extended
  have row : RowOf types (key ++ values) := by
    refine ⟨?_, fits _ shown⟩
    rw [List.length_append, longToo, (take_all_length taken).1, represents.knows.1, width]
  have rows : ∀ entry ∈ segment.entries ++ [key ++ values], RowOf types entry := by
    intro entry among
    rcases List.mem_append.mp among with old | new
    · exact represents.rows entry old
    · rw [List.mem_singleton.mp new]
      exact row
  refine ⟨key ++ values, row, shown, same.trans represents.key, ?_, ?_, rows⟩
  · exact know_all_take longToo (exact_columns width plain rows) represents.knows taken
  · intro member among
    rcases List.mem_append.mp among with old | new
    · exact represents.uniform member old
    · have isKey : (key ++ values).take keys = key := List.take_left' longToo
      rw [represents.key, ← isKey] at alike
      rw [List.mem_singleton.mp new]
      exact ((row_keys_alike_iff catalog width isFirst row).mp alike).symm

omit plain fits in
/-- A row with another key does not stand for the key of the run. -/
theorem represents_ended
    (other : Run.matchesKey catalog view 0 run.key types = .ok false) {values : List Datum}
    (row : RowOf types values) (shown : view.ShowsFrom 0 values) :
    keyClasses keys segment.1 ≠ keyClasses keys values := by
  intro same
  have isFirst := represents.rows segment.1 List.mem_cons_self
  have long : run.key.length = keys := by
    rw [represents.key]
    exact row_of_key_length width isFirst
  rw [← List.take_append_drop keys values] at shown
  rw [Run.matches_key_eq (by omega) ((row_of_key_length width row).trans long.symm)
    (View.shows_append.mp shown).1, represents.key,
    (row_keys_alike_iff catalog width isFirst row).mpr same] at other
  cases other

omit plain fits in
/-- What is given of a run tells its segment. -/
theorem represents_tells (countable : segment.entries.length < 2 ^ 63) :
    Tells keys functions segment (run.key ++ run.accumulators.map Accumulator.result) := by
  have long : run.key.length = keys := by
    rw [represents.key]
    exact row_of_key_length width (represents.rows segment.1 List.mem_cons_self)
  refine ⟨(List.take_left' long).trans represents.key, ?_⟩
  intro place function present
  have inside : place < run.accumulators.length := by
    rw [represents.knows.1]
    exact (List.getElem?_eq_some_iff.mp present).1
  have found : run.accumulators[place]? = some run.accumulators[place] :=
    List.getElem?_eq_getElem inside
  rw [List.getElem?_append_right (by omega), long, Nat.add_sub_cancel_left, List.getElem?_map,
    found]
  refine Combinable.expresses_result (represents.knows.2 place function _ present found) ?_
  unfold columnOf
  rw [List.length_map]
  exact countable

end Steps

end Runs

theorem empties_express (functions : List Combinable) :
    (functions.map Combinable.fresh).map Accumulator.emptyResult =
      (functions.map Combinable.fresh).map Accumulator.result := by
  rw [List.map_map, List.map_map]
  apply List.map_congr_left
  intro function _
  cases function <;> rfl

/-- Results over no values tell the empty group. -/
theorem combined_empties {function : Combinable} {functions : List Combinable} {place : Nat}
    (present : functions[place]? = some function) :
    function.combined (columnOf 0 place [(functions.map Combinable.fresh).map Accumulator.result]) =
      function.total (columnOf 0 place []) := by
  have result : columnOf 0 place [(functions.map Combinable.fresh).map Accumulator.result] =
      [function.fresh.result] := by
    simp [columnOf, present]
  rw [result]
  have plain : Kind.isFloating .boolean = false := rfl
  have expressed : List.Forall₂ function.Expresses [[]] [function.fresh.result] :=
    .cons (Combinable.expresses_result function.knows_fresh (by simp)) .nil
  exact Combinable.combined_eq plain (by simp) expressed

/-- A row that is made of a run shows what the run adds up to. -/
theorem run_row_values (run : Run) (id : Nat) {type : RowType}
    (width : (run.key ++ run.accumulators.map Accumulator.result).length = type.width) :
    (run.row id type).view.values =
      .ok (run.key ++ run.accumulators.map Accumulator.result) :=
  stored_values id width

/-- The emitted rows tell, combined by their keys, what the table groups to. With key columns
there are as many as keys at least, and no more exactly when equal keys come together. -/
structure Regroups (same : List Datum → List Datum → Bool) (keys : Nat)
    (functions : List Combinable) (table emitted : List (List Datum)) : Prop where
  groups : recombined same keys functions emitted = groupBy same keys functions table
  most : 0 < keys → (firsts same (table.map (·.take keys))).length ≤ emitted.length
  together : 0 < keys → ((firsts same (table.map (·.take keys))).length = emitted.length ↔
    Contiguous same (table.map (·.take keys)))

namespace Grouping

section Pieces

variable {catalog : Catalog} {plan : GroupingPlan} {functions : List Combinable}

/-- The run that a given row is made of adds up the segment. -/
def TellsOf (plan : GroupingPlan) (functions : List Combinable) (segment : Segment (List Datum))
    (emitted : Emitted) : Prop :=
  ∃ id run, emitted.row = run.row id plan.outputType ∧
    Represents plan.inputType.columns plan.keys functions segment run

/-- Rows go on where a segment is open: they read as a table, and the given rows tell the segments of
the open one and the table together. -/
structure Cuts (plan : GroupingPlan) (functions : List Combinable)
    (segment : Segment (List Datum)) (rows : List Row) (given : List Emitted)
    (table : List (List Datum)) (segments : List (Segment (List Datum))) : Prop where
  tabulates : Tabulates plan.inputType.columns rows table
  all : Segment.all segments = segment.entries ++ table
  segmented : Segmented (keyClasses plan.keys) segments
  head : segments.head?.map Prod.fst = some segment.1
  told : List.Forall₂ (TellsOf plan functions) segments given

section Cutting

variable {segment : Segment (List Datum)} {emitted : Emitted} {row : Row}
  {rows : List Row} {values : List Datum} {given : List Emitted} {table : List (List Datum)}
  {segments : List (Segment (List Datum))}

theorem cuts_last (told : TellsOf plan functions segment emitted) :
    Cuts plan functions segment [] [emitted] [] [segment] where
  tabulates := .nil
  all := rfl
  segmented := by
    obtain ⟨_, _, _, represents⟩ := told
    refine ⟨fun one among => ?_, .singleton segment⟩
    rw [List.mem_singleton.mp among]
    exact represents.uniform
  head := rfl
  told := .cons told .nil

/-- A row that joins the open segment. -/
theorem Cuts.joined (shown : row.view.ShowsFrom 0 values)
    (isRow : RowOf plan.inputType.columns values)
    (rest : Cuts plan functions (segment.1, segment.2 ++ [values]) rows given table segments) :
    Cuts plan functions segment (row :: rows) given (values :: table) segments where
  tabulates := .cons ⟨shown, isRow⟩ rest.tabulates
  all := by
    rw [rest.all]
    simp [Segment.entries]
  segmented := rest.segmented
  head := rest.head
  told := rest.told

/-- A row that ends the open segment and opens the next. -/
theorem Cuts.changed (shown : row.view.ShowsFrom 0 values)
    (isRow : RowOf plan.inputType.columns values)
    (told : TellsOf plan functions segment emitted)
    (changes : keyClasses plan.keys segment.1 ≠ keyClasses plan.keys values)
    (rest : Cuts plan functions (values, []) rows given table segments) :
    Cuts plan functions segment (row :: rows) (emitted :: given) (values :: table)
      (segment :: segments) where
  tabulates := .cons ⟨shown, isRow⟩ rest.tabulates
  all := by
    change segment.entries ++ Segment.all segments = _
    rw [rest.all]
    rfl
  segmented := by
    obtain ⟨_, _, _, represents⟩ := told
    refine ⟨List.forall_mem_cons.mpr ⟨represents.uniform, rest.segmented.uniform⟩, ?_⟩
    have head := rest.head
    cases segments with
    | nil => exact .singleton segment
    | cons following segments =>
        cases head
        exact List.isChain_cons_cons.mpr ⟨changes, rest.segmented.changing⟩
  head := rfl
  told := .cons told rest.told

end Cutting

variable (width : plan.inputType.columns.length = plan.keys + functions.length)

include width

/-- The values of the given rows tell the segments. -/
theorem tells_of_read (wide : plan.outputType.width = plan.keys + functions.length)
    {segments : List (Segment (List Datum))} {given : List Emitted} {values : List (List Datum)}
    (made : List.Forall₂ (TellsOf plan functions) segments given)
    (read : List.Forall₂ (fun emitted row => emitted.row.view.values = .ok row) given values)
    (countable : ∀ segment ∈ segments, segment.entries.length < 2 ^ 63) :
    List.Forall₂ (Tells plan.keys functions) segments values := by
  induction made generalizing values with
  | nil =>
      cases read
      exact .nil
  | @cons segment emitted segments given isMade _ induction =>
      obtain ⟨id, run, isRow, represents⟩ := isMade
      cases read with
      | cons first rest =>
          refine .cons ?_ (induction rest fun one among =>
            countable one (List.mem_cons_of_mem segment among))
          have long : (run.key ++ run.accumulators.map Accumulator.result).length =
              plan.outputType.width := by
            rw [List.length_append, List.length_map, represents.knows.1, represents.key, wide,
              row_of_key_length width (represents.rows segment.1 List.mem_cons_self)]
          rw [isRow, run_row_values run id long] at first
          cases first
          exact represents_tells width represents (countable segment List.mem_cons_self)

variable (plain : ∀ type ∈ plan.inputType.columns.drop plan.keys, type.kind.isFloating = false)

include plain

/-- From an open run on, the given rows tell segments of the table: by induction on the rows, each
of which is one more row of the open run or ends it and begins the next. -/
theorem emissions_segments {rows : List Row}
    (own : ∀ row ∈ rows, row.type.same plan.inputType = true)
    (fits : ∀ row ∈ rows, ∀ values, row.view.ShowsFrom 0 values →
      FitColumns plan.inputType.columns values)
    {segment : Segment (List Datum)} {run : Run}
    (represents : Represents plan.inputType.columns plan.keys functions segment run)
    {unused : Nat}
    (complete : (emissions catalog plan (functions.map Combinable.fresh) unused (some run)
      rows).ending = none) :
    ∃ table segments, Cuts plan functions segment rows
      (emissions catalog plan (functions.map Combinable.fresh) unused (some run) rows).given
      table segments := by
  induction rows generalizing segment run unused with
  | nil => exact ⟨[], [segment], cuts_last ⟨unused, run, rfl, represents⟩⟩
  | cons row rest induction =>
      have isOwn := own row List.mem_cons_self
      have isFit := fits row List.mem_cons_self
      have others := @induction (fun other among => own other (List.mem_cons_of_mem row among))
        fun other among => fits other (List.mem_cons_of_mem row among)
      cases compared : Run.matchesKey catalog row.view 0 run.key plan.inputType.columns with
      | error interrupt =>
          rw [emissions_not_compared isOwn compared] at complete
          cases complete
      | ok equal =>
          cases equal with
          | true =>
              cases extended : run.extend plan.keys row.view with
              | error interrupt =>
                  rw [emissions_not_extended isOwn compared extended] at complete
                  cases complete
              | ok longer =>
                  rw [emissions_extended isOwn compared extended] at complete ⊢
                  obtain ⟨values, isRow, shown, represents⟩ :=
                    represents_extended width plain isFit represents compared extended
                  obtain ⟨table, segments, cuts⟩ := others represents complete
                  exact ⟨values :: table, segments, cuts.joined shown isRow⟩
          | false =>
              rw [emissions_ended isOwn compared] at complete ⊢
              cases begun : Run.begin plan.keys (functions.map Combinable.fresh) row.view with
              | error interrupt =>
                  rw [emissions_not_begun isOwn begun] at complete
                  cases complete
              | ok next =>
                  rw [emissions_begun isOwn begun] at complete ⊢
                  obtain ⟨values, isRow, shown, begins⟩ :=
                    represents_begun width plain isFit begun
                  obtain ⟨table, segments, cuts⟩ := others begins complete
                  exact ⟨values :: table, segment :: segments,
                    cuts.changed shown isRow ⟨unused, run, rfl, represents⟩
                      (represents_ended width represents compared isRow shown)⟩

omit width plain in
/-- Without rows there is at most the row that an aggregation without keys gives, and it tells the
empty group. -/
theorem emissions_regroup_empty (wide : plan.outputType.width = plan.keys + functions.length)
    {unused : Nat} {emitted : List (List Datum)}
    (reads : (emissions catalog plan (functions.map Combinable.fresh) unused none []).Reads
      emitted) :
    Regroups (catalog.keysAlike plan.inputType.columns) plan.keys functions [] emitted := by
  obtain ⟨_, read⟩ := reads
  have outcome : emissions catalog plan (functions.map Combinable.fresh) unused none [] =
      lastly plan (functions.map Combinable.fresh) unused none := rfl
  rw [outcome] at read
  unfold lastly at read
  dsimp only at read
  split at read
  next keyless =>
    rw [empties_express functions] at read
    have long : ([] ++ (functions.map Combinable.fresh).map Accumulator.result).length =
        plan.outputType.width := by
      rw [wide, keyless]
      simp
    cases read with
    | cons first rest =>
        cases rest
        have first : (Run.row ⟨[], functions.map Combinable.fresh⟩ unused
          plan.outputType).view.values = .ok _ := first
        rw [run_row_values _ unused long] at first
        cases first
        refine ⟨?_, fun keyed => by omega, fun keyed => by omega⟩
        unfold recombined groupBy grouped groupKeys
        rw [if_pos keyless, if_pos keyless, keyless]
        refine congrArg (fun totals => [([], totals)]) (List.map_congr_left ?_)
        rintro ⟨function, place⟩ member
        have alike : ∀ types, catalog.keysAlike types [] [] = true := by
          intro types
          cases types <;> rfl
        have present : functions[place]? = some function := List.mem_zipIdx_iff_getElem?.mp member
        simpa [alike] using combined_empties present
  next keyed =>
    cases read
    refine ⟨?_, fun _ => Nat.le_refl _, fun _ => ⟨fun _ => ?_, fun _ => rfl⟩⟩
    · unfold recombined groupBy grouped groupKeys
      rw [if_neg keyed]
      rfl
    · intro _ _ _ _ _ _ _ _ present
      cases present

variable (plan) in
/-- Whatever the order of the rows, the given rows regroup to what all rows group to. -/
theorem emissions_regroup {rows : List Row}
    (own : ∀ row ∈ rows, row.type.same plan.inputType = true)
    (fits : ∀ row ∈ rows, ∀ values, row.view.ShowsFrom 0 values →
      FitColumns plan.inputType.columns values)
    (wide : plan.outputType.width = plan.keys + functions.length)
    (countable : rows.length < 2 ^ 63) {unused : Nat} {emitted : List (List Datum)}
    (reads : (emissions catalog plan (functions.map Combinable.fresh) unused none rows).Reads
      emitted) :
    ∃ table, Tabulates plan.inputType.columns rows table ∧
      Regroups (catalog.keysAlike plan.inputType.columns) plan.keys functions table emitted := by
  obtain ⟨complete, read⟩ := reads
  cases rows with
  | nil => exact ⟨[], .nil, emissions_regroup_empty wide ⟨complete, read⟩⟩
  | cons row rest =>
      have isOwn := own row List.mem_cons_self
      cases begun : Run.begin plan.keys (functions.map Combinable.fresh) row.view with
      | error interrupt =>
          rw [emissions_not_begun isOwn begun] at complete
          cases complete
      | ok run =>
          rw [emissions_begun isOwn begun] at complete read
          obtain ⟨values, isRow, shown, begins⟩ :=
            represents_begun width plain (fits row List.mem_cons_self) begun
          obtain ⟨table, segments, others, all, segmented, _, made⟩ :=
            emissions_segments width plain
              (fun other among => own other (List.mem_cons_of_mem row among))
              (fun other among => fits other (List.mem_cons_of_mem row among)) begins complete
          have tabulated : Tabulates plan.inputType.columns (row :: rest) (values :: table) :=
            .cons ⟨shown, isRow⟩ others
          refine ⟨values :: table, tabulated, ?_⟩
          have whole : Segment.all segments = values :: table := all
          rw [← whole] at tabulated ⊢
          have isTable := tabulated.full
          have tells := tells_of_read width wide made read fun segment among =>
            Nat.lt_of_le_of_lt (Segment.entries_length_le among) (tabulated.length_eq ▸ countable)
          have classifies : Classifies (catalog.keysAlike plan.inputType.columns)
              (List.map Datum.keyClass) ((Segment.all segments).map (·.take plan.keys)) := by
            intro first isFirst second isSecond
            obtain ⟨left, isLeft, rfl⟩ := List.mem_map.mp isFirst
            obtain ⟨right, isRight, rfl⟩ := List.mem_map.mp isSecond
            exact row_keys_alike_iff catalog width (isTable left isLeft) (isTable right isRight)
          have counted := segments_count (Segmented.of_rows segmented)
            (Segment.all_map (fun row : List Datum => row.take plan.keys) segments ▸ classifies)
          rw [Segment.all_map, List.length_map, tells.length_eq] at counted
          exact {
            groups := recombined_segments segmented classifies tells
              (exact_columns width plain isTable)
            most := fun _ => counted.1
            together := fun _ => counted.2 }

end Pieces

end Grouping

theorem start_combinable (functions : List Combinable) :
    Plan.startAccumulators (functions.map Combinable.aggregate) =
      .ok (functions.map Combinable.fresh) := by
  unfold Plan.startAccumulators
  induction functions with
  | nil => rfl
  | cons function functions induction =>
      rw [List.map_cons, List.mapM_cons, function.start_aggregate, induction]
      rfl

theorem aggregate_types_length {aggregates : List Aggregate} {columns types : List ColumnType}
    (typed : Plan.aggregateTypes aggregates columns = .ok types)
    (long : columns.length = aggregates.length) : types.length = aggregates.length := by
  induction aggregates generalizing columns types with
  | nil =>
      cases typed
      rfl
  | cons aggregate aggregates induction =>
      cases columns with
      | nil => cases long
      | cons column columns =>
          obtain ⟨_, _, typed⟩ := ok_of_bind typed
          obtain ⟨type, _, typed⟩ := ok_of_bind typed
          obtain ⟨others, rest, made⟩ := ok_of_bind typed
          cases made
          exact congrArg (· + 1) (induction rest (Nat.succ.inj long))

/-- A plan that is built has a column for each key and each function, and so has what it emits. -/
theorem widths_of_built {types outTypes : List ColumnType} {keys : Nat}
    {aggregates : List Aggregate}
    (built : Plan.groupedTypes types keys aggregates = .ok outTypes) :
    types.length = keys + aggregates.length ∧ outTypes.length = keys + aggregates.length := by
  unfold Plan.groupedTypes at built
  split at built
  next same =>
    obtain ⟨results, typed, made⟩ := ok_of_bind built
    cases made
    refine ⟨same.symm, ?_⟩
    have long : results.length = aggregates.length :=
      aggregate_types_length typed (by rw [List.length_drop]; omega)
    rw [List.length_append, List.length_take, long]
    omega
  next => cases built

/-- The rows of a table are read to their ends. -/
theorem map_of_tabulates {types : List ColumnType} {rows : List Row} {table : List (List Datum)}
    (tabulated : Tabulates types rows table) :
    rows.mapM (fun row => (List.range types.length).mapM row.meaning) = .ok table := by
  induction tabulated with
  | nil => rfl
  | cons both _ induction =>
      obtain ⟨shown, long, _⟩ := both
      rw [List.mapM_cons, induction, List.range_eq_range',
        show (List.range' 0 types.length).mapM (Row.meaning _) = .ok _ from
          View.read_columns_iff.mpr ⟨long, shown⟩]
      rfl

namespace Session

/-- Whatever a session did before and whatever the order of the rows: when an aggregation of counts,
sums of whole numbers, least and greatest values succeeds, its rows regroup to what all rows group
to. Counts are numbers of a bigint, and so is the number of rows of every list in memory. -/
theorem partial_groups_recombine {session : Session} (reached : session.Reached fun _ => True)
    {name : String} {slice : Nat} {type out : RowType} {rows : List Row} {keys : Nat}
    {functions : List Combinable}
    (offered : session.plans.get? name = some
      (.aggregate (.values slice type rows) out keys (functions.map Combinable.aggregate)))
    (built : Plan.groupedTypes type.columns keys (functions.map Combinable.aggregate) =
      .ok out.columns)
    (exact : ∀ column ∈ type.columns.drop keys, column.kind.isFloating = false)
    (declared : ∀ row ∈ rows, row.type.same type = true)
    (conforming : ∀ row ∈ rows, ∀ (column : Nat) (columnType : ColumnType) (value : Datum),
      type.columns[column]? = some columnType → row.meaning column = .ok value →
        value.Fits columnType.kind)
    (countable : rows.length < 2 ^ 63) {context : Context} {bindings : Bindings}
    {emitted : List (List Datum)}
    (executed : (((Plan.aggregate (.values slice type rows) out keys
      (functions.map Combinable.aggregate)).execute context bindings).run session.engine).1 =
        .ok emitted) :
    ∃ table, rows.mapM (fun row => (List.range type.width).mapM row.meaning) = .ok table ∧
      Regroups (context.catalog.keysAlike type.columns) keys functions table emitted := by
  obtain ⟨census, covered⟩ := reached.covered
  have listed : ∀ row ∈ rows, row.Listed census := Table.every_get covered.names.plans offered
  have ready := start_combinable functions
  have uncancelled : (session.engine.journal.of context).cancelled = false := by
    rw [← Bool.not_eq_true]
    exact fun cancelled => answer_of_ends (Plan.execute_cancelled bindings ready cancelled) executed
  have reads := answer_of_ends
    (Plan.execute_reads bindings ready ⟨uncancelled, covered.engine.faithful⟩ listed) executed
  obtain ⟨width, wide⟩ := widths_of_built built
  rw [List.length_map] at width wide
  have fits : ∀ row ∈ rows, ∀ values, row.view.ShowsFrom 0 values →
      FitColumns type.columns values := by
    intro row among values shown column columnType value ofType present
    have read := View.shows_iff.mp shown column value present
    rw [Nat.zero_add] at read
    exact conforming row among column columnType value ofType read
  obtain ⟨table, tabulated, regroups⟩ :=
    Grouping.emissions_regroup ⟨type, out, keys⟩ width exact declared fits wide countable reads
  exact ⟨table, map_of_tabulates tabulated, regroups⟩

end Session

/-! Totals of three sales, of which the first and the last are of one region. -/

namespace Sales

open Session Counting

def session : Session :=
  new.after [.type "sale" [⟨.text, true⟩, ⟨.bigint, true⟩],
    .plan "totals" (.aggregate (.values "sale" [.ofValues [.text "north", count 1],
      .ofValues [.null, .null], .ofValues [.text "north", count 2]]) 1 [⟨.sum, none⟩])]

def sale : RowType := ⟨1, [⟨.text, true⟩, ⟨.bigint, true⟩]⟩

def rows : List Row :=
  [.stored 2 sale [.text "north", count 1], .stored 3 sale [.null, .null],
    .stored 4 sale [.text "north", count 2]]

def plan : Plan :=
  .aggregate (.values 5 sale rows) ⟨2, [⟨.text, true⟩, ⟨.bigint, true⟩]⟩ 1 [⟨.sum, none⟩]

def totals : List (List Datum) :=
  [[.text "north", count 1], [.null, .null], [.text "north", count 2]]

theorem stored_fits (id : Nat) {region amount : Datum} (first : region.Fits .text)
    (second : amount.Fits .bigint) {column : Nat} {columnType : ColumnType} {value : Datum}
    (ofType : sale.columns[column]? = some columnType)
    (read : (Row.stored id sale [region, amount]).meaning column = .ok value) :
    value.Fits columnType.kind := by
  have same : (Row.stored id sale [region, amount]).meaning column =
      entry [region, amount] column :=
    congrFun (congrArg View.column (view_stored id sale [region, amount])) column
  rw [same] at read
  match column with
  | 0 =>
      cases ofType
      cases read
      exact first
  | 1 =>
      cases ofType
      cases read
      exact second
  | _ + 2 => cases ofType

theorem totals_regroup :
    session.Reached (fun _ => True) ∧
    ((plan.execute session.context .empty).run session.engine).1 = .ok totals ∧
    recombined (session.context.catalog.keysAlike sale.columns) 1 [.sum] totals =
      [([.text "north"], [.sum (some 3)]), ([.null], [.sum none])] ∧
    ∃ table, rows.mapM (fun row => (List.range sale.width).mapM row.meaning) = .ok table ∧
      Regroups (session.context.catalog.keysAlike sale.columns) 1 [.sum] table totals := by
  have reached : session.Reached fun _ => True := new_reached.after _
  have executed : ((plan.execute session.context .empty).run session.engine).1 = .ok totals := by
    decide +kernel
  have conforming : ∀ row ∈ rows, ∀ (column : Nat) (columnType : ColumnType) (value : Datum),
      sale.columns[column]? = some columnType → row.meaning column = .ok value →
        value.Fits columnType.kind := by
    intro row among column columnType value ofType read
    simp only [rows, List.mem_cons, List.not_mem_nil, or_false] at among
    rcases among with rfl | rfl | rfl
    · exact stored_fits 2 (.inr rfl) (.inr rfl) ofType read
    · exact stored_fits 3 (.inl rfl) (.inl rfl) ofType read
    · exact stored_fits 4 (.inr rfl) (.inr rfl) ofType read
  exact ⟨reached, executed, by decide +kernel, partial_groups_recombine reached
    (show session.plans.get? "totals" = some plan from rfl) rfl (by decide) (by decide) conforming
    (by decide) executed⟩

end Sales

end QueryExec
