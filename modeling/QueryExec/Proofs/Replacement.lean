import QueryExec.Proofs.Cursor.Feeding
import QueryExec.Update

/-!
What an update makes of one row. It is a function of what can be seen of the old row: whether the
row is selected, and then the values of all columns, each from the old row. Applying the update
replaces the row by these values in its place of the table, after a lock that may fail; a failure
leaves the store as it was.
-/

namespace QueryExec

open QueryExec.Action

/-- The value that a cast gives. -/
def Context.converted (context : Context) (value : Datum) (target : Kind) :
    Except Interrupt Datum :=
  match context.catalog.convert value target with
  | .ok converted => .ok converted
  | .error cause =>
      if context.settings.castErrorsFatal then .error (.failed (.cast cause)) else .ok .null

namespace Update

/-- Whether the selector is true of a row; without one every row is selected. -/
def selection (update : Update) (context : Context) (bindings : Bindings) (old : View) :
    Except Interrupt Bool :=
  match update.selector? with
  | some selector => (old.eval context bindings selector).map Datum.isTrue
  | none => .ok true

/-- The new value of a column: the old one, or what is assigned on the old row, cast where it is of
another kind than the column. -/
def replaced (context : Context) (bindings : Bindings) (old : View) (column : Nat) (kind : Kind) :
    Option Expr → Except Interrupt Datum
  | none => old.column column
  | some expression => do
      let value ← (old.eval context bindings expression).mapError (·.atColumn column)
      match value.kind? with
      | some actual =>
          if actual = kind then .ok value
          else (context.converted value kind).mapError (·.atColumn column)
      | none => .ok value

/-- The new values of the columns from `column` on, in their order. -/
def replacedFrom (context : Context) (bindings : Bindings) (old : View) (column : Nat)
    (assignments : List (Option Expr)) (types : List ColumnType) : Except Interrupt (List Datum) :=
  ((assignments.zip types).zipIdx column).mapM fun entry =>
    replaced context bindings old entry.2 entry.1.2.kind entry.1.1

/-- What the update makes of a row: new values if it is selected. -/
def verdict (update : Update) (context : Context) (bindings : Bindings) (row : Row) :
    Except Interrupt (Option (List Datum)) := do
  if ← update.selection context bindings row.view then
    let values ←
      replacedFrom context bindings row.view 0 update.assignments update.input.rowType.columns
    .ok (some values)
  else .ok none

section Reading

variable {context : Context} {census : Census} {row : Row} {bindings : Bindings}

theorem cast_yields (own : Context) (value : Datum) (target : Kind) :
    Yields (Journal.Sound context census) (own.cast value target) (own.converted value target) := by
  unfold Context.cast Context.converted
  cases own.catalog.convert value target with
  | ok converted => exact yields_pure converted
  | error cause =>
      unfold Context.recover
      cases own.settings.castErrorsFatal with
      | true => exact yields_bind (yields_fail _) fun _ => yields_pure Datum.null
      | false =>
          have warns : Yields (Journal.Sound context census) (own.warn cause.message) (.ok ()) :=
            yields_modify fun _ sound => sound.warn own cause.message
          exact yields_bind warns fun _ => yields_pure Datum.null

theorem selects_yields (listed : row.Listed census) (bound : bindings.Listed census)
    (own : Context) (update : Update) :
    Yields (Journal.Sound context census) (update.selects (row.scope own bindings))
      (update.selection own bindings row.view) := by
  unfold selects selection
  cases update.selector? with
  | none => exact yields_pure true
  | some selector =>
      have judged : (row.view.eval own bindings selector).map Datum.isTrue =
          row.view.eval own bindings selector >>= fun value => .ok value.isTrue := by
        cases row.view.eval own bindings selector <;> rfl
      dsimp only
      rw [judged]
      exact yields_bind (eval_yields listed bound own selector) fun value =>
        yields_pure value.isTrue

theorem new_value_yields (listed : row.Listed census) (bound : bindings.Listed census)
    (own : Context) (column : Nat) (kind : Kind) (assignment : Option Expr) :
    Yields (Journal.Sound context census)
      (newValue own (row.scope own bindings) kind column assignment)
      (replaced own bindings row.view column kind assignment) := by
  cases assignment with
  | none => exact row.read_yields listed column
  | some expression =>
      apply yields_bind (yields_at_column (eval_yields listed bound own expression) column)
      intro value
      cases value.kind? with
      | none => exact yields_pure value
      | some actual =>
          dsimp only
          split
          · exact yields_pure value
          · exact yields_at_column (cast_yields own value kind) column

theorem new_values_yields (listed : row.Listed census) (bound : bindings.Listed census)
    (own : Context) (column : Nat) (assignments : List (Option Expr)) (types : List ColumnType) :
    Yields (Journal.Sound context census)
      (newValues own (row.scope own bindings) column assignments types)
      (replacedFrom own bindings row.view column assignments types) := by
  induction assignments generalizing column types with
  | nil => exact yields_pure []
  | cons assignment assignments induction =>
      cases types with
      | nil => exact yields_pure []
      | cons type types =>
          unfold replacedFrom
          rw [List.zip_cons_cons, List.zipIdx_cons, List.mapM_cons]
          exact yields_bind (new_value_yields listed bound own column type.kind assignment)
            fun _ => yields_bind (induction (column + 1) types) fun _ => yields_pure _

/-- There are as many new values as columns. -/
theorem replaced_from_length {old : View} {column : Nat} {assignments : List (Option Expr)}
    {types : List ColumnType} {values : List Datum} (arity : assignments.length = types.length)
    (made : replacedFrom context bindings old column assignments types = .ok values) :
    values.length = types.length := by
  induction assignments generalizing column types values with
  | nil =>
      cases made
      exact arity
  | cons assignment assignments induction =>
      cases types with
      | nil => cases arity
      | cons type types =>
          unfold replacedFrom at made
          rw [List.zip_cons_cons, List.zipIdx_cons, List.mapM_cons] at made
          obtain ⟨value, _, made⟩ := ok_of_bind made
          obtain ⟨others, rest, same⟩ := ok_of_bind made
          cases same
          exact congrArg (· + 1) (induction (Nat.succ.inj arity) rest)

end Reading

end Update

namespace Engine

variable {engine : Engine} {faulty : LeafCall → Prop}

/-- The lock is counted unless the storage boundary refuses it. -/
theorem lock_row_agrees (faults : engine.FaultsWithin faulty) :
    EndsIn engine lockRow
      (fun _ after => after = { engine.noted .lock with
        store := { engine.store with lockedRows := engine.store.lockedRows + 1 } })
      fun interrupt after => after = engine.noted .lock ∧ interrupt.IsFaultOf faulty [.lock] := by
  refine agree_then (fun _ after => after = engine.noted .lock) ⟨rfl, rfl⟩ ?_
  rintro _ _ rfl
  refine agree_reaching (engine.noted .lock)
    (agree_inject_fault faults rfl fun admitted => ⟨rfl, .lock, by simp, admitted, rfl⟩) fun _ => ?_
  exact ⟨rfl, rfl⟩

/-- A stored row is replaced in its place by a new row of the type of the table. -/
theorem update_row_agrees {good : Journal → Prop} {name : String} {table : StoredTable}
    {old new : Row} {position : Nat} {values : List Datum}
    (stored : engine.store.tables.get? name = some table)
    (found : table.position? old = some position)
    (shaped : new.type.sameShape table.type = true)
    (reads : Yields good new.readAll new.view.values) (holds : good engine.journal)
    (read : new.view.values = .ok values) :
    EndsIn engine (updateRow name old new)
      (fun _ after => ∃ journal, good journal ∧ after = { engine with
        journal
        nextId := engine.nextId + 1
        store := engine.store.setTable name
          (table.replaceAt position (.stored engine.nextId table.type values)) })
      fun _ _ => False := by
  refine agree_bind (agree_weaken (stored_table_agrees name engine) (fun _ _ => id) ?_) ?_
  · rintro _ _ ⟨missing, _⟩
    cases stored.symm.trans missing
  rintro _ _ ⟨present, rfl⟩
  cases stored.symm.trans present
  refine agree_bind (agree_weaken (position_of_agrees (fun _ _ => agree_anyhow old.describe _)
    trivial) (fun _ _ => id) ?_) ?_
  · rintro _ _ ⟨missing, _⟩
    cases found.symm.trans missing
  rintro _ _ ⟨present, rfl⟩
  cases found.symm.trans present
  refine agree_bind (agree_weaken (materialise_agrees reads holds) (fun _ _ => id) ?_) ?_
  · rintro _ _ ⟨failed, _⟩
    cases read.symm.trans (failed shaped)
  rintro _ _ ⟨journal, _, still, same, rfl, rfl⟩
  cases read.symm.trans same
  exact ⟨rfl, journal, still, rfl⟩

end Engine

namespace Update

variable {update : Update} {context : Context} {census : Census} {faulty : LeafCall → Prop}
  {bindings : Bindings} {row : Row} {table : StoredTable} {position : Nat} {engine : Engine}

/-- What dealing with one row does to the engine: nothing to the store if the row is not selected;
else the row at its position is replaced by a new one with the new values, and one more lock is
counted. -/
def Deals (update : Update) (context : Context) (bindings : Bindings) (row : Row)
    (table : StoredTable) (position : Nat) (engine : Engine) : Bool → Engine → Prop
  | false, after => update.verdict context bindings row = .ok none ∧ after.store = engine.store ∧
      after.nextId = engine.nextId
  | true, after => ∃ values id, update.verdict context bindings row = .ok (some values) ∧
      engine.nextId ≤ id ∧ after.nextId = id + 1 ∧
      after.store = { engine.store.setTable update.table
          (table.replaceAt position (.stored id table.type values)) with
        lockedRows := engine.store.lockedRows + 1 }

/-- Why dealing with a row fails: it cannot be judged, its new values cannot be computed or its lock
is refused. -/
def Fails (update : Update) (context : Context) (faulty : LeafCall → Prop) (bindings : Bindings)
    (row : Row) (interrupt : Interrupt) : Prop :=
  update.verdict context bindings row = .error interrupt ∨
    (∃ values, update.verdict context bindings row = .ok (some values)) ∧
      interrupt.IsFaultOf faulty [.lock]

theorem apply_agrees (listed : row.Listed census) (bound : bindings.Listed census)
    (typed : update.input.rowType = table.type)
    (arity : update.assignments.length = table.type.width)
    (stored : engine.store.tables.get? update.table = some table)
    (found : table.position? row = some position) (able : engine.Able context census faulty) :
    EndsIn engine (update.apply context bindings row)
      (fun modified after => after.Able context census faulty ∧
        update.Deals context bindings row table position engine modified after)
      fun interrupt after => after.store = engine.store ∧ after.FaultsWithin faulty ∧
        update.Fails context faulty bindings row interrupt := by
  have selected : update.verdict context bindings row =
      update.selection context bindings row.view >>= fun selected =>
        if selected = true then
          replacedFrom context bindings row.view 0 update.assignments
            update.input.rowType.columns >>= fun values => .ok (some values)
        else .ok none := rfl
  refine agree_bind (agree_weaken (Engine.reads_agree (selects_yields listed bound context update)
    able.journal) (fun _ _ => id) ?_) ?_
  · rintro _ _ ⟨failed, journal, _, rfl⟩
    refine ⟨rfl, able.faults, .inl ?_⟩
    rw [selected, failed]
    rfl
  rintro chosen _ ⟨judged, journal, sound, rfl⟩
  rw [judged] at selected
  cases chosen with
  | false => exact agree_pure false ⟨⟨sound, able.faults⟩, selected, rfl, rfl⟩
  | true =>
      have computed : update.verdict context bindings row =
          replacedFrom context bindings row.view 0 update.assignments
            update.input.rowType.columns >>= fun values => .ok (some values) := selected
      refine agree_bind (agree_weaken (Engine.reads_agree (new_values_yields listed bound context 0
        update.assignments update.input.rowType.columns) sound) (fun _ _ => id) ?_) ?_
      · rintro _ _ ⟨failed, journal, _, rfl⟩
        refine ⟨rfl, able.faults, .inl ?_⟩
        rw [computed, failed]
        rfl
      rintro values _ ⟨made, journal, sound, rfl⟩
      rw [made] at computed
      have width : values.length = table.type.width := by
        rw [typed] at made
        exact replaced_from_length arity made
      refine agree_then (fun made after =>
        made = .stored engine.nextId update.input.rowType values ∧
        after = { engine with journal, nextId := engine.nextId + 1 }) ⟨rfl, rfl, rfl⟩ ?_
      rintro _ _ ⟨rfl, rfl⟩
      refine agree_bind (agree_weaken (Engine.lock_row_agrees able.faults) (fun _ _ => id) ?_) ?_
      · rintro _ _ ⟨rfl, fault⟩
        exact ⟨rfl, Engine.faults_within_noted able.faults .lock, .inr ⟨⟨values, computed⟩, fault⟩⟩
      rintro _ locked rfl
      let new := Row.stored engine.nextId update.input.rowType values
      have listed : new.Listed census := trivial
      have read : new.view.values = .ok values := stored_values _ (by rw [typed, width])
      have shaped : new.type.sameShape table.type = true := by
        simp [new, Row.type, typed, RowType.sameShape]
      have reads : Yields (Journal.Sound context census) new.readAll new.view.values :=
        read_all_yields listed
      refine agree_surely (Engine.update_row_agrees stored found shaped reads sound read) ?_
      rintro _ _ ⟨journal, sound, rfl⟩
      exact agree_pure true ⟨⟨sound, Engine.faults_within_noted able.faults .lock⟩, values,
        engine.nextId + 1, computed, Nat.le_succ _, rfl, rfl⟩

end Update

end QueryExec
