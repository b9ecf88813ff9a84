import QueryExec.Proofs.Idle
import QueryExec.Proofs.Numbering.RowTypes
import QueryExec.Update

/-!
The supply of row types. Only making a row type and building a projection or an aggregation take a
number, one each and only if they succeed. All else that an engine does, every call on a cursor
and every whole run included, leaves the next number as it is.
-/

namespace QueryExec

open QueryExec.Action

/-- The number of the next row type. -/
def Engine.Numbers (number : UInt32) (engine : Engine) : Prop :=
  engine.nextTypeId = number

/-- The step gives something of a new row type, which takes the next number; a step that fails takes
none. -/
def Makes {state result : Type} (numbers : UInt32 → state → Prop) (typeOf : result → RowType)
    (number : UInt32) (action : Action state result) : Prop :=
  ∀ start, numbers number start → EndsIn start action
    (fun value after => (typeOf value).id = number ∧ numbers (number + 1) after)
    fun _ after => numbers number after

section Makes

variable {state result other : Type} {numbers : UInt32 → state → Prop} {typeOf : result → RowType}
  {number : UInt32}

theorem Engine.makes_row_type (columns : List ColumnType) :
    Makes Engine.Numbers id number (Engine.newRowType columns) :=
  fun _ kept => ⟨rfl, kept, congrArg (· + 1) kept⟩

/-- Steps before that make no type. -/
theorem makes_after {action : Action state other} {next : other → Action state result}
    (keeps : Keeps (numbers number) action)
    (makes : ∀ value, Makes numbers typeOf number (next value)) :
    Makes numbers typeOf number (action >>= next) :=
  fun start kept => agree_bind (keeps start kept) fun value after => makes value after

/-- What is made of something has its type. -/
theorem makes_then {action : Action state other} {named : other → RowType} {use : other → result}
    (makes : Makes numbers named number action) (same : ∀ value, typeOf (use value) = named value) :
    Makes numbers typeOf number (action >>= fun value => pure (use value)) :=
  fun start kept => agree_bind (makes start kept) fun value _ made =>
    agree_pure _ ⟨(congrArg RowType.id (same value)).trans made.1, made.2⟩

end Makes

section Cursors

variable {cursor result : Type} {holds : Engine → Prop}

/-- Every call keeps an invariant of the engine. -/
structure Protocol.Spare (holds : Engine → Prop) (protocol : Protocol cursor) : Prop
    extends protocol.BindingsSpare holds where
  openPass : Spares holds protocol.openPass
  next : Spares holds protocol.next
  close : Spares holds protocol.close
  destroy : Spares holds protocol.destroy
  closeBindings : Spares holds protocol.closeBindings
  cancelBindings : ∀ bindings pair, holds pair.2 → holds (protocol.cancelBindings bindings pair).2

theorem Plan.cancel_bindings_spares
    (noted : ∀ call engine, holds engine → holds (Engine.noted engine call)) (context : Context)
    (plan : Plan) (bindings : Bindings) (pair : plan.Cursor × Engine) (kept : holds pair.2) :
    holds ((plan.protocol context).cancelBindings bindings pair).2 := by
  induction plan with
  | values slice type rows => exact kept
  | table name type => exact noted .cancelBindings pair.2 kept
  | filter input predicate induction => exact induction (pair.1.input, pair.2) kept
  | project input type columns induction => exact induction (pair.1.input, pair.2) kept
  | aggregate input type keys aggregates induction => exact induction (pair.1.input, pair.2) kept
  | limit input offset limit? induction => exact induction (pair.1.input, pair.2) kept

/-- A cursor that is made and dropped leaves nothing behind but its engine. -/
theorem keeps_run_from (initial : cursor) {action : CursorAction cursor result}
    (spares : Spares holds action) : Keeps holds (CursorAction.runFrom initial action) :=
  keeps_of_reaches fun engine kept =>
    have reached : holds (action.run (initial, engine)).2.2 :=
      reaches_of_ends (spares (initial, engine) kept)
    reached

/-- Whatever state a cursor is in: a call does not tell its engine from itself. -/
theorem Plan.protocol_spare
    (noted : ∀ call engine, holds engine → holds (Engine.noted engine call))
    (journaled : ∀ journal engine, holds engine → holds { engine with journal })
    (issued : ∀ engine, holds engine → holds { engine with nextId := engine.nextId + 1 })
    (context : Context) (plan : Plan) : (plan.protocol context).Spare holds :=
  have mirrored := plan.protocol_mirrored (fixed_shared noted journaled issued) context
  { plan.bindings_spare holds noted context with
    openPass := spares_of_respects mirrored.openPass
    next := spares_of_respects mirrored.next
    close := spares_of_respects mirrored.close
    destroy := spares_of_respects mirrored.destroy
    closeBindings := spares_of_respects mirrored.closeBindings
    cancelBindings := plan.cancel_bindings_spares noted context }

end Cursors

variable {number : UInt32} {result : Type}

namespace Engine

theorem numbers_in_journal (action : Action Journal result) :
    Keeps (Numbers number) (inJournal action) :=
  keeps_of_reaches fun _ kept => kept

theorem numbers_fresh_id : Keeps (Numbers number) freshId :=
  keeps_get fun _ kept => keeps_bind (keeps_set kept) fun _ => keeps_pure _

theorem numbers_new_row (type : RowType) (values : List Datum) :
    Keeps (Numbers number) (newRow type values) :=
  keeps_answer numbers_fresh_id _

theorem numbers_stored_table (name : String) : Keeps (Numbers number) (storedTable name) :=
  keeps_get fun _ _ => keeps_of_except _

theorem numbers_set_table (name : String) (table : StoredTable) :
    Keeps (Numbers number) (setTable name table) :=
  keeps_modify fun _ kept => kept

theorem numbers_create_table (name : String) (type : RowType) :
    Keeps (Numbers number) (createTable name type) :=
  keeps_get fun _ kept => keeps_bind (keeps_of_except _) fun _ => keeps_set kept

theorem numbers_materialise (table : StoredTable) (row : Row) :
    Keeps (Numbers number) (materialise table row) := by
  unfold materialise
  split
  · exact keeps_bind (numbers_in_journal _) fun _ => numbers_new_row _ _
  · exact keeps_fail _

theorem numbers_position_of (name : String) (table : StoredTable) (row : Row) :
    Keeps (Numbers number) (positionOf name table row) := by
  unfold positionOf
  split
  · exact keeps_pure _
  · exact keeps_bind (numbers_in_journal _) fun _ => keeps_fail _

theorem numbers_insert_row (name : String) (row : Row) :
    Keeps (Numbers number) (insertRow name row) :=
  keeps_bind (numbers_stored_table name) fun _ =>
    keeps_bind (numbers_materialise _ row) fun _ => numbers_set_table name _

theorem numbers_update_row (name : String) (old new : Row) :
    Keeps (Numbers number) (updateRow name old new) :=
  keeps_bind (numbers_stored_table name) fun _ =>
    keeps_bind (numbers_position_of name _ old) fun _ =>
      keeps_bind (numbers_materialise _ new) fun _ => numbers_set_table name _

theorem numbers_delete_row (name : String) (row : Row) :
    Keeps (Numbers number) (deleteRow name row) :=
  keeps_bind (numbers_stored_table name) fun _ =>
    keeps_bind (numbers_position_of name _ row) fun _ => numbers_set_table name _

theorem numbers_inject_fault (call : LeafCall) : Keeps (Numbers number) (injectFault call) := by
  refine keeps_get fun seen _ => ?_
  split
  · split
    · exact keeps_fail _
    · exact keeps_pure ()
  · exact keeps_pure ()

theorem numbers_lock_row : Keeps (Numbers number) lockRow :=
  keeps_bind (keeps_modify fun _ kept => kept) fun _ =>
    keeps_bind (numbers_inject_fault .lock) fun _ => keeps_modify fun _ kept => kept

end Engine

namespace Protocol

variable {cursor : Type} {protocol : Protocol cursor}

theorem numbers_read_all (row : Row) :
    Spares (Engine.Numbers number)
      (CursorAction.inJournal row.readAll : CursorAction cursor (List Datum)) :=
  keeps_of_reaches fun _ kept => kept

variable (spare : protocol.Spare (Engine.Numbers number))

include spare

theorem numbers_drain_within (bound : Nat) :
    Spares (Engine.Numbers number) (protocol.drainWithin bound) := by
  induction bound with
  | zero => exact keeps_pure []
  | succ bound induction =>
      refine keeps_bind spare.next fun row? => ?_
      cases row? with
      | none => exact keeps_pure []
      | some row =>
          exact keeps_bind (numbers_read_all row) fun _ => keeps_answer induction _

theorem numbers_drain : Spares (Engine.Numbers number) protocol.drain :=
  keeps_bind keeps_state fun _ => numbers_drain_within spare _

variable {pass : Bindings → CursorAction cursor result}
  (passes : ∀ bindings, Spares (Engine.Numbers number) (pass bindings))

include passes

theorem numbers_passes_within (bound : Nat) :
    Spares (Engine.Numbers number) (protocol.passesWithin pass bound) := by
  induction bound with
  | zero => exact keeps_pure []
  | succ bound induction =>
      refine keeps_bind spare.nextBindings fun bindings? => ?_
      cases bindings? with
      | none => exact keeps_pure []
      | some bindings =>
          exact keeps_bind spare.openPass fun _ => keeps_bind (passes bindings) fun _ =>
            keeps_answer induction _

theorem numbers_run_passes : Spares (Engine.Numbers number) (protocol.runPasses pass) :=
  keeps_bind spare.openBindings fun _ => keeps_bind keeps_state fun _ =>
    keeps_bind (numbers_passes_within spare passes _) fun _ => keeps_answer spare.closeBindings _

omit passes

theorem numbers_then_destroy {run : CursorAction cursor result}
    (spares : Spares (Engine.Numbers number) run) :
    Spares (Engine.Numbers number) (protocol.thenDestroy run) :=
  keeps_bind (keeps_attempt spares) fun _ => keeps_bind (keeps_attempt spare.destroy) fun _ =>
    keeps_bind (keeps_of_except _) fun _ => keeps_answer (keeps_of_except _) _

end Protocol

namespace Plan

theorem numbers_spare (context : Context) (plan : Plan) :
    (plan.protocol context).Spare (Engine.Numbers number) :=
  plan.protocol_spare (fun _ _ kept => kept) (fun _ _ kept => kept) (fun _ kept => kept) context

theorem numbers_run (context : Context) (plan : Plan) (source : BindingSource)
    {pass : Bindings → CursorAction plan.Cursor result}
    (passes : ∀ bindings, Spares (Engine.Numbers number) (pass bindings)) :
    Keeps (Engine.Numbers number) (plan.run context source pass) := by
  have spare : (plan.protocol context).Spare (Engine.Numbers number) := plan.numbers_spare context
  refine keeps_get fun _ _ => keeps_bind (keeps_of_except _) fun cursor => ?_
  exact keeps_run_from cursor
    (Protocol.numbers_then_destroy spare (Protocol.numbers_run_passes spare passes))

theorem numbers_execute_each (context : Context) (plan : Plan) (bindings : List Bindings) :
    Keeps (Engine.Numbers number) (plan.executeEach context bindings) :=
  plan.numbers_run context _ fun _ => Protocol.numbers_drain (plan.numbers_spare context)

theorem numbers_execute (context : Context) (plan : Plan) (bindings : Bindings) :
    Keeps (Engine.Numbers number) (plan.execute context bindings) :=
  keeps_answer (plan.numbers_run context _ fun _ =>
    Protocol.numbers_drain (plan.numbers_spare context)) _

end Plan

namespace Update

theorem numbers_apply (update : Update) (context : Context) (bindings : Bindings) (row : Row) :
    Keeps (Engine.Numbers number) (update.apply context bindings row) := by
  refine keeps_bind (Engine.numbers_in_journal _) fun selected => ?_
  cases selected with
  | false => exact keeps_pure false
  | true =>
      exact keeps_bind (Engine.numbers_in_journal _) fun _ =>
        keeps_bind (Engine.numbers_new_row _ _) fun _ =>
          keeps_bind Engine.numbers_lock_row fun _ =>
            keeps_answer (Engine.numbers_update_row _ _ _) _

theorem numbers_pass_within (update : Update) (context : Context) (bindings : Bindings)
    (bound : Nat) :
    Spares (Engine.Numbers number) (update.passWithin context bindings bound) := by
  induction bound with
  | zero => exact keeps_pure _
  | succ bound induction =>
      refine keeps_bind (update.input.numbers_spare context).next fun row? => ?_
      cases row? with
      | none => exact keeps_pure _
      | some row =>
          have applied : Spares (Engine.Numbers number)
              (CursorAction.inEngine (update.apply context bindings row) :
                CursorAction update.input.Cursor Bool) :=
            keeps_of_reaches fun pair kept =>
              reaches_of_ends (update.numbers_apply context bindings row pair.2 kept)
          exact keeps_bind applied fun _ => keeps_answer induction _

theorem numbers_update (update : Update) (context : Context) (bindings : Bindings) :
    Keeps (Engine.Numbers number) (update.run context bindings) :=
  keeps_answer (update.input.numbers_run context _ fun bindings =>
    keeps_bind keeps_state fun _ => update.numbers_pass_within context bindings _) _

end Update

namespace Plan

theorem makes_projected (plan : Plan) (columns : List Expr) :
    Makes Engine.Numbers rowType number (plan.projected columns) :=
  makes_after (keeps_of_except _) fun types =>
    makes_then (Engine.makes_row_type types) fun _ => rfl

theorem makes_aggregated (plan : Plan) (keys : Nat) (aggregates : List Aggregate) :
    Makes Engine.Numbers rowType number (plan.aggregated keys aggregates) :=
  makes_after (keeps_of_except _) fun types =>
    makes_then (Engine.makes_row_type types) fun _ => rfl

end Plan

end QueryExec
