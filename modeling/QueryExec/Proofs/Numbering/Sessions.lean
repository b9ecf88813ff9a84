import QueryExec.Proofs.Census.Sessions
import QueryExec.Proofs.Execution
import QueryExec.Proofs.Numbering.Engine
import QueryExec.Proofs.Types.Plans

/-!
The row types of a session. The types that its commands make, by name or in projected rows and in
the plans they build, have consecutive numbers; so two of them are the same type exactly when they
were made a multiple of `2 ^ 32` types apart. Among the first `2 ^ 32` types of a session no two are
the same; the next one is the same as the first.
-/

namespace QueryExec

open QueryExec.Action

/-- What a step gives from a state, if it succeeds. -/
def Action.given? {state result : Type} (action : Action state result) (start : state) :
    Option result :=
  (action.run start).1.toOption

namespace Session

/-- The row types that are made while a plan is built, in order. -/
def PlanSource.made (session : Session) : PlanSource → List RowType
  | .named _ => []
  | .values _ _ => []
  | .table _ _ => []
  | .filter input _ => input.made session
  | .project input columns =>
      input.made session ++
        (((buildPlan (.project input columns)).given? session).map Plan.rowType).toList
  | .aggregate input keys aggregates =>
      input.made session ++
        (((buildPlan (.aggregate input keys aggregates)).given? session).map Plan.rowType).toList
  | .limit input _ _ => input.made session

/-- The row types that a command makes, in order. -/
def Command.made (session : Session) : Command → List RowType
  | .type _ columns => ((Engine.newRowType columns).given? session.engine).toList
  | .projectRow name base types columns bindings? =>
      match (Session.projectRow name base types columns bindings?).run session with
      | (.ok _, after) => ((after.projections.get? name).map Row.type).toList
      | (.error _, _) => []
  | .plan _ source => source.made session
  | .execute source _ => source.made session
  | .executeEach source _ => source.made session
  | .update source => source.input.made session
  | .cursor _ source _ => source.made session
  | _ => []

/-- The row types that commands make from a session on, in order. -/
def made (session : Session) : List Command → List RowType
  | [] => []
  | command :: rest => command.made session ++ (session.step command).2.made rest

/-- The names of row types and the number of the next one. -/
structure Numbers (types : Table String RowType) (number : UInt32) (session : Session) : Prop where
  engine : session.engine.Numbers number
  types : session.types = types

variable {types : Table String RowType} {number : UInt32} {result other : Type}

section Steps

theorem numbers_in_engine {action : Action Engine result}
    (keeps : Keeps (Engine.Numbers number) action) :
    Keeps (Numbers types number) (inEngine action) :=
  keeps_on_part (fun _ kept => kept.engine) (fun _ _ kept engine => ⟨engine, kept.types⟩) keeps

theorem numbers_in_journal (action : Action Journal result) :
    Keeps (Numbers types number) (inJournal action) :=
  numbers_in_engine (Engine.numbers_in_journal action)

theorem numbers_named {object : Type} (table : Session → Table String object) (name : String) :
    Keeps (Numbers types number) (named table name) :=
  keeps_get fun _ _ => keeps_of_option _ _

theorem numbers_name_row (name : String) (row : Row) :
    Keeps (Numbers types number) (nameRow name row) :=
  keeps_modify fun _ kept => ⟨kept.engine, kept.types⟩

theorem numbers_fresh_bindings : Keeps (Numbers types number) freshBindings :=
  keeps_answer (numbers_in_engine Engine.numbers_fresh_id) _

theorem numbers_bindings_or_fresh (name? : Option String) :
    Keeps (Numbers types number) (bindingsOrFresh name?) := by
  cases name? with
  | none => exact numbers_fresh_bindings
  | some name => exact numbers_named _ name

theorem numbers_source_of (choice : BindingsChoice) :
    Keeps (Numbers types number) (sourceOf choice) := by
  cases choice with
  | fresh => exact keeps_answer numbers_fresh_bindings _
  | one name => exact keeps_answer (numbers_named _ name) _
  | list names => exact keeps_answer (keeps_map names fun _ => numbers_named _ _) _

theorem numbers_build_expression (blueprint : Blueprint) :
    Keeps (Numbers types number) (buildExpression blueprint) :=
  keeps_get fun _ _ => keeps_of_except _

theorem numbers_build_row (default : RowType) (source : RowSource) :
    Keeps (Numbers types number) (buildRow default source) := by
  cases source with
  | named name => exact numbers_named _ name
  | ofValues values => exact numbers_in_engine (Engine.numbers_new_row default values)
  | ofType type values =>
      exact keeps_bind (numbers_named _ type) fun _ =>
        numbers_in_engine (Engine.numbers_new_row _ values)

end Steps

section Making

/-- A later state of a session: meanwhile these row types were made, and types that have names had
them before or are among those. -/
structure Extends (session : Session) (made : List RowType) (after : Session) : Prop where
  consecutive : RowType.Consecutive session.engine.nextTypeId made after.engine.nextTypeId
  names : ∀ {holds : RowType → Prop}, session.types.Every holds → (∀ type ∈ made, holds type) →
    after.types.Every holds

variable {session middle after : Session} {made more : List RowType} {typeOf : result → RowType}

theorem extends_none (numbers : after.Numbers session.types session.engine.nextTypeId) :
    Extends session [] after where
  consecutive := numbers.engine ▸ .none _
  names := fun every _ => numbers.types ▸ every

theorem extends_one {type : RowType} (own : type.id = session.engine.nextTypeId)
    (numbers : after.Numbers session.types (session.engine.nextTypeId + 1)) :
    Extends session [type] after where
  consecutive := .one own numbers.engine
  names := fun every _ => numbers.types ▸ every

theorem Extends.append (begun : Extends session made middle)
    (continued : Extends middle more after) : Extends session (made ++ more) after where
  consecutive := begun.consecutive.append continued.consecutive
  names := fun every all =>
    have ⟨first, rest⟩ := List.forall_mem_append.mp all
    continued.names (begun.names every first) rest

theorem extends_of_keeps {action : SessionAction result}
    (keeps : Keeps (Numbers session.types session.engine.nextTypeId) action) :
    Extends session [] (action.run session).2 :=
  extends_none (reaches_of_ends (keeps session ⟨rfl, rfl⟩))

theorem extends_of_makes {action : SessionAction result}
    (makes : Makes (Numbers session.types) typeOf session.engine.nextTypeId action) :
    Extends session ((action.given? session).map typeOf).toList (action.run session).2 := by
  have meets := (makes session ⟨rfl, rfl⟩).2
  unfold given?
  revert meets
  rcases action.run session with ⟨interrupt | value, after⟩
  · exact extends_none
  · exact fun made => extends_one made.1 made.2

/-- What follows makes no row type. -/
theorem extends_before {action : SessionAction other} {next : other → SessionAction result}
    (begun : Extends session made (action.run session).2)
    (keeps : ∀ value types number, Keeps (Numbers types number) (next value)) :
    Extends session made ((action >>= next).run session).2 := by
  rw [run_bind]
  revert begun
  rcases action.run session with ⟨interrupt | value, middle⟩
  · exact id
  · intro begun
    simpa using begun.append (extends_of_keeps (keeps value _ _))

/-- What follows makes one more row type if it succeeds. -/
theorem extends_bind {action : SessionAction other} {next : other → SessionAction result}
    (begun : Extends session made (action.run session).2)
    (makes : ∀ value types number, Makes (Numbers types) typeOf number (next value)) :
    Extends session (made ++ (((action >>= next).given? session).map typeOf).toList)
      ((action >>= next).run session).2 := by
  unfold given?
  rw [run_bind]
  revert begun
  rcases action.run session with ⟨interrupt | value, middle⟩
  · exact fun begun => (List.append_nil made).symm ▸ begun
  · exact fun begun => begun.append (extends_of_makes (makes value _ _))

theorem makes_in_engine {action : Action Engine result}
    (makes : Makes Engine.Numbers typeOf number action) :
    Makes (Numbers types) typeOf number (inEngine action) :=
  fun start kept => agree_on_part (agree_weaken (makes start.engine kept.engine)
    (fun _ _ made => ⟨made.1, made.2, kept.types⟩) fun _ _ engine => ⟨engine, kept.types⟩)

/-- The row types of a plan are made with the operators that have one of their own: by induction on
its source. -/
theorem build_plan_extends (source : PlanSource) :
    Extends session (source.made session) ((buildPlan source).run session).2 := by
  induction source with
  | named name => exact extends_of_keeps (numbers_named _ name)
  | values type rows =>
      exact extends_of_keeps (keeps_bind (numbers_named _ type) fun _ =>
        keeps_bind (keeps_map rows fun _ => numbers_build_row _ _) fun _ =>
          keeps_answer (numbers_in_engine Engine.numbers_fresh_id) _)
  | table name type => exact extends_of_keeps (keeps_answer (numbers_named _ type) _)
  | filter input predicate induction =>
      exact extends_before induction fun _ _ _ =>
        keeps_bind (numbers_build_expression predicate) fun _ => keeps_of_except _
  | project input columns induction =>
      exact extends_bind induction fun inner _ _ =>
        makes_after (keeps_map columns fun _ => numbers_build_expression _) fun expressions =>
          makes_in_engine (inner.makes_projected expressions)
  | aggregate input keys aggregates induction =>
      exact extends_bind induction fun inner _ _ =>
        makes_in_engine (inner.makes_aggregated keys aggregates)
  | limit input offset limit? induction =>
      exact extends_before induction fun _ _ _ => keeps_pure _

end Making

section Commands

theorem numbers_new_context (settings : SettingsSource) (catalog? : Option CatalogSource) :
    Keeps (Numbers types number) (newContext settings catalog?) := by
  have made (catalog : Catalog) (settings : Settings) : Keeps (Numbers types number)
      (do
        let id ← inEngine Engine.freshId
        modify fun session => { session with context := { id, catalog, settings } }
        pure Reply.done) :=
    keeps_bind (numbers_in_engine Engine.numbers_fresh_id) fun _ =>
      keeps_answer (keeps_modify fun _ kept => ⟨kept.engine, kept.types⟩) _
  refine keeps_bind (keeps_of_except _) fun settings => ?_
  cases catalog? with
  | some source => exact keeps_bind (keeps_of_except _) fun catalog => made catalog settings
  | none => exact keeps_get fun session _ => made session.catalog settings

theorem numbers_cancellation : Keeps (Numbers types number) cancellation := by
  refine keeps_get fun session _ => ?_
  refine keeps_bind (keeps_attempt (numbers_in_journal _)) fun ended => ?_
  cases ended with
  | ok value => exact keeps_pure _
  | error error => exact keeps_pure _

theorem numbers_take_leaf_log : Keeps (Numbers types number) takeLeafLog := by
  refine keeps_get fun session kept => ?_
  split
  · exact keeps_pure _
  · exact keeps_answer (keeps_set ⟨kept.engine, kept.types⟩) _

theorem numbers_new_row (name : String) (type : RowType) (values : List Datum) :
    Keeps (Numbers types number)
      (do
        nameRow name (← inEngine (Engine.newRow type values))
        pure Reply.done) :=
  keeps_bind (numbers_in_engine (Engine.numbers_new_row type values)) fun _ =>
    keeps_answer (numbers_name_row name _) _

theorem numbers_set_slot (slot : String) (content : Option Row) :
    Keeps (Numbers types number) (setSlot slot content) :=
  keeps_modify fun _ kept => ⟨kept.engine, kept.types⟩

theorem numbers_slot_content (slot : String) : Keeps (Numbers types number) (slotContent slot) :=
  keeps_get fun _ _ => keeps_pure _

theorem numbers_look_at_slot (slot : String) : Keeps (Numbers types number) (lookAtSlot slot) := by
  refine keeps_bind (numbers_slot_content slot) fun content => ?_
  cases content with
  | none => exact keeps_pure _
  | some row => exact keeps_answer (numbers_in_journal _) _

theorem numbers_take_slot (slot name : String) :
    Keeps (Numbers types number) (takeSlot slot name) := by
  refine keeps_bind (numbers_slot_content slot) fun content => ?_
  cases content with
  | none => exact keeps_pure _
  | some row =>
      exact keeps_bind (numbers_set_slot slot none) fun _ =>
        keeps_answer (numbers_name_row name row) _

theorem numbers_insert_rows (table : String) (rows : List RowSource) :
    Keeps (Numbers types number) (insertRows table rows) := by
  refine keeps_bind (numbers_in_engine (Engine.numbers_stored_table table)) fun stored => ?_
  refine keeps_answer (keeps_for rows fun source => ?_) _
  exact keeps_bind (numbers_build_row _ source) fun row =>
    numbers_in_engine (Engine.numbers_insert_row table row)

theorem numbers_table_contents (table : String) (name? : Option String) :
    Keeps (Numbers types number) (tableContents table name?) := by
  refine keeps_bind (numbers_in_engine (Engine.numbers_stored_table table)) fun stored => ?_
  refine keeps_bind (keeps_map stored.rows fun _ => numbers_in_journal _) fun _ => ?_
  cases name? with
  | none => exact keeps_pure _
  | some name => exact keeps_answer (keeps_for _ fun _ => numbers_name_row _ _) _

theorem numbers_new_bindings (name : String) (parent? : Option String)
    (parameters : List (Nat × Datum)) (rows : List (Nat × String)) :
    Keeps (Numbers types number) (newBindings name parent? parameters rows) := by
  have bound (level : Bindings) : Keeps (Numbers types number)
      (do
        let withParameters := parameters.foldl (fun before bound =>
          before.bindParameter bound.1 bound.2) level
        let bindings ← rows.foldlM (fun before bound => do
          pure (before.bindOuter bound.1 (← rowNamed bound.2))) withParameters
        modify fun session => { session with bindings := session.bindings.set name bindings }
        pure Reply.done) :=
    keeps_bind (keeps_fold rows (fun _ member =>
      keeps_answer (numbers_named _ member.2) _) _) fun _ =>
        keeps_answer (keeps_modify fun _ kept => ⟨kept.engine, kept.types⟩) _
  refine keeps_bind (numbers_in_engine Engine.numbers_fresh_id) fun id => ?_
  cases parent? with
  | none => exact bound (.root id)
  | some parent => exact keeps_bind (numbers_named _ parent) fun outer => bound (.nested id outer)

theorem numbers_lookup (name : String) (index : Nat) :
    Keeps (Numbers types number) (lookup name index) := by
  refine keeps_bind (numbers_named _ name) fun bindings => ?_
  have reading : Keeps (Numbers types number)
      ((bindings.outerRow? index).mapM fun row => inJournal row.readEach) := by
    cases bindings.outerRow? index with
    | none => exact keeps_pure _
    | some row => exact keeps_answer (numbers_in_journal _) _
  exact keeps_answer reading _

theorem numbers_delivered (bindings? : Option Bindings) :
    Keeps (Numbers types number) (delivered bindings?) :=
  keeps_get fun _ _ => keeps_pure _

theorem numbers_on_source (name : String) (command : SourceCommand) :
    Keeps (Numbers types number) (onSource name command) := by
  have storing (answer : Option (Option Delivered)) (changed : BindingSource) :
      Keeps (Numbers types number)
        (do
          modify fun session => { session with sources := session.sources.set name changed }
          pure (Reply.source answer (remaining? changed))) :=
    keeps_answer (keeps_modify fun _ kept => ⟨kept.engine, kept.types⟩) _
  refine keeps_bind (numbers_named _ name) fun source => ?_
  cases command with
  | openAll => exact storing none _
  | next => exact keeps_bind (numbers_delivered _) fun answer => storing (some answer) _
  | close => exact storing none _
  | cancel bindings => exact keeps_bind (numbers_named _ bindings) fun _ => storing none _

/-- A call on a cursor leaves the supply of row types to the engine. -/
theorem numbers_call_cursor (name : String)
    {call : (cursor : OpenCursor) → CursorAction cursor.plan.Cursor result}
    (spares : ∀ cursor, Spares (Engine.Numbers number) (call cursor)) :
    Keeps (Numbers types number) (callCursor name call) :=
  keeps_bind (numbers_named _ name) fun cursor => keeps_of_reaches fun session kept =>
    have reached := reaches_of_ends (spares cursor (cursor.state, session.engine) kept.engine)
    ⟨reached, kept.types⟩

theorem numbers_row_result (cursor : OpenCursor) (row : Row) (name? : Option String)
    (readColumns : Bool) :
    Keeps (Numbers types number) (rowResult cursor row name? readColumns) := by
  have reading : Keeps (Numbers types number) (some <$> inJournal row.readEach) :=
    keeps_answer (numbers_in_journal _) some
  cases name? with
  | none =>
      cases readColumns with
      | false => exact keeps_pure _
      | true => exact keeps_answer reading _
  | some name =>
      cases readColumns with
      | false =>
          exact keeps_bind (keeps_pure none) fun _ => keeps_answer (numbers_name_row name row) _
      | true => exact keeps_bind reading fun _ => keeps_answer (numbers_name_row name row) _

theorem numbers_cursor_result (name : String) (command : CursorCommand) :
    Keeps (Numbers types number) (cursorResult name command) := by
  have spare (cursor : OpenCursor) : cursor.protocol.Spare (Engine.Numbers number) :=
    cursor.plan.numbers_spare cursor.context
  have answered {action : SessionAction (Except QueryError Unit)}
      (keeps : Keeps (Numbers types number) action) :
      Keeps (Numbers types number) (answer <$> action) :=
    keeps_answer keeps _
  cases command with
  | openPass =>
      exact answered (numbers_call_cursor name fun cursor => keeps_attempt (spare cursor).openPass)
  | close =>
      exact answered (numbers_call_cursor name fun cursor => keeps_attempt (spare cursor).close)
  | destroy =>
      exact answered (numbers_call_cursor name fun cursor => keeps_attempt (spare cursor).destroy)
  | openBindings =>
      exact answered
        (numbers_call_cursor name fun cursor => keeps_attempt (spare cursor).openBindings)
  | closeBindings =>
      exact answered
        (numbers_call_cursor name fun cursor => keeps_attempt (spare cursor).closeBindings)
  | look => exact keeps_pure _
  | cancelBindings bindings? =>
      refine keeps_bind (numbers_bindings_or_fresh bindings?) fun bindings => ?_
      exact keeps_answer (numbers_call_cursor name fun cursor =>
        keeps_modify ((spare cursor).cancelBindings bindings)) _
  | nextBindings =>
      refine keeps_bind (numbers_call_cursor name fun cursor =>
        keeps_attempt (spare cursor).nextBindings) fun ended => ?_
      cases ended with
      | ok bindings? => exact keeps_answer (numbers_delivered _) _
      | error error => exact keeps_pure _
  | drain =>
      refine keeps_bind (numbers_call_cursor name fun cursor =>
        keeps_attempt (Protocol.numbers_drain (spare cursor))) fun ended => ?_
      cases ended with
      | ok rows => exact keeps_pure _
      | error error => exact keeps_pure _
  | next name? readColumns =>
      refine keeps_bind (numbers_call_cursor name fun cursor =>
        keeps_attempt (spare cursor).next) fun ended => ?_
      rcases ended with error | _ | row
      · exact keeps_pure _
      · exact keeps_pure _
      · exact keeps_bind (numbers_named _ name) fun cursor =>
          numbers_row_result cursor row name? readColumns

variable {session : Session}

theorem new_plan_extends (name : String) (source : PlanSource) :
    Extends session (source.made session) ((newPlan name source).run session).2 :=
  extends_before (build_plan_extends source) fun _ _ _ =>
    keeps_answer (keeps_modify fun _ kept => ⟨kept.engine, kept.types⟩) _

theorem execute_extends (source : PlanSource) (bindings? : Option String) :
    Extends session (source.made session) ((execute source bindings?).run session).2 :=
  extends_before (build_plan_extends source) fun plan _ _ =>
    keeps_bind (numbers_bindings_or_fresh bindings?) fun _ => keeps_get fun _ _ =>
      keeps_answer (numbers_in_engine (plan.numbers_execute _ _)) _

theorem execute_each_extends (source : PlanSource) (names : List String) :
    Extends session (source.made session) ((executeEach source names).run session).2 :=
  extends_before (build_plan_extends source) fun plan _ _ =>
    keeps_bind (keeps_map names fun _ => numbers_named _ _) fun _ => keeps_get fun _ _ =>
      keeps_answer (numbers_in_engine (plan.numbers_execute_each _ _)) _

theorem update_extends (source : UpdateSource) :
    Extends session (source.input.made session) ((update source).run session).2 := by
  refine extends_before (build_plan_extends source.input) fun input types number => ?_
  have selecting : Keeps (Numbers types number) (source.selector?.mapM buildExpression) := by
    cases source.selector? with
    | none => exact keeps_pure _
    | some blueprint => exact keeps_answer (numbers_build_expression blueprint) _
  refine keeps_bind selecting fun selector? => ?_
  refine keeps_bind (keeps_fold _ (fun before assignment => ?_) _) fun assignments => ?_
  · exact keeps_bind (numbers_build_expression assignment.2) fun _ =>
      keeps_answer (keeps_index before assignment.1) _
  · exact keeps_bind (keeps_of_except _) fun update =>
      keeps_bind (numbers_bindings_or_fresh source.bindings?) fun _ => keeps_get fun _ _ =>
        keeps_answer (keeps_attempt (numbers_in_engine (update.numbers_update _ _))) _

theorem new_cursor_extends (name : String) (source : PlanSource) (choice : BindingsChoice) :
    Extends session (source.made session) ((newCursor name source choice).run session).2 :=
  extends_before (build_plan_extends source) fun _ _ _ =>
    keeps_bind (numbers_source_of choice) fun _ => keeps_get fun _ kept =>
      keeps_bind (keeps_of_except _) fun _ => keeps_answer (keeps_set ⟨kept.engine, kept.types⟩) _

theorem new_type_extends (name : String) (columns : List ColumnType) :
    Extends session (Command.made session (.type name columns))
      ((newType name columns).run session).2 where
  consecutive := .one rfl rfl
  names := fun every made => Table.every_set every name (made _ (List.mem_singleton.mpr rfl))

/-- A projected row gets a type once all that can fail has succeeded. -/
theorem project_row_extends (name base : String) (columnTypes : List ColumnType)
    (columns : List Blueprint) (bindings? : Option String) :
    Extends session (Command.made session (.projectRow name base columnTypes columns bindings?))
      ((projectRow name base columnTypes columns bindings?).run session).2 := by
  have ends : EndsIn session (projectRow name base columnTypes columns bindings?)
      (fun _ after => after.Numbers session.types (session.engine.nextTypeId + 1) ∧
        ∃ row : Row, after.projections.get? name = some row ∧
          row.type.id = session.engine.nextTypeId)
      fun _ after => after.Numbers session.types session.engine.nextTypeId := by
    refine agree_bind (numbers_named _ base session ⟨rfl, rfl⟩) fun below _ kept => ?_
    refine agree_bind (keeps_map columns (fun _ => numbers_build_expression _) _ kept)
      fun expressions _ kept => ?_
    refine agree_bind (numbers_bindings_or_fresh bindings? _ kept) fun bindings before kept => ?_
    exact ⟨rfl, ⟨congrArg (· + 1) kept.engine, kept.types⟩, _, Table.get_set_same _ _ _,
      kept.engine⟩
  have meets := ends.2
  simp only [Command.made]
  revert meets
  rcases (projectRow name base columnTypes columns bindings?).run session with
    ⟨interrupt | reply, after⟩
  · exact extends_none
  · rintro ⟨numbers, row, found, own⟩
    simp only [found]
    exact extends_one own numbers

/-- What a command makes takes the next numbers: one case for each command. -/
theorem perform_extends (command : Command) :
    Extends session (command.made session) ((perform command).run session).2 := by
  cases command with
  | context settings catalog? => exact extends_of_keeps (numbers_new_context settings catalog?)
  | cancel =>
      exact extends_of_keeps (keeps_get fun _ _ => keeps_answer (numbers_in_journal _) _)
  | isCancelled => exact extends_of_keeps numbers_cancellation
  | warn message =>
      exact extends_of_keeps (keeps_get fun _ _ => keeps_answer (numbers_in_journal _) _)
  | warnings => exact extends_of_keeps (keeps_get fun _ _ => keeps_pure _)
  | cast value target =>
      exact extends_of_keeps (keeps_get fun _ _ => keeps_answer (numbers_in_journal _) _)
  | taps => exact extends_of_keeps (keeps_get fun _ _ => keeps_pure _)
  | tapCount name => exact extends_of_keeps (keeps_get fun _ _ => keeps_pure _)
  | lockedRows => exact extends_of_keeps (keeps_get fun _ _ => keeps_pure _)
  | leafLog => exact extends_of_keeps numbers_take_leaf_log
  | type name columns => exact new_type_extends name columns
  | sameType left right =>
      exact extends_of_keeps (keeps_bind (numbers_named _ left) fun _ =>
        keeps_answer (numbers_named _ right) _)
  | row name type values =>
      exact extends_of_keeps (keeps_bind (numbers_named _ type) fun _ =>
        numbers_new_row name _ values)
  | copyRow row name =>
      exact extends_of_keeps (keeps_bind (numbers_named _ row) fun _ =>
        keeps_bind (numbers_in_journal _) fun _ => numbers_new_row name _ _)
  | projectRow name base columnTypes columns bindings? =>
      exact project_row_extends name base columnTypes columns bindings?
  | evaluated row =>
      exact extends_of_keeps (keeps_bind (numbers_named _ row) fun _ =>
        keeps_get fun _ _ => keeps_pure _)
  | acquire row name =>
      exact extends_of_keeps (keeps_bind (numbers_named _ row) fun _ =>
        keeps_answer (numbers_name_row name _) _)
  | release row =>
      exact extends_of_keeps (keeps_bind (numbers_named _ row) fun _ =>
        keeps_answer (keeps_modify fun _ kept => ⟨kept.engine, kept.types⟩) _)
  | holders row =>
      exact extends_of_keeps (keeps_bind (numbers_named _ row) fun _ =>
        keeps_get fun _ _ => keeps_pure _)
  | sameRow left right =>
      exact extends_of_keeps (keeps_bind (numbers_named _ left) fun _ =>
        keeps_answer (numbers_named _ right) _)
  | readColumn row column =>
      exact extends_of_keeps (keeps_bind (numbers_named _ row) fun _ =>
        keeps_answer (numbers_in_journal _) _)
  | readRow row =>
      exact extends_of_keeps (keeps_bind (numbers_named _ row) fun _ =>
        keeps_answer (numbers_in_journal _) _)
  | describeRow row =>
      exact extends_of_keeps (keeps_bind (numbers_named _ row) fun _ =>
        keeps_answer (numbers_in_journal _) _)
  | hold slot row =>
      exact extends_of_keeps (keeps_bind (numbers_named _ row) fun _ =>
        keeps_bind (keeps_modify fun _ kept => ⟨kept.engine, kept.types⟩) fun _ =>
          keeps_answer (numbers_set_slot slot _) _)
  | slot slot => exact extends_of_keeps (numbers_look_at_slot slot)
  | takeSlot slot name => exact extends_of_keeps (numbers_take_slot slot name)
  | releaseSlot slot => exact extends_of_keeps (keeps_answer (numbers_set_slot slot _) _)
  | createTable table type =>
      exact extends_of_keeps (keeps_bind (numbers_named _ type) fun _ =>
        keeps_answer (numbers_in_engine (Engine.numbers_create_table table _)) _)
  | insert table rows => exact extends_of_keeps (numbers_insert_rows table rows)
  | updateRow table old new =>
      exact extends_of_keeps (keeps_bind (numbers_named _ old) fun _ =>
        keeps_bind (numbers_named _ new) fun _ =>
          keeps_answer (numbers_in_engine (Engine.numbers_update_row table _ _)) _)
  | deleteRow table row =>
      exact extends_of_keeps (keeps_bind (numbers_named _ row) fun _ =>
        keeps_answer (numbers_in_engine (Engine.numbers_delete_row table _)) _)
  | table table name? => exact extends_of_keeps (numbers_table_contents table name?)
  | plan name source => exact new_plan_extends name source
  | execute source bindings? => exact execute_extends source bindings?
  | executeEach source names => exact execute_each_extends source names
  | update source => exact update_extends source
  | bindings name parent? parameters rows =>
      exact extends_of_keeps (numbers_new_bindings name parent? parameters rows)
  | lookup bindings index => exact extends_of_keeps (numbers_lookup bindings index)
  | isAncestor left right =>
      exact extends_of_keeps (keeps_bind (numbers_named _ left) fun _ =>
        keeps_answer (numbers_named _ right) _)
  | newSource name choice =>
      exact extends_of_keeps (keeps_bind (numbers_source_of choice) fun _ =>
        keeps_answer (keeps_modify fun _ kept => ⟨kept.engine, kept.types⟩) _)
  | onSource source command => exact extends_of_keeps (numbers_on_source source command)
  | cursor name source choice => exact new_cursor_extends name source choice
  | onCursor cursor command =>
      exact extends_of_keeps (keeps_bind (numbers_cursor_result cursor command) fun _ =>
        keeps_answer (numbers_named _ cursor) _)

end Commands

/-- What commands make takes the next numbers, command by command. -/
theorem after_extends (session : Session) (commands : List Command) :
    Extends session (session.made commands) (session.after commands) := by
  induction commands generalizing session with
  | nil => exact extends_none ⟨rfl, rfl⟩
  | cons command rest induction => exact (perform_extends command).append (induction _)

example :
    (Counting.new.made [.type "t" [.notNull .boolean],
        .plan "p" (.filter (.aggregate (.project (.values "t" []) []) 0 []) (.literal .null)),
        .execute (.project (.named "p") []) none]).map RowType.id = [1, 2, 3, 4] := by
  rfl

section Comparing

variable {session : Session} {left right : RowType} {name other : String}

theorem run_type_named (found : session.types.get? name = some left) :
    (typeNamed name).run session = (.ok left, session) := by
  change (ofOption _ (session.types.get? name)).run session = _
  rw [found]
  rfl

theorem same_type_replies (at_left : session.types.get? name = some left)
    (at_right : session.types.get? other = some right) :
    (session.step (.sameType name other)).1 =
      .ok (.typeComparison (left.same right) (left.sameShape right)) := by
  change ((compareTypes name other).run session).1 = _
  unfold compareTypes
  rw [run_bind, run_type_named at_left]
  simp only
  rw [run_bind, run_type_named at_right]
  rfl

end Comparing

variable {session : Session} {commands : List Command} {first second : Nat} {left right : RowType}

/-- As long as no more than `2 ^ 32` row types are made, each is the same as itself only. -/
theorem row_types_distinct (few : (session.made commands).length ≤ UInt32.size)
    (at_left : (session.made commands)[first]? = some left)
    (at_right : (session.made commands)[second]? = some right) :
    left.same right = true ↔ first = second := by
  obtain ⟨left_bound, _⟩ := List.getElem?_eq_some_iff.mp at_left
  obtain ⟨right_bound, _⟩ := List.getElem?_eq_some_iff.mp at_right
  rw [(session.after_extends commands).consecutive.same_iff at_left at_right,
    Nat.mod_eq_of_lt (Nat.lt_of_lt_of_le left_bound few),
    Nat.mod_eq_of_lt (Nat.lt_of_lt_of_le right_bound few)]

/-- As long as no more than `2 ^ 32` row types are made, their numbers stand for one type each. -/
theorem row_types_registered (few : (session.made commands).length ≤ UInt32.size) :
    ∃ dictionary : Dictionary, ∀ type ∈ session.made commands, type.Registered dictionary := by
  let bears (number : UInt32) (type : RowType) : Bool := type.id == number
  let columns (number : UInt32) : List ColumnType :=
    (((session.made commands).find? (bears number)).map RowType.columns).getD []
  refine ⟨columns, fun type member => ?_⟩
  have borne : ((session.made commands).find? (bears type.id)).isSome = true :=
    List.find?_isSome.mpr ⟨type, member, beq_self_eq_true type.id⟩
  obtain ⟨other, found⟩ := Option.isSome_iff_exists.mp borne
  have same : other.same type = true := List.find?_some (p := bears type.id) found
  obtain ⟨first, at_first⟩ := List.getElem?_of_mem (List.mem_of_find?_eq_some found)
  obtain ⟨second, at_second⟩ := List.getElem?_of_mem member
  have place : first = second := (row_types_distinct few at_first at_second).mp same
  have one : other = type := by
    rw [place, at_second] at at_first
    exact (Option.some.inj at_first).symm
  unfold RowType.Registered
  dsimp only [columns]
  rw [found, one]
  rfl

variable {settings : SettingsSource} {catalog : CatalogSource} {probe? : Option Probe}

theorem start_types (started : Session.start settings catalog probe? = .ok session) :
    session.types = {} := by
  obtain ⟨_, _, _, _, rfl⟩ := start_made started
  rfl

/-- In a session from its start, every named row type is one that a command made, and two that were
made are the same exactly when their places differ by a multiple of `2 ^ 32`; otherwise, and only
then, every test tells them apart. -/
theorem row_types_recur (started : Session.start settings catalog probe? = .ok session)
    (commands : List Command) (at_left : (session.made commands)[first]? = some left)
    (at_right : (session.made commands)[second]? = some right) :
    (∀ name type, (session.after commands).types.get? name = some type →
      type ∈ session.made commands) ∧
    (left.same right = true ↔ first % UInt32.size = second % UInt32.size) ∧
    ∀ test : TypeTest, test.TellsApart right left ↔ first % UInt32.size ≠ second % UInt32.size := by
  have extended := session.after_extends commands
  have same_iff := extended.consecutive.same_iff at_left at_right
  refine ⟨fun name type found => ?_, same_iff, fun test => ?_⟩
  · have every : session.types.Every (· ∈ session.made commands) :=
      start_types started ▸ Table.every_empty
    exact Table.every_get (extended.names every fun _ member => member) found
  · rw [test.tells_apart_iff, ← Bool.not_eq_true, same_iff]

end Session

/-! A session that makes one type more than there are numbers. -/

namespace Wrapping

open Session

/-- A type without columns under a name, and then many types of one column under another. -/
def commands (count : Nat) : List Command :=
  .type "a" [] :: List.replicate count (.type "b" [.notNull .boolean])

variable {session : Session} {name other : String} {columns : List ColumnType}

theorem length_made (count : Nat) :
    (session.made (List.replicate count (.type name columns))).length = count := by
  induction count generalizing session with
  | zero => rfl
  | succ count induction =>
      rw [List.replicate_succ, made, List.length_append, induction]
      exact Nat.add_comm 1 count

theorem columns_made (count : Nat) :
    ∀ type ∈ session.made (List.replicate count (.type name columns)), type.columns = columns := by
  induction count generalizing session with
  | zero => nofun
  | succ count induction =>
      rw [List.replicate_succ, made]
      exact List.forall_mem_append.mpr ⟨List.forall_mem_singleton.mpr rfl, induction⟩

/-- The name goes to the type that was made last. -/
theorem last_named (count : Nat) :
    (session.after (List.replicate (count + 1) (.type name columns))).types.get? name =
      (session.made (List.replicate (count + 1) (.type name columns)))[count]? := by
  induction count generalizing session with
  | zero => exact Table.get_set_same _ _ _
  | succ count induction => exact induction

theorem other_named (different : other ≠ name) (count : Nat) :
    (session.after (List.replicate count (.type name columns))).types.get? other =
      session.types.get? other := by
  induction count generalizing session with
  | zero => rfl
  | succ count induction =>
      have kept : (session.step (.type name columns)).2.types.get? other =
          session.types.get? other := Table.get_set_other _ _ _ _ different
      exact induction.trans kept

/-- The types that both names have in the end. -/
theorem first_and_last (count : Nat) (some_more : 0 < count) :
    ∃ first last : RowType,
      (Counting.new.made (commands count))[0]? = some first ∧
      (Counting.new.made (commands count))[count]? = some last ∧
      (Counting.new.after (commands count)).types.get? "a" = some first ∧
      (Counting.new.after (commands count)).types.get? "b" = some last ∧
      first.columns = [] ∧ last.columns = [.notNull .boolean] := by
  obtain ⟨count, rfl⟩ := Nat.exists_eq_succ_of_ne_zero (Nat.ne_of_gt some_more)
  let begun := (Counting.new.step (.type "a" [])).2
  let rest := List.replicate (count + 1) (Command.type "b" [.notNull .boolean])
  have bound : count < (begun.made rest).length := by
    rw [length_made]
    exact Nat.lt_succ_self count
  refine ⟨⟨1, []⟩, (begun.made rest)[count], rfl, List.getElem?_eq_getElem bound, ?_, ?_, rfl, ?_⟩
  · exact other_named (by decide) (count + 1)
  · exact (last_named count).trans (List.getElem?_eq_getElem bound)
  · exact columns_made (count + 1) _ (List.getElem_mem bound)

/-- Types of different columns are taken for one another: `2 ^ 32` types later the numbers start
again. -/
theorem first_type_again :
    ∃ first last : RowType,
      (Counting.new.made (commands UInt32.size))[0]? = some first ∧
      (Counting.new.made (commands UInt32.size))[UInt32.size]? = some last ∧
      first.same last = true ∧ (∀ test : TypeTest, ¬ test.TellsApart last first) ∧
      ((Counting.new.after (commands UInt32.size)).step (.sameType "a" "b")).1 =
        .ok (.typeComparison true false) := by
  obtain ⟨first, last, at_first, at_last, a, b, without, one⟩ :=
    first_and_last UInt32.size (by decide)
  have started : Session.start {} { standard := false } none = .ok Counting.new := rfl
  have recur := row_types_recur started (commands UInt32.size) at_first at_last
  have again : 0 % UInt32.size = UInt32.size % UInt32.size := rfl
  have same : first.same last = true := recur.2.1.mpr again
  refine ⟨first, last, at_first, at_last, same, fun test apart => ?_, ?_⟩
  · exact (recur.2.2 test).mp apart again
  · have shapes : first.sameShape last = false := by
      rw [RowType.sameShape, without, one]
      rfl
    rw [same_type_replies a b, same, shapes]

end Wrapping

end QueryExec
