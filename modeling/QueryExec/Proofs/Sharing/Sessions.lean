import QueryExec.Proofs.Census.Sessions
import QueryExec.Proofs.Sharing.Registering

/-!
Sessions keep to their registry. A registry covers a session when everything that one of its names
leads to has its entry. Every command keeps it so, whether it succeeds or fails: what is claimed
afterwards was claimed before or is new.
-/

namespace QueryExec

open QueryExec.Action QueryExec.Correspondence

namespace Plan

variable {world : Registry} {plan : Plan}

theorem entered_filtered {input : Plan} {predicate : Expr}
    (filtered : input.filtered predicate = .ok plan) (entered : input.Entered world) :
    plan.Entered world := by
  obtain ⟨rfl, _⟩ := filtered_made filtered
  exact entered

theorem registers_projected (columns : List Expr) (entered : plan.Entered world) :
    Registers Registry.Covers world (plan.projected columns) fun later made =>
      made.Entered later := by
  refine registers_then (fun _ _ => True) (registers_of_except fun _ _ => trivial)
    fun _ types grown _ => ?_
  refine registers_bind (Engine.registers_new_row_type types) fun _ _ further _ => ?_
  exact registers_pure (entered_lasting _ _ plan (grown.trans further) entered)

theorem registers_aggregated (keys : Nat) (aggregates : List Aggregate)
    (entered : plan.Entered world) :
    Registers Registry.Covers world (plan.aggregated keys aggregates) fun later made =>
      made.Entered later := by
  refine registers_then (fun _ _ => True) (registers_of_except fun _ _ => trivial)
    fun _ types grown _ => ?_
  refine registers_bind (Engine.registers_new_row_type types) fun _ _ further _ => ?_
  exact registers_pure (entered_lasting _ _ plan (grown.trans further) entered)

theorem enters_lasting (context : Context) (plan : Plan) : Registry.Lasting plan.Enters :=
  fun _ _ cursor =>
    (plan.protocols_beside (Registry.registered_lawful context)).enduring _ _ cursor cursor

end Plan

namespace Session

/-- Everything that a named object leads to has its entry, and a name is that of one row. -/
structure Registered (world : Registry) (session : Session) : Prop where
  engine : world.Covers session.engine
  once : session.rows.keys.Nodup
  rows : session.rows.Every fun row => world.Has (.row row)
  slots : session.slots.Every fun row? => ∀ row ∈ row?, world.Has (.row row)
  plans : session.plans.Every fun plan => plan.Entered world
  bindings : session.bindings.Every fun bindings => world.Has (.bindings bindings)
  sources : session.sources.Every fun source => source.All fun one => world.Has (.bindings one)
  cursors : session.cursors.Every fun cursor =>
    cursor.plan.Entered world ∧ cursor.plan.Enters world cursor.state

variable {world : Registry} {result : Type} {gives : Registry → result → Prop}

/-- As the engine and its registry grow, all else keeps its entries. -/
theorem Registered.grow {session : Session} (registered : session.Registered world)
    {later : Registry} (grown : world ≤ later) {engine : Engine} (covers : later.Covers engine) :
    { session with engine }.Registered later where
  engine := covers
  once := registered.once
  rows := Table.every_imp registered.rows fun _ has => has.later grown
  slots := Table.every_imp registered.slots fun _ has row held => (has row held).later grown
  plans := Table.every_imp registered.plans fun plan entered =>
    Plan.entered_lasting _ _ plan grown entered
  bindings := Table.every_imp registered.bindings fun _ has => has.later grown
  sources := Table.every_imp registered.sources fun _ all => all.imp fun _ has => has.later grown
  cursors := Table.every_imp registered.cursors fun cursor known =>
    ⟨Plan.entered_lasting _ _ cursor.plan grown known.1,
      cursor.plan.enters_lasting cursor.context _ _ cursor.state grown known.2⟩

section Steps

theorem registers_in_engine {action : Action Engine result}
    (registers : Registers Registry.Covers world action gives) :
    Registers Registered world (inEngine action) gives :=
  registers_on_part (fun _ registered => registered.engine)
    (fun _ _ _ grown registered covers => registered.grow grown covers) registers

theorem registers_in_journal (action : Action Journal result) :
    Registers Registered world (inJournal action) fun _ _ => True :=
  registers_in_engine (Engine.registers_reading action)

/-- A named object is as every object of its sort. -/
theorem registers_named {object : Type} {table : Session → Table String object}
    {suits : Registry → object → Prop}
    (all : ∀ session, session.Registered world → (table session).Every (suits world))
    (name : String) : Registers Registered world (named table name) suits :=
  registers_get fun session registered => registers_of_option fun _ found =>
    Table.every_get (all session registered) found

theorem registers_row_named (name : String) :
    Registers Registered world (rowNamed name) fun later row => later.Has (.row row) :=
  registers_named (fun _ registered => registered.rows) name

theorem registers_bindings_named (name : String) :
    Registers Registered world (bindingsNamed name) fun later bindings =>
      later.Has (.bindings bindings) :=
  registers_named (fun _ registered => registered.bindings) name

theorem registers_type_named (name : String) :
    Registers Registered world (typeNamed name) fun _ _ => True :=
  registers_named (fun _ _ _ _ => trivial) name

theorem registers_cursor_named (name : String) :
    Registers Registered world (named Session.cursors name) fun later cursor =>
      cursor.plan.Entered later ∧ cursor.plan.Enters later cursor.state :=
  registers_named (fun _ registered => registered.cursors) name

theorem registers_name_row (name : String) {row : Row} (has : world.Has (.row row)) :
    Registers Registered world (nameRow name row) fun _ _ => True :=
  registers_modify fun _ registered =>
    { registered with
      once := Table.keys_set_nodup registered.once name row
      rows := Table.every_set registered.rows name has }

theorem registers_forget_row (name : String) :
    Registers Registered world
      (modify fun session : Session => { session with rows := session.rows.erase name })
      fun _ _ => True :=
  registers_modify fun _ registered =>
    { registered with
      once := Table.keys_erase_nodup registered.once name
      rows := Table.every_erase registered.rows name }

theorem registers_fresh_bindings :
    Registers Registered world freshBindings fun later bindings =>
      later.Has (.bindings bindings) :=
  registers_bind (registers_in_engine Engine.registers_new_bindings) fun _ _ _ has =>
    registers_pure has

theorem registers_bindings_or_fresh (name? : Option String) :
    Registers Registered world (bindingsOrFresh name?) fun later bindings =>
      later.Has (.bindings bindings) := by
  cases name? with
  | none => exact registers_fresh_bindings
  | some name => exact registers_bindings_named name

theorem registers_all_bindings_named (names : List String) :
    Registers Registered world (names.mapM bindingsNamed) fun later all =>
      ∀ bindings ∈ all, later.Has (.bindings bindings) :=
  registers_map names Registry.has_bindings_lasting fun _ _ name _ => registers_bindings_named name

theorem registers_source_of (choice : BindingsChoice) :
    Registers Registered world (sourceOf choice) fun later source =>
      source.All fun one => later.Has (.bindings one) := by
  cases choice with
  | fresh => exact registers_bind registers_fresh_bindings fun _ _ _ has => registers_pure has
  | one name =>
      exact registers_bind (registers_bindings_named name) fun _ _ _ has => registers_pure has
  | list names =>
      refine registers_bind (registers_all_bindings_named names) fun later all _ has => ?_
      have source : (BindingSource.ofList all).All fun one => later.Has (.bindings one) :=
        ⟨has, nofun⟩
      exact registers_pure source

theorem registers_build_expression (blueprint : Blueprint) :
    Registers Registered world (buildExpression blueprint) fun _ _ => True :=
  registers_get fun _ _ => registers_of_except fun _ _ => trivial

theorem registers_build_expressions (blueprints : List Blueprint) :
    Registers Registered world (blueprints.mapM buildExpression) fun _ _ => True :=
  registers_imp (registers_map blueprints (fun _ _ _ _ _ => trivial) fun _ _ blueprint _ =>
    registers_build_expression blueprint) fun _ _ _ => trivial

theorem registers_build_row (default : RowType) (source : RowSource) :
    Registers Registered world (buildRow default source) fun later row =>
      later.Has (.row row) := by
  cases source with
  | named name => exact registers_row_named name
  | ofValues values => exact registers_in_engine (Engine.registers_new_row default values)
  | ofType type values =>
      exact registers_bind (registers_type_named type) fun _ rowType _ _ =>
        registers_in_engine (Engine.registers_new_row rowType values)

/-- The rows that a plan brings along have entries once it is built: by induction on its source. -/
theorem registers_build_plan (source : PlanSource) :
    Registers Registered world (buildPlan source) fun later plan => plan.Entered later := by
  induction source generalizing world with
  | named name => exact registers_named (fun _ registered => registered.plans) name
  | values type rows =>
      refine registers_bind (registers_type_named type) fun _ rowType _ _ => ?_
      refine registers_bind (registers_map rows Registry.has_row_lasting fun _ _ row _ =>
        registers_build_row rowType row) fun _ built _ has => ?_
      refine registers_bind (registers_in_engine (Engine.registers_new_slice built))
        fun last slice grown entry => ?_
      have entered : (Plan.values slice rowType built).Entered last :=
        List.forall_mem_singleton.mpr ⟨entry, fun row among => (has row among).later grown⟩
      exact registers_pure entered
  | table name type =>
      refine registers_bind (registers_type_named type) fun last rowType _ _ => ?_
      have entered : (Plan.table name rowType).Entered last := fun _ none => by cases none
      exact registers_pure entered
  | filter input predicate induction =>
      refine registers_bind induction fun _ inner _ entered => ?_
      refine registers_bind (registers_build_expression predicate) fun _ _ grown _ => ?_
      exact registers_of_except fun plan filtered =>
        Plan.entered_filtered filtered (Plan.entered_lasting _ _ inner grown entered)
  | project input columns induction =>
      refine registers_bind induction fun _ inner _ entered => ?_
      refine registers_bind (registers_build_expressions columns) fun _ expressions grown _ => ?_
      exact registers_in_engine (Plan.registers_projected expressions
        (Plan.entered_lasting _ _ inner grown entered))
  | aggregate input keys aggregates induction =>
      exact registers_bind induction fun _ inner _ entered =>
        registers_in_engine (Plan.registers_aggregated keys aggregates entered)
  | limit input offset limit? induction =>
      refine registers_bind induction fun last inner _ entered => ?_
      have limited : (Plan.limit inner offset limit?).Entered last := entered
      exact registers_pure limited

end Steps

section Commands

/-- What is left to do is to reply. -/
theorem registers_replying {other : Type} {action : SessionAction other} {reply : other → result}
    {middle : Registry → other → Prop} (registers : Registers Registered world action middle) :
    Registers Registered world (action >>= fun value => pure (reply value)) fun _ _ => True :=
  registers_bind registers fun _ _ _ _ => registers_pure trivial

theorem registers_new_context (settings : SettingsSource) (catalog? : Option CatalogSource) :
    Registers Registered world (newContext settings catalog?) fun _ _ => True := by
  refine registers_then (fun _ _ => True) (registers_of_except fun _ _ => trivial)
    fun _ settings _ _ => ?_
  have made : ∀ later (catalog : Catalog), Registers Registered later
      (do
        let id ← inEngine Engine.freshId
        modify fun session => { session with context := { id, catalog, settings } }
        pure Reply.done) fun _ _ => True :=
    fun later catalog => registers_bind (registers_in_engine Engine.registers_fresh_id)
      fun _ id _ _ => registers_replying (registers_modify fun _ registered =>
        { registered with })
  cases catalog? with
  | some source =>
      exact registers_then (fun _ _ => True) (registers_of_except fun _ _ => trivial)
        fun later catalog _ _ => made later catalog
  | none => exact registers_get fun session _ => made _ session.catalog

theorem registers_cancellation : Registers Registered world cancellation fun _ _ => True := by
  refine registers_get fun session _ => ?_
  refine registers_bind (registers_attempt (registers_in_journal _)) fun _ outcome _ _ => ?_
  split <;> exact registers_pure trivial

theorem registers_take_leaf_log : Registers Registered world takeLeafLog fun _ _ => True := by
  refine registers_get fun session registered => ?_
  split
  · exact registers_pure trivial
  · exact registers_replying (registers_set { registered with
      engine := ⟨registered.engine.next, registered.engine.stored⟩ })

theorem registers_new_type (name : String) (columns : List ColumnType) :
    Registers Registered world (newType name columns) fun _ _ => True :=
  registers_bind (registers_in_engine (Engine.registers_new_row_type columns)) fun _ _ _ _ =>
    registers_replying (registers_modify fun _ registered => { registered with })

/-- A new stored row gets a name. -/
theorem registers_name_new_row (name : String) (type : RowType) (values : List Datum) :
    Registers Registered world
      (do
        nameRow name (← inEngine (Engine.newRow type values))
        pure Reply.done) fun _ _ => True :=
  registers_bind (registers_in_engine (Engine.registers_new_row type values)) fun _ _ _ has =>
    registers_replying (registers_name_row name has)

theorem registers_project_row (name base : String) (types : List ColumnType)
    (columns : List Blueprint) (bindings? : Option String) :
    Registers Registered world (projectRow name base types columns bindings?)
      fun _ _ => True := by
  refine registers_bind (registers_row_named base) fun _ below _ has => ?_
  refine registers_bind (registers_build_expressions columns) fun _ expressions first _ => ?_
  refine registers_bind (registers_bindings_or_fresh bindings?) fun _ bindings second bound => ?_
  refine registers_bind (registers_in_engine (Engine.registers_new_row_type types))
    fun _ type third _ => ?_
  refine registers_get fun session _ => ?_
  have base := has.later ((first.trans second).trans third)
  refine registers_bind (registers_in_engine (Engine.registers_new_projection base
    (bound.later third) type session.context expressions)) fun _ row _ made => ?_
  refine registers_bind (registers_name_row name made) fun _ _ _ _ => ?_
  exact registers_replying (registers_modify fun _ registered => { registered with })

theorem registers_set_slot (slot : String) {content : Option Row}
    (has : ∀ row ∈ content, world.Has (.row row)) :
    Registers Registered world (setSlot slot content) fun _ _ => True :=
  registers_modify fun _ registered =>
    { registered with slots := Table.every_set registered.slots slot has }

theorem registers_slot_content (slot : String) :
    Registers Registered world (slotContent slot) fun later content =>
      ∀ row ∈ content, later.Has (.row row) := by
  refine registers_get fun session registered => ?_
  have has : ∀ row ∈ (session.slots.get? slot).getD none, world.Has (.row row) := by
    cases found : session.slots.get? slot with
    | none => exact fun _ none => by cases none
    | some content => exact Table.every_get registered.slots found
  exact registers_pure has

theorem registers_hold (slot row : String) :
    Registers Registered world (hold slot row) fun _ _ => True := by
  refine registers_bind (registers_row_named row) fun _ held _ has => ?_
  refine registers_bind (registers_forget_row row) fun later _ grown _ => ?_
  have content : ∀ row ∈ some held, later.Has (.row row) := by
    rintro _ ⟨⟩
    exact has.later grown
  exact registers_replying (registers_set_slot slot content)

theorem registers_look_at_slot (slot : String) :
    Registers Registered world (lookAtSlot slot) fun _ _ => True := by
  refine registers_bind (registers_slot_content slot) fun _ content _ _ => ?_
  split
  · exact registers_replying (registers_in_journal _)
  · exact registers_pure trivial

theorem registers_take_slot (slot name : String) :
    Registers Registered world (takeSlot slot name) fun _ _ => True := by
  refine registers_bind (registers_slot_content slot) fun _ content _ has => ?_
  split
  next row =>
    refine registers_bind (registers_set_slot slot fun _ none => by cases none)
      fun _ _ grown _ => ?_
    exact registers_replying (registers_name_row name ((has row rfl).later grown))
  · exact registers_pure trivial

theorem registers_insert_rows (table : String) (rows : List RowSource) :
    Registers Registered world (insertRows table rows) fun _ _ => True := by
  refine registers_bind (registers_in_engine (Engine.registers_stored_table table))
    fun _ stored _ _ => registers_replying (registers_for rows fun _ _ source _ => ?_)
  exact registers_bind (registers_build_row stored.type source) fun _ row _ _ =>
    registers_in_engine (Engine.registers_insert_row table row)

theorem registers_table_contents (table : String) (name? : Option String) :
    Registers Registered world (tableContents table name?) fun _ _ => True := by
  refine registers_bind (registers_in_engine (Engine.registers_stored_table table))
    fun _ stored _ has => ?_
  refine registers_bind (registers_map stored.rows (fun _ _ _ _ _ => trivial)
    fun _ _ row _ => registers_in_journal row.readEach) fun _ contents grown _ => ?_
  cases name? with
  | none => exact registers_pure trivial
  | some name =>
      refine registers_replying (registers_for _ fun _ further place among => ?_)
      exact registers_name_row _
        ((has place.1 (List.fst_mem_of_mem_zipIdx among)).later (grown.trans further))

theorem registers_new_plan (name : String) (source : PlanSource) :
    Registers Registered world (newPlan name source) fun _ _ => True :=
  registers_bind (registers_build_plan source) fun _ _ _ entered =>
    registers_replying (registers_modify fun _ registered =>
      { registered with plans := Table.every_set registered.plans name entered })

theorem registers_execution (source : PlanSource) (bindings? : Option String) :
    Registers Registered world (execute source bindings?) fun _ _ => True := by
  refine registers_bind (registers_build_plan source) fun _ plan _ entered => ?_
  refine registers_bind (registers_bindings_or_fresh bindings?) fun _ bindings grown bound => ?_
  refine registers_get fun session _ => ?_
  exact registers_replying (registers_in_engine (Plan.registers_execute session.context
    (Plan.entered_lasting _ _ plan grown entered) bound))

theorem registers_executions (source : PlanSource) (names : List String) :
    Registers Registered world (executeEach source names) fun _ _ => True := by
  refine registers_bind (registers_build_plan source) fun _ plan _ entered => ?_
  refine registers_bind (registers_all_bindings_named names) fun _ bindings grown bound => ?_
  refine registers_get fun session _ => ?_
  exact registers_replying (registers_in_engine (Plan.registers_execute_each session.context
    (Plan.entered_lasting _ _ plan grown entered) bound))

theorem registers_build_selector (selector? : Option Blueprint) :
    Registers Registered world (selector?.mapM buildExpression) fun _ _ => True := by
  cases selector? with
  | none => exact registers_pure trivial
  | some blueprint => exact registers_replying (registers_build_expression blueprint)

theorem registers_assignments (assignments : List (Nat × Blueprint)) (columns : Nat) :
    Registers Registered world
      (assignments.foldlM (fun before assignment => do
        Update.assign before assignment.1 (← buildExpression assignment.2))
        (List.replicate columns none)) fun _ _ => True := by
  refine registers_fold _ (fun _ before _ assignment _ => ?_) trivial
  refine registers_bind (registers_build_expression assignment.2) fun _ expression _ _ => ?_
  unfold Update.assign Action.index
  split
  · exact registers_pure trivial
  · exact fun _ _ held => ⟨rfl, _, le_rfl, held⟩

theorem registers_update (source : UpdateSource) :
    Registers Registered world (update source) fun _ _ => True := by
  refine registers_bind (registers_build_plan source.input) fun _ input _ entered => ?_
  refine registers_bind (registers_build_selector source.selector?) fun _ selector? first _ => ?_
  refine registers_bind (registers_assignments source.assignments source.columns)
    fun _ assignments second _ => ?_
  refine registers_then (fun _ update => update.input = input)
    (registers_of_except fun update built => input_of_built built) fun _ update third same => ?_
  refine registers_bind (registers_bindings_or_fresh source.bindings?)
    fun last bindings fourth bound => ?_
  refine registers_get fun session _ => ?_
  have entered : update.input.Entered last := by
    rw [same]
    exact Plan.entered_lasting _ _ input (((first.trans second).trans third).trans fourth) entered
  exact registers_replying (registers_attempt (registers_in_engine
    (Update.registers_update session.context entered bound)))

end Commands

end Session

end QueryExec
