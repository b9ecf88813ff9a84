import QueryExec.Proofs.Census.Runs
import QueryExec.Proofs.Lifecycle
import QueryExec.Session.Step

/-!
Sessions enrol. A census covers a session when it covers its engine and every row that a named
object of the session leads to is listed; its cursors moreover are in states that histories of
calls reach. Every command keeps it so, hence it is so in every session that commands reach.
-/

namespace QueryExec

open QueryExec.Action

namespace Plan

variable {context : Context} {faulty : LeafCall → Prop} {plan : Plan} {census : Census}
  {result : Type} {gives : Census → result → Prop}

theorem listed_filtered {input : Plan} {predicate : Expr}
    (filtered : input.filtered predicate = .ok plan) (listed : input.Listed census) :
    plan.Listed census := by
  obtain ⟨rfl, _⟩ := filtered_made filtered
  exact listed

theorem enrols_projected (columns : List Expr) (listed : plan.Listed census) :
    Enrols (Engine.Covered faulty) census (plan.projected columns) fun later made =>
      made.Listed later := by
  apply enrols_then (fun _ _ => True) (enrols_of_except fun _ _ => trivial)
  intro _ types within _
  exact enrols_bind (Engine.enrols_new_row_type types) fun _ _ further _ =>
    enrols_pure _ (listed.later (within.trans further))

theorem enrols_aggregated (keys : Nat) (aggregates : List Aggregate) (listed : plan.Listed census) :
    Enrols (Engine.Covered faulty) census (plan.aggregated keys aggregates) fun later made =>
      made.Listed later := by
  apply enrols_then (fun _ _ => True) (enrols_of_except fun _ _ => trivial)
  intro _ types within _
  exact enrols_bind (Engine.enrols_new_row_type types) fun _ _ further _ =>
    enrols_pure _ (listed.later (within.trans further))

/-- The state is one that a history of calls reaches, and all that it keeps is listed. -/
def Known (context : Context) (faulty : LeafCall → Prop) (plan : Plan) : Coverage plan.Cursor :=
  fun census state => plan.Reached context faulty state ∧ plan.Lists census state

/-- One more call leads to a reachable state again. -/
theorem keeps_reached {action : CursorAction plan.Cursor result} (call : CursorCall)
    (answer : result → CursorAnswer)
    (performs : (plan.protocol context).perform call =
      action >>= fun value => pure (answer value)) :
    Keeps (fun pair => plan.Reached context faulty pair.1 ∧ pair.2.FaultsWithin faulty) action := by
  intro pair ends
  obtain ⟨state, engine⟩ := pair
  obtain ⟨reached, faults⟩ := ends
  have further := Reached.call reached call id engine faults
  have kept := (call_keeps_coherent context (keep_laws_amid id) reached.coherent faults call).2
  rw [layered_amid_id, performs, run_bind] at further kept
  refine ⟨rfl, ?_⟩
  revert further kept
  rcases action.run (state, engine) with ⟨interrupt | value, after⟩
  · exact fun further kept => ⟨further, kept⟩
  · exact fun further kept => ⟨further, kept⟩

theorem enrols_known {action : CursorAction plan.Cursor result}
    (enrols : Enrols (Tracked faulty plan.Lists) census action gives)
    (keeps : Keeps (fun pair => plan.Reached context faulty pair.1 ∧ pair.2.FaultsWithin faulty)
      action) :
    Enrols (Tracked faulty (plan.Known context faulty)) census action gives := by
  intro start known
  obtain ⟨⟨reached, lists⟩, covered⟩ := known
  apply agree_weaken (agree_both (enrols start ⟨lists, covered⟩)
    (keeps start ⟨reached, covered.faults⟩))
  · intro value after ends
    obtain ⟨⟨later, within, ⟨lists, covered⟩, given⟩, reached, _⟩ := ends
    exact ⟨later, within, ⟨⟨reached, lists⟩, covered⟩, given⟩
  · intro interrupt after ends
    obtain ⟨⟨later, within, lists, covered⟩, reached, _⟩ := ends
    exact ⟨later, within, ⟨reached, lists⟩, covered⟩

/-- The calls of a session keep the states of its cursors known. -/
theorem known_enrolling (faulty : LeafCall → Prop) (context : Context) (plan : Plan) :
    (plan.protocol context).Enrolling faulty (plan.Known context faulty) :=
  let enrolling := plan.protocol_enrolling faulty context
  { lasting := fun _ _ state within known =>
      ⟨known.1, enrolling.lasting _ _ state within known.2⟩
    openPass := fun census =>
      enrols_known (enrolling.openPass census) (keeps_reached .openPass (fun _ => .done) rfl)
    next := fun census => enrols_known (enrolling.next census) (keeps_reached .next .row rfl)
    close := fun census =>
      enrols_known (enrolling.close census) (keeps_reached .close (fun _ => .done) rfl)
    destroy := fun census =>
      enrols_known (enrolling.destroy census) (keeps_reached .destroy (fun _ => .done) rfl)
    openBindings := fun census =>
      enrols_known (enrolling.openBindings census)
        (keeps_reached .openBindings (fun _ => .done) rfl)
    nextBindings := fun census =>
      enrols_known (enrolling.nextBindings census) (keeps_reached .nextBindings .bindings rfl)
    closeBindings := fun census =>
      enrols_known (enrolling.closeBindings census)
        (keeps_reached .closeBindings (fun _ => .done) rfl)
    cancelBindings := by
      intro census bindings pair ends
      obtain ⟨state, engine⟩ := pair
      obtain ⟨⟨reached, lists⟩, covered⟩ := ends
      have after := enrolling.cancelBindings census bindings (state, engine) ⟨lists, covered⟩
      have keeps : Keeps (fun pair => plan.Reached context faulty pair.1 ∧
          pair.2.FaultsWithin faulty) (modify ((plan.protocol context).cancelBindings bindings)) :=
        keeps_reached (.cancelBindings bindings) (fun _ => .done) rfl
      exact ⟨⟨(keeps (state, engine) ⟨reached, covered.faults⟩).2.1, after.1⟩, after.2⟩ }

end Plan

namespace Bindings

variable {census : Census}

theorem listed_without_parameter : (bindings : Bindings) → (index : Nat) →
    bindings.Listed census → (bindings.withoutParameter index).Listed census
  | .root _, _, _ => trivial
  | .nested _ _, _, listed => listed
  | .parameter bound _ rest, index, listed => by
      unfold withoutParameter
      split
      · exact listed_without_parameter rest index listed
      · exact listed_without_parameter rest index listed
  | .outer _ _ rest, index, listed =>
      ⟨listed.1, listed_without_parameter rest index listed.2⟩

theorem listed_without_outer : (bindings : Bindings) → (index : Nat) →
    bindings.Listed census → (bindings.withoutOuter index).Listed census
  | .root _, _, _ => trivial
  | .nested _ _, _, listed => listed
  | .parameter _ _ rest, index, listed => listed_without_outer rest index listed
  | .outer bound _ rest, index, listed => by
      unfold withoutOuter
      split
      · exact listed_without_outer rest index listed.2
      · exact ⟨listed.1, listed_without_outer rest index listed.2⟩

theorem listed_bind_parameters (parameters : List (Nat × Datum)) {bindings : Bindings}
    (listed : bindings.Listed census) :
    (parameters.foldl (fun before bound => before.bindParameter bound.1 bound.2)
      bindings).Listed census := by
  induction parameters generalizing bindings with
  | nil => exact listed
  | cons first rest induction => exact induction (listed_without_parameter bindings first.1 listed)

end Bindings

/-- What is known of a cursor of a session. -/
def OpenCursor.Known (faulty : LeafCall → Prop) (census : Census) (cursor : OpenCursor) : Prop :=
  cursor.plan.Known cursor.context faulty census cursor.state

namespace Session

/-- Every row that a named object leads to is listed. -/
structure NamesListed (faulty : LeafCall → Prop) (census : Census) (session : Session) : Prop where
  rows : session.rows.Every fun row => row.Listed census
  projections : session.projections.Every fun row => row.Listed census
  slots : session.slots.Every fun row? => RowListed census row?
  plans : session.plans.Every fun plan => plan.Listed census
  bindings : session.bindings.Every fun bindings => bindings.Listed census
  sources : session.sources.Every fun source => source.Listed census
  cursors : session.cursors.Every fun cursor => cursor.Known faulty census

/-- What a census covers of a session. -/
structure Covered (faulty : LeafCall → Prop) (census : Census) (session : Session) : Prop where
  engine : session.engine.Covered faulty census
  names : session.NamesListed faulty census

variable {faulty : LeafCall → Prop} {census : Census} {result : Type}
  {gives : Census → result → Prop}

theorem names_listed_lasting : Lasting (NamesListed faulty) := by
  intro census later session within names
  exact {
    rows := fun entry member => (names.rows entry member).later within
    projections := fun entry member => (names.projections entry member).later within
    slots := fun entry member row present => (names.slots entry member row present).later within
    plans := fun entry member => (names.plans entry member).later within
    bindings := fun entry member => (names.bindings entry member).later within
    sources := fun entry member => (names.sources entry member).later within
    cursors := fun entry member =>
      (Plan.known_enrolling faulty entry.2.context entry.2.plan).lasting _ _ entry.2.state within
        (names.cursors entry member) }

section Steps

theorem enrols_in_engine {action : Action Engine result}
    (enrols : Enrols (Engine.Covered faulty) census action gives) :
    Enrols (Covered faulty) census (inEngine action) gives := by
  refine enrols_on_part (fun _ covered => covered.engine) ?_ enrols
  exact fun _ session _ within covered engine =>
    ⟨engine, { names_listed_lasting _ _ session within covered.names with }⟩

theorem enrols_in_journal {action : Action Journal result}
    (keeps : Keeps (Journal.Faithful census) action) :
    Enrols (Covered faulty) census (inJournal action) fun _ _ => True :=
  enrols_in_engine (Engine.enrols_in_journal keeps)

/-- A named object is as every object of its sort. -/
theorem enrols_named {object : Type} {table : Session → Table String object}
    {suits : Census → object → Prop}
    (all : ∀ session, Covered faulty census session → (table session).Every (suits census))
    (name : String) : Enrols (Covered faulty) census (named table name) suits :=
  enrols_get fun session covered => enrols_of_option fun _ found =>
    Table.every_get (all session covered) found

theorem enrols_row_named (name : String) :
    Enrols (Covered faulty) census (rowNamed name) fun later row => row.Listed later :=
  enrols_named (fun _ covered => covered.names.rows) name

theorem enrols_bindings_named (name : String) :
    Enrols (Covered faulty) census (bindingsNamed name) fun later bindings =>
      bindings.Listed later :=
  enrols_named (fun _ covered => covered.names.bindings) name

theorem enrols_type_named (name : String) :
    Enrols (Covered faulty) census (typeNamed name) fun _ _ => True :=
  enrols_named (fun _ _ _ _ => trivial) name

theorem enrols_name_row (name : String) {row : Row} (listed : row.Listed census) :
    Enrols (Covered faulty) census (nameRow name row) fun _ _ => True :=
  enrols_modify fun _ covered =>
    ⟨covered.engine, { covered.names with rows := Table.every_set covered.names.rows name listed }⟩

theorem enrols_fresh_bindings :
    Enrols (Covered faulty) census freshBindings fun later bindings => bindings.Listed later :=
  enrols_bind (enrols_in_engine Engine.enrols_fresh_id) fun _ _ _ _ => enrols_pure _ trivial

theorem enrols_bindings_or_fresh (name? : Option String) :
    Enrols (Covered faulty) census (bindingsOrFresh name?) fun later bindings =>
      bindings.Listed later := by
  cases name? with
  | none => exact enrols_fresh_bindings
  | some name => exact enrols_bindings_named name

theorem enrols_all_bindings_named (names : List String) :
    Enrols (Covered faulty) census (names.mapM bindingsNamed) fun later all =>
      ∀ bindings ∈ all, bindings.Listed later :=
  enrols_map names bindings_listed_lasting fun _ _ name _ => enrols_bindings_named name

theorem enrols_source_of (choice : BindingsChoice) :
    Enrols (Covered faulty) census (sourceOf choice) fun later source => source.Listed later := by
  cases choice with
  | fresh => exact enrols_bind enrols_fresh_bindings fun _ _ _ listed => enrols_pure _ listed
  | one name =>
      exact enrols_bind (enrols_bindings_named name) fun _ _ _ listed => enrols_pure _ listed
  | list names =>
      refine enrols_bind (enrols_all_bindings_named names) fun _ _ _ listed => enrols_pure _ ?_
      exact ⟨listed, fun _ impossible => by cases impossible⟩

theorem enrols_build_expression (blueprint : Blueprint) :
    Enrols (Covered faulty) census (buildExpression blueprint) fun _ _ => True :=
  enrols_get fun _ _ => enrols_of_except fun _ _ => trivial

theorem enrols_build_expressions (blueprints : List Blueprint) :
    Enrols (Covered faulty) census (blueprints.mapM buildExpression) fun _ _ => True := by
  have built : Enrols (Covered faulty) census (blueprints.mapM buildExpression)
      fun _ all => ∀ one ∈ all, True :=
    enrols_map blueprints (fun _ _ _ _ _ => trivial) fun _ _ blueprint _ =>
      enrols_build_expression blueprint
  exact enrols_weaken built fun _ _ _ _ => trivial

theorem enrols_build_row (default : RowType) (source : RowSource) :
    Enrols (Covered faulty) census (buildRow default source) fun later row => row.Listed later := by
  cases source with
  | named name => exact enrols_row_named name
  | ofValues values =>
      exact enrols_weaken (enrols_in_engine (Engine.enrols_new_row default values))
        fun later _ _ stored => Row.listed_of_stored stored later
  | ofType type values =>
      apply enrols_bind (enrols_type_named type)
      intro _ rowType _ _
      exact enrols_weaken (enrols_in_engine (Engine.enrols_new_row rowType values))
        fun later _ _ stored => Row.listed_of_stored stored later

/-- A plan that is built brings along only rows that are listed: by induction on its source. -/
theorem enrols_build_plan (source : PlanSource) :
    Enrols (Covered faulty) census (buildPlan source) fun later plan => plan.Listed later := by
  induction source generalizing census with
  | named name => exact enrols_named (fun _ covered => covered.names.plans) name
  | values type rows =>
      apply enrols_bind (enrols_type_named type)
      intro _ rowType _ _
      apply enrols_bind (enrols_map rows row_listed_lasting
        fun _ _ row _ => enrols_build_row rowType row)
      intro _ built _ listed
      apply enrols_bind (enrols_in_engine Engine.enrols_fresh_id)
      intro _ slice within _
      exact enrols_pure _ fun row member => (listed row member).later within
  | table name type =>
      exact enrols_bind (enrols_type_named type) fun _ _ _ _ => enrols_pure _ trivial
  | filter input predicate induction =>
      apply enrols_bind induction
      intro _ inner _ listed
      apply enrols_bind (enrols_build_expression predicate)
      intro _ _ within _
      exact enrols_of_except fun plan filtered =>
        Plan.listed_filtered filtered (listed.later within)
  | project input columns induction =>
      apply enrols_bind induction
      intro _ inner _ listed
      apply enrols_bind (enrols_build_expressions columns)
      intro _ expressions within _
      exact enrols_in_engine (Plan.enrols_projected expressions (listed.later within))
  | aggregate input keys aggregates induction =>
      exact enrols_bind induction fun _ inner _ listed =>
        enrols_in_engine (Plan.enrols_aggregated keys aggregates listed)
  | limit input offset limit? induction =>
      exact enrols_bind induction fun _ inner _ listed => enrols_pure _ listed

end Steps

section Commands

theorem enrols_new_context (settings : SettingsSource) (catalog? : Option CatalogSource) :
    Enrols (Covered faulty) census (newContext settings catalog?) fun _ _ => True := by
  apply enrols_then (fun _ _ => True) (enrols_of_except fun _ _ => trivial)
  intro _ _ _ _
  have made : ∀ later (catalog : Catalog) (settings : Settings),
      Enrols (Covered faulty) later
        (do
          let id ← inEngine Engine.freshId
          modify fun session => { session with context := { id, catalog, settings } }
          pure Reply.done) fun _ _ => True := by
    intro later catalog settings
    apply enrols_bind (enrols_in_engine Engine.enrols_fresh_id)
    intro _ id _ _
    apply enrols_bind (enrols_modify fun _ covered =>
      ⟨covered.engine, { covered.names with }⟩)
    intro _ _ _ _
    exact enrols_pure _ trivial
  cases catalog? with
  | some source =>
      exact enrols_then (fun _ _ => True) (enrols_of_except fun _ _ => trivial)
        fun later catalog _ _ => made later catalog _
  | none => exact enrols_get fun session _ => made _ session.catalog _

theorem enrols_cancel : Enrols (Covered faulty) census cancel fun _ _ => True := by
  apply enrols_get
  intro session _
  refine enrols_bind (enrols_in_journal (keeps_modify fun _ faithful => faithful)) fun _ _ _ _ => ?_
  exact enrols_pure _ trivial

theorem enrols_cancellation : Enrols (Covered faulty) census cancellation fun _ _ => True := by
  apply enrols_get
  intro session _
  apply enrols_bind (enrols_attempt (enrols_in_journal (keeps_check_cancelled session.context)))
  intro _ outcome _ _
  cases outcome with
  | ok value => exact enrols_pure _ trivial
  | error error => exact enrols_pure _ trivial

/-- Taking the log changes no fault. -/
theorem enrols_take_leaf_log : Enrols (Covered faulty) census takeLeafLog fun _ _ => True := by
  apply enrols_get
  intro session covered
  split
  · exact enrols_pure _ trivial
  next probe present =>
      refine enrols_bind (enrols_set ⟨{ covered.engine with faults := ?_ },
        { covered.names with }⟩) fun _ _ _ _ => enrols_pure _ trivial
      intro other same
      cases same
      exact covered.engine.faults probe present

theorem enrols_new_type (name : String) (columns : List ColumnType) :
    Enrols (Covered faulty) census (newType name columns) fun _ _ => True := by
  apply enrols_bind (enrols_in_engine (Engine.enrols_new_row_type columns))
  intro _ _ _ _
  apply enrols_bind (enrols_modify fun _ covered =>
    ⟨covered.engine, { covered.names with }⟩)
  intro _ _ _ _
  exact enrols_pure _ trivial

theorem enrols_compare_types (left right : String) :
    Enrols (Covered faulty) census (compareTypes left right) fun _ _ => True :=
  enrols_bind (enrols_type_named left) fun _ _ _ _ =>
    enrols_bind (enrols_type_named right) fun _ _ _ _ => enrols_pure _ trivial

/-- A new stored row gets a name. -/
theorem enrols_name_new_row (name : String) (type : RowType) (values : List Datum) :
    Enrols (Covered faulty) census
      (do
        nameRow name (← inEngine (Engine.newRow type values))
        pure Reply.done) fun _ _ => True := by
  apply enrols_bind (enrols_in_engine (Engine.enrols_new_row type values))
  intro later _ _ stored
  apply enrols_bind (enrols_name_row name (Row.listed_of_stored stored later))
  intro _ _ _ _
  exact enrols_pure _ trivial

theorem enrols_copy_row (row name : String) :
    Enrols (Covered faulty) census (copyRow row name) fun _ _ => True := by
  apply enrols_bind (enrols_row_named row)
  intro _ source _ listed
  apply enrols_bind (enrols_in_journal (keeps_read_all listed))
  intro _ values _ _
  exact enrols_name_new_row name source.type values

theorem enrols_project_row (name base : String) (types : List ColumnType)
    (columns : List Blueprint) (bindings? : Option String) :
    Enrols (Covered faulty) census (projectRow name base types columns bindings?)
      fun _ _ => True := by
  apply enrols_bind (enrols_row_named base)
  intro _ below _ listed
  apply enrols_bind (enrols_build_expressions columns)
  intro _ expressions first _
  apply enrols_bind (enrols_bindings_or_fresh bindings?)
  intro _ bindings second bound
  apply enrols_bind (enrols_in_engine (Engine.enrols_new_row_type types))
  intro _ type third _
  apply enrols_get
  intro session _
  apply enrols_bind (enrols_in_engine (Engine.enrols_new_projection type session.context expressions
    (listed.later ((first.trans second).trans third)) (bound.later third)))
  intro _ row _ made
  apply enrols_bind (enrols_name_row name made)
  intro _ _ within _
  apply enrols_bind (enrols_modify fun _ covered => ⟨covered.engine, { covered.names with
    projections := Table.every_set covered.names.projections name (made.later within) }⟩)
  intro _ _ _ _
  exact enrols_pure _ trivial

theorem enrols_read_row (name : String) :
    Enrols (Covered faulty) census (readRow name) fun _ _ => True := by
  apply enrols_bind (enrols_row_named name)
  intro _ row _ listed
  exact enrols_bind (enrols_in_journal (keeps_read_each listed)) fun _ _ _ _ =>
    enrols_pure _ trivial

theorem enrols_forget_row (name : String) :
    Enrols (Covered faulty) census
      (modify fun session : Session => { session with rows := session.rows.erase name })
      fun _ _ => True :=
  enrols_modify fun _ covered => ⟨covered.engine, { covered.names with
    rows := Table.every_erase covered.names.rows name }⟩

theorem enrols_set_slot (slot : String) {content : Option Row} (listed : RowListed census content) :
    Enrols (Covered faulty) census (setSlot slot content) fun _ _ => True :=
  enrols_modify fun _ covered => ⟨covered.engine, { covered.names with
    slots := Table.every_set covered.names.slots slot listed }⟩

theorem enrols_slot_content (slot : String) :
    Enrols (Covered faulty) census (slotContent slot) RowListed := by
  refine enrols_get fun session covered => enrols_pure _ ?_
  cases found : session.slots.get? slot with
  | none => exact row_listed_none
  | some content => exact Table.every_get covered.names.slots found

theorem enrols_hold (slot row : String) :
    Enrols (Covered faulty) census (hold slot row) fun _ _ => True := by
  apply enrols_bind (enrols_row_named row)
  intro _ held _ listed
  apply enrols_bind (enrols_forget_row row)
  intro _ _ within _
  apply enrols_bind (enrols_set_slot slot (row_listed_some (listed.later within)))
  intro _ _ _ _
  exact enrols_pure _ trivial

theorem enrols_look_at_slot (slot : String) :
    Enrols (Covered faulty) census (lookAtSlot slot) fun _ _ => True := by
  apply enrols_bind (enrols_slot_content slot)
  intro _ content _ listed
  cases content with
  | none => exact enrols_pure _ trivial
  | some row =>
      exact enrols_bind (enrols_in_journal (keeps_read_each (listed row rfl))) fun _ _ _ _ =>
        enrols_pure _ trivial

theorem enrols_take_slot (slot name : String) :
    Enrols (Covered faulty) census (takeSlot slot name) fun _ _ => True := by
  apply enrols_bind (enrols_slot_content slot)
  intro _ content _ listed
  cases content with
  | none => exact enrols_pure _ trivial
  | some row =>
      apply enrols_bind (enrols_set_slot slot row_listed_none)
      intro _ _ within _
      apply enrols_bind (enrols_name_row name ((listed row rfl).later within))
      intro _ _ _ _
      exact enrols_pure _ trivial

theorem enrols_insert_rows (table : String) (rows : List RowSource) :
    Enrols (Covered faulty) census (insertRows table rows) fun _ _ => True := by
  apply enrols_bind (enrols_in_engine (Engine.enrols_stored_table table))
  intro _ stored _ _
  refine enrols_then (fun _ _ => True) (enrols_for rows fun _ _ source _ => ?_)
    fun _ _ _ _ => enrols_pure _ trivial
  apply enrols_bind (enrols_build_row stored.type source)
  intro _ row _ listed
  exact enrols_in_engine (Engine.enrols_insert_row table listed)

theorem enrols_table_contents (table : String) (name? : Option String) :
    Enrols (Covered faulty) census (tableContents table name?) fun _ _ => True := by
  apply enrols_bind (enrols_in_engine (Engine.enrols_stored_table table))
  intro _ stored _ plain
  have reading : ∀ later, Enrols (Covered faulty) later
      (stored.rows.mapM fun row => inJournal row.readEach) fun _ all => ∀ one ∈ all, True :=
    fun later => enrols_map stored.rows (fun _ _ _ _ _ => trivial) fun last _ row member =>
      enrols_in_journal (keeps_read_each (Row.listed_of_stored (plain row member) last))
  apply enrols_bind (reading _)
  intro _ contents _ _
  cases name? with
  | none => exact enrols_pure _ trivial
  | some name =>
      refine enrols_then (fun _ _ => True) (enrols_for _ fun later _ place member => ?_)
        fun _ _ _ _ => enrols_pure _ trivial
      have stored : place.1.isStored = true := plain place.1 (List.fst_mem_of_mem_zipIdx member)
      exact enrols_name_row _ (Row.listed_of_stored stored later)

theorem enrols_new_plan (name : String) (source : PlanSource) :
    Enrols (Covered faulty) census (newPlan name source) fun _ _ => True := by
  apply enrols_bind (enrols_build_plan source)
  intro _ plan _ listed
  apply enrols_bind (enrols_modify fun _ covered => ⟨covered.engine, { covered.names with
    plans := Table.every_set covered.names.plans name listed }⟩)
  intro _ _ _ _
  exact enrols_pure _ trivial

theorem enrols_execution (source : PlanSource) (bindings? : Option String) :
    Enrols (Covered faulty) census (execute source bindings?) fun _ _ => True := by
  apply enrols_bind (enrols_build_plan source)
  intro _ plan _ listed
  apply enrols_bind (enrols_bindings_or_fresh bindings?)
  intro _ bindings within bound
  apply enrols_get
  intro session _
  exact enrols_bind (enrols_in_engine (Plan.enrols_execute session.context (listed.later within)
    bound)) fun _ _ _ _ => enrols_pure _ trivial

theorem enrols_executions (source : PlanSource) (names : List String) :
    Enrols (Covered faulty) census (executeEach source names) fun _ _ => True := by
  apply enrols_bind (enrols_build_plan source)
  intro _ plan _ listed
  apply enrols_bind (enrols_all_bindings_named names)
  intro _ bindings within bound
  apply enrols_get
  intro session _
  exact enrols_bind (enrols_in_engine (Plan.enrols_execute_each session.context
    (listed.later within) bound)) fun _ _ _ _ => enrols_pure _ trivial

theorem enrols_build_selector (selector? : Option Blueprint) :
    Enrols (Covered faulty) census (selector?.mapM buildExpression) fun _ _ => True := by
  cases selector? with
  | none => exact enrols_pure _ trivial
  | some blueprint => exact enrols_answer some (enrols_build_expression blueprint)

/-- An update that is built has the input that it was built from. -/
theorem input_of_built {input : Plan} {table : String} {selector? : Option Expr}
    {assignments : List (Option Expr)} {update : Update}
    (built : Update.build input table selector? assignments = .ok update) :
    update.input = input := by
  unfold Update.build at built
  split at built
  · cases built
  · split at built
    · split at built <;> cases built
      rfl
    · cases built
      rfl

theorem enrols_update (source : UpdateSource) :
    Enrols (Covered faulty) census (update source) fun _ _ => True := by
  apply enrols_bind (enrols_build_plan source.input)
  intro _ input _ listed
  apply enrols_bind (enrols_build_selector source.selector?)
  intro _ selector? first _
  have assigning : ∀ later, Enrols (Covered faulty) later
      (source.assignments.foldlM (fun before assignment => do
        Update.assign before assignment.1 (← buildExpression assignment.2))
        (List.replicate source.columns none)) fun _ _ => True := by
    intro later
    refine enrols_fold _ (fun _ before _ _ assignment _ => ?_) trivial
    apply enrols_bind (enrols_build_expression assignment.2)
    intro _ expression _ _
    exact enrols_bind (enrols_index before assignment.1) fun _ _ _ _ => enrols_pure _ trivial
  apply enrols_bind (assigning _)
  intro _ assignments second _
  have building : ∀ later, Enrols (Covered faulty) later
      (ofExcept (Update.build input source.table selector? assignments))
      fun _ update => update.input = input :=
    fun later => enrols_of_except fun update built => input_of_built built
  apply enrols_bind (building _)
  intro _ update third same
  apply enrols_bind (enrols_bindings_or_fresh source.bindings?)
  intro last bindings fourth bound
  apply enrols_get
  intro session _
  have listed : update.input.Listed last := by
    rw [same]
    exact listed.later (((first.trans second).trans third).trans fourth)
  exact enrols_bind (enrols_attempt (enrols_in_engine (Update.enrols_run update session.context
    listed bound))) fun _ _ _ _ => enrols_pure _ trivial

theorem enrols_new_bindings (name : String) (parent? : Option String)
    (parameters : List (Nat × Datum)) (rows : List (Nat × String)) :
    Enrols (Covered faulty) census (newBindings name parent? parameters rows) fun _ _ => True := by
  have binding : ∀ later (level : Bindings), level.Listed later →
      Enrols (Covered faulty) later
        (do
          let withParameters := parameters.foldl (fun before bound =>
            before.bindParameter bound.1 bound.2) level
          let bindings ← rows.foldlM (fun before bound => do
            pure (before.bindOuter bound.1 (← rowNamed bound.2))) withParameters
          modify fun session => { session with bindings := session.bindings.set name bindings }
          pure Reply.done) fun _ _ => True := by
    intro later level listed
    refine enrols_then (fun later bindings => bindings.Listed later)
      (enrols_fold rows (fun later before _ given member _ => ?_)
        (Bindings.listed_bind_parameters parameters listed)) fun last bindings _ bound => ?_
    · refine enrols_bind (enrols_row_named member.2) fun _ row within listed => enrols_pure _ ?_
      exact ⟨listed, Bindings.listed_without_outer before member.1 (given.later within)⟩
    · apply enrols_bind (enrols_modify fun _ covered => ⟨covered.engine, { covered.names with
        bindings := Table.every_set covered.names.bindings name bound }⟩)
      intro _ _ _ _
      exact enrols_pure _ trivial
  apply enrols_bind (enrols_in_engine Engine.enrols_fresh_id)
  intro later id _ _
  cases parent? with
  | none => exact binding later (.root id) trivial
  | some parent =>
      exact enrols_bind (enrols_bindings_named parent) fun last outer _ listed =>
        binding last (.nested id outer) listed

theorem enrols_lookup (name : String) (index : Nat) :
    Enrols (Covered faulty) census (lookup name index) fun _ _ => True := by
  apply enrols_bind (enrols_bindings_named name)
  intro later bindings _ listed
  have reading : Enrols (Covered faulty) later
      ((bindings.outerRow? index).mapM fun row => inJournal row.readEach) fun _ _ => True := by
    cases found : bindings.outerRow? index with
    | none => exact enrols_pure _ trivial
    | some row =>
        exact enrols_answer some (enrols_in_journal
          (keeps_read_each (Bindings.listed_outer_row bindings listed found)))
  exact enrols_bind reading fun _ _ _ _ => enrols_pure _ trivial

theorem enrols_new_source (name : String) (choice : BindingsChoice) :
    Enrols (Covered faulty) census (newSource name choice) fun _ _ => True := by
  apply enrols_bind (enrols_source_of choice)
  intro _ source _ listed
  apply enrols_bind (enrols_modify fun _ covered => ⟨covered.engine, { covered.names with
    sources := Table.every_set covered.names.sources name listed }⟩)
  intro _ _ _ _
  exact enrols_pure _ trivial

theorem enrols_delivered (bindings? : Option Bindings) :
    Enrols (Covered faulty) census (delivered bindings?) fun _ _ => True :=
  enrols_get fun _ _ => enrols_pure _ trivial

theorem enrols_on_source (name : String) (command : SourceCommand) :
    Enrols (Covered faulty) census (onSource name command) fun _ _ => True := by
  have storing : ∀ later (answer : Option (Option Delivered)) (changed : BindingSource),
      changed.Listed later → Enrols (Covered faulty) later
        (do
          modify fun session => { session with sources := session.sources.set name changed }
          pure (Reply.source answer (remaining? changed))) fun _ _ => True := by
    intro later answer changed listed
    apply enrols_bind (enrols_modify fun _ covered => ⟨covered.engine, { covered.names with
      sources := Table.every_set covered.names.sources name listed }⟩)
    intro _ _ _ _
    exact enrols_pure _ trivial
  apply enrols_bind (enrols_named (fun _ covered => covered.names.sources) name)
  intro later source _ listed
  cases command with
  | openAll => exact storing later none _ (BindingSource.all_open_all listed)
  | next =>
      apply enrols_bind (enrols_delivered source.next.1)
      intro last answer within _
      exact storing last (some answer) _
        (BindingSource.Listed.later within (BindingSource.all_next listed).2)
  | close => exact storing later none _ (BindingSource.all_close listed)
  | cancel bindings =>
      apply enrols_bind (enrols_bindings_named bindings)
      intro last cancelled within _
      exact storing last none _ (BindingSource.all_cancel (listed.later within) cancelled)

theorem enrols_new_cursor (name : String) (source : PlanSource) (choice : BindingsChoice) :
    Enrols (Covered faulty) census (newCursor name source choice) fun _ _ => True := by
  apply enrols_bind (enrols_build_plan source)
  intro _ plan _ listed
  apply enrols_bind (enrols_source_of choice)
  intro last bindings within bound
  apply enrols_get
  intro session covered
  cases started : plan.start session.engine.store bindings with
  | error error => exact enrols_fail error
  | ok state =>
      have known : (⟨plan, session.context, state⟩ : OpenCursor).Known faulty last :=
        ⟨.start started, Plan.start_lists started (listed.later within) bound⟩
      have named : Covered faulty last { session with
          cursors := session.cursors.set name ⟨plan, session.context, state⟩ } :=
        ⟨covered.engine, { covered.names with
          cursors := Table.every_set covered.names.cursors name known }⟩
      have storing : Enrols (Covered faulty) last
          (do
            set { session with
              cursors := session.cursors.set name ⟨plan, session.context, state⟩ }
            pure Reply.done) fun _ _ => True :=
        enrols_bind (enrols_set named) fun _ _ _ _ => enrols_pure _ trivial
      exact storing

/-- A call on a cursor leaves the cursor known and the engine covered. -/
theorem enrols_call_cursor (name : String)
    {call : (cursor : OpenCursor) → CursorAction cursor.plan.Cursor result}
    (calls : ∀ census (cursor : OpenCursor),
      Enrols (Tracked faulty (cursor.plan.Known cursor.context faulty)) census
        (call cursor) gives) :
    Enrols (Covered faulty) census (callCursor name call) gives := by
  apply enrols_bind (enrols_named (fun _ covered => covered.names.cursors) name)
  intro later cursor _ known session covered
  have ends := (calls later cursor (cursor.state, session.engine) ⟨known, covered.engine⟩).2
  refine ⟨rfl, ?_⟩
  change Meets _ _ (((call cursor).run (cursor.state, session.engine)).1,
    ({ session with
        engine := ((call cursor).run (cursor.state, session.engine)).2.2
        cursors := session.cursors.set name
          ⟨cursor.plan, cursor.context,
            ((call cursor).run (cursor.state, session.engine)).2.1⟩ } : Session))
  revert ends
  rcases (call cursor).run (cursor.state, session.engine) with ⟨interrupt | value, state, engine⟩
  · intro meets
    obtain ⟨last, within, held⟩ := meets
    have names := names_listed_lasting _ _ session within covered.names
    exact ⟨last, within, held.2,
      { names with cursors := Table.every_set names.cursors name held.1 }⟩
  · intro meets
    obtain ⟨last, within, held, given⟩ := meets
    have names := names_listed_lasting _ _ session within covered.names
    exact ⟨last, within, ⟨held.2,
      { names with cursors := Table.every_set names.cursors name held.1 }⟩, given⟩

theorem enrols_row_result (cursor : OpenCursor) (name? : Option String) (readColumns : Bool)
    {row : Row} (listed : row.Listed census) :
    Enrols (Covered faulty) census (rowResult cursor row name? readColumns) fun _ _ => True := by
  have reading : Enrols (Covered faulty) census (some <$> inJournal row.readEach) fun _ _ => True :=
    enrols_answer some (enrols_in_journal (keeps_read_each listed))
  cases name? with
  | none =>
      cases readColumns with
      | false => exact enrols_pure _ trivial
      | true => exact enrols_bind reading fun _ _ _ _ => enrols_pure _ trivial
  | some name =>
      cases readColumns with
      | false =>
          apply enrols_then (fun _ _ => True) (enrols_pure none trivial)
          intro _ _ within _
          exact enrols_bind (enrols_name_row name (listed.later within)) fun _ _ _ _ =>
            enrols_pure _ trivial
      | true =>
          apply enrols_bind reading
          intro _ columns? within _
          exact enrols_bind (enrols_name_row name (listed.later within)) fun _ _ _ _ =>
            enrols_pure _ trivial

theorem enrols_cursor_result (name : String) (command : CursorCommand) :
    Enrols (Covered faulty) census (cursorResult name command) fun _ _ => True := by
  have enrolling : ∀ cursor : OpenCursor, cursor.protocol.Enrolling faulty
      (cursor.plan.Known cursor.context faulty) :=
    fun cursor => cursor.plan.known_enrolling faulty cursor.context
  cases command with
  | openPass =>
      exact enrols_answer answer (enrols_call_cursor name fun census cursor =>
        enrols_attempt ((enrolling cursor).openPass census))
  | close =>
      exact enrols_answer answer (enrols_call_cursor name fun census cursor =>
        enrols_attempt ((enrolling cursor).close census))
  | destroy =>
      exact enrols_answer answer (enrols_call_cursor name fun census cursor =>
        enrols_attempt ((enrolling cursor).destroy census))
  | openBindings =>
      exact enrols_answer answer (enrols_call_cursor name fun census cursor =>
        enrols_attempt ((enrolling cursor).openBindings census))
  | closeBindings =>
      exact enrols_answer answer (enrols_call_cursor name fun census cursor =>
        enrols_attempt ((enrolling cursor).closeBindings census))
  | look => exact enrols_pure _ trivial
  | cancelBindings bindings? =>
      apply enrols_bind (enrols_bindings_or_fresh bindings?)
      intro _ bindings _ _
      apply enrols_bind (enrols_call_cursor name fun census cursor =>
        enrols_modify fun pair held => (enrolling cursor).cancelBindings census bindings pair held)
      intro _ _ _ _
      exact enrols_pure _ trivial
  | nextBindings =>
      apply enrols_bind (enrols_call_cursor name fun census cursor =>
        enrols_attempt ((enrolling cursor).nextBindings census))
      intro _ outcome _ _
      cases outcome with
      | ok bindings? =>
          exact enrols_bind (enrols_delivered bindings?) fun _ _ _ _ => enrols_pure _ trivial
      | error error => exact enrols_pure _ trivial
  | drain =>
      apply enrols_bind (enrols_call_cursor name fun census cursor =>
        enrols_attempt (enrols_drain (enrolling cursor)))
      intro _ outcome _ _
      cases outcome with
      | ok rows => exact enrols_pure _ trivial
      | error error => exact enrols_pure _ trivial
  | next name? readColumns =>
      apply enrols_bind (enrols_call_cursor name fun census cursor =>
        enrols_attempt ((enrolling cursor).next census))
      intro _ outcome _ listed
      rcases outcome with error | _ | row
      · exact enrols_pure _ trivial
      · exact enrols_pure _ trivial
      · apply enrols_bind (enrols_named (fun _ covered => covered.names.cursors) name)
        intro _ cursor within _
        exact enrols_row_result cursor name? readColumns ((listed _ rfl row rfl).later within)

theorem enrols_on_cursor (name : String) (command : CursorCommand) :
    Enrols (Covered faulty) census (onCursor name command) fun _ _ => True := by
  apply enrols_bind (enrols_cursor_result name command)
  intro _ result _ _
  exact enrols_bind (enrols_named (fun _ covered => covered.names.cursors) name)
    fun _ cursor _ _ => enrols_pure _ trivial

/-- Every command enrols: one case for each. -/
theorem enrols_perform (command : Command) :
    Enrols (Covered faulty) census (perform command) fun _ _ => True := by
  cases command with
  | context settings catalog? => exact enrols_new_context settings catalog?
  | cancel => exact enrols_cancel
  | isCancelled => exact enrols_cancellation
  | warn message =>
      apply enrols_get
      intro session _
      apply enrols_bind (enrols_in_journal ((keeps_compositional _).warn session.context message))
      intro _ _ _ _
      exact enrols_pure _ trivial
  | warnings => exact enrols_get fun _ _ => enrols_pure _ trivial
  | cast value target =>
      apply enrols_get
      intro session _
      apply enrols_bind (enrols_in_journal
        ((keeps_compositional _).cast session.context value target))
      intro _ _ _ _
      exact enrols_pure _ trivial
  | taps => exact enrols_get fun _ _ => enrols_pure _ trivial
  | tapCount name => exact enrols_get fun _ _ => enrols_pure _ trivial
  | lockedRows => exact enrols_get fun _ _ => enrols_pure _ trivial
  | leafLog => exact enrols_take_leaf_log
  | type name columns => exact enrols_new_type name columns
  | sameType left right => exact enrols_compare_types left right
  | row name type values =>
      exact enrols_bind (enrols_type_named type) fun _ rowType _ _ =>
        enrols_name_new_row name rowType values
  | copyRow row name => exact enrols_copy_row row name
  | projectRow name base types columns bindings? =>
      exact enrols_project_row name base types columns bindings?
  | evaluated row =>
      exact enrols_bind (enrols_named (fun _ covered => covered.names.projections) row)
        fun _ _ _ _ => enrols_get fun _ _ => enrols_pure _ trivial
  | acquire row name =>
      apply enrols_bind (enrols_row_named row)
      intro _ held _ listed
      exact enrols_bind (enrols_name_row name listed) fun _ _ _ _ => enrols_pure _ trivial
  | release row =>
      apply enrols_bind (enrols_row_named row)
      intro _ _ _ _
      exact enrols_bind (enrols_forget_row row) fun _ _ _ _ => enrols_pure _ trivial
  | holders row =>
      exact enrols_bind (enrols_row_named row) fun _ _ _ _ =>
        enrols_get fun _ _ => enrols_pure _ trivial
  | sameRow left right =>
      apply enrols_bind (enrols_row_named left)
      intro _ _ _ _
      exact enrols_bind (enrols_row_named right) fun _ _ _ _ => enrols_pure _ trivial
  | readColumn row column =>
      apply enrols_bind (enrols_row_named row)
      intro _ source _ listed
      exact enrols_bind (enrols_in_journal (keeps_read listed column)) fun _ _ _ _ =>
        enrols_pure _ trivial
  | readRow row => exact enrols_read_row row
  | describeRow row =>
      apply enrols_bind (enrols_row_named row)
      intro _ source _ listed
      exact enrols_bind (enrols_in_journal (keeps_describe listed)) fun _ _ _ _ =>
        enrols_pure _ trivial
  | hold slot row => exact enrols_hold slot row
  | slot slot => exact enrols_look_at_slot slot
  | takeSlot slot name => exact enrols_take_slot slot name
  | releaseSlot slot =>
      exact enrols_bind (enrols_set_slot slot row_listed_none) fun _ _ _ _ => enrols_pure _ trivial
  | createTable table type =>
      apply enrols_bind (enrols_type_named type)
      intro _ rowType _ _
      exact enrols_bind (enrols_in_engine (Engine.enrols_create_table table rowType))
        fun _ _ _ _ => enrols_pure _ trivial
  | insert table rows => exact enrols_insert_rows table rows
  | updateRow table old new =>
      apply enrols_bind (enrols_row_named old)
      intro _ before _ oldListed
      apply enrols_bind (enrols_row_named new)
      intro _ after within newListed
      exact enrols_bind (enrols_in_engine (Engine.enrols_update_row table
        (oldListed.later within) newListed)) fun _ _ _ _ => enrols_pure _ trivial
  | deleteRow table row =>
      apply enrols_bind (enrols_row_named row)
      intro _ target _ listed
      exact enrols_bind (enrols_in_engine (Engine.enrols_delete_row table listed)) fun _ _ _ _ =>
        enrols_pure _ trivial
  | table table name? => exact enrols_table_contents table name?
  | plan name source => exact enrols_new_plan name source
  | execute source bindings? => exact enrols_execution source bindings?
  | executeEach source names => exact enrols_executions source names
  | update source => exact enrols_update source
  | bindings name parent? parameters rows => exact enrols_new_bindings name parent? parameters rows
  | lookup bindings index => exact enrols_lookup bindings index
  | isAncestor left right =>
      apply enrols_bind (enrols_bindings_named left)
      intro _ _ _ _
      exact enrols_bind (enrols_bindings_named right) fun _ _ _ _ => enrols_pure _ trivial
  | newSource name choice => exact enrols_new_source name choice
  | onSource source command => exact enrols_on_source source command
  | cursor name source choice => exact enrols_new_cursor name source choice
  | onCursor cursor command => exact enrols_on_cursor cursor command

end Commands

/-- The sessions that commands reach, with leaf faults of the admitted kinds only. -/
inductive Reached (faulty : LeafCall → Prop) : Session → Prop
  | start {settings : SettingsSource} {catalog : CatalogSource} {probe? : Option Probe}
      {session : Session} (started : Session.start settings catalog probe? = .ok session)
      (faults : ∀ probe, probe? = some probe → probe.FaultsWithin faulty) : Reached faulty session
  | step {session : Session} (earlier : Reached faulty session) (command : Command) :
      Reached faulty (session.step command).2

/-- The session after some commands. -/
def after (session : Session) (commands : List Command) : Session :=
  commands.foldl (fun before command => (before.step command).2) session

theorem Reached.after {session : Session} (reached : session.Reached faulty)
    (commands : List Command) : (session.after commands).Reached faulty := by
  induction commands generalizing session with
  | nil => exact reached
  | cons command rest induction => exact induction (reached.step command)

/-- A session starts with an engine that has made nothing and the context that its sources give. -/
theorem start_made {settings : SettingsSource} {catalog : CatalogSource} {probe? : Option Probe}
    {session : Session} (started : Session.start settings catalog probe? = .ok session) :
    ∃ chosen known, settings.build = .ok chosen ∧ catalog.build = .ok known ∧
      session = {
        engine := { nextId := 2, probe? }
        context := { id := 1, catalog := known, settings := chosen }
        catalog := known } := by
  obtain ⟨chosen, ofSettings, rest⟩ := ok_of_bind started
  obtain ⟨known, ofCatalog, made⟩ := ok_of_bind rest
  cases made
  exact ⟨chosen, known, ofSettings, ofCatalog, rfl⟩

/-- A new session has nothing to list. -/
theorem start_covered {settings : SettingsSource} {catalog : CatalogSource} {probe? : Option Probe}
    {session : Session} (started : Session.start settings catalog probe? = .ok session)
    (faults : ∀ probe, probe? = some probe → probe.FaultsWithin faulty) :
    session.Covered faulty fun _ => none := by
  obtain ⟨_, _, _, _, rfl⟩ := start_made started
  refine ⟨⟨Journal.faithful_empty, fun _ _ => rfl, Table.every_empty, Table.every_empty, faults⟩,
    ?_⟩
  exact ⟨Table.every_empty, Table.every_empty, Table.every_empty, Table.every_empty,
    Table.every_empty, Table.every_empty, Table.every_empty⟩

/-- Some census covers every session that commands reach: by induction on the commands. -/
theorem Reached.covered {session : Session} (reached : session.Reached faulty) :
    ∃ census, session.Covered faulty census := by
  induction reached with
  | start started faults => exact ⟨_, start_covered started faults⟩
  | step earlier command covered =>
      obtain ⟨census, covered⟩ := covered
      have ends : EndsIn _ (perform command) (fun _ after => ∃ later, Covered faulty later after)
          fun _ after => ∃ later, Covered faulty later after :=
        agree_weaken (enrols_perform command _ covered)
          (fun _ _ ⟨later, _, held, _⟩ => ⟨later, held⟩) fun _ _ ⟨later, _, held⟩ => ⟨later, held⟩
      exact reaches_of_ends ends

end Session

end QueryExec
