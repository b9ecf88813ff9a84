import QueryExec.Proofs.Beside.Runs
import QueryExec.Proofs.Sharing.Registry
import QueryExec.Session.Claims
import QueryExec.Update

/-!
Steps that keep to a registry. Such a step leaves a state that a later registry covers, and its
answer has its entries there. The engine keeps to its registry in all that it does, and so does a
whole run of a plan or an update.
-/

namespace QueryExec

open QueryExec.Action QueryExec.Correspondence

/-- The step corresponds to itself, and what it comes to is covered by a later registry. -/
def Registers {state result : Type} (covers : Registry → state → Prop) (world : Registry)
    (action : Action state result) (gives : Registry → result → Prop) : Prop :=
  Correspond (fun world => Both (covers world)) world action action fun later => Both (gives later)

section Rules

variable {state result other : Type} {covers : Registry → state → Prop} {world : Registry}
  {gives : Registry → result → Prop} {middle : Registry → other → Prop}

theorem registers_pure {value : result} (given : gives world value) :
    Registers covers world (pure value) gives :=
  correspond_pure ⟨rfl, given⟩

theorem registers_fail (error : QueryError) :
    Registers covers world (fail error : Action state result) gives :=
  correspond_fail error

theorem registers_bind {action : Action state other} {next : other → Action state result}
    (begin : Registers covers world action middle)
    (continues : ∀ later value, world ≤ later → middle later value →
      Registers covers later (next value) gives) :
    Registers covers world (action >>= next) gives :=
  correspond_bind begin fun later value _ grown same => same.1 ▸ continues later value grown same.2

/-- The same, where what holds in between is said. -/
theorem registers_then (middle : Registry → other → Prop) {action : Action state other}
    {next : other → Action state result} (begin : Registers covers world action middle)
    (continues : ∀ later value, world ≤ later → middle later value →
      Registers covers later (next value) gives) :
    Registers covers world (action >>= next) gives :=
  registers_bind begin continues

theorem registers_imp {given : Registry → result → Prop} {action : Action state result}
    (registers : Registers covers world action given)
    (implies : ∀ later value, given later value → gives later value) :
    Registers covers world action gives :=
  correspond_imp registers fun later value _ same => ⟨same.1, implies later value same.2⟩

theorem registers_get {next : state → Action state result}
    (follows : ∀ start, covers world start → Registers covers world (next start) gives) :
    Registers covers world (get >>= next) gives :=
  correspond_get fun start _ held => held.1 ▸ follows start held.2

theorem registers_modify {step : state → state}
    (keeps : ∀ start, covers world start → covers world (step start)) :
    Registers covers world (modify step) fun _ _ => True :=
  fun start _ held => held.1 ▸ ⟨world, le_rfl, ⟨rfl, keeps start held.2⟩, rfl, trivial⟩

theorem registers_set {state : Type} {covers : Registry → state → Prop} {value : state}
    (covered : covers world value) : Registers covers world (set value) fun _ _ => True :=
  fun _ _ _ => ⟨world, le_rfl, ⟨rfl, covered⟩, rfl, trivial⟩

theorem registers_of_except {outcome : Except QueryError result}
    (given : ∀ value, outcome = .ok value → gives world value) :
    Registers covers world (ofExcept outcome) gives := by
  cases outcome with
  | ok value => exact registers_pure (given value rfl)
  | error error => exact registers_fail error

theorem registers_of_option {error : QueryError} {found : Option result}
    (given : ∀ value, found = some value → gives world value) :
    Registers covers world (ofOption error found) gives := by
  cases found with
  | some value => exact registers_pure (given value rfl)
  | none => exact registers_fail error

theorem registers_attempt {action : Action state result}
    (registers : Registers covers world action gives) :
    Registers covers world action.attempt fun later outcome =>
      ∀ value, outcome = .ok value → gives later value := by
  refine correspond_imp (correspond_attempt registers) ?_
  rintro later (error | value) (same | partner) alike
  · exact ⟨congrArg _ alike, nofun⟩
  · exact alike.elim
  · exact alike.elim
  · obtain ⟨rfl, given⟩ := alike
    refine ⟨rfl, fun other same => ?_⟩
    cases same
    exact given

/-- What lasts as registries grow. -/
def Registry.Lasting {thing : Type} (holds : Registry → thing → Prop) : Prop :=
  ∀ world later one, world ≤ later → holds world one → holds later one

theorem registers_map {item : Type} {step : item → Action state result} (items : List item)
    (lasting : Registry.Lasting gives)
    (each : ∀ later, world ≤ later → ∀ member ∈ items, Registers covers later (step member) gives) :
    Registers covers world (items.mapM step)
      fun later values => ∀ value ∈ values, gives later value := by
  induction items generalizing world with
  | nil =>
      have none : ∀ value ∈ ([] : List result), gives world value := nofun
      exact registers_pure none
  | cons first rest induction =>
      rw [List.mapM_cons]
      refine registers_bind (each world le_rfl first List.mem_cons_self)
        fun later value grown own => ?_
      refine registers_bind (induction fun last further member among =>
        each last (grown.trans further) member (List.mem_cons_of_mem _ among)) ?_
      intro last values further others
      refine registers_pure (List.forall_mem_cons.mpr ⟨lasting _ _ value further own, others⟩)

theorem registers_for {item : Type} {step : item → Action state PUnit} (items : List item)
    (each : ∀ later, world ≤ later → ∀ member ∈ items,
      Registers covers later (step member) fun _ _ => True) :
    Registers covers world (items.forM step) fun _ _ => True := by
  induction items generalizing world with
  | nil => exact registers_pure trivial
  | cons first rest induction =>
      refine registers_bind (each world le_rfl first List.mem_cons_self) fun later _ grown _ => ?_
      exact induction fun last further member among =>
        each last (grown.trans further) member (List.mem_cons_of_mem _ among)

theorem registers_fold {item : Type} {step : result → item → Action state result}
    (items : List item)
    (each : ∀ later before, gives later before → ∀ member ∈ items,
      Registers covers later (step before member) gives)
    {before : result} (given : gives world before) :
    Registers covers world (items.foldlM step before) gives := by
  induction items generalizing world before with
  | nil => exact registers_pure given
  | cons first rest induction =>
      rw [List.foldlM_cons]
      refine registers_bind (each world before given first List.mem_cons_self) ?_
      intro later _ _ reached
      exact induction (fun last before given member among =>
        each last before given member (List.mem_cons_of_mem _ among)) reached

theorem registers_on_part {inner : Type} {parts : Registry → inner → Prop} {get : state → inner}
    {put : inner → state → state} {action : Action inner result}
    (part : ∀ start, covers world start → parts world (get start))
    (rest : ∀ later start changed, world ≤ later → covers world start → parts later changed →
      covers later (put changed start))
    (registers : Registers parts world action gives) :
    Registers covers world (action.onPart get put) gives := by
  refine correspond_on_part ?_ ?_ registers
  · rintro start _ ⟨rfl, held⟩
    exact ⟨rfl, part start held⟩
  · rintro later start _ changed _ grown ⟨rfl, held⟩ ⟨rfl, reached⟩
    exact ⟨rfl, rest later start changed grown held reached⟩

/-- A step whose two runs correspond has one run, so its answer is one answer. -/
theorem registers_of_correspond {given : Registry → result → result → Prop}
    {action : Action state result}
    (correspond : Correspond (fun world => Both (covers world)) world action action given)
    (implies : ∀ later value, given later value value → gives later value) :
    Registers covers world action gives := by
  rintro start _ ⟨rfl, held⟩
  rcases end_alike_cases (correspond start start ⟨rfl, held⟩) with
    ⟨value, same, after, last, ran, went, later, grown, reached, answered⟩ |
    ⟨interrupt, after, last, ran, went, later, grown, reached⟩
  · rw [ran]
    rw [ran] at went
    cases went
    exact ⟨later, grown, reached, rfl, implies later value answered⟩
  · rw [ran]
    rw [ran] at went
    cases went
    exact ⟨rfl, later, grown, reached⟩

/-- Where a step that keeps to its registry ends. -/
theorem Registers.reaches {action : Action state result}
    (registers : Registers covers world action gives) {start : state} (held : covers world start) :
    ∃ later, world ≤ later ∧ covers later (action.run start).2 := by
  rcases end_alike_cases (registers start start ⟨rfl, held⟩) with
    ⟨_, _, after, _, ran, _, later, grown, reached, _⟩ |
      ⟨_, after, _, ran, _, later, grown, reached⟩
  · rw [ran]
    exact ⟨later, grown, reached.2⟩
  · rw [ran]
    exact ⟨later, grown, reached.2⟩

end Rules

theorem Registry.has_row_lasting : Registry.Lasting fun world row => world.Has (.row row) :=
  fun _ _ _ grown has => has.later grown

theorem Registry.has_bindings_lasting :
    Registry.Lasting fun world bindings => world.Has (.bindings bindings) :=
  fun _ _ _ grown has => has.later grown

namespace Engine

variable {world : Registry} {result : Type}

theorem registers_reading (action : Action Journal result) :
    Registers Registry.Covers world (inJournal action) fun _ _ => True :=
  registers_of_correspond (Registry.correspond_reading action) fun _ _ _ => trivial

theorem registers_new_row (type : RowType) (values : List Datum) :
    Registers Registry.Covers world (newRow type values) fun later row => later.Has (.row row) :=
  Registry.correspond_new_row type values

theorem registers_new_projection {row : Row} {bindings : Bindings} (has : world.Has (.row row))
    (bound : world.Has (.bindings bindings)) (type : RowType) (context : Context)
    (columns : List Expr) :
    Registers Registry.Covers world (newProjection type row context bindings columns)
      fun later made => later.Has (.row made) :=
  Registry.correspond_new_projection ⟨rfl, has⟩ bound type context columns

/-- An identity that is given out to a binding of nothing. -/
theorem registers_new_bindings :
    Registers Registry.Covers world freshId fun later id => later.Has (.bindings (.root id)) := by
  rintro engine _ ⟨rfl, covers⟩
  let made := Claimable.bindings (.root engine.nextId)
  have has : (world.issue (some made) none).Has made :=
    Registry.has_issue covers.next fun _ none => by cases none
  exact ⟨world.issue (some made) none, Registry.le_issue, ⟨rfl, covers.issue⟩, rfl, has⟩

/-- An identity that is given out to a list of rows. -/
theorem registers_new_slice (rows : List Row) :
    Registers Registry.Covers world freshId fun later id => later.slices id = some rows := by
  rintro engine _ ⟨rfl, covers⟩
  exact ⟨world.issue none (some rows), Registry.le_issue, ⟨rfl, covers.issue⟩, rfl,
    if_pos covers.next⟩

/-- An identity that is given out to something that nobody claims. -/
theorem registers_fresh_id : Registers Registry.Covers world freshId fun _ _ => True :=
  registers_imp registers_new_bindings fun _ _ _ => trivial

theorem registers_new_row_type (columns : List ColumnType) :
    Registers Registry.Covers world (newRowType columns) fun _ _ => True := by
  rintro engine _ ⟨rfl, covers⟩
  exact ⟨world, le_rfl, ⟨rfl, covers.next, covers.stored⟩, rfl, trivial⟩

theorem registers_stored_table (name : String) :
    Registers Registry.Covers world (storedTable name)
      fun later table => ∀ row ∈ table.rows, later.Has (.row row) := by
  refine registers_get fun engine covers => registers_of_except fun table found row among => ?_
  unfold Store.table at found
  split at found
  next stored known =>
    cases found
    exact Table.every_get covers.stored known row among
  · cases found

theorem registers_set_table (name : String) {table : StoredTable}
    (stored : ∀ row ∈ table.rows, world.Has (.row row)) :
    Registers Registry.Covers world (setTable name table) fun _ _ => True :=
  registers_modify fun _ covers => ⟨covers.next, Table.every_set covers.stored name stored⟩

theorem registers_create_table (name : String) (type : RowType) :
    Registers Registry.Covers world (createTable name type) fun _ _ => True := by
  refine registers_get fun engine covers => ?_
  refine registers_then (fun later store => later.Covers { engine with store })
    (registers_of_except fun store created => ?_) fun _ _ _ covers => registers_set covers
  unfold Store.create at created
  split at created
  · cases created
  · cases created
    exact ⟨covers.next, Table.every_set covers.stored name (by simp)⟩

theorem registers_materialise (table : StoredTable) (row : Row) :
    Registers Registry.Covers world (materialise table row)
      fun later made => later.Has (.row made) := by
  unfold materialise
  split
  · exact registers_bind (registers_reading _) fun _ values _ _ =>
      registers_new_row table.type values
  · exact registers_fail _

theorem registers_position_of (name : String) (table : StoredTable) (row : Row) :
    Registers Registry.Covers world (positionOf name table row) fun _ _ => True := by
  unfold positionOf
  split
  · exact registers_pure trivial
  · exact registers_bind (registers_reading _) fun _ _ _ _ => registers_fail _

theorem registers_insert_row (name : String) (row : Row) :
    Registers Registry.Covers world (insertRow name row) fun _ _ => True := by
  refine registers_bind (registers_stored_table name) fun later table _ stored => ?_
  refine registers_bind (registers_materialise table row) fun last made grown has => ?_
  refine registers_set_table name fun other among => ?_
  rcases List.mem_append.mp among with old | new
  · exact (stored other old).later grown
  · exact List.mem_singleton.mp new ▸ has

theorem registers_update_row (name : String) (old new : Row) :
    Registers Registry.Covers world (updateRow name old new) fun _ _ => True := by
  refine registers_bind (registers_stored_table name) fun later table _ stored => ?_
  refine registers_bind (registers_position_of name table old) fun middle position grown _ => ?_
  refine registers_bind (registers_materialise table new) fun last made further has => ?_
  refine registers_set_table name fun other among => ?_
  rcases List.mem_or_eq_of_mem_set among with kept | rfl
  · exact (stored other kept).later (grown.trans further)
  · exact has

theorem registers_delete_row (name : String) (row : Row) :
    Registers Registry.Covers world (deleteRow name row) fun _ _ => True := by
  refine registers_bind (registers_stored_table name) fun later table _ stored => ?_
  refine registers_bind (registers_position_of name table row) fun last position grown _ => ?_
  refine registers_set_table name fun other among => ?_
  exact (stored other (List.mem_of_mem_eraseIdx among)).later grown

theorem registers_lock_row : Registers Registry.Covers world lockRow fun _ _ => True := by
  refine registers_bind (registers_modify fun _ covers => ⟨covers.next, covers.stored⟩)
    fun later _ _ _ => ?_
  refine registers_bind (registers_of_correspond (Registry.correspond_inject_fault .lock)
    fun _ _ => id) fun last _ _ _ => ?_
  exact registers_modify fun _ covers => ⟨covers.next, covers.stored⟩

end Engine

namespace Plan

variable {world : Registry} {plan : Plan} {result : Type}

/-- The list of rows that a plan brings along has its entry, and so do the rows. -/
def Entered (world : Registry) (plan : Plan) : Prop :=
  ∀ slice ∈ plan.slices, world.slices slice.1 = some slice.2 ∧ ∀ row ∈ slice.2, world.Has (.row row)

theorem entered_lasting : Registry.Lasting Entered :=
  fun _ _ _ grown entered slice among =>
    have entry := entered slice among
    ⟨Registry.slice_later grown entry.1, fun row member => (entry.2 row member).later grown⟩

theorem mem_supply_iff {row : Row} : row ∈ plan.supply ↔ ∃ slice ∈ plan.slices, row ∈ slice.2 := by
  induction plan with
  | values slice type rows => simp [supply, slices]
  | table name type => simp [supply, slices]
  | filter input predicate induction => exact induction
  | project input type columns induction => exact induction
  | aggregate input type keys aggregates induction => exact induction
  | limit input offset limit? induction => exact induction

theorem Entered.supply (entered : plan.Entered world) :
    ∀ row ∈ plan.supply, world.Has (.row row) := by
  intro row among
  obtain ⟨slice, listed, member⟩ := mem_supply_iff.mp among
  exact (entered slice listed).2 row member

/-- A cursor that stands beside itself: all that it keeps has entries. -/
abbrev Enters (plan : Plan) (world : Registry) (cursor : plan.Cursor) : Prop :=
  plan.Beside registered world cursor cursor

theorem start_enters (context : Context) {store : Store} {source : BindingSource}
    {cursor : plan.Cursor}
    (started : plan.start store source = .ok cursor) (entered : plan.Entered world)
    (bound : source.All fun bindings => world.Has (.bindings bindings)) :
    plan.Enters world cursor :=
  plan.start_beside (Registry.registered_lawful context) started
    (fun row among => ⟨rfl, entered.supply row among⟩) bound

/-- A run keeps to its registry, whatever it does with the rows. -/
theorem registers_run (context : Context) {source : BindingSource} (entered : plan.Entered world)
    (bound : source.All fun bindings => world.Has (.bindings bindings))
    {pass : Bindings → CursorAction plan.Cursor result}
    (passes : ∀ world bindings, world.Has (.bindings bindings) →
      Correspond (registered.States (plan.Beside registered)) world (pass bindings) (pass bindings)
        fun _ => Eq) :
    Registers Registry.Covers world (plan.run context source pass) fun _ _ => True := by
  have protocols := plan.protocols_beside (Registry.registered_lawful context)
  refine registers_get fun engine _ => ?_
  refine registers_then (fun later cursor => plan.Enters later cursor)
    (registers_of_except fun cursor started => start_enters context started entered bound)
    fun later cursor _ enters => ?_
  have runs : Correspond registered.engines later
      (CursorAction.runFrom cursor
        ((plan.protocol context).thenDestroy ((plan.protocol context).runPasses pass)))
      (CursorAction.runFrom cursor
        ((plan.protocol context).thenDestroy ((plan.protocol context).runPasses pass)))
      fun _ => Eq :=
    correspond_run_from enters (correspond_then_destroy protocols
      (correspond_run_passes protocols passes fun grown bound => Registry.Has.later bound grown))
  exact registers_of_correspond runs fun _ _ _ => trivial

theorem registers_execute_each (context : Context) {bindings : List Bindings}
    (entered : plan.Entered world) (bound : ∀ one ∈ bindings, world.Has (.bindings one)) :
    Registers Registry.Covers world (plan.executeEach context bindings) fun _ _ => True :=
  have source : (BindingSource.ofList bindings).All fun one => world.Has (.bindings one) :=
    ⟨bound, nofun⟩
  registers_run context entered source fun _ _ _ =>
    correspond_drain (Registry.registered_lawful context)
      (plan.protocols_beside (Registry.registered_lawful context))

theorem registers_execute (context : Context) {bindings : Bindings} (entered : plan.Entered world)
    (bound : world.Has (.bindings bindings)) :
    Registers Registry.Covers world (plan.execute context bindings) fun _ _ => True := by
  have source : (BindingSource.ofOne bindings).All fun one => world.Has (.bindings one) := bound
  refine registers_bind (registers_run context entered source fun _ _ _ =>
    correspond_drain (Registry.registered_lawful context)
      (plan.protocols_beside (Registry.registered_lawful context))) fun _ _ _ _ => ?_
  exact registers_pure trivial

end Plan

namespace Update

variable {world : Registry} {update : Update}

theorem registers_apply (update : Update) (context : Context) (bindings : Bindings) (row : Row) :
    Registers Registry.Covers world (update.apply context bindings row) fun _ _ => True := by
  refine registers_bind (Engine.registers_reading _) fun _ selected _ _ => ?_
  split
  · refine registers_bind (Engine.registers_reading _) fun _ values _ _ => ?_
    refine registers_bind (Engine.registers_new_row _ values) fun _ replacement _ _ => ?_
    refine registers_bind Engine.registers_lock_row fun _ _ _ _ => ?_
    refine registers_bind (Engine.registers_update_row _ row replacement) fun _ _ _ _ => ?_
    exact registers_pure trivial
  · exact registers_pure trivial

theorem correspond_pass_within (context : Context) (bindings : Bindings) (most : Nat) :
    Correspond (registered.States (update.input.Beside registered)) world
      (update.passWithin context bindings most) (update.passWithin context bindings most)
      fun _ => Eq := by
  have protocols := update.input.protocols_beside (Registry.registered_lawful context)
  induction most generalizing world with
  | zero => exact correspond_pure rfl
  | succ most induction =>
      refine correspond_bind (protocols.next world) fun later row? partner? _ rows => ?_
      cases rows with
      | none => exact correspond_pure rfl
      | @some row partner rows =>
          obtain ⟨rfl, _⟩ := rows
          refine correspond_bind (correspond_in_engine protocols.enduring
            (registers_apply update context bindings row)) ?_
          rintro last modified _ _ ⟨rfl, _⟩
          refine correspond_bind induction ?_
          rintro _ rest _ _ rfl
          exact correspond_pure rfl

theorem registers_update (context : Context) {bindings : Bindings}
    (entered : update.input.Entered world) (bound : world.Has (.bindings bindings)) :
    Registers Registry.Covers world (update.run context bindings) fun _ _ => True := by
  have protocols := update.input.protocols_beside (Registry.registered_lawful context)
  have passes : ∀ (world : Registry) (bindings : Bindings), world.Has (.bindings bindings) →
      Correspond (registered.States (update.input.Beside registered)) world
        (update.pass context bindings) (update.pass context bindings) fun _ => Eq := by
    intro world bindings _
    apply correspond_state
    intro left right held
    rw [protocols.remaining held]
    exact correspond_pass_within context bindings _
  have source : (BindingSource.ofOne bindings).All fun one => world.Has (.bindings one) := bound
  refine registers_bind (Plan.registers_run context entered source passes) fun _ _ _ _ => ?_
  exact registers_pure trivial

end Update

end QueryExec
