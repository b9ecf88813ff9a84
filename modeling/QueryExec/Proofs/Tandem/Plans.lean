import QueryExec.Execution
import QueryExec.Proofs.Census.Trees
import QueryExec.Proofs.Cursor.Calls
import QueryExec.Proofs.Tandem.Grouping

/-!
Plans in tandem. Two runs of one plan start with leaves over rows that stand for each other, so
their cursor trees stay related, call by call; draining them reads the same values. Reading is
where the runs may part, and once the second has stopped nothing makes it succeed.
-/

namespace QueryExec

open QueryExec.Action QueryExec.Regime

variable {regime : Regime} {world : regime.World}

namespace Scan

/-- Two scans at one place of their sources, with rows to give that stand for each other. -/
structure Paired (regime : Regime) (supply : List Row) (world : regime.World)
    (left right : Scan) : Prop where
  phase : left.phase = right.phase
  source : left.source = right.source
  current : left.current = right.current
  bound : left.source.All (regime.bound world)
  pending : List.Forall₂ (regime.rows world) left.pending right.pending
  supply : ∀ row ∈ supply, regime.rows world row row

variable {supply : List Row} (lawful : regime.Lawful)

include lawful

theorem paired_lasting : regime.Lasting (Paired regime supply) :=
  fun _ _ _ _ within held =>
    { held with
      bound := held.bound.imp fun _ => lawful.bound_later within
      pending := held.pending.imp fun _ _ => lawful.rows_later within
      supply := fun row member => lawful.rows_later within (held.supply row member) }

theorem pairs_check {parts : Prop} (call : Call) :
    regime.Pairs (regime.States (Paired regime supply)) world parts (check call) (check call)
      fun _ _ _ => True := by
  apply leads_state
  intro left right held
  rw [held.phase]
  exact leads_phase_check lawful call right.phase

/-- A call that changes both scans. -/
theorem pairs_change_scan {call : Call} {step following : Scan → Scan}
    (keeps : ∀ world left right, Paired regime supply world left right →
      Paired regime supply world (step left) (following right)) :
    regime.Pairs (regime.States (Paired regime supply)) world False
      (do
        check call
        CursorAction.change step)
      (do
        check call
        CursorAction.change following) fun _ _ _ => True :=
  pairs_bind lawful (pairs_check lawful call) fun later _ _ _ _ =>
    leads_change lawful (keeps later)

variable {load : Action Engine (List Row)}
  (loads : ∀ world, (∀ row ∈ supply, regime.rows world row row) →
    regime.Pairs regime.Engines world False load load
      fun later => List.Forall₂ (regime.rows later))

include loads in
theorem pairs_open_pass :
    regime.Pairs (regime.States (Paired regime supply)) world False (openPass regime.first load)
      (openPass regime.second load) fun _ _ _ => True := by
  refine pairs_bind lawful (pairs_check lawful .openPass) ?_
  intro later _ _ _ _
  refine pairs_bind lawful (pairs_reading lawful (paired_lasting lawful)
    (lawful.tap later "scan.open")) ?_
  intro last _ _ _ _
  have loading : regime.Pairs (regime.States (Paired regime supply)) last False
      (CursorAction.inEngine load) (CursorAction.inEngine load)
      fun later => List.Forall₂ (regime.rows later) :=
    fun company left right held => pairs_in_engine (paired_lasting lawful)
      (loads last held.1.supply) company left right held
  refine pairs_bind lawful loading ?_
  intro final rows others _ pending
  exact leads_change lawful fun _ _ held => { held with phase := rfl, pending := pending }

theorem pairs_next :
    regime.Pairs (regime.States (Paired regime supply)) world regime.parts (next regime.first)
      (next regime.second) regime.RowPaired := by
  refine pairs_bind lawful (pairs_check lawful .next) ?_
  intro later _ _ _ _
  refine pairs_bind lawful (leads_on_failure lawful (fun _ _ _ _ => states_journal)
    (fun _ _ => leads_change lawful fun _ _ held => { held with phase := rfl, pending := .nil })
    (leads_steady (pairs_reading lawful (paired_lasting lawful) (lawful.check later)))) ?_
  intro last _ _ _ _
  refine pairs_bind lawful (leads_steady (pairs_reading lawful (paired_lasting lawful)
    (lawful.tap last "scan.next"))) ?_
  intro final _ _ _ _
  apply leads_state
  intro left right held
  have pending := held.pending
  revert pending
  generalize left.pending = rows
  generalize right.pending = others
  rintro (_ | ⟨first, rest⟩)
  · exact pairs_bind lawful (leads_change lawful fun _ _ held => { held with phase := rfl })
      fun _ _ _ _ _ => leads_pure lawful .none
  · exact pairs_bind lawful (leads_change lawful fun _ _ held =>
      { held with phase := rfl, pending := rest })
      fun _ _ _ within _ => leads_pure lawful (.some (lawful.rows_later within first))

theorem pairs_next_bindings :
    regime.Pairs (regime.States (Paired regime supply)) world False nextBindings nextBindings
      regime.BindingsPaired := by
  refine pairs_bind lawful (pairs_check lawful .nextBindings) ?_
  intro later _ _ _ _
  apply leads_state
  intro left right held
  rw [held.source]
  have moved := BindingSource.all_next held.bound
  rw [held.source] at moved
  revert moved
  rcases right.source.next with ⟨bindings?, source⟩
  rintro ⟨own, others⟩
  refine pairs_bind lawful (leads_change lawful fun _ _ held =>
    { held with source := rfl, bound := others, current := by rw [held.current] }) ?_
  exact fun _ _ _ within _ => leads_pure lawful
    ⟨rfl, fun bindings member => lawful.bound_later within (own bindings member)⟩

include loads in
theorem protocol_paired :
    regime.Paired (protocol regime.first load) (protocol regime.second load)
      (Paired regime supply) where
  lasting := paired_lasting lawful
  phase := Paired.phase
  remaining := fun held => held.pending.length_eq
  passes := fun held => congrArg (fun source => source.pending.length) held.source
  openPass := fun _ => pairs_open_pass lawful loads
  next := fun _ => pairs_next lawful
  close := fun _ => pairs_change_scan lawful fun _ _ _ held =>
    { held with phase := rfl, pending := .nil }
  destroy := fun _ => pairs_change_scan lawful fun _ _ _ held =>
    { held with phase := rfl, pending := .nil }
  openBindings := fun _ => pairs_change_scan lawful fun _ _ _ held =>
    { held with
      source := by rw [held.source]
      bound := BindingSource.all_open_all held.bound }
  nextBindings := fun _ => pairs_next_bindings lawful
  closeBindings := fun _ => pairs_change_scan lawful fun _ _ _ held =>
    { held with source := by rw [held.source], bound := BindingSource.all_close held.bound }
  cancelBindings := fun bindings left right held =>
    ⟨{ held.1 with
      source := congrArg (BindingSource.cancel bindings) held.1.source
      bound := BindingSource.all_cancel held.1.bound bindings
      phase := by
        change (if left.1.phase = .destroyed then Phase.destroyed else .closed) =
          if right.1.phase = .destroyed then .destroyed else .closed
        rw [held.1.phase]
      pending := .nil }, held.2⟩

variable {inner outer : Protocol Scan} {result : Type}

theorem pairs_instead_of {parts : Prop} (call : LeafCall) {first second : CursorAction Scan result}
    {gives : regime.World → result → result → Prop}
    (pairs : ∀ world, regime.Pairs (regime.States (Paired regime supply)) world parts first second
      gives) :
    regime.Pairs (regime.States (Paired regime supply)) world parts (insteadOf call first)
      (insteadOf call second) gives := by
  refine pairs_bind lawful (pairs_in_engine (paired_lasting lawful) (pairs_note lawful call)) ?_
  intro later _ _ _ _
  refine pairs_bind lawful
    (pairs_in_engine (paired_lasting lawful) (pairs_inject_fault lawful call)) ?_
  exact fun last _ _ _ _ => pairs last

theorem pairs_after (call : LeafCall) {first second : CursorAction Scan Unit}
    (pairs : ∀ world, regime.Pairs (regime.States (Paired regime supply)) world False first second
      fun _ _ _ => True) :
    regime.Pairs (regime.States (Paired regime supply)) world False (after call first)
      (after call second) fun _ _ _ => True := by
  refine pairs_bind lawful (pairs_in_engine (paired_lasting lawful) (pairs_note lawful call)) ?_
  intro later _ _ _ _
  exact pairs_bind lawful (pairs later) fun _ _ _ _ _ =>
    pairs_in_engine (paired_lasting lawful) (pairs_inject_fault lawful call)

theorem probed_paired (paired : regime.Paired inner outer (Paired regime supply)) :
    regime.Paired (probed inner) (probed outer) (Paired regime supply) where
  lasting := paired_lasting lawful
  phase := paired.phase
  remaining := paired.remaining
  passes := paired.passes
  openPass := fun _ => pairs_instead_of lawful .openPass paired.openPass
  next := fun _ => pairs_instead_of lawful .next paired.next
  close := fun _ => pairs_after lawful .close paired.close
  destroy := fun _ => pairs_after lawful .destroy paired.destroy
  openBindings := fun _ => pairs_instead_of lawful .openBindings paired.openBindings
  nextBindings := fun _ => pairs_instead_of lawful .nextBindings paired.nextBindings
  closeBindings := fun _ => pairs_instead_of lawful .closeBindings paired.closeBindings
  cancelBindings := fun bindings left right held =>
    have reached := paired.cancelBindings bindings left right held
    ⟨reached.1,
      fun together => congrArg (Engine.noted · .cancelBindings) (reached.2.1 together),
      reached.2.2.1, lawful.rest_noted .cancelBindings reached.2.2.2⟩

end Scan

namespace Regime

/-- What a regime must know of each operator of a plan: predicates have one value in both runs,
rows can be projected and groups can be made rows of. -/
inductive Admits (regime : Regime) : Plan → Prop
  | values {slice : Nat} {type : RowType} {rows : List Row} :
      Admits regime (.values slice type rows)
  | table {name : String} {type : RowType}
      (stored : ∀ world engine table, regime.rest world engine →
        engine.store.table name = .ok table → ∀ row ∈ table.rows, regime.rows world row row) :
      Admits regime (.table name type)
  | filter {input : Plan} {predicate : Expr} (below : Admits regime input)
      (evaluates : ∀ world left right bindings, regime.rows world left right →
        left.type.same input.rowType = true → regime.bound world bindings →
        regime.Reads world regime.parts (predicate.eval (left.scope regime.first bindings))
          (predicate.eval (right.scope regime.second bindings)) Eq) :
      Admits regime (.filter input predicate)
  | project {input : Plan} {type : RowType} {columns : List Expr} (below : Admits regime input)
      (projects : ∀ world left right bindings, regime.rows world left right →
        left.type.same input.rowType = true → regime.bound world bindings →
        regime.Pairs regime.Engines world False
          (Engine.newProjection type left regime.first bindings columns)
          (Engine.newProjection type right regime.second bindings columns) regime.rows) :
      Admits regime (.project input type columns)
  | aggregate {input : Plan} {type : RowType} {keys : Nat} {aggregates : List Aggregate}
      (below : Admits regime input) (keyed : List Datum → Prop) (fed : List Accumulator → Prop)
      (groups : Grouping.Groups regime ⟨input.rowType, type, keys⟩ keyed fed)
      (starts : ∀ accumulators, Plan.startAccumulators aggregates = .ok accumulators →
        fed accumulators) :
      Admits regime (.aggregate input type keys aggregates)
  | limit {input : Plan} {offset : Nat} {limit? : Option Nat} (below : Admits regime input) :
      Admits regime (.limit input offset limit?)

/-- Answers of one sort about rows or bindings that stand for each other. -/
def AnswersPaired (regime : Regime) (world : regime.World) : CursorAnswer → CursorAnswer → Prop
  | .done, .done => True
  | .row left, .row right => regime.RowPaired world left right
  | .bindings left, .bindings right => regime.BindingsPaired world left right
  | _, _ => False

end Regime

theorem Store.check_scan_error_plain {store : Store} {name : String} {declared : RowType}
    {error : QueryError} (refused : store.checkScan name declared = .error error) :
    (Interrupt.failed error).isCast = false := by
  unfold Store.checkScan Store.table at refused
  cases found : store.tables.get? name with
  | none =>
      rw [found] at refused
      cases refused
      rfl
  | some table =>
      rw [found] at refused
      change (if table.type.same declared then Except.ok () else .error _) = _ at refused
      split at refused <;> cases refused
      rfl

namespace Plan

/-- The rows that a plan brings along. -/
def supply : Plan → List Row
  | values _ _ rows => rows
  | table _ _ => []
  | filter input _ => input.supply
  | project input _ _ => input.supply
  | aggregate input _ _ _ => input.supply
  | limit input _ _ => input.supply

theorem start_accumulators_error_plain {aggregates : List Aggregate} {error : QueryError}
    (failed : startAccumulators aggregates = .error error) :
    (Interrupt.failed error).isCast = false := by
  have single (aggregate : Aggregate) {error : QueryError}
      (failed : aggregate.start = .error error) : (Interrupt.failed error).isCast = false := by
    unfold Aggregate.start at failed
    split at failed <;> cases failed <;> rfl
  induction aggregates with
  | nil => cases failed
  | cons first rest induction =>
      unfold startAccumulators at failed induction
      rw [List.mapM_cons] at failed
      cases started : first.start with
      | error other =>
          rw [started] at failed
          cases failed
          exact single first started
      | ok accumulator =>
          rw [started] at failed
          cases others : rest.mapM Aggregate.start with
          | error other =>
              rw [others] at failed
              cases failed
              exact induction others
          | ok accumulators =>
              rw [others] at failed
              cases failed

/-- No cursor is refused because of a value that does not convert. -/
theorem start_error_plain {store : Store} {source : BindingSource} {plan : Plan}
    {error : QueryError} (failed : plan.start store source = .error error) :
    (Interrupt.failed error).isCast = false := by
  induction plan with
  | values slice type rows => cases failed
  | table name type =>
      unfold start at failed
      split at failed <;> cases failed
      next refused => exact Store.check_scan_error_plain refused
  | filter input predicate induction =>
      unfold start at failed
      split at failed <;> cases failed
      next refused => exact induction refused
  | project input type columns induction =>
      unfold start at failed
      split at failed <;> cases failed
      next refused => exact induction refused
  | aggregate input type keys aggregates induction =>
      unfold start at failed
      split at failed <;> cases failed
      next refused => exact start_accumulators_error_plain refused
      next refused => exact induction refused
  | limit input offset limit? induction =>
      unfold start at failed
      split at failed <;> cases failed
      next refused => exact induction refused

/-- The calls of two runs of one plan keep their cursor trees related, from the start on: by
induction on the plan. -/
theorem paired (lawful : regime.Lawful) {plan : Plan} (admits : regime.Admits plan) :
    ∃ related, regime.Paired (plan.protocol regime.first) (plan.protocol regime.second) related ∧
      ∀ world store source cursor, plan.start store source = .ok cursor →
        (∀ row ∈ plan.supply, regime.rows world row row) → source.All (regime.bound world) →
        related world cursor cursor := by
  induction admits with
  | @values slice type rows =>
      refine ⟨Scan.Paired regime rows, Scan.protocol_paired lawful fun world supplied =>
        leads_pure lawful (List.forall₂_same.mpr supplied), ?_⟩
      rintro world store source _ ⟨⟩ supplied bound
      exact ⟨rfl, rfl, rfl, bound, .nil, supplied⟩
  | @table name type stored =>
      refine ⟨Scan.Paired regime [], Scan.probed_paired lawful (Scan.protocol_paired lawful
        fun world _ => pairs_load_table lawful stored), ?_⟩
      intro world store source cursor started supplied bound
      obtain ⟨_, rfl⟩ := table_started started
      exact ⟨rfl, rfl, rfl, bound, .nil, supplied⟩
  | @filter input predicate _ evaluates induction =>
      obtain ⟨related, below, starts⟩ := induction
      refine ⟨_, Filter.protocol_paired lawful below evaluates, ?_⟩
      intro world store source cursor started supplied bound
      obtain ⟨rest, restStarted, rfl⟩ := filter_started started
      exact ⟨rfl, rfl, lawful.bound_empty world, rfl,
        starts world store source rest restStarted supplied bound⟩
  | @project input type columns _ projects induction =>
      obtain ⟨related, below, starts⟩ := induction
      refine ⟨_, Project.protocol_paired lawful below projects, ?_⟩
      intro world store source cursor started supplied bound
      obtain ⟨rest, restStarted, rfl⟩ := project_started started
      exact ⟨rfl, rfl, lawful.bound_empty world, rfl,
        starts world store source rest restStarted supplied bound⟩
  | @aggregate input type keys aggregates _ keyed fed groups feeds induction =>
      obtain ⟨related, below, starts⟩ := induction
      refine ⟨_, Grouping.protocol_paired lawful groups below, ?_⟩
      intro world store source cursor started supplied bound
      obtain ⟨accumulators, rest, ready, restStarted, rfl⟩ := aggregate_started started
      exact ⟨rfl, rfl, lawful.bound_empty world,
        ⟨⟨rfl, rfl, rfl, .none, fun _ => (Option.not_mem_none _).elim, feeds accumulators ready⟩,
          Grouping.rests_idle rfl⟩,
        starts world store source rest restStarted supplied bound⟩
  | @limit input offset limit? _ induction =>
      obtain ⟨related, below, starts⟩ := induction
      refine ⟨_, Limit.protocol_paired lawful below offset limit?, ?_⟩
      intro world store source cursor started supplied bound
      obtain ⟨rest, restStarted, rfl⟩ := limit_started started
      exact ⟨rfl, rfl, lawful.bound_empty world, rfl,
        starts world store source rest restStarted supplied bound⟩

end Plan

section Runs

variable {cursor result : Type} {related : regime.World → cursor → cursor → Prop}
  {first second : Protocol cursor} (lawful : regime.Lawful)
  (paired : regime.Paired first second related)

include lawful paired

/-- Every call is answered alike. -/
theorem pairs_perform (call : CursorCall) :
    regime.Pairs (regime.States related) world regime.parts (first.perform call)
      (second.perform call) regime.AnswersPaired := by
  have done {step acting : CursorAction cursor Unit}
      (pairs : regime.Pairs (regime.States related) world False step acting fun _ _ _ => True) :
      regime.Pairs (regime.States related) world regime.parts
        (do
          step
          pure CursorAnswer.done)
        (do
          acting
          pure CursorAnswer.done) regime.AnswersPaired :=
    pairs_bind lawful (leads_steady pairs) fun _ _ _ _ _ => leads_pure lawful trivial
  cases call with
  | openPass => exact done (paired.openPass world)
  | next => exact pairs_bind lawful (paired.next world) fun _ _ _ _ rows => leads_pure lawful rows
  | close => exact done (paired.close world)
  | destroy => exact done (paired.destroy world)
  | openBindings => exact done (paired.openBindings world)
  | nextBindings =>
      exact pairs_bind lawful (leads_steady (paired.nextBindings world)) fun _ _ _ _ bindings =>
        leads_pure lawful bindings
  | closeBindings => exact done (paired.closeBindings world)
  | cancelBindings bindings =>
      refine done fun company left right held => ?_
      have ends := paired.cancelBindings bindings left right held
      cases company with
      | together => exact .inl ⟨world, lawful.refl world, ends, trivial⟩
      | alone => exact ⟨(), _, world, lawful.refl world, ends, trivial⟩

/-- Both runs read the same values of their rows. -/
theorem pairs_drain_within (bound : Nat) :
    regime.Pairs (regime.States related) world regime.parts (first.drainWithin bound)
      (second.drainWithin bound) fun _ => Eq := by
  induction bound generalizing world with
  | zero => exact leads_pure lawful rfl
  | succ bound induction =>
      refine pairs_bind lawful (paired.next world) ?_
      intro later row? partner? _ rows
      cases rows with
      | none => exact leads_pure lawful rfl
      | some rows =>
          refine pairs_bind lawful
            (pairs_reading lawful paired.lasting (reads_all lawful rows)) ?_
          rintro last values _ _ rfl
          refine pairs_bind lawful induction ?_
          rintro final others _ _ rfl
          exact leads_pure lawful rfl

theorem pairs_drain :
    regime.Pairs (regime.States related) world regime.parts first.drain second.drain
      fun _ => Eq := by
  apply leads_state
  intro left right held
  rw [paired.remaining held]
  exact pairs_drain_within lawful paired _

variable {pass passing : Bindings → CursorAction cursor result}
  (passes : ∀ world bindings, regime.Pairs (regime.States related) world regime.parts
    (pass bindings) (passing bindings) fun _ => Eq)

include passes in
theorem pairs_passes_within (bound : Nat) :
    regime.Pairs (regime.States related) world regime.parts (first.passesWithin pass bound)
      (second.passesWithin passing bound) fun _ => Eq := by
  induction bound generalizing world with
  | zero => exact leads_pure lawful rfl
  | succ bound induction =>
      refine pairs_bind lawful (leads_steady (paired.nextBindings world)) ?_
      rintro later bindings? _ _ ⟨rfl, _⟩
      cases bindings? with
      | none => exact leads_pure lawful rfl
      | some bindings =>
          refine pairs_bind lawful (leads_steady (paired.openPass later)) ?_
          intro last _ _ _ _
          refine pairs_bind lawful (passes last bindings) ?_
          rintro final rows _ _ rfl
          refine pairs_bind lawful induction ?_
          rintro ended others _ _ rfl
          exact leads_pure lawful rfl

include passes in
theorem pairs_run_passes :
    regime.Pairs (regime.States related) world regime.parts (first.runPasses pass)
      (second.runPasses passing) fun _ => Eq := by
  refine pairs_bind lawful (leads_steady (paired.openBindings world)) ?_
  intro later _ _ _ _
  apply leads_state
  intro left right held
  rw [paired.passes held]
  refine pairs_bind lawful (pairs_passes_within lawful paired passes _) ?_
  rintro last results _ _ rfl
  refine pairs_bind lawful (leads_steady (paired.closeBindings last)) ?_
  exact fun _ _ _ _ _ => leads_pure lawful rfl

omit lawful paired in
/-- Destroying after a run is cleaning up where it fails and a last call where it does not. -/
theorem then_destroy_eq (protocol : Protocol cursor) (run : CursorAction cursor result) :
    protocol.thenDestroy run =
      onFailure protocol.destroy run >>= fun value => protocol.destroy >>= fun _ => pure value := by
  funext start
  change (protocol.thenDestroy run).run start =
    (onFailure protocol.destroy run >>= fun value =>
      protocol.destroy >>= fun _ => pure value : CursorAction cursor result).run start
  unfold Protocol.thenDestroy
  rw [run_bind, run_attempt, run_bind, run_on_failure]
  rcases run.run start with ⟨⟨error | _⟩ | value, after⟩ <;> dsimp only
  · rw [run_bind, run_attempt]
    rcases protocol.destroy.run after with ⟨⟨_ | _⟩ | _, last⟩ <;> rfl
  · rw [run_bind, run_bind, run_attempt]
    rcases protocol.destroy.run after with ⟨⟨_ | _⟩ | _, last⟩ <;> rfl

/-- The second run may have stopped, and then it fails after all. -/
theorem pairs_then_destroy {run running : CursorAction cursor result}
    (pairs : regime.Pairs (regime.States related) world regime.parts run running fun _ => Eq) :
    regime.Pairs (regime.States related) world regime.parts (first.thenDestroy run)
      (second.thenDestroy running) fun _ => Eq := by
  rw [then_destroy_eq, then_destroy_eq]
  refine pairs_bind lawful (leads_on_failure lawful (fun _ _ _ _ => states_journal)
    (fun later _ => paired.destroy later) pairs) ?_
  rintro later value _ _ rfl
  exact pairs_bind lawful (leads_steady (paired.destroy later)) fun _ _ _ _ _ =>
    leads_pure lawful rfl

omit lawful paired in
/-- Cursors that are dropped leave their engines. -/
theorem pairs_run_from {initial : cursor} {action acting : CursorAction cursor result}
    {gives : regime.World → result → result → Prop} (held : related world initial initial)
    (pairs : regime.Pairs (regime.States related) world regime.parts action acting gives) :
    regime.Pairs regime.Engines world regime.parts (CursorAction.runFrom initial action)
      (CursorAction.runFrom initial acting) gives := by
  have dropped (action : CursorAction cursor result) : CursorAction.runFrom initial action =
      action.onPart (fun engine => (initial, engine)) fun pair _ => pair.2 := rfl
  intro company left right engines
  rw [dropped, dropped]
  apply tandem_on_part
  refine tandem_weaken (pairs company (initial, left) (initial, right) ⟨held, engines⟩) ?_ ?_
  · rintro later value partner after last ⟨reached, within, states, given⟩
    exact ⟨reached, within, states.2, given⟩
  · rintro later interrupt after last ⟨reached, within, states | outside⟩
    · exact ⟨reached, within, .inl states.2⟩
    · exact ⟨reached, within, .inr outside⟩

end Runs

namespace Plan

variable {plan : Plan} (lawful : regime.Lawful) (admits : regime.Admits plan)
  (supplied : ∀ row ∈ plan.supply, regime.rows world row row)

include lawful admits supplied

/-- Two runs of a plan, each of which reads all rows of its passes. -/
theorem pairs_run {source : BindingSource} (bound : source.All (regime.bound world)) :
    regime.Pairs regime.Engines world regime.parts
      (plan.run regime.first source fun _ => (plan.protocol regime.first).drain)
      (plan.run regime.second source fun _ => (plan.protocol regime.second).drain)
      fun _ => Eq := by
  obtain ⟨related, paired, starts⟩ := Plan.paired lawful admits
  apply pairs_look
  intro engine _
  cases started : plan.start engine.store source with
  | error error => exact leads_fail lawful (start_error_plain started)
  | ok cursor =>
      exact pairs_run_from (starts world engine.store source cursor started supplied bound)
        (pairs_then_destroy lawful paired (pairs_run_passes lawful paired fun _ _ =>
          pairs_drain lawful paired))

theorem pairs_execute_each {all : List Bindings} (bound : ∀ bindings ∈ all,
    regime.bound world bindings) :
    regime.Pairs regime.Engines world regime.parts (plan.executeEach regime.first all)
      (plan.executeEach regime.second all) fun _ => Eq :=
  pairs_run lawful admits supplied ⟨bound, nofun⟩

theorem pairs_execute {bindings : Bindings} (bound : regime.bound world bindings) :
    regime.Pairs regime.Engines world regime.parts (plan.execute regime.first bindings)
      (plan.execute regime.second bindings) fun _ => Eq := by
  have one : (BindingSource.ofOne bindings).All (regime.bound world) := bound
  refine pairs_bind lawful (pairs_run lawful admits supplied one) ?_
  rintro later passes _ _ rfl
  exact leads_pure lawful rfl

end Plan

end QueryExec
