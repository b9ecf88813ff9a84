import QueryExec.Cursor.Tree
import QueryExec.Proofs.Beside.Grouping
import QueryExec.Proofs.Census.Trees
import QueryExec.Proofs.Cursor.Calls
import QueryExec.Proofs.Tandem.Plans

/-!
Cursor trees beside each other. Two cursors of one plan that start alike stay related, call by call,
whatever the calls are and however they end.
-/

namespace QueryExec

open QueryExec.Action QueryExec.Correspondence

variable {World : Type} [Preorder World] {corr : Correspondence World} {world : World}
  {context : Context}

namespace Scan

/-- Two scans at one place of their sources, with rows to give that stand for each other. -/
structure Beside (corr : Correspondence World) (supply : List Row) (world : World)
    (left right : Scan) : Prop where
  phase : left.phase = right.phase
  source : left.source = right.source
  current : left.current = right.current
  under : corr.bound world left.current
  bound : left.source.All (corr.bound world)
  pending : List.Forall₂ (corr.rows world) left.pending right.pending
  supply : ∀ row ∈ supply, corr.rows world row row

variable {supply : List Row}

omit [Preorder World] in
theorem abandoned_beside {left right : Scan} (held : Beside corr supply world left right) :
    Beside corr supply world left.abandon right.abandon :=
  { held with phase := rfl, pending := .nil }

omit [Preorder World] in
theorem destroyed_beside {left right : Scan} (held : Beside corr supply world left right) :
    Beside corr supply world { left with pending := [], phase := .destroyed }
      { right with pending := [], phase := .destroyed } :=
  { held with phase := rfl, pending := .nil }

theorem correspond_check (call : Call) :
    Correspond (corr.States (Beside corr supply)) world (check call) (check call)
      fun _ _ _ => True := by
  apply correspond_state
  intro left right held
  rw [held.phase]
  exact correspond_phase_check call right.phase

/-- A call that changes both scans alike. -/
theorem correspond_changed {call : Call} {step : Scan → Scan}
    (keeps : ∀ world left right, Beside corr supply world left right →
      Beside corr supply world (step left) (step right)) :
    Correspond (corr.States (Beside corr supply)) world
      (do
        check call
        CursorAction.change step)
      (do
        check call
        CursorAction.change step) fun _ _ _ => True :=
  correspond_bind (correspond_check call) fun later _ _ _ _ => correspond_change (keeps later)

variable (lawful : corr.Lawful context)

include lawful

theorem beside_enduring : Enduring (Beside corr supply) :=
  fun _ _ _ _ grown held =>
    { held with
      under := lawful.bound_later grown held.under
      bound := held.bound.imp fun _ => lawful.bound_later grown
      pending := held.pending.imp fun _ _ => lawful.rows_later _ _ _ _ grown
      supply := fun row member => lawful.rows_later _ _ _ _ grown (held.supply row member) }

theorem correspond_next :
    Correspond (corr.States (Beside corr supply)) world (next context) (next context)
      corr.RowsAlike := by
  refine correspond_bind (correspond_check .next) fun later _ _ _ _ => ?_
  refine correspond_bind (correspond_on_failure (fun _ _ => correspond_change fun _ _ held =>
      { held with phase := rfl, pending := .nil })
    (correspond_in_engine (beside_enduring lawful) (lawful.check later))) fun last _ _ _ _ => ?_
  refine correspond_bind (correspond_in_engine (beside_enduring lawful)
    (lawful.tap last "scan.next")) fun final _ _ _ _ => ?_
  apply correspond_state
  intro left right held
  have pending := held.pending
  revert pending
  generalize left.pending = rows
  generalize right.pending = others
  rintro (_ | ⟨first, rest⟩)
  · exact correspond_bind (correspond_change fun _ _ held => { held with phase := rfl })
      fun _ _ _ _ _ => correspond_pure .none
  · exact correspond_bind (correspond_change fun _ _ held =>
      { held with phase := rfl, pending := rest }) fun _ _ _ grown _ =>
        correspond_pure (.some (lawful.rows_later _ _ _ _ grown first))

theorem correspond_next_bindings :
    Correspond (corr.States (Beside corr supply)) world nextBindings nextBindings
      corr.BindingsAlike := by
  refine correspond_bind (correspond_check .nextBindings) fun later _ _ _ _ => ?_
  apply correspond_state
  intro left right held
  rw [held.source]
  have moved := BindingSource.all_next held.bound
  rw [held.source] at moved
  revert moved
  rcases right.source.next with ⟨bindings?, source⟩
  rintro ⟨own, others⟩
  refine correspond_bind (correspond_change fun left right held =>
    { held with
      source := rfl
      bound := others
      current := by rw [held.current]
      under := by
        cases bindings? with
        | none => exact held.under
        | some bindings => exact own bindings rfl }) ?_
  exact fun _ _ _ grown _ => correspond_pure
    ⟨rfl, fun bindings member => lawful.bound_later grown (own bindings member)⟩

/-- Two scans load rows that stand for each other. -/
def LoadsAlike (corr : Correspondence World) (supply : List Row)
    (load : Action Engine (List Row)) : Prop :=
  ∀ world, (∀ row ∈ supply, corr.rows world row row) →
    Correspond corr.engines world load load fun later => List.Forall₂ (corr.rows later)

theorem protocols_beside {load : Action Engine (List Row)}
    (loads : LoadsAlike corr supply load) :
    corr.Protocols (protocol context load) (protocol context load) (Beside corr supply) where
  enduring := beside_enduring lawful
  phase := Beside.phase
  remaining := fun held => held.pending.length_eq
  passes := fun held => congrArg (fun source => source.pending.length) held.source
  openPass := by
    intro world
    refine correspond_bind (correspond_check .openPass) fun later _ _ _ _ => ?_
    refine correspond_bind (correspond_in_engine (beside_enduring lawful)
      (lawful.tap later "scan.open")) fun last _ _ _ _ => ?_
    have loading : Correspond (corr.States (Beside corr supply)) last
        (CursorAction.inEngine load) (CursorAction.inEngine load)
        fun later => List.Forall₂ (corr.rows later) :=
      fun left right held => correspond_in_engine (beside_enduring lawful)
        (loads last held.1.supply) left right held
    refine correspond_bind loading fun final rows others _ pending => ?_
    exact correspond_change fun _ _ held => { held with phase := rfl, pending := pending }
  next := fun _ => correspond_next lawful
  close := fun _ => correspond_changed fun _ _ _ => abandoned_beside
  destroy := fun _ => correspond_changed fun _ _ _ => destroyed_beside
  openBindings := fun _ => correspond_changed fun _ _ _ held =>
    { held with
      source := by rw [held.source]
      bound := BindingSource.all_open_all held.bound }
  nextBindings := fun _ => correspond_next_bindings lawful
  closeBindings := fun _ => correspond_changed fun _ _ _ held =>
    { held with source := by rw [held.source], bound := BindingSource.all_close held.bound }
  cancelBindings := fun bindings left right held =>
    ⟨{ held.1 with
      source := congrArg (BindingSource.cancel bindings) held.1.source
      bound := BindingSource.all_cancel held.1.bound bindings
      phase := by
        change (if left.1.phase = .destroyed then Phase.destroyed else .closed) =
          if right.1.phase = .destroyed then .destroyed else .closed
        rw [held.1.phase]
      pending := .nil }, held.2⟩

section Probed

omit lawful [Preorder World] in
theorem run_in_engine {result : Type} (action : Action Engine result) (pair : Scan × Engine) :
    (CursorAction.inEngine action).run pair =
      ((action.run pair.2).1, pair.1, (action.run pair.2).2) :=
  rfl

/-- Faults that may come after both engines have logged the call. -/
theorem correspond_fault (call : LeafCall) {left right : Scan × Engine}
    (held : corr.States (Beside corr supply) world left right) :
    EndLater (corr.States (Beside corr supply)) world (fun _ _ _ => True)
      ((CursorAction.inEngine (Engine.injectFault call)).run (left.1, left.2.noted call))
      ((CursorAction.inEngine (Engine.injectFault call)).run (right.1, right.2.noted call)) := by
  rw [run_in_engine, run_in_engine]
  rcases end_alike_cases (lawful.fault call held.2) with
    ⟨_, _, after, last, ran, went, later, grown, engines, _⟩ |
    ⟨interrupt, after, last, ran, went, later, grown, engines⟩
  · rw [ran, went]
    exact ⟨later, grown, ⟨beside_enduring lawful _ _ _ _ grown held.1, engines⟩, trivial⟩
  · rw [ran, went]
    exact ⟨rfl, later, grown, beside_enduring lawful _ _ _ _ grown held.1, engines⟩

theorem correspond_instead_of {result : Type} {first second : CursorAction Scan result}
    {gives : World → result → result → Prop} (call : LeafCall)
    (correspond : ∀ world, Correspond (corr.States (Beside corr supply)) world first second gives) :
    Correspond (corr.States (Beside corr supply)) world (insteadOf call first)
      (insteadOf call second) gives := by
  have faults : Correspond (corr.States (Beside corr supply)) world
      (CursorAction.inEngine (Engine.note call) >>= fun _ =>
        CursorAction.inEngine (Engine.injectFault call))
      (CursorAction.inEngine (Engine.note call) >>= fun _ =>
        CursorAction.inEngine (Engine.injectFault call)) fun _ _ _ => True :=
    fun _ _ held => correspond_fault lawful call held
  unfold insteadOf
  rw [← bind_assoc, ← bind_assoc]
  exact correspond_bind faults fun later _ _ _ _ => correspond later

/-- A call that changes both scans alike, and whose fault comes after it. -/
theorem correspond_after {call : Call} (faulty : LeafCall) {step : Scan → Scan}
    (keeps : ∀ world left right, Beside corr supply world left right →
      Beside corr supply world (step left) (step right)) :
    Correspond (corr.States (Beside corr supply)) world
      (after faulty do
        check call
        CursorAction.change step)
      (after faulty do
        check call
        CursorAction.change step) fun _ _ _ => True := by
  have run (pair : Scan × Engine) : (after faulty do
        check call
        CursorAction.change step).run pair =
      if call.legalIn pair.1.phase then
        (CursorAction.inEngine (Engine.injectFault faulty)).run
          (step pair.1, pair.2.noted faulty)
      else (.error (.failed (.lifecycle call pair.1.phase)), pair.1, pair.2.noted faulty) := by
    change ((call.check pair.1.phase >>= fun _ => CursorAction.change step) >>= fun _ =>
      CursorAction.inEngine (Engine.injectFault faulty)).run (pair.1, pair.2.noted faulty) = _
    unfold Call.check
    split <;> rfl
  intro left right held
  rw [run, run, held.1.phase]
  split
  · have moved : corr.States (Beside corr supply) world (step left.1, left.2)
        (step right.1, right.2) := ⟨keeps _ _ _ held.1, held.2⟩
    exact correspond_fault lawful faulty moved
  · exact ⟨rfl, world, le_rfl, held.1, lawful.noted faulty held.2⟩

theorem probed_beside {load : Action Engine (List Row)}
    (protocols : corr.Protocols (protocol context load) (protocol context load)
      (Beside corr supply)) :
    corr.Protocols (probed (protocol context load)) (probed (protocol context load))
      (Beside corr supply) where
  enduring := protocols.enduring
  phase := protocols.phase
  remaining := protocols.remaining
  passes := protocols.passes
  openPass := fun _ => correspond_instead_of lawful .openPass protocols.openPass
  next := fun _ => correspond_instead_of lawful .next protocols.next
  close := fun _ => correspond_after lawful .close fun _ _ _ => abandoned_beside
  destroy := fun _ => correspond_after lawful .destroy fun _ _ _ => destroyed_beside
  openBindings := fun _ => correspond_instead_of lawful .openBindings protocols.openBindings
  nextBindings := fun _ => correspond_instead_of lawful .nextBindings protocols.nextBindings
  closeBindings := fun _ => correspond_instead_of lawful .closeBindings protocols.closeBindings
  cancelBindings := fun bindings left right held =>
    have reached := protocols.cancelBindings bindings left right held
    ⟨reached.1, lawful.noted .cancelBindings reached.2⟩

end Probed

end Scan

namespace Plan

/-- Two cursors over a plan at one place. -/
def Beside (corr : Correspondence World) : (plan : Plan) → World → plan.Cursor → plan.Cursor → Prop
  | values _ _ rows => Scan.Beside corr rows
  | table _ _ => Scan.Beside corr []
  | filter input _ => Node.Beside corr (KeptSame Unit) (input.Beside corr)
  | project input _ _ => Node.Beside corr (KeptSame Unit) (input.Beside corr)
  | aggregate input _ _ _ => Node.Beside corr (Grouping.Beside corr) (input.Beside corr)
  | limit input _ _ => Node.Beside corr (KeptSame Limit.Progress) (input.Beside corr)

variable (lawful : corr.Lawful context)

include lawful

omit lawful in
theorem loads_supply_alike (rows : List Row) : Scan.LoadsAlike corr rows (pure rows) := by
  intro world supplied
  exact correspond_pure (List.forall₂_same.mpr supplied)

theorem loads_table_alike (name : String) : Scan.LoadsAlike corr [] (Scan.loadTable name) := by
  intro world _
  refine correspond_then (fun later table other =>
    List.Forall₂ (corr.rows later) table.rows other.rows) (correspond_get ?_)
    fun _ _ _ _ rows => correspond_pure rows
  intro left right engines
  obtain ⟨same, stored⟩ := lawful.stored engines name
  rw [← same]
  cases found : left.store.table name with
  | error error => exact correspond_fail error
  | ok table => exact correspond_pure (List.forall₂_same.mpr (stored table found))

/-- The calls on two cursors of a plan correspond: by induction on the plan. -/
theorem protocols_beside (plan : Plan) :
    corr.Protocols (plan.protocol context) (plan.protocol context) (plan.Beside corr) := by
  induction plan with
  | values slice type rows =>
      exact Scan.protocols_beside lawful (loads_supply_alike rows)
  | table name type =>
      exact Scan.probed_beside lawful (Scan.protocols_beside lawful (loads_table_alike lawful name))
  | filter input predicate induction =>
      exact Filter.protocols_beside lawful induction input.rowType predicate
  | project input type columns induction =>
      exact Project.protocols_beside lawful induction input.rowType type columns
  | aggregate input type keys aggregates induction =>
      exact Grouping.protocols_beside lawful induction
  | limit input offset limit? induction =>
      exact Limit.protocols_beside lawful induction offset limit?

/-- A new cursor is beside itself. -/
theorem start_beside {plan : Plan} {store : Store} {source : BindingSource} {cursor : plan.Cursor}
    (started : plan.start store source = .ok cursor)
    (supplied : ∀ row ∈ plan.supply, corr.rows world row row)
    (bound : source.All (corr.bound world)) : plan.Beside corr world cursor cursor := by
  induction started using started_induction with
  | values slice type rows =>
      exact ⟨rfl, rfl, rfl, lawful.bound_empty world, bound, .nil, supplied⟩
  | table name type => exact ⟨rfl, rfl, rfl, lawful.bound_empty world, bound, .nil, nofun⟩
  | filter input predicate rest _ _ induction =>
      exact ⟨rfl, rfl, lawful.bound_empty world, rfl, induction supplied⟩
  | project input type columns rest _ _ induction =>
      exact ⟨rfl, rfl, lawful.bound_empty world, rfl, induction supplied⟩
  | aggregate input type keys aggregates accumulators rest _ _ _ induction =>
      exact ⟨rfl, rfl, lawful.bound_empty world, ⟨rfl, rfl, rfl, .none⟩, induction supplied⟩
  | limit input offset limit? rest _ _ induction =>
      exact ⟨rfl, rfl, lawful.bound_empty world, rfl, induction supplied⟩

end Plan

namespace Correspondence

/-- Answers of one sort about rows that stand for each other or about the same bindings. -/
def AnswersAlike (corr : Correspondence World) (world : World) : CursorAnswer → CursorAnswer → Prop
  | .done, .done => True
  | .row left, .row right => corr.RowsAlike world left right
  | .bindings left, .bindings right => corr.BindingsAlike world left right
  | _, _ => False

variable {mine yours : Type} {related : World → mine → yours → Prop} {first : Protocol mine}
  {second : Protocol yours}

/-- Every call is answered alike. -/
theorem Protocols.perform (protocols : corr.Protocols first second related) (call : CursorCall) :
    Correspond (corr.States related) world (first.perform call) (second.perform call)
      corr.AnswersAlike := by
  have done {begun : CursorAction mine Unit} {started : CursorAction yours Unit}
      (correspond : Correspond (corr.States related) world begun started fun _ _ _ => True) :
      Correspond (corr.States related) world
        (do
          begun
          pure CursorAnswer.done)
        (do
          started
          pure CursorAnswer.done) corr.AnswersAlike :=
    correspond_bind correspond fun _ _ _ _ _ => correspond_pure trivial
  cases call with
  | openPass => exact done (protocols.openPass world)
  | next =>
      exact correspond_bind (protocols.next world) fun _ _ _ _ rows => correspond_pure rows
  | close => exact done (protocols.close world)
  | destroy => exact done (protocols.destroy world)
  | openBindings => exact done (protocols.openBindings world)
  | nextBindings =>
      exact correspond_bind (protocols.nextBindings world) fun _ _ _ _ same => correspond_pure same
  | closeBindings => exact done (protocols.closeBindings world)
  | cancelBindings bindings =>
      exact done (correspond_modify (protocols.cancelBindings bindings))

end Correspondence

end QueryExec
