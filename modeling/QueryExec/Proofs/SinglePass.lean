import QueryExec.Proofs.Execution

/-!
Runs under a single binding. Such a run is one pass of a new cursor. The calls around the pass write
nothing in the store, and they fail only where a call on the storage boundary does.
-/

namespace QueryExec

open QueryExec.Action

/-- The calls of cursors on the storage boundary. -/
def cursorCalls : List LeafCall :=
  [.openPass, .next, .close, .destroy, .openBindings, .nextBindings, .closeBindings]

namespace Plan

section Starting

variable {result : Type} {context : Context} {plan : Plan} {engine : Engine}
  {source : BindingSource}

theorem run_started {cursor : plan.Cursor} {pass : Bindings → CursorAction plan.Cursor result}
    (started : plan.start engine.store source = .ok cursor) :
    (plan.run context source pass).run engine =
      (CursorAction.runFrom cursor ((plan.protocol context).thenDestroy
        ((plan.protocol context).runPasses pass))).run engine := by
  unfold run
  rw [run_bind]
  change ((Action.ofExcept (plan.start engine.store source) >>= _ :
    Action Engine (List result)).run engine) = _
  rw [started]
  rfl

theorem run_refused {error : QueryError} {pass : Bindings → CursorAction plan.Cursor result}
    (refused : plan.start engine.store source = .error error) :
    (plan.run context source pass).run engine = (.error (.failed error), engine) := by
  unfold run
  rw [run_bind]
  change ((Action.ofExcept (plan.start engine.store source) >>= _ :
    Action Engine (List result)).run engine) = _
  rw [refused]
  rfl

theorem started_of_admitted {store : Store} (admitted : plan.admitted store = .ok ())
    (source : BindingSource) : ∃ cursor, plan.start store source = .ok cursor := by
  have same := start_admitted store source plan
  rw [admitted] at same
  cases started : plan.start store source with
  | ok cursor => exact ⟨cursor, rfl⟩
  | error error =>
      rw [started] at same
      cases same

end Starting

section Endings

variable {context : Context} {faulty : LeafCall → Prop} {plan : Plan} {bindings : Bindings}
  {source : BindingSource} {pair : plan.Cursor × Engine} {holds : Engine → Prop}
  (noted : ∀ call engine, holds engine → holds (Engine.noted engine call))

include noted

theorem Standing.close_bindings_keeps (standing : Standing faulty plan bindings source pair)
    (kept : holds pair.2) :
    EndsIn pair (plan.protocol context).closeBindings
      (fun _ after => Standing faulty plan bindings source.close after ∧ holds after.2)
      fun interrupt after => Standing faulty plan bindings source after ∧ holds after.2 ∧
        interrupt.IsFaultOf faulty [.closeBindings] :=
  agree_weaken (agree_both standing.close_bindings_agrees
    (spares_of_respects (plan.protocol_discreet (fixed_bounded noted) context).closeBindings
      pair kept)) (fun _ _ => id) fun _ _ ends => ⟨ends.1.1, ends.2, ends.1.2⟩

theorem Standing.destroy_keeps (standing : Standing faulty plan bindings source pair)
    (kept : holds pair.2) :
    EndsIn pair (plan.protocol context).destroy (fun _ after => holds after.2)
      fun interrupt after => holds after.2 ∧ interrupt.IsFaultOf faulty [.close, .destroy] :=
  agree_weaken (agree_both standing.destroy_agrees
    (spares_of_respects (plan.protocol_discreet (fixed_bounded noted) context).destroy
      pair kept)) (fun _ _ ends => ends.2) fun _ _ ends => ⟨ends.2, ends.1⟩

/-- Attempting to destroy a tree fails at most by a fault, which is kept. -/
theorem Standing.destroyed_anyway (standing : Standing faulty plan bindings source pair)
    (kept : holds pair.2) :
    EndsIn pair (plan.protocol context).destroy.attempt
      (fun destroyed after => holds after.2 ∧ ∀ error, destroyed = .error error →
        (Interrupt.failed error).IsFaultOf faulty cursorCalls)
      fun _ _ => False := by
  refine agree_attempt (agree_weaken (standing.destroy_keeps noted kept) ?_ ?_)
  · exact fun _ _ kept => ⟨kept, fun _ impossible => by cases impossible⟩
  · rintro (error | _) after ⟨kept, fault⟩
    · refine ⟨kept, fun _ same => ?_⟩
      cases same
      exact Interrupt.fault_subset fault _ (by simp [cursorCalls])
    · obtain ⟨_, _, _, impossible⟩ := fault
      cases impossible

/-- A tree whose single binding was delivered has no further passes. -/
theorem Standing.no_more_passes {result : Type}
    (standing : Standing faulty plan bindings (.single bindings .exhausted) pair)
    (closed : plan.phase pair.1 = .closed) (kept : holds pair.2)
    (pass : Bindings → CursorAction plan.Cursor result) (bound : Nat) :
    EndsIn pair ((plan.protocol context).passesWithin pass bound)
      (fun results after => results = [] ∧
        Standing faulty plan bindings (.single bindings .exhausted) after ∧
        plan.phase after.1 = .closed ∧ holds after.2)
      fun interrupt after => Standing faulty plan bindings (.single bindings .exhausted) after ∧
        holds after.2 ∧ interrupt.IsFaultOf faulty [.nextBindings] := by
  cases bound with
  | zero => exact agree_pure [] ⟨rfl, standing, closed, kept⟩
  | succ bound =>
      apply agree_bind (standing.next_bindings_agrees noted closed kept)
      rintro _ after ⟨rfl, standing, closed, kept⟩
      exact agree_pure [] ⟨rfl, standing, closed, kept⟩

end Endings

/-- The pass that a run under a single binding makes: the opening and what is done with the rows. -/
def openedPass {result : Type} (context : Context) (plan : Plan) (bindings : Bindings)
    (pass : Bindings → CursorAction plan.Cursor result) : CursorAction plan.Cursor result := do
  (plan.protocol context).openPass
  pass bindings

theorem opened_pass_then {result : Type} {context : Context} {plan : Plan} {bindings : Bindings}
    (pass : Bindings → CursorAction plan.Cursor result) (bound : Nat) :
    (do
      (plan.protocol context).openPass
      let first ← pass bindings
      let rest ← (plan.protocol context).passesWithin pass bound
      pure (first :: rest)) =
    (do
      let first ← plan.openedPass context bindings pass
      let rest ← (plan.protocol context).passesWithin pass bound
      pure (first :: rest)) := by
  simp only [openedPass, bind_assoc]

section Single

variable {result : Type} {context : Context} {faulty : LeafCall → Prop} {plan : Plan}
  {bindings : Bindings} {pass : Bindings → CursorAction plan.Cursor result}
  {before : Engine → Prop} {ends : Except Interrupt result → Store → Prop}

/-- A fault may still come after a good end. -/
def Tolerant (faulty : LeafCall → Prop) (ends : Except Interrupt result → Store → Prop) : Prop :=
  ∀ {value store interrupt}, ends (.ok value) store →
    interrupt.IsFaultOf faulty cursorCalls → ends (.error interrupt) store

/-- The tree can be destroyed, and the store is such. -/
def Leaves (faulty : LeafCall → Prop) (plan : Plan) (holds : Store → Prop)
    (pair : plan.Cursor × Engine) : Prop :=
  (∃ bindings source, Standing faulty plan bindings source pair) ∧ holds pair.2.store

/-- Destroying the cursor changes nothing in the store, and its failure counts only after a run that
did not fail itself. -/
theorem then_destroy_leaves {pair : plan.Cursor × Engine} {run : CursorAction plan.Cursor result}
    (tolerant : Tolerant faulty ends)
    (runs : EndsIn pair run (fun value after => plan.Leaves faulty (ends (.ok value)) after)
      fun interrupt after => plan.Leaves faulty (ends (.error interrupt)) after) :
    EndsIn pair ((plan.protocol context).thenDestroy run)
      (fun value after => ends (.ok value) after.2.store)
      fun interrupt after => ends (.error interrupt) after.2.store := by
  refine agree_then (fun ran after => plan.Leaves faulty (ends (ran.mapError .failed)) after)
    (agree_attempt (agree_weaken runs ?_ ?_)) ?_
  · exact fun _ _ => id
  · rintro (error | _) after left
    · exact left
    · exact left.2
  rintro ran after ⟨⟨_, _, standing⟩, left⟩
  have lasting : ∀ call engine, ends (ran.mapError .failed) (Engine.store engine) →
      ends (ran.mapError .failed) (engine.noted call).store := fun _ _ => id
  refine agree_surely (standing.destroyed_anyway lasting left) ?_
  rintro destroyed last ⟨left, fault⟩
  cases ran with
  | error error => exact agree_fail error left
  | ok value =>
      cases destroyed with
      | ok _ => exact agree_pure value left
      | error error => exact agree_fail error (tolerant left (fault error rfl))

/-- The end of the only pass, as the end of all passes. -/
def ofSingle (ends : Except Interrupt result → Store → Prop) :
    Except Interrupt (List result) → Store → Prop
  | .ok results, store => ∃ value, results = [value] ∧ ends (.ok value) store
  | .error interrupt, store => ends (.error interrupt) store

/-- A pass under a single binding leaves the tree in good order, and closed unless it fails. -/
abbrev PassEnds (faulty : LeafCall → Prop) (plan : Plan) (bindings : Bindings)
    (ends : Except Interrupt result → Store → Prop) (pair : plan.Cursor × Engine)
    (pass : CursorAction plan.Cursor result) : Prop :=
  EndsIn pair pass
    (fun value after => Standing faulty plan bindings (.single bindings .exhausted) after ∧
      plan.phase after.1 = .closed ∧ ends (.ok value) after.2.store)
    fun interrupt after => Standing faulty plan bindings (.single bindings .exhausted) after ∧
      ends (.error interrupt) after.2.store

/-- How the passes end of a tree whose single binding was delivered. -/
def PassesEnd (context : Context) (faulty : LeafCall → Prop) (plan : Plan) (bindings : Bindings)
    (pass : Bindings → CursorAction plan.Cursor result) (before : Engine → Prop)
    (ends : Except Interrupt result → Store → Prop) : Prop :=
  ∀ {pair}, Standing faulty plan bindings (.single bindings .exhausted) pair →
    plan.phase pair.1 = .closed → before pair.2 →
    PassEnds faulty plan bindings ends pair (plan.openedPass context bindings pass)

variable (noted : ∀ call engine, before engine → before (Engine.noted engine call))
  (tolerant : Tolerant faulty ends)
  (early : ∀ {engine interrupt}, before engine → interrupt.IsFaultOf faulty cursorCalls →
    ends (.error interrupt) engine.store)
  (passes : plan.PassesEnd context faulty bindings pass before ends)

include noted tolerant early passes

theorem single_passes_within {pair : plan.Cursor × Engine}
    (standing : Standing faulty plan .empty (.single bindings .pending) pair)
    (closed : plan.phase pair.1 = .closed) (kept : before pair.2) (bound : Nat) :
    EndsIn pair ((plan.protocol context).passesWithin pass (bound + 1))
      (fun results after => ∃ value, results = [value] ∧
        Standing faulty plan bindings (.single bindings .exhausted) after ∧
        ends (.ok value) after.2.store)
      fun interrupt after => plan.Leaves faulty (ends (.error interrupt)) after := by
  refine agree_bind (agree_weaken (standing.next_bindings_agrees noted closed kept)
    (fun _ _ => id) ?_) ?_
  · rintro _ after ⟨standing, kept, fault⟩
    exact ⟨⟨_, _, standing⟩, early kept (Interrupt.fault_subset fault _ (by simp [cursorCalls]))⟩
  rintro _ delivered ⟨rfl, standing, closed, kept⟩
  change EndsIn delivered (do
    (plan.protocol context).openPass
    let first ← pass bindings
    let rest ← (plan.protocol context).passesWithin pass bound
    pure (first :: rest)) _ _
  rw [opened_pass_then]
  refine agree_bind (agree_weaken (passes standing closed kept) (fun _ _ => id)
    fun _ _ ends => ⟨⟨_, _, ends.1⟩, ends.2⟩) ?_
  rintro value passed ⟨standing, closed, left⟩
  have lasting : ∀ call engine, ends (.ok value) (Engine.store engine) →
      ends (.ok value) (engine.noted call).store := fun _ _ => id
  refine agree_bind (agree_weaken (standing.no_more_passes lasting closed left pass _)
    (fun _ _ => id) ?_) ?_
  · rintro _ after ⟨standing, left, fault⟩
    exact ⟨⟨_, _, standing⟩,
      tolerant left (Interrupt.fault_subset fault _ (by simp [cursorCalls]))⟩
  rintro _ after ⟨rfl, standing, _, left⟩
  exact agree_pure [value] ⟨value, rfl, standing, left⟩

theorem single_run_passes {pair : plan.Cursor × Engine}
    (standing : Standing faulty plan .empty (.ofOne bindings) pair)
    (closed : plan.phase pair.1 = .closed) (kept : before pair.2) :
    EndsIn pair ((plan.protocol context).runPasses pass)
      (fun results after => plan.Leaves faulty (ofSingle ends (.ok results)) after)
      fun interrupt after => plan.Leaves faulty (ofSingle ends (.error interrupt)) after := by
  refine agree_bind (agree_weaken (standing.open_bindings_agrees noted closed kept)
    (fun _ _ => id) ?_) ?_
  · rintro _ after ⟨standing, kept, fault⟩
    exact ⟨⟨_, _, standing⟩, early kept (Interrupt.fault_subset fault _ (by simp [cursorCalls]))⟩
  rintro _ opened ⟨standing, closed, kept⟩
  apply CursorAction.agree_state
  refine agree_bind (agree_weaken (single_passes_within noted tolerant early passes standing closed
    kept _) (fun _ _ => id) fun _ _ => id) ?_
  rintro _ after ⟨value, rfl, standing, left⟩
  have lasting : ∀ call engine, ends (.ok value) (Engine.store engine) →
      ends (.ok value) (engine.noted call).store := fun _ _ => id
  refine agree_bind (agree_weaken (standing.close_bindings_keeps lasting left) (fun _ _ => id) ?_)
    ?_
  · rintro _ after ⟨standing, left, fault⟩
    exact ⟨⟨_, _, standing⟩,
      tolerant left (Interrupt.fault_subset fault _ (by simp [cursorCalls]))⟩
  rintro _ last ⟨standing, left⟩
  exact agree_pure [value] ⟨⟨_, _, standing⟩, value, rfl, left⟩

/-- A run under a single binding ends as its pass does, or by a fault before or after it. -/
theorem single_run_agrees {engine : Engine} {cursor : plan.Cursor}
    (started : plan.start engine.store (.ofOne bindings) = .ok cursor)
    (faults : engine.FaultsWithin faulty) (kept : before engine) :
    EndsIn engine (plan.run context (.ofOne bindings) pass)
      (fun results after => ofSingle ends (.ok results) after.store)
      fun interrupt after => ends (.error interrupt) after.store := by
  have ⟨coherent, closed⟩ : plan.Coherent faulty cursor ∧ plan.phase cursor = .closed :=
    start_coherent started
  have present : plan.phase cursor ≠ .destroyed := by simp [closed]
  have standing : Standing faulty plan .empty (.ofOne bindings) (cursor, engine) :=
    ⟨⟨coherent, faults⟩, present, start_carries started⟩
  have tolerates : Tolerant faulty (ofSingle ends) := by
    rintro results store interrupt ⟨value, rfl, left⟩ fault
    exact tolerant left fault
  have ran := single_run_passes noted tolerant early passes standing closed kept
  have ran : EndsIn engine (CursorAction.runFrom cursor ((plan.protocol context).thenDestroy
      ((plan.protocol context).runPasses pass)))
      (fun results after => ofSingle ends (.ok results) after.store)
      fun interrupt after => ends (.error interrupt) after.store :=
    agree_run_from (then_destroy_leaves tolerates ran)
  refine ⟨rfl, ?_⟩
  rw [run_started started]
  exact ran.2

end Single

end Plan

end QueryExec
