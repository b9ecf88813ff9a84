import QueryExec.Proofs.Cursor.Lockstep
import QueryExec.Proofs.Passes

/-!
Cursor trees between passes in an engine where no leaf fails. The calls on bindings move the source
of bindings and leave all else as it was, so a tree that is between passes stays ready for the next
one, under the binding that was delivered last.
-/

namespace QueryExec

open QueryExec.Action

/-- The step keeps an invariant of the engine, in whatever cursor. -/
abbrev Spares {cursor result : Type} (holds : Engine → Prop)
    (action : CursorAction cursor result) : Prop :=
  Keeps (fun pair => holds pair.2) action

section Rules

variable {cursor own input result : Type} {holds : Engine → Prop}

theorem spares_change (step : cursor → cursor) : Spares holds (CursorAction.change step) :=
  keeps_modify fun _ kept => kept

theorem Node.spares_on_input {action : CursorAction input result} (spares : Spares holds action) :
    Spares holds (Node.onInput action : CursorAction (Node own input) result) := by
  intro pair kept
  obtain ⟨node, engine⟩ := pair
  exact Node.agree_on_input (spares (node.input, engine) kept)

theorem Node.spares_check (call : Call) :
    Spares holds (Node.check call : CursorAction (Node own input) Unit) :=
  keeps_bind keeps_state fun node => keeps_phase_check call node.phase

end Rules

/-- The calls on bindings keep an invariant of the engine. -/
structure Protocol.BindingsSpare {cursor : Type} (holds : Engine → Prop)
    (protocol : Protocol cursor) : Prop where
  openBindings : Spares holds protocol.openBindings
  nextBindings : Spares holds protocol.nextBindings

theorem Node.bindings_spare {own input : Type} {holds : Engine → Prop} {inner : Protocol input}
    (spare : inner.BindingsSpare holds) {protocol : Protocol (Node own input)}
    (opens : protocol.openBindings = Node.openBindings inner)
    (advances : protocol.nextBindings = Node.nextBindings inner) :
    protocol.BindingsSpare holds where
  openBindings := by
    rw [opens]
    exact keeps_bind (Node.spares_check .openBindings) fun _ =>
      Node.spares_on_input spare.openBindings
  nextBindings := by
    rw [advances]
    exact keeps_bind (Node.spares_check .nextBindings) fun _ =>
      keeps_bind (Node.spares_on_input spare.nextBindings) fun next? =>
        keeps_bind (spares_change _) fun _ => keeps_pure next?

namespace Scan

variable {holds : Engine → Prop}

theorem bindings_spare (holds : Engine → Prop) (context : Context)
    (load : Action Engine (List Row)) : (protocol context load).BindingsSpare holds where
  openBindings :=
    keeps_bind (keeps_bind keeps_state fun scan => keeps_phase_check .openBindings scan.phase)
      fun _ => spares_change _
  nextBindings :=
    keeps_bind (keeps_bind keeps_state fun scan => keeps_phase_check .nextBindings scan.phase)
      fun _ => keeps_bind keeps_state fun _ => keeps_bind (spares_change _) fun _ =>
        keeps_pure _

theorem spares_instead_of {result : Type} {call : LeafCall} {action : CursorAction Scan result}
    (noted : ∀ engine, holds engine → holds (engine.noted call)) (spares : Spares holds action) :
    Spares holds (insteadOf call action) :=
  fun start kept => instead_of_agrees start.2.faults_within_any
    (spares (start.1, start.2.noted call) (noted start.2 kept)) fun _ => noted start.2 kept

theorem probed_bindings_spare
    (noted : ∀ call engine, holds engine → holds (Engine.noted engine call)) (context : Context)
    (load : Action Engine (List Row)) : (probed (protocol context load)).BindingsSpare holds where
  openBindings := spares_instead_of (noted _) (bindings_spare holds context load).openBindings
  nextBindings := spares_instead_of (noted _) (bindings_spare holds context load).nextBindings

end Scan

namespace Plan

theorem bindings_spare (holds : Engine → Prop)
    (noted : ∀ call engine, holds engine → holds (Engine.noted engine call)) (context : Context)
    (plan : Plan) : (plan.protocol context).BindingsSpare holds := by
  induction plan with
  | values slice type rows => exact Scan.bindings_spare holds context (pure rows)
  | table name type => exact Scan.probed_bindings_spare noted context (Scan.loadTable name)
  | filter input predicate induction => exact Node.bindings_spare induction rfl rfl
  | project input type columns induction => exact Node.bindings_spare induction rfl rfl
  | aggregate input type keys aggregates induction => exact Node.bindings_spare induction rfl rfl
  | limit input offset limit? induction => exact Node.bindings_spare induction rfl rfl

section Invariants

variable {holds : Engine → Prop}

/-- One engine beside itself, as long as an invariant holds. -/
def Fixed (holds : Engine → Prop) (left right : Engine) : Prop :=
  left = right ∧ holds left

theorem fixed_bounded (noted : ∀ call engine, holds engine → holds (Engine.noted engine call)) :
    Engine.Bounded (Fixed holds) where
  noted := by
    rintro engine _ call ⟨rfl, kept⟩
    exact ⟨rfl, noted call engine kept⟩
  fault := by
    rintro engine _ call ⟨rfl, _⟩
    rfl

theorem fixed_shared (noted : ∀ call engine, holds engine → holds (Engine.noted engine call))
    (journaled : ∀ journal engine, holds engine → holds { engine with journal })
    (issued : ∀ engine, holds engine → holds { engine with nextId := engine.nextId + 1 }) :
    Engine.Shared (Fixed holds) where
  toBounded := fixed_bounded noted
  journal := by
    rintro engine _ ⟨rfl, _⟩
    rfl
  store := by
    rintro engine _ ⟨rfl, _⟩
    rfl
  nextId := by
    rintro engine _ ⟨rfl, _⟩
    rfl
  journaled := by
    rintro engine _ journal ⟨rfl, kept⟩
    exact ⟨rfl, journaled journal engine kept⟩
  issued := by
    rintro engine _ ⟨rfl, kept⟩
    exact ⟨rfl, issued engine kept⟩

/-- A call that does not tell an engine from itself keeps the invariant of the engine. -/
theorem spares_of_respects {plan : Plan} {result : Type} {action : CursorAction plan.Cursor result}
    (respects : Respects (plan.Alike (Fixed holds)) action) : Spares holds action := by
  refine keeps_of_reaches fun start kept => ?_
  have same := (respects start start (alike_refl start.1 ⟨rfl, kept⟩)).2
  exact (alike_engine same).2

end Invariants

theorem protocol_phase (context : Context) (plan : Plan) :
    (plan.protocol context).phase = plan.phase := by
  cases plan <;> rfl

theorem passes_eq {context : Context} {plan : Plan} {bindings : Bindings} {source : BindingSource}
    {cursor : plan.Cursor} (carrying : plan.Carrying bindings source cursor) :
    (plan.protocol context).passes cursor = source.pending.length := by
  induction plan with
  | values slice type rows => exact congrArg (·.pending.length) carrying.2
  | table name type => exact congrArg (·.pending.length) carrying.2
  | filter input predicate induction => exact induction carrying.2.2
  | project input type columns induction => exact induction carrying.2.2
  | aggregate input type keys aggregates induction => exact induction carrying.2.2
  | limit input offset limit? induction => exact induction carrying.2.2

/-- A tree that is in good order and not destroyed, with its binding and its source of bindings. -/
structure Standing (faulty : LeafCall → Prop) (plan : Plan) (bindings : Bindings)
    (source : BindingSource) (pair : plan.Cursor × Engine) : Prop where
  kept : Kept faulty (plan.Coherent faulty) pair
  present : plan.phase pair.1 ≠ .destroyed
  carrying : plan.Carrying bindings source pair.1

section Standing

variable {context : Context} {faulty : LeafCall → Prop} {plan : Plan} {bindings : Bindings}
  {source : BindingSource} {pair : plan.Cursor × Engine}

/-- A tree does not depend on what else happens in the engine. -/
theorem Standing.in_engine {cursor : plan.Cursor} {engine other : Engine}
    (standing : Standing faulty plan bindings source (cursor, engine))
    (faults : other.FaultsWithin faulty) : Standing faulty plan bindings source (cursor, other) :=
  ⟨⟨standing.kept.1, faults⟩, standing.present, standing.carrying⟩

theorem Standing.next_agrees (standing : Standing faulty plan bindings source pair)
    (active : ((plan.protocol context).phase pair.1).isActive = true) :
    EndsIn pair (plan.protocol context).next
      (fun _ after => Standing faulty plan bindings source after)
      fun _ after => Standing faulty plan bindings source after := by
  apply agree_weaken (agree_both
    ((plan.protocol_lawful context).next standing.kept.1 standing.kept.2 active)
    ((plan.protocol_carries context).next bindings source pair standing.carrying))
  · rintro _ after ⟨⟨kept, present⟩, carrying⟩
    rw [protocol_phase] at present
    exact ⟨kept, present, carrying⟩
  · rintro _ after ⟨⟨kept, present, _⟩, carrying⟩
    rw [protocol_phase] at present
    exact ⟨kept, present, carrying⟩

theorem Standing.destroy_agrees (standing : Standing faulty plan bindings source pair) :
    EndsIn pair (plan.protocol context).destroy (fun _ _ => True)
      fun interrupt _ => interrupt.IsFaultOf faulty [.close, .destroy] := by
  have present := standing.present
  rw [← protocol_phase context] at present
  exact agree_weaken ((plan.protocol_lawful context).destroy standing.kept.1 standing.kept.2
    present) (fun _ _ _ => trivial) fun _ _ ends => ends.2.2

theorem Standing.close_bindings_agrees (standing : Standing faulty plan bindings source pair) :
    EndsIn pair (plan.protocol context).closeBindings
      (fun _ after => Standing faulty plan bindings source.close after)
      fun interrupt after => Standing faulty plan bindings source after ∧
        interrupt.IsFaultOf faulty [.closeBindings] := by
  have present := standing.present
  rw [← protocol_phase context] at present
  apply agree_weaken (agree_both
    ((plan.protocol_lawful context).closeBindings standing.kept.1 standing.kept.2 present)
    ((plan.protocol_carries context).closeBindings pair.2 standing.carrying))
  · rintro _ after ⟨⟨kept, same⟩, carrying⟩
    rw [← same, protocol_phase] at present
    exact ⟨kept, present, carrying⟩
  · rintro _ after ⟨⟨kept, same, fault⟩, carrying⟩
    rw [← same, protocol_phase] at present
    exact ⟨⟨kept, present, carrying⟩, fault⟩

theorem Standing.open_pass_agrees (standing : Standing faulty plan bindings source pair)
    (closed : plan.phase pair.1 = .closed) :
    EndsIn pair (plan.protocol context).openPass
      (fun _ after => Standing faulty plan bindings source after ∧
        ((plan.protocol context).phase after.1).isActive = true)
      fun _ after => Standing faulty plan bindings source after := by
  rw [← protocol_phase context] at closed
  apply agree_weaken (agree_both
    ((plan.protocol_lawful context).openPass standing.kept.1 standing.kept.2 closed)
    ((plan.protocol_carries context).openPass bindings source pair standing.carrying))
  · rintro _ after ⟨⟨kept, active⟩, carrying⟩
    have present := Phase.present_of_active active
    rw [protocol_phase] at present
    exact ⟨⟨kept, present, carrying⟩, active⟩
  · rintro _ after ⟨⟨kept, still, _⟩, carrying⟩
    rw [protocol_phase] at still
    exact ⟨kept, by simp [still], carrying⟩

variable {holds : Engine → Prop}
  (noted : ∀ call engine, holds engine → holds (Engine.noted engine call))

include noted

/-- Opening the bindings of a closed tree opens its source and keeps an invariant of the engine. -/
theorem Standing.open_bindings_agrees (standing : Standing faulty plan bindings source pair)
    (closed : plan.phase pair.1 = .closed) (kept : holds pair.2) :
    EndsIn pair (plan.protocol context).openBindings
      (fun _ after => Standing faulty plan bindings source.openAll after ∧
        plan.phase after.1 = .closed ∧ holds after.2)
      fun interrupt after => Standing faulty plan bindings source after ∧ holds after.2 ∧
        interrupt.IsFaultOf faulty [.openBindings] := by
  have present := standing.present
  rw [← protocol_phase context] at present closed
  apply agree_weaken (agree_both (agree_both
    ((plan.protocol_lawful context).openBindings standing.kept.1 standing.kept.2 present)
    ((plan.protocol_carries context).openBindings pair.2 standing.carrying))
    ((plan.bindings_spare holds noted context).openBindings pair kept))
  · rintro _ after ⟨⟨⟨sound, same⟩, carrying⟩, kept⟩
    rw [← same, protocol_phase] at present closed
    exact ⟨⟨sound, present, carrying⟩, closed, kept⟩
  · rintro _ after ⟨⟨⟨sound, same, fault⟩, carrying⟩, kept⟩
    rw [← same, protocol_phase] at present
    exact ⟨⟨sound, present, carrying⟩, kept, fault⟩

/-- Advancing the bindings of a closed tree delivers what its source has next. -/
theorem Standing.next_bindings_agrees (standing : Standing faulty plan bindings source pair)
    (closed : plan.phase pair.1 = .closed) (kept : holds pair.2) :
    EndsIn pair (plan.protocol context).nextBindings
      (fun next? after => next? = source.next.1 ∧
        Standing faulty plan (next?.getD bindings) source.next.2 after ∧
        plan.phase after.1 = .closed ∧ holds after.2)
      fun interrupt after => Standing faulty plan bindings source after ∧ holds after.2 ∧
        interrupt.IsFaultOf faulty [.nextBindings] := by
  rw [← protocol_phase context] at closed
  apply agree_weaken (agree_both (agree_both
    ((plan.protocol_lawful context).nextBindings standing.kept.1 standing.kept.2 closed)
    ((plan.protocol_carries context).nextBindings pair.2 standing.carrying))
    ((plan.bindings_spare holds noted context).nextBindings pair kept))
  · rintro next? after ⟨⟨⟨sound, closed⟩, same, carrying⟩, kept⟩
    rw [protocol_phase] at closed
    exact ⟨same, ⟨sound, by simp [closed], carrying⟩, closed, kept⟩
  · rintro _ after ⟨⟨⟨sound, closed, fault⟩, carrying⟩, kept⟩
    rw [protocol_phase] at closed
    exact ⟨⟨sound, by simp [closed], carrying⟩, kept, fault⟩

end Standing

/-- A tree that is in good order and not destroyed, where no leaf can fail. -/
structure Usable (plan : Plan) (bindings : Bindings) (source : BindingSource)
    (pair : plan.Cursor × Engine) : Prop where
  kept : Kept (fun _ => False) (plan.Coherent fun _ => False) pair
  present : plan.phase pair.1 ≠ .destroyed
  carrying : plan.Carrying bindings source pair.1

/-- A usable tree that is between passes. -/
structure Resting (plan : Plan) (bindings : Bindings) (source : BindingSource)
    (pair : plan.Cursor × Engine) : Prop extends Usable plan bindings source pair where
  closed : plan.phase pair.1 = .closed

/-- A usable tree that is between passes, in a steady engine. -/
structure Idle (context : Context) (store : Store) (census : Census) (plan : Plan)
    (bindings : Bindings) (source : BindingSource) (pair : plan.Cursor × Engine) : Prop
    extends Usable plan bindings source pair where
  closed : plan.phase pair.1 = .closed
  steady : pair.2.Steady context store census

section Calls

variable {context : Context} {store : Store} {census : Census} {plan : Plan} {bindings : Bindings}
  {source : BindingSource} {pair : plan.Cursor × Engine}

theorem no_fault {calls : List LeafCall} {interrupt : Interrupt}
    (fault : interrupt.IsFaultOf (fun _ => False) calls) : False := by
  obtain ⟨_, _, impossible, _⟩ := fault
  exact impossible

theorem Idle.resting (idle : Idle context store census plan bindings source pair) :
    Resting plan bindings source pair :=
  ⟨idle.toUsable, idle.closed⟩

theorem Resting.idle (resting : Resting plan bindings source pair)
    (steady : pair.2.Steady context store census) :
    Idle context store census plan bindings source pair :=
  ⟨resting.toUsable, resting.closed, steady⟩

theorem Usable.with_journal {state : plan.Cursor} {engine : Engine}
    (usable : Usable plan bindings source (state, engine)) (journal : Journal) :
    Usable plan bindings source (state, { engine with journal }) :=
  ⟨usable.kept, usable.present, usable.carrying⟩

theorem Usable.standing (usable : Usable plan bindings source pair) :
    Standing (fun _ => False) plan bindings source pair :=
  ⟨usable.kept, usable.present, usable.carrying⟩

theorem Standing.usable (standing : Standing (fun _ => False) plan bindings source pair) :
    Usable plan bindings source pair :=
  ⟨standing.kept, standing.present, standing.carrying⟩

theorem Usable.next_agrees (usable : Usable plan bindings source pair)
    (active : ((plan.protocol context).phase pair.1).isActive = true) :
    EndsIn pair (plan.protocol context).next (fun _ after => Usable plan bindings source after)
      fun _ after => Usable plan bindings source after :=
  agree_weaken (usable.standing.next_agrees active) (fun _ _ => Standing.usable)
    fun _ _ => Standing.usable

theorem Usable.destroy_agrees (usable : Usable plan bindings source pair) :
    EndsIn pair (plan.protocol context).destroy (fun _ _ => True) fun _ _ => False :=
  agree_weaken usable.standing.destroy_agrees (fun _ _ => id) fun _ _ => no_fault

theorem Usable.close_bindings_agrees (usable : Usable plan bindings source pair) :
    EndsIn pair (plan.protocol context).closeBindings
      (fun _ after => Usable plan bindings source.close after) fun _ _ => False :=
  agree_weaken usable.standing.close_bindings_agrees (fun _ _ => Standing.usable)
    fun _ _ ends => no_fault ends.2

section Bindings

variable {holds : Engine → Prop}
  (noted : ∀ call engine, holds engine → holds (Engine.noted engine call))

include noted

/-- Opening the bindings of a closed tree opens its source and keeps an invariant of the engine. -/
theorem Resting.open_bindings_agrees (resting : Resting plan bindings source pair)
    (kept : holds pair.2) :
    EndsIn pair (plan.protocol context).openBindings
      (fun _ after => Resting plan bindings source.openAll after ∧ holds after.2)
      fun _ _ => False :=
  agree_weaken (resting.standing.open_bindings_agrees noted resting.closed kept)
    (fun _ _ ends => ⟨⟨ends.1.usable, ends.2.1⟩, ends.2.2⟩) fun _ _ ends => no_fault ends.2.2

/-- Advancing the bindings of a closed tree delivers what its source has next. -/
theorem Resting.next_bindings_agrees (resting : Resting plan bindings source pair)
    (kept : holds pair.2) :
    EndsIn pair (plan.protocol context).nextBindings
      (fun next? after => next? = source.next.1 ∧
        Resting plan (next?.getD bindings) source.next.2 after ∧ holds after.2)
      fun _ _ => False :=
  agree_weaken (resting.standing.next_bindings_agrees noted resting.closed kept)
    (fun _ _ ends => ⟨ends.1, ⟨ends.2.1.usable, ends.2.2.1⟩, ends.2.2.2⟩)
    fun _ _ ends => no_fault ends.2.2

end Bindings

theorem steady_noted (call : LeafCall) (engine : Engine)
    (steady : engine.Steady context store census) :
    (engine.noted call).Steady context store census :=
  steady.noted call

theorem Idle.open_bindings_agrees (idle : Idle context store census plan bindings source pair) :
    EndsIn pair (plan.protocol context).openBindings
      (fun _ after => Idle context store census plan bindings source.openAll after)
      fun _ _ => False :=
  agree_weaken (idle.resting.open_bindings_agrees steady_noted idle.steady)
    (fun _ _ ends => ends.1.idle ends.2) fun _ _ => id

theorem Idle.next_bindings_agrees (idle : Idle context store census plan bindings source pair) :
    EndsIn pair (plan.protocol context).nextBindings
      (fun next? after => next? = source.next.1 ∧
        Idle context store census plan (next?.getD bindings) source.next.2 after)
      fun _ _ => False :=
  agree_weaken (idle.resting.next_bindings_agrees steady_noted idle.steady)
    (fun _ _ ends => ⟨ends.1, ends.2.1.idle ends.2.2⟩) fun _ _ => id

/-- Where no close can fail, a tree between passes holds nothing. -/
theorem Resting.nothing_held (resting : Resting plan bindings source pair) :
    plan.held pair.1 = [] :=
  nothing_held_when_released resting.kept.1 (.inr ⟨resting.closed, id⟩)

/-- An idle tree holds nothing, so it is ready. -/
theorem Idle.ready (idle : Idle context store census plan bindings source pair) :
    plan.Ready bindings pair.1 :=
  ready_of_empty idle.kept.1 idle.closed idle.carrying idle.resting.nothing_held

variable (bound : bindings.Listed census)
  (listed : ∀ rows, plan.leafRows store = .ok rows → ∀ row ∈ rows, row.Listed census)

include bound listed

theorem Idle.open_pass_agrees (idle : Idle context store census plan bindings source pair) :
    EndsIn pair (plan.protocol context).openPass
      (fun _ after => Usable plan bindings source after ∧ after.2.Steady context store census ∧
        ∃ rows, plan.leafRows store = .ok rows ∧
          plan.Delivering context census (plan.stream context bindings (rows.map Row.view)) after.1)
      fun interrupt after => plan.passResult store context bindings = .error interrupt ∧
        Usable plan bindings source after := by
  apply agree_weaken (agree_both (idle.standing.open_pass_agrees idle.closed)
    (plan.open_pass_delivers bound idle.ready listed idle.steady))
  · rintro _ after ⟨⟨standing, _⟩, rows, loaded, delivering, steady⟩
    exact ⟨standing.usable, steady, rows, loaded, delivering⟩
  · rintro _ after ⟨standing, error, failed, rfl⟩
    refine ⟨?_, standing.usable⟩
    unfold passResult
    rw [failed]

omit bound listed in
theorem Usable.drain_agrees {rows : List Row} (usable : Usable plan bindings source pair)
    (steady : pair.2.Steady context store census) (loaded : plan.leafRows store = .ok rows)
    (delivering : plan.Delivering context census
      (plan.stream context bindings (rows.map Row.view)) pair.1) :
    EndsIn pair (plan.protocol context).drain
      (fun values after => plan.passResult store context bindings = .ok values ∧
        ∃ later, census.Within later ∧ Idle context store later plan bindings source after)
      fun interrupt after => plan.passResult store context bindings = .error interrupt ∧
        Usable plan bindings source after := by
  have result : plan.passResult store context bindings =
      (plan.stream context bindings (rows.map Row.view)).materialised := by
    unfold passResult
    rw [loaded]
  rw [result]
  refine agree_weaken (QueryExec.drain_agrees (Usable plan bindings source)
    (fun journal usable => usable.with_journal journal) Usable.next_agrees
    (plan.protocol_produces context store) delivering steady usable) ?_ fun _ _ => id
  intro values after ends
  obtain ⟨same, closed, usable, later, within, steady⟩ := ends
  rw [protocol_phase] at closed
  exact ⟨same, later, within, usable, closed, steady⟩

end Calls

/-- The plan can run under the binding without being disturbed: the context is not cancelled, no
leaf call is to fail, and what is remembered of rows is what they mean. -/
def Undisturbed (context : Context) (plan : Plan) (bindings : Bindings) (engine : Engine) : Prop :=
  ∃ census, engine.Steady context engine.store census ∧ bindings.Listed census ∧
    ∀ rows, plan.leafRows engine.store = .ok rows → ∀ row ∈ rows, row.Listed census

end Plan

end QueryExec
