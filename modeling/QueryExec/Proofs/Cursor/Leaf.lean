import QueryExec.Proofs.Cursor.Lawful

/-!
Leaves are lawful: a scan by itself and a scan behind the probe. An idle scan has nothing pending.
-/

namespace QueryExec

open QueryExec.Action

namespace Probe

theorem count_note_same (probe : Probe) (call : LeafCall) :
    (probe.note call).count call = probe.count call + 1 := by
  simp [count, note]

theorem count_le_note (probe : Probe) (call other : LeafCall) :
    probe.count other ≤ (probe.note call).count other := by
  by_cases same : other = call
  · subst same
    rw [count_note_same]
    omega
  · simp [count, note, Table.get_set_other _ _ _ _ same]

theorem faults_within_note {faulty : LeafCall → Prop} {probe : Probe}
    (faults : probe.FaultsWithin faulty) (call : LeafCall) :
    (probe.note call).FaultsWithin faulty := by
  intro other number listed later
  have earlier := count_le_note probe call other
  exact faults other number listed (by omega)

/-- A call that has just been noted and must fail was still to fail before. -/
theorem faulty_of_must_fail {faulty : LeafCall → Prop} {probe : Probe} {call : LeafCall}
    (faults : probe.FaultsWithin faulty) (must : (probe.note call).mustFail call = true) :
    faulty call := by
  have listed : (probe.note call).count call ∈ ((probe.note call).faults.get? call).getD [] := by
    simpa [mustFail] using must
  rw [count_note_same] at listed
  exact faults call _ listed (by omega)

end Probe

namespace Engine

variable {faulty : LeafCall → Prop} {engine : Engine}

/-- The engine after a call on the storage boundary was logged. -/
def noted (engine : Engine) (call : LeafCall) : Engine :=
  { engine with probe? := engine.probe?.map (·.note call) }

theorem faults_within_noted (faults : engine.FaultsWithin faulty) (call : LeafCall) :
    (engine.noted call).FaultsWithin faulty := by
  intro probe present
  obtain ⟨before, found, rfl⟩ := Option.map_eq_some_iff.mp present
  exact Probe.faults_within_note (faults before found) call

/-- The fault of a call that has just been logged leaves the engine as it is. -/
theorem agree_inject_fault {call : LeafCall} {gives : Unit → Engine → Prop}
    {stops : Interrupt → Engine → Prop} (faults : engine.FaultsWithin faulty)
    (passes : gives () (engine.noted call))
    (fails : faulty call →
      stops (.failed (.storage (.injected call.name))) (engine.noted call)) :
    EndsIn (engine.noted call) (injectFault call) gives stops := by
  refine agree_then (fun read reached =>
    read = engine.noted call ∧ reached = engine.noted call) ⟨rfl, rfl, rfl⟩ ?_
  intro _ _ ends
  obtain ⟨rfl, rfl⟩ := ends
  cases present : engine.probe? with
  | none =>
      have absent : (engine.noted call).probe? = none := by simp [noted, present]
      rw [absent]
      exact agree_pure () passes
  | some probe =>
      have found : (engine.noted call).probe? = some (probe.note call) := by
        simp [noted, present]
      rw [found]
      dsimp only
      split
      next must =>
        exact agree_fail _ (fails (Probe.faulty_of_must_fail (faults probe present) must))
      next => exact agree_pure () passes

end Engine

namespace Scan

/-- An idle scan has nothing pending. -/
def Coherent (scan : Scan) : Prop :=
  scan.phase.isActive = false → scan.pending = []

/-- A source of rows that only reads the engine. -/
def ReadsRows (load : Action Engine (List Row)) : Prop :=
  ∀ engine, EndsIn engine load (fun _ after => after = engine)
    fun interrupt after => after = engine ∧ interrupt.isRefusal = false

theorem reads_rows_pure (rows : List Row) : ReadsRows (pure rows) :=
  fun _ => agree_pure rows rfl

theorem reads_rows_table (name : String) : ReadsRows (loadTable name) := by
  intro engine
  apply agree_then (fun _ after => after = engine)
  · refine agree_then (fun read after => read = engine ∧ after = engine)
      ⟨rfl, rfl, rfl⟩ ?_
    intro _ _ ends
    obtain ⟨rfl, rfl⟩ := ends
    refine agree_of_except _ (fun _ _ => rfl) fun error missing => ⟨rfl, ?_⟩
    unfold Store.table at missing
    split at missing <;> cases missing
    rfl
  · intro table _ same
    subst same
    exact agree_pure _ rfl

variable {faulty : LeafCall → Prop} {scan : Scan} {engine : Engine}

/-- What is done in a legal call is what comes after its check. -/
theorem agree_past_check {result : Type} {call : Call} {left right : CursorAction Scan result}
    {gives : result → Scan × Engine → Prop} {stops : Interrupt → Scan × Engine → Prop}
    (legal : call.legalIn scan.phase = true)
    (continues : AgreeFrom (scan, engine) left right gives stops) :
    AgreeFrom (scan, engine) (do check call; left) (do check call; right) gives stops :=
  agree_reaching (scan, engine) (CursorAction.agree_state
    (agree_given (Call.check_passes legal) fun _ _ => id)) fun _ => continues

/-- Closing changes the scan alone. -/
theorem close_agrees (active : scan.phase.isActive = true) :
    EndsIn (scan, engine) close
      (fun _ after => after.2 = engine ∧ after.1.Coherent ∧ after.1.phase = .closed)
      fun _ _ => False := by
  refine agree_past_check active ?_
  exact CursorAction.agree_change abandon ⟨rfl, fun _ => rfl, rfl⟩

theorem destroy_agrees (present : scan.phase ≠ .destroyed) :
    EndsIn (scan, engine) destroy
      (fun _ after => after.2 = engine ∧ after.1.Coherent ∧ after.1.phase = .destroyed)
      fun _ _ => False := by
  refine agree_past_check (by simp [Call.legalIn, present]) ?_
  exact CursorAction.agree_change _ ⟨rfl, fun _ => rfl, rfl⟩

theorem cancel_bindings_coherent (scan : Scan) (bindings : Bindings) :
    (scan.cancelBindings bindings).Coherent :=
  fun _ => rfl

theorem protocol_lawful (context : Context) {load : Action Engine (List Row)}
    (reads : ReadsRows load) :
    (protocol context load).Lawful faulty Coherent (protocol context load) where
  phase := rfl
  remaining := rfl
  openPass := by
    intro scan engine coherent faults closed
    have closed : scan.phase = .closed := closed
    refine agree_past_check (by simp [Call.legalIn, closed]) ?_
    refine agree_reaching (scan, { engine with journal := engine.journal.tap context "scan.open" })
      (CursorAction.agree_tap context _ rfl) fun _ => ?_
    refine agree_then (fun _ after => after.2.FaultsWithin faulty)
      (CursorAction.agree_in_engine (agree_weaken (reads _) ?_ ?_)) ?_
    · intro rows _ same
      subst same
      exact faults
    · intro interrupt _ ends
      obtain ⟨rfl, calm⟩ := ends
      exact ⟨⟨coherent, faults⟩, closed, calm⟩
    · intro rows reached faults
      refine CursorAction.agree_change _ ⟨⟨?_, faults⟩, rfl⟩
      exact fun idle => by cases idle
  next := by
    intro scan engine coherent faults active
    refine agree_past_check active ?_
    refine agree_then (fun _ after => after.1 = scan ∧ after.2.FaultsWithin faulty)
      (agree_on_failure (CursorAction.agree_in_journal
        (agree_weaken (context.check_cancelled_unrefused engine.journal) ?_ ?_))) ?_
    · exact fun _ _ _ => ⟨rfl, faults⟩
    · rintro (error | _) journal calm
      · exact CursorAction.agree_change abandon
          ⟨⟨fun _ => rfl, faults⟩, show Phase.closed ≠ .destroyed by decide, calm⟩
      · exact ⟨⟨coherent, faults⟩, Phase.present_of_active active, calm⟩
    intro _ after ends
    obtain ⟨scan, checked⟩ := after
    obtain ⟨rfl, faults⟩ := ends
    refine agree_reaching
      (scan, { checked with journal := checked.journal.tap context "scan.next" })
      (CursorAction.agree_tap context _ rfl) fun _ => ?_
    apply CursorAction.agree_state
    dsimp only
    cases pending : scan.pending with
    | nil =>
        refine agree_then (fun _ after => Kept faulty Coherent after ∧
          after.1.phase ≠ .destroyed) (CursorAction.agree_change _ ⟨⟨fun _ => pending, faults⟩, ?_⟩)
          fun _ after ends => agree_pure none ends
        exact show Phase.closed ≠ .destroyed by decide
    | cons row rest =>
        refine agree_then (fun _ after => Kept faulty Coherent after ∧
          after.1.phase ≠ .destroyed) (CursorAction.agree_change _ ⟨⟨?_, faults⟩, ?_⟩)
          fun _ after ends => agree_pure (some row) ends
        · exact fun idle => by cases idle
        · exact show Phase.running ≠ .destroyed by decide
  close := by
    intro scan engine coherent faults active
    refine agree_given (close_agrees active) ?_
    intro _ after ends
    obtain ⟨closed, _⟩ := after
    obtain ⟨rfl, idle, phase⟩ := ends
    exact ⟨⟨idle, faults⟩, phase⟩
  destroy := by
    intro scan engine coherent faults present
    refine agree_given (destroy_agrees present) ?_
    intro _ after ends
    obtain ⟨closed, _⟩ := after
    obtain ⟨rfl, idle, phase⟩ := ends
    exact ⟨⟨idle, faults⟩, phase⟩
  openBindings := by
    intro scan engine coherent faults present
    have present : scan.phase ≠ .destroyed := present
    refine agree_past_check (by simp [Call.legalIn, present]) ?_
    exact CursorAction.agree_change _ ⟨⟨coherent, faults⟩, rfl⟩
  nextBindings := by
    intro scan engine coherent faults closed
    have closed : scan.phase = .closed := closed
    refine agree_past_check (by simp [Call.legalIn, closed]) ?_
    apply CursorAction.agree_state
    dsimp only
    apply agree_then (fun _ after => Kept faulty Coherent after ∧
      after.1.phase = .closed) (CursorAction.agree_change _ ⟨⟨coherent, faults⟩, closed⟩)
    exact fun _ after ends => agree_pure _ ends
  closeBindings := by
    intro scan engine coherent faults present
    have present : scan.phase ≠ .destroyed := present
    refine agree_past_check (by simp [Call.legalIn, present]) ?_
    exact CursorAction.agree_change _ ⟨⟨coherent, faults⟩, rfl⟩
  cancelBindings := fun bindings _ faults =>
    ⟨rfl, ⟨cancel_bindings_coherent _ bindings, faults⟩, rfl⟩

/-- Instead of the call the fault of its kind may happen, which leaves the leaf as it is. -/
theorem instead_of_agrees {result : Type} {call : LeafCall} {action : CursorAction Scan result}
    {gives : result → Scan × Engine → Prop} {stops : Interrupt → Scan × Engine → Prop}
    (faults : engine.FaultsWithin faulty)
    (acts : EndsIn (scan, engine.noted call) action gives stops)
    (fails : faulty call →
      stops (.failed (.storage (.injected call.name))) (scan, engine.noted call)) :
    EndsIn (scan, engine) (insteadOf call action) gives stops := by
  refine agree_then (fun _ after => after = (scan, engine.noted call)) ⟨rfl, rfl⟩ ?_
  intro _ _ same
  subst same
  refine agree_reaching (scan, engine.noted call)
    (CursorAction.agree_in_engine (Engine.agree_inject_fault faults rfl fails)) fun _ => ?_
  exact acts

/-- The fault comes after a call that left the engine as it was. -/
theorem after_agrees {call : LeafCall} {action : CursorAction Scan Unit} (reaches : Scan → Prop)
    (faults : engine.FaultsWithin faulty)
    (acts : EndsIn (scan, engine.noted call) action
      (fun _ after => after.2 = engine.noted call ∧ reaches after.1) fun _ _ => False) :
    EndsIn (scan, engine) (after call action)
      (fun _ after => reaches after.1 ∧ after.2.FaultsWithin faulty)
      fun interrupt after => (reaches after.1 ∧ after.2.FaultsWithin faulty) ∧
        interrupt.IsFaultOf faulty [call] := by
  refine agree_then (fun _ after => after = (scan, engine.noted call)) ⟨rfl, rfl⟩ ?_
  intro _ _ same
  subst same
  apply agree_then (fun _ after => after.2 = engine.noted call ∧ reaches after.1)
    (agree_given acts fun _ _ => id)
  intro _ after ends
  obtain ⟨reached, _⟩ := after
  obtain ⟨rfl, holds⟩ := ends
  have still := Engine.faults_within_noted faults call
  refine CursorAction.agree_in_engine (Engine.agree_inject_fault faults ⟨holds, still⟩ ?_)
  exact fun admitted => ⟨⟨holds, still⟩, call, by simp, admitted, rfl⟩

/-- A leaf behind the probe is as lawful as the scan itself, up to the admitted faults. -/
theorem probed_lawful (context : Context) {load : Action Engine (List Row)}
    (reads : ReadsRows load) :
    (probed (protocol context load)).Lawful faulty Coherent (probed (protocol context load)) where
  phase := rfl
  remaining := rfl
  openPass := by
    intro scan engine coherent faults closed
    have noted := Engine.faults_within_noted faults .openPass
    exact instead_of_agrees faults ((protocol_lawful context reads).openPass coherent noted closed)
      fun _ => ⟨⟨coherent, noted⟩, closed, rfl⟩
  next := by
    intro scan engine coherent faults active
    have noted := Engine.faults_within_noted faults .next
    exact instead_of_agrees faults ((protocol_lawful context reads).next coherent noted active)
      fun _ => ⟨⟨coherent, noted⟩, Phase.present_of_active active, rfl⟩
  close := by
    intro scan engine coherent faults active
    apply agree_weaken (after_agrees (fun scan => scan.Coherent ∧ scan.phase = .closed)
      faults (close_agrees active))
    · exact fun _ after ends => ⟨⟨ends.1.1, ends.2⟩, ends.1.2⟩
    · exact fun _ after ends => ⟨⟨ends.1.1.1, ends.1.2⟩, ends.1.1.2, ends.2⟩
  destroy := by
    intro scan engine coherent faults present
    apply agree_weaken
      (after_agrees (fun scan => scan.Coherent ∧ scan.phase = .destroyed)
      faults (destroy_agrees present))
    · exact fun _ after ends => ⟨⟨ends.1.1, ends.2⟩, ends.1.2⟩
    · exact fun _ after ends => ⟨⟨ends.1.1.1, ends.1.2⟩, ends.1.1.2,
        Interrupt.fault_subset ends.2 _ (by simp)⟩
  openBindings := by
    intro scan engine coherent faults present
    have noted := Engine.faults_within_noted faults .openBindings
    exact instead_of_agrees faults
      ((protocol_lawful context reads).openBindings coherent noted present)
      fun admitted => ⟨⟨coherent, noted⟩, rfl, _, by simp, admitted, rfl⟩
  nextBindings := by
    intro scan engine coherent faults closed
    have noted := Engine.faults_within_noted faults .nextBindings
    exact instead_of_agrees faults
      ((protocol_lawful context reads).nextBindings coherent noted closed)
      fun admitted => ⟨⟨coherent, noted⟩, closed, _, by simp, admitted, rfl⟩
  closeBindings := by
    intro scan engine coherent faults present
    have noted := Engine.faults_within_noted faults .closeBindings
    exact instead_of_agrees faults
      ((protocol_lawful context reads).closeBindings coherent noted present)
      fun admitted => ⟨⟨coherent, noted⟩, rfl, _, by simp, admitted, rfl⟩
  cancelBindings := fun bindings _ faults =>
    ⟨rfl, ⟨cancel_bindings_coherent _ bindings, Engine.faults_within_noted faults .cancelBindings⟩,
      rfl⟩

end Scan

end QueryExec
