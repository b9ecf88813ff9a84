import QueryExec.Proofs.Cursor.Rules

/-!
What a lawful protocol does in answer to legal calls, and why a cursor over a lawful input is
lawful again. The laws relate two protocols over one cursor state: on every legal call from a
sound state they agree, whatever either does on an illegal one. Faults of the storage boundary are
admitted by kind, so the same laws serve runs with any faults and runs with none.
-/

namespace QueryExec

open QueryExec.Action

/-- The calls that are still to fail are of the kinds in `faulty`. -/
def Probe.FaultsWithin (faulty : LeafCall → Prop) (probe : Probe) : Prop :=
  ∀ call number, number ∈ (probe.faults.get? call).getD [] → probe.count call < number →
    faulty call

def Engine.FaultsWithin (faulty : LeafCall → Prop) (engine : Engine) : Prop :=
  ∀ probe, engine.probe? = some probe → probe.FaultsWithin faulty

theorem Engine.faults_within_any (engine : Engine) : engine.FaultsWithin fun _ => True :=
  fun _ _ _ _ _ _ => trivial

/-- The failure of one of these calls, which is of a kind that may fail. -/
def Interrupt.IsFaultOf (faulty : LeafCall → Prop) (calls : List LeafCall)
    (interrupt : Interrupt) : Prop :=
  ∃ call ∈ calls, faulty call ∧ interrupt = .failed (.storage (.injected call.name))

theorem Interrupt.refusal_of_fault {faulty : LeafCall → Prop} {calls : List LeafCall}
    {interrupt : Interrupt} (fault : interrupt.IsFaultOf faulty calls) :
    interrupt.isRefusal = false := by
  obtain ⟨call, _, _, rfl⟩ := fault
  rfl

theorem Interrupt.fault_subset {faulty : LeafCall → Prop} {calls : List LeafCall}
    {interrupt : Interrupt} (fault : interrupt.IsFaultOf faulty calls) (others : List LeafCall)
    (included : ∀ call ∈ calls, call ∈ others) : interrupt.IsFaultOf faulty others := by
  obtain ⟨call, member, admitted, same⟩ := fault
  exact ⟨call, included call member, admitted, same⟩

section Laws

variable {cursor : Type}

/-- A sound state beside an engine whose faults are admitted. -/
def Kept (faulty : LeafCall → Prop) (sound : cursor → Prop) (after : cursor × Engine) : Prop :=
  sound after.1 ∧ after.2.FaultsWithin faulty

/-- From sound states both protocols agree on legal calls, keep the state sound, reach the phases
they should and never refuse. Closing, destroying and the calls on bindings fail by a fault
only. -/
structure Protocol.Lawful (faulty : LeafCall → Prop) (sound : cursor → Prop)
    (left right : Protocol cursor) : Prop where
  phase : left.phase = right.phase
  remaining : left.remaining = right.remaining
  openPass : ∀ {state engine}, sound state → engine.FaultsWithin faulty →
    right.phase state = .closed →
    AgreeFrom (state, engine) left.openPass right.openPass
      (fun _ after => Kept faulty sound after ∧ (right.phase after.1).isActive = true)
      fun interrupt after => Kept faulty sound after ∧ right.phase after.1 = .closed ∧
        interrupt.isRefusal = false
  next : ∀ {state engine}, sound state → engine.FaultsWithin faulty →
    (right.phase state).isActive = true →
    AgreeFrom (state, engine) left.next right.next
      (fun _ after => Kept faulty sound after ∧ right.phase after.1 ≠ .destroyed)
      fun interrupt after => Kept faulty sound after ∧ right.phase after.1 ≠ .destroyed ∧
        interrupt.isRefusal = false
  close : ∀ {state engine}, sound state → engine.FaultsWithin faulty →
    (right.phase state).isActive = true →
    AgreeFrom (state, engine) left.close right.close
      (fun _ after => Kept faulty sound after ∧ right.phase after.1 = .closed)
      fun interrupt after => Kept faulty sound after ∧ right.phase after.1 = .closed ∧
        interrupt.IsFaultOf faulty [.close]
  destroy : ∀ {state engine}, sound state → engine.FaultsWithin faulty →
    right.phase state ≠ .destroyed →
    AgreeFrom (state, engine) left.destroy right.destroy
      (fun _ after => Kept faulty sound after ∧ right.phase after.1 = .destroyed)
      fun interrupt after => Kept faulty sound after ∧ right.phase after.1 = .destroyed ∧
        interrupt.IsFaultOf faulty [.close, .destroy]
  openBindings : ∀ {state engine}, sound state → engine.FaultsWithin faulty →
    right.phase state ≠ .destroyed →
    AgreeFrom (state, engine) left.openBindings right.openBindings
      (fun _ after => Kept faulty sound after ∧ right.phase after.1 = right.phase state)
      fun interrupt after => Kept faulty sound after ∧
        right.phase after.1 = right.phase state ∧ interrupt.IsFaultOf faulty [.openBindings]
  nextBindings : ∀ {state engine}, sound state → engine.FaultsWithin faulty →
    right.phase state = .closed →
    AgreeFrom (state, engine) left.nextBindings right.nextBindings
      (fun _ after => Kept faulty sound after ∧ right.phase after.1 = .closed)
      fun interrupt after => Kept faulty sound after ∧ right.phase after.1 = .closed ∧
        interrupt.IsFaultOf faulty [.nextBindings]
  closeBindings : ∀ {state engine}, sound state → engine.FaultsWithin faulty →
    right.phase state ≠ .destroyed →
    AgreeFrom (state, engine) left.closeBindings right.closeBindings
      (fun _ after => Kept faulty sound after ∧ right.phase after.1 = right.phase state)
      fun interrupt after => Kept faulty sound after ∧
        right.phase after.1 = right.phase state ∧ interrupt.IsFaultOf faulty [.closeBindings]
  cancelBindings : ∀ {state engine} bindings, sound state → engine.FaultsWithin faulty →
    left.cancelBindings bindings (state, engine) =
        right.cancelBindings bindings (state, engine) ∧
      Kept faulty sound (right.cancelBindings bindings (state, engine)) ∧
      right.phase (right.cancelBindings bindings (state, engine)).1 =
        if right.phase state = .destroyed then .destroyed else .closed

end Laws

theorem Phase.closed_of_idle {phase : Phase} (idle : phase.isActive = false)
    (present : phase ≠ .destroyed) : phase = .closed := by
  cases phase <;> simp_all [Phase.isActive]

theorem Phase.present_of_active {phase : Phase} (active : phase.isActive = true) :
    phase ≠ .destroyed := by
  intro same
  subst same
  cases active

namespace Protocol.Lawful

variable {cursor : Type} {faulty : LeafCall → Prop} {sound : cursor → Prop}
  {left right : Protocol cursor} (lawful : left.Lawful faulty sound right) {state : cursor}
  {engine : Engine}

include lawful

theorem close_active (kept : sound state) (faults : engine.FaultsWithin faulty)
    (present : right.phase state ≠ .destroyed) :
    AgreeFrom (state, engine) left.closeActive right.closeActive
      (fun _ after => Kept faulty sound after ∧ right.phase after.1 = .closed)
      fun interrupt after => Kept faulty sound after ∧ right.phase after.1 = .closed ∧
        interrupt.IsFaultOf faulty [.close] :=
  agree_close_active lawful.phase (lawful.close kept faults) fun idle =>
    ⟨⟨kept, faults⟩, Phase.closed_of_idle idle present⟩

theorem destroy_once (kept : sound state) (faults : engine.FaultsWithin faulty) :
    AgreeFrom (state, engine) left.destroyOnce right.destroyOnce
      (fun _ after => Kept faulty sound after ∧ right.phase after.1 = .destroyed)
      fun interrupt after => Kept faulty sound after ∧ right.phase after.1 = .destroyed ∧
        interrupt.IsFaultOf faulty [.close, .destroy] :=
  agree_destroy_once lawful.phase (lawful.destroy kept faults) fun gone =>
    ⟨⟨kept, faults⟩, gone⟩

end Protocol.Lawful

namespace Node

variable {own input : Type}

/-- A closed cursor has a closed input, exactly a destroyed one has a destroyed input, and what
the operator keeps for itself suits the phase. -/
structure Coherent (phaseOf : input → Phase) (sound : input → Prop) (suits : Phase → own → Prop)
    (node : Node own input) : Prop where
  input : sound node.input
  closed : node.phase = .closed → phaseOf node.input = .closed
  destroyed : node.phase = .destroyed ↔ phaseOf node.input = .destroyed
  own : suits node.phase node.own

/-- A coherent cursor that is not destroyed, beside an engine whose faults are admitted. -/
def Alive (faulty : LeafCall → Prop) (phaseOf : input → Phase) (sound : input → Prop)
    (suits : Phase → own → Prop) (after : Node own input × Engine) : Prop :=
  after.1.Coherent phaseOf sound suits ∧ after.1.phase ≠ .destroyed ∧
    after.2.FaultsWithin faulty

/-- The cursor and its input are closed, and what the operator keeps is as before. -/
def Ended (faulty : LeafCall → Prop) (phaseOf : input → Phase) (sound : input → Prop) (kept : own)
    (after : Node own input × Engine) : Prop :=
  Kept faulty sound (after.1.input, after.2) ∧ phaseOf after.1.input = .closed ∧
    after.1.phase = .closed ∧ after.1.own = kept

variable {faulty : LeafCall → Prop} {phaseOf : input → Phase} {sound : input → Prop}
  {suits : Phase → own → Prop}

theorem Alive.input_present {after : Node own input × Engine}
    (alive : Alive faulty phaseOf sound suits after) : phaseOf after.1.input ≠ .destroyed :=
  fun gone => alive.2.1 (alive.1.destroyed.mpr gone)

/-- An active phase asks nothing of the input except that it is not destroyed. -/
theorem alive_of_active {after : Node own input × Engine}
    (kept : Kept faulty sound (after.1.input, after.2))
    (present : phaseOf after.1.input ≠ .destroyed) (active : after.1.phase.isActive = true)
    (suitable : suits after.1.phase after.1.own) : Alive faulty phaseOf sound suits after := by
  refine ⟨⟨kept.1, ?_, ?_, suitable⟩, Phase.present_of_active active, kept.2⟩
  · intro closed
    rw [closed] at active
    cases active
  · constructor
    · exact fun gone => absurd gone (Phase.present_of_active active)
    · exact fun gone => absurd gone present

theorem alive_of_ended (suits : Phase → own → Prop) {kept : own} {after : Node own input × Engine}
    (ended : Ended faulty phaseOf sound kept after) (suitable : suits .closed kept) :
    Alive faulty phaseOf sound suits after := by
  obtain ⟨⟨inputSound, faults⟩, inputClosed, closed, same⟩ := ended
  refine ⟨⟨inputSound, fun _ => inputClosed, ?_, ?_⟩, ?_, faults⟩
  · rw [closed, inputClosed]
  · rw [closed, same]
    exact suitable
  · rw [closed]
    decide

section Steps

variable {left right : Protocol input} (lawful : left.Lawful faulty sound right)
  {node : Node own input} {engine : Engine}

include lawful

theorem finish_agrees (kept : Kept faulty sound (node.input, engine))
    (present : right.phase node.input ≠ .destroyed) :
    AgreeFrom (node, engine) (finish left) (finish right)
      (fun _ after => Ended faulty right.phase sound node.own after)
      fun interrupt after => Ended faulty right.phase sound node.own after ∧
        interrupt.IsFaultOf faulty [.close] := by
  refine agree_reaching ({ node with phase := .closed }, engine)
    (agree_set_phase .closed rfl) fun _ => ?_
  refine agree_on_input (agree_weaken (lawful.close_active kept.1 kept.2 present) ?_ ?_)
  · exact fun _ after ends => ⟨ends.1, ends.2, rfl, rfl⟩
  · exact fun _ after ends => ⟨⟨ends.1, ends.2.1, rfl, rfl⟩, ends.2.2⟩

/-- Closing after a failure never fails itself. -/
theorem abort_agrees (kept : Kept faulty sound (node.input, engine))
    (present : right.phase node.input ≠ .destroyed) :
    AgreeFrom (node, engine) (abort left) (abort right)
      (fun _ after => Ended faulty right.phase sound node.own after) fun _ _ => False := by
  apply agree_then (fun _ after => Kept faulty sound (after.1.input, after.2) ∧
    right.phase after.1.input = .closed ∧ after.1.own = node.own)
  · refine agree_attempt (agree_on_input
      (agree_weaken (lawful.close_active kept.1 kept.2 present) ?_ ?_))
    · exact fun _ after ends => ⟨ends.1, ends.2, rfl⟩
    · intro interrupt after ends
      obtain ⟨kept, closed, call, _, _, rfl⟩ := ends
      exact ⟨kept, closed, rfl⟩
  · intro _ pair ends
    obtain ⟨reached, last⟩ := pair
    obtain ⟨kept, closed, same⟩ := ends
    exact agree_set_phase .closed ⟨kept, closed, rfl, same⟩

theorem pull_agrees (alive : Alive faulty right.phase sound suits (node, engine)) :
    AgreeFrom (node, engine) (pull left) (pull right)
      (fun _ after => Alive faulty right.phase sound suits after ∧
        after.1.phase = node.phase ∧ after.1.own = node.own)
      fun interrupt after => (Alive faulty right.phase sound suits after ∧
        after.1.phase = node.phase ∧ after.1.own = node.own) ∧
        interrupt.isRefusal = false := by
  apply CursorAction.agree_state
  rw [lawful.phase]
  split
  next active =>
    have nodeActive : node.phase.isActive = true := by
      cases idle : node.phase.isActive with
      | true => rfl
      | false =>
          have closed := Phase.closed_of_idle idle alive.2.1
          rw [alive.1.closed closed] at active
          cases active
    refine agree_on_input (agree_weaken (lawful.next alive.1.input alive.2.2 active) ?_ ?_)
    · intro _ after ends
      obtain ⟨kept, present⟩ := ends
      exact ⟨alive_of_active kept present nodeActive alive.1.own, rfl, rfl⟩
    · intro _ after ends
      obtain ⟨kept, present, calm⟩ := ends
      exact ⟨⟨alive_of_active kept present nodeActive alive.1.own, rfl, rfl⟩, calm⟩
  next idle => exact agree_pure none ⟨alive, rfl, rfl⟩

theorem finish_keeps_alive (alive : Alive faulty right.phase sound suits (node, engine))
    (suitable : suits .closed node.own) :
    AgreeFrom (node, engine) (finish left) (finish right)
      (fun _ after => Alive faulty right.phase sound suits after)
      fun interrupt after => Alive faulty right.phase sound suits after ∧
        interrupt.isRefusal = false := by
  apply agree_weaken
    (finish_agrees lawful ⟨alive.1.input, alive.2.2⟩ alive.input_present)
  · exact fun _ after ended => alive_of_ended suits ended suitable
  · exact fun _ after ended =>
      ⟨alive_of_ended suits ended.1 suitable, Interrupt.refusal_of_fault ended.2⟩

theorem open_pass_agrees (coherent : node.Coherent right.phase sound suits)
    (faults : engine.FaultsWithin faulty) (closed : node.phase = .closed)
    (suitable : suits .opening node.own) :
    AgreeFrom (node, engine) (openPass left) (openPass right)
      (fun _ after => Alive faulty right.phase sound suits after ∧ after.1.phase = .opening)
      fun interrupt after => Kept faulty (Coherent right.phase sound suits) after ∧
        after.1.phase = .closed ∧ interrupt.isRefusal = false := by
  refine Node.agree_past_check (by simp [Call.legalIn, closed]) ?_
  have inputClosed := coherent.closed closed
  apply agree_then (fun _ after => Kept faulty sound (after.1.input, after.2) ∧
    (right.phase after.1.input).isActive = true ∧ after.1.own = node.own)
  · refine agree_on_input (agree_weaken (lawful.openPass coherent.input faults inputClosed) ?_ ?_)
    · exact fun _ after opened => ⟨opened.1, opened.2, rfl⟩
    · intro interrupt after ends
      obtain ⟨kept, stillClosed, calm⟩ := ends
      refine ⟨⟨⟨kept.1, fun _ => stillClosed, ?_, coherent.own⟩, kept.2⟩, closed, calm⟩
      rw [closed, stillClosed]
  · intro _ pair ends
    obtain ⟨reached, last⟩ := pair
    obtain ⟨kept, active, same⟩ := ends
    refine agree_set_phase .opening ⟨?_, rfl⟩
    exact alive_of_active kept (Phase.present_of_active active) rfl (by rw [same]; exact suitable)

theorem close_agrees (coherent : node.Coherent right.phase sound suits)
    (faults : engine.FaultsWithin faulty) (active : node.phase.isActive = true) :
    AgreeFrom (node, engine) (close left) (close right)
      (fun _ after => Ended faulty right.phase sound node.own after)
      fun interrupt after => Ended faulty right.phase sound node.own after ∧
        interrupt.IsFaultOf faulty [.close] := by
  refine Node.agree_past_check (by simp [Call.legalIn, active]) ?_
  apply finish_agrees lawful ⟨coherent.input, faults⟩
  intro gone
  exact Phase.present_of_active active (coherent.destroyed.mpr gone)

/-- The last steps of a destruction: the input is destroyed in any case, and the failure to close
is the one that is told. -/
theorem destroy_rest_agrees {closed : Except QueryError Unit}
    (kept : Kept faulty sound (node.input, engine)) (suitable : suits .destroyed node.own)
    (fault : ∀ error, closed = .error error →
      (Interrupt.failed error).IsFaultOf faulty [.close, .destroy]) :
    AgreeFrom (node, engine)
      (do
        let destroyed ← (onInput left.destroyOnce).attempt
        setPhase .destroyed
        Action.ofExcept closed
        Action.ofExcept destroyed)
      (do
        let destroyed ← (onInput right.destroyOnce).attempt
        setPhase .destroyed
        Action.ofExcept closed
        Action.ofExcept destroyed)
      (fun _ after => Kept faulty (Coherent right.phase sound suits) after ∧
        after.1.phase = .destroyed)
      fun interrupt after => Kept faulty (Coherent right.phase sound suits) after ∧
        after.1.phase = .destroyed ∧ interrupt.IsFaultOf faulty [.close, .destroy] := by
  apply agree_then (fun destroyed after =>
    (Kept faulty sound (after.1.input, after.2) ∧ right.phase after.1.input = .destroyed ∧
      after.1.own = node.own) ∧
    ∀ error, destroyed = .error error →
      (Interrupt.failed error).IsFaultOf faulty [.close, .destroy])
  · refine agree_attempt (agree_on_input (agree_weaken (lawful.destroy_once kept.1 kept.2) ?_ ?_))
    · exact fun _ after ends => ⟨⟨ends.1, ends.2, rfl⟩, fun _ impossible => by cases impossible⟩
    · intro interrupt after meets
      obtain ⟨kept, gone, call, member, admitted, rfl⟩ := meets
      refine ⟨⟨kept, gone, rfl⟩, ?_⟩
      intro error same
      cases same
      exact ⟨call, member, admitted, rfl⟩
  intro destroyed pair meets
  obtain ⟨reached, last⟩ := pair
  obtain ⟨⟨kept, gone, same⟩, told⟩ := meets
  apply agree_then (fun _ after =>
    Kept faulty (Coherent right.phase sound suits) after ∧ after.1.phase = .destroyed)
  · refine agree_set_phase .destroyed ⟨⟨⟨kept.1, ?_, ?_, ?_⟩, kept.2⟩, rfl⟩
    · exact fun impossible => by cases impossible
    · exact ⟨fun _ => gone, fun _ => rfl⟩
    · change suits .destroyed reached.own
      rw [same]
      exact suitable
  · intro _ after ends
    apply agree_then (fun _ reached => reached = after)
      (agree_of_except closed (fun _ _ => rfl) fun error same => ⟨ends.1, ends.2, fault error same⟩)
    intro _ _ alike
    subst alike
    exact agree_of_except destroyed (fun _ _ => ends) fun error same =>
      ⟨ends.1, ends.2, told error same⟩

theorem destroy_agrees (coherent : node.Coherent right.phase sound suits)
    (faults : engine.FaultsWithin faulty) (present : node.phase ≠ .destroyed)
    (suitable : suits .destroyed node.own) :
    AgreeFrom (node, engine) (destroy left) (destroy right)
      (fun _ after => Kept faulty (Coherent right.phase sound suits) after ∧
        after.1.phase = .destroyed)
      fun interrupt after => Kept faulty (Coherent right.phase sound suits) after ∧
        after.1.phase = .destroyed ∧ interrupt.IsFaultOf faulty [.close, .destroy] := by
  have inputPresent : right.phase node.input ≠ .destroyed :=
    fun gone => present (coherent.destroyed.mpr gone)
  refine Node.agree_past_check (by simp [Call.legalIn, present]) ?_
  apply CursorAction.agree_state
  dsimp only
  split
  · apply agree_then (fun closed after =>
      (Kept faulty sound (after.1.input, after.2) ∧ after.1.own = node.own) ∧
      ∀ error, closed = .error error →
        (Interrupt.failed error).IsFaultOf faulty [.close, .destroy])
    · refine agree_attempt
        (agree_weaken (finish_agrees lawful ⟨coherent.input, faults⟩ inputPresent) ?_ ?_)
      · exact fun _ after ended =>
          ⟨⟨ended.1, ended.2.2.2⟩, fun _ impossible => by cases impossible⟩
      · intro interrupt after ends
        obtain ⟨ended, fault⟩ := ends
        have told := Interrupt.fault_subset fault [.close, .destroy] (by simp)
        obtain ⟨call, _, _, rfl⟩ := fault
        refine ⟨⟨ended.1, ended.2.2.2⟩, ?_⟩
        intro error same
        cases same
        exact told
    · intro closed pair ends
      obtain ⟨reached, last⟩ := pair
      obtain ⟨⟨kept, same⟩, fault⟩ := ends
      exact destroy_rest_agrees lawful kept (by rw [same]; exact suitable) fault
  · apply agree_then (fun closed after => closed = .ok () ∧ after = (node, engine))
      (agree_pure _ ⟨rfl, rfl⟩)
    intro _ _ ends
    obtain ⟨rfl, rfl⟩ := ends
    exact destroy_rest_agrees lawful ⟨coherent.input, faults⟩ suitable
      fun _ impossible => by cases impossible

omit lawful in
/-- A call that the cursor passes on leaves it coherent when the phase of its input is kept. -/
theorem passed_on_agrees {result : Type} {call : Call} {kind : LeafCall}
    {first second : CursorAction input result}
    (coherent : node.Coherent right.phase sound suits) (legal : call.legalIn node.phase = true)
    (passed : AgreeFrom (node.input, engine) first second
      (fun _ after => Kept faulty sound after ∧ right.phase after.1 = right.phase node.input)
      fun interrupt after => Kept faulty sound after ∧
        right.phase after.1 = right.phase node.input ∧ interrupt.IsFaultOf faulty [kind]) :
    AgreeFrom (node, engine)
      (do
        check call
        onInput first)
      (do
        check call
        onInput second)
      (fun _ after => Kept faulty (Coherent right.phase sound suits) after ∧
        after.1.phase = node.phase)
      fun interrupt after => Kept faulty (Coherent right.phase sound suits) after ∧
        after.1.phase = node.phase ∧ interrupt.IsFaultOf faulty [kind] := by
  have still : ∀ after : input × Engine, Kept faulty sound after →
      right.phase after.1 = right.phase node.input →
      Kept faulty (Coherent right.phase sound suits) ({ node with input := after.1 }, after.2) := by
    intro after kept same
    refine ⟨⟨kept.1, fun closed => ?_, ?_, coherent.own⟩, kept.2⟩
    · exact same.trans (coherent.closed closed)
    · exact coherent.destroyed.trans (by rw [same])
  refine Node.agree_past_check (by simp [legal]) ?_
  refine agree_on_input (agree_weaken passed ?_ ?_)
  · exact fun _ after ends => ⟨still after ends.1 ends.2, rfl⟩
  · exact fun _ after ends => ⟨still after ends.1 ends.2.1, rfl, ends.2.2⟩

theorem open_bindings_agrees (coherent : node.Coherent right.phase sound suits)
    (faults : engine.FaultsWithin faulty) (present : node.phase ≠ .destroyed) :
    AgreeFrom (node, engine) (openBindings left) (openBindings right)
      (fun _ after => Kept faulty (Coherent right.phase sound suits) after ∧
        after.1.phase = node.phase)
      fun interrupt after => Kept faulty (Coherent right.phase sound suits) after ∧
        after.1.phase = node.phase ∧ interrupt.IsFaultOf faulty [.openBindings] :=
  passed_on_agrees coherent (by simp [Call.legalIn, present])
    (lawful.openBindings coherent.input faults fun gone => present (coherent.destroyed.mpr gone))

theorem close_bindings_agrees (coherent : node.Coherent right.phase sound suits)
    (faults : engine.FaultsWithin faulty) (present : node.phase ≠ .destroyed) :
    AgreeFrom (node, engine) (closeBindings left) (closeBindings right)
      (fun _ after => Kept faulty (Coherent right.phase sound suits) after ∧
        after.1.phase = node.phase)
      fun interrupt after => Kept faulty (Coherent right.phase sound suits) after ∧
        after.1.phase = node.phase ∧ interrupt.IsFaultOf faulty [.closeBindings] :=
  passed_on_agrees coherent (by simp [Call.legalIn, present])
    (lawful.closeBindings coherent.input faults fun gone => present (coherent.destroyed.mpr gone))

theorem next_bindings_agrees (coherent : node.Coherent right.phase sound suits)
    (faults : engine.FaultsWithin faulty) (closed : node.phase = .closed) :
    AgreeFrom (node, engine) (nextBindings left) (nextBindings right)
      (fun _ after => Kept faulty (Coherent right.phase sound suits) after ∧
        after.1.phase = .closed)
      fun interrupt after => Kept faulty (Coherent right.phase sound suits) after ∧
        after.1.phase = .closed ∧ interrupt.IsFaultOf faulty [.nextBindings] := by
  have inputClosed := coherent.closed closed
  refine Node.agree_past_check (by simp [Call.legalIn, closed]) ?_
  have still : ∀ after : input × Engine, Kept faulty sound after →
      right.phase after.1 = .closed → ∀ bindings,
      Kept faulty (Coherent right.phase sound suits)
        ({ node with input := after.1, bindings }, after.2) := by
    intro after kept same bindings
    refine ⟨⟨kept.1, fun _ => same, ?_, coherent.own⟩, kept.2⟩
    rw [closed, same]
  apply agree_then (fun _ after => Kept faulty sound (after.1.input, after.2) ∧
    right.phase after.1.input = .closed ∧ after.1 = { node with input := after.1.input })
  · refine agree_on_input
      (agree_weaken (lawful.nextBindings coherent.input faults inputClosed) ?_ ?_)
    · exact fun _ after ends => ⟨ends.1, ends.2, rfl⟩
    · exact fun _ after ends => ⟨still after ends.1 ends.2.1 node.bindings, closed, ends.2.2⟩
  · intro bindings? pair ends
    obtain ⟨reached, last⟩ := pair
    obtain ⟨kept, same, shape⟩ := ends
    apply agree_then (fun _ after =>
      Kept faulty (Coherent right.phase sound suits) after ∧ after.1.phase = .closed)
    · refine CursorAction.agree_change _ ⟨?_, ?_⟩
      · rw [shape]
        exact still (reached.input, last) kept same _
      · rw [shape]
        exact closed
    · exact fun _ after ends => agree_pure _ ends

omit lawful in
theorem cancel_bindings_eq (inner : Protocol input) (bindings : Bindings) :
    cancelBindings inner bindings (node, engine) =
      ({ node with
          input := (inner.cancelBindings bindings (node.input, engine)).1
          phase := if node.phase = .destroyed then .destroyed else .closed },
        (inner.cancelBindings bindings (node.input, engine)).2) :=
  rfl

theorem cancel_bindings_agrees (bindings : Bindings)
    (coherent : node.Coherent right.phase sound suits) (faults : engine.FaultsWithin faulty)
    (suitable : suits (if node.phase = .destroyed then .destroyed else .closed) node.own) :
    cancelBindings left bindings (node, engine) = cancelBindings right bindings (node, engine) ∧
      Kept faulty (Coherent right.phase sound suits)
        (cancelBindings right bindings (node, engine)) ∧
      (cancelBindings right bindings (node, engine)).1.phase =
        if node.phase = .destroyed then .destroyed else .closed := by
  obtain ⟨same, kept, phase⟩ := lawful.cancelBindings bindings coherent.input faults
  rw [cancel_bindings_eq, cancel_bindings_eq, same]
  refine ⟨rfl, ⟨⟨kept.1, ?_, ?_, suitable⟩, kept.2⟩, rfl⟩
  · dsimp only
    rw [phase]
    split
    · exact fun impossible => by cases impossible
    next present =>
      have inputPresent : right.phase node.input ≠ .destroyed :=
        fun gone => present (coherent.destroyed.mpr gone)
      simp [inputPresent]
  · dsimp only
    rw [phase]
    simp only [coherent.destroyed]

/-- A cursor is lawful if its way of making rows keeps it alive and refuses nothing. -/
theorem protocol_lawful (context : Context) (tap : String)
    {first second : CursorAction (Node own input) (Option Row)}
    (advances : ∀ {node engine},
      Alive faulty right.phase sound (fun _ _ => True) (node, engine) →
      node.phase.isActive = true →
      AgreeFrom (node, engine) first second
        (fun _ after => Alive faulty right.phase sound (fun _ _ => True) after)
        fun interrupt after => Alive faulty right.phase sound (fun _ _ => True) after ∧
          interrupt.isRefusal = false) :
    (protocol context tap left first).Lawful faulty (Coherent right.phase sound fun _ _ => True)
      (protocol context tap right second) where
  phase := rfl
  remaining := by
    change (fun node : Node own input => left.remaining node.input) = _
    rw [lawful.remaining]
    rfl
  openPass := by
    intro node engine coherent faults closed
    refine agree_weaken (open_pass_agrees lawful coherent faults closed trivial) ?_ fun _ _ => id
    intro _ after ends
    obtain ⟨alive, opening⟩ := ends
    refine ⟨⟨alive.1, alive.2.2⟩, ?_⟩
    change after.1.phase.isActive = true
    rw [opening]
    rfl
  next := by
    intro node engine coherent faults active
    have alive : Alive faulty right.phase sound (fun _ _ => True)
        (node, { engine with journal := engine.journal.tap context tap }) :=
      ⟨coherent, Phase.present_of_active active, faults⟩
    refine Node.agree_past_check active ?_
    refine agree_reaching (node, { engine with journal := engine.journal.tap context tap })
      (CursorAction.agree_tap context tap rfl) fun _ => ?_
    refine agree_then (fun _ after =>
      Alive faulty right.phase sound (fun _ _ => True) after)
      (agree_on_failure (agree_weaken (advances alive active) (fun _ _ => id) ?_)) ?_
    · rintro (error | _) ⟨reached, last⟩ ⟨alive, calm⟩
      · apply agree_weaken
          (abort_agrees lawful ⟨alive.1.input, alive.2.2⟩ alive.input_present)
        · intro _ after ended
          have closed := alive_of_ended (fun _ _ => True) ended trivial
          exact ⟨⟨closed.1, closed.2.2⟩, closed.2.1, calm⟩
        · exact fun _ _ impossible => impossible.elim
      · exact ⟨⟨alive.1, alive.2.2⟩, alive.2.1, calm⟩
    · rintro (_ | row) ⟨reached, last⟩ alive
      · exact agree_pure none ⟨⟨alive.1, alive.2.2⟩, alive.2.1⟩
      · refine agree_then (fun _ after =>
          Alive faulty right.phase sound (fun _ _ => True) after) (agree_set_phase .running ?_) ?_
        · exact alive_of_active ⟨alive.1.input, alive.2.2⟩ alive.input_present rfl trivial
        · exact fun _ after alive => agree_pure _ ⟨⟨alive.1, alive.2.2⟩, alive.2.1⟩
  close := by
    intro node engine coherent faults active
    apply agree_weaken (close_agrees lawful coherent faults active)
    · intro _ after ended
      have alive := alive_of_ended (fun _ _ => True) ended trivial
      exact ⟨⟨alive.1, alive.2.2⟩, ended.2.2.1⟩
    · intro _ after ended
      have alive := alive_of_ended (fun _ _ => True) ended.1 trivial
      exact ⟨⟨alive.1, alive.2.2⟩, ended.1.2.2.1, ended.2⟩
  destroy := fun coherent faults present =>
    destroy_agrees lawful coherent faults present trivial
  openBindings := fun coherent faults present =>
    open_bindings_agrees lawful coherent faults present
  nextBindings := fun coherent faults closed =>
    next_bindings_agrees lawful coherent faults closed
  closeBindings := fun coherent faults present =>
    close_bindings_agrees lawful coherent faults present
  cancelBindings := fun bindings coherent faults =>
    cancel_bindings_agrees lawful bindings coherent faults trivial

end Steps

end Node

end QueryExec
