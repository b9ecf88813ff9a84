import QueryExec.Proofs.Cursor.Operators

/-!
The aggregation over a lawful input is lawful. It is the one operator that keeps a row for itself:
a row is held only while a pass is under way and the last row was not given yet. A close whose
input fails leaves the row behind, so a closed aggregation holds none only where no close can
fail.
-/

namespace QueryExec

open QueryExec.Action

namespace Grouping

variable {input : Type} {faulty : LeafCall → Prop} {sound : input → Prop}
  {left right : Protocol input} {node : State input} {engine : Engine} {plan : GroupingPlan}

/-- In which phases no row is held. -/
def Suits (faulty : LeafCall → Prop) (phase : Phase) (state : GroupingState) : Prop :=
  phase = .destroyed ∨ phase = .closing ∨ phase = .closed ∧ ¬faulty .close →
    state.lookahead? = none

abbrev Alive (faulty : LeafCall → Prop) (sound : input → Prop) (inner : Protocol input)
    (after : State input × Engine) : Prop :=
  Node.Alive faulty inner.phase sound (Suits faulty) after

/-- A group is open or about to be. -/
def Collecting (phase : Phase) : Prop :=
  phase = .opening ∨ phase = .running

theorem suits_of_collecting {phase : Phase} (collecting : Collecting phase)
    (state : GroupingState) : Suits faulty phase state := by
  rcases collecting with rfl | rfl <;> simp [Suits]

theorem suits_of_empty {state : GroupingState} (empty : state.lookahead? = none) (phase : Phase) :
    Suits faulty phase state :=
  fun _ => empty

theorem own_alive {state : GroupingState} (alive : Alive faulty sound right (node, engine))
    (suitable : Suits faulty node.phase state) :
    Alive faulty sound right ({ node with own := state }, engine) :=
  ⟨⟨alive.1.input, alive.1.closed, alive.1.destroyed, suitable⟩, alive.2⟩

theorem phase_alive (phase : Phase) (alive : Alive faulty sound right (node, engine))
    (active : phase.isActive = true) (suitable : Suits faulty phase node.own) :
    Alive faulty sound right ({ node with phase }, engine) :=
  Node.alive_of_active ⟨alive.1.input, alive.2.2⟩ alive.input_present active suitable

theorem same_key_unrefused (catalog : Catalog) (row : Row) (column : Nat) (key : List Datum)
    (types : List ColumnType) : Unrefused (sameKey catalog row column key types) := by
  induction key generalizing column types with
  | nil => exact unrefused_pure true
  | cons current key induction =>
      cases types with
      | nil => exact unrefused_pure true
      | cons type types =>
          apply unrefused_bind (row.read_unrefused column)
          intro value
          split
          · exact induction (column + 1) types
          · exact unrefused_pure false

theorem absorb_from_unrefused (row : Row) (column : Nat) (accumulators : List Accumulator)
    (journal : Journal) {interrupt : Interrupt}
    (stopped : (absorbFrom row column accumulators journal).1 = .error interrupt) :
    interrupt.isRefusal = false := by
  induction accumulators generalizing column journal with
  | nil => cases stopped
  | cons accumulator rest induction =>
      have unrefused := (row.read_unrefused column journal).2
      unfold absorbFrom at stopped
      revert unrefused stopped
      rcases (row.read column).run journal with ⟨failure | value, after⟩
      · intro calm stopped
        cases stopped
        exact calm
      · intro _
        dsimp only
        cases accumulator.input value with
        | error cause =>
            intro stopped
            cases stopped
            rfl
        | ok next => exact fun stopped => induction (column + 1) after stopped

theorem absorb_agrees (keys : Nat) (row : Row) (alive : Alive faulty sound right (node, engine))
    (collecting : Collecting node.phase) :
    EndsIn (node, engine) (absorb keys row)
      (fun _ after => Alive faulty sound right after ∧ after.1.phase = node.phase)
      fun interrupt after => Alive faulty sound right after ∧ interrupt.isRefusal = false := by
  have calm : ∀ interrupt,
      (absorbFrom row keys node.own.accumulators engine.journal).1 = .error interrupt →
      interrupt.isRefusal = false :=
    fun interrupt => absorb_from_unrefused row keys node.own.accumulators engine.journal
  refine ⟨rfl, ?_⟩
  change Meets _ _
    ((absorbFrom row keys node.own.accumulators engine.journal).1,
      ({ node with own := { node.own with
          accumulators := (absorbFrom row keys node.own.accumulators engine.journal).2.1 } },
        { engine with
          journal := (absorbFrom row keys node.own.accumulators engine.journal).2.2 }))
  have kept := own_alive alive (suits_of_collecting collecting { node.own with
    accumulators := (absorbFrom row keys node.own.accumulators engine.journal).2.1 })
  revert calm kept
  rcases absorbFrom row keys node.own.accumulators engine.journal with ⟨failure | value, rest⟩
  · exact fun calm kept => ⟨⟨kept.1, kept.2⟩, calm failure rfl⟩
  · exact fun _ kept => ⟨⟨kept.1, kept.2⟩, rfl⟩

theorem start_group_agrees (row : Row) (alive : Alive faulty sound right (node, engine))
    (collecting : Collecting node.phase) :
    EndsIn (node, engine) (startGroup plan row)
      (fun _ after => Alive faulty sound right after ∧ after.1.phase = node.phase)
      fun interrupt after => Alive faulty sound right after ∧ interrupt.isRefusal = false := by
  apply agree_then (fun _ after =>
    Alive faulty sound right after ∧ after.1.phase = node.phase)
    (Node.agree_change_own _ ⟨own_alive alive (suits_of_collecting collecting _), rfl⟩)
  intro _ after ends
  obtain ⟨cleared, engine⟩ := after
  obtain ⟨alive, same⟩ := ends
  rw [← same] at collecting ⊢
  apply agree_then (fun _ after =>
    Alive faulty sound right after ∧ after.1 = cleared)
    (agree_weaken
      (Node.journal_agrees (unrefused_map row.read_unrefused (List.range plan.keys)) alive)
      (fun _ _ => id) fun _ _ stopped => ⟨stopped.1.1, stopped.2⟩)
  intro key after ends
  obtain ⟨cleared, engine⟩ := after
  obtain ⟨still, rfl⟩ := ends
  apply agree_then (fun _ after =>
    Alive faulty sound right after ∧ after.1.phase = cleared.phase)
    (Node.agree_change_own _ ⟨own_alive still (suits_of_collecting collecting _), rfl⟩)
  intro _ after ends
  obtain ⟨started, engine⟩ := after
  obtain ⟨alive, same⟩ := ends
  rw [← same] at collecting ⊢
  exact absorb_agrees plan.keys row alive collecting

theorem new_row_alive (type : RowType) (values : List Datum)
    (alive : Alive faulty sound right (node, engine)) :
    EndsIn (node, engine) (CursorAction.inEngine (Engine.newRow type values))
      (fun _ after => Alive faulty sound right after ∧ after.1 = node)
      fun interrupt after => Alive faulty sound right after ∧ interrupt.isRefusal = false := by
  refine CursorAction.agree_in_engine (agree_given (Engine.new_row_agrees type values) ?_)
  intro _ _ ends
  obtain ⟨rfl, rfl⟩ := ends
  exact ⟨alive, rfl⟩

/-- Giving the row of the open group touches neither the phase nor the held row. -/
theorem emit_group_agrees (alive : Alive faulty sound right (node, engine)) :
    EndsIn (node, engine) (emitGroup plan)
      (fun _ after => Alive faulty sound right after ∧ after.1.phase = node.phase)
      fun interrupt after => Alive faulty sound right after ∧ interrupt.isRefusal = false := by
  apply CursorAction.agree_state
  refine agree_then (fun _ after =>
    Alive faulty sound right after ∧ after.1.phase = node.phase)
    (Node.agree_change_own _ ⟨own_alive alive ?_, rfl⟩) ?_
  · exact fun quiet => alive.1.own quiet
  · intro _ after ends
    obtain ⟨emptied, engine⟩ := after
    obtain ⟨alive, same⟩ := ends
    refine agree_weaken (new_row_alive _ _ alive) ?_ fun _ _ => id
    intro _ after ends
    obtain ⟨emptied, engine⟩ := after
    obtain ⟨still, rfl⟩ := ends
    exact ⟨still, same⟩

section OverInput

variable (lawful : left.Lawful faulty sound right)

include lawful

theorem end_of_input_agrees (alive : Alive faulty sound right (node, engine))
    (empty : node.own.lookahead? = none) :
    AgreeFrom (node, engine) (endOfInput plan left) (endOfInput plan right)
      (fun _ after => Alive faulty sound right after)
      fun interrupt after => Alive faulty sound right after ∧ interrupt.isRefusal = false := by
  apply CursorAction.agree_state
  have closing := phase_alive .closing alive rfl (suits_of_empty empty .closing)
  dsimp only
  split
  · apply agree_then (fun _ after => Alive faulty sound right after)
      (Node.agree_set_phase .closing closing)
    intro _ after alive
    obtain ⟨node, engine⟩ := after
    apply agree_bind (agree_weaken (emit_group_agrees alive) (fun _ _ ends => ends.1)
      fun _ _ => id)
    exact fun row after alive => agree_pure (some row) alive
  · split
    · apply agree_then (fun _ after => Alive faulty sound right after)
        (Node.agree_set_phase .closing closing)
      intro _ after alive
      obtain ⟨node, engine⟩ := after
      apply agree_bind (agree_weaken (new_row_alive _ _ alive) (fun _ _ ends => ends.1)
        fun _ _ => id)
      exact fun row after alive => agree_pure (some row) alive
    · exact agree_bind (Node.finish_keeps_alive lawful alive (suits_of_empty empty .closed))
        fun _ after alive => agree_pure none alive

/-- When no row can be taken none is held. -/
theorem take_row_agrees (alive : Alive faulty sound right (node, engine)) :
    AgreeFrom (node, engine) (takeRow left) (takeRow right)
      (fun row? after => (Alive faulty sound right after ∧ after.1.phase = node.phase) ∧
        (row? = none → after.1.own.lookahead? = none))
      fun interrupt after => Alive faulty sound right after ∧ interrupt.isRefusal = false := by
  apply CursorAction.agree_state
  dsimp only
  cases held : node.own.lookahead? with
  | some row =>
      apply agree_then (fun _ after =>
        Alive faulty sound right after ∧ after.1.phase = node.phase)
        (Node.agree_change_own _ ⟨own_alive alive (suits_of_empty rfl _), rfl⟩)
      exact fun _ after ends => agree_pure (some row) ⟨ends, fun absent => by cases absent⟩
  | none =>
      apply agree_weaken (Node.pull_agrees lawful alive)
      · intro row? after ends
        obtain ⟨alive, same, kept⟩ := ends
        refine ⟨⟨alive, same⟩, fun _ => ?_⟩
        rw [kept]
        exact held
      · exact fun _ _ stopped => ⟨stopped.1.1, stopped.2⟩

/-- Every turn of the collection starts in a live cursor whose group is open or about to be. -/
theorem collect_agrees (context : Context) (bound : Nat)
    (alive : Alive faulty sound right (node, engine)) (collecting : Collecting node.phase) :
    AgreeFrom (node, engine) (collect context plan left bound) (collect context plan right bound)
      (fun _ after => Alive faulty sound right after)
      fun interrupt after => Alive faulty sound right after ∧ interrupt.isRefusal = false := by
  induction bound generalizing node engine with
  | zero => exact agree_pure none alive
  | succ bound induction =>
      apply agree_bind (take_row_agrees lawful alive)
      rintro (_ | row) ⟨taken, engine⟩ ⟨⟨alive, same⟩, empty⟩
      · exact end_of_input_agrees lawful alive (empty rfl)
      rw [← same] at collecting
      dsimp only
      split
      · exact agree_pure (some row) alive
      have begun : ∀ state, Suits faulty taken.phase state := suits_of_collecting collecting
      apply agree_then (fun _ after =>
        Alive faulty sound right after ∧ after.1.phase = taken.phase)
        (Node.agree_change_own _ ⟨own_alive alive (begun _), rfl⟩)
      intro _ after ends
      obtain ⟨seen, engine⟩ := after
      obtain ⟨alive, same⟩ := ends
      rw [← same] at collecting
      apply CursorAction.agree_state
      dsimp only
      split
      · apply CursorAction.agree_state
        apply agree_then (fun _ after =>
          Alive faulty sound right after ∧ after.1 = seen)
          (agree_weaken (Node.journal_agrees (same_key_unrefused _ row 0 seen.own.key _) alive)
            (fun _ _ => id) fun _ _ stopped => ⟨stopped.1.1, stopped.2⟩)
        intro equal after ends
        obtain ⟨seen, engine⟩ := after
        obtain ⟨still, rfl⟩ := ends
        split
        · apply agree_bind (absorb_agrees plan.keys row still collecting)
          intro _ after ends
          obtain ⟨node, engine⟩ := after
          obtain ⟨alive, same⟩ := ends
          exact induction alive (by rw [same]; exact collecting)
        · apply agree_then (fun _ after =>
            Alive faulty sound right after ∧ Collecting after.1.phase)
            (Node.agree_change_own _
              ⟨own_alive still (suits_of_collecting collecting _), collecting⟩)
          intro _ after ends
          obtain ⟨holding, engine⟩ := after
          obtain ⟨alive, collecting⟩ := ends
          apply agree_bind (emit_group_agrees alive)
          intro output after ends
          obtain ⟨emitted, engine⟩ := after
          obtain ⟨alive, _⟩ := ends
          refine agree_then (fun _ after => Alive faulty sound right after)
            (Node.agree_set_phase .opening (phase_alive .opening alive rfl ?_))
            fun _ after alive => agree_pure (some output) alive
          exact suits_of_collecting (.inl rfl) _
      · apply agree_bind (start_group_agrees row alive collecting)
        intro _ after ends
        obtain ⟨started, engine⟩ := after
        obtain ⟨alive, _⟩ := ends
        refine agree_then (fun _ after =>
          Alive faulty sound right after ∧ Collecting after.1.phase)
          (Node.agree_set_phase .running ⟨phase_alive .running alive rfl ?_, .inr rfl⟩) ?_
        · exact suits_of_collecting (.inr rfl) _
        · intro _ after ends
          obtain ⟨node, engine⟩ := after
          obtain ⟨alive, collecting⟩ := ends
          exact induction alive collecting

theorem advance_agrees (context : Context) (alive : Alive faulty sound right (node, engine))
    (active : node.phase.isActive = true) :
    AgreeFrom (node, engine) (advance context plan left) (advance context plan right)
      (fun _ after => Alive faulty sound right after)
      fun interrupt after => Alive faulty sound right after ∧ interrupt.isRefusal = false := by
  apply agree_then (fun _ after => Alive faulty sound right after ∧ after.1 = node)
    (agree_weaken (Node.check_cancelled_agrees context alive) (fun _ _ => id)
      fun _ _ stopped => ⟨stopped.1.1, stopped.2⟩)
  intro _ after ends
  obtain ⟨node, engine⟩ := after
  obtain ⟨still, rfl⟩ := ends
  apply CursorAction.agree_state
  dsimp only
  split
  next closing =>
    exact agree_bind (Node.finish_keeps_alive lawful still
        (suits_of_empty (still.1.own (.inr (.inl closing))) .closed))
      fun _ after alive => agree_pure none alive
  next =>
    have supplies : supply left = supply right := by
      unfold supply
      rw [lawful.remaining]
    rw [supplies]
    apply collect_agrees lawful context _ still
    revert active
    cases phase : node.phase <;> simp_all [Phase.isActive, Collecting]

theorem open_pass_agrees (context : Context)
    (coherent : node.Coherent right.phase sound (Suits faulty))
    (faults : engine.FaultsWithin faulty) (closed : node.phase = .closed) :
    AgreeFrom (node, engine) (openPass context left) (openPass context right)
      (fun _ after => Kept faulty (Node.Coherent right.phase sound (Suits faulty)) after ∧
        after.1.phase.isActive = true)
      fun interrupt after =>
        Kept faulty (Node.Coherent right.phase sound (Suits faulty)) after ∧
          after.1.phase = .closed ∧ interrupt.isRefusal = false := by
  refine agree_reaching
    (node, { engine with journal := engine.journal.tap context "aggregate.open" })
    (CursorAction.agree_tap context _ rfl) fun _ => ?_
  refine agree_bind (Node.open_pass_agrees lawful coherent faults closed
    (suits_of_collecting (.inl rfl) _)) ?_
  intro _ after ends
  obtain ⟨opened, engine⟩ := after
  obtain ⟨alive, opening⟩ := ends
  have active : opened.phase.isActive = true := by
    change opened.phase = .opening at opening
    rw [opening]
    rfl
  refine Node.agree_change_own _ ⟨?_, active⟩
  have reset := own_alive alive (suits_of_collecting (.inl opening)
    { opened.own with
      key := []
      sawInput := false
      accumulators := opened.own.accumulators.map Accumulator.reset })
  exact ⟨reset.1, reset.2.2⟩

theorem next_agrees (context : Context)
    (coherent : node.Coherent right.phase sound (Suits faulty))
    (faults : engine.FaultsWithin faulty) (active : node.phase.isActive = true) :
    AgreeFrom (node, engine) (next context plan left) (next context plan right)
      (fun _ after => Kept faulty (Node.Coherent right.phase sound (Suits faulty)) after ∧
        after.1.phase ≠ .destroyed)
      fun interrupt after =>
        Kept faulty (Node.Coherent right.phase sound (Suits faulty)) after ∧
          after.1.phase ≠ .destroyed ∧ interrupt.isRefusal = false := by
  refine Node.agree_past_check (by simp [Call.legalIn, active]) ?_
  refine agree_reaching
    (node, { engine with journal := engine.journal.tap context "aggregate.next" })
    (CursorAction.agree_tap context _ rfl) fun _ => ?_
  have alive : Alive faulty sound right
      (node, { engine with journal := engine.journal.tap context "aggregate.next" }) :=
    ⟨coherent, Phase.present_of_active active, faults⟩
  refine agree_on_failure (agree_weaken (advance_agrees lawful context alive active) ?_ ?_)
  · exact fun _ _ alive => ⟨⟨alive.1, alive.2.2⟩, alive.2.1⟩
  · rintro (error | _) ⟨failed, engine⟩ ⟨alive, calm⟩
    · refine agree_reaching
        ({ failed with own := { failed.own with lookahead? := none, key := [] } }, engine)
        (Node.agree_change_own _ rfl) fun _ => ?_
      refine agree_given (Node.abort_agrees lawful ⟨alive.1.input, alive.2.2⟩
        alive.input_present) ?_
      intro _ after ended
      have closed := Node.alive_of_ended (Suits faulty) ended (suits_of_empty rfl .closed)
      exact ⟨⟨closed.1, closed.2.2⟩, closed.2.1, calm⟩
    · exact ⟨⟨alive.1, alive.2.2⟩, alive.2.1, calm⟩

/-- The held row is forgotten after the input closed. When the input fails to close it stays, and
then a close was such as can fail. -/
theorem close_agrees (coherent : node.Coherent right.phase sound (Suits faulty))
    (faults : engine.FaultsWithin faulty) (active : node.phase.isActive = true) :
    AgreeFrom (node, engine) (close left) (close right)
      (fun _ after => Kept faulty (Node.Coherent right.phase sound (Suits faulty)) after ∧
        after.1.phase = .closed)
      fun interrupt after =>
        Kept faulty (Node.Coherent right.phase sound (Suits faulty)) after ∧
          after.1.phase = .closed ∧ interrupt.IsFaultOf faulty [.close] := by
  refine agree_bind (agree_weaken (Node.close_agrees lawful coherent faults active)
    (fun _ _ => id) ?_) ?_
  · intro interrupt after ends
    obtain ⟨ended, call, member, admitted, same⟩ := ends
    have isClose : call = .close := by simpa using member
    subst isClose
    have alive := Node.alive_of_ended (Suits faulty) ended (by simp [Suits, admitted])
    exact ⟨⟨alive.1, alive.2.2⟩, ended.2.2.1, _, member, admitted, same⟩
  · intro _ reached ends
    obtain ⟨closed, engine⟩ := reached
    obtain ⟨kept, inputClosed, phase, _⟩ := ends
    have ended : Node.Ended faulty right.phase sound
        { closed.own with lookahead? := none, key := [] }
        ({ closed with own := { closed.own with lookahead? := none, key := [] } }, engine) :=
      ⟨kept, inputClosed, phase, rfl⟩
    have alive := Node.alive_of_ended (Suits faulty) ended (suits_of_empty rfl .closed)
    exact Node.agree_change_own _ ⟨⟨alive.1, alive.2.2⟩, phase⟩

theorem protocol_lawful (context : Context) (plan : GroupingPlan) :
    (protocol context plan left).Lawful faulty (Node.Coherent right.phase sound (Suits faulty))
      (protocol context plan right) where
  phase := rfl
  remaining := by
    change remaining left = remaining right
    unfold remaining supply
    rw [lawful.remaining]
  openPass := fun coherent faults closed =>
    open_pass_agrees lawful context coherent faults closed
  next := fun coherent faults active => next_agrees lawful context coherent faults active
  close := fun coherent faults active => close_agrees lawful coherent faults active
  destroy := by
    intro node engine coherent faults present
    refine agree_reaching ({ node with own := { node.own with lookahead? := none } }, engine)
      (Node.agree_change_own _ rfl) fun _ => ?_
    exact Node.destroy_agrees lawful
      ⟨coherent.input, coherent.closed, coherent.destroyed, suits_of_empty rfl _⟩ faults present
      (suits_of_empty rfl _)
  openBindings := fun coherent faults present =>
    Node.open_bindings_agrees lawful coherent faults present
  nextBindings := fun coherent faults closed =>
    Node.next_bindings_agrees lawful coherent faults closed
  closeBindings := fun coherent faults present =>
    Node.close_bindings_agrees lawful coherent faults present
  cancelBindings := fun bindings coherent faults =>
    Node.cancel_bindings_agrees lawful bindings
      ⟨coherent.input, coherent.closed, coherent.destroyed, suits_of_empty rfl _⟩ faults
      (suits_of_empty rfl _)

end OverInput

end Grouping

end QueryExec
