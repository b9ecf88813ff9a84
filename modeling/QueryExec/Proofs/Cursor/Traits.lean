import QueryExec.Proofs.Cursor.Links
import QueryExec.Proofs.Cursor.Grouped
import QueryExec.Proofs.Cursor.Production

/-!
What passes leave alone. Whatever happens to a cursor tree, its operators keep the binding that
they were given, its aggregations keep their functions, and only the calls on bindings move the
source of bindings. None of this depends on phases, faults or cancellation, so it is proved with
rules for invariants that hold of every end of a step.
-/

namespace QueryExec

open QueryExec.Action

/-- The step keeps an invariant of the cursor, in whatever engine. -/
abbrev Stays {cursor result : Type} (holds : cursor → Prop)
    (action : CursorAction cursor result) : Prop :=
  Keeps (fun pair => holds pair.1) action

section Rules

variable {cursor result : Type} {holds : cursor → Prop}

theorem stays_change {step : cursor → cursor}
    (keeps : ∀ before, holds before → holds (step before)) :
    Stays holds (CursorAction.change step) :=
  keeps_modify fun start kept => keeps start.1 kept

theorem stays_in_engine (action : Action Engine result) :
    Stays holds (CursorAction.inEngine action) :=
  keeps_of_reaches fun _ kept => kept

theorem stays_in_journal (action : Action Journal result) :
    Stays holds (CursorAction.inJournal action) :=
  stays_in_engine _

theorem stays_close_active {protocol : Protocol cursor} (closes : Stays holds protocol.close) :
    Stays holds protocol.closeActive :=
  keeps_bind keeps_state fun state => by
    split
    · exact closes
    · exact keeps_pure ()

theorem stays_destroy_once {protocol : Protocol cursor} (destroys : Stays holds protocol.destroy) :
    Stays holds protocol.destroyOnce :=
  keeps_bind keeps_state fun state => by
    split
    · exact keeps_pure ()
    · exact destroys

end Rules

/-- Which binding is current and where the source of bindings stands. -/
abbrev Carried (cursor : Type) : Type := Bindings → BindingSource → cursor → Prop

/-- Passes move neither the binding nor the source; the calls on bindings move them as the source
says, on success. -/
structure Protocol.Carries {cursor : Type} (protocol : Protocol cursor)
    (has : Carried cursor) : Prop where
  openPass : ∀ bindings source, Stays (has bindings source) protocol.openPass
  next : ∀ bindings source, Stays (has bindings source) protocol.next
  close : ∀ bindings source, Stays (has bindings source) protocol.close
  destroy : ∀ bindings source, Stays (has bindings source) protocol.destroy
  openBindings : ∀ {bindings source state} engine, has bindings source state →
    EndsIn (state, engine) protocol.openBindings
      (fun _ after => has bindings source.openAll after.1)
      fun _ after => has bindings source after.1
  nextBindings : ∀ {bindings source state} engine, has bindings source state →
    EndsIn (state, engine) protocol.nextBindings
      (fun next? after => next? = source.next.1 ∧
        has (next?.getD bindings) source.next.2 after.1)
      fun _ after => has bindings source after.1
  closeBindings : ∀ {bindings source state} engine, has bindings source state →
    EndsIn (state, engine) protocol.closeBindings
      (fun _ after => has bindings source.close after.1)
      fun _ after => has bindings source after.1
  cancelBindings : ∀ {bindings source state} cancelled engine, has bindings source state →
    has bindings (source.cancel cancelled)
      (protocol.cancelBindings cancelled (state, engine)).1

theorem Protocol.amid_carries {cursor : Type} {protocol : Protocol cursor} {has : Carried cursor}
    (carries : protocol.Carries has) (meanwhile : Journal → Journal) :
    (protocol.amid meanwhile).Carries has where
  openPass := fun bindings source =>
    keeps_bind (stays_in_journal _) fun _ => carries.openPass bindings source
  next := fun bindings source =>
    keeps_bind (stays_in_journal _) fun _ => carries.next bindings source
  close := fun bindings source =>
    keeps_bind (stays_in_journal _) fun _ => carries.close bindings source
  destroy := fun bindings source =>
    keeps_bind (stays_in_journal _) fun _ => carries.destroy bindings source
  openBindings := fun _ holds => agree_interfered (carries.openBindings _ holds)
  nextBindings := fun _ holds => agree_interfered (carries.nextBindings _ holds)
  closeBindings := fun _ holds => agree_interfered (carries.closeBindings _ holds)
  cancelBindings := fun cancelled _ holds => carries.cancelBindings cancelled _ holds

namespace Node

variable {own input result : Type} {suits : own → Prop} {has : Carried input}
  {inner : Protocol input} {bindings : Bindings} {source : BindingSource}

/-- The cursor has the binding that its input has, and what the operator keeps is as it should
be. -/
def Carrying (suits : own → Prop) (has : Carried input) : Carried (Node own input) :=
  fun bindings source node =>
    node.bindings = bindings ∧ suits node.own ∧ has bindings source node.input

theorem stays_on_input {action : CursorAction input result}
    (stays : Stays (has bindings source) action) :
    Stays (Carrying suits has bindings source) (onInput action) := by
  intro pair ends
  obtain ⟨node, engine⟩ := pair
  obtain ⟨same, kept, holds⟩ := ends
  exact agree_on_input (agree_weaken (stays (node.input, engine) holds)
    (fun _ _ holds => ⟨same, kept, holds⟩) fun _ _ holds => ⟨same, kept, holds⟩)

theorem stays_set_phase (phase : Phase) :
    Stays (Carrying suits has bindings source) (setPhase phase) :=
  stays_change fun _ => id

theorem stays_change_own {step : own → own} (keeps : ∀ before, suits before → suits (step before)) :
    Stays (Carrying suits has bindings source) (changeOwn step) :=
  stays_change fun node holds => ⟨holds.1, keeps node.own holds.2.1, holds.2.2⟩

theorem stays_check_call (call : Call) :
    Stays (Carrying suits has bindings source) (check call) :=
  keeps_bind keeps_state fun node => keeps_phase_check call node.phase

section Closing

variable (closes : Stays (has bindings source) inner.close)

include closes

theorem stays_finish : Stays (Carrying suits has bindings source) (finish inner) :=
  keeps_bind (stays_set_phase .closed) fun _ => stays_on_input (stays_close_active closes)

theorem stays_abort : Stays (Carrying suits has bindings source) (abort inner) :=
  keeps_bind (keeps_attempt (stays_on_input (stays_close_active closes)))
    fun _ => stays_set_phase .closed

theorem stays_close : Stays (Carrying suits has bindings source) (close inner) :=
  keeps_bind (stays_check_call .close) fun _ => stays_finish closes

/-- The end of the input, as every operator makes it the end of the pass. -/
theorem stays_ended :
    Stays (Carrying suits has bindings source)
      (do
        finish inner
        pure (none : Option Row)) :=
  keeps_bind (stays_finish closes) fun _ => keeps_pure none

end Closing

section OverInput

variable (carries : inner.Carries has)

include carries

theorem stays_pull : Stays (Carrying suits has bindings source) (pull inner) :=
  keeps_bind keeps_state fun node => by
    split
    · exact stays_on_input (carries.next bindings source)
    · exact keeps_pure none

theorem stays_open_pass :
    Stays (Carrying suits has bindings source) (openPass inner) :=
  keeps_bind (stays_check_call .openPass) fun _ =>
    keeps_bind (stays_on_input (carries.openPass bindings source)) fun _ =>
      stays_set_phase .opening

theorem stays_destroy : Stays (Carrying suits has bindings source) (destroy inner) := by
  have rest : ∀ closed : Except QueryError Unit,
      Stays (Carrying suits has bindings source) (do
        let destroyed ← (onInput inner.destroyOnce).attempt
        setPhase .destroyed
        Action.ofExcept closed
        Action.ofExcept destroyed) := by
    intro closed
    apply keeps_bind (keeps_attempt
      (stays_on_input (stays_destroy_once (carries.destroy bindings source))))
    intro destroyed
    exact keeps_bind (stays_set_phase .destroyed) fun _ =>
      keeps_bind (keeps_of_except closed) fun _ => keeps_of_except destroyed
  apply keeps_bind (stays_check_call .destroy)
  intro _
  apply keeps_bind keeps_state
  intro node
  dsimp only
  split
  · exact keeps_bind (keeps_attempt (stays_finish (carries.close _ _))) rest
  · exact keeps_bind (keeps_pure _) rest

omit carries in
/-- A call on bindings that the cursor passes on. -/
theorem passed_on_carries {call : Call} {action : CursorAction input Unit}
    {moved : BindingSource} {node : Node own input} {engine : Engine}
    (holds : Carrying suits has bindings source node)
    (passed : EndsIn (node.input, engine) action (fun _ after => has bindings moved after.1)
      fun _ after => has bindings source after.1) :
    EndsIn (node, engine)
      (do
        check call
        onInput action)
      (fun _ after => Carrying suits has bindings moved after.1)
      fun _ after => Carrying suits has bindings source after.1 := by
  refine agree_reaching (node, engine) (agree_check (fun _ => rfl) fun _ => holds) fun _ => ?_
  exact agree_on_input (agree_weaken passed
    (fun _ _ moved => ⟨holds.1, holds.2.1, moved⟩) fun _ _ kept => ⟨holds.1, holds.2.1, kept⟩)

theorem next_bindings_carries {node : Node own input} (engine : Engine)
    (holds : Carrying suits has bindings source node) :
    EndsIn (node, engine) (nextBindings inner)
      (fun next? after => next? = source.next.1 ∧
        Carrying suits has (next?.getD bindings) source.next.2 after.1)
      fun _ after => Carrying suits has bindings source after.1 := by
  refine agree_reaching (node, engine) (agree_check (fun _ => rfl) fun _ => holds) fun _ => ?_
  apply agree_then (fun next? after => next? = source.next.1 ∧
    after.1.bindings = bindings ∧ suits after.1.own ∧
      has (next?.getD bindings) source.next.2 after.1.input)
  · refine agree_on_input (agree_weaken (carries.nextBindings engine holds.2.2) ?_ ?_)
    · exact fun _ _ moved => ⟨moved.1, holds.1, holds.2.1, moved.2⟩
    · exact fun _ _ kept => ⟨holds.1, holds.2.1, kept⟩
  · intro next? after ends
    obtain ⟨reached, last⟩ := after
    obtain ⟨same, sameBindings, kept, moved⟩ := ends
    apply agree_then (fun _ after =>
      Carrying suits has (next?.getD bindings) source.next.2 after.1)
      (CursorAction.agree_change _ ⟨congrArg (next?.getD ·) sameBindings, kept, moved⟩)
    exact fun _ after holds => agree_pure next? ⟨same, holds⟩

theorem protocol_carries (context : Context) (tap : String)
    {advance : CursorAction (Node own input) (Option Row)}
    (advances : ∀ bindings source, Stays (Carrying suits has bindings source) advance) :
    (protocol context tap inner advance).Carries (Carrying suits has) where
  openPass := fun _ _ => stays_open_pass carries
  next := by
    intro bindings source
    apply keeps_bind (stays_check_call .next)
    intro _
    apply keeps_bind (stays_in_journal _)
    intro _
    apply keeps_bind (keeps_on_failure (stays_abort (carries.close _ _)) (advances bindings source))
    intro row?
    cases row? with
    | none => exact keeps_pure none
    | some row => exact keeps_bind (stays_set_phase .running) fun _ => keeps_pure _
  close := fun _ _ => stays_close (carries.close _ _)
  destroy := fun _ _ => stays_destroy carries
  openBindings := fun engine holds =>
    passed_on_carries holds (carries.openBindings engine holds.2.2)
  nextBindings := fun engine holds => next_bindings_carries carries engine holds
  closeBindings := fun engine holds =>
    passed_on_carries holds (carries.closeBindings engine holds.2.2)
  cancelBindings := fun cancelled engine holds =>
    ⟨holds.1, holds.2.1, carries.cancelBindings cancelled engine holds.2.2⟩

end OverInput

end Node

section Operators

variable {input : Type} {has : Carried input} {inner : Protocol input} {bindings : Bindings}
  {source : BindingSource}

theorem Filter.protocol_carries (carries : inner.Carries has) (context : Context)
    (inputType : RowType) (predicate : Expr) :
    (Filter.protocol context inputType predicate inner).Carries
      (Node.Carrying (fun _ => True) has) := by
  apply Node.protocol_carries carries context "filter.next"
  intro bindings source
  apply keeps_bind (stays_in_journal _)
  intro _
  apply keeps_bind keeps_state
  intro node
  generalize inner.remaining node.input + 1 = bound
  induction bound with
  | zero => exact keeps_pure none
  | succ bound induction =>
      apply keeps_bind (Node.stays_pull carries)
      intro row?
      cases row? with
      | none => exact Node.stays_ended (carries.close _ _)
      | some row =>
          dsimp only
          split
          · exact keeps_pure _
          · apply keeps_bind (keeps_bind keeps_state fun _ =>
              keeps_bind (stays_in_journal _) fun _ => keeps_pure _)
            intro accepted
            split
            · exact keeps_pure _
            · exact induction

theorem Project.protocol_carries (carries : inner.Carries has) (context : Context)
    (inputType outputType : RowType) (columns : List Expr) :
    (Project.protocol context inputType outputType columns inner).Carries
      (Node.Carrying (fun _ => True) has) := by
  apply Node.protocol_carries carries context "project.next"
  intro bindings source
  apply keeps_bind (stays_in_journal _)
  intro _
  apply keeps_bind (Node.stays_pull carries)
  intro row?
  cases row? with
  | none => exact Node.stays_ended (carries.close _ _)
  | some row =>
      dsimp only
      split
      · exact keeps_pure _
      · exact keeps_bind keeps_state fun node =>
          keeps_bind (stays_in_engine _) fun _ => keeps_pure _

theorem Limit.stays_skip (carries : inner.Carries has) (count : Nat) :
    Stays (Node.Carrying (fun _ => True) has bindings source) (Limit.skip inner count) := by
  induction count with
  | zero =>
      apply keeps_bind (Node.stays_pull carries)
      intro row?
      cases row? with
      | none => exact Node.stays_ended (carries.close _ _)
      | some row =>
          exact keeps_bind (Node.stays_change_own fun _ _ => trivial) fun _ => keeps_pure _
  | succ count induction =>
      apply keeps_bind (Node.stays_pull carries)
      intro row?
      cases row? with
      | none => exact Node.stays_ended (carries.close _ _)
      | some row => exact keeps_bind (Node.stays_change_own fun _ _ => trivial) fun _ => induction

theorem Limit.stays_advance (carries : inner.Carries has) (context : Context) (offset : Nat)
    (limit? : Option Nat) (bindings : Bindings) (source : BindingSource) :
    Stays (Node.Carrying (fun _ => True) has bindings source)
      (Limit.advance context offset limit? inner) := by
  apply keeps_bind (stays_in_journal _)
  intro _
  apply keeps_bind keeps_state
  intro node
  dsimp only
  split
  · exact Node.stays_ended (carries.close _ _)
  · exact Limit.stays_skip carries _

theorem Limit.protocol_carries (carries : inner.Carries has) (context : Context) (offset : Nat)
    (limit? : Option Nat) :
    (Limit.protocol context offset limit? inner).Carries
      (Node.Carrying (fun _ => True) has) := by
  have base := Node.protocol_carries carries context "limit.next"
    (Limit.stays_advance carries context offset limit?)
  refine { base with openPass := fun bindings source => ?_ }
  exact keeps_bind (base.openPass bindings source) fun _ =>
    Node.stays_change_own fun _ _ => trivial

namespace Grouping

variable {fresh : List Accumulator}

/-- The accumulators are those of new ones but for what they have taken. -/
def Primed (fresh : List Accumulator) (state : GroupingState) : Prop :=
  state.accumulators.map Accumulator.reset = fresh

theorem primed_reset {state : GroupingState} (primed : Primed fresh state) :
    (state.accumulators.map Accumulator.reset).map Accumulator.reset = fresh := by
  rw [← primed, Accumulator.map_reset_reset]

theorem absorb_from_reset (row : Row) (column : Nat) (accumulators : List Accumulator)
    (journal : Journal) :
    (absorbFrom row column accumulators journal).2.1.map Accumulator.reset =
      accumulators.map Accumulator.reset := by
  induction accumulators generalizing column journal with
  | nil => rfl
  | cons accumulator rest induction =>
      unfold absorbFrom
      rcases (row.read column).run journal with ⟨interrupt | value, after⟩
      · rfl
      · dsimp only
        cases taken : accumulator.input value with
        | error cause => rfl
        | ok next =>
            dsimp only
            rw [List.map_cons, List.map_cons, Accumulator.reset_input taken, induction]

/-- What an aggregation keeps for itself stays such through all that it does to it. It holds only
rows of its input type. -/
structure Settled (inputType : RowType) (suits : GroupingState → Prop) : Prop where
  keyed : ∀ {state} (key : List Datum), suits state → suits { state with key }
  marked : ∀ {state} (sawInput : Bool), suits state → suits { state with sawInput }
  reset : ∀ {state}, suits state →
    suits { state with accumulators := state.accumulators.map Accumulator.reset }
  absorbed : ∀ {state} (row : Row) (column : Nat) (journal : Journal), suits state →
    suits { state with accumulators := (absorbFrom row column state.accumulators journal).2.1 }
  released : ∀ {state}, suits state → suits { state with lookahead? := none }
  held : ∀ {state} {row : Row}, row.type.same inputType = true → suits state →
    suits { state with lookahead? := some row }

theorem primed_settled (inputType : RowType) (fresh : List Accumulator) :
    Settled inputType (Primed fresh) where
  keyed := fun _ primed => primed
  marked := fun _ primed => primed
  reset := primed_reset
  absorbed := fun _ _ _ primed => (absorb_from_reset ..).trans primed
  released := id
  held := fun _ primed => primed

section Steps

variable {suits : GroupingState → Prop}

theorem stays_absorb {inputType : RowType} (settled : Settled inputType suits) (keys : Nat)
    (row : Row) :
    Stays (Node.Carrying suits has bindings source) (absorb keys row) := by
  refine keeps_of_reaches fun pair ends => ?_
  obtain ⟨same, kept, holds⟩ := ends
  exact ⟨same, settled.absorbed row keys pair.2.journal kept, holds⟩

theorem stays_forget {inputType : RowType} (settled : Settled inputType suits) :
    Stays (Node.Carrying suits has bindings source) (forget) :=
  Node.stays_change_own fun _ kept => settled.keyed [] (settled.released kept)

variable {plan : GroupingPlan} (settled : Settled plan.inputType suits)

include settled

theorem stays_start_group (row : Row) :
    Stays (Node.Carrying suits has bindings source) (startGroup plan row) := by
  refine keeps_bind (Node.stays_change_own fun _ kept => settled.keyed [] kept) fun _ => ?_
  apply keeps_bind (stays_in_journal _)
  intro key
  refine keeps_bind (Node.stays_change_own fun _ kept =>
    settled.keyed key (settled.reset kept)) fun _ => ?_
  exact stays_absorb settled plan.keys row

theorem stays_emit_group :
    Stays (Node.Carrying suits has bindings source) (emitGroup plan) :=
  keeps_bind keeps_state fun _ =>
    keeps_bind (Node.stays_change_own fun _ kept => settled.keyed [] (settled.reset kept))
      fun _ => stays_in_engine _

theorem stays_end_of_input (carries : inner.Carries has) :
    Stays (Node.Carrying suits has bindings source) (endOfInput plan inner) := by
  apply keeps_bind keeps_state
  intro node
  dsimp only
  split
  · exact keeps_bind (Node.stays_set_phase .closing) fun _ =>
      keeps_bind (stays_emit_group settled) fun _ => keeps_pure _
  · split
    · exact keeps_bind (Node.stays_set_phase .closing) fun _ =>
        keeps_bind (stays_in_engine _) fun _ => keeps_pure _
    · exact Node.stays_ended (carries.close _ _)

theorem stays_take_row (carries : inner.Carries has) :
    Stays (Node.Carrying suits has bindings source) (takeRow inner) := by
  apply keeps_bind keeps_state
  intro node
  split
  · exact keeps_bind (Node.stays_change_own fun _ kept => settled.released kept) fun _ =>
      keeps_pure _
  · exact Node.stays_pull carries

theorem stays_collect (carries : inner.Carries has) (context : Context) (bound : Nat) :
    Stays (Node.Carrying suits has bindings source)
      (collect context plan inner bound) := by
  induction bound with
  | zero => exact keeps_pure none
  | succ bound induction =>
      apply keeps_bind (stays_take_row settled carries)
      intro row?
      cases row? with
      | none => exact stays_end_of_input settled carries
      | some row =>
          dsimp only
          split
          · exact keeps_pure _
          next mine =>
            have own : row.type.same plan.inputType = true := by simpa using mine
            refine keeps_bind (Node.stays_change_own fun _ kept => settled.marked true kept)
              fun _ => keeps_bind keeps_state fun node => ?_
            split
            · apply keeps_bind keeps_state
              intro node
              apply keeps_bind (stays_in_journal _)
              intro equal
              split
              · exact keeps_bind (stays_absorb settled plan.keys row) fun _ => induction
              · refine keeps_bind (Node.stays_change_own fun _ kept => settled.held own kept)
                  fun _ => ?_
                exact keeps_bind (stays_emit_group settled) fun _ =>
                  keeps_bind (Node.stays_set_phase .opening) fun _ => keeps_pure _
            · exact keeps_bind (stays_start_group settled row) fun _ =>
                keeps_bind (Node.stays_set_phase .running) fun _ => induction

theorem stays_advance (carries : inner.Carries has) (context : Context) :
    Stays (Node.Carrying suits has bindings source) (advance context plan inner) := by
  apply keeps_bind (stays_in_journal _)
  intro _
  apply keeps_bind keeps_state
  intro node
  split
  · exact Node.stays_ended (carries.close _ _)
  · exact stays_collect settled carries context _

theorem protocol_carries (carries : inner.Carries has) (context : Context) :
    (protocol context plan inner).Carries (Node.Carrying suits has) where
  openPass := fun _ _ =>
    keeps_bind (stays_in_journal _) fun _ => keeps_bind (Node.stays_open_pass carries) fun _ =>
      Node.stays_change_own fun _ kept =>
        settled.reset (settled.marked false (settled.keyed [] kept))
  next := fun _ _ =>
    keeps_bind (Node.stays_check_call .next) fun _ => keeps_bind (stays_in_journal _) fun _ =>
      keeps_on_failure
        (keeps_bind (stays_forget settled) fun _ => Node.stays_abort (carries.close _ _))
        (stays_advance settled carries context)
  close := fun _ _ =>
    keeps_bind (Node.stays_close (carries.close _ _)) fun _ => stays_forget settled
  destroy := fun _ _ =>
    keeps_bind (Node.stays_change_own fun _ kept => settled.released kept) fun _ =>
      Node.stays_destroy carries
  openBindings := fun engine holds =>
    Node.passed_on_carries holds (carries.openBindings engine holds.2.2)
  nextBindings := fun engine holds => Node.next_bindings_carries carries engine holds
  closeBindings := fun engine holds =>
    Node.passed_on_carries holds (carries.closeBindings engine holds.2.2)
  cancelBindings := fun cancelled engine holds =>
    ⟨holds.1, settled.keyed [] (settled.released holds.2.1),
      carries.cancelBindings cancelled engine holds.2.2⟩

end Steps

end Grouping

end Operators

namespace Scan

variable {bindings : Bindings} {source : BindingSource}

/-- The leaf has the binding that it delivered last, and the source. -/
def Carrying : Carried Scan :=
  fun bindings source scan => scan.current = bindings ∧ scan.source = source

theorem stays_check_call {holds : Scan → Prop} (call : Call) : Stays holds (check call) :=
  keeps_bind keeps_state fun scan => keeps_phase_check call scan.phase

theorem protocol_carries (context : Context) (load : Action Engine (List Row)) :
    (protocol context load).Carries Carrying where
  openPass := fun _ _ =>
    keeps_bind (stays_check_call .openPass) fun _ => keeps_bind (stays_in_journal _) fun _ =>
      keeps_bind (stays_in_engine _) fun _ => stays_change fun _ => id
  next := by
    intro bindings source
    apply keeps_bind (stays_check_call .next)
    intro _
    refine keeps_bind (keeps_on_failure (stays_change fun _ => id) (stays_in_journal _)) fun _ => ?_
    apply keeps_bind (stays_in_journal _)
    intro _
    apply keeps_bind keeps_state
    intro scan
    split
    · exact keeps_bind (stays_change fun _ => id) fun _ => keeps_pure _
    · exact keeps_bind (stays_change fun _ => id) fun _ => keeps_pure _
  close := fun _ _ => keeps_bind (stays_check_call .close) fun _ => stays_change fun _ => id
  destroy := fun _ _ => keeps_bind (stays_check_call .destroy) fun _ => stays_change fun _ => id
  openBindings := by
    intro bindings source scan engine ends
    obtain ⟨same, rfl⟩ := ends
    refine agree_reaching (scan, engine)
      (CursorAction.agree_state (Call.agree_check (fun _ => rfl) fun _ => ⟨same, rfl⟩)) fun _ => ?_
    exact CursorAction.agree_change _ ⟨same, rfl⟩
  nextBindings := by
    intro bindings source scan engine ends
    obtain ⟨rfl, rfl⟩ := ends
    refine agree_reaching (scan, engine)
      (CursorAction.agree_state (Call.agree_check (fun _ => rfl) fun _ => ⟨rfl, rfl⟩)) fun _ => ?_
    apply CursorAction.agree_state
    apply agree_then (fun _ after =>
      Carrying (scan.source.next.1.getD scan.current) scan.source.next.2 after.1)
      (CursorAction.agree_change _ ⟨rfl, rfl⟩)
    exact fun _ after holds => agree_pure _ ⟨rfl, holds⟩
  closeBindings := by
    intro bindings source scan engine ends
    obtain ⟨same, rfl⟩ := ends
    refine agree_reaching (scan, engine)
      (CursorAction.agree_state (Call.agree_check (fun _ => rfl) fun _ => ⟨same, rfl⟩)) fun _ => ?_
    exact CursorAction.agree_change _ ⟨same, rfl⟩
  cancelBindings := by
    intro bindings source scan cancelled engine ends
    obtain ⟨same, rfl⟩ := ends
    exact ⟨same, rfl⟩

theorem stays_instead_of {result : Type} {holds : Scan → Prop} (call : LeafCall)
    {action : CursorAction Scan result} (stays : Stays holds action) :
    Stays holds (insteadOf call action) :=
  keeps_bind (stays_in_engine _) fun _ => keeps_bind (stays_in_engine _) fun _ => stays

theorem stays_after {holds : Scan → Prop} (call : LeafCall) {action : CursorAction Scan Unit}
    (stays : Stays holds action) : Stays holds (after call action) :=
  keeps_bind (stays_in_engine _) fun _ => keeps_bind stays fun _ => stays_in_engine _

theorem instead_of_carries {result : Type} (call : LeafCall) {action : CursorAction Scan result}
    {scan : Scan} {engine : Engine} {gives : result → Scan × Engine → Prop}
    (holds : Carrying bindings source scan)
    (acts : EndsIn (scan, engine.noted call) action gives
      fun _ after => Carrying bindings source after.1) :
    EndsIn (scan, engine) (insteadOf call action) gives
      fun _ after => Carrying bindings source after.1 :=
  instead_of_agrees engine.faults_within_any acts fun _ => holds

theorem probed_carries (context : Context) (load : Action Engine (List Row)) :
    (probed (protocol context load)).Carries Carrying :=
  let inner := protocol_carries context load
  { openPass := fun bindings source => stays_instead_of .openPass (inner.openPass bindings source)
    next := fun bindings source => stays_instead_of .next (inner.next bindings source)
    close := fun bindings source => stays_after .close (inner.close bindings source)
    destroy := fun bindings source => stays_after .destroy (inner.destroy bindings source)
    openBindings := fun _ holds =>
      instead_of_carries .openBindings holds (inner.openBindings _ holds)
    nextBindings := fun _ holds =>
      instead_of_carries .nextBindings holds (inner.nextBindings _ holds)
    closeBindings := fun _ holds =>
      instead_of_carries .closeBindings holds (inner.closeBindings _ holds)
    cancelBindings := fun cancelled engine holds =>
      inner.cancelBindings cancelled engine holds }

end Scan

namespace Plan

/-- The whole tree has one current binding, a source, and accumulators as they were made. -/
def Carrying : (plan : Plan) → Carried plan.Cursor
  | values _ _ _ => Scan.Carrying
  | table _ _ => Scan.Carrying
  | filter input _ => Node.Carrying (fun _ => True) input.Carrying
  | project input _ _ => Node.Carrying (fun _ => True) input.Carrying
  | aggregate input _ _ aggregates =>
      Node.Carrying (Grouping.Primed (accumulators aggregates)) input.Carrying
  | limit input _ _ => Node.Carrying (fun _ => True) input.Carrying

theorem layered_carries (context : Context) (meanwhile : Journal → Journal) (plan : Plan) :
    (plan.layered context fun _ => Protocol.amid meanwhile).Carries plan.Carrying := by
  induction plan with
  | values slice type rows => exact Scan.protocol_carries context (pure rows)
  | table name type => exact Scan.probed_carries context (Scan.loadTable name)
  | filter input predicate induction =>
      exact Filter.protocol_carries (Protocol.amid_carries induction meanwhile) context
        input.rowType predicate
  | project input type columns induction =>
      exact Project.protocol_carries (Protocol.amid_carries induction meanwhile) context
        input.rowType type columns
  | aggregate input type keys aggregates induction =>
      exact Grouping.protocol_carries (Grouping.primed_settled input.rowType _)
        (Protocol.amid_carries induction meanwhile) context
  | limit input offset limit? induction =>
      exact Limit.protocol_carries (Protocol.amid_carries induction meanwhile) context offset
        limit?

theorem protocol_carries (context : Context) (plan : Plan) :
    (plan.protocol context).Carries plan.Carrying := by
  rw [← layered_plain]
  exact layered_carries context id plan

theorem start_reset {aggregate : Aggregate} {accumulator : Accumulator}
    (started : aggregate.start = .ok accumulator) : accumulator.reset = accumulator := by
  unfold Aggregate.start at started
  split at started <;> cases started <;> rfl

theorem start_accumulators_reset {aggregates : List Aggregate} {started : List Accumulator}
    (ready : startAccumulators aggregates = .ok started) :
    started.map Accumulator.reset = started := by
  have each := accumulators_started ready
  clear ready
  induction each with
  | nil => rfl
  | cons first _ induction => rw [List.map_cons, start_reset first, induction]

/-- A new cursor has the empty binding. -/
theorem start_carries {store : Store} {source : BindingSource} {plan : Plan}
    {cursor : plan.Cursor} (started : plan.start store source = .ok cursor) :
    plan.Carrying .empty source cursor := by
  induction started using started_induction with
  | values slice type rows => exact ⟨rfl, rfl⟩
  | table name type => exact ⟨rfl, rfl⟩
  | filter input predicate rest _ _ carried => exact ⟨rfl, trivial, carried⟩
  | project input type columns rest _ _ carried => exact ⟨rfl, trivial, carried⟩
  | aggregate input type keys aggregates made rest _ _ ready carried =>
      refine ⟨rfl, ?_, carried⟩
      have fresh : accumulators aggregates = made := by
        unfold accumulators
        rw [ready]
      rw [fresh]
      exact start_accumulators_reset ready
  | limit input offset limit? rest _ _ carried => exact ⟨rfl, trivial, carried⟩

end Plan

end QueryExec
