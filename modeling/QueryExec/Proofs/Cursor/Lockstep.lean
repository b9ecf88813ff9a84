import QueryExec.Proofs.Action.Lockstep
import QueryExec.Proofs.Cursor.Operators

/-!
Cursor trees in lockstep. Two trees of one plan that differ only in where their bindings come from
answer the same to every call, as long as their engines cannot be told apart by what a pass reads.
The relation between engines is a parameter: with equal engines it says what calls do to one engine,
with engines that differ in their probes that a log has no part in what is computed.
-/

namespace QueryExec

open QueryExec.Action

/-- A relation between engines that calls on the storage boundary do not break: both runs log the
call and both or neither fail. -/
structure Engine.Bounded (alike : Engine → Engine → Prop) : Prop where
  noted : ∀ {left right} call, alike left right → alike (left.noted call) (right.noted call)
  fault : ∀ {left right} call, alike left right →
    ((Engine.injectFault call).run (left.noted call)).1 =
      ((Engine.injectFault call).run (right.noted call)).1

/-- Related engines have the journal, the store and the supply of identities in common, and may
change the first and the last together. -/
structure Engine.Shared (alike : Engine → Engine → Prop) : Prop extends Engine.Bounded alike where
  journal : ∀ {left right}, alike left right → left.journal = right.journal
  store : ∀ {left right}, alike left right → left.store = right.store
  nextId : ∀ {left right}, alike left right → left.nextId = right.nextId
  journaled : ∀ {left right} journal, alike left right →
    alike { left with journal } { right with journal }
  issued : ∀ {left right}, alike left right →
    alike { left with nextId := left.nextId + 1 } { right with nextId := right.nextId + 1 }

/-- What a relation between cursors in their engines needs for rows to be read and made. -/
structure Twinned {cursor : Type} (related : cursor × Engine → cursor × Engine → Prop) : Prop where
  journal : ∀ {left right}, related left right → left.2.journal = right.2.journal
  nextId : ∀ {left right}, related left right → left.2.nextId = right.2.nextId
  journaled : ∀ {left right} journal, related left right →
    related (left.1, { left.2 with journal }) (right.1, { right.2 with journal })
  issued : ∀ {left right}, related left right →
    related (left.1, { left.2 with nextId := left.2.nextId + 1 })
      (right.1, { right.2 with nextId := right.2.nextId + 1 })

/-- The calls that read and make no rows do not tell related cursors apart. -/
structure Protocol.Discreet {cursor : Type} (protocol : Protocol cursor)
    (related : cursor × Engine → cursor × Engine → Prop) : Prop where
  phase : ∀ {left right}, related left right → protocol.phase left.1 = protocol.phase right.1
  close : Respects related protocol.close
  destroy : Respects related protocol.destroy
  openBindings : Respects related protocol.openBindings
  closeBindings : Respects related protocol.closeBindings

/-- Passes do not tell related cursors apart. -/
structure Protocol.Mirrored {cursor : Type} (protocol : Protocol cursor)
    (related : cursor × Engine → cursor × Engine → Prop) : Prop
    extends protocol.Discreet related where
  twinned : Twinned related
  remaining : ∀ {left right}, related left right →
    protocol.remaining left.1 = protocol.remaining right.1
  openPass : Respects related protocol.openPass
  next : Respects related protocol.next

section Rules

variable {cursor result : Type} {related : cursor × Engine → cursor × Engine → Prop}

/-- Looking at the cursor, where what follows is the same for related cursors. -/
theorem respects_look {next : cursor → CursorAction cursor result}
    (same : ∀ left right, related left right → next left.1 = next right.1)
    (respects : ∀ seen, Respects related (next seen)) :
    Respects related (CursorAction.state >>= next) := by
  intro left right alike
  have rest := respects right.1 left right alike
  unfold InStep at rest ⊢
  change ((next left.1).run left).1 = ((next right.1).run right).1 ∧
    related ((next left.1).run left).2 ((next right.1).run right).2
  rw [same left right alike]
  exact rest

theorem respects_change {step : cursor → cursor}
    (keeps : ∀ {left right}, related left right →
      related (step left.1, left.2) (step right.1, right.2)) :
    Respects related (CursorAction.change step) :=
  fun _ _ alike => ⟨rfl, keeps alike⟩

theorem respects_phase_check (call : Call) (phase : Phase) :
    Respects related (call.check phase) := by
  unfold Call.check
  split
  · exact respects_pure ()
  · exact respects_fail _

variable (twinned : Twinned related)

include twinned

theorem respects_in_journal (action : Action Journal result) :
    Respects related (CursorAction.inJournal action) := by
  intro left right alike
  change (action.run left.2.journal).1 = (action.run right.2.journal).1 ∧
    related (left.1, { left.2 with journal := (action.run left.2.journal).2 })
      (right.1, { right.2 with journal := (action.run right.2.journal).2 })
  rw [twinned.journal alike]
  exact ⟨rfl, twinned.journaled _ alike⟩

theorem respects_new_row (type : RowType) (values : List Datum) :
    Respects related (CursorAction.inEngine (Engine.newRow type values)) := by
  intro left right alike
  refine ⟨?_, twinned.issued alike⟩
  change Except.ok (Row.stored left.2.nextId type values) =
    Except.ok (Row.stored right.2.nextId type values)
  rw [twinned.nextId alike]

theorem respects_new_projection (type : RowType) (base : Row) (context : Context)
    (bindings : Bindings) (columns : List Expr) :
    Respects related
      (CursorAction.inEngine (Engine.newProjection type base context bindings columns)) := by
  intro left right alike
  refine ⟨?_, twinned.issued alike⟩
  change Except.ok (Row.projected left.2.nextId type base context bindings columns) =
    Except.ok (Row.projected right.2.nextId type base context bindings columns)
  rw [twinned.nextId alike]

end Rules

namespace Protocol.Discreet

variable {cursor : Type} {related : cursor × Engine → cursor × Engine → Prop}
  {protocol : Protocol cursor} (discreet : protocol.Discreet related)

include discreet

theorem close_active : Respects related protocol.closeActive :=
  respects_look (fun _ _ alike => by simp only [discreet.phase alike]) fun cursor => by
    split
    · exact discreet.close
    · exact respects_pure ()

theorem destroy_once : Respects related protocol.destroyOnce :=
  respects_look (fun _ _ alike => by simp only [discreet.phase alike]) fun cursor => by
    split
    · exact respects_pure ()
    · exact discreet.destroy

end Protocol.Discreet

namespace Node

variable {own input result : Type} {below : input × Engine → input × Engine → Prop}
  {inner : Protocol input}

/-- Two cursors of one operator that differ in nothing but their inputs. -/
structure Alike (below : input × Engine → input × Engine → Prop)
    (left right : Node own input × Engine) : Prop where
  phase : left.1.phase = right.1.phase
  bindings : left.1.bindings = right.1.bindings
  own : left.1.own = right.1.own
  input : below (left.1.input, left.2) (right.1.input, right.2)

theorem alike_twinned (twinned : Twinned below) :
    Twinned (Alike below : Node own input × Engine → _ → Prop) where
  journal := fun alike => twinned.journal alike.input
  nextId := fun alike => twinned.nextId alike.input
  journaled := fun journal alike =>
    ⟨alike.phase, alike.bindings, alike.own, twinned.journaled journal alike.input⟩
  issued := fun alike =>
    ⟨alike.phase, alike.bindings, alike.own, twinned.issued alike.input⟩

theorem respects_on_input {action : CursorAction input result} (respects : Respects below action) :
    Respects (Alike below) (onInput action : CursorAction (Node own input) result) := by
  intro left right alike
  obtain ⟨same, reached⟩ := respects _ _ alike.input
  exact ⟨same, alike.phase, alike.bindings, alike.own, reached⟩

theorem respects_set_phase (phase : Phase) :
    Respects (Alike below) (setPhase phase : CursorAction (Node own input) Unit) :=
  respects_change fun alike => ⟨rfl, alike.bindings, alike.own, alike.input⟩

theorem respects_change_own (step : own → own) :
    Respects (Alike below) (changeOwn step : CursorAction (Node own input) Unit) :=
  respects_change fun alike => ⟨alike.phase, alike.bindings, congrArg step alike.own, alike.input⟩

theorem respects_check (call : Call) :
    Respects (Alike below) (check call : CursorAction (Node own input) Unit) :=
  respects_look (fun _ _ alike => by simp only [alike.phase]) fun node =>
    respects_phase_check call node.phase

section Quiet

variable (discreet : inner.Discreet below)

include discreet

theorem respects_finish :
    Respects (Alike below) (finish inner : CursorAction (Node own input) Unit) :=
  respects_bind (respects_set_phase .closed) fun _ => respects_on_input discreet.close_active

theorem respects_abort :
    Respects (Alike below) (abort inner : CursorAction (Node own input) Unit) :=
  respects_bind (respects_attempt (respects_on_input discreet.close_active)) fun _ =>
    respects_set_phase .closed

theorem respects_close :
    Respects (Alike below) (close inner : CursorAction (Node own input) Unit) :=
  respects_bind (respects_check .close) fun _ => respects_finish discreet

theorem respects_destroy :
    Respects (Alike below) (destroy inner : CursorAction (Node own input) Unit) := by
  have rest : ∀ closed : Except QueryError Unit,
      Respects (Alike below) (do
        let destroyed ← (onInput inner.destroyOnce).attempt
        setPhase .destroyed
        Action.ofExcept closed
        Action.ofExcept destroyed : CursorAction (Node own input) Unit) := by
    intro closed
    apply respects_bind (respects_attempt (respects_on_input discreet.destroy_once))
    intro destroyed
    exact respects_bind (respects_set_phase .destroyed) fun _ =>
      respects_bind (respects_of_except closed) fun _ => respects_of_except destroyed
  apply respects_bind (respects_check .destroy)
  intro _
  apply respects_look fun _ _ alike => by simp only [alike.phase]
  intro node
  dsimp only
  split
  · exact respects_bind (respects_attempt (respects_finish discreet)) rest
  · exact respects_bind (respects_pure _) rest

theorem protocol_discreet (context : Context) (tap : String)
    (advance : CursorAction (Node own input) (Option Row)) :
    (protocol context tap inner advance).Discreet (Alike below) where
  phase := Alike.phase
  close := respects_close discreet
  destroy := respects_destroy discreet
  openBindings := respects_bind (respects_check .openBindings) fun _ =>
    respects_on_input discreet.openBindings
  closeBindings := respects_bind (respects_check .closeBindings) fun _ =>
    respects_on_input discreet.closeBindings

end Quiet

section Passes

variable (mirrored : inner.Mirrored below)

include mirrored

theorem respects_pull :
    Respects (Alike below) (pull inner : CursorAction (Node own input) (Option Row)) :=
  respects_look (fun _ _ alike => by simp only [mirrored.phase alike.input]) fun node => by
    split
    · exact respects_on_input mirrored.next
    · exact respects_pure none

theorem respects_ended :
    Respects (Alike below) (do
      finish inner
      pure (none : Option Row) : CursorAction (Node own input) (Option Row)) :=
  respects_bind (respects_finish mirrored.toDiscreet) fun _ => respects_pure none

theorem respects_check_cancelled (context : Context) :
    Respects (Alike below) (checkCancelled context : CursorAction (Node own input) Unit) :=
  respects_in_journal (alike_twinned mirrored.twinned) _

theorem respects_open_pass :
    Respects (Alike below) (openPass inner : CursorAction (Node own input) Unit) :=
  respects_bind (respects_check .openPass) fun _ =>
    respects_bind (respects_on_input mirrored.openPass) fun _ => respects_set_phase .opening

theorem protocol_mirrored (context : Context) (tap : String)
    {advance : CursorAction (Node own input) (Option Row)}
    (advances : Respects (Alike below) advance) :
    (protocol context tap inner advance).Mirrored (Alike below) where
  toDiscreet := protocol_discreet mirrored.toDiscreet context tap advance
  twinned := alike_twinned mirrored.twinned
  remaining := fun alike => mirrored.remaining alike.input
  openPass := respects_open_pass mirrored
  next := by
    apply respects_bind (respects_check .next)
    intro _
    apply respects_bind (respects_in_journal (alike_twinned mirrored.twinned) _)
    intro _
    apply respects_bind (respects_on_failure (respects_abort mirrored.toDiscreet) advances)
    intro row?
    cases row? with
    | none => exact respects_pure none
    | some row => exact respects_bind (respects_set_phase .running) fun _ => respects_pure _

end Passes

end Node

section Operators

variable {input : Type} {below : input × Engine → input × Engine → Prop} {inner : Protocol input}
  (mirrored : inner.Mirrored below)

include mirrored

theorem Filter.protocol_mirrored (context : Context) (inputType : RowType) (predicate : Expr) :
    (Filter.protocol context inputType predicate inner).Mirrored (Node.Alike below) := by
  apply Node.protocol_mirrored mirrored
  apply respects_bind (Node.respects_check_cancelled mirrored context)
  intro _
  apply respects_look fun _ _ alike => by simp only [mirrored.remaining alike.input]
  intro node
  generalize inner.remaining node.input + 1 = bound
  induction bound with
  | zero => exact respects_pure none
  | succ bound induction =>
      apply respects_bind (Node.respects_pull mirrored)
      intro row?
      cases row? with
      | none => exact Node.respects_ended mirrored
      | some row =>
          dsimp only
          split
          · exact respects_pure _
          · apply respects_bind (respects_look (fun _ _ alike => by simp only [alike.bindings])
              fun node => respects_bind
                (respects_in_journal (Node.alike_twinned mirrored.twinned) _)
                fun _ => respects_pure _)
            intro accepted
            split
            · exact respects_pure _
            · exact induction

theorem Project.protocol_mirrored (context : Context) (inputType outputType : RowType)
    (columns : List Expr) :
    (Project.protocol context inputType outputType columns inner).Mirrored
      (Node.Alike below) := by
  apply Node.protocol_mirrored mirrored
  apply respects_bind (Node.respects_check_cancelled mirrored context)
  intro _
  apply respects_bind (Node.respects_pull mirrored)
  intro row?
  cases row? with
  | none => exact Node.respects_ended mirrored
  | some row =>
      dsimp only
      split
      · exact respects_pure _
      · exact respects_look (fun _ _ alike => by simp only [alike.bindings]) fun node =>
          respects_bind
            (respects_new_projection (Node.alike_twinned mirrored.twinned) outputType row context
              node.bindings columns)
            fun _ => respects_pure _

theorem Limit.respects_skip (count : Nat) :
    Respects (Node.Alike below) (Limit.skip inner count) := by
  induction count with
  | zero =>
      apply respects_bind (Node.respects_pull mirrored)
      intro row?
      cases row? with
      | none => exact Node.respects_ended mirrored
      | some row =>
          exact respects_bind (Node.respects_change_own _) fun _ => respects_pure _
  | succ count induction =>
      apply respects_bind (Node.respects_pull mirrored)
      intro row?
      cases row? with
      | none => exact Node.respects_ended mirrored
      | some row => exact respects_bind (Node.respects_change_own _) fun _ => induction

theorem Limit.respects_advance (context : Context) (offset : Nat) (limit? : Option Nat) :
    Respects (Node.Alike below) (Limit.advance context offset limit? inner) := by
  apply respects_bind (Node.respects_check_cancelled mirrored context)
  intro _
  apply respects_look fun _ _ alike => by simp only [alike.own]
  intro node
  dsimp only
  split
  · exact Node.respects_ended mirrored
  · exact Limit.respects_skip mirrored _

theorem Limit.protocol_mirrored (context : Context) (offset : Nat) (limit? : Option Nat) :
    (Limit.protocol context offset limit? inner).Mirrored (Node.Alike below) :=
  have base := Node.protocol_mirrored mirrored context "limit.next"
    (Limit.respects_advance mirrored context offset limit?)
  { base with
    openPass := respects_bind base.openPass fun _ => Node.respects_change_own _ }

namespace Grouping

omit mirrored in
theorem absorb_run (keys : Nat) (row : Row) (node : State input) (engine : Engine) :
    (absorb keys row).run (node, engine) =
      let (outcome, accumulators, journal) :=
        absorbFrom row keys node.own.accumulators engine.journal
      (outcome, { node with own := { node.own with accumulators } }, { engine with journal }) :=
  rfl

theorem respects_absorb (keys : Nat) (row : Row) :
    Respects (Node.Alike below) (absorb keys row : CursorAction (State input) Unit) := by
  intro left right alike
  obtain ⟨leftNode, leftEngine⟩ := left
  obtain ⟨rightNode, rightEngine⟩ := right
  have journal : leftEngine.journal = rightEngine.journal := mirrored.twinned.journal alike.input
  have own : leftNode.own = rightNode.own := alike.own
  unfold InStep
  rw [absorb_run, absorb_run, own, journal]
  exact ⟨rfl, alike.phase, alike.bindings, rfl, mirrored.twinned.journaled _ alike.input⟩

theorem respects_start_group (plan : GroupingPlan) (row : Row) :
    Respects (Node.Alike below) (startGroup plan row : CursorAction (State input) Unit) := by
  apply respects_bind (Node.respects_change_own _)
  intro _
  apply respects_bind (respects_in_journal (Node.alike_twinned mirrored.twinned) _)
  intro key
  exact respects_bind (Node.respects_change_own _) fun _ => respects_absorb mirrored plan.keys row

theorem respects_emit_group (plan : GroupingPlan) :
    Respects (Node.Alike below) (emitGroup plan : CursorAction (State input) Row) :=
  respects_look (fun _ _ alike => by simp only [alike.own]) fun _ =>
    respects_bind (Node.respects_change_own _) fun _ =>
      respects_new_row (Node.alike_twinned mirrored.twinned) _ _

theorem respects_end_of_input (plan : GroupingPlan) :
    Respects (Node.Alike below) (endOfInput plan inner) := by
  apply respects_look fun _ _ alike => by simp only [alike.own]
  intro node
  dsimp only
  split
  · exact respects_bind (Node.respects_set_phase .closing) fun _ =>
      respects_bind (respects_emit_group mirrored plan) fun _ => respects_pure _
  · split
    · exact respects_bind (Node.respects_set_phase .closing) fun _ =>
        respects_bind (respects_new_row (Node.alike_twinned mirrored.twinned) _ _) fun _ =>
          respects_pure _
    · exact Node.respects_ended mirrored

theorem respects_take_row : Respects (Node.Alike below) (takeRow inner) := by
  apply respects_look fun _ _ alike => by simp only [alike.own]
  intro node
  split
  · exact respects_bind (Node.respects_change_own _) fun _ => respects_pure _
  · exact Node.respects_pull mirrored

theorem respects_collect (context : Context) (plan : GroupingPlan) (bound : Nat) :
    Respects (Node.Alike below) (collect context plan inner bound) := by
  induction bound with
  | zero => exact respects_pure none
  | succ bound induction =>
      apply respects_bind (respects_take_row mirrored)
      intro row?
      cases row? with
      | none => exact respects_end_of_input mirrored plan
      | some row =>
          dsimp only
          split
          · exact respects_pure _
          apply respects_bind (Node.respects_change_own _)
          intro _
          apply respects_look fun _ _ alike => by simp only [alike.phase]
          intro node
          split
          · apply respects_look fun _ _ alike => by simp only [alike.own]
            intro node
            apply respects_bind (respects_in_journal (Node.alike_twinned mirrored.twinned) _)
            intro equal
            split
            · exact respects_bind (respects_absorb mirrored plan.keys row) fun _ => induction
            · refine respects_bind (Node.respects_change_own _) fun _ => ?_
              exact respects_bind (respects_emit_group mirrored plan) fun _ =>
                respects_bind (Node.respects_set_phase .opening) fun _ => respects_pure _
          · exact respects_bind (respects_start_group mirrored plan row) fun _ =>
              respects_bind (Node.respects_set_phase .running) fun _ => induction

theorem supply_alike {left right : State input × Engine} (alike : Node.Alike below left right) :
    supply inner left.1 = supply inner right.1 := by
  unfold supply
  rw [mirrored.remaining alike.input, alike.own]

theorem respects_advance (context : Context) (plan : GroupingPlan) :
    Respects (Node.Alike below) (advance context plan inner) := by
  apply respects_bind (Node.respects_check_cancelled mirrored context)
  intro _
  apply respects_look fun _ _ alike => by
    simp only [alike.phase, supply_alike mirrored alike]
  intro node
  split
  · exact Node.respects_ended mirrored
  · exact respects_collect mirrored context plan _

omit mirrored in
theorem respects_forget : Respects (Node.Alike below) (forget : CursorAction (State input) Unit) :=
  Node.respects_change_own _

omit mirrored in
theorem protocol_discreet (discreet : inner.Discreet below) (context : Context)
    (plan : GroupingPlan) : (protocol context plan inner).Discreet (Node.Alike below) where
  phase := Node.Alike.phase
  close := respects_bind (Node.respects_close discreet) fun _ => respects_forget
  destroy := respects_bind (Node.respects_change_own _) fun _ => Node.respects_destroy discreet
  openBindings := respects_bind (Node.respects_check .openBindings) fun _ =>
    Node.respects_on_input discreet.openBindings
  closeBindings := respects_bind (Node.respects_check .closeBindings) fun _ =>
    Node.respects_on_input discreet.closeBindings

theorem protocol_mirrored (context : Context) (plan : GroupingPlan) :
    (protocol context plan inner).Mirrored (Node.Alike below) where
  toDiscreet := protocol_discreet mirrored.toDiscreet context plan
  twinned := Node.alike_twinned mirrored.twinned
  remaining := by
    intro left right alike
    change Grouping.remaining inner left.1 = Grouping.remaining inner right.1
    unfold Grouping.remaining
    rw [supply_alike mirrored alike, alike.phase]
  openPass :=
    respects_bind (respects_in_journal (Node.alike_twinned mirrored.twinned) _) fun _ =>
      respects_bind (Node.respects_open_pass mirrored) fun _ => Node.respects_change_own _
  next :=
    respects_bind (Node.respects_check .next) fun _ =>
      respects_bind (respects_in_journal (Node.alike_twinned mirrored.twinned) _) fun _ =>
        respects_on_failure
          (respects_bind respects_forget fun _ => Node.respects_abort mirrored.toDiscreet)
          (respects_advance mirrored context plan)

end Grouping

end Operators

namespace Scan

variable {alike : Engine → Engine → Prop} {result : Type}

/-- Two leaves with the same rows to come, wherever their bindings come from. -/
structure Alike (alike : Engine → Engine → Prop) (left right : Scan × Engine) : Prop where
  phase : left.1.phase = right.1.phase
  pending : left.1.pending = right.1.pending
  engine : alike left.2 right.2

theorem alike_twinned (shared : Engine.Shared alike) : Twinned (Alike alike) where
  journal := fun same => shared.journal same.engine
  nextId := fun same => shared.nextId same.engine
  journaled := fun journal same => ⟨same.phase, same.pending, shared.journaled journal same.engine⟩
  issued := fun same => ⟨same.phase, same.pending, shared.issued same.engine⟩

theorem respects_in_engine {action : Action Engine result} (respects : Respects alike action) :
    Respects (Alike alike) (CursorAction.inEngine action) := by
  intro left right same
  obtain ⟨outcome, reached⟩ := respects _ _ same.engine
  exact ⟨outcome, same.phase, same.pending, reached⟩

theorem respects_check (call : Call) : Respects (Alike alike) (check call) :=
  respects_look (fun _ _ same => by simp only [same.phase]) fun scan =>
    respects_phase_check call scan.phase

theorem protocol_discreet (alike : Engine → Engine → Prop) (context : Context)
    (load : Action Engine (List Row)) : (protocol context load).Discreet (Alike alike) where
  phase := Alike.phase
  close := respects_bind (respects_check .close) fun _ =>
    respects_change fun same => ⟨rfl, rfl, same.engine⟩
  destroy := respects_bind (respects_check .destroy) fun _ =>
    respects_change fun same => ⟨rfl, rfl, same.engine⟩
  openBindings := respects_bind (respects_check .openBindings) fun _ =>
    respects_change fun same => ⟨same.phase, same.pending, same.engine⟩
  closeBindings := respects_bind (respects_check .closeBindings) fun _ =>
    respects_change fun same => ⟨same.phase, same.pending, same.engine⟩

theorem protocol_mirrored (shared : Engine.Shared alike) (context : Context)
    {load : Action Engine (List Row)} (loads : Respects alike load) :
    (protocol context load).Mirrored (Alike alike) where
  toDiscreet := protocol_discreet alike context load
  twinned := alike_twinned shared
  remaining := fun same => congrArg List.length same.pending
  openPass := by
    apply respects_bind (respects_check .openPass)
    intro _
    apply respects_bind (respects_in_journal (alike_twinned shared) _)
    intro _
    apply respects_bind (respects_in_engine loads)
    intro rows
    exact respects_change fun same => ⟨rfl, rfl, same.engine⟩
  next := by
    apply respects_bind (respects_check .next)
    intro _
    apply respects_bind (respects_on_failure
      (respects_change fun same => ⟨rfl, rfl, same.engine⟩)
      (respects_in_journal (alike_twinned shared) _))
    intro _
    apply respects_bind (respects_in_journal (alike_twinned shared) _)
    intro _
    apply respects_look fun _ _ same => by simp only [same.pending]
    intro scan
    split
    · exact respects_bind (respects_change fun same => ⟨rfl, rfl, same.engine⟩) fun _ =>
        respects_pure _
    · exact respects_bind (respects_change fun same => ⟨rfl, same.pending, same.engine⟩) fun _ =>
        respects_pure _

/-- The engines after one call was logged in both. -/
def BothNoted (alike : Engine → Engine → Prop) (call : LeafCall) (left right : Engine) : Prop :=
  ∃ before other, alike before other ∧ left = before.noted call ∧ right = other.noted call

theorem inject_fault_keeps (call : LeafCall) (engine : Engine) :
    EndsIn engine (Engine.injectFault call) (fun _ after => after = engine)
      fun _ after => after = engine := by
  refine agree_then (fun read after => read = engine ∧ after = engine) ⟨rfl, rfl, rfl⟩ ?_
  intro _ _ ends
  obtain ⟨rfl, rfl⟩ := ends
  split
  · split
    · exact agree_fail _ rfl
    · exact agree_pure () rfl
  · exact agree_pure () rfl

theorem inject_fault_run (call : LeafCall) (engine : Engine) :
    ((Engine.injectFault call).run engine).2 = engine := by
  have kept := (inject_fault_keeps call engine).2
  unfold Meets at kept
  split at kept <;> exact kept

theorem respects_note (call : LeafCall) (action : CursorAction Scan result)
    (respects : ∀ left right, Alike (BothNoted alike call) left right →
      InStep (Alike alike) left right action action) :
    Respects (Alike alike) (CursorAction.inEngine (Engine.note call) >>= fun _ => action) := by
  intro left right same
  exact respects (left.1, left.2.noted call) (right.1, right.2.noted call)
    ⟨same.phase, same.pending, left.2, right.2, same.engine, rfl, rfl⟩

variable (bounded : Engine.Bounded alike)

include bounded

theorem inject_fault_in_step (call : LeafCall) {left right : Scan × Engine}
    (same : Alike (BothNoted alike call) left right) :
    InStep (Alike alike) left right (CursorAction.inEngine (Engine.injectFault call))
      (CursorAction.inEngine (Engine.injectFault call)) := by
  obtain ⟨leftScan, leftEngine⟩ := left
  obtain ⟨rightScan, rightEngine⟩ := right
  obtain ⟨phase, pending, before, other, engines, rfl, rfl⟩ := same
  refine ⟨bounded.fault call engines, phase, pending, ?_⟩
  change alike ((Engine.injectFault call).run (before.noted call)).2
    ((Engine.injectFault call).run (other.noted call)).2
  rw [inject_fault_run, inject_fault_run]
  exact bounded.noted call engines

theorem respects_instead_of (call : LeafCall) {action : CursorAction Scan result}
    (respects : Respects (Alike alike) action) :
    Respects (Alike alike) (insteadOf call action) :=
  respects_note call _ fun _ _ same =>
    in_step_bind (inject_fault_in_step bounded call same) fun _ => respects

/-- A call that a fault may follow touches no engine, so the fault still finds the call logged. -/
theorem respects_after (call : LeafCall) {action : CursorAction Scan Unit}
    (respects : Respects (Alike (BothNoted alike call)) action) :
    Respects (Alike alike) (after call action) := by
  apply respects_note call
  intro left right same
  obtain ⟨outcome, reached⟩ := respects left right same
  unfold InStep
  rw [run_bind, run_bind]
  revert outcome reached
  rcases action.run left with ⟨outcome, leftAfter⟩
  rcases action.run right with ⟨_, rightAfter⟩
  rintro rfl reached
  cases outcome with
  | error interrupt =>
      obtain ⟨before, other, engines, leftNoted, rightNoted⟩ := reached.engine
      refine ⟨rfl, reached.phase, reached.pending, ?_⟩
      rw [leftNoted, rightNoted]
      exact bounded.noted call engines
  | ok _ => exact inject_fault_in_step bounded call reached

theorem probed_discreet (context : Context) (load : Action Engine (List Row)) :
    (probed (protocol context load)).Discreet (Alike alike) where
  phase := Alike.phase
  close := respects_after bounded .close (protocol_discreet _ context load).close
  destroy := respects_after bounded .destroy (protocol_discreet _ context load).destroy
  openBindings :=
    respects_instead_of bounded .openBindings (protocol_discreet _ context load).openBindings
  closeBindings :=
    respects_instead_of bounded .closeBindings (protocol_discreet _ context load).closeBindings

omit bounded in
theorem probed_mirrored (shared : Engine.Shared alike) (context : Context)
    {load : Action Engine (List Row)} (loads : Respects alike load) :
    (probed (protocol context load)).Mirrored (Alike alike) where
  toDiscreet := probed_discreet shared.toBounded context load
  twinned := alike_twinned shared
  remaining := fun same => congrArg List.length same.pending
  openPass :=
    respects_instead_of shared.toBounded .openPass (protocol_mirrored shared context loads).openPass
  next := respects_instead_of shared.toBounded .next (protocol_mirrored shared context loads).next

omit bounded in
theorem respects_load_table (shared : Engine.Shared alike) (name : String) :
    Respects alike (loadTable name) := by
  apply respects_bind
  · exact respects_get (fun _ _ same => by simp only [shared.store same]) fun engine =>
      respects_of_except _
  · exact fun table => respects_pure _

end Scan

namespace Plan

/-- Two cursor trees of a plan that differ only in where their bindings come from. -/
def Alike (alike : Engine → Engine → Prop) :
    (plan : Plan) → plan.Cursor × Engine → plan.Cursor × Engine → Prop
  | values _ _ _ => Scan.Alike alike
  | table _ _ => Scan.Alike alike
  | filter input _ => Node.Alike (input.Alike alike)
  | project input _ _ => Node.Alike (input.Alike alike)
  | aggregate input _ _ _ => Node.Alike (input.Alike alike)
  | limit input _ _ => Node.Alike (input.Alike alike)

variable {alike : Engine → Engine → Prop}

theorem alike_engine {plan : Plan} {left right : plan.Cursor × Engine}
    (same : plan.Alike alike left right) : alike left.2 right.2 := by
  induction plan with
  | values slice type rows => exact same.engine
  | table name type => exact same.engine
  | filter input predicate induction => exact induction same.input
  | project input type columns induction => exact induction same.input
  | aggregate input type keys aggregates induction => exact induction same.input
  | limit input offset limit? induction => exact induction same.input

theorem alike_refl {plan : Plan} (cursor : plan.Cursor) {left right : Engine}
    (engines : alike left right) : plan.Alike alike (cursor, left) (cursor, right) := by
  induction plan with
  | values slice type rows => exact ⟨rfl, rfl, engines⟩
  | table name type => exact ⟨rfl, rfl, engines⟩
  | filter input predicate induction => exact ⟨rfl, rfl, rfl, induction _⟩
  | project input type columns induction => exact ⟨rfl, rfl, rfl, induction _⟩
  | aggregate input type keys aggregates induction => exact ⟨rfl, rfl, rfl, induction _⟩
  | limit input offset limit? induction => exact ⟨rfl, rfl, rfl, induction _⟩

theorem protocol_mirrored (shared : Engine.Shared alike) (context : Context) (plan : Plan) :
    (plan.protocol context).Mirrored (plan.Alike alike) := by
  induction plan with
  | values slice type rows => exact Scan.protocol_mirrored shared context (respects_pure rows)
  | table name type =>
      exact Scan.probed_mirrored shared context (Scan.respects_load_table shared name)
  | filter input predicate induction =>
      exact Filter.protocol_mirrored induction context input.rowType predicate
  | project input type columns induction =>
      exact Project.protocol_mirrored induction context input.rowType type columns
  | aggregate input type keys aggregates induction =>
      exact Grouping.protocol_mirrored induction context ⟨input.rowType, type, keys⟩
  | limit input offset limit? induction =>
      exact Limit.protocol_mirrored induction context offset limit?

theorem protocol_discreet (bounded : Engine.Bounded alike) (context : Context) (plan : Plan) :
    (plan.protocol context).Discreet (plan.Alike alike) := by
  induction plan with
  | values slice type rows => exact Scan.protocol_discreet alike context (pure rows)
  | table name type => exact Scan.probed_discreet bounded context (Scan.loadTable name)
  | filter input predicate induction => exact Node.protocol_discreet induction context _ _
  | project input type columns induction => exact Node.protocol_discreet induction context _ _
  | aggregate input type keys aggregates induction =>
      exact Grouping.protocol_discreet induction context ⟨input.rowType, type, keys⟩
  | limit input offset limit? induction =>
      have base := Node.protocol_discreet induction context "limit.next"
        (Limit.advance context offset limit? (input.protocol context))
      exact ⟨base.phase, base.close, base.destroy, base.openBindings, base.closeBindings⟩

end Plan

end QueryExec
