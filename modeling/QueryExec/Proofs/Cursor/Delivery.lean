import QueryExec.Proofs.Cursor.Leaf
import QueryExec.Proofs.Reference

/-!
What it means that an open cursor delivers a sequence of rows: each call of `next` gives the first
row of the sequence and leaves a cursor that delivers the rest, the call after the last row ends
the pass, and an interruption stops the call in its place. This holds in a steady engine, where
nothing fails by itself: the context is not cancelled, the journal answers truly and no fault is
planned. Projections make rows with new identities, so the census grows from call to call.
-/

namespace QueryExec

open QueryExec.Action

/-- An engine in which a context runs undisturbed over this store. -/
structure Engine.Steady (context : Context) (store : Store) (census : Census)
    (engine : Engine) : Prop where
  journal : engine.journal.Sound context census
  fresh : ∀ id, engine.nextId ≤ id → census id = none
  quiet : engine.FaultsWithin fun _ => False
  store : engine.store = store

namespace Engine

variable {context : Context} {store : Store} {census : Census} {engine : Engine}

theorem Steady.with_journal (steady : engine.Steady context store census) {journal : Journal}
    (sound : journal.Sound context census) :
    Engine.Steady context store census { engine with journal } :=
  ⟨sound, steady.fresh, steady.quiet, steady.store⟩

theorem Steady.noted (steady : engine.Steady context store census) (call : LeafCall) :
    (engine.noted call).Steady context store census :=
  ⟨steady.journal, steady.fresh, faults_within_noted steady.quiet call, steady.store⟩

theorem Steady.issued (steady : engine.Steady context store census) :
    Engine.Steady context store census { engine with nextId := engine.nextId + 1 } :=
  ⟨steady.journal, fun id later => steady.fresh id (Nat.le_of_succ_le later), steady.quiet,
    steady.store⟩

end Engine

/-- Making a projected row keeps the engine steady under the census that has the row. -/
theorem Engine.Steady.projected {context : Context} {store : Store} {census : Census}
    {engine : Engine} (steady : engine.Steady context store census) (row : Row) :
    Engine.Steady context store (census.with engine.nextId row)
      { engine with nextId := engine.nextId + 1 } where
  journal := steady.journal.later (Census.within_with (steady.fresh _ (Nat.le_refl _)) row)
  fresh := Census.fresh_with steady.fresh row
  quiet := steady.quiet
  store := steady.store

section Contract

variable {cursor : Type}

/-- Which sequence a cursor state delivers under a census. -/
abbrev Delivers (cursor : Type) : Type := Census → RowStream → cursor → Prop

/-- The answer of one call: the first row, with a cursor for the rest, or the end. -/
def Delivered (context : Context) (store : Store) (phaseOf : cursor → Phase)
    (delivers : Delivers cursor) (census : Census) (stream : RowStream) :
    Option Row → cursor × Engine → Prop
  | some row, after => ∃ later rest, census.Within later ∧ stream = rest.cons row.view ∧
      row.Listed later ∧ after.2.Steady context store later ∧ delivers later rest after.1
  | none, after => ∃ later, census.Within later ∧ stream = ⟨[], none⟩ ∧
      phaseOf after.1 = .closed ∧ after.2.Steady context store later

theorem Delivered.earlier {context : Context} {store : Store} {phaseOf : cursor → Phase}
    {delivers : Delivers cursor} {census later : Census} {stream : RowStream}
    {row? : Option Row} {after : cursor × Engine} (within : census.Within later)
    (delivered : Delivered context store phaseOf delivers later stream row? after) :
    Delivered context store phaseOf delivers census stream row? after := by
  cases row? with
  | some row =>
      obtain ⟨last, rest, further, delivered⟩ := delivered
      exact ⟨last, rest, within.trans further, delivered⟩
  | none =>
      obtain ⟨last, further, delivered⟩ := delivered
      exact ⟨last, within.trans further, delivered⟩

/-- The cursors of a protocol deliver what is said of their states. -/
structure Protocol.Produces (context : Context) (store : Store) (protocol : Protocol cursor)
    (delivers : Delivers cursor) : Prop where
  active : ∀ {census stream state}, delivers census stream state →
    (protocol.phase state).isActive = true
  bounded : ∀ {census stream state}, delivers census stream state →
    stream.rows.length ≤ protocol.remaining state
  later : ∀ {census later stream state}, census.Within later →
    delivers census stream state → delivers later stream state
  next : ∀ {census stream state engine}, delivers census stream state →
    engine.Steady context store census →
    EndsIn (state, engine) protocol.next
      (Delivered context store protocol.phase delivers census stream)
      fun interrupt _ => stream = .stopped interrupt
  close : ∀ {census stream state engine}, delivers census stream state →
    engine.Steady context store census →
    EndsIn (state, engine) protocol.close
      (fun _ after => protocol.phase after.1 = .closed ∧
        after.2.Steady context store census)
      fun _ _ => False
  /-- Closing reads no row, so whatever else fails it never looks outside one. -/
  unbroken : ∀ state engine, EndsIn (state, engine) protocol.close (fun _ _ => True)
    fun interrupt _ => interrupt ≠ .indexOutOfRange

end Contract

section Reading

variable {cursor result : Type} {context : Context} {store : Store} {census : Census}
  {state : cursor} {engine : Engine}

/-- The check changes nothing where the context is not cancelled. -/
theorem Context.check_passes {journal : Journal}
    (uncancelled : (journal.of context).cancelled = false) :
    context.checkCancelled.run journal = (.ok (), journal) := by
  unfold Context.checkCancelled
  rw [run_bind]
  change (if (journal.of context).cancelled = true then fail .cancelled else pure () :
    Action Journal Unit).run journal = _
  rw [uncancelled]
  rfl

/-- An invariant of engines under which rows are read as the census says, and nothing is
cancelled. -/
structure Engine.Readable (context : Context) (census : Census) (calm : Engine → Prop) : Prop where
  sound : ∀ {engine}, calm engine → engine.journal.Sound context census
  kept : ∀ {engine} {journal : Journal}, calm engine → journal.Sound context census →
    calm { engine with journal }

theorem Engine.steady_readable (context : Context) (store : Store) (census : Census) :
    Engine.Readable context census (Engine.Steady context store census) :=
  ⟨Engine.Steady.journal, fun steady sound => steady.with_journal sound⟩

section Calm

variable {calm : Engine → Prop} (readable : Engine.Readable context census calm)

include readable

/-- A reading step has its outcome and keeps the engine calm. -/
theorem reads_calmly {action : Action Journal result} {outcome : Except Interrupt result}
    (yields : Yields (Journal.Sound context census) action outcome) (holds : calm engine) :
    EndsIn (state, engine) (CursorAction.inJournal action)
      (fun value after => outcome = .ok value ∧ after.1 = state ∧ calm after.2)
      fun interrupt _ => outcome = .error interrupt := by
  obtain ⟨same, sound⟩ := yields engine.journal (readable.sound holds)
  refine CursorAction.agree_in_journal ⟨rfl, ?_⟩
  revert same sound
  rcases action.run engine.journal with ⟨interrupt | value, journal⟩
  · exact fun same _ => same.symm
  · exact fun same sound => ⟨same.symm, rfl, readable.kept holds sound⟩

/-- In an undisturbed context nothing is cancelled. -/
theorem checks_calmly (holds : calm engine) :
    EndsIn (state, engine) (CursorAction.inJournal context.checkCancelled)
      (fun _ after => after = (state, engine)) fun _ _ => False := by
  refine CursorAction.agree_in_journal ⟨rfl, ?_⟩
  rw [Context.check_passes (readable.sound holds).uncancelled]
  exact rfl

theorem taps_calmly (holds : calm engine) (name : String) :
    EndsIn (state, engine) (CursorAction.inJournal (context.tap name))
      (fun _ after => after.1 = state ∧ calm after.2) fun _ _ => False :=
  CursorAction.agree_tap context name
    ⟨rfl, readable.kept holds ((readable.sound holds).tap context name)⟩

end Calm

/-- In a cancelled context the check fails. -/
theorem checks_cancelled (cancelled : (engine.journal.of context).cancelled = true) :
    EndsIn (state, engine) (CursorAction.inJournal context.checkCancelled) (fun _ _ => False)
      fun interrupt after => interrupt = .failed .cancelled ∧ after = (state, engine) := by
  refine CursorAction.agree_in_journal ⟨rfl, ?_⟩
  have stops : context.checkCancelled.run engine.journal =
      (.error (.failed .cancelled), engine.journal) := by
    unfold Context.checkCancelled
    rw [run_bind]
    change (if (engine.journal.of context).cancelled = true then fail .cancelled else pure () :
      Action Journal Unit).run engine.journal = _
    rw [cancelled]
    rfl
  rw [stops]
  exact ⟨rfl, rfl⟩

/-- Counting a call cancels nothing and takes no cancellation back. -/
theorem taps_cancelled (name : String) (cancelled : (engine.journal.of context).cancelled = true) :
    EndsIn (state, engine) (CursorAction.inJournal (context.tap name))
      (fun _ after => after.1 = state ∧ (after.2.journal.of context).cancelled = true)
      fun _ _ => False :=
  CursorAction.agree_tap context name
    ⟨rfl, (engine.journal.cancelled_tap context context name).trans cancelled⟩

theorem reading_agrees {action : Action Journal result} {outcome : Except Interrupt result}
    (yields : Yields (Journal.Sound context census) action outcome)
    (steady : engine.Steady context store census) :
    EndsIn (state, engine) (CursorAction.inJournal action)
      (fun value after => outcome = .ok value ∧ after.1 = state ∧
        after.2.Steady context store census)
      fun interrupt _ => outcome = .error interrupt :=
  reads_calmly (Engine.steady_readable context store census) yields steady

theorem not_cancelled_agrees (steady : engine.Steady context store census) :
    EndsIn (state, engine) (CursorAction.inJournal context.checkCancelled)
      (fun _ after => after = (state, engine)) fun _ _ => False :=
  checks_calmly (Engine.steady_readable context store census) steady

theorem tap_agrees (steady : engine.Steady context store census) (name : String) :
    EndsIn (state, engine) (CursorAction.inJournal (context.tap name))
      (fun _ after => after.1 = state ∧ after.2.Steady context store census) fun _ _ => False :=
  taps_calmly (Engine.steady_readable context store census) steady name

end Reading

namespace Node

variable {own input : Type} {context : Context} {store : Store} {inner : Protocol input}
  {delivers : Delivers input} {census : Census} {below : RowStream}
  {node : Node own input} {engine : Engine}

/-- The input answers, and nothing else of the cursor changes. -/
def Pulled (context : Context) (store : Store) (inner : Protocol input)
    (delivers : Delivers input) (census : Census) (below : RowStream) (node : Node own input)
    (row? : Option Row) (after : Node own input × Engine) : Prop :=
  ∃ pulled, after.1 = { node with input := pulled } ∧
    Delivered context store inner.phase delivers census below row? (pulled, after.2)

variable (produces : inner.Produces context store delivers)

include produces

theorem pull_delivers (delivering : delivers census below node.input)
    (steady : engine.Steady context store census) :
    EndsIn (node, engine) (pull inner) (Pulled context store inner delivers census below node)
      fun interrupt _ => below = .stopped interrupt := by
  apply CursorAction.agree_state
  dsimp only
  rw [if_pos (produces.active delivering)]
  refine agree_on_input (agree_weaken (produces.next delivering steady) ?_ ?_)
  · exact fun _ after delivered => ⟨after.1, rfl, delivered⟩
  · exact fun _ _ => id

omit produces in
/-- A cursor whose input has ended just closes. -/
theorem finish_closes_only (ended : inner.phase node.input = .closed) :
    EndsIn (node, engine) (finish inner)
      (fun _ after => after = ({ node with phase := .closed }, engine)) fun _ _ => False := by
  refine agree_reaching ({ node with phase := .closed }, engine)
    (agree_set_phase .closed rfl) fun _ => ?_
  refine agree_on_input (Protocol.agree_close_active rfl ?_ fun _ => rfl)
  intro active
  change (inner.phase node.input).isActive = true at active
  rw [ended] at active
  cases active

omit produces in
theorem finish_ended (ended : inner.phase node.input = .closed)
    (steady : engine.Steady context store census) :
    EndsIn (node, engine) (finish inner)
      (fun _ after => after.1.phase = .closed ∧ after.2.Steady context store census)
      fun _ _ => False := by
  refine agree_weaken (finish_closes_only ended) ?_ fun _ _ => id
  rintro _ _ rfl
  exact ⟨rfl, steady⟩

omit produces in
/-- The end of the input is the end of the pass. -/
theorem ended_delivers {above : Delivers (Node own input)} {earlier : Census}
    {interrupted : Interrupt → Node own input × Engine → Prop} (within : earlier.Within census)
    (ended : inner.phase node.input = .closed) (steady : engine.Steady context store census) :
    EndsIn (node, engine)
      (do
        finish inner
        pure none)
      (Delivered context store Node.phase above earlier ⟨[], none⟩) interrupted := by
  apply agree_surely (finish_ended ended steady)
  intro _ after ends
  obtain ⟨finished, engine⟩ := after
  obtain ⟨closed, steady⟩ := ends
  exact agree_pure none ⟨census, within, rfl, closed, steady⟩

/-- A cursor that ends before its input does closes it. -/
theorem finish_early (delivering : delivers census below node.input)
    (steady : engine.Steady context store census) :
    EndsIn (node, engine) (finish inner)
      (fun _ after => after.1.phase = .closed ∧ after.2.Steady context store census)
      fun _ _ => False := by
  refine agree_reaching ({ node with phase := .closed }, engine)
    (agree_set_phase .closed rfl) fun _ => ?_
  refine agree_on_input (Protocol.agree_close_active rfl ?_ fun _ => ⟨rfl, steady⟩)
  intro active
  exact agree_weaken (produces.close delivering steady) (fun _ _ ends => ⟨rfl, ends.2⟩)
    fun _ _ => id

omit produces in
theorem close_active_unbroken
    (unbroken : ∀ state engine, EndsIn (state, engine) inner.close (fun _ _ => True)
      fun interrupt _ => interrupt ≠ .indexOutOfRange) (state : input) (engine : Engine) :
    EndsIn (state, engine) inner.closeActive (fun _ _ => True)
      fun interrupt _ => interrupt ≠ .indexOutOfRange :=
  Protocol.agree_close_active rfl (fun _ => unbroken state engine) fun _ => trivial

/-- After a failure the cursor closes, and the failure remains the outcome. -/
theorem abort_never_stops :
    EndsIn (node, engine) (abort inner) (fun _ _ => True) fun _ _ => False := by
  refine agree_then (fun _ _ => True) (agree_attempt (agree_on_input
    (agree_weaken (close_active_unbroken produces.unbroken node.input engine)
      (fun _ _ => id) ?_))) fun _ _ _ => agree_set_phase .closed trivial
  rintro (error | _) after broken
  · exact trivial
  · exact broken rfl

theorem close_unbroken (node : Node own input) (engine : Engine) :
    EndsIn (node, engine) (close inner) (fun _ _ => True)
      fun interrupt _ => interrupt ≠ .indexOutOfRange := by
  refine agree_then (fun _ _ => True) (agree_check (fun _ => trivial) ?_) ?_
  · exact fun _ impossible => by cases impossible
  · intro _ after _
    obtain ⟨node, engine⟩ := after
    apply agree_then (fun _ _ => True) (agree_set_phase .closed trivial)
    intro _ after _
    obtain ⟨node, engine⟩ := after
    exact agree_on_input (close_active_unbroken produces.unbroken node.input engine)

/-- The cursor is active and makes its sequence of the sequence of its input, in a way that its
phase has no part in. -/
def Delivering (operate : Bindings → own → RowStream → RowStream) (delivers : Delivers input) :
    Delivers (Node own input) :=
  fun census stream node => node.phase.isActive = true ∧ node.bindings.Listed census ∧
    ∃ below, delivers census below node.input ∧ stream = operate node.bindings node.own below

/-- A cursor produces what its way of making rows produces. -/
theorem protocol_produces {operate : Bindings → own → RowStream → RowStream} (tap : String)
    {advance : CursorAction (Node own input) (Option Row)}
    (bounded : ∀ bindings progress stream, (operate bindings progress stream).rows.length ≤
      stream.rows.length)
    (advances : ∀ {census below node engine}, node.phase.isActive = true →
      node.bindings.Listed census → delivers census below node.input →
      engine.Steady context store census →
      EndsIn (node, engine) advance
        (Delivered context store Node.phase (Delivering operate delivers) census
          (operate node.bindings node.own below))
        fun interrupt _ => operate node.bindings node.own below = .stopped interrupt) :
    (protocol context tap inner advance).Produces context store
      (Delivering operate delivers) where
  active := fun delivering => delivering.1
  bounded := by
    intro census _ node ends
    obtain ⟨_, _, below, delivering, rfl⟩ := ends
    exact Nat.le_trans (bounded _ _ below) (produces.bounded delivering)
  later := by
    intro census later _ node within ends
    obtain ⟨active, bound, below, delivering, rfl⟩ := ends
    exact ⟨active, bound.later within, below, produces.later within delivering, rfl⟩
  next := by
    intro census _ node engine facts steady
    obtain ⟨active, bound, below, delivering, rfl⟩ := facts
    refine agree_past_check active ?_
    apply agree_surely (tap_agrees steady tap)
    intro _ after ends
    obtain ⟨node, tapped⟩ := after
    obtain ⟨rfl, steady⟩ := ends
    refine agree_bind (agree_on_failure (agree_weaken
      (advances active bound delivering steady) (fun _ _ => id) ?_)) ?_
    · rintro (error | _) ⟨failed, engine⟩ stopped
      · exact agree_given (abort_never_stops produces) fun _ _ _ => stopped
      · exact stopped
    · rintro (_ | row) ⟨reached, engine⟩ delivered
      · exact agree_pure none delivered
      · obtain ⟨later, rest, within, same, listed, steady, ⟨_, bound, further⟩⟩ := delivered
        refine agree_reaching ({ reached with phase := .running }, engine)
          (agree_set_phase .running rfl) fun _ => ?_
        exact agree_pure (some row)
          ⟨later, rest, within, same, listed, steady, rfl, bound, further⟩
  close := by
    intro census _ node engine facts steady
    obtain ⟨active, _, below, delivering, rfl⟩ := facts
    refine agree_past_check active ?_
    exact finish_early produces delivering steady
  unbroken := close_unbroken produces

end Node

end QueryExec
