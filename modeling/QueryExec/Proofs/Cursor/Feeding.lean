import QueryExec.Proofs.Census.Engine
import QueryExec.Proofs.Feed
import QueryExec.Proofs.Idle

/-!
How the cursor of a scan under filters and limits supplies its feed: each call of `next` gives the
first row of the feed and leaves a cursor that supplies the rest. The engine may change from call
to call, since the scan took its rows when it opened; what is asked of it is that rows can be read
in it and that nothing is cancelled. Besides an interruption of the feed only a fault of the
storage boundary makes a call fail.
-/

namespace QueryExec

open QueryExec.Action

/-- An engine in which rows are read as the census says, nothing is cancelled and only calls of the
admitted kinds fail. -/
structure Engine.Able (context : Context) (census : Census) (faulty : LeafCall → Prop)
    (engine : Engine) : Prop where
  journal : engine.journal.Sound context census
  faults : engine.FaultsWithin faulty

section Contract

variable {cursor : Type} {context : Context} {census : Census} {faulty : LeafCall → Prop}

theorem Engine.able_readable (context : Context) (census : Census) (faulty : LeafCall → Prop) :
    Engine.Readable context census (Engine.Able context census faulty) :=
  ⟨Engine.Able.journal, fun able sound => ⟨sound, able.faults⟩⟩

theorem Engine.Able.noted {engine : Engine} (able : engine.Able context census faulty)
    (call : LeafCall) : (engine.noted call).Able context census faulty :=
  ⟨able.journal, faults_within_noted able.faults call⟩

/-- Which feed a cursor state supplies. -/
abbrev Supplied (cursor : Type) : Type := Feed → cursor → Prop

/-- The answer of one call: the first row, with a cursor for the rest, or the end. -/
def Given (context : Context) (census : Census) (faulty : LeafCall → Prop)
    (phaseOf : cursor → Phase) (supplied : Supplied cursor) (feed : Feed) :
    Option Row → cursor × Engine → Prop
  | some row, after => ∃ rest, feed = rest.cons row ∧ after.2.Able context census faulty ∧
      supplied rest after.1
  | none, after => feed = ⟨[], none⟩ ∧ phaseOf after.1 = .closed ∧
      after.2.Able context census faulty

/-- Why a call fails: the feed is interrupted here or the storage boundary fails. -/
def Feed.Breaks (feed : Feed) (faulty : LeafCall → Prop) (interrupt : Interrupt) : Prop :=
  feed = .stopped interrupt ∨ interrupt.IsFaultOf faulty [.next, .close]

/-- The cursors of a protocol supply what is said of their states. -/
structure Protocol.Supplies (context : Context) (census : Census) (faulty : LeafCall → Prop)
    (protocol : Protocol cursor) (supplied : Supplied cursor) : Prop where
  active : ∀ {feed state}, supplied feed state → (protocol.phase state).isActive = true
  bounded : ∀ {feed state}, supplied feed state → feed.rows.length ≤ protocol.remaining state
  listed : ∀ {feed state}, supplied feed state → ∀ row ∈ feed.rows, row.Listed census
  next : ∀ {feed state engine}, supplied feed state → engine.Able context census faulty →
    EndsIn (state, engine) protocol.next
      (Given context census faulty protocol.phase supplied feed)
      fun interrupt _ => feed.Breaks faulty interrupt
  close : ∀ {feed state engine}, supplied feed state → engine.Able context census faulty →
    EndsIn (state, engine) protocol.close
      (fun _ after => protocol.phase after.1 = .closed ∧ after.2.Able context census faulty)
      fun interrupt _ => interrupt.IsFaultOf faulty [.close]

end Contract

namespace Scan

variable {context : Context} {census : Census} {faulty : LeafCall → Prop} {scan : Scan}
  {engine : Engine} {feed : Feed}

/-- An active leaf supplies its pending rows, which are listed. -/
def Supplying (census : Census) : Supplied Scan :=
  fun feed scan => scan.phase.isActive = true ∧ (∀ row ∈ scan.pending, row.Listed census) ∧
    feed = ⟨scan.pending, none⟩

theorem probed_supplies (context : Context) (census : Census) (faulty : LeafCall → Prop)
    (load : Action Engine (List Row)) :
    (probed (protocol context load)).Supplies context census faulty (Supplying census) where
  active := fun supplying => supplying.1
  bounded := by
    rintro _ scan ⟨_, _, rfl⟩
    exact Nat.le_refl _
  listed := by
    rintro _ scan ⟨_, listed, rfl⟩
    exact listed
  next := by
    rintro _ scan engine ⟨active, listed, rfl⟩ able
    refine instead_of_agrees able.faults (agree_weaken (next_takes
      (Engine.able_readable context census faulty) active (able.noted .next)) ?_ ?_) ?_
    · rintro (_ | row) ⟨_, engine⟩ ⟨taken, able⟩
      · obtain ⟨empty, rfl⟩ := taken
        exact ⟨by rw [empty], rfl, able⟩
      · obtain ⟨rest, pending, rfl⟩ := taken
        rw [pending] at listed ⊢
        exact ⟨⟨rest, none⟩, rfl, able, rfl, (List.forall_mem_cons.mp listed).2, rfl⟩
    · exact fun _ _ impossible => impossible.elim
    · exact fun admitted => .inr ⟨.next, by simp, admitted, rfl⟩
  close := by
    rintro _ scan engine ⟨active, _, rfl⟩ able
    refine agree_then (fun _ after => after = (scan, engine.noted .close)) ⟨rfl, rfl⟩ ?_
    rintro _ _ rfl
    apply agree_then (fun _ after => after.2 = engine.noted .close ∧ after.1.phase = .closed)
      (agree_given (close_agrees active) fun _ _ ends => ⟨ends.1, ends.2.2⟩)
    rintro _ ⟨closed, _⟩ ⟨rfl, phase⟩
    exact CursorAction.agree_in_engine (Engine.agree_inject_fault able.faults
      ⟨phase, able.noted .close⟩ fun admitted => ⟨.close, by simp, admitted, rfl⟩)

theorem load_table_gives {name : String} {table : StoredTable}
    (stored : engine.store.tables.get? name = some table) :
    EndsIn engine (loadTable name) (fun rows after => table.rows = rows ∧ engine = after)
      fun _ _ => False := by
  apply agree_bind (agree_weaken (Engine.stored_table_agrees name engine) (fun _ _ => id) ?_)
  · rintro found _ ⟨present, rfl⟩
    cases stored.symm.trans present
    exact agree_pure _ ⟨rfl, rfl⟩
  · rintro _ _ ⟨missing, _⟩
    cases stored.symm.trans missing

end Scan

namespace Node

variable {own input : Type} {context : Context} {census : Census} {faulty : LeafCall → Prop}
  {inner : Protocol input} {supplied : Supplied input} {below : Feed} {node : Node own input}
  {engine : Engine}

/-- The input answers, and nothing else of the cursor changes. -/
def Fed (context : Context) (census : Census) (faulty : LeafCall → Prop)
    (inner : Protocol input) (supplied : Supplied input) (below : Feed) (node : Node own input)
    (row? : Option Row) (after : Node own input × Engine) : Prop :=
  ∃ pulled, after.1 = { node with input := pulled } ∧
    Given context census faulty inner.phase supplied below row? (pulled, after.2)

/-- The cursor is active and makes its feed of the feed of its input, in a way that its phase has no
part in. -/
def Supplying (operate : Bindings → own → Feed → Feed) (census : Census)
    (supplied : Supplied input) : Supplied (Node own input) :=
  fun feed node => node.phase.isActive = true ∧ node.bindings.Listed census ∧
    ∃ below, supplied below node.input ∧ feed = operate node.bindings node.own below

/-- The end of the input is the end of the pass. -/
theorem ended_supplies {above : Supplied (Node own input)}
    {stops : Interrupt → Node own input × Engine → Prop}
    (ended : inner.phase node.input = .closed) (able : engine.Able context census faulty) :
    EndsIn (node, engine)
      (do
        finish inner
        pure none)
      (Given context census faulty Node.phase above ⟨[], none⟩) stops := by
  apply agree_surely (finish_closes_only ended)
  rintro _ _ rfl
  exact agree_pure none ⟨rfl, rfl, able⟩

variable (supplies : inner.Supplies context census faulty supplied)

include supplies

theorem pull_supplies (supplying : supplied below node.input)
    (able : engine.Able context census faulty) :
    EndsIn (node, engine) (pull inner) (Fed context census faulty inner supplied below node)
      fun interrupt _ => below.Breaks faulty interrupt := by
  apply CursorAction.agree_state
  dsimp only
  rw [if_pos (supplies.active supplying)]
  refine agree_on_input (agree_weaken (supplies.next supplying able) ?_ ?_)
  · exact fun _ after given => ⟨after.1, rfl, given⟩
  · exact fun _ _ => id

/-- A cursor that ends before its input does closes it, which may be what fails. -/
theorem finish_early_supplies (supplying : supplied below node.input)
    (able : engine.Able context census faulty) :
    EndsIn (node, engine) (finish inner)
      (fun _ after => after.1.phase = .closed ∧ after.2.Able context census faulty)
      fun interrupt _ => interrupt.IsFaultOf faulty [.close] := by
  refine agree_reaching ({ node with phase := .closed }, engine)
    (agree_set_phase .closed rfl) fun _ => ?_
  refine agree_on_input (Protocol.agree_close_active rfl ?_ fun _ => ⟨rfl, able⟩)
  intro active
  exact agree_weaken (supplies.close supplying able) (fun _ _ ends => ⟨rfl, ends.2⟩)
    fun _ _ => id

/-- A cursor supplies what its way of making rows supplies. -/
theorem protocol_supplies {operate : Bindings → own → Feed → Feed} (tap : String)
    {advance : CursorAction (Node own input) (Option Row)}
    (aborts : ∀ (node : Node own input) (engine : Engine),
      EndsIn (node, engine) (abort inner) (fun _ _ => True) fun _ _ => False)
    (part : ∀ bindings progress feed, (operate bindings progress feed).rows.Sublist feed.rows)
    (advances : ∀ {below node engine}, node.phase.isActive = true → node.bindings.Listed census →
      supplied below node.input → engine.Able context census faulty →
      EndsIn (node, engine) advance
        (Given context census faulty Node.phase (Supplying operate census supplied)
          (operate node.bindings node.own below))
        fun interrupt _ => (operate node.bindings node.own below).Breaks faulty interrupt) :
    (protocol context tap inner advance).Supplies context census faulty
      (Supplying operate census supplied) where
  active := fun supplying => supplying.1
  bounded := by
    rintro _ node ⟨_, _, below, supplying, rfl⟩
    exact Nat.le_trans (part _ _ below).length_le (supplies.bounded supplying)
  listed := by
    rintro _ node ⟨_, _, below, supplying, rfl⟩ row among
    exact supplies.listed supplying row ((part _ _ below).subset among)
  next := by
    rintro _ node engine ⟨active, bound, below, supplying, rfl⟩ able
    refine agree_past_check active ?_
    apply agree_surely (taps_calmly (Engine.able_readable context census faulty) able tap)
    rintro _ ⟨_, tapped⟩ ⟨rfl, able⟩
    refine agree_bind (agree_on_failure (agree_weaken
      (advances active bound supplying able) (fun _ _ => id) ?_)) ?_
    · rintro (error | _) ⟨failed, engine⟩ breaks
      · exact agree_given (aborts failed engine) fun _ _ _ => breaks
      · exact breaks
    · rintro (_ | row) ⟨reached, engine⟩ given
      · exact agree_pure none given
      · obtain ⟨rest, same, able, ⟨_, bound, further⟩⟩ := given
        refine agree_reaching ({ reached with phase := .running }, engine)
          (agree_set_phase .running rfl) fun _ => ?_
        exact agree_pure (some row) ⟨rest, same, able, rfl, bound, further⟩
  close := by
    rintro _ node engine ⟨active, _, below, supplying, rfl⟩ able
    refine agree_past_check active ?_
    exact finish_early_supplies supplies supplying able

end Node

section Operators

variable {input : Type} {context : Context} {census : Census} {faulty : LeafCall → Prop}
  {inner : Protocol input} {supplied : Supplied input} {below : Feed} {engine : Engine}

theorem Feed.filtered_breaks (keeps : Row → Except Interrupt Bool) {interrupt : Interrupt}
    (breaks : below.Breaks faulty interrupt) : (below.filtered keeps).Breaks faulty interrupt := by
  rcases breaks with rfl | fault
  · exact .inl rfl
  · exact .inr fault

theorem Feed.limited_breaks (offset : Nat) {left? : Option Nat} (room : left? ≠ some 0)
    {interrupt : Interrupt} (breaks : below.Breaks faulty interrupt) :
    (below.limited offset left?).Breaks faulty interrupt := by
  rcases breaks with rfl | fault
  · exact .inl (Feed.limited_stopped offset room interrupt)
  · exact .inr fault

namespace Filter

variable {node : State input} {inputType : RowType} {predicate : Expr}

def emit (context : Context) (inputType : RowType) (predicate : Expr) (bindings : Bindings)
    (_ : Unit) (below : Feed) : Feed :=
  below.filtered fun row => row.view.passes context bindings inputType predicate

theorem accepts_ably {row : Row} (listed : row.Listed census)
    (bound : node.bindings.Listed census) (able : engine.Able context census faulty) :
    EndsIn (node, engine) (accepts context predicate row)
      (fun accepted after =>
        (row.view.eval context node.bindings predicate).map Datum.isTrue = .ok accepted ∧
          after.1 = node ∧ after.2.Able context census faulty)
      fun interrupt _ =>
        (row.view.eval context node.bindings predicate).map Datum.isTrue = .error interrupt := by
  apply CursorAction.agree_state
  refine agree_bind (agree_weaken (reads_calmly (Engine.able_readable context census faulty)
    (eval_yields listed bound context predicate) able) (fun _ _ => id) ?_) ?_
  · intro interrupt _ failed
    rw [failed]
    rfl
  · rintro value after ⟨found, same, able⟩
    refine agree_pure value.isTrue ⟨?_, same, able⟩
    rw [found]
    rfl

/-- The induction is on the bound, which exceeds the rows that the input still supplies. -/
theorem search_supplies (supplies : inner.Supplies context census faulty supplied)
    (bound : Nat) (active : node.phase.isActive = true) (bindings : node.bindings.Listed census)
    (supplying : supplied below node.input) (enough : below.rows.length < bound)
    (able : engine.Able context census faulty) :
    EndsIn (node, engine) (search context inputType predicate inner bound)
      (Given context census faulty Node.phase
        (Node.Supplying (emit context inputType predicate) census supplied)
        (emit context inputType predicate node.bindings node.own below))
      fun interrupt _ =>
        (emit context inputType predicate node.bindings node.own below).Breaks faulty
          interrupt := by
  induction bound generalizing node engine below with
  | zero => exact absurd enough (Nat.not_lt_zero _)
  | succ bound induction =>
      refine agree_bind (agree_weaken (Node.pull_supplies supplies supplying able)
        (fun _ _ => id) fun _ _ => Feed.filtered_breaks _) ?_
      rintro (_ | row) ⟨_, engine⟩ ⟨pulled, rfl, given⟩
      · obtain ⟨rfl, ended, able⟩ := given
        exact Node.ended_supplies ended able
      obtain ⟨rest, rfl, able, further⟩ := given
      have own : row.Listed census := supplies.listed supplying row List.mem_cons_self
      have judged : emit context inputType predicate node.bindings node.own (rest.cons row) = _ :=
        Feed.filtered_cons _ row rest
      rw [judged]
      dsimp only
      split
      next foreign =>
        have passes : row.view.passes context node.bindings inputType predicate = .ok true :=
          if_neg (show ¬row.type.same inputType = true by simpa using foreign)
        rw [passes]
        exact agree_pure (some row) ⟨_, rfl, able, active, bindings, rest, further, rfl⟩
      next same =>
        have judges : row.view.passes context node.bindings inputType predicate =
            (row.view.eval context node.bindings predicate).map Datum.isTrue :=
          if_pos (show row.type.same inputType = true by simpa using same)
        rw [judges]
        refine agree_bind (agree_weaken (accepts_ably own bindings able) (fun _ _ => id) ?_) ?_
        · intro interrupt _ failed
          rw [failed]
          exact .inl rfl
        rintro accepted ⟨_, engine⟩ ⟨found, rfl, able⟩
        rw [found]
        cases accepted with
        | true => exact agree_pure (some row) ⟨_, rfl, able, active, bindings, rest, further, rfl⟩
        | false => exact induction active bindings further (Nat.lt_of_succ_lt_succ enough) able

theorem protocol_supplies (supplies : inner.Supplies context census faulty supplied)
    (aborts : ∀ (node : State input) (engine : Engine),
      EndsIn (node, engine) (Node.abort inner) (fun _ _ => True) fun _ _ => False)
    (inputType : RowType) (predicate : Expr) :
    (protocol context inputType predicate inner).Supplies context census faulty
      (Node.Supplying (emit context inputType predicate) census supplied) := by
  apply Node.protocol_supplies supplies "filter.next" aborts
    fun _ _ feed => Feed.filter_rows_sublist feed.ending feed.rows
  intro below node engine active bindings supplying able
  apply agree_surely (checks_calmly (Engine.able_readable context census faulty) able)
  rintro _ _ rfl
  apply CursorAction.agree_state
  exact search_supplies supplies _ active bindings supplying
    (Nat.lt_succ_of_le (supplies.bounded supplying)) able

end Filter

namespace Limit

variable {node : State input} {offset : Nat} {limit? : Option Nat}

def emit (offset : Nat) (limit? : Option Nat) (_ : Bindings) (progress : Progress)
    (below : Feed) : Feed :=
  below.limited (offset - progress.skipped) (limit?.map (· - progress.emitted))

/-- The induction is on the rows that are still to be dropped. -/
theorem skip_supplies (supplies : inner.Supplies context census faulty supplied) (count : Nat)
    (remains : offset - node.own.skipped = count) (active : node.phase.isActive = true)
    (bindings : node.bindings.Listed census) (supplying : supplied below node.input)
    (room : limit?.map (· - node.own.emitted) ≠ some 0)
    (able : engine.Able context census faulty) :
    EndsIn (node, engine) (skip inner count)
      (Given context census faulty Node.phase (Node.Supplying (emit offset limit?) census supplied)
        (emit offset limit? node.bindings node.own below))
      fun interrupt _ =>
        (emit offset limit? node.bindings node.own below).Breaks faulty interrupt := by
  induction count generalizing node engine below with
  | zero =>
      refine agree_bind (agree_weaken (Node.pull_supplies supplies supplying able)
        (fun _ _ => id) fun _ _ => Feed.limited_breaks _ room) ?_
      rintro (_ | row) ⟨_, engine⟩ ⟨pulled, rfl, given⟩
      · obtain ⟨rfl, ended, able⟩ := given
        rw [emit, Feed.limited_ended]
        exact Node.ended_supplies ended able
      · obtain ⟨rest, rfl, able, further⟩ := given
        refine agree_reaching ({ node with
              input := pulled
              own := { node.own with emitted := node.own.emitted + 1 } }, engine)
          (Node.agree_change_own _ rfl) fun _ => ?_
        refine agree_pure (some row) ⟨_, ?_, able, active, bindings, rest, further, rfl⟩
        unfold emit
        dsimp only
        rw [remains, counted_left]
        exact Feed.limited_take room row rest
  | succ count induction =>
      refine agree_bind (agree_weaken (Node.pull_supplies supplies supplying able)
        (fun _ _ => id) fun _ _ => Feed.limited_breaks _ room) ?_
      rintro (_ | row) ⟨_, engine⟩ ⟨pulled, rfl, given⟩
      · obtain ⟨rfl, ended, able⟩ := given
        rw [emit, Feed.limited_ended]
        exact Node.ended_supplies ended able
      · obtain ⟨rest, rfl, able, further⟩ := given
        refine agree_reaching ({ node with
              input := pulled
              own := { node.own with skipped := node.own.skipped + 1 } }, engine)
          (Node.agree_change_own _ rfl) fun _ => ?_
        have fewer : offset - (node.own.skipped + 1) = count := by omega
        have skipped : emit offset limit? node.bindings node.own (rest.cons row) =
            emit offset limit? node.bindings
              { node.own with skipped := node.own.skipped + 1 } rest := by
          unfold emit
          dsimp only
          rw [remains, fewer]
          exact Feed.limited_skip count room row rest
        rw [skipped]
        exact induction fewer active bindings further room able

theorem advance_supplies (supplies : inner.Supplies context census faulty supplied)
    (active : node.phase.isActive = true) (bindings : node.bindings.Listed census)
    (supplying : supplied below node.input) (able : engine.Able context census faulty) :
    EndsIn (node, engine) (advance context offset limit? inner)
      (Given context census faulty Node.phase (Node.Supplying (emit offset limit?) census supplied)
        (emit offset limit? node.bindings node.own below))
      fun interrupt _ =>
        (emit offset limit? node.bindings node.own below).Breaks faulty interrupt := by
  apply agree_surely (checks_calmly (Engine.able_readable context census faulty) able)
  rintro _ _ rfl
  apply CursorAction.agree_state
  dsimp only
  split
  next reached =>
    rw [emit, none_left reached, Feed.limited_none_left]
    apply agree_bind (agree_weaken (Node.finish_early_supplies supplies supplying able)
      (fun _ _ => id) fun _ _ fault => .inr (Interrupt.fault_subset fault _ (by simp)))
    rintro _ ⟨finished, engine⟩ ⟨closed, able⟩
    exact agree_pure none ⟨rfl, closed, able⟩
  next room => exact skip_supplies supplies _ rfl active bindings supplying (room_left room) able

theorem protocol_supplies (supplies : inner.Supplies context census faulty supplied)
    (aborts : ∀ (node : State input) (engine : Engine),
      EndsIn (node, engine) (Node.abort inner) (fun _ _ => True) fun _ _ => False)
    (offset : Nat) (limit? : Option Nat) :
    (protocol context offset limit? inner).Supplies context census faulty
      (Node.Supplying (emit offset limit?) census supplied) := by
  have base := Node.protocol_supplies supplies "limit.next" aborts
    (fun _ (progress : Progress) feed => Feed.limit_rows_sublist feed.ending
      (offset - progress.skipped) (limit?.map (· - progress.emitted)) feed.rows)
    (advance_supplies supplies)
  exact ⟨base.active, base.bounded, base.listed, base.next, base.close⟩

end Limit

end Operators

/-- A cursor that looks for a cancellation first fails in a cancelled context. -/
theorem Node.next_cancelled {own input : Type} {context : Context} {inner : Protocol input}
    {node : Node own input} {engine : Engine}
    (aborts : ∀ (node : Node own input) (engine : Engine),
      EndsIn (node, engine) (abort inner) (fun _ _ => True) fun _ _ => False) (tap : String)
    (rest : CursorAction (Node own input) (Option Row)) (active : node.phase.isActive = true)
    (cancelled : (engine.journal.of context).cancelled = true) :
    EndsIn (node, engine) (protocol context tap inner (do checkCancelled context; rest)).next
      (fun _ _ => False) fun interrupt _ => interrupt = .failed .cancelled := by
  refine agree_past_check active ?_
  apply agree_surely (taps_cancelled tap cancelled)
  rintro _ ⟨node, tapped⟩ ⟨rfl, cancelled⟩
  have stops : EndsIn (node, tapped) (do checkCancelled context; rest) (fun _ _ => False)
      fun interrupt _ => interrupt = .failed .cancelled :=
    agree_bind (agree_weaken (checks_cancelled cancelled) (fun _ _ => id) fun _ _ => And.left)
      fun _ _ impossible => impossible.elim
  refine agree_then (fun _ _ => False) (agree_on_failure (agree_weaken stops (fun _ _ => id) ?_))
    fun _ _ impossible => impossible.elim
  rintro _ ⟨failed, engine⟩ rfl
  exact agree_given (aborts failed engine) fun _ _ _ => rfl

namespace Plan

/-- Which feed the cursor of a scan under filters and limits supplies. -/
def Supplying (context : Context) (census : Census) : (plan : Plan) → Supplied plan.Cursor
  | values _ _ _ => fun _ _ => False
  | table _ _ => Scan.Supplying census
  | filter input predicate =>
      Node.Supplying (Filter.emit context input.rowType predicate) census
        (input.Supplying context census)
  | project _ _ _ => fun _ _ => False
  | aggregate _ _ _ _ => fun _ _ => False
  | limit input offset limit? =>
      Node.Supplying (Limit.emit offset limit?) census (input.Supplying context census)

theorem aborts (context : Context) (plan : Plan) {own : Type} (node : Node own plan.Cursor)
    (engine : Engine) :
    EndsIn (node, engine) (Node.abort (plan.protocol context)) (fun _ _ => True)
      fun _ _ => False :=
  Node.abort_never_stops (plan.protocol_produces context engine.store)

namespace Scans

variable {name : String} {type : RowType} {plan : Plan} (scans : plan.Scans name type)
  {context : Context} {census : Census} {faulty : LeafCall → Prop} {cursor : plan.Cursor}
  {engine : Engine}

include scans

/-- By induction on the operators over the scan. -/
theorem protocol_supplies (context : Context) (census : Census) (faulty : LeafCall → Prop) :
    (plan.protocol context).Supplies context census faulty (plan.Supplying context census) := by
  induction scans with
  | table => exact Scan.probed_supplies context census faulty (Scan.loadTable name)
  | @filter input _ predicate below =>
      exact Filter.protocol_supplies below (input.aborts context) input.rowType predicate
  | @limit input _ offset limit? below =>
      exact Limit.protocol_supplies below (input.aborts context) offset limit?

/-- In a cancelled context no row is given. -/
theorem next_cancelled (active : ((plan.protocol context).phase cursor).isActive = true)
    (cancelled : (engine.journal.of context).cancelled = true)
    (faults : engine.FaultsWithin faulty) :
    EndsIn (cursor, engine) (plan.protocol context).next (fun _ _ => False)
      fun interrupt _ => interrupt = .failed .cancelled ∨ interrupt.IsFaultOf faulty [.next] := by
  cases scans with
  | table =>
      refine Scan.instead_of_agrees faults ?_ fun admitted => .inr ⟨.next, by simp, admitted, rfl⟩
      refine Scan.agree_past_check active ?_
      have stopped : ((engine.noted .next).journal.of context).cancelled = true := cancelled
      refine agree_then (fun _ _ => False) (agree_on_failure (agree_weaken
        (checks_cancelled stopped) (fun _ _ => id) ?_)) fun _ _ impossible => impossible.elim
      rintro _ _ ⟨rfl, rfl⟩
      exact CursorAction.agree_change _ (.inl rfl)
  | @filter input _ predicate =>
      exact agree_weaken (Node.next_cancelled (input.aborts context) "filter.next" _ active
        cancelled) (fun _ _ => id) fun _ _ => .inl
  | @limit input _ offset limit? =>
      exact agree_weaken (Node.next_cancelled (input.aborts context) "limit.next" _ active
        cancelled) (fun _ _ => id) fun _ _ => .inl

/-- A tree that is closed all through is ready. -/
theorem ready {bindings : Bindings} {source : BindingSource}
    (coherent : plan.Coherent faulty cursor) (closed : plan.phase cursor = .closed)
    (carrying : plan.Carrying bindings source cursor) : plan.Ready bindings cursor := by
  induction scans with
  | table => exact closed
  | filter _ predicate below =>
      exact ⟨closed, carrying.1, below coherent.input (coherent.closed closed) carrying.2.2⟩
  | limit _ offset limit? below =>
      exact ⟨closed, carrying.1, below coherent.input (coherent.closed closed) carrying.2.2⟩

/-- A ready tree takes its rows from the table when it opens, and then supplies what the plan emits
of them. The journal changes only by what is counted. -/
theorem open_pass_supplies {table : StoredTable} {bindings : Bindings} {good : Journal → Prop}
    (counts : ∀ journal, good journal → good (journal.tap context "scan.open"))
    (stored : engine.store.tables.get? name = some table)
    (listed : ∀ row ∈ table.rows, row.Listed census) (bound : bindings.Listed census)
    (ready : plan.Ready bindings cursor) (holds : good engine.journal)
    (faults : engine.FaultsWithin faulty) :
    EndsIn (cursor, engine) (plan.protocol context).openPass
      (fun _ after =>
        plan.Supplying context census (plan.feed context bindings table.rows) after.1 ∧
        good after.2.journal ∧ after.2.FaultsWithin faulty)
      fun interrupt _ => interrupt.IsFaultOf faulty [.openPass] := by
  induction scans with
  | table =>
      refine Scan.instead_of_agrees faults ?_ fun admitted => ⟨.openPass, by simp, admitted, rfl⟩
      have legal : Call.openPass.legalIn (Scan.phase cursor) = true := by
        simp [Call.legalIn, show Scan.phase cursor = .closed from ready]
      refine Scan.agree_past_check legal ?_
      let tapped := { engine.noted .openPass with
        journal := engine.journal.tap context "scan.open" }
      refine agree_reaching (cursor, tapped)
        (CursorAction.agree_tap context "scan.open" rfl) fun _ => ?_
      have present : tapped.store.tables.get? name = some table := stored
      refine agree_then (fun rows after => table.rows = rows ∧ (cursor, tapped) = after)
        (CursorAction.agree_in_engine (agree_given (Scan.load_table_gives present)
          fun _ _ ends => ⟨ends.1, congrArg (Prod.mk cursor) ends.2⟩)) ?_
      rintro _ _ ⟨rfl, rfl⟩
      exact CursorAction.agree_change _ ⟨⟨rfl, listed, rfl⟩, counts _ holds,
        Engine.faults_within_noted faults .openPass⟩
  | @filter input _ predicate below =>
      obtain ⟨closed, rfl, rest⟩ := ready
      refine agree_weaken (Node.open_pass_delivers closed (below rest)) ?_ fun _ _ => id
      rintro _ ⟨_, engine⟩ ⟨opened, rfl, supplying, holds, faults⟩
      exact ⟨⟨rfl, bound, _, supplying, rfl⟩, holds, faults⟩
  | @limit input _ offset limit? below =>
      obtain ⟨closed, rfl, rest⟩ := ready
      apply agree_bind (Node.open_pass_delivers closed (below rest))
      rintro _ ⟨_, engine⟩ ⟨opened, rfl, supplying, holds, faults⟩
      exact Node.agree_change_own _
        ⟨⟨rfl, bound, _, supplying, (Feed.limited_new offset limit? _).symm⟩, holds, faults⟩

end Scans

end Plan

end QueryExec
