import QueryExec.Proofs.CurrentBinding
import QueryExec.Proofs.Places
import QueryExec.Proofs.Reopening

/-!
What the phase of an aggregation tells. In a pass that began with no row held, whatever is called
between its calls of `next` and whatever happens to the engine meanwhile, the phase says whether a
group is open, and the key, the accumulators, the held row and the flag agree with the rows that
came up. So every row of the input type goes into one group, and every group that is finished gives
one row, as soon as the row after it or the end of the input has come up.
-/

namespace QueryExec

open QueryExec.Action

namespace Grouping

section Resting

variable {input : Type} {inner : Protocol input} {context : Context} {plan : GroupingPlan}
  {node : State (Recorded input)} {engine : Engine} {sound : input → Prop}

/-- The pass is over, or all is as before but for the bindings of the input. -/
def Rested (inner : Protocol input) (node : State (Recorded input))
    (after : State (Recorded input) × Engine) : Prop :=
  after.1.phase.isActive = false ∨
    after.1.phase = node.phase ∧ after.1.own = node.own ∧ after.1.input.log = node.input.log ∧
      inner.phase after.1.input.cursor = inner.phase node.input.cursor

/-- A pass is past when its cursor is not active. -/
abbrev Past (node : State (Recorded input)) : Prop :=
  node.phase.isActive = false

/-- What is done to the input after the pass is over leaves it over. -/
theorem past_on_input {result : Type} (action : CursorAction (Recorded input) result) :
    Stays Past (Node.onInput action : CursorAction (State (Recorded input)) result) :=
  fun _ past => Node.agree_on_input
    (agree_weaken (agree_anyhow action _) (fun _ _ _ => past) fun _ _ _ => past)

theorem finish_past (node : State (Recorded input)) (engine : Engine) :
    EndsIn (node, engine) (Node.finish inner.recorded) (fun _ after => Past after.1)
      fun _ after => Past after.1 :=
  agree_then (fun _ after => Past after.1) (Node.agree_set_phase .closed rfl)
    fun _ after past => past_on_input _ after past

/-- A call that the phase refuses changes nothing. -/
theorem refused_stops {result : Type} {call : Call} (illegal : call.legalIn node.phase = false)
    (next : Unit → CursorAction (State (Recorded input)) result) :
    EndsIn (node, engine) (Node.check call >>= next) (fun _ _ => False)
      fun _ after => after.1 = node := by
  refine agree_then (fun _ _ => False) (Node.agree_check (fun legal => ?_) fun _ => rfl)
    fun _ _ impossible => impossible.elim
  rw [illegal] at legal
  cases legal

theorem Rested.of_same {after : State (Recorded input) × Engine} (same : after.1 = node) :
    Rested inner node after :=
  .inr ⟨congrArg _ same, congrArg _ same, by rw [same], by rw [same]⟩

/-- A call on the bindings passes on to the input. -/
theorem passed_on_rests {call : Call} {action : CursorAction input Unit}
    (passes : EndsIn (node.input.cursor, engine) action
      (fun _ after => inner.phase after.1 = inner.phase node.input.cursor)
      fun _ after => inner.phase after.1 = inner.phase node.input.cursor) :
    EndsIn (node, engine)
      (do
        Node.check call
        Node.onInput (Recorded.forward action))
      (fun _ after => Rested inner node after) fun _ after => Rested inner node after := by
  refine agree_reaching (node, engine)
    (Node.agree_check (fun _ => rfl) fun _ => .of_same rfl) fun _ => ?_
  exact Node.agree_on_input (Recorded.agree_forward (agree_weaken passes
    (fun _ _ same => .inr ⟨rfl, rfl, rfl, same⟩) fun _ _ same => .inr ⟨rfl, rfl, rfl, same⟩))

theorem open_pass_rests (active : node.phase.isActive = true) :
    EndsIn (node, engine) (openPass context inner.recorded)
      (fun _ after => Rested inner node after) fun _ after => Rested inner node after := by
  have illegal : Call.openPass.legalIn node.phase = false := by
    revert active
    cases node.phase <;> decide
  refine agree_then (fun _ after => after.1 = node) (CursorAction.agree_tap context _ rfl) ?_
  intro _ after same
  obtain ⟨_, tapped⟩ := after
  cases same
  exact agree_bind (agree_weaken (refused_stops illegal _) (fun _ _ => id) fun _ _ => .of_same)
    fun _ _ impossible => impossible.elim

theorem close_rests : EndsIn (node, engine) (close inner.recorded)
    (fun _ after => Rested inner node after) fun _ after => Rested inner node after := by
  apply agree_then (fun _ after => Past after.1)
  · refine agree_reaching (node, engine)
      (Node.agree_check (fun _ => rfl) fun _ => .of_same rfl) fun _ => ?_
    exact agree_weaken (finish_past node engine) (fun _ _ => id) fun _ _ => .inl
  · intro _ after past
    obtain ⟨closed, engine⟩ := after
    exact Node.agree_change_own _ (.inl past)

theorem destroy_rests (active : node.phase.isActive = true) :
    EndsIn (node, engine) (destroy inner.recorded)
      (fun _ after => Rested inner node after) fun _ after => Rested inner node after := by
  have legal : Call.destroy.legalIn node.phase = true := by
    revert active
    cases node.phase <;> decide
  have past : EndsIn (node, engine) (destroy inner.recorded) (fun _ after => Past after.1)
      fun _ after => Past after.1 := by
    apply agree_then (fun _ after => after.1.phase = node.phase) (Node.agree_change_own _ rfl)
    intro _ after same
    obtain ⟨released, engine⟩ := after
    have same : released.phase = node.phase := same
    refine agree_then (fun _ after => after = (released, engine))
      (Node.agree_check (fun _ => rfl) fun illegal => ?_) ?_
    · rw [same, legal] at illegal
      cases illegal
    intro _ _ unchanged
    subst unchanged
    apply CursorAction.agree_state
    rw [if_pos (show released.phase.isActive = true by rw [same]; exact active)]
    refine agree_then (fun _ after => Past after.1) (agree_attempt (agree_weaken
      (finish_past released engine) (fun _ _ => id) ?_)) ?_
    · rintro (_ | _) after past <;> exact past
    intro closed after past
    refine keeps_bind (keeps_attempt (past_on_input _)) (fun destroyed => ?_) after past
    refine keeps_bind (stays_change fun _ _ => rfl) fun _ => ?_
    exact keeps_bind (keeps_of_except closed) fun _ => keeps_of_except destroyed
  exact agree_weaken past (fun _ _ => .inl) fun _ _ => .inl

/-- Calls other than `next` end the pass or leave the place and the log as they are. -/
theorem call_rests (lawful : inner.Lawful (fun _ => True) sound inner)
    (active : node.phase.isActive = true) (kept : sound node.input.cursor)
    (present : inner.phase node.input.cursor ≠ .destroyed) {call : CursorCall}
    (other : call ≠ .next) :
    Rested inner node
      (((protocol context plan inner.recorded).perform call).run (node, engine)).2 := by
  have faults := engine.faults_within_any
  apply reaches_of_ends
  cases call with
  | next => exact absurd rfl other
  | openPass =>
      exact answer_agrees (fun _ => .done) (open_pass_rests active) (fun _ _ => id) fun _ _ => id
  | close => exact answer_agrees (fun _ => .done) close_rests (fun _ _ => id) fun _ _ => id
  | destroy =>
      exact answer_agrees (fun _ => .done) (destroy_rests active) (fun _ _ => id) fun _ _ => id
  | openBindings =>
      exact answer_agrees (fun _ => .done) (passed_on_rests (agree_weaken
        (lawful.openBindings kept faults present) (fun _ _ => And.right) fun _ _ ends => ends.2.1))
        (fun _ _ => id) fun _ _ => id
  | nextBindings =>
      have illegal : Call.nextBindings.legalIn node.phase = false := by
        revert active
        cases node.phase <;> decide
      exact answer_agrees .bindings (refused_stops illegal _)
        (fun _ _ impossible => impossible.elim) fun _ _ => .of_same
  | closeBindings =>
      exact answer_agrees (fun _ => .done) (passed_on_rests (agree_weaken
        (lawful.closeBindings kept faults present) (fun _ _ => And.right) fun _ _ ends => ends.2.1))
        (fun _ _ => id) fun _ _ => id
  | cancelBindings bindings =>
      refine agree_then (fun _ after => Rested inner node after) ⟨rfl, .inl ?_⟩
        fun _ _ rested => agree_pure _ rested
      change (if node.phase = .destroyed then Phase.destroyed else .closed).isActive = false
      split <;> rfl

end Resting

section Opening

variable {input : Type} {inner : Protocol input} {context : Context} {plan : GroupingPlan}
  {node : State input} {engine : Engine} {sound : input → Prop}

/-- A pass begins with an empty log, an active input and accumulators that start afresh. -/
theorem open_pass_opens (lawful : inner.Lawful (fun _ => True) sound inner)
    (kept : sound node.input) (closed : node.phase = .closed → inner.phase node.input = .closed) :
    Ensures (node.recorded [], engine) (openPass context inner.recorded) fun _ after =>
      after.1.phase = .opening ∧
      after.1.own =
        ⟨[], node.own.accumulators.map Accumulator.reset, node.own.lookahead?, false⟩ ∧
      after.1.input.log = [] ∧ (inner.phase after.1.input.cursor).isActive = true := by
  refine agree_then (fun _ after => after.1 = node.recorded [])
    (CursorAction.agree_tap context _ rfl) ?_
  intro _ after same
  obtain ⟨_, tapped⟩ := after
  cases same
  apply agree_then (fun _ after => after.1.phase = .opening ∧ after.1.own = node.own ∧
    after.1.input.log = [] ∧ (inner.phase after.1.input.cursor).isActive = true)
  · refine agree_then (fun _ after => after = (node.recorded [], tapped) ∧ node.phase = .closed)
      (Node.agree_check (fun legal => ⟨rfl, by simpa [Call.legalIn] using legal⟩)
        fun _ => trivial) ?_
    intro _ _ ends
    obtain ⟨rfl, idle⟩ := ends
    apply agree_then (fun _ after => after.1.own = node.own ∧ after.1.input.log = [] ∧
      (inner.phase after.1.input.cursor).isActive = true)
    · refine Node.agree_on_input (Recorded.agree_forward (agree_weaken
        (lawful.openPass kept tapped.faults_within_any (closed idle)) ?_ fun _ _ _ => trivial))
      exact fun _ _ ends => ⟨rfl, rfl, ends.2⟩
    · intro _ after ends
      obtain ⟨opened, engine⟩ := after
      exact Node.agree_set_phase .opening ⟨rfl, ends⟩
  · intro _ after ends
    obtain ⟨opened, engine⟩ := after
    obtain ⟨opening, same, empty, active⟩ := ends
    exact Node.agree_change_own _ ⟨opening, by rw [same], empty, active⟩

end Opening

/-- What the phase tells between two calls of a pass with such a log. Running: a group is open, and
the cursor has the key of its first row and what came of all its rows. Opening: no group is open,
and a row is held just if it ended a group, by the latest call. Closing: the last row was given, and
the input is at its end. -/
structure PhaseTells (catalog : Catalog) (plan : GroupingPlan) (fresh : List Accumulator)
    (inputPhase : Phase) (log : List Entry) (groups : List Group) (phase : Phase)
    (state : GroupingState) : Prop where
  active : phase.isActive = true
  running : phase = .running → ∃ group,
    declared plan.inputType log = (groups ++ [group]).flatMap Group.rows ∧
    group.Absorbed catalog plan fresh state.key state.accumulators ∧ state.lookahead? = none
  opening : phase = .opening →
    declared plan.inputType log = groups.flatMap Group.rows ++ state.lookahead?.toList ∧
    state.key = [] ∧ state.accumulators = fresh ∧
    (state.lookahead? = none ∧ groups = [] ∨
      ∃ row output earlier group before, state.lookahead? = some row ∧
        log = .given output :: .pulled row :: earlier ∧ groups = before ++ [group] ∧
        group.EndedBy catalog plan row)
  closing : phase = .closing →
    declared plan.inputType log = groups.flatMap Group.rows ∧ inputPhase = .closed ∧
    state.lookahead? = none ∧ ∃ output earlier, log = .given output :: .ended :: earlier
  seen : state.sawInput = true ↔ declared plan.inputType log ≠ []

theorem Stands.tells {catalog : Catalog} {plan : GroupingPlan} {fresh : List Accumulator}
    {log : List Entry} {groups : List Group} {place : Place} {phase inputPhase : Phase}
    {state : GroupingState} (stands : Stands catalog plan fresh log groups place phase state)
    (leaves : place.Leaves inputPhase) :
    PhaseTells catalog plan fresh inputPhase log groups phase state := by
  obtain ⟨account, keeping, saw⟩ := stands
  have rows := account.declared_rows
  cases keeping with
  | @between held? =>
      refine ⟨rfl, by simp, fun _ => ⟨rows, rfl, rfl, ?_⟩, by simp, saw⟩
      cases held? with
      | none => exact .inl ⟨rfl, account.unbegun rfl⟩
      | some row =>
          obtain ⟨output, earlier, group, before, same, finished, ends⟩ := account.held_row rfl
          exact .inr ⟨row, output, earlier, group, before, rfl, same, finished, ends⟩
  | @within group _ _ _ absorbed =>
      refine ⟨rfl, fun _ => ⟨group, ?_, absorbed, rfl⟩, by simp, by simp, saw⟩
      simpa [Place.rows] using rows
  | done =>
      refine ⟨rfl, by simp, by simp, fun _ => ⟨?_, leaves, rfl, account.last_given rfl⟩, saw⟩
      simpa [Place.rows] using rows

end Grouping

namespace Plan

open Grouping

variable {context : Context} {plan input : Plan} {type : RowType} {keys : Nat}
  {aggregates : List Aggregate}

/-- A tree that was served is one that calls can reach. -/
theorem Served.reached {cursor : plan.Cursor} {engine : Engine} {latest : Bindings}
    {given : List Delivery} (served : plan.Served context cursor engine latest given) :
    plan.Reached context (fun _ => True) cursor := by
  induction served with
  | start covered listed bound started => exact .start started
  | @call cursor _ engine _ _ _ earlier call _ ended reached =>
      have further := Reached.call reached call id engine engine.faults_within_any
      rw [layered_amid_id, ended] at further
      exact further
  | meanwhile earlier leads reached => exact reached

theorem accumulators_settled (aggregates : List Aggregate) :
    (accumulators aggregates).map Accumulator.reset = accumulators aggregates := by
  unfold accumulators
  split
  next ready => exact start_accumulators_reset ready
  next => rfl

/-- The protocol of an aggregation over an input that records what comes up. -/
def recordingGroups (context : Context) (input : Plan) (type : RowType) (keys : Nat) :
    Protocol (Grouping.State (Recorded input.Cursor)) :=
  Grouping.protocol context ⟨input.rowType, type, keys⟩ (input.protocol context).recorded

/-- A pass of an aggregation that began with no row held, the engine, and the log of what came up
and was given in the pass. Before the pass anything may have been done with the cursor; in the pass
it is called in any way that leaves it active, and between calls the engine may change. -/
inductive GroupingPass (context : Context) (input : Plan) (type : RowType) (keys : Nat)
    (aggregates : List Aggregate) :
    Grouping.State input.Cursor → Engine → List Entry → Prop
  | opened {cursor : Grouping.State input.Cursor}
      {after : Grouping.State (Recorded input.Cursor)} {engine later : Engine}
      {latest : Bindings} {given : List Delivery}
      (served : (aggregate input type keys aggregates).Served context cursor engine latest given)
      (empty : cursor.own.lookahead? = none)
      (opens : ((recordingGroups context input type keys).perform .openPass).run
        (cursor.recorded [], engine) = (.ok .done, after, later)) :
      GroupingPass context input type keys aggregates after.unrecorded later after.input.log
  | gave {cursor : Grouping.State input.Cursor} {log : List Entry}
      {after : Grouping.State (Recorded input.Cursor)} {engine later : Engine} {row : Row}
      (earlier : GroupingPass context input type keys aggregates cursor engine log)
      (gives : ((recordingGroups context input type keys).perform .next).run
        (cursor.recorded log, engine) = (.ok (.row (some row)), after, later)) :
      GroupingPass context input type keys aggregates after.unrecorded later
        (.given row :: after.input.log)
  | called {cursor : Grouping.State input.Cursor} {log : List Entry}
      {after : Grouping.State (Recorded input.Cursor)} {engine later : Engine}
      (earlier : GroupingPass context input type keys aggregates cursor engine log)
      (call : CursorCall) (other : call ≠ .next) {outcome : Except Interrupt CursorAnswer}
      (ended : ((recordingGroups context input type keys).perform call).run
        (cursor.recorded log, engine) = (outcome, after, later))
      (active : after.phase.isActive = true) :
      GroupingPass context input type keys aggregates after.unrecorded later after.input.log
  | meanwhile {cursor : Grouping.State input.Cursor} {log : List Entry} {engine later : Engine}
      {latest : Bindings} {given : List Delivery}
      (earlier : GroupingPass context input type keys aggregates cursor engine log)
      (served : (aggregate input type keys aggregates).Served context cursor engine latest given)
      (leads : engine.Leads (fun census =>
        (aggregate input type keys aggregates).Lists census cursor ∧
          ∀ delivery ∈ given, delivery.row.Listed census) later) :
      GroupingPass context input type keys aggregates cursor later log

variable {cursor : Grouping.State input.Cursor} {engine : Engine} {log : List Entry}

/-- A call on the recorded cursor is one more call on the cursor. -/
theorem served_recorded {after : Grouping.State (Recorded input.Cursor)} {later : Engine}
    {call : CursorCall} {outcome : Except Interrupt CursorAnswer}
    (served : ∃ latest given,
      (aggregate input type keys aggregates).Served context cursor engine latest given)
    (ended : ((recordingGroups context input type keys).perform call).run
      (cursor.recorded log, engine) = (outcome, after, later)) :
    ∃ latest given,
      (aggregate input type keys aggregates).Served context after.unrecorded later latest
        given := by
  obtain ⟨latest, given, served⟩ := served
  exact ⟨_, _, served.call call (perform_unrecorded context _ _ call ended)⟩

/-- The cursor of a pass has been served by its calls. -/
theorem GroupingPass.served
    (pass : GroupingPass context input type keys aggregates cursor engine log) :
    ∃ latest given,
      (aggregate input type keys aggregates).Served context cursor engine latest given := by
  induction pass with
  | opened served empty opens => exact served_recorded ⟨_, _, served⟩ opens
  | gave earlier gives served => exact served_recorded served gives
  | called earlier call other ended active served => exact served_recorded served ended
  | meanwhile earlier served leads _ => exact ⟨_, _, served.meanwhile leads⟩

section Answers

variable {cursor' result : Type} {start : cursor' × Engine}

theorem ensured_of_run {action : CursorAction cursor' result}
    {gives : result → cursor' × Engine → Prop} {value : result} {after : cursor' × Engine}
    (ensures : Ensures start action gives) (ran : action.run start = (.ok value, after)) :
    gives value after := by
  have meets := ensures.2
  unfold Meets at meets
  rw [ran] at meets
  exact meets

/-- The call that was answered like this. -/
theorem run_of_answer {action : CursorAction cursor' result} {answer : result → CursorAnswer}
    {given : CursorAnswer} {after : cursor' × Engine}
    (ran : (action >>= fun value => pure (answer value)).run start = (.ok given, after)) :
    ∃ value, answer value = given ∧ action.run start = (.ok value, after) := by
  rw [run_bind] at ran
  revert ran
  rcases action.run start with ⟨interrupt | value, reached⟩
  · rintro ⟨⟩
  · rintro ⟨⟩
    exact ⟨value, rfl, rfl⟩

end Answers

variable (context input type keys aggregates) in
/-- Some account of the log says where the aggregation stands. -/
def Placed (cursor : Grouping.State input.Cursor) (log : List Entry) : Prop :=
  ∃ groups place,
    Stands context.catalog ⟨input.rowType, type, keys⟩ (accumulators aggregates) log groups place
      cursor.phase cursor.own ∧
    place.Leaves ((input.protocol context).phase cursor.input)

section Calls

variable {after : Grouping.State (Recorded input.Cursor)} {later : Engine}
  (served : ∃ latest given,
    (aggregate input type keys aggregates).Served context cursor engine latest given)

include served

theorem opened_placed (empty : cursor.own.lookahead? = none)
    (opens : ((recordingGroups context input type keys).perform .openPass).run
      (cursor.recorded [], engine) = (.ok .done, after, later)) :
    Placed context input type keys aggregates after.unrecorded after.input.log := by
  obtain ⟨latest, given, served⟩ := served
  have coherent : Node.Coherent input.phase _ _ cursor := served.reached.coherent
  obtain ⟨source, -, primed, -⟩ := served.reached.carries
  have idle : cursor.phase = .closed → (input.protocol context).phase cursor.input = .closed := by
    rw [protocol_phase]
    exact coherent.closed
  obtain ⟨_, -, ran⟩ := run_of_answer opens
  obtain ⟨opening, same, nothing, active⟩ := ensured_of_run (open_pass_opens
    (input.protocol_lawful context) coherent.input idle) ran
  have fresh : cursor.own.accumulators.map Accumulator.reset = accumulators aggregates := primed
  rw [fresh, empty] at same
  refine ⟨[], .between none, ⟨?_, ?_, ?_⟩, active⟩
  · rw [nothing]
    exact .opened
  · change Keeping _ _ _ _ after.phase after.own
    rw [opening, same]
    exact .between
  · change after.own.sawInput = true ↔ _
    rw [same, nothing]
    exact ⟨nofun, fun some_declared => absurd rfl some_declared⟩

/-- What a call of `next` answers, and where it leaves the aggregation. -/
theorem next_answered (placed : Placed context input type keys aggregates cursor log)
    {row? : Option Row}
    (answered : ((recordingGroups context input type keys).perform .next).run
      (cursor.recorded log, engine) = (.ok (.row row?), after, later)) :
    Answered ⟨input.rowType, type, keys⟩ (accumulators aggregates) (input.protocol context) context
      row? (after, later) := by
  obtain ⟨latest, given, served⟩ := served
  obtain ⟨groups, place, stands, leaves⟩ := placed
  obtain ⟨-, -, census, ⟨listed, covered⟩, -⟩ := served.known
  obtain ⟨-, held, listed⟩ := listed
  obtain ⟨_, same, ran⟩ := run_of_answer answered
  cases same
  have answers : Ensures (cursor.recorded log, engine) _ _ :=
    next_answers (accumulators_settled aggregates) (input.protocol_dwindles context)
      (input.protocol_enrolling (fun _ => True) context) stands leaves held listed covered
  exact ensured_of_run answers ran

theorem called_placed (placed : Placed context input type keys aggregates cursor log)
    {call : CursorCall} (other : call ≠ .next) {outcome : Except Interrupt CursorAnswer}
    (ended : ((recordingGroups context input type keys).perform call).run
      (cursor.recorded log, engine) = (outcome, after, later))
    (active : after.phase.isActive = true) :
    Placed context input type keys aggregates after.unrecorded after.input.log := by
  obtain ⟨latest, given, served⟩ := served
  obtain ⟨groups, place, stands, leaves⟩ := placed
  have coherent : Node.Coherent input.phase _ _ cursor := served.reached.coherent
  have rested : Rested (input.protocol context) (cursor.recorded log)
      (((recordingGroups context input type keys).perform call).run
        (cursor.recorded log, engine)).2 :=
    call_rests (input.protocol_lawful context) stands.keeping.active coherent.input leaves.present
      other
  rw [ended] at rested
  rcases rested with past | ⟨same, kept, nothing, input_same⟩
  · rw [past] at active
    cases active
  · refine ⟨groups, place, ?_, ?_⟩
    · change Stands _ _ _ after.input.log groups place after.phase after.own
      rw [same, kept, nothing]
      exact stands
    · change place.Leaves ((input.protocol context).phase after.input.cursor)
      rw [input_same]
      exact leaves

end Calls

/-- A pass stands somewhere between any two calls: by induction on what happened in it. -/
theorem GroupingPass.placed
    (pass : GroupingPass context input type keys aggregates cursor engine log) :
    Placed context input type keys aggregates cursor log := by
  induction pass with
  | opened served empty opens => exact opened_placed ⟨_, _, served⟩ empty opens
  | gave earlier gives placed => exact next_answered earlier.served placed gives
  | called earlier call other ended active placed =>
      exact called_placed earlier.served placed other ended active
  | meanwhile earlier served leads placed => exact placed

/-- In every pass that begins with no row held, between any two calls, the phase tells where the
aggregation stands, each finished group has given one row, and gave it when the row after it or the
end of the input came up. A pass that is read to its end has given the rows of its groups, to which
all rows of the input type belong, or over none of them and without keys the row of empty values.
The log is that of the cursor itself, which is called as if nothing were recorded. -/
theorem GroupingPass.phase_tells_place
    (pass : GroupingPass context input type keys aggregates cursor engine log) :
    (∃ groups,
      PhaseTells context.catalog ⟨input.rowType, type, keys⟩ (accumulators aggregates)
        (input.phase cursor.input) log groups cursor.phase cursor.own ∧
      Gave context.catalog ⟨input.rowType, type, keys⟩ (accumulators aggregates) groups
        (made input.rowType log) ∧
      GivenInTime context.catalog ⟨input.rowType, type, keys⟩ (accumulators aggregates) log
        groups) ∧
    (∀ after later, ((recordingGroups context input type keys).perform .next).run
        (cursor.recorded log, engine) = (.ok (.row none), after, later) →
      after.phase = .closed ∧
      (after.own.sawInput = true ↔ declared input.rowType after.input.log ≠ []) ∧
      ∃ groups, Completed context.catalog ⟨input.rowType, type, keys⟩ (accumulators aggregates)
        after.input.log groups) ∧
    ∀ call outcome after later, ((recordingGroups context input type keys).perform call).run
        (cursor.recorded log, engine) = (outcome, after, later) →
      (((aggregate input type keys aggregates).protocol context).perform call).run
        (cursor, engine) = (outcome, after.unrecorded, later) := by
  refine ⟨?_, ?_, ?_⟩
  · obtain ⟨groups, place, stands, leaves⟩ := pass.placed
    rw [protocol_phase] at leaves
    exact ⟨groups, stands.tells leaves, stands.account.made_rows, stands.account.given_in_time⟩
  · exact fun after later answered => next_answered pass.served pass.placed answered
  · exact fun call outcome after later ended => perform_unrecorded context _ _ call ended

end Plan

/-! Two groups of one row each, with a row of another type between them: the first call gives that
row within the first group, the second gives the row of that group and holds the row that ended
it. -/

namespace Interleaved

open Grouping

def flags : RowType := ⟨1, [⟨.boolean, true⟩, ⟨.boolean, true⟩]⟩

def counts : RowType := ⟨2, [⟨.boolean, true⟩, .notNull .bigint]⟩

def first : Row := .stored 1 flags [.boolean true, .boolean true]

def stranger : Row := .stored 2 counts [.null, .null]

def second : Row := .stored 3 flags [.boolean false, .boolean true]

def input : Plan := .values 0 flags [first, stranger, second]

def plan : Plan := .aggregate input counts 1 [⟨.count, none⟩]

def context : Context := ⟨0, .standard, {}⟩

def new : Grouping.State Scan :=
  { own := { accumulators := [.count 0] }, input := { source := .ofOne .empty } }

def engine : Engine := { nextId := 4 }

/-- The recorded cursor and the engine after a call. -/
def step (call : CursorCall) (pair : Grouping.State (Recorded Scan) × Engine) :
    Grouping.State (Recorded Scan) × Engine :=
  (((Plan.recordingGroups context input counts 1).perform call).run pair).2

def opened : Grouping.State (Recorded Scan) × Engine :=
  step .openPass (new.recorded [], engine)

def within : Grouping.State (Recorded Scan) × Engine :=
  step .next opened

def between : Grouping.State (Recorded Scan) × Engine :=
  step .next (within.1.unrecorded.recorded (.given stranger :: within.1.input.log), within.2)

/-- What came up and was given, the latest last. -/
def log : List Entry :=
  [.pulled first, .pulled stranger, .given stranger, .pulled second,
    .given (.stored 4 counts [.boolean true, .whole .bigint (Whole.wrapSigned 1)])].reverse

theorem pass_between : Plan.GroupingPass context input counts 1 [⟨.count, none⟩]
    between.1.unrecorded between.2 log := by
  have unknown : engine.Covered (fun _ => True) (fun _ => none) :=
    ⟨Journal.faithful_empty, fun _ _ => rfl, Table.every_empty, Table.every_empty,
      Engine.faults_within_any _⟩
  have listed : plan.Listed fun _ => none := by
    intro row member
    simp only [List.mem_cons, List.not_mem_nil, or_false] at member
    rcases member with rfl | rfl | rfl <;> exact trivial
  have bound : (BindingSource.ofOne .empty).Listed fun _ => none := trivial
  have served : plan.Served context new engine .empty [] := .start unknown listed bound rfl
  have begun : Plan.GroupingPass context input counts 1 [⟨.count, none⟩] opened.1.unrecorded
      opened.2 [] := .opened served rfl rfl
  have passed : Plan.GroupingPass context input counts 1 [⟨.count, none⟩] within.1.unrecorded
      within.2 [.given stranger, .pulled stranger, .pulled first] := .gave begun rfl
  exact .gave passed rfl

/-- The second row is held for its group, and the first has been given with its count. -/
theorem row_held_between :
    Plan.GroupingPass context input counts 1 [⟨.count, none⟩] between.1.unrecorded between.2 log ∧
    between.1.phase = .opening ∧ between.1.own.lookahead? = some second ∧
    declared flags log = [first, second] ∧
    made flags log = [.stored 4 counts [.boolean true, .whole .bigint (Whole.wrapSigned 1)]] ∧
    ∃ groups,
      PhaseTells .standard ⟨flags, counts, 1⟩ [.count 0] between.1.input.cursor.phase log groups
        between.1.phase between.1.own ∧
      Gave .standard ⟨flags, counts, 1⟩ [.count 0] groups (made flags log) ∧
      GivenInTime .standard ⟨flags, counts, 1⟩ [.count 0] log groups :=
  ⟨pass_between, rfl, rfl, rfl, rfl, pass_between.phase_tells_place.1⟩

end Interleaved

end QueryExec
