import QueryExec.Proofs.Jobs
import QueryExec.Proofs.Release
import QueryExec.Proofs.SinglePass

/-!
What a job leaves behind. However it ends, its cursor is destroyed, and the leaf was asked for that
once; its failure is the first of its deeds, or that of the destruction where no deed failed; and
the rows of the session are held as before, except that the store gave up those that an update
replaced.
-/

namespace QueryExec

open QueryExec.Action

/-! A cursor that fails closes and destroys its input nevertheless. Where that fails too, the
failure that came first is the one that is answered. -/

section FirstFailure

variable {own input result : Type} {inner : Protocol input} {first second : QueryError}

/-- A failure stays what it was when the cleanup after it comes to an end. -/
theorem Action.on_failure_answers_first {state : Type} {cleanup : Action state Unit}
    {action : Action state result} {start reached cleaned : state}
    (fails : action.run start = (.error (.failed first), reached))
    (cleans : cleanup.run reached = (.ok (), cleaned)) :
    (Action.onFailure cleanup action).run start = (.error (.failed first), cleaned) := by
  rw [run_on_failure, fails]
  dsimp only
  rw [cleans]

namespace Node

variable {node : Node own input} {engine : Engine} {reached cleaned : Node own input × Engine}

/-- An active cursor passes the check of a call for a row and counts it. -/
theorem entered_run (active : node.phase.isActive = true) (context : Context) (tap : String)
    (rest : CursorAction (Node own input) result) :
    (do
      check .next
      CursorAction.inJournal (context.tap tap)
      rest : CursorAction (Node own input) result).run (node, engine) =
      rest.run (node, { engine with journal := engine.journal.tap context tap }) := by
  have legal : Call.next.legalIn node.phase = true := active
  have checked : (check .next : CursorAction (Node own input) Unit).run (node, engine) =
      (.ok (), node, engine) := by
    change (if Call.next.legalIn node.phase then pure () else _ :
      CursorAction (Node own input) Unit).run (node, engine) = _
    rw [if_pos legal]
    rfl
  rw [run_bind, checked]
  rfl

/-- Closing after a failure only closes, where the input fails to close. -/
theorem abort_drops_failure
    (closing : (onInput inner.closeActive).run reached = (.error (.failed second), cleaned)) :
    (abort inner).run reached = (.ok (), { cleaned.1 with phase := .closed }, cleaned.2) := by
  unfold abort
  rw [run_bind, run_attempt, closing]
  rfl

/-- A cursor that cannot make its next row answers why, also when its input cannot be closed. -/
theorem next_answers_first {context : Context} {tap : String}
    {advance : CursorAction (Node own input) (Option Row)} (active : node.phase.isActive = true)
    (fails : advance.run (node, { engine with journal := engine.journal.tap context tap }) =
      (.error (.failed first), reached))
    (closing : (onInput inner.closeActive).run reached = (.error (.failed second), cleaned)) :
    (protocol context tap inner advance).next.run (node, engine) =
      (.error (.failed first), { cleaned.1 with phase := .closed }, cleaned.2) := by
  refine (entered_run active context tap _).trans ?_
  rw [run_bind, Action.on_failure_answers_first fails (abort_drops_failure closing)]

/-- A cursor that cannot close its input when it is destroyed answers why, also when the input
cannot be destroyed. -/
theorem destroy_answers_first (active : node.phase.isActive = true)
    (closing : (finish inner).run (node, engine) = (.error (.failed first), reached))
    (destroying : (onInput inner.destroyOnce).run reached = (.error (.failed second), cleaned)) :
    (destroy inner).run (node, engine) =
      (.error (.failed first), { cleaned.1 with phase := .destroyed }, cleaned.2) := by
  have closed : (if node.phase.isActive then (finish inner).attempt else pure (.ok ()) :
      CursorAction (Node own input) (Except QueryError Unit)).run (node, engine) =
        (.ok (.error first), reached) := by
    rw [if_pos active, run_attempt, closing]
  rw [destroy_run (Phase.present_of_active active) closed]
  unfold destroyRest
  rw [run_bind, run_attempt, destroying]
  rfl

end Node

/-- The aggregation forgets the open group and the held row first, and answers alike. -/
theorem Grouping.next_answers_first {context : Context} {plan : GroupingPlan}
    {node : Grouping.State input} {engine : Engine}
    {reached cleaned : Grouping.State input × Engine} (active : node.phase.isActive = true)
    (fails : (Grouping.advance context plan inner).run
      (node, { engine with journal := engine.journal.tap context "aggregate.next" }) =
        (.error (.failed first), reached))
    (closing : (do
        Grouping.forget
        Node.onInput inner.closeActive : CursorAction (Grouping.State input) Unit).run reached =
      (.error (.failed second), cleaned)) :
    (Grouping.next context plan inner).run (node, engine) =
      (.error (.failed first), { cleaned.1 with phase := .closed }, cleaned.2) := by
  have cleans : (do
      Grouping.forget
      Node.abort inner : CursorAction (Grouping.State input) Unit).run reached =
        (.ok (), { cleaned.1 with phase := .closed }, cleaned.2) :=
    Node.abort_drops_failure closing
  exact (Node.entered_run active context "aggregate.next" _).trans
    (Action.on_failure_answers_first fails cleans)

end FirstFailure

namespace Protocol

variable {cursor result : Type} {protocol : Protocol cursor} {run : CursorAction cursor result}
  {start middle last : cursor × Engine} {ran : Except Interrupt result}
  {destroyed : Except Interrupt Unit}

/-- The failure of the run counts before that of the destruction. -/
theorem then_destroy_run (runs : run.run start = (ran, middle))
    (destroys : protocol.destroy.run middle = (destroyed, last))
    (returned : ran ≠ .error .indexOutOfRange) (ends : destroyed ≠ .error .indexOutOfRange) :
    (protocol.thenDestroy run).run start =
      (ran.bind fun value => destroyed.map fun _ => value, last) := by
  have attempted : ∃ tried, protocol.destroy.attempt.run middle = (.ok tried, last) ∧
      destroyed = tried.mapError .failed := by
    rw [run_attempt, destroys]
    rcases destroyed with ⟨error | _⟩ | _
    · exact ⟨.error error, rfl, rfl⟩
    · exact absurd rfl ends
    · exact ⟨.ok (), rfl, rfl⟩
  obtain ⟨tried, attempted, rfl⟩ := attempted
  unfold thenDestroy
  rw [run_bind, run_attempt, runs]
  rcases ran with ⟨_ | _⟩ | _
  · dsimp only
    rw [run_bind, attempted]
    rfl
  · exact absurd rfl returned
  · dsimp only
    rw [run_bind, attempted]
    cases tried <;> rfl

/-- Where the run reads outside a row, nothing is destroyed and nothing returned. -/
theorem then_destroy_outside (runs : run.run start = (.error .indexOutOfRange, middle)) :
    (protocol.thenDestroy run).run start = (.error .indexOutOfRange, middle) := by
  unfold thenDestroy
  rw [run_bind, run_attempt, runs]

end Protocol

namespace Job

variable {job : Job} {context : Context} {engine : Engine} {cursor : job.plan.Cursor}

/-- An answer made of an answer. -/
theorem answer_run {state other result : Type} (action : Action state other)
    (answer : other → result) (start : state) :
    fate ((action >>= fun value => pure (answer value)).run start).1 =
        fate (action.run start).1 ∧
      ((action >>= fun value => pure (answer value)).run start).2 = (action.run start).2 := by
  rw [run_bind]
  rcases action.run start with ⟨_ | _, _⟩ <;> exact ⟨rfl, rfl⟩

/-- A run of a job, apart from what it answers. -/
def RunsAs {result : Type} (job : Job) (context : Context) (engine : Engine)
    (cursor : job.plan.Cursor) (pass : Bindings → CursorAction job.plan.Cursor result) : Prop :=
  let whole := (job.plan.protocol context).thenDestroy ((job.plan.protocol context).runPasses pass)
  fate ((job.run context).run engine).1 = fate (whole.run (cursor, engine)).1 ∧
    ((job.run context).run engine).2 = (whole.run (cursor, engine)).2.2

/-- A job makes passes that are made of deeds, and then destroys its cursor. -/
theorem run_ends (context : Context)
    (started : job.plan.start engine.store job.source = .ok cursor) :
    ∃ (result : Type) (pass : Bindings → CursorAction job.plan.Cursor result),
      (∀ bindings, Does (job.perform context (job.plan.protocol context)) (pass bindings)) ∧
      job.RunsAs context engine cursor pass := by
  cases job with
  | execute plan bindings =>
      have begun : plan.start engine.store (.ofOne bindings) = .ok cursor := started
      refine ⟨_, fun _ => (plan.protocol context).drain, fun _ => does_drain fun _ _ => rfl, ?_⟩
      have same := answer_run (plan.run context (.ofOne bindings) fun _ =>
        (plan.protocol context).drain) (fun passes => passes.headD []) engine
      rw [Plan.run_started begun] at same
      exact same
  | executeEach plan bindings =>
      have begun : plan.start engine.store (.ofList bindings) = .ok cursor := started
      refine ⟨_, fun _ => (plan.protocol context).drain, fun _ => does_drain fun _ _ => rfl, ?_⟩
      have same : (plan.executeEach context bindings).run engine = _ := Plan.run_started begun
      exact ⟨congrArg (fun last => fate last.1) same, congrArg Prod.snd same⟩
  | updateTable update bindings =>
      have begun : update.input.start engine.store (.ofOne bindings) = .ok cursor := started
      refine ⟨_, update.pass context, fun _ => update.does_pass context _ _, ?_⟩
      have same := answer_run (update.input.run context (.ofOne bindings) (update.pass context))
        (fun counts => counts.headD {}) engine
      rw [Plan.run_started begun] at same
      exact same

theorem deed_leaves (context : Context) (deed : Deed) {unused : Nat}
    {start : job.plan.Cursor × Engine} (upright : job.plan.Upright start)
    (grown : unused ≤ start.2.nextId) :
    EndsIn start (job.perform context (job.plan.protocol context) deed)
      (fun replaced after => job.plan.Upright after ∧
        Engine.Succeeds unused replaced start.2 after.2)
      fun _ after => job.plan.Upright after ∧ Engine.Succeeds unused [] start.2 after.2 :=
  agree_both (job.deed_keeps_upright context deed start upright) (job.deed_succeeds deed grown)

/-- Deeds leave the tree upright, and in the store the rows that they replaced have new ones in
their place: by induction on the series. -/
theorem series_leaves {unused : Nat} {start last : job.plan.Cursor × Engine} {replaced : List Row}
    (series : Series (job.perform context (job.plan.protocol context)) start replaced last)
    (upright : job.plan.Upright start) (grown : unused ≤ start.2.nextId) :
    job.plan.Upright last ∧ Engine.Succeeds unused replaced start.2 last.2 := by
  induction series with
  | idle start => exact ⟨upright, Engine.succeeds_of_tables rfl grown⟩
  | further deed done _ induction =>
      have leaves := (deed_leaves context deed upright grown).2
      rw [done] at leaves
      obtain ⟨upright, succeeds⟩ := leaves
      obtain ⟨upright, further⟩ := induction upright succeeds.grown
      exact ⟨upright, succeeds.trans further⟩

/-- So does a run that ends with a deed that fails. -/
theorem ran_leaves {unused : Nat} {start last : job.plan.Cursor × Engine} {replaced : List Row}
    {outcome : Except Interrupt Unit}
    (ran : Ran (job.perform context (job.plan.protocol context)) start replaced outcome last)
    (upright : job.plan.Upright start) (grown : unused ≤ start.2.nextId) :
    job.plan.Upright last ∧ Engine.Succeeds unused replaced start.2 last.2 := by
  cases ran with
  | ended series => exact series_leaves series upright grown
  | stopped series deed failed =>
      obtain ⟨upright, succeeds⟩ := series_leaves series upright grown
      have leaves := (deed_leaves context deed upright succeeds.grown).2
      rw [failed] at leaves
      obtain ⟨upright, further⟩ := leaves
      have whole := succeeds.trans further
      rw [List.append_nil] at whole
      exact ⟨upright, whole⟩

/-- Destroying an upright tree fails by a fault only, destroys all of it and writes nothing. -/
theorem destroy_leaves (context : Context) {unused : Nat} {start : job.plan.Cursor × Engine}
    (upright : job.plan.Upright start) (grown : unused ≤ start.2.nextId) :
    let run := (job.plan.protocol context).destroy.run start
    run.1 ≠ .error .indexOutOfRange ∧ job.plan.Coherent (fun _ => True) run.2.1 ∧
      job.plan.phase run.2.1 = .destroyed ∧ Engine.Succeeds unused [] start.2 run.2.2 := by
  have present : (job.plan.protocol context).phase start.1 ≠ .destroyed := by
    rw [Plan.protocol_phase]
    exact upright.2
  have destroys := (job.plan.protocol_lawful context).destroy upright.1.1 upright.1.2 present
  have bounded : Engine.Bounded (Plan.Fixed (Engine.Untouched start.2.store.tables unused)) :=
    Plan.fixed_bounded fun _ _ => id
  have spares := Plan.spares_of_respects (job.plan.protocol_discreet bounded context).destroy start
    ⟨rfl, grown⟩
  rw [Plan.protocol_phase] at destroys
  refine ends_of_agree (fun ended after => ended ≠ .error .indexOutOfRange ∧
    job.plan.Coherent (fun _ => True) after.1 ∧ job.plan.phase after.1 = .destroyed ∧
      Engine.Succeeds unused [] start.2 after.2) (agree_weaken (agree_both destroys spares) ?_ ?_)
  · rintro _ after ⟨⟨kept, destroyed⟩, untouched⟩
    exact ⟨nofun, kept.1, destroyed, Engine.succeeds_of_tables untouched.1 untouched.2⟩
  · rintro _ after ⟨⟨kept, destroyed, call, _, _, rfl⟩, untouched⟩
    exact ⟨nofun, kept.1, destroyed, Engine.succeeds_of_tables untouched.1 untouched.2⟩

/-- Only an update replaces rows. -/
theorem deed_replaces (context : Context) (reads : ∀ update own, job ≠ .updateTable update own)
    (deed : Deed) (start : job.plan.Cursor × Engine) :
    EndsIn start (job.perform context (job.plan.protocol context) deed)
      (fun replaced _ => replaced = []) fun _ _ => True := by
  have nothing : ∀ {result : Type} (action : CursorAction job.plan.Cursor result),
      EndsIn start (action >>= fun _ => pure []) (fun replaced _ => replaced = ([] : List Row))
        fun _ _ => True :=
    fun action => agree_bind (agree_anyhow action start) fun _ _ _ => agree_pure [] rfl
  have reading : ∀ row, EndsIn start (CursorAction.inEngine (do
      let _ ← Engine.inJournal (Row.readAll row)
      pure false) : CursorAction job.plan.Cursor Bool) (fun replaced _ => replaced = false)
      fun _ _ => True := fun row => CursorAction.agree_in_engine
    (agree_bind (agree_anyhow (Engine.inJournal row.readAll) start.2) fun _ _ _ =>
      agree_pure false rfl)
  cases deed with
  | openBindings => exact nothing _
  | nextBindings => exact nothing _
  | openPass => exact nothing _
  | next => exact nothing _
  | closeBindings => exact nothing _
  | work bindings row =>
      cases job with
      | updateTable update own => exact absurd rfl (reads update own)
      | execute plan own =>
          exact agree_bind (reading row) fun _ _ none => agree_pure _ (by rw [none]; rfl)
      | executeEach plan own =>
          exact agree_bind (reading row) fun _ _ none => agree_pure _ (by rw [none]; rfl)

theorem ran_replaces {start last : job.plan.Cursor × Engine} {replaced : List Row}
    {outcome : Except Interrupt Unit}
    (ran : Ran (job.perform context (job.plan.protocol context)) start replaced outcome last)
    (reads : ∀ update own, job ≠ .updateTable update own) : replaced = [] := by
  have none : ∀ {start last replaced},
      Series (job.perform context (job.plan.protocol context)) start replaced last →
      replaced = [] := by
    intro start last replaced series
    induction series with
    | idle start => rfl
    | further deed done _ induction =>
        rw [induction, answer_of_ends (deed_replaces context reads deed _) (congrArg Prod.fst done)]
        rfl
  cases ran with
  | ended series => exact none series
  | stopped series _ _ => exact none series

theorem fate_eq_outside {result : Type} {outcome : Except Interrupt result} :
    fate outcome = .error .indexOutOfRange ↔ outcome = .error .indexOutOfRange := by
  rcases outcome with ⟨_ | _⟩ | _ <;> simp [fate, Except.map]

theorem fate_then {result : Type} (ran : Except Interrupt result)
    (destroyed : Except Interrupt Unit) :
    fate (ran.bind fun value => destroyed.map fun _ => value) =
      (fate ran).bind fun _ => destroyed := by
  cases ran <;> cases destroyed <;> rfl

/-- A job that returns is a run of deeds and then a destruction, whose failure counts only after no
other. -/
theorem run_in_parts {outcome : Except Interrupt job.Answer} {after : Engine}
    (started : job.plan.start engine.store job.source = .ok cursor)
    (ended : (job.run context).run engine = (outcome, after))
    (returned : outcome ≠ .error .indexOutOfRange) :
    ∃ ran replaced middle, Ran (job.perform context (job.plan.protocol context)) (cursor, engine)
        replaced ran middle ∧
      job.plan.Upright middle ∧ Engine.Succeeds engine.nextId replaced engine middle.2 ∧
      fate outcome =
        ran.bind (fun _ => ((job.plan.protocol context).destroy.run middle).1) ∧
      after = ((job.plan.protocol context).destroy.run middle).2.2 := by
  obtain ⟨result, pass, does, same, state⟩ := run_ends context started
  obtain ⟨replaced, ran⟩ := does_run_passes does (cursor, engine)
  rw [ended] at same state
  rcases runs : ((job.plan.protocol context).runPasses pass).run (cursor, engine) with
    ⟨passes, middle⟩
  rw [runs] at ran
  have inside : passes ≠ .error .indexOutOfRange := by
    rintro rfl
    rw [Protocol.then_destroy_outside runs] at same
    exact returned (fate_eq_outside.mp same)
  have upright : job.plan.Upright (cursor, engine) := by
    obtain ⟨coherent, closed⟩ := Plan.start_coherent started
    exact ⟨⟨coherent, engine.faults_within_any⟩, by rw [closed]; decide⟩
  obtain ⟨upright, succeeds⟩ := ran_leaves ran upright (Nat.le_refl _)
  have legal := (destroy_leaves context upright succeeds.grown).1
  rw [Protocol.then_destroy_run runs rfl inside legal] at same state
  exact ⟨fate passes, replaced, middle, ran, upright, succeeds, same.trans (fate_then _ _), state⟩

/-- The holders of a row, where the store gave up some rows for new ones. -/
theorem holders_after {session : Session} {census : Census} {faulty : LeafCall → Prop}
    (covered : session.Covered faulty census) {after : Engine} {replaced : List Row}
    (succeeds : Engine.Succeeds session.engine.nextId replaced session.engine after) (row : Row)
    (given : row.id < session.engine.nextId) :
    session.claims.holders row =
      { session with engine := after }.claims.holders row + replaced.countP row.same := by
  have beside : Claims.Aside census after.store.rows := by
    intro other among
    rcases succeeds.made other among with earlier | ⟨stored, new⟩
    · exact covered.stored_aside other earlier
    · exact ⟨stored, covered.engine.fresh _ new⟩
  have exchanged := covered.holders_stored beside row
  have counted := succeeds.counts row given
  omega

/-- However a job ends that has made its cursor and that returns, it leaves no trace. Until the
destruction its deeds are the same whatever its leaf does when it is destroyed, and the destruction
asks the leaf once; the failure is that of the first deed that failed, or else that of the
destruction. All cursors are destroyed then and hold no rows, and every row that there was has as
many holders as before, but for the rows that an update replaced, which the store holds no more. -/
theorem leaves_no_trace {session : Session} (reached : session.Reached fun _ => True)
    {outcome : Except Interrupt job.Answer} {after : Engine}
    (started : job.plan.start session.engine.store job.source = .ok cursor)
    (ended : (job.run context).run session.engine = (outcome, after))
    (returned : outcome ≠ .error .indexOutOfRange) :
    ∃ (ran destroyed : Except Interrupt Unit) (replaced : List Row)
      (middle : job.plan.Cursor × Engine) (last : job.plan.Cursor),
      (∀ answer, Ran (job.perform context (job.plan.answering context answer))
        (cursor, session.engine) replaced ran middle) ∧
      AsksOnce job.plan.leaf job.plan.sealed
        (fun answer => (job.plan.answering context answer).destroy) middle ∧
      (∃ answer, job.plan.answering context answer = job.plan.protocol context) ∧
      (job.plan.protocol context).destroy.run middle = (destroyed, last, after) ∧
      fate outcome = ran.bind (fun _ => destroyed) ∧
      (∀ phase ∈ job.plan.phases last, phase = .destroyed) ∧
      job.plan.held last = [] ∧
      ((∀ update own, job ≠ .updateTable update own) → replaced = []) ∧
      ∀ row : Row, row.id < session.engine.nextId →
        session.claims.holders row =
          { session with engine := after }.claims.holders row + replaced.countP row.same ∧
        session.engine.store.rows.countP row.same =
          after.store.rows.countP row.same + replaced.countP row.same := by
  obtain ⟨census, covered⟩ := reached.covered
  obtain ⟨ran, replaced, middle, runs, upright, succeeds, fated, rfl⟩ :=
    run_in_parts started ended returned
  obtain ⟨_, coherent, gone, unwritten⟩ := destroy_leaves context upright succeeds.grown
  have whole := succeeds.trans unwritten
  rw [List.append_nil] at whole
  refine ⟨ran, _, replaced, middle, _, fun answer => ?_, job.plan.asks_once context upright.1
    upright.2, job.plan.answering_own context, rfl, fated,
    (Plan.destroyed_iff_all coherent).mp gone, Plan.nothing_held_when_released coherent (.inl gone),
    ran_replaces runs, fun row given => ⟨holders_after covered whole row given,
      whole.counts row given⟩⟩
  rw [Plan.answering_eq, perform_destroying]
  exact runs

end Job

/-! An update of two rows, each of which has a name too, in which the second lock fails and then the
leaf fails to be destroyed. -/

namespace TwoFaults

open Session

def probe : Probe where
  faults := ⟨[(.lock, [2]), (.destroy, [1])]⟩

def new : Session where
  engine := { nextId := 2, probe? := some probe }
  context := ⟨1, .empty, {}⟩
  catalog := .empty

theorem new_reached : new.Reached fun _ => True := by
  have started : Session.start {} { standard := false } (some probe) = .ok new := rfl
  exact .start started fun _ _ _ _ _ _ => trivial

def session : Session :=
  new.after [.type "flag" [.notNull .boolean], .createTable "flags" "flag",
    .insert "flags" [.ofValues [.boolean false], .ofValues [.boolean true]],
    .table "flags" (some "kept")]

def type : RowType :=
  ⟨1, [.notNull .boolean]⟩

def first : Row :=
  .stored 3 type [.boolean false]

def second : Row :=
  .stored 5 type [.boolean true]

def job : Job :=
  .updateTable ⟨.table "flags" type, "flags", none, [none]⟩ .empty

def cursor : job.plan.Cursor :=
  ({ source := .ofOne .empty } : Scan)

def updated : Except Interrupt job.Answer × Engine :=
  (job.run session.context).run session.engine

def locked : Except Interrupt Unit :=
  .error (.failed (.storage (.injected LeafCall.lock.name)))

theorem fails_to_lock : fate updated.1 = locked := by
  decide +kernel

theorem holders_before :
    session.claims.holders first = 2 ∧ session.claims.holders second = 2 := by
  decide +kernel

theorem holders_later :
    { session with engine := updated.2 }.claims.holders first = 1 ∧
      { session with engine := updated.2 }.claims.holders second = 2 := by
  decide +kernel

theorem rows_given :
    first.id < session.engine.nextId ∧ second.id < session.engine.nextId := by
  decide +kernel

/-- The update fails by the lock and has replaced the first row only, which keeps its name. -/
theorem first_row_replaced :
    session.Reached (fun _ => True) ∧
    job.plan.start session.engine.store job.source = .ok cursor ∧
    fate updated.1 = locked ∧
    { session with engine := updated.2 }.claims.holders first = 1 ∧
    { session with engine := updated.2 }.claims.holders second = 2 ∧
    ∃ (ran destroyed : Except Interrupt Unit) (replaced : List Row)
      (middle : job.plan.Cursor × Engine) (last : job.plan.Cursor),
      (∀ answer, Ran (job.perform session.context (job.plan.answering session.context answer))
        (cursor, session.engine) replaced ran middle) ∧
      AsksOnce job.plan.leaf job.plan.sealed
        (fun answer => (job.plan.answering session.context answer).destroy) middle ∧
      (job.plan.protocol session.context).destroy.run middle = (destroyed, last, updated.2) ∧
      locked = ran.bind (fun _ => destroyed) ∧
      (∀ phase ∈ job.plan.phases last, phase = .destroyed) ∧ job.plan.held last = [] ∧
      replaced.countP first.same = 1 ∧ replaced.countP second.same = 0 := by
  have reached : session.Reached fun _ => True := new_reached.after _
  have started : job.plan.start session.engine.store job.source = .ok cursor := rfl
  have ended : (job.run session.context).run session.engine = (updated.1, updated.2) := by
    exact (Prod.eta updated).symm
  have returned : updated.1 ≠ .error .indexOutOfRange := by
    intro outside
    have fails := fails_to_lock
    rw [outside] at fails
    cases fails
  obtain ⟨ran, destroyed, replaced, middle, last, series, asks, _, destroys, fated, gone, empty, _,
    holders⟩ := Job.leaves_no_trace reached started ended returned
  have ofFirst := (holders first rows_given.1).1
  have ofSecond := (holders second rows_given.2).1
  rw [holders_before.1, holders_later.1] at ofFirst
  rw [holders_before.2, holders_later.2] at ofSecond
  exact ⟨reached, started, fails_to_lock, holders_later.1, holders_later.2, ran, destroyed,
    replaced, middle, last, series, asks, destroys, fails_to_lock.symm.trans fated, gone, empty,
    by omega, by omega⟩

end TwoFaults

end QueryExec
