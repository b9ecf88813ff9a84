import QueryExec.Proofs.Execution

/-!
Reopening a cursor. A closed tree that holds nothing is opened again as a new one would be: its
history shows in no row and in no failure. A tree that holds a row gives that row once more, and
that happens exactly where a leaf can fail to close.
-/

namespace QueryExec

open QueryExec.Action

namespace Plan

/-- The binding that the tree was given last. -/
def current : (plan : Plan) → plan.Cursor → Bindings
  | values _ _ _ => Scan.current
  | table _ _ => Scan.current
  | filter input _ => fun node : Filter.State input.Cursor => input.current node.input
  | project input _ _ => fun node : Project.State input.Cursor => input.current node.input
  | aggregate input _ _ _ => fun node : Grouping.State input.Cursor => input.current node.input
  | limit input _ _ => fun node : Limit.State input.Cursor => input.current node.input

variable {context : Context} {faulty : LeafCall → Prop} {plan : Plan} {cursor : plan.Cursor}

theorem current_eq {bindings : Bindings} {source : BindingSource}
    (carrying : plan.Carrying bindings source cursor) : plan.current cursor = bindings := by
  induction plan with
  | values slice type rows => exact carrying.1
  | table name type => exact carrying.1
  | filter input predicate induction => exact induction carrying.2.2
  | project input type columns induction => exact induction carrying.2.2
  | aggregate input type keys aggregates induction => exact induction carrying.2.2
  | limit input offset limit? induction => exact induction carrying.2.2

/-- Some binding and some source are carried. -/
def CarriesSome {cursor : Type} (has : Carried cursor) (pair : cursor × Engine) : Prop :=
  ∃ bindings source, has bindings source pair.1

/-- One call of any sort moves the binding and the source and does not lose them. -/
theorem call_carries {cursor : Type} {protocol : Protocol cursor} {has : Carried cursor}
    (carries : protocol.Carries has) {state : cursor} (engine : Engine) (call : CursorCall)
    (carrying : CarriesSome has (state, engine)) :
    CarriesSome has ((protocol.perform call).run (state, engine)).2 := by
  obtain ⟨bindings, source, carrying⟩ := carrying
  have somehow : ∀ (_ : Interrupt) (after : cursor × Engine), has bindings source after.1 →
      CarriesSome has after := fun _ _ holds => ⟨_, _, holds⟩
  apply reaches_of_ends
  cases call with
  | openPass =>
      exact answer_agrees (fun _ => .done) (carries.openPass bindings source _ carrying)
        (fun _ _ holds => ⟨_, _, holds⟩) somehow
  | next =>
      exact answer_agrees .row (carries.next bindings source _ carrying)
        (fun _ _ holds => ⟨_, _, holds⟩) somehow
  | close =>
      exact answer_agrees (fun _ => .done) (carries.close bindings source _ carrying)
        (fun _ _ holds => ⟨_, _, holds⟩) somehow
  | destroy =>
      exact answer_agrees (fun _ => .done) (carries.destroy bindings source _ carrying)
        (fun _ _ holds => ⟨_, _, holds⟩) somehow
  | openBindings =>
      exact answer_agrees (fun _ => .done) (carries.openBindings engine carrying)
        (fun _ _ holds => ⟨_, _, holds⟩) somehow
  | nextBindings =>
      exact answer_agrees .bindings (carries.nextBindings engine carrying)
        (fun _ _ moved => ⟨_, _, moved.2⟩) somehow
  | closeBindings =>
      exact answer_agrees (fun _ => .done) (carries.closeBindings engine carrying)
        (fun _ _ holds => ⟨_, _, holds⟩) somehow
  | cancelBindings cancelled =>
      refine agree_then (fun _ after => CarriesSome has after) ⟨rfl, ?_⟩
        fun _ _ holds => agree_pure _ holds
      exact ⟨_, _, carries.cancelBindings cancelled engine carrying⟩

/-- Every reachable tree is under one binding, with a source at its leaf. -/
theorem Reached.carries (reached : plan.Reached context faulty cursor) :
    ∃ source, plan.Carrying (plan.current cursor) source cursor := by
  have carrying : ∃ bindings source, plan.Carrying bindings source cursor := by
    induction reached with
    | start started => exact ⟨_, _, start_carries started⟩
    | call earlier call meanwhile engine faults carrying =>
        exact call_carries (layered_carries context meanwhile plan) engine call carrying
  obtain ⟨bindings, source, carrying⟩ := carrying
  rw [current_eq carrying]
  exact ⟨source, carrying⟩

/-- A new cursor that was given a binding is idle under it. -/
theorem bound_idle (context : Context) {store : Store} {census : Census} {bindings : Bindings}
    {engine : Engine} {earlier : Store} {fresh : plan.Cursor}
    (started : plan.start earlier (.ofOne bindings) = .ok fresh)
    (steady : engine.Steady context store census) :
    Idle context store census plan bindings (.single bindings .exhausted)
      (plan.history context [.openBindings, .nextBindings] (fresh, engine)) := by
  have opened : Idle context store census plan .empty (.single bindings .pending)
      (((plan.protocol context).perform .openBindings).run (fresh, engine)).2 := by
    exact reaches_of_ends (answer_agrees (fun _ => .done)
      (start_idle started steady).open_bindings_agrees (fun _ _ => id)
      fun _ _ impossible => impossible.elim)
  refine reaches_of_ends (answer_agrees .bindings opened.next_bindings_agrees ?_
    fun _ _ impossible => impossible.elim)
  intro _ _ ends
  obtain ⟨rfl, idle⟩ := ends
  exact idle

/-- A closed tree that holds nothing is opened as a new one that was given the same binding,
whatever failed before. -/
theorem seen_anew_of_empty {engine : Engine} {earlier : Store} {fresh : plan.Cursor}
    (reached : plan.Reached context faulty cursor) (closed : plan.phase cursor = .closed)
    (empty : plan.held cursor = [])
    (undisturbed : plan.Undisturbed context (plan.current cursor) engine)
    (started : plan.start earlier (.ofOne (plan.current cursor)) = .ok fresh) :
    (plan.protocol context).seen (cursor, engine) =
      (plan.protocol context).seen
        (plan.history context [.openBindings, .nextBindings] (fresh, engine)) := by
  obtain ⟨census, steady, bound, listed⟩ := undisturbed
  obtain ⟨source, carrying⟩ := reached.carries
  have ready := ready_of_empty reached.coherent closed carrying empty
  have idle := bound_idle context started steady
  rw [seen_eq bound ready listed steady, seen_eq bound idle.ready listed idle.steady]

/-- The binding and the rows of a known cursor are listed. -/
theorem known_listed {census : Census} (lists : plan.Lists census cursor) :
    (plan.current cursor).Listed census ∧ plan.Listed census := by
  induction plan with
  | values slice type rows => exact ⟨lists.current, lists.supply⟩
  | table name type => exact ⟨lists.current, trivial⟩
  | filter input predicate induction => exact induction lists.2.2
  | project input type columns induction => exact induction lists.2.2
  | aggregate input type keys aggregates induction => exact induction lists.2.2
  | limit input offset limit? induction => exact induction lists.2.2

end Plan

namespace Session

/-- The session has the cursor, it is closed, its context is not cancelled and no leaf call is still
to fail. -/
structure Resumable (session : Session) (cursor : OpenCursor) : Prop where
  named : ∃ name, session.cursors.get? name = some cursor
  closed : cursor.phase = .closed
  uncancelled : (session.engine.journal.of cursor.context).cancelled = false
  faultless : session.engine.FaultsWithin fun _ => False

/-- A pass of the cursor is seen as a pass of a new cursor of its plan that was given the same
binding. -/
def ReopensAnew (session : Session) (cursor : OpenCursor) : Prop :=
  ∀ (earlier : Store) (fresh : cursor.plan.Cursor),
    cursor.plan.start earlier (.ofOne (cursor.plan.current cursor.state)) = .ok fresh →
    cursor.protocol.seen (cursor.state, session.engine) =
      cursor.protocol.seen (cursor.plan.history cursor.context [.openBindings, .nextBindings]
        (fresh, session.engine))

variable {faulty : LeafCall → Prop} {session : Session} {cursor : OpenCursor}

theorem Reached.cursor_reached (reached : session.Reached faulty)
    (resumable : session.Resumable cursor) :
    cursor.plan.Reached cursor.context faulty cursor.state := by
  obtain ⟨census, covered⟩ := reached.covered
  obtain ⟨name, present⟩ := resumable.named
  have known : cursor.Known faulty census := Table.every_get covered.names.cursors present
  exact known.1

theorem Resumable.phase_closed (resumable : session.Resumable cursor) :
    cursor.plan.phase cursor.state = .closed := by
  rw [← Plan.protocol_phase cursor.context]
  exact resumable.closed

theorem reopens_anew_of_empty (reached : session.Reached faulty)
    (resumable : session.Resumable cursor) (empty : cursor.plan.held cursor.state = []) :
    session.ReopensAnew cursor := by
  intro earlier fresh started
  obtain ⟨census, covered⟩ := reached.covered
  obtain ⟨name, present⟩ := resumable.named
  have known : cursor.Known faulty census := Table.every_get covered.names.cursors present
  have ⟨bound, listed⟩ := Plan.known_listed known.2
  have undisturbed := Plan.undisturbed_of_covered covered.engine listed bound
    resumable.uncancelled resumable.faultless
  exact Plan.seen_anew_of_empty known.1 resumable.phase_closed empty undisturbed started

end Session

/-! A session in which a closed cursor holds a row: an aggregation over two groups is closed after
the first, and the leaf fails to close. Reopened, it begins with a group of the row that it held. -/

namespace StaleGroup

open Session

def new : Session where
  engine := { nextId := 2, probe? := some FailedClose.probe }
  context := ⟨1, .empty, {}⟩
  catalog := .empty

theorem new_reached {faulty : LeafCall → Prop} (admitted : faulty .close) : new.Reached faulty := by
  have started : Session.start {} { standard := false } (some FailedClose.probe) = .ok new := rfl
  refine .start started fun probe same => ?_
  cases same
  exact FailedClose.probe_admitted admitted

def session : Session :=
  new.after [.type "flag" [.notNull .boolean], .createTable "flags" "flag",
    .insert "flags" [.ofValues [.boolean false], .ofValues [.boolean true]],
    .cursor "groups" (.aggregate (.table "flags" "flag") 1 []) .fresh,
    .onCursor "groups" .openPass, .onCursor "groups" (.next none false),
    .onCursor "groups" .close]

def cursors : List OpenCursor :=
  (session.cursors.get? "groups").toList

/-- How many rows a pass of the cursor gives. -/
def rowCount (cursor : OpenCursor) : Nat :=
  (cursor.protocol.seen (cursor.state, session.engine)).rows.length

/-- How many rows a pass of a new cursor gives, if there can be one. -/
def newRowCount? (cursor : OpenCursor) : Option Nat :=
  match cursor.plan.start session.engine.store (.ofOne (cursor.plan.current cursor.state)) with
  | .ok fresh => some (cursor.protocol.seen (cursor.plan.history cursor.context
      [.openBindings, .nextBindings] (fresh, session.engine))).rows.length
  | .error _ => none

theorem row_counts_agree {cursor : OpenCursor} (anew : session.ReopensAnew cursor) {rows : Nat}
    (counted : newRowCount? cursor = some rows) : rowCount cursor = rows := by
  unfold newRowCount? at counted
  split at counted <;> cases counted
  next fresh started =>
    exact congrArg (fun seen => seen.rows.length) (anew session.engine.store fresh started)

theorem cursors_facts : (cursors.map fun cursor =>
      (cursor.phase, (session.engine.journal.of cursor.context).cancelled, rowCount cursor,
        newRowCount? cursor)) = [(.closed, false, 3, some 2)] := by
  decide +kernel

theorem faults_spent : (session.engine.probe?.all fun probe => LeafCall.all.all fun call =>
    ((probe.faults.get? call).getD []).all fun number => number ≤ probe.count call) = true := by
  decide +kernel

theorem faultless : session.engine.FaultsWithin fun _ => False := by
  intro probe present call number listed later
  have spent := faults_spent
  rw [present] at spent
  have known : call ∈ LeafCall.all := by cases call <;> decide
  have passed := List.all_eq_true.mp (List.all_eq_true.mp spent call known) number listed
  exact Nat.not_lt_of_le (of_decide_eq_true passed) later

/-- The cursor of the session is closed and can be opened again, but not as a new one. -/
theorem some_cursor_stale : ∃ cursor, session.Resumable cursor ∧ ¬session.ReopensAnew cursor := by
  obtain ⟨cursor, only, facts⟩ := List.map_eq_singleton_iff.mp cursors_facts
  have member : cursor ∈ cursors := by
    rw [only]
    exact List.mem_singleton.mpr rfl
  simp only [Prod.mk.injEq] at facts
  obtain ⟨closed, uncancelled, reopened, fresh⟩ := facts
  refine ⟨cursor, ⟨⟨"groups", Option.mem_toList.mp member⟩, closed, uncancelled, faultless⟩, ?_⟩
  intro anew
  have same := row_counts_agree anew fresh
  rw [reopened] at same
  cases same

end StaleGroup

namespace Session

/-- A closed cursor of a session reopens anew if it holds no row, and every closed cursor does so
exactly when no leaf can fail to close. -/
theorem reopens_anew_iff_no_failed_close (faulty : LeafCall → Prop) :
    (∀ (session : Session) (cursor : OpenCursor), session.Reached faulty →
      session.Resumable cursor → cursor.plan.held cursor.state = [] →
        session.ReopensAnew cursor) ∧
    ((∀ (session : Session) (cursor : OpenCursor), session.Reached faulty →
      session.Resumable cursor → session.ReopensAnew cursor) ↔ ¬faulty .close) := by
  refine ⟨fun session cursor => reopens_anew_of_empty, ?_, ?_⟩
  · intro reopens admitted
    obtain ⟨cursor, resumable, stale⟩ := StaleGroup.some_cursor_stale
    have reached : StaleGroup.session.Reached faulty :=
      (StaleGroup.new_reached admitted).after _
    exact stale (reopens StaleGroup.session cursor reached resumable)
  · intro quiet session cursor reached resumable
    have released : Plan.Released faulty (cursor.plan.phase cursor.state) :=
      .inr ⟨resumable.phase_closed, quiet⟩
    exact reopens_anew_of_empty reached resumable (Plan.nothing_held_when_released
      (reached.cursor_reached resumable).coherent released)

end Session

end QueryExec
