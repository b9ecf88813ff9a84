import QueryExec.Proofs.Rewriting
import QueryExec.Proofs.SinglePass

/-!
Updates as wholes. The scan takes its rows when it opens, so what an update writes is never met by
its own scan: the rows that it deals with are those that its input emits of the rows that were in
the table at the beginning. Each is dealt with before the next is asked for. When the update fails,
the rows before the failure have been dealt with and nothing else has been written.
-/

namespace QueryExec

open QueryExec.Action

/-- The next row, where the context is cancelled from outside just before if it is its turn. -/
def Plan.nextCancelled (context : Context) (plan : Plan) (turn? : Option Nat) :
    CursorAction plan.Cursor (Option Row) := do
  if turn? = some 0 then
    CursorAction.inJournal (modify fun journal => journal.cancel context)
  (plan.protocol context).next

namespace Update

/-- The pass of an update during which the context is cancelled from outside, before the row whose
turn it is. -/
def passWithinCancelled (update : Update) (context : Context) (bindings : Bindings) :
    (turn? : Option Nat) → (bound : Nat) → CursorAction update.input.Cursor UpdateCount
  | _, 0 => pure {}
  | turn?, bound + 1 => do
      match ← update.input.nextCancelled context turn? with
      | none => pure {}
      | some row => do
          let modified ← CursorAction.inEngine (update.apply context bindings row)
          let rest ← update.passWithinCancelled context bindings (turn?.map (· - 1)) bound
          pure ⟨rest.seen + 1, rest.modified + if modified then 1 else 0⟩

def passCancelled (update : Update) (context : Context) (turn? : Option Nat) (bindings : Bindings) :
    CursorAction update.input.Cursor UpdateCount := do
  let protocol := update.input.protocol context
  update.passWithinCancelled context bindings turn? (protocol.remaining (← CursorAction.state) + 1)

/-- The run of an update during which the context is cancelled from outside; where it is no row's
turn, just the run. -/
def runCancelled (update : Update) (context : Context) (bindings : Bindings) (turn? : Option Nat) :
    Action Engine UpdateCount := do
  let counts ← update.input.run context (.ofOne bindings) (update.passCancelled context turn?)
  pure (counts.headD {})

theorem next_uncancelled (context : Context) (plan : Plan) :
    plan.nextCancelled context none = (plan.protocol context).next :=
  rfl

theorem pass_within_uncancelled (update : Update) (context : Context) (bindings : Bindings)
    (bound : Nat) :
    update.passWithinCancelled context bindings none bound =
      update.passWithin context bindings bound := by
  induction bound with
  | zero => rfl
  | succ bound induction =>
      unfold passWithinCancelled passWithin
      rw [next_uncancelled]
      refine bind_congr fun row? => ?_
      cases row? with
      | none => rfl
      | some row =>
          refine bind_congr fun modified => ?_
          rw [Option.map_none, induction]

theorem run_uncancelled (update : Update) (context : Context) (bindings : Bindings) :
    update.runCancelled context bindings none = update.run context bindings := by
  have same : update.passCancelled context none = update.pass context := by
    funext bindings
    unfold passCancelled pass
    simp only [pass_within_uncancelled]
  unfold runCancelled run
  rw [same]

/-- Why an update stops with some rows still to come: the first of them cannot be dealt with, its
input is interrupted, it was cancelled or a call of its cursor on the storage boundary fails. -/
inductive Halts (update : Update) (context : Context) (faulty : LeafCall → Prop)
    (bindings : Bindings) (cancelled : Prop) (ending : Option Interrupt) :
    List Row → Interrupt → Prop
  | row {row : Row} {rest : List Row} {interrupt : Interrupt}
      (fails : update.Fails context faulty bindings row interrupt) :
      Halts update context faulty bindings cancelled ending (row :: rest) interrupt
  | input {interrupt : Interrupt} (interrupted : ending = some interrupt) :
      Halts update context faulty bindings cancelled ending [] interrupt
  | cancellation {rest : List Row} (now : cancelled) :
      Halts update context faulty bindings cancelled ending rest (.failed .cancelled)
  | fault {rest : List Row} {interrupt : Interrupt}
      (fault : interrupt.IsFaultOf faulty cursorCalls) :
      Halts update context faulty bindings cancelled ending rest interrupt

/-- How an update ends that has dealt with some rows of a feed: it succeeds after all of them, or it
fails with the others still to come. It deals with no row after a cancellation. -/
structure Concludes (update : Update) (context : Context) (faulty : LeafCall → Prop)
    (bindings : Bindings) (cancels : Nat → Prop) (feed : Feed) (dealt : List Row)
    (outcome : Except Interrupt UpdateCount) : Prop where
  timely : ∀ turn, cancels turn → dealt.length ≤ turn
  ends : match outcome with
    | .ok counts => dealt = feed.rows ∧ feed.ending = none ∧ ¬ cancels dealt.length ∧
        counts = ⟨dealt.length, dealt.countP (update.replaces context bindings)⟩
    | .error interrupt => ∃ rest, feed.rows = dealt ++ rest ∧
        update.Halts context faulty bindings (cancels dealt.length) feed.ending rest interrupt

section Concluding

variable {update : Update} {context : Context} {faulty : LeafCall → Prop} {bindings : Bindings}
  {turn? : Option Nat} {cancels : Nat → Prop} {feed rest : Feed} {row : Row} {dealt : List Row}

theorem concludes_early (interrupt : Interrupt)
    (halts : update.Halts context faulty bindings (cancels 0) feed.ending feed.rows interrupt) :
    update.Concludes context faulty bindings cancels feed [] (.error interrupt) :=
  ⟨fun turn _ => Nat.zero_le turn, feed.rows, rfl, halts⟩

theorem Concludes.fault {counts : UpdateCount} {interrupt : Interrupt}
    (concludes : update.Concludes context faulty bindings cancels feed dealt (.ok counts))
    (fault : interrupt.IsFaultOf faulty cursorCalls) :
    update.Concludes context faulty bindings cancels feed dealt (.error interrupt) := by
  obtain ⟨timely, rfl, _⟩ := concludes
  exact ⟨timely, [], (List.append_nil _).symm, .fault fault⟩

/-- A turn later, one row more was dealt with. -/
theorem turn_before (uncancelled : turn? ≠ some 0) (turn : Nat) :
    turn? = some (turn + 1) ↔ turn?.map (· - 1) = some turn := by
  rcases turn? with _ | _ | later
  · simp
  · exact absurd rfl uncancelled
  · simp

theorem Concludes.cons {outcome : Except Interrupt UpdateCount}
    (uncancelled : turn? ≠ some 0)
    (concludes : update.Concludes context faulty bindings
      (fun turn => turn?.map (· - 1) = some turn) rest dealt outcome) :
    update.Concludes context faulty bindings (fun turn => turn? = some turn) (rest.cons row)
      (row :: dealt) (outcome.map fun counts => ⟨counts.seen + 1,
        counts.modified + if update.replaces context bindings row then 1 else 0⟩) where
  timely := by
    rintro (_ | turn) cancelled
    · exact absurd cancelled uncancelled
    · exact Nat.succ_le_succ (concludes.timely turn ((turn_before uncancelled turn).mp cancelled))
  ends := by
    have shifted := turn_before uncancelled dealt.length
    cases outcome with
    | ok counts =>
        obtain ⟨_, rfl, ended, uncancelled, rfl⟩ := concludes
        refine ⟨rfl, ended, fun cancelled => uncancelled (shifted.mp cancelled), ?_⟩
        rw [List.countP_cons]
        rfl
    | error interrupt =>
        obtain ⟨_, others, same, halts⟩ := concludes
        refine ⟨others, congrArg (row :: ·) same, ?_⟩
        rw [List.length_cons, shifted]
        exact halts

end Concluding

/-- A pass in which an update has dealt with some rows and a feed is still to come. -/
structure Amid (update : Update) (context : Context) (census : Census) (faulty : LeafCall → Prop)
    (bindings : Bindings) (table : StoredTable) (unused : Nat) (before : Store) (dealt : List Row)
    (feed : Feed) (pair : update.input.Cursor × Engine) : Prop where
  standing : Plan.Standing faulty update.input bindings (.single bindings .exhausted) pair
  supplying : update.input.Supplying context census feed pair.1
  midway : update.Midway context bindings table unused before dealt pair.2
  part : (dealt ++ feed.rows).Sublist table.rows

section Passing

variable {update : Update} {context : Context} {census : Census} {faulty : LeafCall → Prop}
  {bindings : Bindings} {table : StoredTable} {unused : Nat} {before : Store} {dealt : List Row}
  {feed : Feed} {cursor : update.input.Cursor} {engine : Engine} {turn? : Option Nat}

theorem Amid.with_journal
    (amid : update.Amid context census faulty bindings table unused before dealt feed
      (cursor, engine)) (journal : Journal) :
    update.Amid context census faulty bindings table unused before dealt feed
      (cursor, { engine with journal }) :=
  ⟨amid.standing.in_engine amid.standing.kept.2, amid.supplying, amid.midway.with_journal journal,
    amid.part⟩

/-- Passes write nothing by themselves. -/
theorem midway_mirrored (plan : Plan) :
    (plan.protocol context).Mirrored
      (plan.Alike (Plan.Fixed (update.Midway context bindings table unused before dealt))) :=
  plan.protocol_mirrored (Plan.fixed_shared (fun call _ midway => midway.noted call)
    (fun journal _ midway => midway.with_journal journal) fun _ midway => midway.issued) context

theorem next_midway (plan : Plan) :
    Spares (update.Midway context bindings table unused before dealt)
      (plan.protocol context).next :=
  Plan.spares_of_respects (midway_mirrored plan).next

theorem open_pass_midway (plan : Plan) :
    Spares (update.Midway context bindings table unused before dealt)
      (plan.protocol context).openPass :=
  Plan.spares_of_respects (midway_mirrored plan).openPass

variable (scans : update.input.Scans update.table table.type)

include scans

theorem Amid.active
    (amid : update.Amid context census faulty bindings table unused before dealt feed
      (cursor, engine)) :
    ((update.input.protocol context).phase cursor).isActive = true :=
  (scans.protocol_supplies context census faulty).active amid.supplying

/-- After a cancellation there is no next row. -/
theorem Amid.next_stops
    (amid : update.Amid context census faulty bindings table unused before dealt feed
      (cursor, engine))
    (cancelled : turn? = some 0 ∨ (engine.journal.of context).cancelled = true) :
    EndsIn (cursor, engine) (update.input.nextCancelled context turn?) (fun _ _ => False)
      fun interrupt after =>
        Plan.Standing faulty update.input bindings (.single bindings .exhausted) after ∧
        update.Midway context bindings table unused before dealt after.2 ∧
        (interrupt = .failed .cancelled ∨ interrupt.IsFaultOf faulty [.next]) := by
  have stops : ∀ journal : Journal, (journal.of context).cancelled = true →
      EndsIn (cursor, { engine with journal }) (update.input.protocol context).next
        (fun _ _ => False) fun interrupt after =>
          Plan.Standing faulty update.input bindings (.single bindings .exhausted) after ∧
          update.Midway context bindings table unused before dealt after.2 ∧
          (interrupt = .failed .cancelled ∨ interrupt.IsFaultOf faulty [.next]) := by
    intro journal cancelled
    have amid := amid.with_journal journal
    have active := amid.active scans
    exact agree_weaken (agree_both (agree_both (scans.next_cancelled active cancelled
      amid.standing.kept.2) (amid.standing.next_agrees active)) (next_midway _ _ amid.midway))
      (fun _ _ ends => ends.1.1) fun _ _ ends => ⟨ends.1.2, ends.2, ends.1.1⟩
  unfold Plan.nextCancelled
  split
  next =>
    let stopped := { engine with journal := engine.journal.cancel context }
    refine agree_then (fun _ after => after = (cursor, stopped)) ⟨rfl, rfl⟩ ?_
    rintro _ _ rfl
    exact stops _ (engine.journal.cancelled_cancel context)
  next another => exact stops engine.journal (cancelled.resolve_left another)

/-- Before a cancellation the next row of the feed comes, or the feed ends or breaks. -/
theorem Amid.next_agrees
    (amid : update.Amid context census faulty bindings table unused before dealt feed
      (cursor, engine))
    (able : engine.Able context census faulty) (uncancelled : turn? ≠ some 0) :
    EndsIn (cursor, engine) (update.input.nextCancelled context turn?)
      (fun row? after =>
        Plan.Standing faulty update.input bindings (.single bindings .exhausted) after ∧
        update.Midway context bindings table unused before dealt after.2 ∧
        Given context census faulty (update.input.protocol context).phase
          (update.input.Supplying context census) feed row? after)
      fun interrupt after =>
        Plan.Standing faulty update.input bindings (.single bindings .exhausted) after ∧
        update.Midway context bindings table unused before dealt after.2 ∧
        feed.Breaks faulty interrupt := by
  have calm : update.input.nextCancelled context turn? = (update.input.protocol context).next :=
    if_neg uncancelled
  rw [calm]
  exact agree_weaken (agree_both (agree_both
    ((scans.protocol_supplies context census faulty).next amid.supplying able)
    (amid.standing.next_agrees (amid.active scans))) (next_midway _ _ amid.midway))
    (fun _ _ ends => ⟨ends.1.2, ends.2, ends.1.1⟩) fun _ _ ends => ⟨ends.1.2, ends.2, ends.1.1⟩

/-- What a pass that has dealt with some rows comes to: it deals with further rows of the feed. -/
def Achieves (update : Update) (context : Context) (faulty : LeafCall → Prop) (bindings : Bindings)
    (table : StoredTable) (unused : Nat) (before : Store) (cancels : Nat → Prop) (feed : Feed)
    (dealt : List Row) (outcome : Except Interrupt UpdateCount) (after : Store) : Prop :=
  ∃ further, update.Rewritten context bindings table unused before (dealt ++ further) after ∧
    update.Concludes context faulty bindings cancels feed further outcome

omit scans in
theorem achieves_nothing {cancels : Nat → Prop} {after : Store} {interrupt : Interrupt}
    (rewritten : update.Rewritten context bindings table unused before dealt after)
    (halts : update.Halts context faulty bindings (cancels 0) feed.ending feed.rows interrupt) :
    update.Achieves context faulty bindings table unused before cancels feed dealt
      (.error interrupt) after := by
  refine ⟨[], ?_, concludes_early interrupt halts⟩
  rw [List.append_nil]
  exact rewritten

omit scans in
theorem Achieves.cons {rest : Feed} {row : Row} {outcome : Except Interrupt UpdateCount}
    {after : Store} (uncancelled : turn? ≠ some 0)
    (achieves : update.Achieves context faulty bindings table unused before
      (fun turn => turn?.map (· - 1) = some turn) rest (dealt ++ [row]) outcome after) :
    update.Achieves context faulty bindings table unused before (fun turn => turn? = some turn)
      (rest.cons row) dealt (outcome.map fun counts => ⟨counts.seen + 1,
        counts.modified + if update.replaces context bindings row then 1 else 0⟩) after := by
  obtain ⟨further, rewritten, concludes⟩ := achieves
  refine ⟨row :: further, ?_, concludes.cons uncancelled⟩
  rw [List.append_cons]
  exact rewritten

/-- By induction on the bound, which exceeds the rows of the feed: each turn takes a row from the
feed to the rows that are dealt with. -/
theorem Amid.pass_agrees
    (amid : update.Amid context census faulty bindings table unused before dealt feed
      (cursor, engine))
    (able : engine.Able context census faulty) (bound : Nat) (enough : feed.rows.length < bound)
    (listed : bindings.Listed census) (typed : update.input.rowType = table.type)
    (arity : update.assignments.length = table.type.width) (distinct : table.rows.Nodup) :
    Plan.PassEnds faulty update.input bindings
      (update.Achieves context faulty bindings table unused before (fun turn => turn? = some turn)
        feed dealt)
      (cursor, engine) (update.passWithinCancelled context bindings turn? bound) := by
  induction bound generalizing cursor engine feed dealt turn? with
  | zero => exact absurd enough (Nat.not_lt_zero _)
  | succ bound induction =>
      by_cases cancelled : turn? = some 0
      · refine agree_bind (agree_weaken (amid.next_stops scans (.inl cancelled)) (fun _ _ => id) ?_)
          fun _ _ impossible => impossible.elim
        rintro _ after ⟨standing, midway, stopped⟩
        refine ⟨standing, achieves_nothing midway.rewritten ?_⟩
        rcases stopped with rfl | fault
        · exact .cancellation cancelled
        · exact .fault (Interrupt.fault_subset fault _ (by simp [cursorCalls]))
      refine agree_bind (agree_weaken (amid.next_agrees scans able cancelled) (fun _ _ => id) ?_) ?_
      · rintro _ after ⟨standing, midway, rfl | fault⟩
        · exact ⟨standing, achieves_nothing midway.rewritten (.input rfl)⟩
        · exact ⟨standing, achieves_nothing midway.rewritten
            (.fault (Interrupt.fault_subset fault _ (by simp [cursorCalls])))⟩
      rintro (_ | row) ⟨reached, asked⟩ ⟨standing, midway, given⟩
      · obtain ⟨rfl, closed, _⟩ := given
        rw [Plan.protocol_phase] at closed
        have ended : update.Concludes context faulty bindings (fun turn => turn? = some turn)
            ⟨[], none⟩ [] (.ok {}) :=
          ⟨fun turn _ => Nat.zero_le turn, rfl, rfl, cancelled, rfl⟩
        have still : update.Rewritten context bindings table unused before (dealt ++ [])
            asked.store := by
          rw [List.append_nil]
          exact midway.rewritten
        exact agree_pure ({} : UpdateCount) ⟨standing, closed, [], still, ended⟩
      obtain ⟨rest, rfl, able, supplying⟩ := given
      have part : (dealt ++ row :: rest.rows).Sublist table.rows := amid.part
      have own : row.Listed census :=
        (scans.protocol_supplies context census faulty).listed amid.supplying row
          List.mem_cons_self
      have among : row ∈ table.rows := part.subset (by simp)
      have untouched : row ∉ dealt := fun known =>
        List.disjoint_of_nodup_append (part.nodup distinct) known List.mem_cons_self
      refine agree_then (fun modified after => reached = after.1 ∧
        modified = update.replaces context bindings row ∧ after.2.Able context census faulty ∧
        update.Midway context bindings table unused before (dealt ++ [row]) after.2)
        (CursorAction.agree_in_engine (agree_weaken (midway.apply_agrees own listed typed arity
          distinct among untouched able) (fun _ _ ends => ⟨rfl, ends⟩) ?_)) ?_
      · rintro interrupt after ⟨fails, faults, rewritten⟩
        exact ⟨standing.in_engine faults, achieves_nothing rewritten (.row fails)⟩
      rintro _ ⟨_, applied⟩ ⟨rfl, rfl, able, midway⟩
      have later : update.Amid context census faulty bindings table unused before (dealt ++ [row])
          rest (reached, applied) :=
        ⟨standing.in_engine able.faults, supplying, midway, by simpa using part⟩
      refine agree_bind (agree_weaken (induction later able (Nat.lt_of_succ_lt_succ enough))
        (fun _ _ => id) fun _ _ ends => ⟨ends.1, ends.2.cons cancelled⟩) ?_
      rintro counts after ⟨standing, closed, achieves⟩
      exact agree_pure _ ⟨standing, closed, achieves.cons cancelled⟩

/-- The pass in a context that is cancelled from the beginning. -/
theorem Amid.pass_stops
    (amid : update.Amid context census faulty bindings table unused before dealt feed
      (cursor, engine))
    {cancels : Nat → Prop} (now : cancels 0)
    (cancelled : (engine.journal.of context).cancelled = true) (bound : Nat) :
    Plan.PassEnds faulty update.input bindings
      (update.Achieves context faulty bindings table unused before cancels feed dealt)
      (cursor, engine) (update.passWithinCancelled context bindings turn? (bound + 1)) := by
  refine agree_bind (agree_weaken (amid.next_stops scans (.inr cancelled)) (fun _ _ => id) ?_)
    fun _ _ impossible => impossible.elim
  rintro _ after ⟨standing, midway, stopped⟩
  refine ⟨standing, achieves_nothing midway.rewritten ?_⟩
  rcases stopped with rfl | fault
  · exact .cancellation now
  · exact .fault (Interrupt.fault_subset fault _ (by simp [cursorCalls]))

end Passing

/-- An engine whose store was not written, with a good journal. -/
structure Unwritten (good : Journal → Prop) (unused : Nat) (before : Store) (engine : Engine) :
    Prop where
  journal : good engine.journal
  store : engine.store = before
  later : unused ≤ engine.nextId

section Running

variable {update : Update} {context : Context} {census : Census} {faulty : LeafCall → Prop}
  {bindings : Bindings} {table : StoredTable} {unused : Nat} {before : Store} {engine : Engine}
  {good : Journal → Prop} {turn? : Option Nat} {cancels : Nat → Prop}

theorem Unwritten.noted (unwritten : Unwritten good unused before engine) (call : LeafCall) :
    Unwritten good unused before (engine.noted call) :=
  ⟨unwritten.journal, unwritten.store, unwritten.later⟩

variable (scans : update.input.Scans update.table table.type)
  (stored : before.tables.get? update.table = some table) (tidy : table.Tidy unused)

include stored tidy in
theorem Unwritten.midway (unwritten : Unwritten good unused before engine) :
    update.Midway context bindings table unused before [] engine where
  rewritten := by
    rw [unwritten.store]
    exact rewritten_nothing stored
  tidy := by
    intro current present
    rw [unwritten.store] at present
    cases stored.symm.trans present
    exact tidy.later unwritten.later
  later := unwritten.later

include scans stored tidy in
/-- A pass from its opening on: the rows that are dealt with are those that the input emits of the
rows of the table. -/
theorem opened_pass_agrees
    (counts : ∀ journal, good journal → good (journal.tap context "scan.open"))
    (listed : ∀ row ∈ table.rows, row.Listed census) (bound : bindings.Listed census)
    (passes : ∀ {cursor engine}, good (Engine.journal engine) →
      update.Amid context census faulty bindings table unused before []
        (update.input.feed context bindings table.rows) (cursor, engine) →
      Plan.PassEnds faulty update.input bindings
        (update.Achieves context faulty bindings table unused before cancels
          (update.input.feed context bindings table.rows) [])
        (cursor, engine) (update.passCancelled context turn? bindings)) :
    update.input.PassesEnd context faulty bindings (update.passCancelled context turn?)
      (Unwritten good unused before)
      (update.Achieves context faulty bindings table unused before cancels
        (update.input.feed context bindings table.rows) []) := by
  rintro ⟨cursor, engine⟩ standing closed unwritten
  have present : engine.store.tables.get? update.table = some table := by
    rw [unwritten.store]
    exact stored
  have ready := scans.ready standing.kept.1 closed standing.carrying
  have midway : update.Midway context bindings table unused before [] engine :=
    unwritten.midway stored tidy
  refine agree_bind (agree_weaken (agree_both (agree_both
    (scans.open_pass_supplies counts present listed bound ready unwritten.journal
      standing.kept.2) (standing.open_pass_agrees closed)) (open_pass_midway _ _ midway))
    (fun _ _ => id) ?_) ?_
  · rintro _ after ⟨⟨fault, standing⟩, midway⟩
    exact ⟨standing, achieves_nothing midway.rewritten
      (.fault (Interrupt.fault_subset fault _ (by simp [cursorCalls])))⟩
  rintro _ ⟨opened, engine⟩ ⟨⟨⟨supplying, holds, _⟩, standing, _⟩, midway⟩
  exact passes holds ⟨standing, supplying, midway, scans.feed_sublist context bindings table.rows⟩

include scans stored tidy in
/-- A run changes nothing before its pass and after it. -/
theorem run_achieves (kept : Unwritten good unused before engine)
    (faults : engine.FaultsWithin faulty)
    (passes : update.input.PassesEnd context faulty bindings (update.passCancelled context turn?)
      (Unwritten good unused before)
      (update.Achieves context faulty bindings table unused before cancels
        (update.input.feed context bindings table.rows) [])) :
    let ran := (update.runCancelled context bindings turn?).run engine
    update.Achieves context faulty bindings table unused before cancels
      (update.input.feed context bindings table.rows) [] ran.1 ran.2.store := by
  have admitted : update.input.admitted engine.store = .ok () := by
    rw [kept.store]
    exact scans.admitted stored
  obtain ⟨cursor, started⟩ := Plan.started_of_admitted admitted (.ofOne bindings)
  apply ends_of_agree fun outcome (after : Engine) =>
    update.Achieves context faulty bindings table unused before cancels
      (update.input.feed context bindings table.rows) [] outcome after.store
  refine agree_bind (agree_weaken (Plan.single_run_agrees (fun call _ kept => kept.noted call) ?_
    ?_ passes started faults kept) (fun _ _ => id) fun _ _ => id) ?_
  · rintro counts store interrupt ⟨further, rewritten, concludes⟩ fault
    exact ⟨further, rewritten, concludes.fault fault⟩
  · intro engine interrupt kept fault
    exact achieves_nothing (kept.midway stored tidy).rewritten (.fault fault)
  rintro _ after ⟨counts, rfl, achieves⟩
  exact agree_pure counts achieves

end Running

/-- There is an assignment for each column of the input. -/
theorem arity_of_built {update : Update}
    (built : build update.input update.table update.selector? update.assignments = .ok update) :
    update.assignments.length = update.input.rowType.width := by
  unfold build at built
  split at built
  · cases built
  next same => exact Decidable.not_not.mp same

section Engines

variable {update : Update} {context : Context} {census : Census} {faulty : LeafCall → Prop}
  {bindings : Bindings} {table : StoredTable} {engine : Engine} {turn? : Option Nat}

/-- When an update is cancelled: before it begins, or when it is the turn of a row. -/
def Cancels (context : Context) (engine : Engine) (turn? : Option Nat) (turn : Nat) : Prop :=
  turn? = some turn ∨ turn = 0 ∧ (engine.journal.of context).cancelled = true

variable (covered : engine.Covered faulty census)
  (stored : engine.store.tables.get? update.table = some table)
  (scans : update.input.Scans update.table table.type)
  (arity : update.assignments.length = update.input.rowType.width)
  (bound : bindings.Listed census)

include covered stored scans arity bound

theorem run_cancelled_achieves :
    let ran := (update.runCancelled context bindings turn?).run engine
    update.Achieves context faulty bindings table engine.nextId engine.store
      (Cancels context engine turn?) (update.input.feed context bindings table.rows) []
      ran.1 ran.2.store := by
  have tidy : table.Tidy engine.nextId := Table.every_get covered.tidy stored
  have listed : ∀ row ∈ table.rows, row.Listed census := fun row among =>
    Row.listed_of_stored (tidy.plain row among) census
  have typed : update.input.rowType = table.type := scans.row_type
  cases cancelled : (engine.journal.of context).cancelled with
  | true =>
      have kept : Unwritten (fun journal => (journal.of context).cancelled = true) engine.nextId
          engine.store engine := ⟨cancelled, rfl, Nat.le_refl _⟩
      refine run_achieves scans stored tidy kept covered.faults (opened_pass_agrees scans stored
        tidy ?_ listed bound ?_)
      · exact fun journal cancelled =>
          (journal.cancelled_tap context context "scan.open").trans cancelled
      · intro cursor engine cancelled amid
        exact CursorAction.agree_state (amid.pass_stops scans (.inr ⟨rfl, ‹_›⟩) cancelled _)
  | false =>
      have kept : Unwritten (Journal.Sound context census) engine.nextId engine.store engine :=
        ⟨⟨cancelled, covered.faithful⟩, rfl, Nat.le_refl _⟩
      have cancels : Cancels context engine turn? = fun turn => turn? = some turn := by
        funext turn
        simp [Cancels, cancelled]
      rw [cancels]
      refine run_achieves scans stored tidy kept covered.faults (opened_pass_agrees scans stored
        tidy (fun _ sound => sound.tap context "scan.open") listed bound ?_)
      intro cursor engine sound amid
      have enough := (scans.protocol_supplies context census faulty).bounded amid.supplying
      rw [typed] at arity
      exact CursorAction.agree_state (amid.pass_agrees scans ⟨sound, amid.standing.kept.2⟩ _
        (Nat.lt_succ_of_le enough) bound typed arity tidy.distinct.of_map)

end Engines

end Update

namespace Session

/-- Whatever a session did before, an update whose input scans its own table deals with the rows
that the input emits of the table as it was, one after the other, and writes nothing but what
becomes of them. What the input emits are rows of the table, and to be seen of them is what the
input denotes. It succeeds when it has dealt with all of them; when it fails, it has dealt with
those before the failure. A cancellation from outside may come at the turn of any row. -/
theorem update_acts_on_snapshot {session : Session} {faulty : LeafCall → Prop}
    (reached : session.Reached faulty) {update : Update}
    (built : Update.build update.input update.table update.selector? update.assignments =
      .ok update)
    {table : StoredTable} (stored : session.engine.store.tables.get? update.table = some table)
    (scans : update.input.Scans update.table table.type) {bindings : Bindings}
    (bound : (∃ name, session.bindings.get? name = some bindings) ∨ ∃ id, bindings = .root id)
    (context : Context) (turn? : Option Nat) :
    let feed := update.input.feed context bindings table.rows
    let ran := (update.runCancelled context bindings turn?).run session.engine
    update.runCancelled context bindings none = update.run context bindings ∧
    feed.rows.Sublist table.rows ∧
    feed.views = update.input.stream context bindings (table.rows.map Row.view) ∧
    ∃ dealt, update.Rewritten context bindings table session.engine.nextId session.engine.store
        dealt ran.2.store ∧
      update.Concludes context faulty bindings (Update.Cancels context session.engine turn?) feed
        dealt ran.1 := by
  obtain ⟨census, covered⟩ := reached.covered
  have listed : bindings.Listed census := by
    rcases bound with ⟨name, present⟩ | ⟨id, rfl⟩
    · exact Table.every_get covered.names.bindings present
    · exact trivial
  exact ⟨update.run_uncancelled context bindings,
    scans.feed_sublist context bindings table.rows, scans.feed_views context bindings table.rows,
    Update.run_cancelled_achieves covered.engine stored scans (Update.arity_of_built built) listed⟩

end Session

/-! Two columns that change places, in the first two rows of a table where the first column is
true. -/

namespace Swapping

open Session

def session : Session :=
  Counting.new.after [.type "pair" [.notNull .boolean, .notNull .boolean],
    .createTable "pairs" "pair", .insert "pairs" [.ofValues [.boolean true, .boolean false],
      .ofValues [.boolean false, .boolean false], .ofValues [.boolean true, .boolean false]]]

def type : RowType :=
  ⟨1, [.notNull .boolean, .notNull .boolean]⟩

def table : StoredTable :=
  ⟨type, [.stored 3 type [.boolean true, .boolean false],
    .stored 5 type [.boolean false, .boolean false],
    .stored 7 type [.boolean true, .boolean false]]⟩

def swap : Update where
  input := .limit (.table "pairs" type) 0 (some 2)
  table := "pairs"
  selector? := some (.column 0 (.notNull .boolean))
  assignments := [some (.column 1 (.notNull .boolean)), some (.column 0 (.notNull .boolean))]

def swapped : Except Interrupt UpdateCount × Engine :=
  (swap.run session.context .empty).run session.engine

def contents (engine : Engine) : Option (List (Option (List Datum))) :=
  (engine.store.tables.get? "pairs").map fun table =>
    table.rows.map fun row => row.view.values.toOption

/-- The session before any rows are inserted. -/
def bare : Session :=
  { Counting.new with
    engine := { nextId := 2, nextTypeId := 2, store := { tables := ⟨[("pairs", ⟨type, []⟩)]⟩ } }
    types := ⟨[("pair", type)]⟩ }

theorem pairs_stored : session.engine.store.tables.get? "pairs" = some table := by
  have begun : Counting.new.after [.type "pair" [.notNull .boolean, .notNull .boolean],
      .createTable "pairs" "pair"] = bare := rfl
  have found : (inEngine (Engine.storedTable "pairs")).run bare = (.ok ⟨type, []⟩, bare) := rfl
  unfold after at begun
  unfold session after
  simp only [List.foldl_cons, List.foldl_nil] at begun ⊢
  rw [begun]
  unfold step perform insertRows
  simp only [run_bind, found, List.forM]
  rfl

theorem first_pair_swapped :
    session.Reached (fun _ => True) ∧
    session.engine.store.tables.get? "pairs" = some table ∧
    swapped.1.toOption = some ⟨2, 1⟩ ∧
    contents swapped.2 = some [some [.boolean false, .boolean true],
      some [.boolean false, .boolean false], some [.boolean true, .boolean false]] ∧
    ∃ dealt, swap.Rewritten session.context .empty table session.engine.nextId session.engine.store
        dealt swapped.2.store ∧
      swap.Concludes session.context (fun _ => True) .empty
        (Update.Cancels session.context session.engine none)
        (swap.input.feed session.context .empty table.rows) dealt swapped.1 := by
  have reached : session.Reached fun _ => True := Counting.new_reached.after _
  have built : Update.build swap.input swap.table swap.selector? swap.assignments = .ok swap := rfl
  have scans : swap.input.Scans swap.table table.type := .limit .table 0 (some 2)
  have rooted : (∃ name, session.bindings.get? name = some Bindings.empty) ∨
      ∃ id, Bindings.empty = .root id := .inr ⟨0, rfl⟩
  refine ⟨reached, pairs_stored, by decide +kernel, by decide +kernel, ?_⟩
  obtain ⟨same, -, -, acts⟩ := update_acts_on_snapshot reached built pairs_stored scans rooted
    session.context none
  unfold swapped
  rw [← same]
  exact acts

end Swapping

end QueryExec
