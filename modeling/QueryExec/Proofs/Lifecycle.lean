import QueryExec.Proofs.Cursor.Links

/-!
Histories of calls on the cursor tree of a plan. A history takes any calls in any order, legal or
not; each runs in whatever engine it meets, so between calls the context may be cancelled, the
store may change and faults may be planned, and while a call runs the journal may change before
every call that one cursor forwards to another.
-/

namespace QueryExec

open QueryExec.Action

namespace Plan

/-- The states of the cursor tree that a history of calls can reach when leaf calls fail only by
the admitted kinds. -/
inductive Reached (context : Context) (faulty : LeafCall → Prop) (plan : Plan) :
    plan.Cursor → Prop
  | start {store : Store} {source : BindingSource} {cursor : plan.Cursor}
      (started : plan.start store source = .ok cursor) : Reached context faulty plan cursor
  | call {cursor : plan.Cursor} (earlier : Reached context faulty plan cursor)
      (call : CursorCall) (meanwhile : Journal → Journal) (engine : Engine)
      (faults : engine.FaultsWithin faulty) :
      Reached context faulty plan
        (((plan.layered context fun _ => Protocol.amid meanwhile).perform call).run
          (cursor, engine)).2.1

variable {context : Context} {faulty : LeafCall → Prop} {plan : Plan} {cursor : plan.Cursor}

/-- An illegal call fails, changes no cursor of the tree, and when it is refused it is the topmost
cursor that refuses. -/
theorem illegal_call_refused (context : Context) {first second : Layer}
    (keep : KeepLaws faulty first second)
    (coherent : plan.Coherent faulty cursor) {engine : Engine}
    (faults : engine.FaultsWithin faulty) {call : CursorCall} {asked : Call}
    (isAsked : call.checked? = some asked) (illegal : asked.legalIn (plan.phase cursor) = false) :
    AgreeFrom (cursor, engine) ((plan.layered context first).perform call)
      ((plan.layered context second).perform call) (fun _ _ => False)
      (Refused faulty plan.phase cursor asked) := by
  have refused := (layered_refuses keep context plan).perform_refused call asked isAsked cursor
    engine coherent faults
  rw [layered_phase] at refused
  exact refused illegal

/-- A legal call keeps the tree coherent and is not refused. -/
theorem legal_call_agrees (context : Context) {first second : Layer}
    (keep : KeepLaws faulty first second)
    (coherent : plan.Coherent faulty cursor) {engine : Engine}
    (faults : engine.FaultsWithin faulty) {call : CursorCall}
    (legal : ∀ asked, call.checked? = some asked → asked.legalIn (plan.phase cursor) = true) :
    AgreeFrom (cursor, engine) ((plan.layered context first).perform call)
      ((plan.layered context second).perform call)
      (fun _ after => Kept faulty (plan.Coherent faulty) after)
      fun interrupt after => Kept faulty (plan.Coherent faulty) after ∧
        interrupt.isRefusal = false := by
  refine (layered_lawful keep context plan).perform_agrees call coherent faults ?_
  rw [layered_phase]
  exact legal

/-- One call of any sort keeps the tree coherent. -/
theorem call_keeps_coherent (context : Context) {second : Layer}
    (keep : KeepLaws faulty second second)
    (coherent : plan.Coherent faulty cursor) {engine : Engine}
    (faults : engine.FaultsWithin faulty) (call : CursorCall) :
    Kept faulty (plan.Coherent faulty)
      (((plan.layered context second).perform call).run (cursor, engine)).2 := by
  rcases CursorCall.legal_or_refused call (plan.phase cursor) with legal | ⟨asked, isAsked, illegal⟩
  · have ends := (legal_call_agrees context keep coherent faults legal).2
    revert ends
    rcases ((plan.layered context second).perform call).run (cursor, engine) with ⟨_ | _, after⟩
    · exact fun ends => ends.1
    · exact fun ends => ends
  · have ends := (illegal_call_refused context keep coherent faults isAsked illegal).2
    revert ends
    rcases ((plan.layered context second).perform call).run (cursor, engine) with ⟨_ | _, after⟩
    · intro ends
      refine ⟨?_, ends.2.1⟩
      rw [ends.1]
      exact coherent
    · exact fun impossible => impossible.elim

/-- Every reachable tree is coherent: by induction on the history. -/
theorem Reached.coherent (reached : plan.Reached context faulty cursor) :
    plan.Coherent faulty cursor := by
  induction reached with
  | start started => exact (start_coherent started).1
  | call earlier call meanwhile engine faults coherent =>
      exact (call_keeps_coherent context (keep_laws_amid meanwhile) coherent faults call).1

/-- Calls made one after another in one engine. -/
def history (context : Context) (plan : Plan) :
    List CursorCall → plan.Cursor × Engine → plan.Cursor × Engine
  | [], pair => pair
  | call :: rest, pair =>
      plan.history context rest (((plan.protocol context).perform call).run pair).2

theorem layered_amid_id (context : Context) (plan : Plan) :
    (plan.layered context fun _ => Protocol.amid id) = plan.protocol context :=
  layered_plain context plan

/-- What the calls of one run reach is reachable, and the faults that are left are admitted. -/
theorem Reached.history (reached : plan.Reached context faulty cursor) {engine : Engine}
    (faults : engine.FaultsWithin faulty) (calls : List CursorCall) :
    plan.Reached context faulty (plan.history context calls (cursor, engine)).1 ∧
      (plan.history context calls (cursor, engine)).2.FaultsWithin faulty := by
  induction calls generalizing cursor engine with
  | nil => exact ⟨reached, faults⟩
  | cons call rest induction =>
      have further := Reached.call reached call id engine faults
      have kept := (call_keeps_coherent context (keep_laws_amid id) reached.coherent
        faults call).2
      rw [layered_amid_id] at further kept
      exact induction further kept

/-- In a coherent tree a closed cursor has only closed cursors below. -/
theorem all_closed (coherent : plan.Coherent faulty cursor) (closed : plan.phase cursor = .closed) :
    ∀ phase ∈ plan.phases cursor, phase = .closed := by
  induction plan with
  | values slice type rows => exact (List.forall_mem_singleton (p := (· = Phase.closed))).mpr closed
  | table name type => exact (List.forall_mem_singleton (p := (· = Phase.closed))).mpr closed
  | filter input predicate induction =>
      exact List.forall_mem_cons.mpr
        ⟨closed, induction coherent.input (coherent.closed closed)⟩
  | project input type columns induction =>
      exact List.forall_mem_cons.mpr
        ⟨closed, induction coherent.input (coherent.closed closed)⟩
  | aggregate input type keys aggregates induction =>
      exact List.forall_mem_cons.mpr
        ⟨closed, induction coherent.input (coherent.closed closed)⟩
  | limit input offset limit? induction =>
      exact List.forall_mem_cons.mpr
        ⟨closed, induction coherent.input (coherent.closed closed)⟩

/-- A cursor is destroyed exactly when it and all below are, if so it is with its input. -/
theorem destroyed_iff_below {own : Type} {input : Plan} {suits : Phase → own → Prop}
    {node : Node own input.Cursor}
    (coherent : node.Coherent input.phase (input.Coherent faulty) suits)
    (below : input.phase node.input = .destroyed ↔
      ∀ phase ∈ input.phases node.input, phase = .destroyed) :
    node.phase = .destroyed ↔
      ∀ phase ∈ node.phase :: input.phases node.input, phase = .destroyed := by
  rw [List.forall_mem_cons, ← below, ← coherent.destroyed, and_self_iff]

/-- In a coherent tree the topmost cursor is destroyed exactly when all are. -/
theorem destroyed_iff_all (coherent : plan.Coherent faulty cursor) :
    plan.phase cursor = .destroyed ↔ ∀ phase ∈ plan.phases cursor, phase = .destroyed := by
  induction plan with
  | values slice type rows => exact (List.forall_mem_singleton (p := (· = Phase.destroyed))).symm
  | table name type => exact (List.forall_mem_singleton (p := (· = Phase.destroyed))).symm
  | filter input predicate induction =>
      exact destroyed_iff_below coherent (induction coherent.input)
  | project input type columns induction =>
      exact destroyed_iff_below coherent (induction coherent.input)
  | aggregate input type keys aggregates induction =>
      exact destroyed_iff_below coherent (induction coherent.input)
  | limit input offset limit? induction =>
      exact destroyed_iff_below coherent (induction coherent.input)

/-- Whatever the history, the phases of the tree hang together, no cursor forwards a call that is
illegal for its input (its tree could not tell how such a call would be answered), and a call that
is refused is refused by the topmost cursor, for its own phase and without any change to the
tree. -/
theorem reached_tree_obeys_protocol (reached : plan.Reached context (fun _ => True) cursor) :
    (plan.phase cursor = .closed → ∀ phase ∈ plan.phases cursor, phase = .closed) ∧
    (plan.phase cursor = .destroyed ↔ ∀ phase ∈ plan.phases cursor, phase = .destroyed) ∧
    ∀ (call : CursorCall) (meanwhile : Journal → Journal) (engine : Engine),
      (∀ misused : (cursor : Type) → Protocol cursor,
        ((plan.layered context fun cursor inner =>
            Protocol.guarded (misused cursor) (Protocol.amid meanwhile inner)).perform call).run
            (cursor, engine) =
          ((plan.layered context fun _ => Protocol.amid meanwhile).perform call).run
            (cursor, engine)) ∧
      ∀ asked phase after,
        ((plan.layered context fun _ => Protocol.amid meanwhile).perform call).run
            (cursor, engine) = (.error (.failed (.lifecycle asked phase)), after) →
          call.checked? = some asked ∧ phase = plan.phase cursor ∧
            asked.legalIn phase = false ∧ after.1 = cursor := by
  have coherent := reached.coherent
  refine ⟨all_closed coherent, destroyed_iff_all coherent, ?_⟩
  intro call meanwhile engine
  have faults := engine.faults_within_any
  rcases CursorCall.legal_or_refused call (plan.phase cursor) with legal | ⟨asked, isAsked, illegal⟩
  · constructor
    · intro misused
      exact (legal_call_agrees context (keep_laws_guarded misused meanwhile) coherent
        faults legal).1
    · intro other phase after ended
      have ends := (legal_call_agrees context (keep_laws_amid meanwhile) coherent
        faults legal).2
      rw [ended] at ends
      cases ends.2
  · constructor
    · intro misused
      exact (illegal_call_refused context (keep_laws_guarded misused meanwhile) coherent
        faults isAsked illegal).1
    · intro other phase after ended
      have ends := (illegal_call_refused context (keep_laws_amid meanwhile) coherent
        faults isAsked illegal).2
      rw [ended] at ends
      obtain ⟨unchanged, _, own⟩ := ends
      cases own rfl
      exact ⟨isAsked, rfl, illegal, unchanged⟩

end Plan

/-! A history over a table whose fourth read fails: a row, the failure, a call that is refused, and
the end. -/

namespace FailedRead

def flag : RowType :=
  ⟨0, [.notNull .boolean]⟩

def flagOf : Expr :=
  .column 0 (.notNull .boolean)

def plan : Plan :=
  .limit (.project (.filter (.table "flags" flag) flagOf) ⟨1, flag.columns⟩ [flagOf]) 1 none

def context : Context :=
  ⟨1, .empty, {}⟩

def store : Store where
  tables := ⟨[("flags", ⟨flag, [.stored 1 flag [.boolean true], .stored 2 flag [.boolean false],
    .stored 3 flag [.boolean true], .stored 4 flag [.boolean true]]⟩)]⟩

def probe : Probe where
  faults := ⟨[(.next, [4])]⟩

def engine : Engine where
  nextId := 5
  store := store
  probe? := some probe

def new : plan.Cursor :=
  let filter : Filter.State Scan := { own := (), input := { source := .ofOne .empty } }
  let projection : Project.State (Filter.State Scan) := { own := (), input := filter }
  ({ own := {}, input := projection } : Limit.State (Project.State (Filter.State Scan)))

theorem new_started : plan.start store (.ofOne .empty) = .ok new :=
  rfl

/-- After the third read the second row that passes the filter was given. -/
def given : plan.Cursor × Engine :=
  plan.history context [.openBindings, .nextBindings, .openPass, .next] (new, engine)

def failed : plan.Cursor × Engine :=
  plan.history context [.openBindings, .nextBindings, .openPass, .next, .next] (new, engine)

/-- Another call for a row, which comes too late. -/
def late : Except Interrupt CursorAnswer × plan.Cursor × Engine :=
  ((plan.layered context fun _ => Protocol.amid id).perform .next).run (failed.1, failed.2)

def ended : plan.Cursor × Engine :=
  plan.history context [.openBindings, .nextBindings, .openPass, .next, .next, .next, .destroy]
    (new, engine)

theorem history_reached (calls : List CursorCall) :
    plan.Reached context (fun _ => True) (plan.history context calls (new, engine)).1 :=
  (Plan.Reached.history (.start new_started) engine.faults_within_any calls).1

theorem stopped_of_map {interrupt : Interrupt}
    {ran : Except Interrupt CursorAnswer × plan.Cursor × Engine}
    (stopped : ran.1.map (fun _ => ()) = .error interrupt) : ran = (.error interrupt, ran.2) := by
  rcases ran with ⟨other | answer, after⟩
  · cases stopped
    rfl
  · cases stopped

/-- While rows are given all cursors run; the failure closes all of them, the late call is refused
by the topmost cursor and changes none, and all are destroyed together. -/
theorem protocol_kept_over_failure :
    plan.phases given.1 = [.running, .running, .running, .running] ∧
    (((plan.protocol context).perform .next).run given).1.map (fun _ => ()) =
      .error (.failed (.storage (.injected "next"))) ∧
    (∀ phase ∈ plan.phases failed.1, phase = .closed) ∧
    late.1.map (fun _ => ()) = .error (.failed (.lifecycle .next .closed)) ∧
    late.2.1 = failed.1 ∧ ∀ phase ∈ plan.phases ended.1, phase = .destroyed := by
  have reached : plan.Reached context (fun _ => True) failed.1 := history_reached _
  have last : plan.Reached context (fun _ => True) ended.1 := history_reached _
  have refused : late.1.map (fun _ => ()) = .error (.failed (.lifecycle .next .closed)) := by
    decide +kernel
  have closed : plan.phase failed.1 = .closed := by
    decide +kernel
  have destroyed : plan.phase ended.1 = .destroyed := by
    decide +kernel
  have obeys := Plan.reached_tree_obeys_protocol reached
  refine ⟨by decide +kernel, by decide +kernel, obeys.1 closed, refused, ?_, ?_⟩
  · obtain ⟨_, answers⟩ := obeys.2.2 .next id failed.2
    obtain ⟨_, _, _, unchanged⟩ := answers .next .closed late.2 (stopped_of_map refused)
    exact unchanged
  · exact (Plan.reached_tree_obeys_protocol last).2.1.mp destroyed

end FailedRead

end QueryExec
