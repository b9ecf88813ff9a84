import Mathlib.Data.List.Forall2
import QueryExec.Proofs.Cursor.Emission
import QueryExec.Proofs.Execution

/-!
Whole passes of an aggregation over a list of rows, call by call. A pass of a new cursor answers as
what comes of the rows one after another says, and in a cancelled context its first call fails. An
execution that succeeds answers with the values of the rows that its pass gives.
-/

namespace QueryExec

open QueryExec.Action

section Passes

variable {cursor : Type}

/-- The answers of the calls of `next` until the pass ends; `left` tells which rows of the leaf are
still to be taken. -/
def Protocol.traceWithin (protocol : Protocol cursor) (left : cursor → List Row) :
    Nat → cursor × Engine → Trace
  | 0, _ => ⟨[], none⟩
  | bound + 1, pair =>
      match protocol.next.run pair with
      | (.ok (some row), after) => (protocol.traceWithin left bound after).cons ⟨row, left after.1⟩
      | (.ok none, _) => ⟨[], none⟩
      | (.error interrupt, _) => .stopped interrupt

/-- A whole pass, call by call. -/
def Protocol.trace (protocol : Protocol cursor) (left : cursor → List Row)
    (pair : cursor × Engine) : Trace :=
  match protocol.openPass.run pair with
  | (.ok _, after) => protocol.traceWithin left (protocol.remaining after.1 + 1) after
  | (.error interrupt, _) => .stopped interrupt

/-- What a run answers it answers also when the cursor is destroyed afterwards. -/
theorem then_destroy_gives {result : Type} {protocol : Protocol cursor} {pair : cursor × Engine}
    {run : CursorAction cursor result} {gives : result → Prop}
    (runs : EndsIn pair run (fun value _ => gives value) fun _ _ => True) :
    EndsIn pair (protocol.thenDestroy run) (fun value _ => gives value) fun _ _ => True := by
  refine agree_then (fun ran _ => ∀ value, ran = .ok value → gives value)
    (agree_attempt (agree_weaken runs ?_ ?_)) ?_
  · rintro value _ given _ ⟨⟩
    exact given
  · rintro (error | _) _ _
    · rintro _ ⟨⟩
    · trivial
  intro ran _ given
  refine agree_then (fun _ _ => True) (agree_anyhow _ _) ?_
  intro destroyed _ _
  refine agree_then (fun value _ => gives value)
    (agree_of_except ran (fun value same => given value same) fun _ _ => trivial) ?_
  intro value _ given
  exact agree_then (fun _ _ => gives value)
    (agree_of_except destroyed (fun _ _ => given) fun _ _ => trivial)
    fun _ _ given => agree_pure value given

end Passes

/-- These are the values of the rows that the trace gives, and it ends without a failure. -/
def Trace.Reads (trace : Trace) (values : List (List Datum)) : Prop :=
  trace.ending = none ∧
    List.Forall₂ (fun emitted row => emitted.row.view.values = .ok row) trace.given values

namespace Plan

/-- The rows of the leaf that are still to be taken. -/
def untaken : (plan : Plan) → plan.Cursor → List Row
  | values _ _ _ => Scan.pending
  | table _ _ => Scan.pending
  | filter input _ => fun node : Filter.State input.Cursor => input.untaken node.input
  | project input _ _ => fun node : Project.State input.Cursor => input.untaken node.input
  | aggregate input _ _ _ => fun node : Grouping.State input.Cursor => input.untaken node.input
  | limit input _ _ => fun node : Limit.State input.Cursor => input.untaken node.input

/-- A pass of a new cursor under a binding. -/
def trace (plan : Plan) (context : Context) (bindings : Bindings) (engine : Engine) : Trace :=
  match plan.start engine.store (.ofOne bindings) with
  | .ok cursor =>
      (plan.protocol context).trace plan.untaken
        (plan.history context [.openBindings, .nextBindings] (cursor, engine))
  | .error error => .stopped (.failed error)

end Plan

namespace Grouping

variable {context : Context} {census : Census} {plan : GroupingPlan} {fresh : List Accumulator}
  {load : Action Engine (List Row)} {unused : Nat} {node : State Scan} {engine : Engine}
  {trace : Trace}

/-- The calls of a pass answer as the trace says: by induction on their number. -/
theorem trace_within_eq (bound : Nat)
    (emitting : Emitting context census plan fresh unused trace node)
    (enough : trace.given.length < bound) (calm : engine.Calm context census unused) :
    (protocol context plan (Scan.protocol context load)).traceWithin
      (fun node => node.input.pending) bound (node, engine) = trace := by
  induction bound generalizing unused trace node engine with
  | zero => exact absurd enough (Nat.not_lt_zero _)
  | succ bound induction =>
      have answers : EndsIn (node, engine) (protocol context plan (Scan.protocol context load)).next
          (Emits context census plan fresh trace) fun interrupt _ => trace = .stopped interrupt :=
        next_emits emitting calm
      have ends := answers.2
      unfold Protocol.traceWithin
      revert ends
      rcases (protocol context plan (Scan.protocol context load)).next.run (node, engine) with
        ⟨interrupt | _ | row, after⟩
      · exact Eq.symm
      · exact Eq.symm
      · intro meets
        obtain ⟨later, rest, rfl, _, calm, emitting⟩ := meets
        have fewer : rest.given.length < bound := Nat.lt_of_succ_lt_succ enough
        exact congrArg (Trace.cons _) (induction emitting fewer calm)

/-- A pass that is read to its end gives the values of its trace: by induction on the calls. -/
theorem drain_within_reads (bound : Nat)
    (emitting : Emitting context census plan fresh unused trace node)
    (enough : trace.given.length < bound) (calm : engine.Calm context census unused) :
    EndsIn (node, engine) ((protocol context plan (Scan.protocol context load)).drainWithin bound)
      (fun values _ => trace.Reads values) fun _ _ => True := by
  induction bound generalizing unused trace node engine with
  | zero => exact absurd enough (Nat.not_lt_zero _)
  | succ bound induction =>
      apply agree_bind (agree_weaken (next_emits emitting calm) (fun _ _ => id)
        fun _ _ _ => trivial)
      rintro (_ | row) ⟨after, engine⟩ emits
      · cases (show trace = ⟨[], none⟩ from emits)
        exact agree_pure [] ⟨rfl, .nil⟩
      obtain ⟨later, rest, rfl, listed, calm, emitting⟩ := emits
      dsimp only at calm emitting
      apply agree_bind (agree_weaken (reads_calmly (Engine.calm_readable context census later)
        (read_all_yields listed) calm) (fun _ _ => id) fun _ _ _ => trivial)
      rintro values ⟨_, engine⟩ ⟨read, rfl, calm⟩
      have fewer : rest.given.length < bound := Nat.lt_of_succ_lt_succ enough
      apply agree_bind (induction emitting fewer calm)
      exact fun others _ reads => agree_pure (values :: others) ⟨reads.1, .cons read reads.2⟩

end Grouping

namespace Plan

section Aggregations

variable {context : Context} {engine : Engine} {slice : Nat} {type out : RowType} {keys : Nat}
  {aggregates : List Aggregate} {rows : List Row} {started : List Accumulator}

/-- The new tree of an aggregation over a list of rows. -/
def newOver (bindings : Bindings) (started : List Accumulator) : Grouping.State Scan where
  own := { accumulators := started }
  input := { source := .ofOne bindings }

/-- The opened tree of an aggregation over a list of rows. -/
def openedOver (bindings : Bindings) (started : List Accumulator) (rows : List Row) :
    Grouping.State Scan where
  phase := .opening
  bindings := bindings
  own := { accumulators := started.map Accumulator.reset }
  input :=
    { phase := .opening, source := .single bindings .exhausted, current := bindings,
      pending := rows }

/-- The engine after the two openings, which are counted. -/
def openedIn (context : Context) (engine : Engine) : Engine :=
  { engine with
    journal := (engine.journal.tap context "aggregate.open").tap context "scan.open" }

theorem trace_opened (bindings : Bindings)
    (ready : startAccumulators aggregates = .ok started) :
    (aggregate (values slice type rows) out keys aggregates).trace context bindings engine =
      (Grouping.protocol context ⟨type, out, keys⟩
        (Scan.protocol context (pure rows))).traceWithin (fun node => node.input.pending)
          (rows.length + 2) (openedOver bindings started rows, openedIn context engine) := by
  unfold trace start
  rw [ready]
  rfl

theorem trace_refused (bindings : Bindings) {error : QueryError}
    (refused : startAccumulators aggregates = .error error) :
    (aggregate (values slice type rows) out keys aggregates).trace context bindings engine =
      .stopped (.failed error) := by
  unfold trace start
  rw [refused]

theorem opened_cancelled (cancelled : (engine.journal.of context).cancelled = true) :
    ((openedIn context engine).journal.of context).cancelled = true := by
  unfold openedIn
  rw [Journal.cancelled_tap, Journal.cancelled_tap]
  exact cancelled

theorem trace_cancelled (bindings : Bindings) (ready : startAccumulators aggregates = .ok started)
    (cancelled : (engine.journal.of context).cancelled = true) :
    (aggregate (values slice type rows) out keys aggregates).trace context bindings engine =
      .stopped (.failed .cancelled) := by
  rw [trace_opened bindings ready]
  have fails : EndsIn (openedOver bindings started rows, openedIn context engine)
      (Grouping.protocol context ⟨type, out, keys⟩ (Scan.protocol context (pure rows))).next
      (fun _ _ => False) fun interrupt _ => interrupt = .failed .cancelled :=
    Grouping.next_cancelled rfl (opened_cancelled cancelled)
  have ends := fails.2
  unfold Protocol.traceWithin
  revert ends
  rcases (Grouping.protocol context ⟨type, out, keys⟩
    (Scan.protocol context (pure rows))).next.run _ with ⟨interrupt | _, after⟩
  · exact congrArg Trace.stopped
  · exact False.elim

section Undisturbed

variable {census : Census} (sound : engine.journal.Sound context census)
  (listed : ∀ row ∈ rows, row.Listed census)

include sound in
theorem opened_calm : (openedIn context engine).Calm context census engine.nextId :=
  ⟨(sound.tap context _).tap context _, rfl⟩

include listed in
/-- Everything is still to come from an opened tree. -/
theorem opened_emitting (bindings : Bindings) (ready : startAccumulators aggregates = .ok started)
    (unused : Nat) :
    Grouping.Emitting context census ⟨type, out, keys⟩ started unused
      (Grouping.emissions context.catalog ⟨type, out, keys⟩ started unused none rows)
      (openedOver bindings started rows) := by
  have reset : started.map Accumulator.reset = started := start_accumulators_reset ready
  refine .inr ⟨none, [], .beforeRows ?_, rfl, listed, rfl⟩
  rw [reset, reset]

include sound listed in
/-- Undisturbed, the pass gives what comes of the rows one after another. -/
theorem trace_eq (bindings : Bindings) (ready : startAccumulators aggregates = .ok started) :
    (aggregate (values slice type rows) out keys aggregates).trace context bindings engine =
      Grouping.emissions context.catalog ⟨type, out, keys⟩ started engine.nextId none rows := by
  rw [trace_opened bindings ready]
  refine Grouping.trace_within_eq _ (opened_emitting listed bindings ready _) ?_ (opened_calm sound)
  exact Nat.lt_succ_of_le (Grouping.emissions_length ..)

end Undisturbed

/-- Under one binding a run makes its first pass in the opened tree. -/
theorem run_passes_gives {bindings : Bindings} {result : Type} {gives : result → Prop}
    {pass : Bindings → CursorAction (Grouping.State Scan) result}
    (passes : EndsIn (openedOver bindings started rows, openedIn context engine) (pass bindings)
      (fun value _ => gives value) fun _ _ => True) :
    EndsIn (newOver bindings started, engine)
      (((aggregate (values slice type rows) out keys aggregates).protocol context).runPasses pass)
      (fun results _ => ∃ first rest, results = first :: rest ∧ gives first) fun _ _ => True := by
  let offered (source : BindingSource) (current : Bindings) : Grouping.State Scan :=
    { bindings := current, own := { accumulators := started }, input := { source, current } }
  refine agree_then (fun _ after => after = (offered (.single bindings .pending) .empty, engine))
    ⟨rfl, rfl⟩ ?_
  rintro _ _ rfl
  apply CursorAction.agree_state
  refine agree_then (fun results _ => ∃ first rest, results = first :: rest ∧ gives first) ?_
    fun results after given => agree_bind (agree_anyhow _ _) fun _ _ _ => agree_pure results given
  refine agree_then (fun next? after => next? = some bindings ∧
    after = (offered (.single bindings .exhausted) bindings, engine)) ⟨rfl, rfl, rfl⟩ ?_
  rintro _ _ ⟨rfl, rfl⟩
  refine agree_then (fun _ after => after = (openedOver bindings started rows,
    openedIn context engine)) ⟨rfl, rfl⟩ ?_
  rintro _ _ rfl
  refine agree_bind passes ?_
  intro first after given
  apply agree_bind (agree_anyhow _ _)
  exact fun rest _ _ => agree_pure (first :: rest) ⟨first, rest, rfl, given⟩

/-- What holds of the values of the opened tree holds of what an execution answers. -/
theorem execute_gives (bindings : Bindings) {gives : List (List Datum) → Prop}
    (ready : startAccumulators aggregates = .ok started)
    (drains : EndsIn (openedOver bindings started rows, openedIn context engine)
      ((aggregate (values slice type rows) out keys aggregates).protocol context).drain
      (fun values _ => gives values) fun _ _ => True) :
    EndsIn engine
      ((aggregate (values slice type rows) out keys aggregates).execute context bindings)
      (fun values _ => gives values) fun _ _ => True := by
  have starts : (aggregate (values slice type rows) out keys aggregates).start engine.store
      (.ofOne bindings) = .ok (newOver bindings started) := by
    unfold start
    rw [ready]
    rfl
  refine agree_then (fun passes _ => ∃ first rest, passes = first :: rest ∧ gives first) ?_ ?_
  · refine agree_then (fun read after => engine = read ∧ engine = after) ⟨rfl, rfl, rfl⟩ ?_
    rintro _ _ ⟨rfl, rfl⟩
    rw [starts]
    refine agree_then (fun cursor after => newOver bindings started = cursor ∧ engine = after)
      ⟨rfl, rfl, rfl⟩ ?_
    rintro _ _ ⟨rfl, rfl⟩
    exact agree_run_from (then_destroy_gives (run_passes_gives drains))
  · rintro _ _ ⟨first, rest, rfl, given⟩
    exact agree_pure first given

/-- An execution that succeeds in an undisturbed context gives the values of what comes of the rows
one after another. -/
theorem execute_reads {census : Census} (bindings : Bindings)
    (ready : startAccumulators aggregates = .ok started)
    (sound : engine.journal.Sound context census) (listed : ∀ row ∈ rows, row.Listed census) :
    EndsIn engine
      ((aggregate (values slice type rows) out keys aggregates).execute context bindings)
      (fun values _ => (Grouping.emissions context.catalog ⟨type, out, keys⟩ started
        engine.nextId none rows).Reads values) fun _ _ => True := by
  refine execute_gives bindings ready (CursorAction.agree_state ?_)
  refine Grouping.drain_within_reads _ (opened_emitting listed bindings ready _) ?_
    (opened_calm sound)
  exact Nat.lt_succ_of_le (Grouping.emissions_length ..)

/-- No execution succeeds in a cancelled context. -/
theorem execute_cancelled (bindings : Bindings) (ready : startAccumulators aggregates = .ok started)
    (cancelled : (engine.journal.of context).cancelled = true) :
    EndsIn engine
      ((aggregate (values slice type rows) out keys aggregates).execute context bindings)
      (fun _ _ => False) fun _ _ => True := by
  refine execute_gives bindings ready (CursorAction.agree_state ?_)
  refine agree_bind (agree_weaken (Grouping.next_cancelled rfl (opened_cancelled cancelled))
    (fun _ _ => id) fun _ _ _ => trivial) fun _ _ impossible => impossible.elim

end Aggregations

end Plan

end QueryExec
