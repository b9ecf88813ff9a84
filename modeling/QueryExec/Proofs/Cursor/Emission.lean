import QueryExec.Proofs.Cursor.Grouped
import QueryExec.Proofs.Cursor.Production

/-!
Row by row, what an aggregation over a leaf gives, with the identities of the rows that it makes
and with the rows of the leaf that it has not taken yet when it gives one. This is finer than what
an aggregation delivers: it tells which rows are the very rows of the leaf and when they come.
-/

namespace QueryExec

open QueryExec.Action

/-- A row that a call gave, and the rows of the leaf that were still to be taken after the call. -/
structure Emitted where
  row : Row
  left : List Row

/-- The answers of the calls of a pass, up to the end of the pass or the first failure. -/
structure Trace where
  given : List Emitted
  ending : Option Interrupt := none

namespace Trace

def stopped (interrupt : Interrupt) : Trace :=
  ⟨[], some interrupt⟩

def cons (emitted : Emitted) (trace : Trace) : Trace :=
  { trace with given := emitted :: trace.given }

end Trace

namespace Run

/-- What a row of the input type does to the open run: the run that it ends, if it ends one, and
the run that is open after it. -/
def turn (catalog : Catalog) (plan : GroupingPlan) (fresh : List Accumulator)
    (open? : Option Run) (view : View) : Option Run × Except Interrupt Run :=
  match open? with
  | none => (none, begin plan.keys fresh view)
  | some run =>
      match matchesKey catalog view 0 run.key plan.inputType.columns with
      | .ok true => (none, run.extend plan.keys view)
      | .ok false => (some run, begin plan.keys fresh view)
      | .error interrupt => (none, .error interrupt)

/-- The row that is made of a run. -/
def row (run : Run) (id : Nat) (type : RowType) : Row :=
  .stored id type (run.key ++ run.accumulators.map Accumulator.result)

end Run

namespace Grouping

section Emissions

variable (catalog : Catalog) (plan : GroupingPlan) (fresh : List Accumulator)

/-- After the last row comes the row of the open run. Without a run there is only the row over no
rows, which only an aggregation without keys gives. -/
def lastly (unused : Nat) : Option Run → Trace
  | some run => ⟨[⟨run.row unused plan.outputType, []⟩], none⟩
  | none =>
      if plan.keys = 0 then
        ⟨[⟨.stored unused plan.outputType (fresh.map Accumulator.emptyResult), []⟩], none⟩
      else ⟨[], none⟩

/-- What is given from here on when a run may be open, these rows are still to be considered, and
the next row that is made gets the identity `unused`. -/
def emissions : (unused : Nat) → Option Run → List Row → Trace
  | unused, open?, [] => lastly plan fresh unused open?
  | unused, open?, row :: rest =>
      if row.type.same plan.inputType then
        match Run.turn catalog plan fresh open? row.view with
        | (none, .ok run) => emissions unused (some run) rest
        | (none, .error interrupt) => .stopped interrupt
        | (some ended, .ok run) =>
            (emissions (unused + 1) (some run) rest).cons ⟨ended.row unused plan.outputType, rest⟩
        | (some ended, .error interrupt) =>
            (Trace.stopped interrupt).cons ⟨ended.row unused plan.outputType, rest⟩
      else (emissions unused open? rest).cons ⟨row, rest⟩

variable {catalog plan fresh} {unused : Nat} {open? : Option Run} {row : Row} {rest : List Row}

theorem emissions_foreign (foreign : row.type.same plan.inputType = false) :
    emissions catalog plan fresh unused open? (row :: rest) =
      (emissions catalog plan fresh unused open? rest).cons ⟨row, rest⟩ := by
  conv => lhs; unfold emissions
  rw [foreign]
  rfl

theorem emissions_own (own : row.type.same plan.inputType = true) :
    emissions catalog plan fresh unused open? (row :: rest) =
      match Run.turn catalog plan fresh open? row.view with
      | (none, .ok run) => emissions catalog plan fresh unused (some run) rest
      | (none, .error interrupt) => .stopped interrupt
      | (some ended, .ok run) =>
          (emissions catalog plan fresh (unused + 1) (some run) rest).cons
            ⟨ended.row unused plan.outputType, rest⟩
      | (some ended, .error interrupt) =>
          (Trace.stopped interrupt).cons ⟨ended.row unused plan.outputType, rest⟩ := by
  conv => lhs; unfold emissions
  rw [own]
  rfl

theorem emissions_begun (own : row.type.same plan.inputType = true) {run : Run}
    (begun : Run.begin plan.keys fresh row.view = .ok run) :
    emissions catalog plan fresh unused none (row :: rest) =
      emissions catalog plan fresh unused (some run) rest := by
  rw [emissions_own own]
  unfold Run.turn
  dsimp only
  rw [begun]

theorem emissions_not_begun (own : row.type.same plan.inputType = true) {interrupt : Interrupt}
    (failed : Run.begin plan.keys fresh row.view = .error interrupt) :
    emissions catalog plan fresh unused none (row :: rest) = .stopped interrupt := by
  rw [emissions_own own]
  unfold Run.turn
  dsimp only
  rw [failed]

section OpenRun

variable {run : Run} (own : row.type.same plan.inputType = true)

include own

/-- A row with another key ends the run and is then considered like a first row. -/
theorem emissions_ended
    (other : Run.matchesKey catalog row.view 0 run.key plan.inputType.columns = .ok false) :
    emissions catalog plan fresh unused (some run) (row :: rest) =
      (emissions catalog plan fresh (unused + 1) none (row :: rest)).cons
        ⟨run.row unused plan.outputType, rest⟩ := by
  rw [emissions_own own, emissions_own own]
  unfold Run.turn
  dsimp only
  rw [other]
  cases Run.begin plan.keys fresh row.view <;> rfl

theorem emissions_extended
    (equal : Run.matchesKey catalog row.view 0 run.key plan.inputType.columns = .ok true)
    {longer : Run} (extended : run.extend plan.keys row.view = .ok longer) :
    emissions catalog plan fresh unused (some run) (row :: rest) =
      emissions catalog plan fresh unused (some longer) rest := by
  rw [emissions_own own]
  unfold Run.turn
  dsimp only
  rw [equal, extended]

theorem emissions_not_extended
    (equal : Run.matchesKey catalog row.view 0 run.key plan.inputType.columns = .ok true)
    {interrupt : Interrupt} (failed : run.extend plan.keys row.view = .error interrupt) :
    emissions catalog plan fresh unused (some run) (row :: rest) = .stopped interrupt := by
  rw [emissions_own own]
  unfold Run.turn
  dsimp only
  rw [equal, failed]

theorem emissions_not_compared {interrupt : Interrupt}
    (failed : Run.matchesKey catalog row.view 0 run.key plan.inputType.columns =
      .error interrupt) :
    emissions catalog plan fresh unused (some run) (row :: rest) = .stopped interrupt := by
  rw [emissions_own own]
  unfold Run.turn
  dsimp only
  rw [failed]

end OpenRun

/-- Every row gives at most one row, and the last run and the row over no rows one each. -/
theorem emissions_length (catalog : Catalog) (plan : GroupingPlan) (fresh : List Accumulator)
    (unused : Nat) (open? : Option Run) (rows : List Row) :
    (emissions catalog plan fresh unused open? rows).given.length ≤
      rows.length + (if open?.isSome then 1 else 0) + 1 := by
  induction rows generalizing unused open? with
  | nil =>
      cases open? with
      | some run => exact Nat.le_add_left _ _
      | none =>
          unfold emissions lastly
          dsimp only
          split <;> simp
  | cons row rest induction =>
      cases own : row.type.same plan.inputType with
      | false =>
          have passed := induction unused open?
          rw [emissions_foreign own]
          simp only [Trace.cons, List.length_cons]
          omega
      | true =>
          rw [emissions_own own]
          rcases turned : Run.turn catalog plan fresh open? row.view with
            ⟨_ | ended, interrupt | run⟩
          · exact Nat.zero_le _
          · have continued : _ ≤ rest.length + 1 + 1 := induction unused (some run)
            exact Nat.le_trans continued (by rw [List.length_cons]; omega)
          · simp [Trace.cons, Trace.stopped]
          · have continued : _ ≤ rest.length + 1 + 1 := induction (unused + 1) (some run)
            -- only an open run can end here
            have opened : open?.isSome = true := by
              cases open? with
              | some _ => rfl
              | none => cases turned
            rw [opened]
            simp only [Trace.cons, List.length_cons, if_true]
            omega

end Emissions

end Grouping

/-- An engine in which rows are read as the census says, nothing is cancelled and the next identity
is known. -/
structure Engine.Calm (context : Context) (census : Census) (unused : Nat) (engine : Engine) :
    Prop where
  journal : engine.journal.Sound context census
  identity : engine.nextId = unused

namespace Engine

variable {context : Context} {census : Census} {unused : Nat} {engine : Engine}

theorem calm_readable (context : Context) (census : Census) (unused : Nat) :
    Engine.Readable context census (Engine.Calm context census unused) :=
  ⟨Engine.Calm.journal, fun calm sound => ⟨sound, calm.identity⟩⟩

theorem Calm.issued (calm : engine.Calm context census unused) :
    Engine.Calm context census (unused + 1) { engine with nextId := engine.nextId + 1 } :=
  ⟨calm.journal, congrArg (· + 1) calm.identity⟩

end Engine

namespace Grouping

variable {context : Context} {census : Census} {plan : GroupingPlan} {fresh : List Accumulator}
  {load : Action Engine (List Row)} {unused : Nat} {node : State Scan} {engine : Engine} {row : Row}
  {trace : Trace}

/-- Behind its last row an aggregation gives nothing more. Before it, it gives what comes of the
row that it holds and of the pending rows of the leaf. -/
def Emitting (context : Context) (census : Census) (plan : GroupingPlan)
    (fresh : List Accumulator) (unused : Nat) (trace : Trace) (node : State Scan) : Prop :=
  (node.phase = .closing ∧ node.input.phase = .closed ∧ trace = ⟨[], none⟩) ∨
  ∃ open? held, Standing plan fresh census node.phase node.own open? held ∧
    node.input.phase.isActive = true ∧ (∀ row ∈ node.input.pending, row.Listed census) ∧
    trace = emissions context.catalog plan fresh unused open?
      (node.own.lookahead?.toList ++ node.input.pending)

/-- The answer of one call is the first of the trace, and the rest is still to come. -/
def Emits (context : Context) (census : Census) (plan : GroupingPlan) (fresh : List Accumulator)
    (trace : Trace) : Option Row → State Scan × Engine → Prop
  | some row, after => ∃ unused rest, trace = rest.cons ⟨row, after.1.input.pending⟩ ∧
      row.Listed census ∧ after.2.Calm context census unused ∧
      Emitting context census plan fresh unused rest after.1
  | none, _ => trace = ⟨[], none⟩

/-- With this many turns the collection answers as the trace says. -/
def Gathers (context : Context) (census : Census) (plan : GroupingPlan)
    (fresh : List Accumulator) (load : Action Engine (List Row)) (bound : Nat) : Prop :=
  ∀ {unused : Nat} {node : State Scan} {engine : Engine} (open? : Option Run) (held : List View),
    Standing plan fresh census node.phase node.own open? held →
    node.input.phase.isActive = true → (∀ row ∈ node.input.pending, row.Listed census) →
    node.own.lookahead?.toList.length + node.input.pending.length < bound →
    engine.Calm context census unused →
    EndsIn (node, engine) (collect context plan (Scan.protocol context load) bound)
      (Emits context census plan fresh (emissions context.catalog plan fresh unused open?
        (node.own.lookahead?.toList ++ node.input.pending)))
      fun interrupt _ => emissions context.catalog plan fresh unused open?
        (node.own.lookahead?.toList ++ node.input.pending) = .stopped interrupt

section Turns

variable {bound : Nat} (gathers : Gathers context census plan fresh load bound)
  (listed : row.Listed census) (own : row.type.same plan.inputType = true)
  (active : node.input.phase.isActive = true)
  (pending : ∀ row ∈ node.input.pending, row.Listed census)
  (enough : node.input.pending.length < bound) (calm : engine.Calm context census unused)

include gathers listed own active pending enough calm

/-- A row before which no run is open begins one. -/
theorem consider_first_emits (opening : node.phase = .opening)
    (empty : node.own.lookahead? = none)
    (reset : node.own.accumulators.map Accumulator.reset = fresh) :
    EndsIn (node, engine) (consider context plan (Scan.protocol context load) bound row)
      (Emits context census plan fresh
        (emissions context.catalog plan fresh unused none (row :: node.input.pending)))
      fun interrupt _ => emissions context.catalog plan fresh unused none
        (row :: node.input.pending) = .stopped interrupt := by
  obtain ⟨phase, bindings, ⟨key, accumulators, lookahead?, sawInput⟩, rest⟩ := node
  cases opening
  cases empty
  subst reset
  have readable := Engine.calm_readable context census unused
  refine consider_begins_run readable listed own calm
    (fun interrupt _ failed => emissions_not_begun own failed) fun run reached begun calm => ?_
  rw [emissions_begun own begun]
  exact gathers (some ⟨run.key, run.accumulators⟩) [] (.inRun (Run.begin_reset begun)) active
    pending (by simpa using enough) calm

/-- A row after others of an open run extends the run or ends it; when it ends the run it is held
and counts as taken. -/
theorem consider_next_emits {run : Run}
    (standing : Standing plan fresh census node.phase node.own (some run) []) :
    EndsIn (node, engine) (consider context plan (Scan.protocol context load) bound row)
      (Emits context census plan fresh
        (emissions context.catalog plan fresh unused (some run) (row :: node.input.pending)))
      fun interrupt _ => emissions context.catalog plan fresh unused (some run)
        (row :: node.input.pending) = .stopped interrupt := by
  obtain ⟨phase, bindings, ⟨key, accumulators, lookahead?, sawInput⟩, rest⟩ := node
  dsimp only at standing active pending enough
  cases standing with
  | inRun reset =>
  have readable := Engine.calm_readable context census unused
  refine consider_meets_run readable listed own calm
    (fun interrupt _ failed => emissions_not_compared own failed)
    (fun interrupt _ compared failed => emissions_not_extended own compared ?_)
    (fun longer reached compared absorbed calm => ?_) fun reached compared calm => ?_
  · rw [Run.extend_eq, failed]
    rfl
  · have extended : Run.extend ⟨key, accumulators⟩ plan.keys row.view = .ok ⟨key, longer⟩ := by
      rw [Run.extend_eq, absorbed]
      rfl
    rw [emissions_extended own compared extended]
    exact gathers (some ⟨key, longer⟩) [] (.inRun ((Run.absorb_reset absorbed).trans reset))
      active pending (by simpa using enough) calm
  · have resetAgain := (Accumulator.map_reset_reset accumulators).trans reset
    rw [emissions_ended own compared]
    refine ⟨unused + 1, _, ?_, trivial, calm.issued, .inr ⟨none, [row.view],
      .betweenRuns resetAgain listed own, active, pending, rfl⟩⟩
    rw [calm.identity]
    rfl

end Turns

/-- After the last row comes the row of the open run or, without keys and without any row, the row
over nothing. -/
theorem end_of_input_emits {open? : Option Run}
    (standing : Standing plan fresh census node.phase node.own open? [])
    (ended : node.input.phase = .closed) (empty : node.input.pending = [])
    (calm : engine.Calm context census unused) :
    EndsIn (node, engine) (endOfInput plan (Scan.protocol context load))
      (Emits context census plan fresh (emissions context.catalog plan fresh unused open? []))
      fun _ _ => False := by
  obtain ⟨phase, bindings, ⟨key, accumulators, lookahead?, sawInput⟩, rest⟩ := node
  dsimp only at standing ended empty
  cases standing with
  | inRun reset =>
      refine end_gives_run ⟨unused + 1, ⟨[], none⟩, ?_, trivial, calm.issued,
        .inl ⟨rfl, ended, rfl⟩⟩
      dsimp only
      rw [calm.identity, empty]
      rfl
  | beforeRows reset =>
      unfold emissions lastly
      dsimp only
      split
      next unkeyed =>
        refine end_gives_vacant unkeyed ⟨unused + 1, ⟨[], none⟩, ?_, trivial, calm.issued,
          .inl ⟨rfl, ended, rfl⟩⟩
        dsimp only
        rw [calm.identity, empty, ← reset, Accumulator.map_reset_empty_result]
        rfl
      next keyed =>
        exact end_finishes keyed (agree_surely (Node.finish_closes_only ended)
          fun _ _ _ => agree_pure none rfl)

theorem take_from_leaf (empty : node.own.lookahead? = none)
    (active : node.input.phase.isActive = true) (calm : engine.Calm context census unused) :
    EndsIn (node, engine) (takeRow (Scan.protocol context load))
      (fun row? after => ∃ taken, after.1 = { node with input := taken } ∧
        node.input.Taken row? taken ∧ after.2.Calm context census unused)
      fun _ _ => False := by
  apply CursorAction.agree_state
  dsimp only
  rw [empty]
  apply CursorAction.agree_state
  change EndsIn _ (if node.input.phase.isActive = true then _ else _) _ _
  rw [if_pos active]
  refine Node.agree_on_input (agree_weaken
    (Scan.next_takes (Engine.calm_readable context census unused) active calm) ?_ fun _ _ => id)
  exact fun _ after ends => ⟨after.1, rfl, ends⟩

section Places

variable {bound : Nat} (gathers : Gathers context census plan fresh load bound)
  (pending : ∀ row ∈ node.input.pending, row.Listed census)
  (active : node.input.phase.isActive = true) (calm : engine.Calm context census unused)

include gathers pending active calm

/-- The turn in a pass that holds no row takes the next row of the leaf. -/
theorem turn_from_leaf_emits {open? : Option Run}
    (standing : Standing plan fresh census node.phase node.own open? [])
    (enough : node.input.pending.length < bound + 1) :
    EndsIn (node, engine) (collect context plan (Scan.protocol context load) (bound + 1))
      (Emits context census plan fresh
        (emissions context.catalog plan fresh unused open? node.input.pending))
      fun interrupt _ => emissions context.catalog plan fresh unused open?
        node.input.pending = .stopped interrupt := by
  rw [collect_succ]
  apply agree_surely (take_from_leaf standing.empty active calm)
  rintro (_ | row) ⟨_, engine⟩ ⟨taken, rfl, took, calm⟩
  · obtain ⟨empty, rfl⟩ := took
    rw [empty]
    exact agree_given (end_of_input_emits standing rfl rfl calm) fun _ _ => id
  obtain ⟨rest, first, rfl⟩ := took
  rw [first] at enough pending ⊢
  have fewer : rest.length < bound := Nat.lt_of_succ_lt_succ enough
  have others : ∀ other ∈ rest, other.Listed census :=
    fun other among => pending other (List.mem_cons_of_mem row among)
  change EndsIn _ (consider context plan (Scan.protocol context load) bound row) _ _
  cases own : row.type.same plan.inputType with
  | false =>
      unfold consider
      rw [own]
      have listed : row.Listed census := pending row List.mem_cons_self
      refine agree_pure (some row) ⟨unused, _, emissions_foreign own, listed, calm,
        .inr ⟨open?, [], standing, rfl, others, ?_⟩⟩
      dsimp only
      rw [standing.empty]
      rfl
  | true =>
      have listed : row.Listed census := pending row List.mem_cons_self
      cases open? with
      | some run => exact consider_next_emits gathers listed own rfl others fewer calm standing
      | none =>
          obtain ⟨phase, bindings, state, _⟩ := node
          dsimp only at standing
          cases standing with
          | beforeRows reset =>
              exact consider_first_emits gathers listed own rfl others fewer calm rfl rfl reset

/-- The turn in a pass that holds a row takes that row, which begins a run. -/
theorem turn_from_held_emits
    (standing : Standing plan fresh census node.phase node.own none [row.view])
    (holding : node.own.lookahead? = some row) (enough : node.input.pending.length < bound) :
    EndsIn (node, engine) (collect context plan (Scan.protocol context load) (bound + 1))
      (Emits context census plan fresh
        (emissions context.catalog plan fresh unused none (row :: node.input.pending)))
      fun interrupt _ => emissions context.catalog plan fresh unused none
        (row :: node.input.pending) = .stopped interrupt := by
  rw [collect_succ]
  apply agree_surely (take_held holding)
  intro _ _ ends
  obtain ⟨rfl, rfl⟩ := ends
  obtain ⟨phase, bindings, ⟨key, accumulators, lookahead?, sawInput⟩, rest⟩ := node
  dsimp only at standing holding
  subst holding
  cases standing with
  | betweenRuns reset listed own =>
      exact consider_first_emits gathers listed own active pending enough calm rfl rfl reset

end Places

/-- By induction on the turns: each takes the row that is held or one row of the leaf. -/
theorem collect_emits (bound : Nat) : Gathers context census plan fresh load bound := by
  induction bound with
  | zero => exact fun _ _ _ _ _ enough _ => absurd enough (Nat.not_lt_zero _)
  | succ bound gathers =>
      intro unused node engine open? held standing active pending enough calm
      cases holding : node.own.lookahead? with
      | some row =>
          obtain ⟨rfl, rfl⟩ := standing.between_runs holding
          rw [holding] at enough
          have fewer : 1 + node.input.pending.length < bound + 1 := enough
          exact turn_from_held_emits gathers pending active calm standing holding (by omega)
      | none =>
          obtain rfl := standing.nothing_held holding
          rw [holding] at enough
          exact turn_from_leaf_emits gathers pending active calm standing (by simpa using enough)

theorem emitting_active (emitting : Emitting context census plan fresh unused trace node) :
    node.phase.isActive = true := by
  rcases emitting with ⟨closing, _, _⟩ | ⟨_, _, standing, _, _, _⟩
  · rw [closing]
    rfl
  · exact standing.active

/-- One call gives the next row of the trace or ends the pass as the trace does. -/
theorem next_emits (emitting : Emitting context census plan fresh unused trace node)
    (calm : engine.Calm context census unused) :
    EndsIn (node, engine) (next context plan (Scan.protocol context load))
      (Emits context census plan fresh trace) fun interrupt _ => trace = .stopped interrupt := by
  refine Node.agree_past_check (emitting_active emitting) ?_
  apply agree_surely (taps_calmly (Engine.calm_readable context census unused) calm
    "aggregate.next")
  intro _ after ends
  obtain ⟨node, tapped⟩ := after
  obtain ⟨rfl, calm⟩ := ends
  have advances : EndsIn (node, tapped) (advance context plan (Scan.protocol context load))
      (Emits context census plan fresh trace)
      fun interrupt _ => trace = .stopped interrupt := by
    apply agree_surely (checks_calmly (Engine.calm_readable context census unused) calm)
    intro _ _ same
    subst same
    apply CursorAction.agree_state
    dsimp only
    rcases emitting with ⟨closing, ended, rfl⟩ | ⟨open?, held, standing, active, pending, rfl⟩
    · rw [if_pos closing]
      exact agree_surely (Node.finish_closes_only ended) fun _ _ _ => agree_pure none rfl
    · rw [if_neg standing.not_closing]
      refine collect_emits _ open? held standing active pending ?_ calm
      unfold supply
      cases node.own.lookahead? <;> simp [Scan.protocol, Nat.add_comm]
  refine agree_on_failure (agree_weaken advances (fun _ _ => id) ?_)
  rintro (error | _) ⟨failed, engine⟩ stopped
  · apply agree_then (fun _ _ => True) (Node.agree_change_own _ trivial)
    intro _ after _
    obtain ⟨failed, engine⟩ := after
    refine agree_given (Node.abort_never_stops (Scan.protocol_produces context engine.store load))
      fun _ _ _ => stopped
  · exact stopped

/-- In a cancelled context a call fails before it takes a row. -/
theorem next_cancelled (active : node.phase.isActive = true)
    (cancelled : (engine.journal.of context).cancelled = true) :
    EndsIn (node, engine) (next context plan (Scan.protocol context load)) (fun _ _ => False)
      fun interrupt _ => interrupt = .failed .cancelled := by
  refine Node.agree_past_check active ?_
  apply agree_surely (taps_cancelled "aggregate.next" cancelled)
  intro _ after ends
  obtain ⟨_, tapped⟩ := after
  obtain ⟨rfl, cancelled⟩ := ends
  refine agree_on_failure (agree_weaken (agree_bind (checks_cancelled cancelled)
    fun _ _ impossible => impossible.elim) (fun _ _ => id) ?_)
  rintro _ ⟨failed, engine⟩ ⟨rfl, _⟩
  apply agree_then (fun _ _ => True) (Node.agree_change_own _ trivial)
  intro _ after _
  obtain ⟨failed, engine⟩ := after
  exact agree_given (Node.abort_never_stops (Scan.protocol_produces context engine.store load))
    fun _ _ _ => rfl

end Grouping

end QueryExec
