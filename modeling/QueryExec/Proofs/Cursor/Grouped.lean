import QueryExec.Proofs.Accumulator
import QueryExec.Proofs.Cursor.Grouping
import QueryExec.Proofs.Cursor.Delivery

/-!
What an aggregation delivers. Between calls it stands before the first run, in a run, at the row
that ended a run, or behind the last run; in each place the rows it still delivers are those of the
reference for the rows it holds and the rows its input still delivers.
-/

namespace QueryExec

open QueryExec.Action

namespace Run

theorem absorb_reset {view : View} {column : Nat} {accumulators next : List Accumulator}
    (absorbed : absorb view column accumulators = .ok next) :
    next.map Accumulator.reset = accumulators.map Accumulator.reset := by
  induction accumulators generalizing column next with
  | nil =>
      cases absorbed
      rfl
  | cons accumulator rest induction =>
      obtain ⟨value, _, absorbed⟩ := ok_of_bind absorbed
      obtain ⟨taken, input, absorbed⟩ := ok_of_bind absorbed
      obtain ⟨others, absorbedRest, same⟩ := ok_of_bind absorbed
      cases same
      rw [List.map_cons, List.map_cons, Accumulator.reset_input (ok_of_map_error input),
        induction absorbedRest]

theorem begin_reset {keys : Nat} {accumulators : List Accumulator} {view : View} {run : Run}
    (begun : begin keys (accumulators.map Accumulator.reset) view = .ok run) :
    run.accumulators.map Accumulator.reset = accumulators.map Accumulator.reset := by
  obtain ⟨key, _, begun⟩ := ok_of_bind begun
  obtain ⟨next, absorbed, same⟩ := ok_of_bind begun
  cases same
  rw [absorb_reset absorbed, Accumulator.map_reset_reset]

/-- A run is extended as its accumulators take the row, and keeps its key. -/
theorem extend_eq (key : List Datum) (accumulators : List Accumulator) (keys : Nat) (view : View) :
    extend ⟨key, accumulators⟩ keys view =
      (absorb view keys accumulators).map fun longer => ⟨key, longer⟩ := by
  unfold extend
  cases absorb view keys accumulators <;> rfl

end Run

namespace RowStream

section Equations

variable {catalog : Catalog} {plan : GroupingPlan} {fresh : List Accumulator}
  {ending : Option Interrupt} {row : View} {rest : List View}

/-- What follows when a row begins a run. -/
def beginRun (catalog : Catalog) (plan : GroupingPlan) (fresh : List Accumulator)
    (ending : Option Interrupt) (row : View) (rest : List View) : RowStream :=
  match Run.begin plan.keys fresh row with
  | .ok run => groupRows catalog plan fresh ending (some run) rest
  | .error interrupt => stopped interrupt

theorem group_rows_foreign (foreign : row.type.same plan.inputType = false)
    (open? : Option Run) :
    groupRows catalog plan fresh ending open? (row :: rest) =
      (groupRows catalog plan fresh ending open? rest).cons row := by
  conv => lhs; unfold groupRows
  rw [foreign]
  rfl

theorem group_rows_first (own : row.type.same plan.inputType = true) :
    groupRows catalog plan fresh ending none (row :: rest) =
      beginRun catalog plan fresh ending row rest := by
  conv => lhs; unfold groupRows
  rw [own]
  rfl

theorem group_rows_next (own : row.type.same plan.inputType = true) (run : Run) :
    groupRows catalog plan fresh ending (some run) (row :: rest) =
      match Run.matchesKey catalog row 0 run.key plan.inputType.columns with
      | .error interrupt => stopped interrupt
      | .ok false => (beginRun catalog plan fresh ending row rest).cons (run.view plan.outputType)
      | .ok true =>
          match run.extend plan.keys row with
          | .ok longer => groupRows catalog plan fresh ending (some longer) rest
          | .error interrupt => stopped interrupt := by
  conv => lhs; unfold groupRows
  rw [own]
  rfl

end Equations

/-- Every row gives at most one row, and the last run and the row over no rows one each. -/
theorem group_rows_length (catalog : Catalog) (plan : GroupingPlan) (fresh : List Accumulator)
    (ending : Option Interrupt) (open? : Option Run) (rows : List View) :
    (groupRows catalog plan fresh ending open? rows).rows.length ≤
      rows.length + (if open?.isSome then 1 else 0) + 1 := by
  induction rows generalizing open? with
  | nil =>
      unfold groupRows
      rcases ending with _ | interrupt
      · cases open? with
        | some run => exact Nat.le_add_left _ _
        | none =>
            dsimp only
            split <;> simp
      · exact Nat.zero_le _
  | cons row rest induction =>
      have begun : (beginRun catalog plan fresh ending row rest).rows.length ≤
          rest.length + 2 := by
        unfold beginRun
        split
        · exact induction (some _)
        · exact Nat.zero_le _
      cases own : row.type.same plan.inputType with
      | false =>
          rw [group_rows_foreign own]
          have passed := induction open?
          simp only [cons, List.length_cons]
          omega
      | true =>
          cases open? with
          | none =>
              rw [group_rows_first own]
              exact begun
          | some run =>
              rw [group_rows_next own]
              split
              · exact Nat.zero_le _
              · exact Nat.succ_le_succ begun
              · split
                · exact Nat.le_succ_of_le (induction (some _))
                · exact Nat.zero_le _

end RowStream

namespace Grouping

variable {input : Type} {context : Context} {store : Store} {census : Census}
  {node : State input} {engine : Engine} {plan : GroupingPlan} {row : Row}

section Steps

/-- Absorbing a listed row is absorbing its view. -/
theorem absorb_from_yields (listed : row.Listed census) (column : Nat)
    (accumulators : List Accumulator) {journal : Journal}
    (sound : journal.Sound context census) :
    match Run.absorb row.view column accumulators with
    | .ok next => ∃ after, absorbFrom row column accumulators journal = (.ok (), next, after) ∧
        after.Sound context census
    | .error interrupt => (absorbFrom row column accumulators journal).1 = .error interrupt := by
  induction accumulators generalizing column journal with
  | nil => exact ⟨journal, rfl, sound⟩
  | cons accumulator rest induction =>
      obtain ⟨same, sound⟩ := Row.read_yields row listed column journal sound
      have means : row.view.column column = row.meaning column := rfl
      unfold Run.absorb absorbFrom
      rw [means, ← same]
      revert sound
      rcases (row.read column).run journal with ⟨interrupt | value, read⟩
      · exact fun _ => rfl
      · intro sound
        dsimp only
        change match (accumulator.input value).mapError _ >>= (fun taken =>
            Run.absorb row.view (column + 1) rest >>= fun others => .ok (taken :: others)) with
          | .ok next => _
          | .error interrupt => _
        cases accumulator.input value with
        | error cause => exact rfl
        | ok taken =>
            have others := induction (column + 1) sound
            change match Run.absorb row.view (column + 1) rest >>= (fun others =>
                .ok (taken :: others)) with
              | .ok next => _
              | .error interrupt => _
            cases absorbed : Run.absorb row.view (column + 1) rest with
            | error interrupt =>
                rw [absorbed] at others
                exact others
            | ok next =>
                rw [absorbed] at others
                obtain ⟨after, same, sound⟩ := others
                dsimp only
                exact ⟨after, by rw [same], sound⟩

/-- Absorbing a row in a calm engine is absorbing its view. -/
theorem absorbs_calmly {calm : Engine → Prop} (readable : Engine.Readable context census calm)
    (listed : row.Listed census) (keys : Nat) (holds : calm engine) :
    EndsIn (node, engine) (absorb keys row)
      (fun _ after => ∃ accumulators,
        Run.absorb row.view keys node.own.accumulators = .ok accumulators ∧
        after.1 = { node with own := { node.own with accumulators } } ∧ calm after.2)
      fun interrupt _ => Run.absorb row.view keys node.own.accumulators = .error interrupt := by
  have yields := absorb_from_yields listed keys node.own.accumulators (readable.sound holds)
  refine ⟨rfl, ?_⟩
  change Meets _ _
    ((absorbFrom row keys node.own.accumulators engine.journal).1,
      ({ node with own := { node.own with
          accumulators := (absorbFrom row keys node.own.accumulators engine.journal).2.1 } },
        { engine with
          journal := (absorbFrom row keys node.own.accumulators engine.journal).2.2 }))
  cases absorbed : Run.absorb row.view keys node.own.accumulators with
  | error interrupt =>
      rw [absorbed] at yields
      rw [yields]
      rfl
  | ok accumulators =>
      rw [absorbed] at yields
      obtain ⟨after, same, sound⟩ := yields
      rw [same]
      exact ⟨accumulators, rfl, rfl, readable.kept holds sound⟩

theorem same_key_yields (listed : row.Listed census) (catalog : Catalog) (column : Nat)
    (key : List Datum) (types : List ColumnType) :
    Yields (Journal.Sound context census) (sameKey catalog row column key types)
      (Run.matchesKey catalog row.view column key types) := by
  induction key generalizing column types with
  | nil => exact yields_pure true
  | cons current key induction =>
      cases types with
      | nil => exact yields_pure true
      | cons type types =>
          apply yields_bind (Row.read_yields row listed column)
          intro value
          split
          · exact induction (column + 1) types
          · exact yields_pure false

/-- A group starts with the run that the view of its first row begins. -/
theorem starts_calmly {calm : Engine → Prop} (readable : Engine.Readable context census calm)
    (listed : row.Listed census) (holds : calm engine) :
    EndsIn (node, engine) (startGroup plan row)
      (fun _ after => ∃ run,
        Run.begin plan.keys (node.own.accumulators.map Accumulator.reset) row.view = .ok run ∧
        after.1 = { node with own := { node.own with
          key := run.key, accumulators := run.accumulators } } ∧
        calm after.2)
      fun interrupt _ =>
        Run.begin plan.keys (node.own.accumulators.map Accumulator.reset) row.view =
          .error interrupt := by
  refine agree_reaching ({ node with own := { node.own with key := [] } }, engine)
    (Node.agree_change_own _ rfl) fun _ => ?_
  refine agree_bind (agree_weaken (reads_calmly readable
    (yields_map (List.range plan.keys) (Row.read_yields row listed)) holds)
    (fun _ _ => id) ?_) ?_
  · intro interrupt _ failed
    change (List.range plan.keys).mapM row.view.column >>= _ = _
    rw [show (List.range plan.keys).mapM row.view.column = .error interrupt from failed]
    rfl
  intro key reached ends
  obtain ⟨_, engine⟩ := reached
  obtain ⟨found, rfl, holds⟩ := ends
  have found : (List.range plan.keys).mapM row.view.column = .ok key := found
  refine agree_reaching ({ node with own := { node.own with
      key, accumulators := node.own.accumulators.map Accumulator.reset } }, engine)
    (Node.agree_change_own _ rfl) fun _ => ?_
  apply agree_weaken (absorbs_calmly readable listed plan.keys holds)
  · intro _ after ends
    obtain ⟨accumulators, absorbed, same, holds⟩ := ends
    refine ⟨⟨key, accumulators⟩, ?_, same, holds⟩
    unfold Run.begin
    rw [found]
    change Run.absorb row.view plan.keys _ >>= _ = _
    rw [absorbed]
    rfl
  · intro interrupt _ failed
    unfold Run.begin
    rw [found]
    change Run.absorb row.view plan.keys _ >>= _ = _
    rw [failed]
    rfl

theorem emit_group_delivers :
    EndsIn (node, engine) (emitGroup plan)
      (fun emitted after =>
        emitted = .stored engine.nextId plan.outputType
          (node.own.key ++ node.own.accumulators.map Accumulator.result) ∧
        after = ({ node with own := { node.own with
            key := [], accumulators := node.own.accumulators.map Accumulator.reset } },
          { engine with nextId := engine.nextId + 1 }))
      fun _ _ => False :=
  ⟨rfl, rfl, rfl⟩

end Steps

/-- Where an aggregation stands before its last row, with its open run and the views of the rows
that it holds. -/
inductive Standing (plan : GroupingPlan) (fresh : List Accumulator) (census : Census) :
    Phase → GroupingState → Option Run → List View → Prop
  | beforeRows {key : List Datum} {accumulators : List Accumulator}
      (reset : accumulators.map Accumulator.reset = fresh) :
      Standing plan fresh census .opening ⟨key, accumulators, none, false⟩ none []
  | betweenRuns {key : List Datum} {accumulators : List Accumulator} {row : Row}
      (reset : accumulators.map Accumulator.reset = fresh) (listed : row.Listed census)
      (own : row.type.same plan.inputType = true) :
      Standing plan fresh census .opening ⟨key, accumulators, some row, true⟩ none [row.view]
  | inRun {key : List Datum} {accumulators : List Accumulator}
      (reset : accumulators.map Accumulator.reset = fresh) :
      Standing plan fresh census .running ⟨key, accumulators, none, true⟩
        (some ⟨key, accumulators⟩) []

/-- After the last row an aggregation delivers nothing more; before it, the rows of the reference
for what it holds and what its input delivers. -/
def Delivering (context : Context) (plan : GroupingPlan) (fresh : List Accumulator)
    (inner : Protocol input) (delivers : Delivers input) : Delivers (State input) :=
  fun census stream node =>
    (node.phase = .closing ∧ inner.phase node.input = .closed ∧ stream = ⟨[], none⟩) ∨
    ∃ below open? held, delivers census below node.input ∧
      Standing plan fresh census node.phase node.own open? held ∧
      stream = RowStream.groupRows context.catalog plan fresh below.ending open?
        (held ++ below.rows)

theorem Standing.later {fresh : List Accumulator} {phase : Phase} {state : GroupingState}
    {open? : Option Run} {held : List View} {later : Census} (within : census.Within later)
    (standing : Standing plan fresh census phase state open? held) :
    Standing plan fresh later phase state open? held := by
  cases standing with
  | beforeRows reset => exact .beforeRows reset
  | betweenRuns reset listed own => exact .betweenRuns reset (listed.later within) own
  | inRun reset => exact .inRun reset

section Places

variable {fresh : List Accumulator} {phase : Phase} {state : GroupingState} {open? : Option Run}
  {held : List View}

theorem Standing.empty (standing : Standing plan fresh census phase state open? []) :
    state.lookahead? = none := by
  cases standing <;> rfl

theorem Standing.nothing_held (standing : Standing plan fresh census phase state open? held)
    (empty : state.lookahead? = none) : held = [] := by
  cases standing with
  | beforeRows reset => rfl
  | betweenRuns reset listed own => cases empty
  | inRun reset => rfl

theorem Standing.between_runs (standing : Standing plan fresh census phase state open? held)
    (holding : state.lookahead? = some row) : open? = none ∧ held = [row.view] := by
  cases standing with
  | beforeRows reset => cases holding
  | betweenRuns reset listed own =>
      cases holding
      exact ⟨rfl, rfl⟩
  | inRun reset => cases holding

theorem Standing.active (standing : Standing plan fresh census phase state open? held) :
    phase.isActive = true := by
  cases standing <;> rfl

theorem Standing.not_closing (standing : Standing plan fresh census phase state open? held) :
    phase ≠ .closing := by
  cases standing <;> decide

/-- A run is open exactly while the phase says so. -/
theorem Standing.running (standing : Standing plan fresh census phase state open? held) :
    (if open?.isSome then 1 else 0) = if phase = .running then 1 else 0 := by
  cases standing <;> rfl

end Places

section Collecting

variable {inner : Protocol input} {delivers : Delivers input} {fresh : List Accumulator}
  {below : RowStream}

theorem take_held (held : node.own.lookahead? = some row) :
    EndsIn (node, engine) (takeRow inner)
      (fun row? after => row? = some row ∧
        after = ({ node with own := { node.own with lookahead? := none } }, engine))
      fun _ _ => False := by
  apply CursorAction.agree_state
  dsimp only
  rw [held]
  refine agree_reaching ({ node with own := { node.own with lookahead? := none } }, engine)
    (Node.agree_change_own _ rfl) fun _ => ?_
  exact agree_pure (some row) ⟨rfl, rfl⟩

theorem take_pulled (produces : inner.Produces context store delivers)
    (empty : node.own.lookahead? = none) (delivering : delivers census below node.input)
    (steady : engine.Steady context store census) :
    EndsIn (node, engine) (takeRow inner)
      (Node.Pulled context store inner delivers census below node)
      fun interrupt _ => below = .stopped interrupt := by
  apply CursorAction.agree_state
  dsimp only
  rw [empty]
  exact Node.pull_delivers produces delivering steady

/-- What one turn of the collection does with the row that it took. -/
def consider (context : Context) (plan : GroupingPlan) (inner : Protocol input) (bound : Nat)
    (row : Row) : CursorAction (State input) (Option Row) :=
  if !row.type.same plan.inputType then pure (some row)
  else do
    Node.changeOwn fun state => { state with sawInput := true }
    if (← CursorAction.state).phase = .running then
      let key := (← CursorAction.state).own.key
      if ← CursorAction.inJournal
          (sameKey context.catalog row 0 key plan.inputType.columns) then
        absorb plan.keys row
        collect context plan inner bound
      else
        Node.changeOwn fun state => { state with lookahead? := some row }
        let output ← emitGroup plan
        Node.setPhase .opening
        pure (some output)
    else
      startGroup plan row
      Node.setPhase .running
      collect context plan inner bound

theorem collect_succ (context : Context) (plan : GroupingPlan) (inner : Protocol input)
    (bound : Nat) :
    collect context plan inner (bound + 1) =
      takeRow inner >>= fun
        | none => endOfInput plan inner
        | some row => consider context plan inner bound row :=
  rfl

section Turns

variable {calm : Engine → Prop} {quiet : Context} {bound : Nat} {bindings : Bindings}
  {rest : input} {key : List Datum} {accumulators : List Accumulator} {held? : Option Row}
  {sawInput : Bool} {gives : Option Row → State input × Engine → Prop}
  {stops : Interrupt → State input × Engine → Prop}

/-- A row of the input type begins a run where none is open, and the collection goes on with it. -/
theorem consider_begins_run (readable : Engine.Readable quiet census calm)
    (listed : row.Listed census) (own : row.type.same plan.inputType = true) (holds : calm engine)
    (fails : ∀ interrupt reached,
      Run.begin plan.keys (accumulators.map Accumulator.reset) row.view = .error interrupt →
      stops interrupt reached)
    (begins : ∀ run reached,
      Run.begin plan.keys (accumulators.map Accumulator.reset) row.view = .ok run → calm reached →
      EndsIn (⟨.running, bindings, ⟨run.key, run.accumulators, none, true⟩, rest⟩, reached)
        (collect context plan inner bound) gives stops) :
    EndsIn (⟨.opening, bindings, ⟨key, accumulators, none, sawInput⟩, rest⟩, engine)
      (consider context plan inner bound row) gives stops := by
  unfold consider
  rw [own]
  refine agree_reaching (⟨.opening, bindings, ⟨key, accumulators, none, true⟩, rest⟩, engine)
    (Node.agree_change_own _ rfl) fun _ => ?_
  apply CursorAction.agree_state
  refine agree_bind (agree_weaken (starts_calmly readable listed holds) (fun _ _ => id) fails) ?_
  intro _ after ends
  obtain ⟨_, engine⟩ := after
  obtain ⟨run, begun, rfl, holds⟩ := ends
  refine agree_reaching
    (⟨.running, bindings, ⟨run.key, run.accumulators, none, true⟩, rest⟩, engine)
    (Node.agree_set_phase .running rfl) fun _ => ?_
  exact begins run engine begun holds

/-- A row of the input type that meets an open run is compared with its key. It extends the run,
with which the collection goes on, or it is held and the row of the run is given. -/
theorem consider_meets_run (readable : Engine.Readable quiet census calm)
    (listed : row.Listed census) (own : row.type.same plan.inputType = true) (holds : calm engine)
    (uncompared : ∀ interrupt reached,
      Run.matchesKey context.catalog row.view 0 key plan.inputType.columns = .error interrupt →
      stops interrupt reached)
    (unextended : ∀ interrupt reached,
      Run.matchesKey context.catalog row.view 0 key plan.inputType.columns = .ok true →
      Run.absorb row.view plan.keys accumulators = .error interrupt → stops interrupt reached)
    (extended : ∀ longer reached,
      Run.matchesKey context.catalog row.view 0 key plan.inputType.columns = .ok true →
      Run.absorb row.view plan.keys accumulators = .ok longer → calm reached →
      EndsIn (⟨.running, bindings, ⟨key, longer, none, true⟩, rest⟩, reached)
        (collect context plan inner bound) gives stops)
    (ended : ∀ reached,
      Run.matchesKey context.catalog row.view 0 key plan.inputType.columns = .ok false →
      calm reached →
      gives (some (.stored reached.nextId plan.outputType
          (key ++ accumulators.map Accumulator.result)))
        (⟨.opening, bindings, ⟨[], accumulators.map Accumulator.reset, some row, true⟩, rest⟩,
          { reached with nextId := reached.nextId + 1 })) :
    EndsIn (⟨.running, bindings, ⟨key, accumulators, none, sawInput⟩, rest⟩, engine)
      (consider context plan inner bound row) gives stops := by
  unfold consider
  rw [own]
  refine agree_reaching (⟨.running, bindings, ⟨key, accumulators, none, true⟩, rest⟩, engine)
    (Node.agree_change_own _ rfl) fun _ => ?_
  refine CursorAction.agree_state (CursorAction.agree_state ?_)
  refine agree_bind (agree_weaken (reads_calmly readable
    (same_key_yields listed context.catalog 0 key plan.inputType.columns) holds)
    (fun _ _ => id) uncompared) ?_
  intro equal after ends
  obtain ⟨_, engine⟩ := after
  obtain ⟨compared, rfl, holds⟩ := ends
  cases equal with
  | true =>
      refine agree_bind (agree_weaken (absorbs_calmly readable listed plan.keys holds)
        (fun _ _ => id) fun interrupt reached => unextended interrupt reached compared) ?_
      intro _ after ends
      obtain ⟨_, engine⟩ := after
      obtain ⟨longer, absorbed, rfl, holds⟩ := ends
      exact extended longer engine compared absorbed holds
  | false =>
      refine agree_reaching
        (⟨.running, bindings, ⟨key, accumulators, some row, true⟩, rest⟩, engine)
        (Node.agree_change_own _ rfl) fun _ => ?_
      apply agree_surely emit_group_delivers
      intro _ _ emitted
      obtain ⟨rfl, rfl⟩ := emitted
      refine agree_reaching
        (⟨.opening, bindings, ⟨[], accumulators.map Accumulator.reset, some row, true⟩, rest⟩,
          { engine with nextId := engine.nextId + 1 })
        (Node.agree_set_phase .opening rfl) fun _ => ?_
      exact agree_pure (some _) (ended engine compared holds)

/-- After the last row of the input the row of the open run is given. -/
theorem end_gives_run {phase : Phase}
    (given : gives (some (.stored engine.nextId plan.outputType
        (key ++ accumulators.map Accumulator.result)))
      (⟨.closing, bindings, ⟨[], accumulators.map Accumulator.reset, held?, true⟩, rest⟩,
        { engine with nextId := engine.nextId + 1 })) :
    EndsIn (⟨phase, bindings, ⟨key, accumulators, held?, true⟩, rest⟩, engine)
      (endOfInput plan inner) gives stops :=
  ⟨rfl, given⟩

/-- If no row came, the row over nothing is given when there are no keys. -/
theorem end_gives_vacant {phase : Phase} (unkeyed : plan.keys = 0)
    (given : gives (some (.stored engine.nextId plan.outputType
        (accumulators.map Accumulator.emptyResult)))
      (⟨.closing, bindings, ⟨key, accumulators, held?, false⟩, rest⟩,
        { engine with nextId := engine.nextId + 1 })) :
    EndsIn (⟨phase, bindings, ⟨key, accumulators, held?, false⟩, rest⟩, engine)
      (endOfInput plan inner) gives stops := by
  apply CursorAction.agree_state
  change EndsIn _ (if plan.keys = 0 then _ else _) _ _
  rw [if_pos unkeyed]
  exact ⟨rfl, given⟩

/-- With keys nothing is given then and the pass is over. -/
theorem end_finishes {phase : Phase} (keyed : plan.keys ≠ 0)
    (finishes : EndsIn (⟨phase, bindings, ⟨key, accumulators, held?, false⟩, rest⟩, engine)
      (do Node.finish inner; pure none) gives stops) :
    EndsIn (⟨phase, bindings, ⟨key, accumulators, held?, false⟩, rest⟩, engine)
      (endOfInput plan inner) gives stops := by
  apply CursorAction.agree_state
  change EndsIn _ (if plan.keys = 0 then _ else _) _ _
  rw [if_neg keyed]
  exact finishes

end Turns

/-- With this many turns the collection answers as the reference does. -/
def Collects (context : Context) (store : Store) (plan : GroupingPlan)
    (fresh : List Accumulator) (inner : Protocol input) (delivers : Delivers input)
    (bound : Nat) : Prop :=
  ∀ {census : Census} {below : RowStream} {node : State input} {engine : Engine}
    (open? : Option Run) (held : List View), delivers census below node.input →
    Standing plan fresh census node.phase node.own open? held →
    held.length + below.rows.length < bound → engine.Steady context store census →
    EndsIn (node, engine) (collect context plan inner bound)
      (Delivered context store Node.phase (Delivering context plan fresh inner delivers) census
        (RowStream.groupRows context.catalog plan fresh below.ending open?
          (held ++ below.rows)))
      fun interrupt _ =>
        RowStream.groupRows context.catalog plan fresh below.ending open? (held ++ below.rows) =
          .stopped interrupt

/-- A row before which no run is open begins one. -/
theorem consider_first {bound : Nat}
    (collects : Collects context store plan fresh inner delivers bound)
    (opening : node.phase = .opening) (empty : node.own.lookahead? = none)
    (reset : node.own.accumulators.map Accumulator.reset = fresh) (listed : row.Listed census)
    (own : row.type.same plan.inputType = true) (delivering : delivers census below node.input)
    (enough : below.rows.length < bound) (steady : engine.Steady context store census) :
    EndsIn (node, engine) (consider context plan inner bound row)
      (Delivered context store Node.phase (Delivering context plan fresh inner delivers) census
        (RowStream.beginRun context.catalog plan fresh below.ending row.view below.rows))
      fun interrupt _ =>
        RowStream.beginRun context.catalog plan fresh below.ending row.view below.rows =
          .stopped interrupt := by
  obtain ⟨phase, bindings, ⟨key, accumulators, lookahead?, sawInput⟩, rest⟩ := node
  cases opening
  cases empty
  subst reset
  have readable := Engine.steady_readable context store census
  unfold RowStream.beginRun
  refine consider_begins_run readable listed own steady (fun interrupt _ failed => ?_)
    fun run reached begun steady => ?_
  · rw [failed]
  · rw [begun]
    exact collects (some ⟨run.key, run.accumulators⟩) [] delivering (.inRun (Run.begin_reset begun))
      (by simpa using enough) steady

/-- A row after others of an open run extends the run or ends it. -/
theorem consider_next {bound : Nat}
    (collects : Collects context store plan fresh inner delivers bound) {run : Run}
    (standing : Standing plan fresh census node.phase node.own (some run) [])
    (listed : row.Listed census) (own : row.type.same plan.inputType = true)
    (delivering : delivers census below node.input) (enough : below.rows.length < bound)
    (steady : engine.Steady context store census) :
    EndsIn (node, engine) (consider context plan inner bound row)
      (Delivered context store Node.phase (Delivering context plan fresh inner delivers) census
        (RowStream.groupRows context.catalog plan fresh below.ending (some run)
          (row.view :: below.rows)))
      fun interrupt _ =>
        RowStream.groupRows context.catalog plan fresh below.ending (some run)
          (row.view :: below.rows) = .stopped interrupt := by
  rw [RowStream.group_rows_next own run]
  obtain ⟨phase, bindings, ⟨key, accumulators, lookahead?, sawInput⟩, rest⟩ := node
  dsimp only at standing delivering
  cases standing with
  | inRun reset =>
  have readable := Engine.steady_readable context store census
  refine consider_meets_run readable listed own steady (fun interrupt _ failed => ?_)
    (fun interrupt _ compared failed => ?_) (fun longer reached compared absorbed steady => ?_)
    fun reached compared steady => ?_
  · rw [failed]
  · rw [compared, Run.extend_eq, failed]
    rfl
  · rw [compared, Run.extend_eq, absorbed]
    exact collects (some ⟨key, longer⟩) [] delivering
      (.inRun ((Run.absorb_reset absorbed).trans reset)) (by simpa using enough) steady
  · have resetAgain := (Accumulator.map_reset_reset accumulators).trans reset
    rw [compared]
    refine ⟨census, _, census.within_refl, ?_, trivial, steady.issued,
      .inr ⟨below, none, [row.view], delivering, .betweenRuns resetAgain listed own, rfl⟩⟩
    rw [view_stored]
    exact congrArg (RowStream.cons _) (RowStream.group_rows_first own).symm

/-- After the last input row come the row of the open run or, without keys and without any row,
the row over nothing. -/
theorem end_of_input_delivers (delivers : Delivers input) {open? : Option Run}
    (standing : Standing plan fresh census node.phase node.own open? [])
    (ended : inner.phase node.input = .closed) (steady : engine.Steady context store census) :
    EndsIn (node, engine) (endOfInput plan inner)
      (Delivered context store Node.phase (Delivering context plan fresh inner delivers) census
        (RowStream.groupRows context.catalog plan fresh none open? []))
      fun interrupt _ =>
        RowStream.groupRows context.catalog plan fresh none open? [] = .stopped interrupt := by
  obtain ⟨phase, bindings, ⟨key, accumulators, lookahead?, sawInput⟩, rest⟩ := node
  dsimp only at standing ended
  cases standing with
  | inRun reset =>
      refine end_gives_run ⟨census, ⟨[], none⟩, census.within_refl, ?_, trivial, steady.issued,
        .inl ⟨rfl, ended, rfl⟩⟩
      rw [view_stored]
      rfl
  | beforeRows reset =>
      unfold RowStream.groupRows
      dsimp only
      split
      next unkeyed =>
        refine end_gives_vacant unkeyed ⟨census, ⟨[], none⟩, census.within_refl, ?_, trivial,
          steady.issued, .inl ⟨rfl, ended, rfl⟩⟩
        rw [view_stored, ← reset, Accumulator.map_reset_empty_result]
        rfl
      next keyed => exact end_finishes keyed (Node.ended_delivers census.within_refl ended steady)

/-- The turn in a pass that holds no row takes the next row of the input. -/
theorem turn_from_input (produces : inner.Produces context store delivers) {bound : Nat}
    (collects : Collects context store plan fresh inner delivers bound) {open? : Option Run}
    (standing : Standing plan fresh census node.phase node.own open? [])
    (delivering : delivers census below node.input) (enough : below.rows.length < bound + 1)
    (steady : engine.Steady context store census) :
    EndsIn (node, engine) (collect context plan inner (bound + 1))
      (Delivered context store Node.phase (Delivering context plan fresh inner delivers) census
        (RowStream.groupRows context.catalog plan fresh below.ending open? below.rows))
      fun interrupt _ =>
        RowStream.groupRows context.catalog plan fresh below.ending open? below.rows =
          .stopped interrupt := by
  rw [collect_succ]
  refine agree_bind (agree_weaken (take_pulled produces standing.empty delivering steady)
    (fun _ _ => id) ?_) ?_
  · intro interrupt _ alike
    subst alike
    cases open? <;> rfl
  rintro (_ | row) ⟨_, engine⟩ ⟨pulled, rfl, delivered⟩
  · obtain ⟨later, within, rfl, ended, steady⟩ := delivered
    have still : Standing plan fresh later ({ node with input := pulled } : State input).phase
        node.own open? [] := standing.later within
    refine agree_weaken (end_of_input_delivers delivers still ended steady) ?_ fun _ _ => id
    exact fun _ _ => Delivered.earlier within
  obtain ⟨later, rest, within, rfl, listed, steady, further⟩ := delivered
  have shorter : rest.rows.length < bound := Nat.lt_of_succ_lt_succ enough
  have standing := standing.later within
  have answers : EndsIn (({ node with input := pulled } : State input), engine)
      (consider context plan inner bound row)
      (Delivered context store Node.phase (Delivering context plan fresh inner delivers) later
        (RowStream.groupRows context.catalog plan fresh rest.ending open?
          (row.view :: rest.rows)))
      fun interrupt _ =>
        RowStream.groupRows context.catalog plan fresh rest.ending open?
          (row.view :: rest.rows) = .stopped interrupt := by
    cases own : row.type.same plan.inputType with
    | false =>
        unfold consider
        rw [own]
        refine agree_pure (some row) ⟨later, _, later.within_refl, ?_, listed, steady,
          .inr ⟨rest, open?, [], further, standing, rfl⟩⟩
        exact RowStream.group_rows_foreign own open?
    | true =>
        cases open? with
        | some run =>
            exact consider_next collects standing listed own further shorter steady
        | none =>
            rw [RowStream.group_rows_first own]
            obtain ⟨phase, bindings, state, _⟩ := node
            dsimp only at standing
            cases standing with
            | beforeRows reset =>
                exact consider_first collects rfl rfl reset listed own further shorter steady
  exact agree_weaken answers (fun _ _ => Delivered.earlier within) fun _ _ => id

/-- The turn in a pass that holds a row takes that row, which begins a run. -/
theorem turn_from_held {bound : Nat}
    (collects : Collects context store plan fresh inner delivers bound)
    (standing : Standing plan fresh census node.phase node.own none [row.view])
    (holding : node.own.lookahead? = some row) (delivering : delivers census below node.input)
    (enough : below.rows.length < bound) (steady : engine.Steady context store census) :
    EndsIn (node, engine) (collect context plan inner (bound + 1))
      (Delivered context store Node.phase (Delivering context plan fresh inner delivers) census
        (RowStream.groupRows context.catalog plan fresh below.ending none
          (row.view :: below.rows)))
      fun interrupt _ =>
        RowStream.groupRows context.catalog plan fresh below.ending none
          (row.view :: below.rows) = .stopped interrupt := by
  rw [collect_succ]
  apply agree_surely (take_held holding)
  intro _ _ ends
  obtain ⟨rfl, rfl⟩ := ends
  obtain ⟨phase, bindings, state, rest⟩ := node
  obtain ⟨key, accumulators, lookahead?, sawInput⟩ := state
  dsimp only at standing holding delivering
  subst holding
  cases standing with
  | betweenRuns reset listed own =>
      rw [RowStream.group_rows_first own]
      exact consider_first collects rfl rfl reset listed own delivering enough steady

/-- By induction on the turns: each takes the row that is held or one row of the input. -/
theorem collect_delivers (produces : inner.Produces context store delivers) (bound : Nat) :
    Collects context store plan fresh inner delivers bound := by
  induction bound with
  | zero => exact fun _ _ _ _ enough _ => absurd enough (Nat.not_lt_zero _)
  | succ bound collects =>
      intro census below node engine open? held delivering standing enough steady
      cases holding : node.own.lookahead? with
      | none =>
          obtain rfl := standing.nothing_held holding
          exact turn_from_input produces collects standing delivering (by simpa using enough)
            steady
      | some row =>
          obtain ⟨rfl, rfl⟩ := standing.between_runs holding
          have fewer : 1 + below.rows.length < bound + 1 := enough
          exact turn_from_held collects standing holding delivering (by omega) steady

theorem supply_held {open? : Option Run} {held : List View}
    (standing : Standing plan fresh census node.phase node.own open? held) :
    supply inner node = inner.remaining node.input + held.length := by
  unfold supply
  cases holding : node.own.lookahead? with
  | none =>
      obtain rfl := standing.nothing_held holding
      rfl
  | some row =>
      obtain ⟨rfl, rfl⟩ := standing.between_runs holding
      rfl

theorem advance_delivers (produces : inner.Produces context store delivers) {stream : RowStream}
    (delivering : Delivering context plan fresh inner delivers census stream node)
    (steady : engine.Steady context store census) :
    EndsIn (node, engine) (advance context plan inner)
      (Delivered context store Node.phase (Delivering context plan fresh inner delivers) census
        stream)
      fun interrupt _ => stream = .stopped interrupt := by
  apply agree_surely (not_cancelled_agrees steady)
  intro _ _ same
  subst same
  apply CursorAction.agree_state
  dsimp only
  rcases delivering with ⟨closing, ended, rfl⟩ | ⟨below, open?, held, delivering, standing, rfl⟩
  · rw [if_pos closing]
    exact Node.ended_delivers census.within_refl ended steady
  · rw [if_neg standing.not_closing, supply_held standing]
    refine collect_delivers produces _ open? held delivering standing ?_ steady
    have bounded := produces.bounded delivering
    omega

theorem delivering_active {stream : RowStream}
    (delivering : Delivering context plan fresh inner delivers census stream node) :
    node.phase.isActive = true := by
  rcases delivering with ⟨closing, _, _⟩ | ⟨_, _, _, _, standing, _⟩
  · rw [closing]
    rfl
  · exact standing.active

theorem delivering_bounded (produces : inner.Produces context store delivers)
    {stream : RowStream}
    (delivering : Delivering context plan fresh inner delivers census stream node) :
    stream.rows.length ≤ remaining inner node := by
  rcases delivering with ⟨_, _, rfl⟩ | ⟨below, open?, held, delivering, standing, rfl⟩
  · exact Nat.zero_le _
  · have supplied := produces.bounded delivering
    have given := RowStream.group_rows_length context.catalog plan fresh below.ending open?
      (held ++ below.rows)
    rw [List.length_append] at given
    unfold remaining
    rw [supply_held standing, if_neg standing.not_closing, ← standing.running]
    omega

theorem protocol_produces (produces : inner.Produces context store delivers)
    (plan : GroupingPlan) (fresh : List Accumulator) :
    (protocol context plan inner).Produces context store
      (Delivering context plan fresh inner delivers) where
  active := delivering_active
  bounded := delivering_bounded produces
  later := by
    rintro census later stream node within
      (ended | ⟨below, open?, held, delivering, standing, same⟩)
    · exact .inl ended
    · exact .inr ⟨below, open?, held, produces.later within delivering, standing.later within,
        same⟩
  next := by
    intro census stream node engine delivering steady
    refine Node.agree_past_check (delivering_active delivering) ?_
    apply agree_surely (tap_agrees steady "aggregate.next")
    intro _ after ends
    obtain ⟨node, tapped⟩ := after
    obtain ⟨rfl, steady⟩ := ends
    refine agree_on_failure (agree_weaken (advance_delivers produces delivering steady)
      (fun _ _ => id) ?_)
    rintro (error | _) ⟨failed, engine⟩ stopped
    · apply agree_then (fun _ _ => True) (Node.agree_change_own _ trivial)
      intro _ after _
      obtain ⟨failed, engine⟩ := after
      exact agree_given (Node.abort_never_stops produces) fun _ _ _ => stopped
    · exact stopped
  close := by
    intro census stream node engine delivering steady
    have closes : EndsIn (node, engine) (Node.close inner)
        (fun _ after => after.1.phase = .closed ∧ after.2.Steady context store census)
        fun _ _ => False := by
      refine Node.agree_past_check (delivering_active delivering) ?_
      rcases delivering with ⟨_, ended, _⟩ | ⟨_, _, _, delivering, _, _⟩
      · exact Node.finish_ended ended steady
      · exact Node.finish_early produces delivering steady
    apply agree_bind closes
    intro _ after ends
    obtain ⟨closed, engine⟩ := after
    obtain ⟨phase, steady⟩ := ends
    exact Node.agree_change_own _ ⟨phase, steady⟩
  unbroken := by
    intro node engine
    apply agree_bind (Node.close_unbroken produces node engine)
    intro _ after _
    obtain ⟨closed, engine⟩ := after
    exact Node.agree_change_own _ trivial

end Collecting

end Grouping

end QueryExec
