import QueryExec.Proofs.Cursor.Grouped
import QueryExec.Proofs.Cursor.Lockstep
import QueryExec.Proofs.Safety.Cursors

/-!
The aggregation over rows of the right shape. The keys and the aggregates together cover the columns
of the input, so no key and no aggregated column lies outside of a row of the input type, and a row
of another type is never read. A group is given only when its key has been read in full.
-/

namespace QueryExec.Grouping

open QueryExec.Action

/-- The keys and so many aggregates take one column of the input each and give one of the output. -/
structure Measured (dictionary : Dictionary) (plan : GroupingPlan) (size : Nat) : Prop where
  input : plan.inputType.Registered dictionary
  output : plan.outputType.Registered dictionary
  takes : plan.keys + size = plan.inputType.width
  gives : plan.keys + size = plan.outputType.width

/-- There is an accumulator for each aggregate, and the row that is held is of the input type. -/
structure Loose (dictionary : Dictionary) (plan : GroupingPlan) (size : Nat)
    (state : GroupingState) : Prop where
  long : state.accumulators.length = size
  held : ∀ row ∈ state.lookahead?, row.Shaped dictionary ∧ row.type.same plan.inputType = true

/-- An open group has a key in full, and between groups the row that ended one is held. -/
structure Fitted (dictionary : Dictionary) (plan : GroupingPlan) (size : Nat) (phase : Phase)
    (state : GroupingState) : Prop extends Loose dictionary plan size state where
  key : phase = .running → state.key.length = plan.keys
  resumes : phase = .opening → state.sawInput = true → state.lookahead?.isSome = true

variable {input : Type} {dictionary : Dictionary} {names : List String}
  {bound : Bindings → Prop} {below : input → Prop} {inner : Protocol input} {context : Context}
  {plan : GroupingPlan} {size : Nat} {row : Row}

/-- Where no rows are taken nothing is asked of the key and the held row. -/
theorem Loose.fitted {phase : Phase} {state : GroupingState}
    (loose : Loose dictionary plan size state) (idle : ¬Collecting phase) :
    Fitted dictionary plan size phase state :=
  { loose with
    key := fun running => absurd (.inr running) idle
    resumes := fun opening => absurd (.inl opening) idle }

theorem closed_fitted (_ : Phase) (state : GroupingState)
    (loose : Loose dictionary plan size state) : Fitted dictionary plan size .closed state :=
  loose.fitted (by simp [Collecting])

/-- Between a step that keeps nodes fitted and one that may leave them loose. -/
theorem halts_loosely {suits : Phase → GroupingState → Prop} {result : Type}
    {holds : result → Prop} {action : CursorAction (State input) result}
    (behaves : Behaves (Node.Good dictionary names bound suits below) action holds)
    (loose : ∀ phase state, suits phase state → Loose dictionary plan size state) :
    Proceeds (Node.Good dictionary names bound suits below)
      (Node.Good dictionary names bound suits below)
      (Node.Good dictionary names bound (fun _ => Loose dictionary plan size) below) action holds :=
  proceeds_imp behaves (fun _ => id) (fun _ => id) (fun _ good => Node.good_weaken good loose)
    fun _ => id

theorem Loose.with_accumulators {state : GroupingState} (loose : Loose dictionary plan size state)
    {accumulators : List Accumulator} (same : accumulators.length = state.accumulators.length) :
    Loose dictionary plan size { state with accumulators } :=
  ⟨same.trans loose.long, loose.held⟩

/-- Comparing with a key reads no more columns than there are types. -/
theorem same_key_orderly (shaped : row.Shaped dictionary) (catalog : Catalog) {column : Nat}
    {types : List ColumnType} (inside : column + types.length ≤ row.type.width)
    (key : List Datum) : Orderly (sameKey catalog row column key types) := by
  induction key generalizing column types with
  | nil => exact proceeds_pure trivial
  | cons current key induction =>
      cases types with
      | nil => exact proceeds_pure trivial
      | cons type types =>
          rw [List.length_cons] at inside
          have reads : Orderly (row.read column) := row.read_orderly shaped column (by omega)
          refine proceeds_bind reads fun value _ => ?_
          split
          · exact induction (by omega)
          · exact proceeds_pure trivial

/-- Absorbing reads one column for each accumulator and keeps their number. -/
theorem absorb_from_orderly (shaped : row.Shaped dictionary) {column : Nat}
    {accumulators : List Accumulator} (inside : column + accumulators.length ≤ row.type.width)
    (journal : Journal) :
    (absorbFrom row column accumulators journal).2.1.length = accumulators.length ∧
      ∀ interrupt, (absorbFrom row column accumulators journal).1 = .error interrupt →
        interrupt.isOrderly = true := by
  induction accumulators generalizing column journal with
  | nil => exact ⟨rfl, nofun⟩
  | cons accumulator rest induction =>
      rw [List.length_cons] at inside
      have orderly := (row.read_orderly shaped column (by omega) journal trivial).2
      unfold absorbFrom
      revert orderly
      rcases (row.read column).run journal with ⟨failure | value, after⟩
      · intro ends
        refine ⟨rfl, fun interrupt same => ?_⟩
        cases same
        exact ends.2
      · intro _
        dsimp only
        cases accumulator.input value with
        | error cause =>
            refine ⟨rfl, fun interrupt same => ?_⟩
            cases same
            rfl
        | ok next =>
            have fits : column + 1 + rest.length ≤ row.type.width := by omega
            obtain ⟨long, others⟩ := induction fits after
            exact ⟨congrArg (· + 1) long, others⟩

/-- Absorbing changes nothing but what the accumulators hold. -/
theorem behaves_absorb {suits : Phase → GroupingState → Prop} (shaped : row.Shaped dictionary)
    (own : row.type.same plan.inputType = true) (measured : Measured dictionary plan size)
    (loose : ∀ phase state, suits phase state → Loose dictionary plan size state)
    (keeps : ∀ phase state accumulators, suits phase state →
      accumulators.length = state.accumulators.length → suits phase { state with accumulators }) :
    Behaves (Node.Good dictionary names bound suits below) (absorb plan.keys row)
      fun _ => True := by
  rintro ⟨node, engine⟩ ⟨held, stocked⟩
  have inside : plan.keys + node.own.accumulators.length ≤ row.type.width := by
    refine Nat.le_of_eq ?_
    rw [(loose _ _ held.own).long, measured.takes, shaped.width_eq measured.input own]
  obtain ⟨long, orderly⟩ := absorb_from_orderly shaped inside engine.journal
  refine ⟨rfl, ?_⟩
  rw [absorb_run]
  have kept : Node.InOrder bound suits below { node with own := { node.own with
      accumulators := (absorbFrom row plan.keys node.own.accumulators engine.journal).2.1 } } :=
    { held with own := keeps _ _ _ held.own long }
  revert orderly kept
  rcases absorbFrom row plan.keys node.own.accumulators engine.journal with ⟨failure | _, rest⟩
  · exact fun orderly kept => ⟨⟨kept, stocked⟩, orderly failure rfl⟩
  · exact fun _ kept => ⟨⟨kept, stocked⟩, trivial⟩

/-- The key of a group is read in full before its first row is absorbed. -/
theorem proceeds_start_group (shaped : row.Shaped dictionary)
    (own : row.type.same plan.inputType = true) (measured : Measured dictionary plan size) :
    Proceeds (Node.Good dictionary names bound (fun _ => Loose dictionary plan size) below)
      (Node.Good dictionary names bound
        (fun _ state => Loose dictionary plan size state ∧ state.key.length = plan.keys) below)
      (Node.Good dictionary names bound (fun _ => Loose dictionary plan size) below)
      (startGroup plan row) fun _ => True := by
  have inside : plan.keys ≤ row.type.width := by
    rw [shaped.width_eq measured.input own, ← measured.takes]
    exact Nat.le_add_right _ _
  have clears : Behaves
      (Node.Good dictionary names bound (fun _ => Loose dictionary plan size) below)
      (Node.changeOwn fun state => { state with key := [] }) fun _ => True :=
    Node.proceeds_change_own _ fun _ _ loose => ⟨loose.long, loose.held⟩
  refine proceeds_bind clears fun _ _ => ?_
  refine proceeds_bind (behaves_reading (row.read_columns_orderly shaped inside)) fun key long => ?_
  have begins : Proceeds
      (Node.Good dictionary names bound (fun _ => Loose dictionary plan size) below)
      (Node.Good dictionary names bound
        (fun _ state => Loose dictionary plan size state ∧ state.key.length = plan.keys) below)
      (Node.Good dictionary names bound (fun _ => Loose dictionary plan size) below)
      (Node.changeOwn fun state =>
        { state with key, accumulators := state.accumulators.map Accumulator.reset })
      fun _ => True :=
    Node.proceeds_change_own _ fun _ _ loose =>
      ⟨⟨(List.length_map _).trans loose.long, loose.held⟩, long⟩
  refine proceeds_bind begins fun _ _ => ?_
  refine proceeds_imp (behaves_absorb shaped own measured (fun _ _ => And.left) ?_)
    (fun _ => id) (fun _ => id) ?_ fun _ => id
  · exact fun _ _ _ held same => ⟨held.1.with_accumulators same, held.2⟩
  · exact fun _ good => Node.good_weaken good fun _ _ => And.left

/-- A group that has its key gives a row of the output type. -/
theorem proceeds_emit_group {halts : State input × Engine → Prop}
    (measured : Measured dictionary plan size) (also : Phase → Option Row → Prop) :
    Proceeds
      (Node.Good dictionary names bound (fun phase state => Loose dictionary plan size state ∧
        state.key.length = plan.keys ∧ also phase state.lookahead?) below)
      (Node.Good dictionary names bound (fun phase state => Loose dictionary plan size state ∧
        also phase state.lookahead?) below)
      halts (emitGroup plan) fun row => row.Shaped dictionary := by
  rintro ⟨node, engine⟩ ⟨held, stocked⟩
  obtain ⟨loose, long, holds⟩ := held.own
  refine ⟨rfl, ⟨{ held with own := ⟨?_, holds⟩ }, stocked⟩, measured.output, ?_⟩
  · exact ⟨(List.length_map _).trans loose.long, loose.held⟩
  · rw [List.length_append, List.length_map, long, loose.long, measured.gives]

section OverInput

variable (orderly : inner.Orderly dictionary names bound below)
  (measured : Measured dictionary plan size)

include orderly measured

/-- After the last row a group is open if any row of the input type came. -/
theorem proceeds_end_of_input :
    Proceeds
      (Node.Good dictionary names bound (fun _ state => Loose dictionary plan size state ∧
        (state.sawInput = true → state.key.length = plan.keys)) below)
      (Node.Good dictionary names bound (Fitted dictionary plan size) below)
      (Node.Good dictionary names bound (fun _ => Loose dictionary plan size) below)
      (endOfInput plan inner) fun row? => ∀ row ∈ row?, row.Shaped dictionary := by
  rintro ⟨node, engine⟩ ⟨held, stocked⟩
  obtain ⟨loose, keyed⟩ := held.own
  have given {action : CursorAction (State input) Row} {start : State input × Engine}
      (ends : EndsIn start action
        (fun row after => Node.Good dictionary names bound (fun phase state =>
          Loose dictionary plan size state ∧ phase = .closing) below after ∧ row.Shaped dictionary)
        fun _ _ => False) :
      EndsIn start (do return some (← action))
        (fun row? after =>
          Node.Good dictionary names bound (Fitted dictionary plan size) below after ∧
            ∀ row ∈ row?, row.Shaped dictionary)
        fun interrupt after =>
          Node.Good dictionary names bound (fun _ => Loose dictionary plan size) below after ∧
            interrupt.isOrderly = true := by
    refine agree_surely ends ?_
    rintro row after ⟨good, shaped⟩
    refine agree_pure _ ⟨Node.good_weaken good ?_, fun _ same => by
      cases same
      exact shaped⟩
    rintro _ state ⟨loose, rfl⟩
    exact loose.fitted (by simp [Collecting])
  apply CursorAction.agree_state
  dsimp only
  split
  next seen =>
    refine agree_reaching ({ node with phase := .closing }, engine)
      (Node.agree_set_phase .closing rfl) fun _ => ?_
    exact given (agree_weaken (proceeds_emit_group measured (fun phase _ => phase = .closing)
      ({ node with phase := .closing }, engine)
      ⟨{ held with own := ⟨loose, keyed seen, rfl⟩ }, stocked⟩) (fun _ _ => id)
      fun _ _ ends => ends.1)
  · split
    next keyless =>
      refine agree_reaching ({ node with phase := .closing }, engine)
        (Node.agree_set_phase .closing rfl) fun _ => ?_
      refine given ⟨rfl, ⟨{ held with own := ⟨loose, rfl⟩ }, stocked⟩, measured.output, ?_⟩
      rw [List.length_map, loose.long, ← measured.gives, keyless, Nat.zero_add]
    · have suits : Node.Good dictionary names bound (fun _ => Loose dictionary plan size) below
          (node, engine) := ⟨{ held with own := loose }, stocked⟩
      exact agree_weaken (Node.proceeds_ended orderly closed_fitted (node, engine) suits)
        (fun _ _ => id) fun _ _ ends => ⟨Node.good_weaken ends.1 fun _ _ => Fitted.toLoose, ends.2⟩

omit measured in
/-- The row that was held, or the next of the input. -/
theorem take_row_ends {node : State input} {engine : Engine}
    (held : Node.InOrder bound (fun _ => Loose dictionary plan size) below node)
    (stocked : engine.Stocked dictionary names) :
    EndsIn (node, engine) (takeRow inner)
      (fun row? after => (∀ row ∈ row?, row.Shaped dictionary) ∧
        if node.own.lookahead?.isSome then
          row? = node.own.lookahead? ∧ Node.Good dictionary names bound (fun phase state =>
            phase = node.phase ∧ state = { node.own with lookahead? := none }) below after
        else
          Node.Good dictionary names bound
            (fun phase state => phase = node.phase ∧ state = node.own) below after)
      fun interrupt after =>
        Node.Good dictionary names bound (fun _ => Loose dictionary plan size) below after ∧
          interrupt.isOrderly = true := by
  apply CursorAction.agree_state
  dsimp only
  cases held' : node.own.lookahead? with
  | some row =>
      refine agree_reaching ({ node with own := { node.own with lookahead? := none } }, engine)
        (Node.agree_change_own _ rfl) fun _ => ?_
      refine agree_pure _ ⟨fun _ same => ?_, rfl, { held with own := ⟨rfl, rfl⟩ }, stocked⟩
      cases same
      exact (held.own.held row held').1
  | none =>
      have pulls : Behaves (Node.Good dictionary names bound (fun phase state =>
          phase = node.phase ∧ state = node.own) below) (Node.pull inner) fun row? =>
            ∀ row ∈ row?, row.Shaped dictionary :=
        Node.behaves_pull orderly
      refine agree_weaken (pulls (node, engine) ⟨{ held with own := ⟨rfl, rfl⟩ }, stocked⟩) ?_ ?_
      · exact fun row? after ends => ⟨ends.2, ends.1⟩
      · refine fun interrupt after ends => ⟨Node.good_weaken ends.1 ?_, ends.2⟩
        rintro _ _ ⟨rfl, rfl⟩
        exact held.own

/-- With this many turns the collection is orderly. -/
def CollectsOrderly (dictionary : Dictionary) (names : List String) (bound : Bindings → Prop)
    (below : input → Prop) (context : Context) (plan : GroupingPlan) (inner : Protocol input)
    (size most : Nat) : Prop :=
  Proceeds
    (Node.Good dictionary names bound (fun phase state =>
      Fitted dictionary plan size phase state ∧ Collecting phase) below)
    (Node.Good dictionary names bound (Fitted dictionary plan size) below)
    (Node.Good dictionary names bound (fun _ => Loose dictionary plan size) below)
    (collect context plan inner most) fun row? => ∀ row ∈ row?, row.Shaped dictionary

omit orderly in
/-- A row of the input type extends the open group, ends it or begins one. -/
theorem consider_own_ends {most : Nat}
    (collects : CollectsOrderly dictionary names bound below context plan inner size most)
    (shaped : row.Shaped dictionary) (own : row.type.same plan.inputType = true)
    {node : State input} {engine : Engine}
    (held : Node.InOrder bound (fun phase state => Loose dictionary plan size state ∧
      (phase = .running → state.key.length = plan.keys)) below node)
    (stocked : engine.Stocked dictionary names) :
    EndsIn (node, engine) (consider context plan inner most row)
      (fun row? after =>
        Node.Good dictionary names bound (Fitted dictionary plan size) below after ∧
          ∀ row ∈ row?, row.Shaped dictionary)
      fun interrupt after =>
        Node.Good dictionary names bound (fun _ => Loose dictionary plan size) below after ∧
          interrupt.isOrderly = true := by
  have inside : 0 + plan.inputType.columns.length ≤ row.type.width := by
    rw [shaped.width_eq measured.input own, Nat.zero_add]
    exact Nat.le_refl _
  obtain ⟨loose, keyed⟩ := held.own
  unfold consider
  rw [own]
  refine agree_reaching ({ node with own := { node.own with sawInput := true } }, engine)
    (Node.agree_change_own _ rfl) fun _ => ?_
  apply CursorAction.agree_state
  dsimp only
  split
  next running =>
    apply CursorAction.agree_state
    let Open (phase : Phase) (state : GroupingState) : Prop :=
      Loose dictionary plan size state ∧ state.key.length = plan.keys ∧ phase = .running
    have opened : Node.Good dictionary names bound Open below
        ({ node with own := { node.own with sawInput := true } }, engine) :=
      ⟨{ held with own := ⟨⟨loose.long, loose.held⟩, keyed running, running⟩ }, stocked⟩
    refine proceeds_bind (halts_loosely
      (behaves_reading (same_key_orderly shaped context.catalog inside node.own.key))
      fun _ _ => And.left) (fun equal _ => ?_) _ opened
    split
    · refine proceeds_bind (halts_loosely (behaves_absorb shaped own measured
        (fun _ _ => And.left) fun _ _ _ held same => ⟨held.1.with_accumulators same, held.2⟩)
        fun _ _ => And.left) fun _ _ => ?_
      refine proceeds_imp collects (fun _ good => Node.good_weaken good ?_) (fun _ => id)
        (fun _ => id) fun _ => id
      rintro _ state ⟨loose, long, rfl⟩
      exact ⟨{ loose with key := fun _ => long, resumes := nofun }, .inr rfl⟩
    · have holds : Proceeds (Node.Good dictionary names bound Open below)
          (Node.Good dictionary names bound (fun phase state => Loose dictionary plan size state ∧
            state.key.length = plan.keys ∧ state.lookahead?.isSome = true) below)
          (Node.Good dictionary names bound (fun _ => Loose dictionary plan size) below)
          (Node.changeOwn fun state => { state with lookahead? := some row }) fun _ => True := by
        refine Node.proceeds_change_own _ fun _ state open_ => ⟨⟨open_.1.long, ?_⟩, open_.2.1, rfl⟩
        rintro _ ⟨⟩
        exact ⟨shaped, own⟩
      refine proceeds_bind holds fun _ _ => ?_
      refine proceeds_bind (proceeds_emit_group measured fun _ lookahead? =>
        lookahead?.isSome = true) fun output ofShape => ?_
      have given : ∀ row ∈ some output, row.Shaped dictionary := by
        rintro _ ⟨⟩
        exact ofShape
      refine proceeds_bind ?_ fun _ (_ : True) => proceeds_pure given
      exact Node.proceeds_set_phase .opening fun _ _ ended =>
        { ended.1 with key := nofun, resumes := fun _ _ => ended.2 }
  next other =>
    refine proceeds_bind (proceeds_start_group shaped own measured) (fun _ _ => ?_) _
      ⟨{ held with own := ⟨loose.long, loose.held⟩ }, stocked⟩
    refine proceeds_bind ?_ fun _ (_ : True) => collects
    exact Node.proceeds_set_phase .running fun _ state begun =>
      ⟨{ begun.1 with key := fun _ => begun.2, resumes := nofun }, .inr rfl⟩

/-- Taking rows until one can be given: by induction on the bound. -/
theorem collect_orderly (most : Nat) :
    CollectsOrderly dictionary names bound below context plan inner size most := by
  induction most with
  | zero => exact fun _ good => agree_pure none ⟨Node.good_weaken good fun _ _ => And.left, nofun⟩
  | succ most induction =>
      rintro ⟨node, engine⟩ ⟨held, stocked⟩
      obtain ⟨fitted, collecting⟩ := held.own
      rw [collect_succ]
      refine agree_bind (take_row_ends orderly { held with own := fitted.toLoose } stocked) ?_
      rintro row? ⟨taken, reached⟩ ⟨shaped, ends⟩
      cases holding : node.own.lookahead? with
      | some row =>
          rw [holding] at ends
          obtain ⟨rfl, still, stocked⟩ := ends
          obtain ⟨phase, same⟩ := still.own
          refine consider_own_ends measured induction (shaped row rfl)
            (fitted.held row holding).2 { still with own := ?_ } stocked
          rw [phase, same]
          exact ⟨⟨fitted.long, nofun⟩, fitted.key⟩
      | none =>
          rw [holding] at ends
          obtain ⟨still, stocked⟩ := ends
          obtain ⟨phase, same⟩ := still.own
          cases row? with
          | none =>
              refine proceeds_end_of_input orderly measured (taken, reached)
                ⟨{ still with own := ?_ }, stocked⟩
              rw [same]
              refine ⟨fitted.toLoose, fun seen => fitted.key ?_⟩
              refine collecting.resolve_left fun opening => ?_
              have impossible := fitted.resumes opening seen
              rw [holding] at impossible
              cases impossible
          | some row =>
              cases own : row.type.same plan.inputType with
              | true =>
                  refine consider_own_ends measured induction (shaped row rfl) own
                    { still with own := ?_ } stocked
                  rw [phase, same]
                  exact ⟨fitted.toLoose, fitted.key⟩
              | false =>
                  dsimp only
                  unfold consider
                  rw [own]
                  refine agree_pure _ ⟨⟨{ still with own := ?_ }, stocked⟩, shaped⟩
                  rw [phase, same]
                  exact fitted

theorem advance_orderly :
    Proceeds
      (Node.Good dictionary names bound (fun phase state =>
        Fitted dictionary plan size phase state ∧ phase.isActive = true) below)
      (Node.Good dictionary names bound (Fitted dictionary plan size) below)
      (Node.Good dictionary names bound (fun _ => Loose dictionary plan size) below)
      (advance context plan inner) fun row? => ∀ row ∈ row?, row.Shaped dictionary := by
  refine proceeds_bind (halts_loosely (behaves_reading (check_cancelled_orderly context))
    fun _ _ held => held.1.toLoose) fun _ _ => ?_
  rintro ⟨node, engine⟩ ⟨held, stocked⟩
  obtain ⟨fitted, active⟩ := held.own
  apply CursorAction.agree_state
  dsimp only
  split
  · exact agree_weaken (Node.proceeds_ended orderly closed_fitted (node, engine)
      ⟨{ held with own := fitted.toLoose }, stocked⟩) (fun _ _ => id) fun _ _ ends =>
        ⟨Node.good_weaken ends.1 fun _ _ => Fitted.toLoose, ends.2⟩
  next other =>
    refine collect_orderly orderly measured _ (node, engine)
      ⟨{ held with own := ⟨fitted, ?_⟩ }, stocked⟩
    revert active other
    unfold Collecting
    cases node.phase <;> simp [Phase.isActive]

omit measured in
theorem open_pass_orderly :
    Behaves (Node.Good dictionary names bound (Fitted dictionary plan size) below)
      (openPass context inner) fun _ => True := by
  have opens : Proceeds (Node.Good dictionary names bound (Fitted dictionary plan size) below)
      (Node.Good dictionary names bound (fun phase state =>
        Loose dictionary plan size state ∧ phase = .opening) below)
      (Node.Good dictionary names bound (Fitted dictionary plan size) below) (Node.openPass inner)
      fun _ => True :=
    Node.proceeds_open_pass orderly fun _ _ held => ⟨held.toLoose, rfl⟩
  refine proceeds_bind (behaves_reading (tap_orderly context _)) fun _ _ => ?_
  refine proceeds_bind opens fun _ _ => Node.proceeds_change_own _ ?_
  rintro _ state ⟨loose, rfl⟩
  exact ⟨⟨(List.length_map _).trans loose.long, loose.held⟩, nofun, nofun⟩

theorem next_orderly :
    Behaves (Node.Good dictionary names bound (Fitted dictionary plan size) below)
      (next context plan inner) fun row? => ∀ row ∈ row?, row.Shaped dictionary := by
  have cleans : Proceeds
      (Node.Good dictionary names bound (fun _ => Loose dictionary plan size) below)
      (Node.Good dictionary names bound (Fitted dictionary plan size) below)
      (Node.Good dictionary names bound (Fitted dictionary plan size) below)
      (do
        forget
        Node.abort inner)
      fun _ => True := by
    refine proceeds_bind ?_ fun _ (_ : True) => Node.proceeds_abort orderly closed_fitted
    exact Node.proceeds_change_own _ fun _ _ loose => ⟨loose.long, nofun⟩
  rintro ⟨node, engine⟩ ⟨held, stocked⟩
  refine agree_then (fun _ after => after = (node, engine) ∧ node.phase.isActive = true)
    (Node.agree_check (fun legal => ⟨rfl, legal⟩) fun _ => ⟨⟨held, stocked⟩, rfl⟩) ?_
  rintro _ _ ⟨rfl, active⟩
  have good : Node.Good dictionary names bound (fun phase state =>
      Fitted dictionary plan size phase state ∧ phase.isActive = true) below (node, engine) :=
    ⟨{ held with own := ⟨held.own, active⟩ }, stocked⟩
  refine proceeds_bind (proceeds_imp (behaves_reading (tap_orderly context _)) (fun _ => id)
    (fun _ => id) (fun _ kept => Node.good_weaken kept fun _ _ => And.left) fun _ => id)
    (fun _ _ => ?_) (node, engine) good
  exact proceeds_on_failure (advance_orderly orderly measured) cleans

omit measured in
theorem close_orderly :
    Behaves (Node.Good dictionary names bound (Fitted dictionary plan size) below) (close inner)
      fun _ => True := by
  let Ended (phase : Phase) (state : GroupingState) : Prop :=
    Loose dictionary plan size state ∧ phase = .closed
  have fitted (phase : Phase) (state : GroupingState) (ended : Ended phase state) :
      Fitted dictionary plan size phase state := by
    obtain ⟨loose, rfl⟩ := ended
    exact closed_fitted .closed state loose
  have finishes : Proceeds (Node.Good dictionary names bound (Fitted dictionary plan size) below)
      (Node.Good dictionary names bound Ended below)
      (Node.Good dictionary names bound (Fitted dictionary plan size) below) (Node.finish inner)
      fun _ => True :=
    proceeds_imp (Node.proceeds_finish orderly fun _ _ held => ⟨held.toLoose, rfl⟩)
      (fun _ => id) (fun _ => id) (fun _ good => Node.good_weaken good fitted) fun _ => id
  refine proceeds_bind (proceeds_bind (Node.behaves_check .close) fun _ _ => finishes) fun _ _ => ?_
  refine Node.proceeds_change_own _ ?_
  rintro _ state ⟨loose, rfl⟩
  exact closed_fitted .closed _ ⟨loose.long, nofun⟩

theorem protocol_orderly :
    (protocol context plan inner).Orderly dictionary names bound
      (Node.InOrder bound (Fitted dictionary plan size) below) where
  openPass := open_pass_orderly orderly
  next := next_orderly orderly measured
  close := close_orderly orderly
  destroy := by
    have releases : Proceeds (Node.Good dictionary names bound (Fitted dictionary plan size) below)
        (Node.Good dictionary names bound (fun _ => Loose dictionary plan size) below)
        (Node.Good dictionary names bound (Fitted dictionary plan size) below)
        (Node.changeOwn fun state => { state with lookahead? := none }) fun _ => True :=
      Node.proceeds_change_own _ fun _ _ fitted => ⟨fitted.long, nofun⟩
    exact proceeds_bind releases fun _ _ => Node.proceeds_destroy orderly
      (fun _ _ loose => loose) fun _ _ loose => loose.fitted (by simp [Collecting])
  openBindings := Node.behaves_open_bindings orderly
  nextBindings := Node.behaves_next_bindings orderly
  closeBindings := Node.behaves_close_bindings orderly

end OverInput

end QueryExec.Grouping
