import QueryExec.Proofs.Cursor.Grouped
import QueryExec.Proofs.Tandem.Operators

/-!
Aggregations in tandem. Both runs have the same key, the same accumulators and held rows that stand
for each other. What an aggregation stands at is said phase by phase: while a group is open its key
is a key, and before a group is open a row that was taken is still held.
-/

namespace QueryExec

open QueryExec.Action QueryExec.Regime

/-- Aggregates do not convert what they are fed. -/
theorem Accumulator.input_error_plain {accumulator : Accumulator} {value : Datum}
    {cause : ValueError} (refused : accumulator.input value = .error cause) (column : Option Nat) :
    (Interrupt.failed (.value column cause)).isCast = false := by
  rcases input_refused refused with rfl | ⟨expected, found, rfl⟩ <;> rfl

namespace Grouping

variable {input : Type}

/-- What an aggregation relies on: the rows of its input type have the values of that type, so many
values in a row are a key, the accumulators stay fed with such values, and rows can be made of
their results. -/
structure Groups (regime : Regime) (plan : GroupingPlan) (keyed : List Datum → Prop)
    (fed : List Accumulator → Prop) : Prop where
  value : ∀ {world left right column value}, regime.rows world left right →
    left.type.same plan.inputType = true → regime.value left.type column value →
    regime.value plan.inputType column value
  key : ∀ {values}, List.Forall₂ (regime.value plan.inputType) (List.range plan.keys) values →
    keyed values
  reset : ∀ {accumulators}, fed accumulators → fed (accumulators.map Accumulator.reset)
  takes : ∀ {front : List Accumulator} {accumulator back value next},
    fed (front ++ accumulator :: back) →
    regime.value plan.inputType (plan.keys + front.length) value →
    accumulator.input value = .ok next → fed (front ++ next :: back)
  result : ∀ {key accumulators}, keyed key → fed accumulators →
    regime.made plan.outputType (key ++ accumulators.map Accumulator.result)
  empty : ∀ {accumulators}, plan.keys = 0 → fed accumulators →
    regime.made plan.outputType (accumulators.map Accumulator.emptyResult)

/-- What two aggregations keep. -/
structure Twin (regime : Regime) (plan : GroupingPlan) (fed : List Accumulator → Prop)
    (world : regime.World) (left right : GroupingState) : Prop where
  key : left.key = right.key
  accumulators : left.accumulators = right.accumulators
  sawInput : left.sawInput = right.sawInput
  lookahead : regime.RowPaired world left.lookahead? right.lookahead?
  held : ∀ row ∈ left.lookahead?, row.type.same plan.inputType = true
  fed : fed left.accumulators

/-- What two aggregations keep where they stand at a place. -/
def TwinAt (regime : Regime) (plan : GroupingPlan) (fed : List Accumulator → Prop)
    (stands : Phase → GroupingState → Prop) :
    regime.World → Phase → GroupingState → GroupingState → Prop :=
  fun world phase left right => Twin regime plan fed world left right ∧ stands phase left

/-- Two aggregations over related inputs that stand at a place. -/
abbrev At (regime : Regime) (plan : GroupingPlan) (fed : List Accumulator → Prop)
    (related : regime.World → input → input → Prop) (stands : Phase → GroupingState → Prop) :
    regime.World → Company → State input × Engine → State input × Engine → Prop :=
  regime.States (Node.Paired regime (TwinAt regime plan fed stands) related)

/-- Any place. -/
def Anywhere : Phase → GroupingState → Prop :=
  fun _ _ => True

/-- An open group has a key. -/
def Grouped (keyed : List Datum → Prop) (phase : Phase) (state : GroupingState) : Prop :=
  phase = .running → keyed state.key

/-- Ready for the next row: in a group, or before one with the first row held. -/
def Taking (keyed : List Datum → Prop) (phase : Phase) (state : GroupingState) : Prop :=
  phase = .running ∧ keyed state.key ∨
    phase = .opening ∧ (state.sawInput = true → state.lookahead?.isSome = true)

/-- Between calls: idle, at the end or ready for the next row. -/
def Resting (keyed : List Datum → Prop) (phase : Phase) (state : GroupingState) : Prop :=
  phase.isActive = true → phase = .closing ∨ Taking keyed phase state

variable {regime : Regime} {plan : GroupingPlan} {keyed : List Datum → Prop}
  {fed : List Accumulator → Prop} {related : regime.World → input → input → Prop}
  {stands reaches : Phase → GroupingState → Prop} {world : regime.World} {parts : Prop}

theorem taking_rests {phase : Phase} {state : GroupingState} (taking : Taking keyed phase state) :
    Resting keyed phase state :=
  fun _ => .inr taking

theorem taking_grouped {phase : Phase} {state : GroupingState} (taking : Taking keyed phase state) :
    Grouped keyed phase state := by
  intro running
  rcases taking with ⟨_, key⟩ | ⟨opening, _⟩
  · exact key
  · rw [running] at opening
    cases opening

theorem rests_idle {phase : Phase} {state : GroupingState} (idle : phase.isActive = false) :
    Resting keyed phase state := by
  intro active
  rw [idle] at active
  cases active

theorem rests_closing {phase : Phase} {state : GroupingState} (closing : phase = .closing) :
    Resting keyed phase state :=
  fun _ => .inl closing

/-- A place that is also another place. -/
theorem at_imp {company : Company} {left right : State input × Engine}
    (implies : ∀ phase state, stands phase state → reaches phase state)
    (held : At regime plan fed related stands world company left right) :
    At regime plan fed related reaches world company left right :=
  ⟨{ held.1 with own := ⟨held.1.own.1, implies _ _ held.1.own.2⟩ }, held.2⟩

/-- What holds from a place holds from where that place is known. -/
theorem leads_at (reaches : Phase → GroupingState → Prop) {result : Type}
    {gives : regime.World → result → result → Prop}
    {after halts : regime.World → Company → State input × Engine → State input × Engine → Prop}
    {action acting : CursorAction (State input) result}
    (sees : ∀ phase state, stands phase state → reaches phase state)
    (leads : regime.Leads (At regime plan fed related reaches) after halts world parts action acting
      gives) :
    regime.Leads (At regime plan fed related stands) after halts world parts action acting gives :=
  fun company left right held => leads company left right (at_imp sees held)

section Steps

variable (lawful : regime.Lawful)

include lawful

theorem Twin.later {later : regime.World} {left right : GroupingState}
    (twin : Twin regime plan fed world left right) (within : regime.Within world later) :
    Twin regime plan fed later left right := by
  refine { twin with lookahead := ?_ }
  have rows := twin.lookahead
  revert rows
  generalize left.lookahead? = row?
  generalize right.lookahead? = partner?
  rintro (rows | _)
  · exact .some (lawful.rows_later within rows)
  · exact .none

theorem twin_at_lasts : Node.Lasts regime (TwinAt regime plan fed stands) :=
  fun _ _ _ _ _ within held => ⟨held.1.later lawful within, held.2⟩

theorem resting_kept : Node.Kept regime (TwinAt regime plan fed (Resting keyed)) :=
  ⟨twin_at_lasts lawful, fun _ _ _ _ _ idle held => ⟨held.1, rests_idle idle⟩⟩

theorem anywhere_kept : Node.Kept regime (TwinAt regime plan fed Anywhere) :=
  ⟨twin_at_lasts lawful, fun _ _ _ _ _ _ held => held⟩

omit lawful in
/-- Both look at what they keep, and remember it. -/
theorem leads_own {result : Type} {gives : regime.World → result → result → Prop}
    {after halts : regime.World → Company → State input × Engine → State input × Engine → Prop}
    {next following : State input → CursorAction (State input) result}
    (follows : ∀ left right,
      Node.Paired regime (TwinAt regime plan fed stands) related world left right →
      regime.Leads (At regime plan fed related fun phase own => phase = left.phase ∧ own = left.own)
        after halts world parts (next left) (following right) gives) :
    regime.Leads (At regime plan fed related stands) after halts world parts
      (CursorAction.state >>= next) (CursorAction.state >>= following) gives := by
  apply leads_look
  intro left right seen
  refine leads_imp (follows left right seen) ?_ (fun _ _ _ _ => id) (fun _ _ _ _ => id)
    fun _ _ _ => id
  rintro company below beside ⟨⟨held, same, _⟩, engines⟩
  exact ⟨{ held with own := ⟨held.own.1, by rw [same], by rw [same]⟩ }, engines⟩

/-- Both change what they keep alike, so that they stand at another place. -/
theorem leads_own_change (reaches : Phase → GroupingState → Prop)
    {step following : GroupingState → GroupingState}
    {halts : regime.World → Company → State input × Engine → State input × Engine → Prop}
    (keeps : ∀ left right, Twin regime plan fed world left right →
      Twin regime plan fed world (step left) (following right))
    (moves : ∀ phase state, stands phase state → reaches phase (step state)) :
    regime.Leads (At regime plan fed related stands) (At regime plan fed related reaches) halts
      world parts (Node.changeOwn step) (Node.changeOwn following) fun _ _ _ => True :=
  Node.leads_change_own lawful fun _ _ _ held => ⟨keeps _ _ held.1, moves _ _ held.2⟩

theorem leads_phase (reaches : Phase → GroupingState → Prop)
    {halts : regime.World → Company → State input × Engine → State input × Engine → Prop}
    (phase : Phase) (moves : ∀ before state, stands before state → reaches phase state) :
    regime.Leads (At regime plan fed related stands) (At regime plan fed related reaches) halts
      world parts (Node.setPhase phase) (Node.setPhase phase) fun _ _ _ => True :=
  Node.leads_set_phase lawful _ phase fun _ _ _ held => ⟨held.1, moves _ _ held.2⟩

omit lawful in
/-- Both forget the key. -/
theorem Twin.without_key {left right : GroupingState}
    (twin : Twin regime plan fed world left right) :
    Twin regime plan fed world { left with key := [] } { right with key := [] } :=
  { twin with key := rfl }

omit lawful in
/-- Both forget the held row. -/
theorem Twin.released {left right : GroupingState} (twin : Twin regime plan fed world left right) :
    Twin regime plan fed world { left with lookahead? := none } { right with lookahead? := none } :=
  { twin with lookahead := .none, held := fun _ impossible => by cases impossible }

end Steps

section Absorbing

/-- Feeding the columns of a row, as a step on accumulators and a journal. -/
def feeding (row : Row) (column : Nat) : Action (List Accumulator × Journal) Unit :=
  ExceptT.mk fun pair => absorbFrom row column pair.1 pair.2

theorem absorb_eq_feeding (keys : Nat) (row : Row) :
    (absorb keys row : CursorAction (State input) Unit) =
      (feeding row keys).onPart (fun pair => (pair.1.own.accumulators, pair.2.journal))
        fun part pair =>
          ({ pair.1 with own := { pair.1.own with accumulators := part.1 } },
            { pair.2 with journal := part.2 }) :=
  rfl

/-- The first accumulator takes the first column. -/
theorem feeding_cons (row : Row) (column : Nat) (accumulator : Accumulator)
    (rest : List Accumulator) (journal : Journal) :
    (feeding row column).run (accumulator :: rest, journal) =
      ((row.read column).onSecond >>= fun value =>
        match accumulator.input value with
        | .error cause => fail (.value (some column) cause)
        | .ok next => (feeding row (column + 1)).onPart (fun pair => (rest, pair.2))
            fun part _ => (next :: part.1, part.2)).run (accumulator :: rest, journal) := by
  have reads : (row.read column).onSecond.run (accumulator :: rest, journal) =
      (((row.read column).run journal).1, accumulator :: rest,
        ((row.read column).run journal).2) := rfl
  rw [run_bind, reads]
  change absorbFrom row column (accumulator :: rest) journal = _
  unfold absorbFrom
  rcases (row.read column).run journal with ⟨interrupt | value, after⟩
  · rfl
  · dsimp only
    cases accumulator.input value <;> rfl

/-- Both runs feed their accumulators with the same values. -/
theorem feeding_tandem (lawful : regime.Lawful) (groups : Groups regime plan keyed fed)
    {row partner : Row} (rows : regime.rows world row partner)
    (own : row.type.same plan.inputType = true) (front back : List Accumulator) {company : Company}
    {left right : Journal} (feed : fed (front ++ back))
    (journals : regime.Journals world company left right) :
    Tandem regime.calm regime.parts company (back, left) (back, right)
      (feeding row (plan.keys + front.length)) (feeding partner (plan.keys + front.length))
      (fun company _ _ after last => after.1 = last.1 ∧ fed (front ++ after.1) ∧
        regime.Journals world company after.2 last.2)
      fun company _ after last => after.1 = last.1 ∧ fed (front ++ after.1) ∧
        regime.Journals world company after.2 last.2 := by
  induction back generalizing front company left right with
  | nil =>
      have none (row : Row) (column : Nat) (journal : Journal) :
          (feeding row column).run ([], journal) =
            (pure () : Action (List Accumulator × Journal) Unit).run ([], journal) := rfl
      exact tandem_congr (none row _ left) (none partner _ right)
        (tandem_pure ⟨rfl, feed, journals⟩)
  | cons accumulator rest induction =>
      refine tandem_congr (feeding_cons row _ accumulator rest left)
        (feeding_cons partner _ accumulator rest right) ?_
      refine tandem_then (fun company value same after last =>
        (after.1 = accumulator :: rest ∧ last.1 = accumulator :: rest ∧ value = same ∧
          regime.value plan.inputType (plan.keys + front.length) value) ∧
        regime.Journals world company after.2 last.2) ?_ ?_
      · apply tandem_on_part
        refine tandem_weaken (lawful.read _ rows company left right journals) ?_ ?_
        · rintro later value same after last ⟨journals, alike, typed⟩
          exact ⟨⟨rfl, rfl, alike, groups.value rows own typed⟩, journals⟩
        · exact fun later interrupt after last journals => ⟨rfl, feed, journals⟩
      · rintro later value _ ⟨_, after⟩ ⟨_, last⟩ ⟨⟨rfl, rfl, rfl, typed⟩, journals⟩
        cases taken : accumulator.input value with
        | error cause =>
            exact tandem_fail (lawful.calm _ (Accumulator.input_error_plain taken _))
              ⟨rfl, feed, journals⟩
        | ok next =>
            have further : fed ((front ++ [next]) ++ rest) := by
              simpa using groups.takes feed typed taken
            have column : plan.keys + (front ++ [next]).length = plan.keys + front.length + 1 := by
              simp only [List.length_append, List.length_singleton]
              omega
            have fedRest := induction (front ++ [next]) further journals
            rw [column] at fedRest
            apply tandem_on_part
            refine tandem_weaken fedRest ?_ ?_
            · rintro final _ _ ⟨accumulators, after⟩ ⟨_, last⟩ ⟨rfl, more, journals⟩
              exact ⟨rfl, by simpa using more, journals⟩
            · rintro final _ ⟨accumulators, after⟩ ⟨_, last⟩ ⟨rfl, more, journals⟩
              exact ⟨rfl, by simpa using more, journals⟩

/-- A row is absorbed wherever its aggregation stands, as far as that is not about accumulators. -/
theorem leads_absorb (lawful : regime.Lawful) (groups : Groups regime plan keyed fed)
    {row partner : Row} (rows : regime.rows world row partner)
    (own : row.type.same plan.inputType = true)
    (stays : ∀ phase state accumulators, stands phase state →
      stands phase { state with accumulators }) :
    regime.Leads (At regime plan fed related stands) (At regime plan fed related stands)
      (At regime plan fed related Anywhere) world regime.parts (absorb plan.keys row)
      (absorb plan.keys partner) fun _ _ _ => True := by
  intro company left right held
  obtain ⟨node, engines⟩ := held
  have journals : regime.Journals world company left.2.journal right.2.journal :=
    ⟨fun together => congrArg Engine.journal (engines.1 together), engines.2.1⟩
  have replaced {later : Company} {accumulators : List Accumulator} {last beside : Journal}
      (still : later = .together → company = .together) (still_fed : fed accumulators)
      (journals : regime.Journals world later last beside) :
      At regime plan fed related stands world later
        ({ left.1 with own := { left.1.own with accumulators } }, { left.2 with journal := last })
        ({ right.1 with own := { right.1.own with accumulators } },
          { right.2 with journal := beside }) :=
    ⟨{ node with
        own := ⟨{ node.own.1 with accumulators := rfl, fed := still_fed },
          stays _ _ _ node.own.2⟩ },
      fun together => by rw [engines.1 (still together), journals.1 together], journals.2,
      lawful.rest_journal last engines.2.2⟩
  rw [absorb_eq_feeding, absorb_eq_feeding]
  apply tandem_on_part
  have feeds := feeding_tandem lawful groups rows own [] left.1.own.accumulators
    node.own.1.fed journals
  rw [show (right.1.own.accumulators, right.2.journal) =
    (left.1.own.accumulators, right.2.journal) by rw [node.own.1.accumulators]]
  refine tandem_weaken (tandem_company feeds) ?_ ?_
  · rintro later _ _ ⟨accumulators, after⟩ ⟨_, last⟩ ⟨still, rfl, more, journals⟩
    exact ⟨world, lawful.refl world, replaced still more journals, trivial⟩
  · rintro later _ ⟨accumulators, after⟩ ⟨_, last⟩ ⟨still, rfl, more, journals⟩
    exact ⟨world, lawful.refl world, .inl (at_imp (fun _ _ _ => trivial)
      (replaced still more journals))⟩

end Absorbing

section Collecting

variable {first second : Protocol input} (lawful : regime.Lawful)
  (groups : Groups regime plan keyed fed) (paired : regime.Paired first second related)

/-- What is kept of a place when the runs stop. -/
theorem leads_loosely {result : Type} {action acting : CursorAction (State input) result}
    {gives : regime.World → result → result → Prop}
    (pairs : regime.Pairs (At regime plan fed related stands) world parts action acting gives) :
    regime.Leads (At regime plan fed related stands) (At regime plan fed related stands)
      (At regime plan fed related Anywhere) world parts action acting gives :=
  leads_imp pairs (fun _ _ _ => id) (fun _ _ _ _ => id)
    (fun _ _ _ _ => at_imp fun _ _ _ => trivial) fun _ _ _ => id

include lawful

/-- Key columns are compared alike. -/
theorem reads_same_key {row partner : Row} (rows : regime.rows world row partner)
    (catalog : Catalog) (column : Nat) (key : List Datum) (types : List ColumnType) :
    regime.Reads world regime.parts (sameKey catalog row column key types)
      (sameKey catalog partner column key types) Eq := by
  induction key generalizing column types with
  | nil => exact reads_pure rfl
  | cons current key induction =>
      cases types with
      | nil => exact reads_pure rfl
      | cons type types =>
          refine reads_bind (lawful.read column rows) ?_
          rintro value _ ⟨rfl, _⟩
          split
          · exact induction (column + 1) types
          · exact reads_pure rfl

include paired in
/-- A step on the journal moves no aggregation. -/
theorem leads_reading_at {result : Type} {action acting : Action Journal result}
    {gives : result → result → Prop} (reads : regime.Reads world parts action acting gives) :
    regime.Leads (At regime plan fed related stands) (At regime plan fed related stands)
      (At regime plan fed related Anywhere) world parts (CursorAction.inJournal action)
      (CursorAction.inJournal acting) fun _ => gives :=
  leads_loosely (pairs_reading lawful (Node.lasting lawful (twin_at_lasts lawful) paired.lasting)
    reads)

include paired in
theorem leads_new_row {type : RowType} {values : List Datum} (made : regime.made type values) :
    regime.Leads (At regime plan fed related stands) (At regime plan fed related stands)
      (At regime plan fed related Anywhere) world parts
      (CursorAction.inEngine (Engine.newRow type values))
      (CursorAction.inEngine (Engine.newRow type values)) regime.rows :=
  leads_loosely (leads_steady (pairs_in_engine
    (Node.lasting lawful (twin_at_lasts lawful) paired.lasting) (lawful.new_row world made)))

include paired in
/-- The end of the inputs ends the pass. -/
theorem leads_ended :
    regime.Leads (At regime plan fed related stands) (At regime plan fed related (Resting keyed))
      (At regime plan fed related Anywhere) world parts
      (do
        Node.finish first
        pure none)
      (do
        Node.finish second
        pure none) regime.RowPaired := by
  have finishes : regime.Leads (At regime plan fed related stands)
      (At regime plan fed related (Resting keyed)) (At regime plan fed related Anywhere) world parts
      (Node.finish first) (Node.finish second) fun _ _ _ => True := by
    refine leads_imp (Node.leads_finish lawful (anywhere_kept lawful) paired)
      (fun _ _ _ => at_imp fun _ _ _ => trivial) (fun later company left right held => ?_)
      (fun _ _ _ _ => Node.within_paired) fun _ _ _ => id
    exact ⟨{ held.1 with own := ⟨held.1.own.2.1, rests_idle (by rw [held.1.own.1]; rfl)⟩ }, held.2⟩
  exact leads_bind lawful finishes fun _ _ _ _ _ => leads_pure lawful .none

include groups paired

theorem leads_start_group {row partner : Row} (rows : regime.rows world row partner)
    (own : row.type.same plan.inputType = true) :
    regime.Leads (At regime plan fed related Anywhere)
      (At regime plan fed related fun _ state => keyed state.key)
      (At regime plan fed related Anywhere) world regime.parts (startGroup plan row)
      (startGroup plan partner) fun _ _ _ => True := by
  refine leads_bind lawful (leads_own_change lawful Anywhere
    (fun _ _ => Twin.without_key) fun _ _ _ => trivial) ?_
  intro later _ _ within _
  refine leads_bind lawful (leads_reading_at lawful paired
    (reads_columns lawful (lawful.rows_later within rows) _)) ?_
  rintro last key _ further ⟨rfl, values⟩
  have typed : keyed key := groups.key (values.imp fun _ _ =>
    groups.value (lawful.rows_later within rows) own)
  refine leads_bind lawful (leads_own_change lawful (fun _ state => keyed state.key)
    ?_ fun _ _ _ => typed) ?_
  · intro left right twin
    exact { twin with
      key := rfl
      accumulators := by rw [twin.accumulators]
      fed := groups.reset twin.fed }
  · intro final _ _ beyond _
    have rows := lawful.rows_later beyond
      (lawful.rows_later further (lawful.rows_later within rows))
    exact leads_absorb lawful groups rows own fun _ _ _ => id

/-- The row of the open group, which is made of its key and its results. -/
theorem leads_emit_group (reaches : Phase → GroupingState → Prop)
    (key : ∀ phase state, stands phase state → keyed state.key)
    (moves : ∀ phase state accumulators, stands phase state →
      reaches phase { state with key := [], accumulators }) :
    regime.Leads (At regime plan fed related stands) (At regime plan fed related reaches)
      (At regime plan fed related Anywhere) world parts (emitGroup plan) (emitGroup plan)
      regime.rows := by
  apply leads_own
  intro left right seen
  dsimp only
  rw [← seen.own.1.key, ← seen.own.1.accumulators]
  refine leads_bind lawful (leads_own_change lawful reaches ?_ ?_) ?_
  · intro before beside twin
    exact { twin with
      key := rfl
      accumulators := by rw [twin.accumulators]
      fed := groups.reset twin.fed }
  · rintro _ _ ⟨rfl, rfl⟩
    exact moves _ _ _ seen.own.2
  · intro later _ _ _ _
    exact leads_new_row lawful paired
      (groups.result (key _ _ seen.own.2) seen.own.1.fed)

theorem leads_end_of_input :
    regime.Leads
      (At regime plan fed related fun phase state =>
        Taking keyed phase state ∧ state.lookahead? = none)
      (At regime plan fed related (Resting keyed)) (At regime plan fed related Anywhere) world parts
      (endOfInput plan first) (endOfInput plan second) regime.RowPaired := by
  apply leads_own
  intro left right seen
  obtain ⟨twin, taking, empty⟩ := seen.own
  dsimp only
  rw [← twin.sawInput, ← twin.accumulators]
  split
  next saw =>
    have key : keyed left.own.key := by
      rcases taking with ⟨_, key⟩ | ⟨_, held⟩
      · exact key
      · have impossible := held saw
        rw [empty] at impossible
        cases impossible
    refine leads_bind lawful (leads_phase lawful
      (fun phase state => phase = .closing ∧ keyed state.key) .closing
      fun _ _ same => ⟨rfl, same.2 ▸ key⟩) ?_
    intro later _ _ _ _
    refine leads_bind lawful (leads_emit_group lawful groups paired
      (fun phase _ => phase = .closing) (fun _ _ placed => placed.2)
      fun _ _ _ placed => placed.1) ?_
    intro last _ _ _ made
    exact leads_answer lawful (fun _ _ _ => at_imp fun _ _ => rests_closing) (.some made)
  next =>
    split
    next keyless =>
      refine leads_bind lawful (leads_phase lawful (fun phase _ => phase = .closing)
        .closing fun _ _ _ => rfl) ?_
      intro later _ _ _ _
      refine leads_bind lawful (leads_new_row lawful paired (groups.empty keyless twin.fed)) ?_
      intro last _ _ _ made
      exact leads_answer lawful (fun _ _ _ => at_imp fun _ _ => rests_closing) (.some made)
    next => exact leads_ended lawful paired

/-- A row of another group is held back, and the open group is given. -/
theorem leads_end_of_group {row partner : Row} (rows : regime.rows world row partner)
    (own : row.type.same plan.inputType = true) :
    regime.Leads
      (At regime plan fed related fun phase state => phase = .running ∧ keyed state.key)
      (At regime plan fed related (Resting keyed)) (At regime plan fed related Anywhere) world parts
      (do
        Node.changeOwn fun state => { state with lookahead? := some row }
        let output ← emitGroup plan
        Node.setPhase .opening
        pure (some output))
      (do
        Node.changeOwn fun state => { state with lookahead? := some partner }
        let output ← emitGroup plan
        Node.setPhase .opening
        pure (some output)) regime.RowPaired := by
  refine leads_bind lawful (leads_own_change lawful (fun _ state =>
    keyed state.key ∧ state.lookahead?.isSome = true) ?_ ?_) ?_
  · intro before beside twin
    refine { twin with lookahead := .some rows, held := ?_ }
    rintro _ ⟨⟩
    exact own
  · exact fun _ _ placed => ⟨placed.2, rfl⟩
  intro later _ _ _ _
  refine leads_bind lawful (leads_emit_group lawful groups paired
    (fun _ state => state.lookahead?.isSome = true) (fun _ _ placed => placed.1)
    fun _ _ _ placed => placed.2) ?_
  intro last _ _ _ made
  refine leads_bind lawful (leads_phase lawful (Resting keyed) .opening
    fun _ _ held => taking_rests (.inr ⟨rfl, fun _ => held⟩)) ?_
  exact fun _ _ _ beyond _ => leads_pure lawful (.some (lawful.rows_later beyond made))

/-- A row of the input type extends the open group, ends it or begins one. -/
theorem leads_consider {bound : Nat}
    (collects : ∀ world, regime.Leads (At regime plan fed related (Taking keyed))
      (At regime plan fed related (Resting keyed)) (At regime plan fed related Anywhere) world
      regime.parts (collect regime.first plan first bound) (collect regime.second plan second bound)
      regime.RowPaired)
    {row partner : Row} (rows : regime.rows world row partner)
    (own : row.type.same plan.inputType = true) :
    regime.Leads (At regime plan fed related (Grouped keyed))
      (At regime plan fed related (Resting keyed)) (At regime plan fed related Anywhere) world
      regime.parts (consider regime.first plan first bound row)
      (consider regime.second plan second bound partner) regime.RowPaired := by
  unfold consider
  rw [← lawful.rows_type rows, own]
  refine leads_bind lawful (leads_own_change lawful (Grouped keyed)
    (fun _ _ twin => { twin with sawInput := rfl }) fun _ _ => id) ?_
  intro later _ _ within _
  have rows := lawful.rows_later within rows
  apply leads_own
  intro left right seen
  dsimp only
  rw [← seen.phase]
  split
  next running =>
    refine leads_at (fun phase state => phase = .running ∧ keyed state.key) ?_ ?_
    · rintro _ _ ⟨rfl, rfl⟩
      exact ⟨running, seen.own.2 running⟩
    apply leads_own
    intro left right seen
    rw [← seen.own.1.key, ← lawful.catalog]
    refine leads_at (fun phase state => phase = .running ∧ keyed state.key) ?_ ?_
    · rintro _ _ ⟨rfl, rfl⟩
      exact seen.own.2
    refine leads_bind lawful (leads_reading_at lawful paired
      (reads_same_key lawful rows regime.first.catalog 0 left.own.key plan.inputType.columns)) ?_
    rintro last equal _ further rfl
    have rows := lawful.rows_later further rows
    split
    · refine leads_bind lawful (leads_absorb lawful groups rows own fun _ _ _ => id) ?_
      exact fun final _ _ _ _ => leads_at _ (fun _ _ => .inl) (collects final)
    · exact leads_end_of_group lawful groups paired rows own
  next =>
    refine leads_bind lawful (leads_at _ (fun _ _ _ => trivial)
      (leads_start_group lawful groups paired rows own)) ?_
    intro last _ _ _ _
    refine leads_bind lawful (leads_phase lawful (Taking keyed) .running
      fun _ _ key => .inl ⟨rfl, key⟩) ?_
    exact fun final _ _ _ _ => collects final

/-- A row that was not held may be of another type, and is passed through then. -/
theorem leads_consider_pulled {bound : Nat}
    (collects : ∀ world, regime.Leads (At regime plan fed related (Taking keyed))
      (At regime plan fed related (Resting keyed)) (At regime plan fed related Anywhere) world
      regime.parts (collect regime.first plan first bound) (collect regime.second plan second bound)
      regime.RowPaired)
    {row partner : Row} (rows : regime.rows world row partner) :
    regime.Leads
      (At regime plan fed related fun phase state =>
        Taking keyed phase state ∧ state.lookahead? = none)
      (At regime plan fed related (Resting keyed)) (At regime plan fed related Anywhere) world
      regime.parts (consider regime.first plan first bound row)
      (consider regime.second plan second bound partner) regime.RowPaired := by
  cases own : row.type.same plan.inputType with
  | true =>
      exact leads_at _ (fun _ _ placed => taking_grouped placed.1)
        (leads_consider lawful groups paired collects rows own)
  | false =>
      unfold consider
      rw [← lawful.rows_type rows, own]
      exact leads_answer lawful (fun _ _ _ => at_imp fun _ _ placed => taking_rests placed.1)
        (.some rows)

/-- The aggregation is ready for the rows that it takes: by induction on the bound. -/
theorem leads_collect (bound : Nat) :
    regime.Leads (At regime plan fed related (Taking keyed))
      (At regime plan fed related (Resting keyed)) (At regime plan fed related Anywhere) world
      regime.parts (collect regime.first plan first bound) (collect regime.second plan second bound)
      regime.RowPaired := by
  induction bound generalizing world with
  | zero => exact leads_answer lawful (fun _ _ _ => at_imp fun _ _ => taking_rests) .none
  | succ bound induction =>
      rw [collect_succ, collect_succ]
      unfold takeRow
      rw [bind_assoc, bind_assoc]
      apply leads_own
      intro left right seen
      have rows := seen.own.1.lookahead
      have held := seen.own.1.held
      revert rows held
      cases holding : left.own.lookahead? with
      | none =>
          cases right.own.lookahead? with
          | some _ => exact fun impossible => by cases impossible
          | none =>
              intro _ _
              refine leads_at (fun phase state =>
                Taking keyed phase state ∧ state.lookahead? = none) ?_ ?_
              · rintro _ _ ⟨rfl, rfl⟩
                exact ⟨seen.own.2, holding⟩
              refine leads_bind lawful (leads_loosely (Node.pairs_pull lawful
                (twin_at_lasts lawful) paired)) ?_
              intro later row? partner? _ rows
              cases rows with
              | none => exact leads_end_of_input lawful groups paired
              | some rows =>
                  exact leads_consider_pulled lawful groups paired (fun _ => induction) rows
      | some row =>
          cases right.own.lookahead? with
          | none => exact fun impossible => by cases impossible
          | some partner =>
              rintro ⟨rows⟩ held
              dsimp only
              rw [bind_assoc, bind_assoc]
              refine leads_bind lawful (leads_own_change lawful (Grouped keyed)
                (fun _ _ => Twin.released) ?_) ?_
              · rintro _ _ ⟨rfl, rfl⟩ running
                exact (taking_grouped seen.own.2 running :)
              intro later _ _ within _
              rw [pure_bind, pure_bind]
              exact leads_consider lawful groups paired (fun _ => induction)
                (lawful.rows_later within rows) (held row rfl)

theorem leads_advance :
    regime.Leads
      (At regime plan fed related fun phase state =>
        phase.isActive = true ∧ Resting keyed phase state)
      (At regime plan fed related (Resting keyed)) (At regime plan fed related Anywhere) world
      regime.parts (advance regime.first plan first) (advance regime.second plan second)
      regime.RowPaired := by
  refine leads_bind lawful (leads_steady (leads_reading_at lawful paired (lawful.check world))) ?_
  intro later _ _ _ _
  apply leads_own
  intro left right seen
  have supplies : supply first left = supply second right := by
    unfold supply
    rw [paired.remaining seen.input]
    have rows := seen.own.1.lookahead
    revert rows
    generalize left.own.lookahead? = row?
    generalize right.own.lookahead? = partner?
    rintro (_ | _) <;> rfl
  rw [← seen.phase, supplies]
  split
  next => exact leads_ended lawful paired
  next between =>
    refine leads_at _ (fun _ _ same => ?_) (leads_collect lawful groups paired _)
    obtain ⟨rfl, rfl⟩ := same
    exact (seen.own.2.2 seen.own.2.1).resolve_left between

omit groups in
/-- Both forget what they hold, and close. -/
theorem leads_give_up :
    regime.Leads (At regime plan fed related Anywhere) (At regime plan fed related (Resting keyed))
      (At regime plan fed related (Resting keyed)) world False
      (do
        forget
        Node.abort first)
      (do
        forget
        Node.abort second) fun _ _ _ => True := by
  refine leads_bind lawful (leads_own_change lawful Anywhere
    (fun _ _ twin => { twin.released with key := rfl }) fun _ _ _ => trivial) ?_
  intro later _ _ _ _
  have closed : ∀ later company left right, regime.States (Node.Paired regime
      (Node.Within .closed (TwinAt regime plan fed Anywhere)) related) later company left right →
      At regime plan fed related (Resting keyed) later company left right :=
    fun _ _ _ _ held =>
      ⟨{ held.1 with own := ⟨held.1.own.2.1, rests_idle (by rw [held.1.own.1]; rfl)⟩ }, held.2⟩
  exact leads_imp (Node.leads_abort lawful (anywhere_kept lawful) paired) (fun _ _ _ => id) closed
    closed fun _ _ _ => id

theorem pairs_next :
    regime.Pairs (At regime plan fed related (Resting keyed)) world regime.parts
      (next regime.first plan first) (next regime.second plan second) regime.RowPaired := by
  have checks : regime.Leads (At regime plan fed related (Resting keyed))
      (At regime plan fed related fun phase state =>
        phase.isActive = true ∧ Resting keyed phase state)
      (At regime plan fed related (Resting keyed)) world regime.parts (Node.check .next)
      (Node.check .next) fun _ _ _ => True := by
    apply leads_own
    intro left right seen
    rw [← seen.phase]
    unfold Call.check
    split
    next legal =>
      refine leads_answer lawful (fun _ _ _ => at_imp ?_) trivial
      rintro _ _ ⟨rfl, rfl⟩
      exact ⟨legal, seen.own.2⟩
    next =>
      refine leads_at (Resting keyed) ?_ (leads_fail lawful rfl)
      rintro _ _ ⟨rfl, rfl⟩
      exact seen.own.2
  refine leads_bind lawful checks ?_
  intro later _ _ _ _
  have taps : regime.Pairs (At regime plan fed related fun phase state =>
      phase.isActive = true ∧ Resting keyed phase state) later regime.parts
      (CursorAction.inJournal (regime.first.tap "aggregate.next"))
      (CursorAction.inJournal (regime.second.tap "aggregate.next")) fun _ _ _ => True :=
    leads_steady (pairs_reading lawful (Node.lasting lawful (twin_at_lasts lawful) paired.lasting)
      (lawful.tap later "aggregate.next"))
  refine leads_bind lawful (leads_imp taps (fun _ _ _ => id) (fun _ _ _ _ => id)
    (fun _ _ _ _ => at_imp fun _ _ => And.right) fun _ _ _ => id) ?_
  intro last _ _ _ _
  exact leads_on_failure lawful (fun _ _ _ _ => states_journal)
    (fun _ _ => leads_give_up lawful paired)
    (leads_advance lawful groups paired)

theorem pairs_open_pass :
    regime.Pairs (At regime plan fed related (Resting keyed)) world False
      (openPass regime.first first) (openPass regime.second second) fun _ _ _ => True := by
  have resting : Node.Kept regime (TwinAt regime plan fed (Resting keyed)) := resting_kept lawful
  refine pairs_bind lawful (pairs_reading lawful (Node.lasting lawful resting.lasts paired.lasting)
    (lawful.tap world "aggregate.open")) ?_
  intro later _ _ _ _
  unfold Node.openPass
  simp only [bind_assoc]
  refine pairs_bind lawful (Node.pairs_check lawful .openPass) ?_
  intro last _ _ _ _
  refine pairs_bind lawful (Node.pairs_on_input lawful resting.lasts (paired.openPass last)) ?_
  intro final _ _ _ _
  refine leads_bind lawful (leads_phase lawful (fun phase _ => phase = .opening)
    .opening fun _ _ _ => rfl) ?_
  intro ended _ _ _ _
  refine leads_own_change lawful _ (fun left right twin => ?_) fun _ _ opening =>
    taking_rests (.inr ⟨opening, fun impossible => by cases impossible⟩)
  exact { twin with
    key := rfl
    sawInput := rfl
    accumulators := by rw [twin.accumulators]
    fed := groups.reset twin.fed }

omit groups in
theorem pairs_close :
    regime.Pairs (At regime plan fed related (Resting keyed)) world False (close first)
      (close second) fun _ _ _ => True := by
  have resting : Node.Kept regime (TwinAt regime plan fed (Resting keyed)) := resting_kept lawful
  unfold close Node.close
  simp only [bind_assoc]
  refine pairs_bind lawful (Node.pairs_check lawful .close) ?_
  intro later _ _ _ _
  have closes : regime.Leads (At regime plan fed related (Resting keyed))
      (At regime plan fed related fun phase _ => phase = .closed)
      (At regime plan fed related (Resting keyed)) later False (Node.finish first)
      (Node.finish second) fun _ _ _ => True :=
    leads_imp (Node.leads_finish lawful resting paired) (fun _ _ _ => id)
      (fun _ _ _ _ held => ⟨{ held.1 with own := ⟨held.1.own.2.1, held.1.own.1⟩ }, held.2⟩)
      (fun _ _ _ _ => Node.within_paired) fun _ _ _ => id
  refine leads_bind lawful closes ?_
  intro last _ _ _ _
  exact leads_own_change lawful _ (fun _ _ twin => { twin.released with key := rfl })
    fun _ _ closed => rests_idle (by rw [closed]; rfl)

omit groups in
theorem pairs_destroy :
    regime.Pairs (At regime plan fed related (Resting keyed)) world False (destroy first)
      (destroy second) fun _ _ _ => True := by
  refine leads_bind lawful (leads_own_change lawful Anywhere
    (fun _ _ => Twin.released) fun _ _ _ => trivial) ?_
  intro later _ _ _ _
  have destroyed : ∀ later company left right, regime.States (Node.Paired regime
      (Node.Within .destroyed (TwinAt regime plan fed Anywhere)) related) later company left right →
      At regime plan fed related (Resting keyed) later company left right :=
    fun _ _ _ _ held =>
      ⟨{ held.1 with own := ⟨held.1.own.2.1, rests_idle (by rw [held.1.own.1]; rfl)⟩ }, held.2⟩
  exact leads_imp (Node.leads_destroy lawful (anywhere_kept lawful) paired) (fun _ _ _ => id)
    destroyed destroyed fun _ _ _ => id

/-- Aggregations over related inputs keep what they hold related, call by call. -/
theorem protocol_paired :
    regime.Paired (protocol regime.first plan first) (protocol regime.second plan second)
      (Node.Paired regime (TwinAt regime plan fed (Resting keyed)) related) := by
  have resting : Node.Kept regime (TwinAt regime plan fed (Resting keyed)) := resting_kept lawful
  exact {
    lasting := Node.lasting lawful resting.lasts paired.lasting
    phase := Node.Paired.phase
    remaining := by
      intro world left right held
      change remaining first left = remaining second right
      unfold remaining supply
      rw [paired.remaining held.input, held.phase]
      have rows := held.own.1.lookahead
      revert rows
      generalize left.own.lookahead? = row?
      generalize right.own.lookahead? = partner?
      rintro (_ | _) <;> rfl
    passes := fun held => paired.passes held.input
    openPass := fun _ => pairs_open_pass lawful groups paired
    next := fun _ => pairs_next lawful groups paired
    close := fun _ => pairs_close lawful paired
    destroy := fun _ => pairs_destroy lawful paired
    openBindings := fun _ => Node.pairs_passed_on lawful resting paired.openBindings
    nextBindings := fun _ => Node.pairs_next_bindings lawful resting paired
    closeBindings := fun _ => Node.pairs_passed_on lawful resting paired.closeBindings
    cancelBindings := by
      intro world company bindings left right held
      have loose := Node.cancel_bindings_paired (anywhere_kept lawful) paired bindings
        ({ left.1 with own := { left.1.own with lookahead? := none, key := [] } }, left.2)
        ({ right.1 with own := { right.1.own with lookahead? := none, key := [] } }, right.2)
        ⟨{ held.1 with own := ⟨{ held.1.own.1.released with key := rfl }, trivial⟩ }, held.2⟩
      refine ⟨{ loose.1 with own := ⟨loose.1.own.1, rests_idle ?_⟩ }, loose.2⟩
      change (if left.1.phase = .destroyed then Phase.destroyed else .closed).isActive = false
      split <;> rfl }

end Collecting

end Grouping

end QueryExec
