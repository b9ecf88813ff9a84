import QueryExec.Proofs.Accounts
import QueryExec.Proofs.Census.Trees

/-!
Where the calls of `next` leave an aggregation. Its input records what comes up; the aggregation
stands in the place that the account of the log names, and keeps what belongs to that place: between
groups nothing but a held row, within a group its key and what came of its rows. One turn of the
collection makes one entry of the account, so a call ends in a place again, or behind a complete
pass.
-/

namespace QueryExec

open QueryExec.Action

namespace Grouping

section Absorbing

variable {catalog : Catalog} {plan : GroupingPlan} {fresh : List Accumulator} {group : Group}
  {row : Row} {key : List Datum} {accumulators : List Accumulator}

theorem Group.absorbed_first {run : Run} (begun : Run.begin plan.keys fresh row.view = .ok run) :
    Group.Absorbed catalog plan fresh ⟨row, []⟩ run.key run.accumulators := by
  obtain ⟨key, keyed, begun⟩ := ok_of_bind begun
  obtain ⟨next, taken, same⟩ := ok_of_bind begun
  cases same
  refine ⟨keyed, ?_, nofun⟩
  change Run.absorb row.view plan.keys fresh >>= _ = _
  rw [taken]
  rfl

theorem Group.Absorbed.add (absorbed : group.Absorbed catalog plan fresh key accumulators)
    (equal : Run.matchesKey catalog row.view 0 key plan.inputType.columns = .ok true)
    {next : List Accumulator} (taken : Run.absorb row.view plan.keys accumulators = .ok next) :
    (group.add row).Absorbed catalog plan fresh key next where
  keyed := absorbed.keyed
  taken := by
    change (group.rows ++ [row]).foldlM _ fresh = _
    rw [List.foldlM_append, absorbed.taken]
    change Run.absorb row.view plan.keys accumulators >>= _ = _
    rw [taken]
    rfl
  alike := by
    intro other member
    rcases List.mem_append.mp member with earlier | last
    · exact absorbed.alike other earlier
    · rw [List.mem_singleton.mp last]
      exact equal

/-- Accumulators that took rows start afresh as before: by induction on the rows. -/
theorem absorb_all_reset {rows : List Row} {next : List Accumulator}
    (taken : rows.foldlM (fun before row => Run.absorb row.view plan.keys before) accumulators =
      .ok next) : next.map Accumulator.reset = accumulators.map Accumulator.reset := by
  induction rows generalizing accumulators with
  | nil =>
      cases taken
      rfl
  | cons row rest induction =>
      rw [List.foldlM_cons] at taken
      obtain ⟨middle, first, taken⟩ := ok_of_bind taken
      exact (induction taken).trans (Run.absorb_reset first)

theorem Group.Absorbed.makes (absorbed : group.Absorbed catalog plan fresh key accumulators)
    (id : Nat) : group.Makes catalog plan fresh
      (.stored id plan.outputType (key ++ accumulators.map Accumulator.result)) :=
  ⟨id, key, accumulators, absorbed, rfl⟩

end Absorbing

variable (catalog : Catalog) (plan : GroupingPlan) (fresh : List Accumulator)

/-- What an aggregation keeps at each place, and in which phase it is. -/
inductive Keeping : Place → Phase → GroupingState → Prop
  | between {held? : Option Row} {sawInput : Bool} :
      Keeping (.between held?) .opening ⟨[], fresh, held?, sawInput⟩
  | within {group : Group} {key : List Datum} {accumulators : List Accumulator} {sawInput : Bool}
      (absorbed : group.Absorbed catalog plan fresh key accumulators) :
      Keeping (.within group) .running ⟨key, accumulators, none, sawInput⟩
  | done {sawInput : Bool} : Keeping .done .closing ⟨[], fresh, none, sawInput⟩

/-- The account of a log, and the aggregation as it says. -/
structure Stands (log : List Entry) (groups : List Group) (place : Place) (phase : Phase)
    (state : GroupingState) : Prop where
  account : Account catalog plan fresh log groups place
  keeping : Keeping catalog plan fresh place phase state
  saw : state.sawInput = true ↔ declared plan.inputType log ≠ []

/-- The input is closed behind the last row and active before. -/
def Place.Leaves : Place → Phase → Prop
  | done, phase => phase = .closed
  | _, phase => phase.isActive = true

theorem Place.Leaves.active {place : Place} {phase : Phase} (leaves : place.Leaves phase)
    (unfinished : place ≠ .done) : phase.isActive = true := by
  cases place with
  | between | within => exact leaves
  | done => exact absurd rfl unfinished

theorem Place.Leaves.present {place : Place} {phase : Phase} (leaves : place.Leaves phase) :
    phase ≠ .destroyed := by
  cases place with
  | between | within => exact Phase.present_of_active leaves
  | done =>
      rw [show phase = .closed from leaves]
      nofun

/-- What a whole pass gave: the row of each group in time, and over no rows the row of empty values
if there are no keys. -/
structure Completed (log : List Entry) (groups : List Group) : Prop where
  rows : declared plan.inputType log = groups.flatMap Group.rows
  timely : GivenInTime catalog plan fresh log groups
  given : groups ≠ [] ∨ plan.keys ≠ 0 →
    List.Forall₂ (Group.Makes catalog plan fresh) groups (made plan.inputType log)
  vacant : groups = [] → plan.keys = 0 →
    ∃ row, MakesVacant plan fresh row ∧ made plan.inputType log = [row]

variable {catalog plan fresh}

theorem Keeping.active {place : Place} {phase : Phase} {state : GroupingState}
    (keeping : Keeping catalog plan fresh place phase state) : phase.isActive = true := by
  cases keeping <;> rfl

/-- Behind the last row the phase says so. -/
theorem Keeping.closing_iff {place : Place} {phase : Phase} {state : GroupingState}
    (keeping : Keeping catalog plan fresh place phase state) :
    phase = .closing ↔ place = .done := by
  cases keeping <;> simp

section Ends

variable {log : List Entry} {groups : List Group} {place : Place}

theorem Account.completed (account : Account catalog plan fresh log groups place)
    (here : place = .done) : Completed catalog plan fresh log groups where
  rows := by
    rw [account.declared_rows, here]
    exact List.append_nil _
  timely := account.given_in_time
  given := by
    intro some_given
    rcases account.made_rows with given | ⟨none_finished, row, makes, _⟩
    · exact given
    · rcases some_given with finished | keyed
      · exact absurd none_finished finished
      · exact absurd makes.1 keyed
  vacant := fun none_finished _ => account.made_vacant here none_finished

/-- A pass over no rows of the input type gives nothing if there are keys. -/
theorem Account.completed_empty (account : Account catalog plan fresh log groups place)
    (here : place = .between none) (keyed : plan.keys ≠ 0) :
    Completed catalog plan fresh (.ended :: log) groups where
  rows := by
    change declared plan.inputType log = _
    rw [account.declared_rows, here]
    exact List.append_nil _
  timely := account.given_in_time.later [.ended]
  given := fun _ => account.made_unfinished (by rw [here]; nofun)
  vacant := fun _ unkeyed => absurd unkeyed keyed

end Ends

/-- Reading rows leaves the cursor and, in the journal, remembers what the rows mean. -/
theorem ensures_reading {cursor result : Type} {state : cursor} {engine : Engine}
    {census : Census} {action : Action Journal result}
    (keeps : Keeps (Journal.Faithful census) action)
    (covered : engine.Covered (fun _ => True) census) :
    Ensures (state, engine) (CursorAction.inJournal action) fun _ after =>
      ∃ later, after = (state, later) ∧ later.Covered (fun _ => True) census := by
  have kept := keeps engine.journal covered.faithful
  refine CursorAction.agree_in_journal (agree_weaken kept ?_ fun _ _ _ => trivial)
  exact fun _ _ faithful => ⟨_, rfl, covered.with_journal faithful⟩

/-- An engine that a census covers, with a context in which nothing was cancelled yet. -/
def Undisturbed (context : Context) (census : Census) (engine : Engine) : Prop :=
  engine.journal.Sound context census ∧ engine.Covered (fun _ => True) census

theorem undisturbed_readable (context : Context) (census : Census) :
    Engine.Readable context census (Undisturbed context census) :=
  ⟨And.left, fun undisturbed sound => ⟨sound, undisturbed.2.with_journal sound.faithful⟩⟩

/-- Some context is not cancelled, so what rows mean can be told in every engine. -/
theorem some_undisturbed {census : Census} {engine : Engine}
    (covered : engine.Covered (fun _ => True) census) :
    ∃ spare, Undisturbed spare census engine := by
  obtain ⟨spare, uncancelled⟩ := engine.journal.some_context_uncancelled
  exact ⟨spare, ⟨uncancelled, covered.faithful⟩, covered⟩

section Collecting

variable {input : Type} {inner : Protocol input} {below : input → Nat} {lists : Coverage input}
  {context : Context} {census : Census} {node : State (Recorded input)} {engine : Engine}
  {groups : List Group} {place : Place} {row : Row} {bound : Nat}

/-- What is known of the input and the engine before the last row. -/
structure Ready (inner : Protocol input) (lists : Coverage input) (census : Census)
    (node : State (Recorded input)) (engine : Engine) : Prop where
  active : (inner.phase node.input.cursor).isActive = true
  listed : lists census node.input.cursor
  covered : engine.Covered (fun _ => True) census

variable (context plan fresh inner) in
/-- Where a call of `next` leaves the aggregation: with a row, in a place as before; without one,
behind a complete pass. -/
def Answered : Option Row → State (Recorded input) × Engine → Prop
  | some row, after => ∃ groups place,
      Stands context.catalog plan fresh (.given row :: after.1.input.log) groups place
        after.1.phase after.1.own ∧
      place.Leaves (inner.phase after.1.input.cursor)
  | none, after => after.1.phase = .closed ∧
      (after.1.own.sawInput = true ↔ declared plan.inputType after.1.input.log ≠ []) ∧
      ∃ groups, Completed context.catalog plan fresh after.1.input.log groups

variable (context plan fresh inner below lists) in
/-- With this many turns the collection ends in a place. -/
def Continues (bound : Nat) : Prop :=
  ∀ {census : Census} {node : State (Recorded input)} {engine : Engine} {groups : List Group}
    {place : Place},
    Stands context.catalog plan fresh node.input.log groups place node.phase node.own →
    place ≠ .done → RowListed census node.own.lookahead? →
    Ready inner lists census node engine →
    below node.input.cursor + (if node.own.lookahead?.isSome then 1 else 0) < bound →
    Ensures (node, engine) (collect context plan inner.recorded bound)
      (Answered plan fresh inner context)

/-- A row that begins a group. -/
theorem consider_begins (settled : fresh.map Accumulator.reset = fresh)
    (continues : Continues plan fresh inner below lists context bound)
    (account : Account context.catalog plan fresh node.input.log groups (.within ⟨row, []⟩))
    (opening : node.phase = .opening) (empty : node.own.lookahead? = none)
    (unused : node.own.accumulators = fresh) (own : row.type.same plan.inputType = true)
    (listed : row.Listed census) (ready : Ready inner lists census node engine)
    (enough : below node.input.cursor < bound) :
    Ensures (node, engine) (consider context plan inner.recorded bound row)
      (Answered plan fresh inner context) := by
  obtain ⟨phase, bindings, ⟨key, accumulators, lookahead?, sawInput⟩, rest⟩ := node
  cases opening
  cases empty
  cases unused
  obtain ⟨spare, undisturbed⟩ := some_undisturbed ready.covered
  refine consider_begins_run (undisturbed_readable spare census) listed own undisturbed
    (fun _ _ _ => trivial) fun run reached begun undisturbed => ?_
  rw [settled] at begun
  have still : Ready inner lists census
      (⟨.running, bindings, ⟨run.key, run.accumulators, none, true⟩, rest⟩ :
        State (Recorded input)) reached :=
    ⟨ready.active, ready.listed, undisturbed.2⟩
  refine continues ⟨account, .within (Group.absorbed_first begun), ?_⟩ nofun nofun still
    (by simpa using enough)
  simp [account.declared_rows, Place.rows, Group.rows]

/-- A row that comes up within a group joins it or ends it. -/
theorem consider_within (settled : fresh.map Accumulator.reset = fresh)
    (continues : Continues plan fresh inner below lists context bound) {log : List Entry}
    {group : Group} (pulled : node.input.log = .pulled row :: log)
    (account : Account context.catalog plan fresh log groups (.within group))
    (keeping : Keeping context.catalog plan fresh (.within group) node.phase node.own)
    (own : row.type.same plan.inputType = true) (listed : row.Listed census)
    (ready : Ready inner lists census node engine) (enough : below node.input.cursor < bound) :
    Ensures (node, engine) (consider context plan inner.recorded bound row)
      (Answered plan fresh inner context) := by
  obtain ⟨phase, bindings, ⟨key, accumulators, lookahead?, sawInput⟩, rest⟩ := node
  dsimp only at pulled keeping enough
  cases keeping with
  | within absorbed =>
  have some_declared : declared plan.inputType rest.log ≠ [] := by
    simp [pulled, declared, own]
  obtain ⟨spare, undisturbed⟩ := some_undisturbed ready.covered
  refine consider_meets_run (undisturbed_readable spare census) listed own undisturbed
    (fun _ _ _ => trivial) (fun _ _ _ _ => trivial)
    (fun next reached compared taken undisturbed => ?_) fun reached compared _ => ?_
  · have joined : Account context.catalog plan fresh rest.log groups (.within (group.add row)) :=
      pulled ▸ account.joined own
    have still : Ready inner lists census
        (⟨.running, bindings, ⟨key, next, none, true⟩, rest⟩ : State (Recorded input)) reached :=
      ⟨ready.active, ready.listed, undisturbed.2⟩
    refine continues ⟨joined, .within (absorbed.add compared taken), ?_⟩ (by simp)
      row_listed_none still (by simpa using enough)
    exact ⟨fun _ => some_declared, fun _ => rfl⟩
  · rw [absorb_all_reset absorbed.taken, settled]
    have ends : group.EndedBy context.catalog plan row := ⟨own, key, absorbed.keyed, compared⟩
    refine ⟨groups ++ [group], .between (some row),
      ⟨pulled ▸ account.turned ends (absorbed.makes _), .between, ?_⟩, ready.active⟩
    exact ⟨fun _ => some_declared, fun _ => rfl⟩

/-- Over a closed input the end of the pass changes the phase and nothing else. -/
theorem finish_ended (closed : inner.phase node.input.cursor = .closed) :
    Ensures (node, engine) (Node.finish inner.recorded) fun _ after =>
      after = ({ node with phase := .closed }, engine) := by
  refine agree_reaching ({ node with phase := .closed }, engine)
    (Node.agree_set_phase .closed rfl) fun _ => ?_
  refine Node.agree_on_input (Protocol.agree_close_active rfl (fun active => ?_) fun _ => rfl)
  have active : (inner.phase node.input.cursor).isActive = true := active
  rw [closed] at active
  cases active

/-- At the end of the input the open group is given, or the row over no rows, or nothing. -/
theorem end_of_input_answers (settled : fresh.map Accumulator.reset = fresh) {log : List Entry}
    (ended : node.input.log = .ended :: log)
    (stands : Stands context.catalog plan fresh log groups place node.phase node.own)
    (unfinished : place ≠ .done) (empty : node.own.lookahead? = none)
    (closed : inner.phase node.input.cursor = .closed) :
    Ensures (node, engine) (endOfInput plan inner.recorded)
      (Answered plan fresh inner context) := by
  obtain ⟨phase, bindings, ⟨key, accumulators, lookahead?, sawInput⟩, rest⟩ := node
  obtain ⟨account, keeping, saw⟩ := stands
  dsimp only at ended keeping saw empty closed
  have unchanged : declared plan.inputType rest.log = declared plan.inputType log := by
    rw [ended]
    rfl
  have declared_rows := account.declared_rows
  cases keeping with
  | done => exact absurd rfl unfinished
  | within absorbed =>
      have seen : sawInput = true := saw.mpr (by simp [declared_rows, Place.rows, Group.rows])
      cases seen
      refine end_gives_run ?_
      rw [absorb_all_reset absorbed.taken, settled]
      refine ⟨_, .done, ⟨ended ▸ account.closed (absorbed.makes _), .done, ?_⟩, closed⟩
      exact saw.trans (by rw [← unchanged]; rfl)
  | between =>
      cases empty
      obtain rfl := account.unbegun rfl
      have none_declared : declared plan.inputType log = [] := declared_rows
      have unseen : sawInput = false := by
        cases sawInput with
        | false => rfl
        | true => exact absurd none_declared (saw.mp rfl)
      cases unseen
      have still_unseen : false = true ↔ declared plan.inputType rest.log ≠ [] := by
        simp [unchanged, none_declared]
      by_cases unkeyed : plan.keys = 0
      · exact end_gives_vacant unkeyed ⟨_, .done,
          ⟨ended ▸ account.vacant ⟨unkeyed, _, rfl⟩, .done, still_unseen⟩, closed⟩
      · refine end_finishes unkeyed (agree_bind (finish_ended closed) ?_)
        intro _ _ same
        subst same
        exact agree_pure none ⟨rfl, still_unseen, [], ended ▸ account.completed_empty rfl unkeyed⟩

/-- What the next row of the input is, and what is left of the input then. -/
def Came (inner : Protocol input) (below : input → Nat) (lists : Coverage input)
    (node : State (Recorded input)) (row? : Option Row) (after : State (Recorded input) × Engine) :
    Prop :=
  ∃ reached census,
    after.1 = { node with input := ⟨reached, .ofPull row? :: node.input.log⟩ } ∧
      lists census reached ∧ after.2.Covered (fun _ => True) census ∧ RowListed census row? ∧
      match row? with
      | some _ => (inner.phase reached).isActive = true ∧ below reached < below node.input.cursor
      | none => inner.phase reached = .closed

theorem take_row_comes (dwindles : inner.Dwindles below)
    (enrolling : inner.Enrolling (fun _ => True) lists)
    (ready : Ready inner lists census node engine) (empty : node.own.lookahead? = none) :
    Ensures (node, engine) (takeRow inner.recorded) (Came inner below lists node) := by
  apply CursorAction.agree_state
  dsimp only
  rw [empty]
  apply CursorAction.agree_state
  rw [if_pos (show (inner.recorded.phase node.input).isActive = true from ready.active)]
  have enrols := enrolling.next census (node.input.cursor, engine) ⟨ready.listed, ready.covered⟩
  have both := agree_both (dwindles.next (node.input.cursor, engine)) enrols
  refine Node.agree_on_input (agree_weaken (Recorded.next_ensures
    (agree_weaken both (fun _ _ => id) fun _ _ _ => trivial)) ?_ fun _ _ => id)
  intro row? after ends
  obtain ⟨⟨reached, log⟩, engine⟩ := after
  obtain ⟨⟨lowered, later, _, ⟨listed, covered⟩, given⟩, rfl⟩ := ends
  refine ⟨reached, later, rfl, listed, covered, given, ?_⟩
  cases row? with
  | some row => exact lowered
  | none => exact lowered.1

/-- The turn that takes the held row begins a group with it. -/
theorem turn_held (settled : fresh.map Accumulator.reset = fresh)
    (continues : Continues plan fresh inner below lists context bound)
    (stands : Stands context.catalog plan fresh node.input.log groups place node.phase node.own)
    (holding : node.own.lookahead? = some row) (listed : row.Listed census)
    (ready : Ready inner lists census node engine) (enough : below node.input.cursor < bound) :
    Ensures (node, engine) (collect context plan inner.recorded (bound + 1))
      (Answered plan fresh inner context) := by
  rw [collect_succ]
  apply agree_surely (take_held holding)
  intro _ _ ends
  obtain ⟨rfl, rfl⟩ := ends
  obtain ⟨phase, bindings, ⟨key, accumulators, lookahead?, sawInput⟩, rest⟩ := node
  obtain ⟨account, keeping, saw⟩ := stands
  dsimp only at account keeping holding
  cases keeping with
  | within | done => cases holding
  | between =>
      cases holding
      obtain ⟨_, _, _, _, _, _, own, _⟩ := account.held_row rfl
      exact consider_begins settled continues account.resumed rfl rfl rfl own listed
        ⟨ready.active, ready.listed, ready.covered⟩ enough

/-- The turn in which a row comes up while none is held. -/
theorem turn_pulled (settled : fresh.map Accumulator.reset = fresh)
    (continues : Continues plan fresh inner below lists context bound) {log : List Entry}
    (pulled : node.input.log = .pulled row :: log)
    (stands : Stands context.catalog plan fresh log groups place node.phase node.own)
    (unfinished : place ≠ .done) (empty : node.own.lookahead? = none) (listed : row.Listed census)
    (ready : Ready inner lists census node engine) (enough : below node.input.cursor < bound) :
    Ensures (node, engine) (consider context plan inner.recorded bound row)
      (Answered plan fresh inner context) := by
  obtain ⟨account, keeping, saw⟩ := stands
  cases own : row.type.same plan.inputType with
  | false =>
      unfold consider
      rw [own]
      have here : place = .between none ∨ ∃ group, place = .within group := by
        cases place with
        | between held? =>
            generalize node.own = state at keeping empty
            generalize node.phase = phase at keeping
            cases keeping
            cases empty
            exact .inl rfl
        | within group => exact .inr ⟨group, rfl⟩
        | done => exact absurd rfl unfinished
      refine agree_pure (some row) ⟨groups, place, ⟨?_, keeping, ?_⟩, ?_⟩
      · rw [pulled]
        exact account.passed here own
      · simpa [pulled, declared, own] using saw
      · rcases here with rfl | ⟨_, rfl⟩ <;> exact ready.active
  | true =>
      obtain ⟨phase, bindings, ⟨key, accumulators, lookahead?, sawInput⟩, rest⟩ := node
      dsimp only at pulled keeping empty
      cases keeping with
      | done => exact absurd rfl unfinished
      | within absorbed =>
          exact consider_within settled continues pulled account (.within absorbed) own listed
            ready enough
      | between =>
          cases empty
          have begun := account.begun own
          rw [← pulled] at begun
          exact consider_begins settled continues begun rfl rfl rfl own listed ready enough

/-- The collection ends in a place: by induction on its turns. -/
theorem collect_continues (settled : fresh.map Accumulator.reset = fresh)
    (dwindles : inner.Dwindles below) (enrolling : inner.Enrolling (fun _ => True) lists)
    (bound : Nat) : Continues plan fresh inner below lists context bound := by
  induction bound with
  | zero => exact fun _ _ _ _ enough => absurd enough (Nat.not_lt_zero _)
  | succ bound continues =>
  intro census node engine groups place stands unfinished held ready enough
  cases holding : node.own.lookahead? with
  | some row =>
      have fewer : below node.input.cursor < bound := by
        rw [holding] at enough
        exact Nat.lt_of_succ_lt_succ enough
      exact turn_held settled continues stands holding (held row holding) ready fewer
  | none =>
      rw [collect_succ]
      apply agree_bind (take_row_comes dwindles enrolling ready holding)
      intro row? after ends
      obtain ⟨_, engine⟩ := after
      obtain ⟨reached, later, rfl, listed, covered, given, left⟩ := ends
      cases row? with
      | none => exact end_of_input_answers settled rfl stands unfinished holding left
      | some row =>
          have fewer : below reached < bound := by
            rw [holding] at enough
            exact Nat.lt_of_lt_of_le left.2 (Nat.le_of_lt_succ enough)
          exact turn_pulled settled continues rfl stands unfinished holding (given row rfl)
            ⟨left.1, listed, covered⟩ fewer

/-- One call of `next` between two calls of any sort. -/
theorem next_answers (settled : fresh.map Accumulator.reset = fresh)
    (dwindles : inner.Dwindles below) (enrolling : inner.Enrolling (fun _ => True) lists)
    (stands : Stands context.catalog plan fresh node.input.log groups place node.phase node.own)
    (leaves : place.Leaves (inner.phase node.input.cursor))
    (held : RowListed census node.own.lookahead?) (listed : lists census node.input.cursor)
    (covered : engine.Covered (fun _ => True) census) :
    Ensures (node, engine) (next context plan inner.recorded)
      (Answered plan fresh inner context) := by
  apply agree_bind (CursorAction.agree_state (ensures_check .next node.phase))
  intro _ _ ends
  obtain ⟨rfl, active⟩ := ends
  apply agree_bind (ensures_reading (keeps_tap context "aggregate.next") covered)
  intro _ _ ends
  obtain ⟨tapped, rfl, covered⟩ := ends
  apply ensures_on_failure
  apply agree_bind (ensures_reading (keeps_check_cancelled context) covered)
  intro _ _ ends
  obtain ⟨checked, rfl, covered⟩ := ends
  apply CursorAction.agree_state
  split
  next closing =>
    obtain rfl := stands.keeping.closing_iff.mp closing
    apply agree_bind (finish_ended leaves)
    intro _ _ same
    subst same
    exact agree_pure none ⟨rfl, stands.saw, groups, stands.account.completed rfl⟩
  next collecting =>
    have unfinished : place ≠ .done := fun same =>
      collecting (stands.keeping.closing_iff.mpr same)
    refine collect_continues settled dwindles enrolling _ stands unfinished held
      ⟨leaves.active unfinished, listed, covered⟩ ?_
    have most := dwindles.bounded node.input.cursor
    change _ < inner.remaining node.input.cursor +
      (if node.own.lookahead?.isSome then 1 else 0) + 1
    omega

end Collecting

end Grouping

end QueryExec
