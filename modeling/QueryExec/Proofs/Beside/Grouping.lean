import QueryExec.Proofs.Beside.Operators
import QueryExec.Proofs.Cursor.Grouped

/-!
Aggregations beside each other. Both have the same key and the same accumulators and hold rows that
stand for each other, so they compare, absorb and give rows alike.
-/

namespace QueryExec

open QueryExec.Action QueryExec.Correspondence

namespace Grouping

variable {World mine yours : Type} [Preorder World] {corr : Correspondence World}
  {related : World → mine → yours → Prop} {world : World} {first : Protocol mine}
  {second : Protocol yours} {context : Context} {plan : GroupingPlan}

/-- What two aggregations keep. -/
structure Beside (corr : Correspondence World) (world : World) (left right : GroupingState) :
    Prop where
  key : left.key = right.key
  accumulators : left.accumulators = right.accumulators
  sawInput : left.sawInput = right.sawInput
  lookahead : corr.RowsAlike world left.lookahead? right.lookahead?

/-- Two aggregations over related inputs, in engines that correspond. -/
abbrev BesideStates (corr : Correspondence World) (related : World → mine → yours → Prop) :
    World → State mine × Engine → State yours × Engine → Prop :=
  corr.States (Node.Beside corr (Beside corr) related)

omit [Preorder World] in
theorem rows_alike_length {row? partner? : Option Row} (rows : corr.RowsAlike world row? partner?) :
    row?.isSome = partner?.isSome := by
  cases rows <;> rfl

section Steps

variable (lawful : corr.Lawful context)

include lawful

theorem rows_alike_enduring : Enduring corr.RowsAlike :=
  option_enduring lawful.rows_later

theorem beside_enduring : Enduring (Beside corr) :=
  fun _ _ _ _ grown held =>
    { held with lookahead := rows_alike_enduring lawful _ _ _ _ grown held.lookahead }

/-- Feeding corresponding rows: by induction on the accumulators. -/
theorem absorb_from_alike {row partner : Row} (rows : corr.rows world row partner) (column : Nat)
    (accumulators : List Accumulator) {left right : Engine}
    (engines : corr.engines world left right) :
    ∃ outcome fed journal other later,
      absorbFrom row column accumulators left.journal = (outcome, fed, journal) ∧
      absorbFrom partner column accumulators right.journal = (outcome, fed, other) ∧
      world ≤ later ∧ corr.engines later { left with journal } { right with journal := other } := by
  induction accumulators generalizing world column left right with
  | nil => exact ⟨_, _, _, _, world, rfl, rfl, le_rfl, engines⟩
  | cons accumulator rest induction =>
      have read := lawful.read rows column left right engines
      change EndLater corr.engines world _
        (((row.read column).run left.journal).1,
          { left with journal := ((row.read column).run left.journal).2 })
        (((partner.read column).run right.journal).1,
          { right with journal := ((partner.read column).run right.journal).2 }) at read
      unfold absorbFrom
      revert read
      rcases (row.read column).run left.journal with ⟨interrupt | value, after⟩ <;>
        rcases (partner.read column).run right.journal with ⟨same | partnerValue, last⟩
      · rintro ⟨rfl, later, grown, engines⟩
        exact ⟨_, _, _, _, later, rfl, rfl, grown, engines⟩
      · exact False.elim
      · exact False.elim
      rintro ⟨later, grown, engines, rfl⟩
      dsimp only
      cases accumulator.input value with
      | error cause => exact ⟨_, _, _, _, later, rfl, rfl, grown, engines⟩
      | ok next =>
          obtain ⟨outcome, fed, journal, other, final, ran, went, further, engines⟩ :=
            induction (lawful.rows_later _ _ _ _ grown rows) (column + 1) engines
          dsimp only at ran went ⊢
          rw [ran, went]
          exact ⟨_, _, _, _, final, rfl, rfl, le_trans grown further, engines⟩

omit lawful in
theorem run_absorb {row : Row} {keys : Nat} {pair : State mine × Engine}
    {outcome : Except Interrupt Unit} {fed : List Accumulator} {journal : Journal}
    (ran : absorbFrom row keys pair.1.own.accumulators pair.2.journal = (outcome, fed, journal)) :
    (absorb keys row).run pair =
      (outcome, { pair.1 with own := { pair.1.own with accumulators := fed } },
        { pair.2 with journal }) := by
  change ((absorbFrom row keys pair.1.own.accumulators pair.2.journal).1,
    ({ pair.1 with own := { pair.1.own with accumulators :=
        (absorbFrom row keys pair.1.own.accumulators pair.2.journal).2.1 } } : State mine),
    ({ pair.2 with journal :=
        (absorbFrom row keys pair.1.own.accumulators pair.2.journal).2.2 } : Engine)) = _
  rw [ran]

theorem correspond_absorb {row partner : Row} (rows : corr.rows world row partner) (keys : Nat)
    (enduring : Enduring related) :
    Correspond (BesideStates corr related) world (absorb keys row) (absorb keys partner)
      fun _ _ _ => True := by
  intro left right held
  obtain ⟨beside, engines⟩ := held
  obtain ⟨outcome, fed, journal, other, later, ran, went, grown, engines⟩ :=
    absorb_from_alike lawful rows keys left.1.own.accumulators engines
  have fedBeside : Node.Beside corr (Beside corr) related later
      { left.1 with own := { left.1.own with accumulators := fed } }
      { right.1 with own := { right.1.own with accumulators := fed } } :=
    have further := Node.beside_enduring lawful (beside_enduring lawful) enduring _ _ _ _ grown
      beside
    { further with own := { further.own with accumulators := rfl } }
  rw [run_absorb ran, run_absorb (beside.own.accumulators ▸ went)]
  cases outcome with
  | ok value => exact ⟨later, grown, ⟨fedBeside, engines⟩, trivial⟩
  | error interrupt => exact ⟨rfl, later, grown, fedBeside, engines⟩

/-- Both compare the key of a row alike: by induction on the key. -/
theorem correspond_same_key {row partner : Row} (rows : corr.rows world row partner)
    (catalog : Catalog) (column : Nat) (key : List Datum) (types : List ColumnType) :
    Correspond corr.engines world (Engine.inJournal (sameKey catalog row column key types))
      (Engine.inJournal (sameKey catalog partner column key types)) fun _ => Eq := by
  induction key generalizing world column types with
  | nil => exact reading_pure true
  | cons current key induction =>
      cases types with
      | nil => exact reading_pure true
      | cons type types =>
          refine reading_bind (lawful.read rows column) fun later value grown => ?_
          split
          · exact induction (lawful.rows_later _ _ _ _ grown rows) (column + 1) types
          · exact reading_pure false

end Steps

section Collecting

variable (lawful : corr.Lawful context) (protocols : corr.Protocols first second related)

include lawful protocols

/-- What both read through the journal. -/
theorem correspond_reads {result : Type} {action acting : Action Journal result}
    (correspond : Correspond corr.engines world (Engine.inJournal action)
      (Engine.inJournal acting) fun _ => Eq) :
    Correspond (BesideStates corr related) world (CursorAction.inJournal action)
      (CursorAction.inJournal acting) fun _ => Eq :=
  Node.correspond_reading lawful (beside_enduring lawful) protocols correspond

theorem correspond_start_group {row partner : Row} (rows : corr.rows world row partner) :
    Correspond (BesideStates corr related) world (startGroup plan row) (startGroup plan partner)
      fun _ _ _ => True := by
  refine correspond_bind (Node.correspond_change_own fun _ _ held => { held with key := rfl })
    fun later _ _ grown _ => ?_
  have rows := lawful.rows_later _ _ _ _ grown rows
  refine correspond_bind (correspond_reads lawful protocols (reading_map _ fun _ further column =>
    lawful.read (lawful.rows_later _ _ _ _ further rows) column)) ?_
  rintro last key _ further rfl
  refine correspond_bind (Node.correspond_change_own fun _ _ held =>
    { held with key := rfl, accumulators := by rw [held.accumulators] })
    fun final _ _ beyond _ => ?_
  exact correspond_absorb lawful
    (lawful.rows_later _ _ _ _ (le_trans further beyond) rows) plan.keys protocols.enduring

theorem correspond_emit_group :
    Correspond (BesideStates corr related) world (emitGroup plan) (emitGroup plan) corr.rows := by
  apply correspond_state
  intro left right held
  dsimp only
  rw [held.own.key, held.own.accumulators]
  refine correspond_bind (Node.correspond_change_own fun _ _ held =>
    { held with key := rfl, accumulators := by rw [held.accumulators] }) fun later _ _ _ _ => ?_
  exact correspond_in_engine (Node.beside_enduring lawful (beside_enduring lawful)
    protocols.enduring) (lawful.new_row later plan.outputType _)

/-- The row that both give at last in a pass, then nothing more. -/
theorem correspond_end_of_input :
    Correspond (BesideStates corr related) world (endOfInput plan first) (endOfInput plan second)
      corr.RowsAlike := by
  apply correspond_state
  intro left right held
  dsimp only
  rw [held.own.sawInput, held.own.accumulators]
  split
  · refine correspond_bind (Node.correspond_set_phase .closing) fun later _ _ _ _ => ?_
    exact correspond_bind (correspond_emit_group lawful protocols) fun _ _ _ _ made =>
      correspond_pure (.some made)
  split
  · refine correspond_bind (Node.correspond_set_phase .closing) fun later _ _ _ _ => ?_
    exact correspond_bind (correspond_in_engine (Node.beside_enduring lawful
      (beside_enduring lawful) protocols.enduring) (lawful.new_row later plan.outputType _))
      fun _ _ _ _ made => correspond_pure (.some made)
  · exact Node.correspond_ended lawful (beside_enduring lawful) protocols

theorem correspond_take_row :
    Correspond (BesideStates corr related) world (takeRow first) (takeRow second)
      corr.RowsAlike := by
  apply correspond_state
  intro left right held
  have rows := held.own.lookahead
  revert rows
  generalize left.own.lookahead? = row?
  generalize right.own.lookahead? = partner?
  rintro (rows | _)
  · exact correspond_bind (Node.correspond_change_own fun _ _ held =>
      { held with lookahead := .none }) fun _ _ _ grown _ =>
        correspond_pure (.some (lawful.rows_later _ _ _ _ grown rows))
  · exact Node.correspond_pull lawful (beside_enduring lawful) protocols

/-- Both collect alike: by induction on the bound. -/
theorem correspond_collect (bound : Nat) :
    Correspond (BesideStates corr related) world (collect context plan first bound)
      (collect context plan second bound) corr.RowsAlike := by
  induction bound generalizing world with
  | zero => exact correspond_pure .none
  | succ bound induction =>
      rw [collect_succ, collect_succ]
      refine correspond_bind (correspond_take_row lawful protocols) ?_
      intro later row? partner? _ rows
      cases rows with
      | none => exact correspond_end_of_input lawful protocols
      | @some row partner rows =>
      dsimp only
      unfold consider
      rw [← lawful.rows_type rows]
      split
      · exact correspond_pure (.some rows)
      refine correspond_bind (Node.correspond_change_own fun _ _ held =>
        { held with sawInput := rfl }) fun later _ _ grown _ => ?_
      have rows := lawful.rows_later _ _ _ _ grown rows
      apply correspond_state
      intro left right held
      rw [held.phase]
      split
      · apply correspond_state
        intro left right held
        rw [held.own.key]
        refine correspond_bind (correspond_reads lawful protocols (correspond_same_key lawful rows
          context.catalog 0 right.own.key plan.inputType.columns)) ?_
        rintro last equal _ further rfl
        have rows := lawful.rows_later _ _ _ _ further rows
        split
        · exact correspond_bind (correspond_absorb lawful rows plan.keys protocols.enduring)
            fun _ _ _ _ _ => induction
        refine correspond_bind (Node.correspond_change_own fun _ _ held =>
          { held with lookahead := .some rows }) fun final _ _ _ _ => ?_
        refine correspond_bind (correspond_emit_group lawful protocols)
          fun _ output other _ made => ?_
        exact correspond_bind (Node.correspond_set_phase .opening) fun _ _ _ beyond _ =>
          correspond_pure (.some (lawful.rows_later _ _ _ _ beyond made))
      · refine correspond_bind (correspond_start_group lawful protocols rows) fun _ _ _ _ _ => ?_
        exact correspond_bind (Node.correspond_set_phase .running) fun _ _ _ _ _ => induction

theorem correspond_advance :
    Correspond (BesideStates corr related) world (advance context plan first)
      (advance context plan second) corr.RowsAlike := by
  refine correspond_bind (Node.correspond_check_cancelled lawful (beside_enduring lawful)
    protocols) fun later _ _ _ _ => ?_
  apply correspond_state
  intro left right held
  have supplies : supply first left = supply second right := by
    unfold supply
    rw [protocols.remaining held.input, rows_alike_length held.own.lookahead]
  rw [held.phase, supplies]
  split
  · exact Node.correspond_ended lawful (beside_enduring lawful) protocols
  · exact correspond_collect lawful protocols _

omit lawful protocols in
theorem correspond_forget :
    Correspond (BesideStates corr related) world forget forget fun _ _ _ => True :=
  Node.correspond_change_own fun _ _ held => { held with lookahead := .none, key := rfl }

/-- Aggregations over corresponding inputs correspond, call by call. -/
theorem protocols_beside : corr.Protocols (protocol context plan first)
    (protocol context plan second) (Node.Beside corr (Beside corr) related) where
  enduring := Node.beside_enduring lawful (beside_enduring lawful) protocols.enduring
  phase := Node.Beside.phase
  remaining := by
    intro world left right held
    change remaining first left = remaining second right
    unfold remaining supply
    rw [protocols.remaining held.input, held.phase, rows_alike_length held.own.lookahead]
  passes := fun held => protocols.passes held.input
  openPass := by
    intro world
    refine correspond_bind (Node.correspond_reading lawful (beside_enduring lawful) protocols
      (lawful.tap world "aggregate.open")) fun later _ _ _ _ => ?_
    refine correspond_bind (Node.correspond_open_pass lawful (beside_enduring lawful) protocols)
      fun last _ _ _ _ => ?_
    exact Node.correspond_change_own fun _ _ held =>
      { held with key := rfl, sawInput := rfl, accumulators := by rw [held.accumulators] }
  next := by
    intro world
    refine correspond_bind (Node.correspond_check .next) fun later _ _ _ _ => ?_
    refine correspond_bind (Node.correspond_reading lawful (beside_enduring lawful) protocols
      (lawful.tap later "aggregate.next")) fun last _ _ _ _ => ?_
    refine correspond_on_failure (fun final _ => ?_) (correspond_advance lawful protocols)
    exact correspond_bind correspond_forget fun _ _ _ _ _ =>
      Node.correspond_abort lawful (beside_enduring lawful) protocols
  close := fun _ => correspond_bind (Node.correspond_close lawful (beside_enduring lawful)
    protocols) fun _ _ _ _ _ => correspond_forget
  destroy := fun _ => correspond_bind
    (Node.correspond_change_own fun _ _ held => { held with lookahead := .none })
    fun _ _ _ _ _ => Node.correspond_destroy lawful (beside_enduring lawful) protocols
  openBindings := fun _ => Node.correspond_passed_on lawful (beside_enduring lawful)
    protocols.openBindings
  nextBindings := fun _ => Node.correspond_next_bindings lawful (beside_enduring lawful) protocols
  closeBindings := fun _ => Node.correspond_passed_on lawful (beside_enduring lawful)
    protocols.closeBindings
  cancelBindings := fun bindings left right held =>
    Node.cancel_bindings_beside protocols bindings
      ({ left.1 with own := { left.1.own with lookahead? := none, key := [] } }, left.2)
      ({ right.1 with own := { right.1.own with lookahead? := none, key := [] } }, right.2)
      ⟨{ held.1 with own := { held.1.own with lookahead := .none, key := rfl } }, held.2⟩

end Collecting

end Grouping

end QueryExec
