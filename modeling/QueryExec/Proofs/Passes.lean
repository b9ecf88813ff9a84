import QueryExec.Execution
import QueryExec.Proofs.Cursor.Traits
import QueryExec.Proofs.Release

/-!
Whole passes over the cursor tree of a plan. A tree that is closed, holds nothing and has a binding
is ready: opening it in a steady engine makes it deliver what the plan denotes under that binding,
and pulling it to the end gives exactly that.
-/

namespace QueryExec

open QueryExec.Action

namespace Plan

/-- What the open cursor of a plan delivers: each operator what it makes of its input. -/
def Delivering (context : Context) : (plan : Plan) → Delivers plan.Cursor
  | values _ _ _ => Scan.Delivering
  | table _ _ => Scan.Delivering
  | filter input predicate =>
      Filter.Delivering context input.rowType predicate (input.Delivering context)
  | project input type columns =>
      Project.Delivering context input.rowType type columns (input.Delivering context)
  | aggregate input type keys aggregates =>
      Grouping.Delivering context ⟨input.rowType, type, keys⟩ (accumulators aggregates)
        (input.protocol context) (input.Delivering context)
  | limit input offset limit? => Limit.Delivering offset limit? (input.Delivering context)

/-- Cursor trees deliver what is said of them: by induction on the plan. -/
theorem protocol_produces (context : Context) (store : Store) (plan : Plan) :
    (plan.protocol context).Produces context store (plan.Delivering context) := by
  induction plan with
  | values slice type rows => exact Scan.protocol_produces context store (pure rows)
  | table name type => exact Scan.probed_produces context store (Scan.loadTable name)
  | filter input predicate induction =>
      exact Filter.protocol_produces induction input.rowType predicate
  | project input type columns induction =>
      exact Project.protocol_produces induction input.rowType type columns
  | aggregate input type keys aggregates induction =>
      exact Grouping.protocol_produces induction ⟨input.rowType, type, keys⟩
        (accumulators aggregates)
  | limit input offset limit? induction =>
      exact Limit.protocol_produces induction offset limit?

/-- A closed tree under a binding that holds nothing. -/
def Ready (bindings : Bindings) : (plan : Plan) → plan.Cursor → Prop
  | values _ _ _ => fun scan : Scan => scan.phase = .closed
  | table _ _ => fun scan : Scan => scan.phase = .closed
  | filter input _ => fun node : Filter.State input.Cursor =>
      node.phase = .closed ∧ node.bindings = bindings ∧ input.Ready bindings node.input
  | project input _ _ => fun node : Project.State input.Cursor =>
      node.phase = .closed ∧ node.bindings = bindings ∧ input.Ready bindings node.input
  | aggregate input _ _ aggregates => fun node : Grouping.State input.Cursor =>
      node.phase = .closed ∧ Grouping.Primed (accumulators aggregates) node.own ∧
        node.own.lookahead? = none ∧ input.Ready bindings node.input
  | limit input _ _ => fun node : Limit.State input.Cursor =>
      node.phase = .closed ∧ node.bindings = bindings ∧ input.Ready bindings node.input

/-- A closed tree that holds nothing is ready, whatever came before. -/
theorem ready_of_empty {faulty : LeafCall → Prop} {bindings : Bindings} {source : BindingSource}
    {plan : Plan} {cursor : plan.Cursor} (coherent : plan.Coherent faulty cursor)
    (closed : plan.phase cursor = .closed) (carrying : plan.Carrying bindings source cursor)
    (empty : plan.held cursor = []) : plan.Ready bindings cursor := by
  induction plan with
  | values slice type rows => exact closed
  | table name type => exact closed
  | filter input predicate induction =>
      exact ⟨closed, carrying.1,
        induction coherent.input (coherent.closed closed) carrying.2.2 empty⟩
  | project input type columns induction =>
      exact ⟨closed, carrying.1,
        induction coherent.input (coherent.closed closed) carrying.2.2 empty⟩
  | aggregate input type keys aggregates induction =>
      obtain ⟨own, below⟩ := List.append_eq_nil_iff.mp empty
      exact ⟨closed, carrying.2.1, Option.toList_eq_nil_iff.mp own,
        induction coherent.input (coherent.closed closed) carrying.2.2 below⟩
  | limit input offset limit? induction =>
      exact ⟨closed, carrying.1,
        induction coherent.input (coherent.closed closed) carrying.2.2 empty⟩

end Plan

section Opening

variable {context : Context} {store : Store} {census : Census} {engine : Engine}

/-- A cursor opens as its input does. -/
theorem Node.open_pass_delivers {own input : Type} {inner : Protocol input} {node : Node own input}
    {gives : input × Engine → Prop} {stops : Interrupt → Prop} (closed : node.phase = .closed)
    (opens : EndsIn (node.input, engine) inner.openPass (fun _ after => gives after)
      fun interrupt _ => stops interrupt) :
    EndsIn (node, engine) (Node.openPass inner)
      (fun _ after => ∃ opened, after.1 = { node with phase := .opening, input := opened } ∧
        gives (opened, after.2))
      fun interrupt _ => stops interrupt := by
  refine Node.agree_past_check (by simp [Call.legalIn, closed]) ?_
  apply agree_then (fun _ after => ∃ opened,
    after.1 = { node with input := opened } ∧ gives (opened, after.2))
  · exact Node.agree_on_input (agree_weaken opens (fun _ after given => ⟨after.1, rfl, given⟩)
      fun _ _ => id)
  · intro _ after ends
    obtain ⟨_, engine⟩ := after
    obtain ⟨opened, rfl, given⟩ := ends
    exact Node.agree_set_phase .opening ⟨opened, rfl, given⟩

/-- A leaf opens with the rows that its source gives. -/
theorem Scan.open_pass_delivers {load : Action Engine (List Row)}
    {loaded : Except QueryError (List Row)} {scan : Scan} (closed : scan.phase = .closed)
    (loads : ∀ {engine : Engine}, engine.Steady context store census →
      EndsIn engine load (fun rows after => loaded = .ok rows ∧ after = engine)
        fun interrupt _ => ∃ error, loaded = .error error ∧ interrupt = .failed error)
    (listed : ∀ rows, loaded = .ok rows → ∀ row ∈ rows, row.Listed census)
    (steady : engine.Steady context store census) :
    EndsIn (scan, engine) (Scan.openPass context load)
      (fun _ after => ∃ rows, loaded = .ok rows ∧
        Scan.Delivering census ⟨rows.map Row.view, none⟩ after.1 ∧
        after.2.Steady context store census)
      fun interrupt _ => ∃ error, loaded = .error error ∧ interrupt = .failed error := by
  refine Scan.agree_past_check (by simp [Call.legalIn, closed]) ?_
  apply agree_surely (tap_agrees steady "scan.open")
  intro _ after ends
  obtain ⟨scan, tapped⟩ := after
  obtain ⟨rfl, steady⟩ := ends
  apply agree_then (fun rows after => loaded = .ok rows ∧ after = (scan, tapped))
    (CursorAction.agree_in_engine (agree_weaken (loads steady)
      (fun _ _ ends => ⟨ends.1, congrArg (Prod.mk scan) ends.2⟩) fun _ _ => id))
  intro rows _ ends
  obtain ⟨found, rfl⟩ := ends
  exact CursorAction.agree_change _
    ⟨rows, found, ⟨rfl, listed rows found, rfl⟩, steady⟩

theorem Scan.load_table_agrees (name : String) (steady : engine.Steady context store census) :
    EndsIn engine (Scan.loadTable name)
      (fun rows after => (store.table name).map StoredTable.rows = .ok rows ∧ after = engine)
      fun interrupt _ => ∃ error, (store.table name).map StoredTable.rows = .error error ∧
        interrupt = .failed error := by
  apply agree_then (fun table after => store.table name = .ok table ∧ after = engine)
  · refine agree_then (fun read after => read = engine ∧ after = engine)
      ⟨rfl, rfl, rfl⟩ ?_
    intro _ _ ends
    obtain ⟨rfl, rfl⟩ := ends
    rw [← steady.store]
    refine agree_of_except _ (fun _ found => ⟨found, rfl⟩) fun error missing => ⟨error, ?_, rfl⟩
    rw [missing]
    rfl
  · intro table _ ends
    obtain ⟨found, rfl⟩ := ends
    exact agree_pure _ ⟨by rw [found]; rfl, rfl⟩

theorem RowStream.limited_new (offset : Nat) (limit? : Option Nat) (stream : RowStream) :
    stream.limited (offset - 0) (limit?.map (· - 0)) = stream.limited offset limit? := by
  cases limit? <;> rfl

/-- A ready tree opens as its leaf loads, and then delivers what the plan denotes. -/
theorem Plan.open_pass_delivers {bindings : Bindings} (bound : bindings.Listed census)
    {plan : Plan} {cursor : plan.Cursor} (ready : plan.Ready bindings cursor)
    (listed : ∀ rows, plan.leafRows store = .ok rows → ∀ row ∈ rows, row.Listed census)
    (steady : engine.Steady context store census) :
    EndsIn (cursor, engine) (plan.protocol context).openPass
      (fun _ after => ∃ rows, plan.leafRows store = .ok rows ∧
        plan.Delivering context census (plan.stream context bindings (rows.map Row.view)) after.1 ∧
        after.2.Steady context store census)
      fun interrupt _ => ∃ error, plan.leafRows store = .error error ∧
        interrupt = .failed error := by
  induction plan generalizing engine with
  | values slice type rows =>
      exact Scan.open_pass_delivers ready (fun _ => agree_pure rows ⟨rfl, rfl⟩) listed steady
  | table name type =>
      refine Scan.instead_of_agrees steady.quiet ?_ fun impossible => impossible.elim
      exact Scan.open_pass_delivers ready (Scan.load_table_agrees name) listed
        (steady.noted .openPass)
  | filter input predicate induction =>
      obtain ⟨closed, rfl, below⟩ := ready
      refine agree_weaken (Node.open_pass_delivers closed (induction below listed steady)) ?_
        fun _ _ => id
      intro _ after ends
      obtain ⟨_, engine⟩ := after
      obtain ⟨opened, rfl, rows, loaded, delivering, steady⟩ := ends
      exact ⟨rows, loaded, ⟨rfl, bound, _, delivering, rfl⟩, steady⟩
  | project input type columns induction =>
      obtain ⟨closed, rfl, below⟩ := ready
      refine agree_weaken (Node.open_pass_delivers closed (induction below listed steady)) ?_
        fun _ _ => id
      intro _ after ends
      obtain ⟨_, engine⟩ := after
      obtain ⟨opened, rfl, rows, loaded, delivering, steady⟩ := ends
      exact ⟨rows, loaded, ⟨rfl, bound, _, delivering, rfl⟩, steady⟩
  | aggregate input type keys aggregates induction =>
      obtain ⟨closed, primed, empty, below⟩ := ready
      apply agree_surely (tap_agrees steady "aggregate.open")
      intro _ after ends
      obtain ⟨node, tapped⟩ := after
      obtain ⟨rfl, steady⟩ := ends
      apply agree_bind (Node.open_pass_delivers closed (induction below listed steady))
      intro _ after ends
      obtain ⟨_, engine⟩ := after
      obtain ⟨opened, rfl, rows, loaded, delivering, steady⟩ := ends
      refine Node.agree_change_own _ ⟨rows, loaded, .inr ?_, steady⟩
      refine ⟨_, none, [], delivering, ?_, rfl⟩
      dsimp only
      rw [empty]
      exact .beforeRows (Grouping.primed_reset primed)
  | limit input offset limit? induction =>
      obtain ⟨closed, rfl, below⟩ := ready
      apply agree_bind (Node.open_pass_delivers closed (induction below listed steady))
      intro _ after ends
      obtain ⟨_, engine⟩ := after
      obtain ⟨opened, rfl, rows, loaded, delivering, steady⟩ := ends
      refine Node.agree_change_own _ ⟨rows, loaded, ⟨rfl, bound, _, delivering, ?_⟩, steady⟩
      exact (RowStream.limited_new offset limit? _).symm

end Opening

section Pulling

variable {cursor : Type} {context : Context} {store : Store} {protocol : Protocol cursor}
  {delivers : Delivers cursor} {census : Census} {stream : RowStream} {state : cursor}
  {engine : Engine}

section Draining

variable (keeps : cursor × Engine → Prop)

theorem reading_keeps {result : Type} (read : ∀ {state engine} journal, keeps (state, engine) →
      keeps (state, { engine with journal })) (action : Action Journal result)
    (kept : keeps (state, engine)) :
    EndsIn (state, engine) (CursorAction.inJournal action) (fun _ after => keeps after)
      fun _ after => keeps after := by
  refine CursorAction.agree_in_journal ⟨rfl, ?_⟩
  rcases action.run engine.journal with ⟨_ | _, journal⟩ <;> exact read journal kept

variable (read : ∀ {state engine} journal, keeps (state, engine) →
    keeps (state, { engine with journal }))
  (pulled : ∀ {pair}, keeps pair → (protocol.phase pair.1).isActive = true →
    EndsIn pair protocol.next (fun _ after => keeps after) fun _ after => keeps after)

include read pulled

/-- Reading every row as it comes gives the values of the sequence, or its first failure, and
keeps what reading and pulling keep. -/
theorem drain_within_agrees (produces : protocol.Produces context store delivers) (bound : Nat)
    (delivering : delivers census stream state) (enough : stream.rows.length < bound)
    (steady : engine.Steady context store census) (kept : keeps (state, engine)) :
    EndsIn (state, engine) (protocol.drainWithin bound)
      (fun values after => stream.materialised = .ok values ∧
        protocol.phase after.1 = .closed ∧ keeps after ∧ ∃ later, census.Within later ∧
          after.2.Steady context store later)
      fun interrupt after => stream.materialised = .error interrupt ∧ keeps after := by
  induction bound generalizing census stream state engine with
  | zero => exact absurd enough (Nat.not_lt_zero _)
  | succ bound induction =>
      refine agree_bind (agree_weaken (agree_both (produces.next delivering steady)
        (pulled kept (produces.active delivering))) (fun _ _ => id) ?_) ?_
      · intro interrupt _ ends
        obtain ⟨rfl, kept⟩ := ends
        exact ⟨rfl, kept⟩
      rintro (_ | row) ⟨reached, engine⟩ ⟨delivered, kept⟩
      · obtain ⟨later, within, rfl, closed, steady⟩ := delivered
        exact agree_pure [] ⟨rfl, closed, kept, later, within, steady⟩
      obtain ⟨later, rest, within, rfl, listed, steady, further⟩ := delivered
      have fewer : rest.rows.length < bound := Nat.lt_of_succ_lt_succ enough
      have reads : EndsIn (reached, engine) (CursorAction.inJournal row.readAll)
          (fun values after => row.view.values = .ok values ∧ after.1 = reached ∧
            after.2.Steady context store later ∧ keeps after)
          fun interrupt after => row.view.values = .error interrupt ∧ keeps after :=
        agree_weaken (agree_both (reading_agrees (read_all_yields listed) steady)
          (reading_keeps keeps read _ kept))
          (fun values after ends => ⟨ends.1.1, ends.1.2.1, ends.1.2.2, ends.2⟩) fun _ _ => id
      rw [RowStream.materialised_cons]
      apply agree_outcome_bind reads
      intro values pair ends
      obtain ⟨_, still⟩ := pair
      obtain ⟨rfl, calm, untouched⟩ := ends
      apply agree_outcome_bind (induction further fewer calm untouched)
      intro others after ends
      obtain ⟨closed, kept, last, further, steady⟩ := ends
      exact agree_pure _ ⟨rfl, closed, kept, last, within.trans further, steady⟩

theorem drain_agrees (produces : protocol.Produces context store delivers)
    (delivering : delivers census stream state) (steady : engine.Steady context store census)
    (kept : keeps (state, engine)) :
    EndsIn (state, engine) protocol.drain
      (fun values after => stream.materialised = .ok values ∧
        protocol.phase after.1 = .closed ∧ keeps after ∧ ∃ later, census.Within later ∧
          after.2.Steady context store later)
      fun interrupt after => stream.materialised = .error interrupt ∧ keeps after :=
  CursorAction.agree_state (drain_within_agrees keeps read pulled produces _ delivering
    (Nat.lt_succ_of_le (produces.bounded delivering)) steady kept)

end Draining

/-- The rows that `next` gives until the pass ends, and how it ends. -/
def Protocol.rowsWithin (protocol : Protocol cursor) :
    Nat → cursor × Engine → List Row × Option Interrupt
  | 0, _ => ([], none)
  | bound + 1, pair =>
      match protocol.next.run pair with
      | (.ok (some row), after) =>
          let (rows, ending) := protocol.rowsWithin bound after
          (row :: rows, ending)
      | (.ok none, _) => ([], none)
      | (.error interrupt, _) => ([], some interrupt)

/-- A whole pass: an opening and then every row. -/
def Protocol.pass (protocol : Protocol cursor) (pair : cursor × Engine) :
    List Row × Option Interrupt :=
  match protocol.openPass.run pair with
  | (.ok _, after) => protocol.rowsWithin (protocol.remaining after.1 + 1) after
  | (.error interrupt, _) => ([], some interrupt)

/-- What can be seen of a pass: its rows and its end. -/
def Protocol.seen (protocol : Protocol cursor) (pair : cursor × Engine) : RowStream :=
  ⟨(protocol.pass pair).1.map Row.view, (protocol.pass pair).2⟩

theorem rows_within_eq (produces : protocol.Produces context store delivers) (bound : Nat)
    (delivering : delivers census stream state) (enough : stream.rows.length < bound)
    (steady : engine.Steady context store census) :
    (protocol.rowsWithin bound (state, engine)).1.map Row.view = stream.rows ∧
      (protocol.rowsWithin bound (state, engine)).2 = stream.ending := by
  induction bound generalizing census stream state engine with
  | zero => exact absurd enough (Nat.not_lt_zero _)
  | succ bound induction =>
      have ends := (produces.next delivering steady).2
      unfold Protocol.rowsWithin
      revert ends
      rcases protocol.next.run (state, engine) with ⟨interrupt | _ | row, after⟩
      · intro same
        subst same
        exact ⟨rfl, rfl⟩
      · intro meets
        obtain ⟨later, within, rfl, closed, steady⟩ := meets
        exact ⟨rfl, rfl⟩
      · intro meets
        obtain ⟨later, rest, within, rfl, listed, steady, further⟩ := meets
        have fewer : rest.rows.length < bound := Nat.lt_of_succ_lt_succ enough
        obtain ⟨rows, ending⟩ := induction further fewer steady
        exact ⟨congrArg (row.view :: ·) rows, ending⟩

end Pulling

/-- A pass of a ready tree is seen as what the plan denotes, or its leaf cannot be loaded. -/
theorem Plan.seen_eq {context : Context} {store : Store} {census : Census} {engine : Engine}
    {bindings : Bindings} (bound : bindings.Listed census) {plan : Plan} {cursor : plan.Cursor}
    (ready : plan.Ready bindings cursor)
    (listed : ∀ rows, plan.leafRows store = .ok rows → ∀ row ∈ rows, row.Listed census)
    (steady : engine.Steady context store census) :
    (plan.protocol context).seen (cursor, engine) =
      match plan.leafRows store with
      | .ok rows => plan.stream context bindings (rows.map Row.view)
      | .error error => .stopped (.failed error) := by
  have opens := (plan.open_pass_delivers bound ready listed steady).2
  unfold Protocol.seen Protocol.pass
  revert opens
  rcases (plan.protocol context).openPass.run (cursor, engine) with ⟨interrupt | _, after⟩
  · intro ends
    obtain ⟨error, failed, rfl⟩ := ends
    rw [failed]
    rfl
  · intro ends
    obtain ⟨rows, loaded, delivering, steady⟩ := ends
    rw [loaded]
    have produces := plan.protocol_produces context store
    obtain ⟨same, ending⟩ := rows_within_eq produces _ delivering
      (Nat.lt_succ_of_le (produces.bounded delivering)) steady
    dsimp only
    rw [same, ending]

end QueryExec
