import QueryExec.Proofs.Census.Engine

/-!
Operators enrol. What a cursor keeps is listed: its binding, the row that an aggregation holds and
all that its input keeps. Calls of any sort, failing or not, keep it so if they do with the input,
and the rows and bindings that they answer are listed too.
-/

namespace QueryExec

open QueryExec.Action

/-- A cursor state whose rows are listed, beside an engine that the census covers. -/
def Tracked {cursor : Type} (faulty : LeafCall → Prop) (lists : Coverage cursor) :
    Coverage (cursor × Engine) :=
  fun census pair => lists census pair.1 ∧ pair.2.Covered faulty census

/-- The row that is answered, if there is one, is listed. -/
def RowListed (census : Census) (row? : Option Row) : Prop :=
  ∀ row ∈ row?, row.Listed census

/-- The binding that is answered, if there is one, is listed. -/
def BindingsListed (census : Census) (bindings? : Option Bindings) : Prop :=
  ∀ bindings ∈ bindings?, bindings.Listed census

theorem row_listed_none {census : Census} : RowListed census none :=
  fun _ impossible => by cases impossible

theorem row_listed_some {census : Census} {row : Row} (listed : row.Listed census) :
    RowListed census (some row) := by
  intro other same
  cases same
  exact listed

section Steps

variable {cursor result : Type} {faulty : LeafCall → Prop} {lists : Coverage cursor}
  {census : Census} {gives : Census → result → Prop}

theorem enrols_state {next : cursor → CursorAction cursor result}
    (follows : ∀ state, lists census state →
      Enrols (Tracked faulty lists) census (next state) gives) :
    Enrols (Tracked faulty lists) census (CursorAction.state >>= next) gives :=
  fun start held => follows start.1 held.1 start held

theorem enrols_change {step : cursor → cursor}
    (keeps : ∀ state, lists census state → lists census (step state)) :
    Enrols (Tracked faulty lists) census (CursorAction.change step) fun _ _ => True :=
  enrols_modify fun start held => ⟨keeps start.1 held.1, held.2⟩

theorem enrols_in_engine (lasting : Lasting lists) {action : Action Engine result}
    (enrols : Enrols (Engine.Covered faulty) census action gives) :
    Enrols (Tracked faulty lists) census (CursorAction.inEngine action) gives := by
  unfold CursorAction.inEngine onSecond
  refine enrols_on_part (fun _ held => held.2) ?_ enrols
  exact fun _ start _ within held covered => ⟨lasting _ _ start.1 within held.1, covered⟩

theorem enrols_reading (lasting : Lasting lists) {action : Action Journal result}
    (keeps : Keeps (Journal.Faithful census) action) :
    Enrols (Tracked faulty lists) census (CursorAction.inJournal action) fun _ _ => True :=
  enrols_in_engine lasting (Engine.enrols_in_journal keeps)

theorem enrols_phase_check (call : Call) (phase : Phase) :
    Enrols (Tracked faulty lists) census (call.check phase) fun _ _ => True := by
  unfold Call.check
  split
  · exact enrols_pure () trivial
  · exact enrols_fail _

end Steps

/-- Every call of the protocol enrols, from every state that is listed. -/
structure Protocol.Enrolling {cursor : Type} (faulty : LeafCall → Prop)
    (protocol : Protocol cursor) (lists : Coverage cursor) : Prop where
  lasting : Lasting lists
  openPass : ∀ census, Enrols (Tracked faulty lists) census protocol.openPass fun _ _ => True
  next : ∀ census, Enrols (Tracked faulty lists) census protocol.next RowListed
  close : ∀ census, Enrols (Tracked faulty lists) census protocol.close fun _ _ => True
  destroy : ∀ census, Enrols (Tracked faulty lists) census protocol.destroy fun _ _ => True
  openBindings : ∀ census,
    Enrols (Tracked faulty lists) census protocol.openBindings fun _ _ => True
  nextBindings : ∀ census,
    Enrols (Tracked faulty lists) census protocol.nextBindings BindingsListed
  closeBindings : ∀ census,
    Enrols (Tracked faulty lists) census protocol.closeBindings fun _ _ => True
  cancelBindings : ∀ census bindings pair, Tracked faulty lists census pair →
    Tracked faulty lists census (protocol.cancelBindings bindings pair)

section Calls

variable {cursor : Type} {faulty : LeafCall → Prop} {lists : Coverage cursor} {census : Census}
  {protocol : Protocol cursor}

theorem enrols_close_active (enrolling : protocol.Enrolling faulty lists) :
    Enrols (Tracked faulty lists) census protocol.closeActive fun _ _ => True := by
  apply enrols_state
  intro state _
  split
  · exact enrolling.close census
  · exact enrols_pure () trivial

theorem enrols_destroy_once (enrolling : protocol.Enrolling faulty lists) :
    Enrols (Tracked faulty lists) census protocol.destroyOnce fun _ _ => True := by
  apply enrols_state
  intro state _
  split
  · exact enrols_pure () trivial
  · exact enrolling.destroy census

end Calls

namespace Node

variable {own input result : Type} {faulty : LeafCall → Prop} {suits : Coverage own}
  {lists : Coverage input} {census : Census} {inner : Protocol input}
  {gives : Census → result → Prop}

/-- The binding of the cursor, what the operator keeps and all below are listed. -/
def Lists (suits : Coverage own) (lists : Coverage input) : Coverage (Node own input) :=
  fun census node =>
    node.bindings.Listed census ∧ suits census node.own ∧ lists census node.input

/-- What an operator keeps stays listed, and its input enrols. -/
structure Operates (faulty : LeafCall → Prop) (suits : Coverage own) (lists : Coverage input)
    (inner : Protocol input) : Prop where
  own : Lasting suits
  input : inner.Enrolling faulty lists

theorem Operates.lasting (operates : Operates faulty suits lists inner) :
    Lasting (Lists suits lists) :=
  fun _ _ node within held => ⟨held.1.later within, operates.own _ _ node.own within held.2.1,
    operates.input.lasting _ _ node.input within held.2.2⟩

theorem enrols_set_phase (phase : Phase) :
    Enrols (Tracked faulty (Lists suits lists)) census (setPhase phase) fun _ _ => True :=
  enrols_change fun _ => id

theorem enrols_change_own {step : own → own}
    (keeps : ∀ before, suits census before → suits census (step before)) :
    Enrols (Tracked faulty (Lists suits lists)) census (changeOwn step) fun _ _ => True :=
  enrols_change fun node held => ⟨held.1, keeps node.own held.2.1, held.2.2⟩

theorem enrols_check (call : Call) :
    Enrols (Tracked faulty (Lists suits lists)) census (check call) fun _ _ => True :=
  enrols_state fun node _ => enrols_phase_check call node.phase

section OverInput

variable (operates : Operates faulty suits lists inner)

include operates

theorem enrols_on_input {action : CursorAction input result}
    (enrols : Enrols (Tracked faulty lists) census action gives) :
    Enrols (Tracked faulty (Lists suits lists)) census (onInput action) gives := by
  refine enrols_on_part (fun _ held => ⟨held.1.2.2, held.2⟩) ?_ enrols
  exact fun _ start _ within held reached => ⟨⟨held.1.1.later within,
    operates.own _ _ start.1.own within held.1.2.1, reached.1⟩, reached.2⟩

theorem enrols_pull :
    Enrols (Tracked faulty (Lists suits lists)) census (pull inner) RowListed := by
  apply enrols_state
  intro node _
  split
  · exact enrols_on_input operates (operates.input.next census)
  · exact enrols_pure none row_listed_none

theorem enrols_finish :
    Enrols (Tracked faulty (Lists suits lists)) census (finish inner) fun _ _ => True :=
  enrols_bind (enrols_set_phase .closed) fun _ _ _ _ =>
    enrols_on_input operates (enrols_close_active operates.input)

/-- The end of the input, as every operator makes it the end of the pass. -/
theorem enrols_ended :
    Enrols (Tracked faulty (Lists suits lists)) census
      (do
        finish inner
        pure none) RowListed :=
  enrols_bind (enrols_finish operates) fun _ _ _ _ => enrols_pure none row_listed_none

theorem enrols_abort :
    Enrols (Tracked faulty (Lists suits lists)) census (abort inner) fun _ _ => True :=
  enrols_bind (enrols_attempt (enrols_on_input operates (enrols_close_active operates.input)))
    fun _ _ _ _ => enrols_set_phase .closed

theorem enrols_open_pass :
    Enrols (Tracked faulty (Lists suits lists)) census (openPass inner) fun _ _ => True := by
  apply enrols_bind (enrols_check .openPass)
  intro later _ _ _
  apply enrols_bind (enrols_on_input operates (operates.input.openPass later))
  intro _ _ _ _
  exact enrols_set_phase .opening

theorem enrols_close :
    Enrols (Tracked faulty (Lists suits lists)) census (close inner) fun _ _ => True :=
  enrols_bind (enrols_check .close) fun _ _ _ _ => enrols_finish operates

theorem enrols_destroy :
    Enrols (Tracked faulty (Lists suits lists)) census (destroy inner) fun _ _ => True := by
  have rest : ∀ later (closed : Except QueryError Unit),
      Enrols (Tracked faulty (Lists suits lists)) later (do
        let destroyed ← (onInput inner.destroyOnce).attempt
        setPhase .destroyed
        Action.ofExcept closed
        Action.ofExcept destroyed) fun _ _ => True := by
    intro later closed
    apply enrols_bind (enrols_attempt
      (enrols_on_input operates (enrols_destroy_once operates.input)))
    intro _ destroyed _ _
    apply enrols_bind (enrols_set_phase .destroyed)
    intro _ _ _ _
    apply enrols_then (fun _ _ => True) (enrols_of_except fun _ _ => trivial)
    intro _ _ _ _
    exact enrols_of_except fun _ _ => trivial
  apply enrols_bind (enrols_check .destroy)
  intro _ _ _ _
  apply enrols_state
  intro node _
  dsimp only
  split
  · exact enrols_bind (enrols_attempt (enrols_finish operates)) fun later closed _ _ =>
      rest later closed
  · exact enrols_then (fun _ _ => True) (enrols_pure _ trivial) fun later closed _ _ =>
      rest later closed

/-- A call on bindings that the cursor passes on. -/
theorem enrols_passed_on {call : Call} {action : CursorAction input Unit}
    (enrols : ∀ census, Enrols (Tracked faulty lists) census action fun _ _ => True) :
    Enrols (Tracked faulty (Lists suits lists)) census
      (do
        check call
        onInput action) fun _ _ => True :=
  enrols_bind (enrols_check call) fun later _ _ _ => enrols_on_input operates (enrols later)

theorem enrols_next_bindings :
    Enrols (Tracked faulty (Lists suits lists)) census (nextBindings inner) BindingsListed := by
  apply enrols_bind (enrols_check .nextBindings)
  intro later _ _ _
  apply enrols_bind (enrols_on_input operates (operates.input.nextBindings later))
  intro last bindings? _ listed
  refine enrols_bind (enrols_change fun node held => ⟨?_, held.2⟩) fun _ _ further _ => ?_
  · cases bindings? with
    | none => exact held.1
    | some bindings => exact listed bindings rfl
  · exact enrols_pure bindings? fun bindings member => (listed bindings member).later further

theorem cancel_bindings_tracked (bindings : Bindings) (pair : Node own input × Engine)
    (held : Tracked faulty (Lists suits lists) census pair) :
    Tracked faulty (Lists suits lists) census (cancelBindings inner bindings pair) :=
  have below := operates.input.cancelBindings census bindings (pair.1.input, pair.2)
    ⟨held.1.2.2, held.2⟩
  ⟨⟨held.1.1, held.1.2.1, below.1⟩, below.2⟩

theorem protocol_enrolling (context : Context) (tap : String)
    {advance : CursorAction (Node own input) (Option Row)}
    (advances : ∀ census, Enrols (Tracked faulty (Lists suits lists)) census advance RowListed) :
    (protocol context tap inner advance).Enrolling faulty (Lists suits lists) where
  lasting := operates.lasting
  openPass := fun _ => enrols_open_pass operates
  next := by
    intro census
    apply enrols_bind (enrols_check .next)
    intro later _ _ _
    apply enrols_bind (enrols_reading operates.lasting (keeps_tap context tap))
    intro later _ _ _
    apply enrols_bind (enrols_on_failure (fun _ _ => enrols_abort operates) (advances later))
    intro last row? _ listed
    cases row? with
    | none => exact enrols_pure none row_listed_none
    | some row =>
        exact enrols_bind (enrols_set_phase .running) fun _ _ further _ =>
          enrols_pure _ (row_listed_some ((listed row rfl).later further))
  close := fun _ => enrols_close operates
  destroy := fun _ => enrols_destroy operates
  openBindings := fun _ => enrols_passed_on operates operates.input.openBindings
  nextBindings := fun _ => enrols_next_bindings operates
  closeBindings := fun _ => enrols_passed_on operates operates.input.closeBindings
  cancelBindings := fun _ bindings pair held => cancel_bindings_tracked operates bindings pair held

end OverInput

end Node

section Operators

variable {input : Type} {faulty : LeafCall → Prop} {lists : Coverage input} {census : Census}
  {inner : Protocol input}

/-- An operator that keeps no row of its own. -/
def KeepsNone {own : Type} : Coverage own :=
  fun _ _ => True

theorem operates_keeping_none (own : Type) (enrolling : inner.Enrolling faulty lists) :
    Node.Operates faulty (KeepsNone : Coverage own) lists inner :=
  ⟨fun _ _ _ _ _ => trivial, enrolling⟩

theorem Filter.enrols_accepts (enrolling : inner.Enrolling faulty lists) (context : Context)
    (predicate : Expr) {row : Row} (listed : row.Listed census) :
    Enrols (Tracked faulty (Node.Lists KeepsNone lists)) census
      (Filter.accepts context predicate row) fun _ _ => True := by
  apply enrols_state
  intro node held
  exact enrols_bind (enrols_reading (operates_keeping_none Unit enrolling).lasting
    (keeps_eval listed held.1 context predicate)) fun _ _ _ _ => enrols_pure _ trivial

theorem Filter.enrols_search (enrolling : inner.Enrolling faulty lists) (context : Context)
    (inputType : RowType) (predicate : Expr) (bound : Nat) :
    Enrols (Tracked faulty (Node.Lists KeepsNone lists)) census
      (Filter.search context inputType predicate inner bound) RowListed := by
  have operates := operates_keeping_none Unit enrolling
  induction bound generalizing census with
  | zero => exact enrols_pure none row_listed_none
  | succ bound induction =>
      apply enrols_bind (Node.enrols_pull operates)
      intro later row? _ listed
      cases row? with
      | none => exact Node.enrols_ended operates
      | some row =>
          have listed : row.Listed later := listed row rfl
          dsimp only
          split
          · exact enrols_pure _ (row_listed_some listed)
          apply enrols_bind (Filter.enrols_accepts enrolling context predicate listed)
          intro _ accepted further _
          split
          · exact enrols_pure _ (row_listed_some (listed.later further))
          · exact induction

theorem Filter.protocol_enrolling (enrolling : inner.Enrolling faulty lists) (context : Context)
    (inputType : RowType) (predicate : Expr) :
    (Filter.protocol context inputType predicate inner).Enrolling faulty
      (Node.Lists KeepsNone lists) := by
  have operates := operates_keeping_none Unit enrolling
  apply Node.protocol_enrolling operates context "filter.next"
  intro census
  apply enrols_bind (enrols_reading operates.lasting (keeps_check_cancelled context))
  intro later _ _ _
  apply enrols_state
  intro node _
  exact Filter.enrols_search enrolling context inputType predicate _

/-- The rows that are made enter the census with their base and their binding. -/
theorem Project.protocol_enrolling (enrolling : inner.Enrolling faulty lists) (context : Context)
    (inputType outputType : RowType) (columns : List Expr) :
    (Project.protocol context inputType outputType columns inner).Enrolling faulty
      (Node.Lists KeepsNone lists) := by
  have operates := operates_keeping_none Unit enrolling
  apply Node.protocol_enrolling operates context "project.next"
  intro census
  apply enrols_bind (enrols_reading operates.lasting (keeps_check_cancelled context))
  intro later _ _ _
  apply enrols_bind (Node.enrols_pull operates)
  intro last row? _ listed
  cases row? with
  | none => exact Node.enrols_ended operates
  | some row =>
      have listed : row.Listed last := listed row rfl
      dsimp only
      split
      · exact enrols_pure _ (row_listed_some listed)
      apply enrols_state
      intro node held
      apply enrols_bind (enrols_in_engine operates.lasting
        (Engine.enrols_new_projection outputType context columns listed held.1))
      intro _ made _ madeListed
      exact enrols_pure _ (row_listed_some madeListed)

theorem Limit.enrols_skip (enrolling : inner.Enrolling faulty lists) (count : Nat) :
    Enrols (Tracked faulty (Node.Lists KeepsNone lists)) census (Limit.skip inner count)
      RowListed := by
  have operates := operates_keeping_none Limit.Progress enrolling
  induction count generalizing census with
  | zero =>
      apply enrols_bind (Node.enrols_pull operates)
      intro later row? _ listed
      cases row? with
      | none => exact Node.enrols_ended operates
      | some row =>
          exact enrols_bind (Node.enrols_change_own fun _ _ => trivial) fun _ _ further _ =>
            enrols_pure _ (row_listed_some ((listed row rfl).later further))
  | succ count induction =>
      apply enrols_bind (Node.enrols_pull operates)
      intro later row? _ _
      cases row? with
      | none => exact Node.enrols_ended operates
      | some row =>
          exact enrols_bind (Node.enrols_change_own fun _ _ => trivial) fun _ _ _ _ => induction

theorem Limit.protocol_enrolling (enrolling : inner.Enrolling faulty lists) (context : Context)
    (offset : Nat) (limit? : Option Nat) :
    (Limit.protocol context offset limit? inner).Enrolling faulty (Node.Lists KeepsNone lists) := by
  have operates := operates_keeping_none Limit.Progress enrolling
  have base : (Node.protocol context "limit.next" inner
      (Limit.advance context offset limit? inner)).Enrolling faulty
        (Node.Lists KeepsNone lists) := by
    apply Node.protocol_enrolling operates context "limit.next"
    intro census
    apply enrols_bind (enrols_reading operates.lasting (keeps_check_cancelled context))
    intro later _ _ _
    apply enrols_state
    intro node _
    dsimp only
    split
    · exact Node.enrols_ended operates
    · exact Limit.enrols_skip enrolling _
  exact { base with
    openPass := fun census => enrols_bind (base.openPass census) fun _ _ _ _ =>
      Node.enrols_change_own fun _ _ => trivial }

end Operators

namespace Grouping

variable {input : Type} {faulty : LeafCall → Prop} {lists : Coverage input} {census : Census}
  {inner : Protocol input} {row : Row}

/-- The row that is held for the next group is listed. -/
def Lists : Coverage GroupingState :=
  fun census state => RowListed census state.lookahead?

theorem operates (enrolling : inner.Enrolling faulty lists) :
    Node.Operates faulty Lists lists inner :=
  ⟨fun _ _ _ within held row member => (held row member).later within, enrolling⟩

theorem keeps_same_key (listed : row.Listed census) (catalog : Catalog) (column : Nat)
    (key : List Datum) (types : List ColumnType) :
    Keeps (Journal.Faithful census) (sameKey catalog row column key types) := by
  induction key generalizing column types with
  | nil => exact keeps_pure true
  | cons current key induction =>
      cases types with
      | nil => exact keeps_pure true
      | cons type types =>
          apply keeps_bind (keeps_read listed column)
          intro value
          split
          · exact induction (column + 1) types
          · exact keeps_pure false

theorem absorb_from_faithful (listed : row.Listed census) (column : Nat)
    (accumulators : List Accumulator) {journal : Journal} (faithful : journal.Faithful census) :
    (absorbFrom row column accumulators journal).2.2.Faithful census := by
  induction accumulators generalizing column journal with
  | nil => exact faithful
  | cons accumulator rest induction =>
      have reached := reaches_of_ends (keeps_read listed column journal faithful)
      unfold absorbFrom
      revert reached
      rcases (row.read column).run journal with ⟨interrupt | value, after⟩
      · exact id
      · intro reached
        dsimp only
        cases accumulator.input value with
        | error cause => exact reached
        | ok next => exact induction (column + 1) reached

theorem enrols_absorb (keys : Nat) (listed : row.Listed census) :
    Enrols (Tracked faulty (Node.Lists Lists lists)) census (absorb keys row) fun _ _ => True := by
  apply enrols_of_keeps
  intro pair ends
  obtain ⟨node, engine⟩ := pair
  obtain ⟨held, covered⟩ := ends
  have faithful := absorb_from_faithful listed keys node.own.accumulators covered.faithful
  have kept : Tracked faulty (Node.Lists Lists lists) census
      ({ node with own := { node.own with
          accumulators := (absorbFrom row keys node.own.accumulators engine.journal).2.1 } },
        { engine with
          journal := (absorbFrom row keys node.own.accumulators engine.journal).2.2 }) :=
    ⟨held, { covered with faithful }⟩
  refine ⟨rfl, ?_⟩
  change Meets _ _ ((absorbFrom row keys node.own.accumulators engine.journal).1, _)
  rcases (absorbFrom row keys node.own.accumulators engine.journal).1 <;> exact kept

section OverInput

variable (enrolling : inner.Enrolling faulty lists)

include enrolling

theorem enrols_start_group (plan : GroupingPlan) (listed : row.Listed census) :
    Enrols (Tracked faulty (Node.Lists Lists lists)) census (startGroup plan row)
      fun _ _ => True := by
  refine enrols_bind (Node.enrols_change_own fun _ held => held) fun later _ within _ => ?_
  apply enrols_bind (enrols_reading (operates enrolling).lasting
    (keeps_map _ (keeps_read (listed.later within))))
  intro last key further _
  refine enrols_bind (Node.enrols_change_own fun _ held => held) fun final _ beyond _ => ?_
  exact enrols_absorb plan.keys (listed.later ((within.trans further).trans beyond))

theorem enrols_emit_group (plan : GroupingPlan) :
    Enrols (Tracked faulty (Node.Lists Lists lists)) census (emitGroup plan)
      fun later row => row.Listed later := by
  apply enrols_state
  intro node _
  refine enrols_bind (Node.enrols_change_own fun _ held => held) fun _ _ _ _ => ?_
  exact enrols_weaken (enrols_in_engine (operates enrolling).lasting
    (Engine.enrols_new_row plan.outputType _))
    fun later _ _ stored => Row.listed_of_stored stored later

theorem enrols_end_of_input (plan : GroupingPlan) :
    Enrols (Tracked faulty (Node.Lists Lists lists)) census (endOfInput plan inner) RowListed := by
  apply enrols_state
  intro node _
  dsimp only
  split
  · apply enrols_bind (Node.enrols_set_phase .closing)
    intro _ _ _ _
    exact enrols_bind (enrols_emit_group enrolling plan) fun _ _ _ listed =>
      enrols_pure _ (row_listed_some listed)
  · split
    · apply enrols_bind (Node.enrols_set_phase .closing)
      intro _ _ _ _
      exact enrols_bind (enrols_in_engine (operates enrolling).lasting
        (Engine.enrols_new_row plan.outputType _)) fun later _ _ stored =>
          enrols_pure _ (row_listed_some (Row.listed_of_stored stored later))
    · exact Node.enrols_ended (operates enrolling)

theorem enrols_take_row :
    Enrols (Tracked faulty (Node.Lists Lists lists)) census (takeRow inner) RowListed := by
  apply enrols_state
  intro node held
  split
  next row present =>
      have listed : row.Listed census := held.2.1 row present
      exact enrols_bind (Node.enrols_change_own fun _ _ => row_listed_none) fun _ _ within _ =>
        enrols_pure _ (row_listed_some (listed.later within))
  next => exact Node.enrols_pull (operates enrolling)

theorem enrols_collect (context : Context) (plan : GroupingPlan) (bound : Nat) :
    Enrols (Tracked faulty (Node.Lists Lists lists)) census (collect context plan inner bound)
      RowListed := by
  induction bound generalizing census with
  | zero => exact enrols_pure none row_listed_none
  | succ bound induction =>
      apply enrols_bind (enrols_take_row enrolling)
      intro first row? _ listed
      cases row? with
      | none => exact enrols_end_of_input enrolling plan
      | some row =>
          have listed : row.Listed first := listed row rfl
          dsimp only
          split
          · exact enrols_pure _ (row_listed_some listed)
          refine enrols_bind (Node.enrols_change_own fun _ held => held) fun later _ within _ =>
            enrols_state fun node _ => ?_
          have listed : row.Listed later := listed.later within
          split
          · apply enrols_state
            intro node _
            apply enrols_bind (enrols_reading (operates enrolling).lasting
              (keeps_same_key listed _ _ _ _))
            intro last equal further _
            have listed : row.Listed last := listed.later further
            split
            · exact enrols_bind (enrols_absorb plan.keys listed) fun _ _ _ _ => induction
            · refine enrols_bind (Node.enrols_change_own fun _ _ => row_listed_some listed)
                fun _ _ _ _ => ?_
              apply enrols_bind (enrols_emit_group enrolling plan)
              intro _ output _ listed
              exact enrols_bind (Node.enrols_set_phase .opening) fun _ _ further _ =>
                enrols_pure _ (row_listed_some (listed.later further))
          · apply enrols_bind (enrols_start_group enrolling plan listed)
            intro _ _ _ _
            exact enrols_bind (Node.enrols_set_phase .running) fun _ _ _ _ => induction

theorem enrols_advance (context : Context) (plan : GroupingPlan) :
    Enrols (Tracked faulty (Node.Lists Lists lists)) census (advance context plan inner)
      RowListed := by
  apply enrols_bind (enrols_reading (operates enrolling).lasting (keeps_check_cancelled context))
  intro _ _ _ _
  apply enrols_state
  intro node _
  split
  · exact Node.enrols_ended (operates enrolling)
  · exact enrols_collect enrolling context plan _

omit enrolling in
theorem enrols_forget :
    Enrols (Tracked faulty (Node.Lists Lists lists)) census forget fun _ _ => True :=
  Node.enrols_change_own fun _ _ => row_listed_none

theorem protocol_enrolling (context : Context) (plan : GroupingPlan) :
    (protocol context plan inner).Enrolling faulty (Node.Lists Lists lists) where
  lasting := (operates enrolling).lasting
  openPass := by
    intro census
    apply enrols_bind (enrols_reading (operates enrolling).lasting (keeps_tap context _))
    intro _ _ _ _
    apply enrols_bind (Node.enrols_open_pass (operates enrolling))
    intro _ _ _ _
    exact Node.enrols_change_own fun _ held => held
  next := by
    intro census
    apply enrols_bind (Node.enrols_check .next)
    intro _ _ _ _
    apply enrols_bind (enrols_reading (operates enrolling).lasting (keeps_tap context _))
    intro _ _ _ _
    refine enrols_on_failure (fun _ _ => ?_) (enrols_advance enrolling context plan)
    exact enrols_bind enrols_forget fun _ _ _ _ => Node.enrols_abort (operates enrolling)
  close := fun _ =>
    enrols_bind (Node.enrols_close (operates enrolling)) fun _ _ _ _ => enrols_forget
  destroy := fun _ =>
    enrols_bind (Node.enrols_change_own fun _ _ => row_listed_none) fun _ _ _ _ =>
      Node.enrols_destroy (operates enrolling)
  openBindings := fun _ =>
    Node.enrols_passed_on (operates enrolling) enrolling.openBindings
  nextBindings := fun _ => Node.enrols_next_bindings (operates enrolling)
  closeBindings := fun _ =>
    Node.enrols_passed_on (operates enrolling) enrolling.closeBindings
  cancelBindings := fun _ bindings pair held =>
    Node.cancel_bindings_tracked (operates enrolling) bindings _
      ⟨⟨held.1.1, row_listed_none, held.1.2.2⟩, held.2⟩

end OverInput

end Grouping

end QueryExec
