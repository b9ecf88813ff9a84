import QueryExec.Proofs.Cursor.Traits

/-!
Cursors under a binding from outside. The filters and projections here take their binding as a
parameter and do not look at the one that their cursor keeps. A cursor that keeps that very binding
cannot be told from them: it answers the same rows, with the same engine and in the same state after
it, and what its projections make carries that binding.
-/

namespace QueryExec

open QueryExec.Action

/-- The protocol with another way to the next row. -/
def Protocol.pulling {cursor : Type} (protocol : Protocol cursor)
    (pulled : CursorAction cursor (Option Row)) : Protocol cursor :=
  { protocol with next := pulled }

section Definitions

variable {input : Type}

/-- Whether the predicate is true of a row under the binding. -/
def Filter.acceptsUnder (bindings : Bindings) (context : Context) (predicate : Expr) (row : Row) :
    CursorAction (Filter.State input) Bool := do
  let value ← CursorAction.inJournal (predicate.eval (row.scope context bindings))
  pure value.isTrue

def Filter.searchUnder (bindings : Bindings) (context : Context) (inputType : RowType)
    (predicate : Expr) (inner : Protocol input) :
    (bound : Nat) → CursorAction (Filter.State input) (Option Row)
  | 0 => pure none
  | bound + 1 => do
      match ← Node.pull inner with
      | none => do
          Node.finish inner
          pure none
      | some row =>
          if !row.type.same inputType then pure (some row)
          else if ← acceptsUnder bindings context predicate row then pure (some row)
          else searchUnder bindings context inputType predicate inner bound

/-- The filter that takes its binding from outside. -/
def Filter.protocolUnder (bindings : Bindings) (context : Context) (inputType : RowType)
    (predicate : Expr) (inner : Protocol input) : Protocol (Filter.State input) :=
  Node.protocol context "filter.next" inner do
    Node.checkCancelled context
    let bound := inner.remaining (← CursorAction.state).input + 1
    searchUnder bindings context inputType predicate inner bound

/-- The projection that takes its binding from outside. -/
def Project.protocolUnder (bindings : Bindings) (context : Context)
    (inputType outputType : RowType) (columns : List Expr) (inner : Protocol input) :
    Protocol (Project.State input) :=
  Node.protocol context "project.next" inner do
    Node.checkCancelled context
    match ← Node.pull inner with
    | none => do
        Node.finish inner
        pure none
    | some row =>
        if !row.type.same inputType then pure (some row)
        else
          return some (← CursorAction.inEngine
            (Engine.newProjection outputType row context bindings columns))

theorem Filter.under_pulling (bindings : Bindings) (context : Context) (inputType : RowType)
    (predicate : Expr) (inner : Protocol input) (pulled : CursorAction input (Option Row)) :
    Filter.protocolUnder bindings context inputType predicate (inner.pulling pulled) =
      (Filter.protocol context inputType predicate inner).pulling
        (Filter.protocolUnder bindings context inputType predicate (inner.pulling pulled)).next :=
  rfl

theorem Project.under_pulling (bindings : Bindings) (context : Context)
    (inputType outputType : RowType) (columns : List Expr) (inner : Protocol input)
    (pulled : CursorAction input (Option Row)) :
    Project.protocolUnder bindings context inputType outputType columns (inner.pulling pulled) =
      (Project.protocol context inputType outputType columns inner).pulling
        (Project.protocolUnder bindings context inputType outputType columns
          (inner.pulling pulled)).next :=
  rfl

theorem Grouping.protocol_pulling (context : Context) (plan : GroupingPlan)
    (inner : Protocol input) (pulled : CursorAction input (Option Row)) :
    Grouping.protocol context plan (inner.pulling pulled) =
      (Grouping.protocol context plan inner).pulling
        (Grouping.protocol context plan (inner.pulling pulled)).next :=
  rfl

theorem Limit.protocol_pulling (context : Context) (offset : Nat) (limit? : Option Nat)
    (inner : Protocol input) (pulled : CursorAction input (Option Row)) :
    Limit.protocol context offset limit? (inner.pulling pulled) =
      (Limit.protocol context offset limit? inner).pulling
        (Limit.protocol context offset limit? (inner.pulling pulled)).next :=
  rfl

/-- A row that a projection passes on, or makes over a row of its input. -/
def Project.Emits (context : Context) (bindings : Bindings) (inputType : RowType)
    (columns : List Expr) (below : Row → Prop) (row : Row) : Prop :=
  row.type.same inputType = false ∧ below row ∨
    ∃ id type base, row = .projected id type base context bindings columns ∧ below base

/-- A row that an aggregation passes on, or makes of a group. -/
def Grouping.Passes (inputType : RowType) (below : Row → Prop) (row : Row) : Prop :=
  row.type.same inputType = false ∧ below row ∨ row.isStored = true

end Definitions

/-- From every such state both ways to the next row end alike, leave such a state and give only such
rows. -/
def Supplies {cursor : Type} (has : cursor → Prop) (emits : Row → Prop)
    (first second : CursorAction cursor (Option Row)) : Prop :=
  ∀ start : cursor × Engine, has start.1 →
    AgreeFrom start first second (fun row? after => has after.1 ∧ ∀ row ∈ row?, emits row)
      fun _ after => has after.1

section Rules

variable {cursor other : Type} {has : cursor → Prop} {emits middle : Row → Prop}

theorem supplies_none : Supplies has emits (pure none) (pure none) :=
  fun _ held => agree_pure none ⟨held, fun _ impossible => nomatch impossible⟩

theorem supplies_some {row : Row} (emitted : emits row) :
    Supplies has emits (pure (some row)) (pure (some row)) := by
  refine fun _ held => agree_pure _ ⟨held, fun other same => ?_⟩
  cases same
  exact emitted

/-- What both do first keeps the state such. -/
theorem supplies_after {action : CursorAction cursor other}
    {first second : other → CursorAction cursor (Option Row)} (stays : Stays has action)
    (follows : ∀ value, Supplies has emits (first value) (second value)) :
    Supplies has emits (action >>= first) (action >>= second) :=
  fun start held => agree_bind (stays start held) fun value after => follows value after

/-- Looking at the state, which is such. -/
theorem supplies_state {first second : cursor → CursorAction cursor (Option Row)}
    (follows : ∀ state, has state → Supplies has emits (first state) (second state)) :
    Supplies has emits (CursorAction.state >>= first) (CursorAction.state >>= second) :=
  fun start held => CursorAction.agree_state (follows start.1 held start held)

/-- What is done with the row that both find first. -/
theorem supplies_then {first second : CursorAction cursor (Option Row)}
    {left right : Option Row → CursorAction cursor (Option Row)}
    (begins : Supplies has middle first second)
    (ended : Supplies has emits (left none) (right none))
    (given : ∀ row, middle row → Supplies has emits (left (some row)) (right (some row))) :
    Supplies has emits (first >>= left) (second >>= right) := by
  intro start held
  apply agree_bind (begins start held)
  rintro (_ | row) after ⟨kept, all⟩
  · exact ended after kept
  · exact given row (all row rfl) after kept

theorem supplies_on_failure {cleanup : CursorAction cursor Unit}
    {first second : CursorAction cursor (Option Row)} (cleans : Stays has cleanup)
    (supplies : Supplies has emits first second) :
    Supplies has emits (onFailure cleanup first) (onFailure cleanup second) := by
  intro start held
  refine agree_on_failure (agree_weaken (supplies start held) (fun _ _ => id) ?_)
  rintro (_ | _) after kept
  · refine agree_weaken (cleans after kept) (fun _ _ => id) ?_
    rintro (_ | _) _ last <;> exact last
  · exact kept

end Rules

namespace Node

variable {own input : Type} {suits : own → Prop} {has : Carried input} {emits below : Row → Prop}
  {inner : Protocol input} {pulled : CursorAction input (Option Row)} {bindings : Bindings}
  {source : BindingSource} (closes : Stays (has bindings source) inner.close)
  (supplied : Supplies (has bindings source) below inner.next pulled)

include supplied

theorem supplies_pull :
    Supplies (Carrying suits has bindings source) below (pull inner)
      (pull (inner.pulling pulled)) := by
  apply supplies_state
  intro node _
  change Supplies _ _ (if (inner.phase node.input).isActive then _ else _)
    (if (inner.phase node.input).isActive then _ else _)
  split
  · rintro ⟨node, engine⟩ ⟨same, kept, holds⟩
    exact agree_on_input (agree_weaken (supplied (node.input, engine) holds)
      (fun _ _ ends => ⟨⟨same, kept, ends.1⟩, ends.2⟩) fun _ _ holds => ⟨same, kept, holds⟩)
  · exact supplies_none

include closes

omit supplied in
/-- The end of the input is the end of the pass. -/
theorem supplies_ended :
    Supplies (Carrying suits has bindings source) emits
      (do
        finish inner
        pure none)
      (do
        finish (inner.pulling pulled)
        pure none) :=
  supplies_after (stays_finish closes) fun _ => supplies_none

omit supplied in
theorem supplies_next (context : Context) (tap : String)
    {first second : CursorAction (Node own input) (Option Row)}
    (advances : Supplies (Carrying suits has bindings source) emits first second) :
    Supplies (Carrying suits has bindings source) emits (protocol context tap inner first).next
      (protocol context tap (inner.pulling pulled) second).next := by
  apply supplies_after (stays_check_call .next)
  intro _
  apply supplies_after (stays_in_journal _)
  intro _
  refine supplies_then (supplies_on_failure (stays_abort closes) advances) supplies_none ?_
  intro row emitted
  exact supplies_after (stays_set_phase .running) fun _ => supplies_some emitted

omit supplied closes in
theorem carrying_iff {first second : Carried input} {also : input → Prop}
    (same : ∀ rest, first bindings source rest ↔ second bindings source rest ∧ also rest)
    (node : Node own input) :
    Carrying suits first bindings source node ↔
      Carrying suits second bindings source node ∧ also node.input := by
  unfold Carrying
  rw [same, and_assoc, and_assoc]

end Node

section Operators

variable {input : Type} {has : Carried input} {below : Row → Prop} {inner : Protocol input}
  {pulled : CursorAction input (Option Row)} {bindings : Bindings} {source : BindingSource}
  (closes : Stays (has bindings source) inner.close)
  (supplied : Supplies (has bindings source) below inner.next pulled)

/-- A cursor with this binding evaluates its predicate under it. -/
theorem Filter.accepts_under {suits : Unit → Prop} (context : Context) (predicate : Expr)
    (row : Row) {start : Filter.State input × Engine}
    (held : Node.Carrying suits has bindings source start.1) :
    AgreeFrom start (accepts context predicate row)
      (acceptsUnder bindings context predicate row)
      (fun _ after => Node.Carrying suits has bindings source after.1)
      fun _ after => Node.Carrying suits has bindings source after.1 := by
  change AgreeFrom start (acceptsUnder start.1.bindings context predicate row) _ _ _
  rw [held.1]
  exact keeps_bind (stays_in_journal _) (fun _ => keeps_pure _) start held

include closes supplied

theorem Filter.supplies_next (context : Context) (inputType : RowType) (predicate : Expr) :
    Supplies (Node.Carrying (fun _ => True) has bindings source) below
      (Filter.protocol context inputType predicate inner).next
      (Filter.protocolUnder bindings context inputType predicate (inner.pulling pulled)).next := by
  apply Node.supplies_next closes
  apply supplies_after (stays_in_journal _)
  intro _
  apply supplies_state
  intro node _
  change Supplies _ _ (search context inputType predicate inner (inner.remaining node.input + 1))
    (searchUnder bindings context inputType predicate (inner.pulling pulled)
      (inner.remaining node.input + 1))
  generalize inner.remaining node.input + 1 = bound
  induction bound with
  | zero => exact supplies_none
  | succ bound induction =>
      apply supplies_then (Node.supplies_pull supplied) (Node.supplies_ended closes)
      intro row given
      dsimp only
      split
      · exact supplies_some given
      · intro start held
        apply agree_bind (Filter.accepts_under context predicate row held)
        intro accepted after kept
        split
        · exact supplies_some given after kept
        · exact induction after kept

theorem Project.supplies_next (context : Context) (inputType outputType : RowType)
    (columns : List Expr) :
    Supplies (Node.Carrying (fun _ => True) has bindings source)
      (Project.Emits context bindings inputType columns below)
      (Project.protocol context inputType outputType columns inner).next
      (Project.protocolUnder bindings context inputType outputType columns
        (inner.pulling pulled)).next := by
  apply Node.supplies_next closes
  apply supplies_after (stays_in_journal _)
  intro _
  apply supplies_then (Node.supplies_pull supplied) (Node.supplies_ended closes)
  intro row given
  dsimp only
  split
  next foreign =>
    exact supplies_some (.inl ⟨by simpa using foreign, given⟩)
  next =>
    rintro ⟨node, engine⟩ held
    have own : node.bindings = bindings := held.1
    subst own
    refine ⟨rfl, held, fun made same => ?_⟩
    cases same
    exact .inr ⟨_, _, row, rfl, given⟩

theorem Limit.supplies_next (context : Context) (offset : Nat) (limit? : Option Nat) :
    Supplies (Node.Carrying (fun _ => True) has bindings source) below
      (Limit.protocol context offset limit? inner).next
      (Limit.protocol context offset limit? (inner.pulling pulled)).next := by
  have pulls : Supplies (Node.Carrying (fun _ => True) has bindings source) below
      (Node.pull inner : CursorAction (Limit.State input) _)
      (Node.pull (inner.pulling pulled)) := Node.supplies_pull supplied
  apply Node.supplies_next closes
  apply supplies_after (stays_in_journal _)
  intro _
  apply supplies_state
  intro node _
  dsimp only
  split
  · exact Node.supplies_ended closes
  · generalize offset - node.own.skipped = count
    induction count with
    | zero =>
        apply supplies_then pulls (Node.supplies_ended closes)
        intro row given
        exact supplies_after (Node.stays_change_own fun _ _ => trivial) fun _ => supplies_some given
    | succ count induction =>
        apply supplies_then pulls (Node.supplies_ended closes)
        intro row given
        exact supplies_after (Node.stays_change_own fun _ _ => trivial) fun _ => induction

end Operators

namespace Grouping

/-- A row that is held is of the input type. -/
def HoldsOwn (inputType : RowType) (state : GroupingState) : Prop :=
  ∀ row ∈ state.lookahead?, row.type.same inputType = true

theorem holds_own_settled (inputType : RowType) : Settled inputType (HoldsOwn inputType) where
  keyed := fun _ => id
  marked := fun _ => id
  reset := id
  absorbed := fun _ _ _ => id
  released := fun _ _ impossible => nomatch impossible
  held := by
    intro _ row own _ other same
    cases same
    exact own

variable {input : Type} {has : Carried input} {below : Row → Prop} {inner : Protocol input}
  {pulled : CursorAction input (Option Row)} {bindings : Bindings} {source : BindingSource}
  {plan : GroupingPlan}

/-- The row of a group is stored, and nothing is held because of it. -/
theorem supplies_group {follows : Row → CursorAction (State input) (Option Row)}
    (given : ∀ row, row.isStored = true →
      Supplies (Node.Carrying (HoldsOwn plan.inputType) has bindings source)
        (Passes plan.inputType below) (follows row) (follows row)) :
    Supplies (Node.Carrying (HoldsOwn plan.inputType) has bindings source)
      (Passes plan.inputType below) (emitGroup plan >>= follows) (emitGroup plan >>= follows) := by
  intro start held
  have made : EndsIn start (emitGroup plan) (fun row after => row.isStored = true ∧
      Node.Carrying (HoldsOwn plan.inputType) has bindings source after.1)
      fun _ after => Node.Carrying (HoldsOwn plan.inputType) has bindings source after.1 :=
    ⟨rfl, rfl, held⟩
  exact agree_bind made fun row after ends => given row ends.1 after ends.2

variable (closes : Stays (has bindings source) inner.close)
  (supplied : Supplies (has bindings source) below inner.next pulled)

include closes

theorem supplies_end_of_input :
    Supplies (Node.Carrying (HoldsOwn plan.inputType) has bindings source)
      (Passes plan.inputType below) (endOfInput plan inner)
      (endOfInput plan (inner.pulling pulled)) := by
  apply supplies_state
  intro node _
  dsimp only
  split
  · exact supplies_after (Node.stays_set_phase .closing) fun _ =>
      supplies_group fun row stored => supplies_some (.inr stored)
  · split
    · refine supplies_after (Node.stays_set_phase .closing) fun _ => ?_
      intro start held
      refine ⟨rfl, held, fun row made => ?_⟩
      cases made
      exact .inr rfl
    · exact Node.supplies_ended closes

include supplied

omit closes in
/-- A row that was held is of the input type. -/
theorem supplies_take_row :
    Supplies (Node.Carrying (HoldsOwn plan.inputType) has bindings source)
      (fun row => row.type.same plan.inputType = true ∨ below row) (takeRow inner)
      (takeRow (inner.pulling pulled)) := by
  apply supplies_state
  intro node held
  split
  next row holding =>
    exact supplies_after (Node.stays_change_own fun _ _ _ impossible => nomatch impossible)
      fun _ => supplies_some (.inl (held.2.1 row holding))
  next =>
    intro start kept
    exact agree_weaken (Node.supplies_pull supplied start kept)
      (fun _ _ ends => ⟨ends.1, fun row member => .inr (ends.2 row member)⟩) fun _ _ => id

theorem supplies_collect (context : Context) (bound : Nat) :
    Supplies (Node.Carrying (HoldsOwn plan.inputType) has bindings source)
      (Passes plan.inputType below) (collect context plan inner bound)
      (collect context plan (inner.pulling pulled) bound) := by
  have settled := holds_own_settled plan.inputType
  induction bound with
  | zero => exact supplies_none
  | succ bound induction =>
      apply supplies_then (supplies_take_row supplied) (supplies_end_of_input closes)
      intro row given
      dsimp only
      split
      next foreign =>
        have other : row.type.same plan.inputType = false := by simpa using foreign
        refine supplies_some (.inl ⟨other, given.resolve_left fun own => ?_⟩)
        exact Bool.false_ne_true (other.symm.trans own)
      next mine =>
        have own : row.type.same plan.inputType = true := by simpa using mine
        refine supplies_after (Node.stays_change_own fun _ => settled.marked true) fun _ =>
          supplies_state fun node _ => ?_
        split
        · apply supplies_state
          intro node _
          apply supplies_after (stays_in_journal _)
          intro equal
          split
          · exact supplies_after (stays_absorb settled plan.keys row) fun _ => induction
          · refine supplies_after (Node.stays_change_own fun _ => settled.held own) fun _ => ?_
            exact supplies_group fun row stored =>
              supplies_after (Node.stays_set_phase .opening) fun _ => supplies_some (.inr stored)
        · exact supplies_after (stays_start_group settled row) fun _ =>
            supplies_after (Node.stays_set_phase .running) fun _ => induction

variable (plan) in
theorem supplies_next (context : Context) :
    Supplies (Node.Carrying (HoldsOwn plan.inputType) has bindings source)
      (Passes plan.inputType below) (protocol context plan inner).next
      (protocol context plan (inner.pulling pulled)).next := by
  have settled := holds_own_settled plan.inputType
  apply supplies_after (Node.stays_check_call .next)
  intro _
  apply supplies_after (stays_in_journal _)
  intro _
  apply supplies_on_failure
    (keeps_bind (stays_forget settled) fun _ => Node.stays_abort closes)
  apply supplies_after (stays_in_journal _)
  intro _
  apply supplies_state
  intro node _
  split
  · exact Node.supplies_ended closes
  · exact supplies_collect closes supplied context _

end Grouping

namespace Scan

variable {fits : Row → Prop} {bindings : Bindings} {source : BindingSource}

/-- The leaf has the binding and the source, and the rows that wait in it are such. -/
def Drawing (fits : Row → Prop) : Carried Scan :=
  fun bindings source scan => Carrying bindings source scan ∧ ∀ row ∈ scan.pending, fits row

theorem drawing_abandoned {scan : Scan} (held : Drawing fits bindings source scan) :
    Drawing fits bindings source scan.abandon :=
  ⟨held.1, nofun⟩

theorem stays_close : Stays (Drawing fits bindings source) close :=
  keeps_bind (stays_check_call .close) fun _ => stays_change fun _ => drawing_abandoned

theorem supplies_next (context : Context) :
    Supplies (Drawing fits bindings source) fits (next context) (next context) := by
  apply supplies_after (stays_check_call .next)
  intro _
  apply supplies_after (keeps_on_failure (stays_change fun _ => drawing_abandoned)
    (stays_in_journal _))
  intro _
  apply supplies_after (stays_in_journal _)
  intro _
  rintro ⟨scan, engine⟩ held
  apply CursorAction.agree_state
  dsimp only
  split
  next row rest waiting =>
    obtain ⟨own, others⟩ := List.forall_mem_cons.mp (waiting ▸ held.2)
    exact agree_then (fun _ after => Drawing fits bindings source after.1)
      (CursorAction.agree_change _ ⟨held.1, others⟩) fun _ after kept =>
        supplies_some own after kept
  next =>
    exact agree_then (fun _ after => Drawing fits bindings source after.1)
      (CursorAction.agree_change _ held) fun _ after kept => supplies_none after kept

theorem supplies_instead_of {action : CursorAction Scan (Option Row)} (call : LeafCall)
    (supplies : Supplies (Drawing fits bindings source) fits action action) :
    Supplies (Drawing fits bindings source) fits (insteadOf call action) (insteadOf call action) :=
  supplies_after (stays_in_engine _) fun _ => supplies_after (stays_in_engine _) fun _ => supplies

end Scan

section Calls

variable {cursor : Type} {has : Carried cursor} {emits : Row → Prop} {protocol : Protocol cursor}
  {pulled : CursorAction cursor (Option Row)} {bindings : Bindings} {source : BindingSource}
  {state : cursor} {engine : Engine}

/-- The binding of a cursor after a call: a new one if the call returned one. -/
def CursorAnswer.latest (before : Bindings) : Except Interrupt CursorAnswer → Bindings
  | .ok (.bindings (some returned)) => returned
  | _ => before

/-- A call that returns neither a row nor a binding. -/
theorem carries_passive {action : CursorAction cursor Unit} {later : BindingSource}
    (acts : EndsIn (state, engine) action (fun _ after => has bindings later after.1)
      fun _ after => has bindings source after.1) :
    EndsIn (state, engine)
      (do
        action
        pure .done)
      (fun answer after =>
        (∃ source, has (CursorAnswer.latest bindings (.ok answer)) source after.1) ∧
          ∀ row, answer = .row (some row) → emits row)
      fun _ after => ∃ source, has bindings source after.1 := by
  apply agree_bind (agree_weaken acts (fun _ _ => id) fun _ _ kept => ⟨_, kept⟩)
  exact fun _ after kept => agree_pure CursorAnswer.done ⟨⟨later, kept⟩, nofun⟩

/-- Whatever is called, a cursor that has the binding is not told from one that is given it. -/
theorem Protocol.Carries.call_pulling (carries : protocol.Carries has) {draws : cursor → Prop}
    (supplied : Supplies draws emits protocol.next pulled)
    (carried : ∀ later, draws later → has bindings source later) (drawn : draws state)
    (engine : Engine) (call : CursorCall) :
    AgreeFrom (state, engine) (protocol.perform call) ((protocol.pulling pulled).perform call)
      (fun answer after =>
        (∃ source, has (CursorAnswer.latest bindings (.ok answer)) source after.1) ∧
          ∀ row, answer = .row (some row) → emits row)
      fun _ after => ∃ source, has bindings source after.1 := by
  have held := carried state drawn
  cases call with
  | openPass => exact carries_passive (carries.openPass bindings source _ held)
  | next =>
      apply agree_bind (agree_weaken (supplied (state, engine) drawn) (fun _ _ => id)
        fun _ after kept => ⟨source, carried after.1 kept⟩)
      intro row? after ends
      refine agree_pure _ ⟨⟨source, carried after.1 ends.1⟩, fun row made => ?_⟩
      cases made
      exact ends.2 row rfl
  | close => exact carries_passive (carries.close bindings source _ held)
  | destroy => exact carries_passive (carries.destroy bindings source _ held)
  | openBindings => exact carries_passive (carries.openBindings engine held)
  | nextBindings =>
      apply agree_bind (agree_weaken (carries.nextBindings engine held) (fun _ _ => id)
        fun _ _ kept => ⟨_, kept⟩)
      intro next? after ends
      refine agree_pure _ ⟨⟨source.next.2, ?_⟩, nofun⟩
      cases next? <;> exact ends.2
  | closeBindings => exact carries_passive (carries.closeBindings engine held)
  | cancelBindings cancelled =>
      have moved : EndsIn (state, engine) (modify (protocol.cancelBindings cancelled))
          (fun _ after => has bindings (source.cancel cancelled) after.1)
          fun _ after => has bindings source after.1 :=
        ⟨rfl, carries.cancelBindings cancelled engine held⟩
      exact carries_passive moved

end Calls

end QueryExec
