import QueryExec.Proofs.Lifecycle

/-!
The rows that a cursor tree holds: those that its leaf has pending and those that its aggregations
hold for their next group. A destroyed tree holds none. A closed tree holds none either unless a
leaf may fail to close, since an aggregation forgets its row only after its input has closed.
-/

namespace QueryExec

namespace Plan

/-- The rows held anywhere in the tree. -/
def held : (plan : Plan) → plan.Cursor → List Row
  | values _ _ _ => fun scan : Scan => scan.pending
  | table _ _ => fun scan : Scan => scan.pending
  | filter input _ => fun node : Filter.State input.Cursor => input.held node.input
  | project input _ _ => fun node : Project.State input.Cursor => input.held node.input
  | aggregate input _ _ _ => fun node : Grouping.State input.Cursor =>
      node.own.lookahead?.toList ++ input.held node.input
  | limit input _ _ => fun node : Limit.State input.Cursor => input.held node.input

variable {context : Context} {faulty : LeafCall → Prop} {plan : Plan} {cursor : plan.Cursor}

/-- The phases in which a coherent tree holds nothing. -/
def Released (faulty : LeafCall → Prop) (phase : Phase) : Prop :=
  phase = .destroyed ∨ phase = .closed ∧ ¬faulty .close

theorem idle_of_released {phase : Phase} (released : Released faulty phase) :
    phase.isActive = false := by
  rcases released with rfl | ⟨rfl, _⟩ <;> rfl

/-- The input of a released cursor is released. -/
theorem released_below {own input : Type} {phaseOf : input → Phase} {sound : input → Prop}
    {suits : Phase → own → Prop} {node : Node own input}
    (coherent : node.Coherent phaseOf sound suits) (released : Released faulty node.phase) :
    Released faulty (phaseOf node.input) :=
  released.imp coherent.destroyed.mp fun closed => ⟨coherent.closed closed.1, closed.2⟩

theorem nothing_held_when_released (coherent : plan.Coherent faulty cursor)
    (released : Released faulty (plan.phase cursor)) : plan.held cursor = [] := by
  induction plan with
  | values slice type rows => exact coherent (idle_of_released released)
  | table name type => exact coherent (idle_of_released released)
  | filter input predicate induction =>
      exact induction coherent.input (released_below coherent released)
  | project input type columns induction =>
      exact induction coherent.input (released_below coherent released)
  | aggregate input type keys aggregates induction =>
      have below := induction coherent.input (released_below coherent released)
      have own := coherent.own (released.imp_right .inr)
      exact List.append_eq_nil_iff.mpr ⟨by rw [own]; rfl, below⟩
  | limit input offset limit? induction =>
      exact induction coherent.input (released_below coherent released)

end Plan

/-! The run in which a closed tree holds a row: an aggregation over two groups is closed after the
first, and the leaf fails to close. -/

namespace FailedClose

def type : RowType :=
  ⟨0, [.notNull .boolean]⟩

def plan : Plan :=
  .aggregate (.table "" type) ⟨1, type.columns⟩ 1 []

def context : Context :=
  ⟨1, .empty, {}⟩

def store : Store where
  tables := ⟨[("", ⟨type, [.stored 1 type [.boolean false], .stored 2 type [.boolean true]]⟩)]⟩

/-- The first call that closes a leaf fails. -/
def probe : Probe where
  faults := ⟨[(.close, [1])]⟩

def engine : Engine where
  nextId := 3
  store := store
  probe? := some probe

def new : plan.Cursor :=
  ({ own := { accumulators := [] }, input := { source := .ofOne .empty : Scan } } :
    Grouping.State Scan)

theorem new_started : plan.start store (.ofOne .empty) = .ok new :=
  rfl

/-- A cursor that was closed after its first row. -/
def cursor : plan.Cursor × Engine :=
  plan.history context [.openPass, .next, .close] (new, engine)

theorem probe_admitted {faulty : LeafCall → Prop} (admitted : faulty .close) :
    probe.FaultsWithin faulty := by
  intro call number listed _
  cases call <;> first | exact admitted | cases listed

theorem faults_admitted {faulty : LeafCall → Prop} (admitted : faulty .close) :
    engine.FaultsWithin faulty := by
  intro probe present
  cases present
  exact probe_admitted admitted

theorem cursor_reached {faulty : LeafCall → Prop} (admitted : faulty .close) :
    plan.Reached context faulty cursor.1 :=
  (Plan.Reached.history (.start new_started) (faults_admitted admitted) _).1

theorem cursor_closed : plan.phase cursor.1 = .closed := by
  decide +kernel

theorem cursor_holds : (plan.held cursor.1).map Row.id = [2] := by
  decide +kernel

end FailedClose

namespace Plan

/-- Destroyed trees hold nothing whatever failed before, and closed trees hold nothing exactly when
no leaf can fail to close. -/
theorem rows_released_iff_no_failed_close (faulty : LeafCall → Prop) :
    (∀ (plan : Plan) (context : Context) (cursor : plan.Cursor),
      plan.Reached context faulty cursor → plan.phase cursor = .destroyed →
        plan.held cursor = []) ∧
    ((∀ (plan : Plan) (context : Context) (cursor : plan.Cursor),
      plan.Reached context faulty cursor → plan.phase cursor = .closed →
        plan.held cursor = []) ↔ ¬faulty .close) := by
  refine ⟨?_, ?_, ?_⟩
  · intro plan context cursor reached destroyed
    exact nothing_held_when_released reached.coherent (.inl destroyed)
  · intro releases admitted
    have empty := releases FailedClose.plan FailedClose.context FailedClose.cursor.1
      (FailedClose.cursor_reached admitted) FailedClose.cursor_closed
    have holds := FailedClose.cursor_holds
    rw [empty] at holds
    cases holds
  · intro quiet plan context cursor reached closed
    exact nothing_held_when_released reached.coherent (.inr ⟨closed, quiet⟩)

end Plan

end QueryExec
