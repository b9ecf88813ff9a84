import QueryExec.Proofs.Cursor.Calls
import QueryExec.Proofs.Plan

/-!
Cursor trees with a layer between every cursor and its input. With the empty layer the tree is the
one that runs. A guard answers the illegal calls that a cursor would forward, in any way it likes;
an interference changes the journal before every forwarded call, such as a cancellation from
outside does. Trees are lawful under both, whatever the guard would answer.
-/

namespace QueryExec

open QueryExec.Action

/-- A layer over any protocol. -/
abbrev Layer : Type 1 := (cursor : Type) → Protocol cursor → Protocol cursor

namespace Protocol

variable {cursor result : Type}

/-- The lawful step where the phase allows the call, else the other one. -/
def guardCall (call : Call) (phaseOf : cursor → Phase)
    (lawful misused : CursorAction cursor result) : CursorAction cursor result := do
  if call.legalIn (phaseOf (← CursorAction.state)) then lawful else misused

/-- Illegal calls are answered by another protocol. -/
def guarded (misused inner : Protocol cursor) : Protocol cursor :=
  { inner with
    openPass := guardCall .openPass inner.phase inner.openPass misused.openPass
    next := guardCall .next inner.phase inner.next misused.next
    close := guardCall .close inner.phase inner.close misused.close
    destroy := guardCall .destroy inner.phase inner.destroy misused.destroy
    openBindings := guardCall .openBindings inner.phase inner.openBindings misused.openBindings
    nextBindings := guardCall .nextBindings inner.phase inner.nextBindings misused.nextBindings
    closeBindings :=
      guardCall .closeBindings inner.phase inner.closeBindings misused.closeBindings }

/-- The journal is changed and then the call is made. -/
def interfered (meanwhile : Journal → Journal) (action : CursorAction cursor result) :
    CursorAction cursor result := do
  CursorAction.inJournal (modify meanwhile)
  action

/-- Something else changes the journal before every call. It may keep count in the journal, so the
change that matters can come before any one call. -/
def amid (meanwhile : Journal → Journal) (inner : Protocol cursor) : Protocol cursor :=
  { inner with
    openPass := interfered meanwhile inner.openPass
    next := interfered meanwhile inner.next
    close := interfered meanwhile inner.close
    destroy := interfered meanwhile inner.destroy
    openBindings := interfered meanwhile inner.openBindings
    nextBindings := interfered meanwhile inner.nextBindings
    closeBindings := interfered meanwhile inner.closeBindings
    cancelBindings := fun bindings pair =>
      inner.cancelBindings bindings
        (pair.1, { pair.2 with journal := meanwhile pair.2.journal }) }

variable {faulty : LeafCall → Prop} {sound : cursor → Prop} {left right : Protocol cursor}
  {state : cursor} {engine : Engine} {gives : result → cursor × Engine → Prop}
  {stops : Interrupt → cursor × Engine → Prop}

/-- Of a legal call the guard takes no notice. -/
theorem agree_guard {call : Call} {phaseOf : cursor → Phase}
    {first misused second : CursorAction cursor result}
    (legal : call.legalIn (phaseOf state) = true)
    (agree : AgreeFrom (state, engine) first second gives stops) :
    AgreeFrom (state, engine) (guardCall call phaseOf first misused) second gives stops := by
  have passes : (guardCall call phaseOf first misused).run (state, engine) =
      first.run (state, engine) := by
    unfold guardCall CursorAction.state
    simp only [bind_assoc, pure_bind, run_bind]
    change (if call.legalIn (phaseOf state) = true then first else misused).run (state, engine) = _
    rw [if_pos legal]
  exact ⟨passes.trans agree.1, agree.2⟩

theorem guarded_lawful (lawful : left.Lawful faulty sound right) (misused : Protocol cursor) :
    (guarded misused left).Lawful faulty sound right where
  phase := lawful.phase
  remaining := lawful.remaining
  openPass := fun kept faults closed =>
    agree_guard (by simp [lawful.phase, closed, Call.legalIn])
      (lawful.openPass kept faults closed)
  next := fun kept faults active =>
    agree_guard (by simp [lawful.phase, active, Call.legalIn]) (lawful.next kept faults active)
  close := fun kept faults active =>
    agree_guard (by simp [lawful.phase, active, Call.legalIn]) (lawful.close kept faults active)
  destroy := fun kept faults present =>
    agree_guard (by simp [lawful.phase, present, Call.legalIn])
      (lawful.destroy kept faults present)
  openBindings := fun kept faults present =>
    agree_guard (by simp [lawful.phase, present, Call.legalIn])
      (lawful.openBindings kept faults present)
  nextBindings := fun kept faults closed =>
    agree_guard (by simp [lawful.phase, closed, Call.legalIn])
      (lawful.nextBindings kept faults closed)
  closeBindings := fun kept faults present =>
    agree_guard (by simp [lawful.phase, present, Call.legalIn])
      (lawful.closeBindings kept faults present)
  cancelBindings := lawful.cancelBindings

theorem agree_interfered {meanwhile : Journal → Journal} {first second : CursorAction cursor result}
    (agree : AgreeFrom (state, { engine with journal := meanwhile engine.journal }) first second
      gives stops) :
    AgreeFrom (state, engine) (interfered meanwhile first) (interfered meanwhile second)
      gives stops :=
  agree

theorem amid_lawful (lawful : left.Lawful faulty sound right) (meanwhile : Journal → Journal) :
    (amid meanwhile left).Lawful faulty sound (amid meanwhile right) where
  phase := lawful.phase
  remaining := lawful.remaining
  openPass := fun kept faults closed => agree_interfered (lawful.openPass kept faults closed)
  next := fun kept faults active => agree_interfered (lawful.next kept faults active)
  close := fun kept faults active => agree_interfered (lawful.close kept faults active)
  destroy := fun kept faults present => agree_interfered (lawful.destroy kept faults present)
  openBindings := fun kept faults present =>
    agree_interfered (lawful.openBindings kept faults present)
  nextBindings := fun kept faults closed =>
    agree_interfered (lawful.nextBindings kept faults closed)
  closeBindings := fun kept faults present =>
    agree_interfered (lawful.closeBindings kept faults present)
  cancelBindings := fun bindings kept faults => lawful.cancelBindings bindings kept faults

end Protocol

/-- Over protocols that agree lawfully the layers agree lawfully again. -/
def KeepLaws (faulty : LeafCall → Prop) (first second : Layer) : Prop :=
  ∀ (cursor : Type) (sound : cursor → Prop) (left right : Protocol cursor),
    left.Lawful faulty sound right →
      (first cursor left).Lawful faulty sound (second cursor right) ∧
        (second cursor right).phase = right.phase

section Layers

variable {faulty : LeafCall → Prop}

theorem keep_laws_plain : KeepLaws faulty (fun _ inner => inner) fun _ inner => inner :=
  fun _ _ _ _ lawful => ⟨lawful, rfl⟩

theorem keep_laws_amid (meanwhile : Journal → Journal) :
    KeepLaws faulty (fun _ => Protocol.amid meanwhile) fun _ => Protocol.amid meanwhile :=
  fun _ _ _ _ lawful => ⟨Protocol.amid_lawful lawful meanwhile, rfl⟩

theorem keep_laws_guarded (misused : (cursor : Type) → Protocol cursor)
    (meanwhile : Journal → Journal) :
    KeepLaws faulty
      (fun cursor inner => Protocol.guarded (misused cursor) (Protocol.amid meanwhile inner))
      fun _ => Protocol.amid meanwhile :=
  fun cursor _ _ _ lawful =>
    ⟨Protocol.guarded_lawful (Protocol.amid_lawful lawful meanwhile) (misused cursor), rfl⟩

end Layers

namespace Plan

/-- The cursor tree of a plan with a layer between every cursor and its input. -/
def layered (context : Context) (layer : Layer) : (plan : Plan) → Protocol plan.Cursor
  | values _ _ rows => Scan.protocol context (pure rows)
  | table name _ => Scan.probed (Scan.protocol context (Scan.loadTable name))
  | filter input predicate =>
      Filter.protocol context input.rowType predicate (layer _ (layered context layer input))
  | project input type columns =>
      Project.protocol context input.rowType type columns (layer _ (layered context layer input))
  | aggregate input type keys _ =>
      Grouping.protocol context ⟨input.rowType, type, keys⟩
        (layer _ (layered context layer input))
  | limit input offset limit? =>
      Limit.protocol context offset limit? (layer _ (layered context layer input))

theorem layered_plain (context : Context) (plan : Plan) :
    plan.layered context (fun _ inner => inner) = plan.protocol context := by
  induction plan with
  | values slice type rows => rfl
  | table name type => rfl
  | filter input predicate induction =>
      exact congrArg (Filter.protocol context input.rowType predicate) induction
  | project input type columns induction =>
      exact congrArg (Project.protocol context input.rowType type columns) induction
  | aggregate input type keys aggregates induction =>
      exact congrArg (Grouping.protocol context ⟨input.rowType, type, keys⟩) induction
  | limit input offset limit? induction =>
      exact congrArg (Limit.protocol context offset limit?) induction

/-- The phase of the topmost cursor. -/
def phase : (plan : Plan) → plan.Cursor → Phase
  | values _ _ _ => Scan.phase
  | table _ _ => Scan.phase
  | filter _ _ => Node.phase
  | project _ _ _ => Node.phase
  | aggregate _ _ _ _ => Node.phase
  | limit _ _ _ => Node.phase

/-- The phases of all cursors of the tree, from the topmost down. -/
def phases : (plan : Plan) → plan.Cursor → List Phase
  | values _ _ _ => fun scan : Scan => [scan.phase]
  | table _ _ => fun scan : Scan => [scan.phase]
  | filter input _ => fun node : Filter.State input.Cursor => node.phase :: input.phases node.input
  | project input _ _ => fun node : Project.State input.Cursor =>
      node.phase :: input.phases node.input
  | aggregate input _ _ _ => fun node : Grouping.State input.Cursor =>
      node.phase :: input.phases node.input
  | limit input _ _ => fun node : Limit.State input.Cursor => node.phase :: input.phases node.input

/-- Every cursor of the tree is coherent with its input. -/
def Coherent (faulty : LeafCall → Prop) : (plan : Plan) → plan.Cursor → Prop
  | values _ _ _ => Scan.Coherent
  | table _ _ => Scan.Coherent
  | filter input _ => Node.Coherent input.phase (input.Coherent faulty) fun _ _ => True
  | project input _ _ => Node.Coherent input.phase (input.Coherent faulty) fun _ _ => True
  | aggregate input _ _ _ =>
      Node.Coherent input.phase (input.Coherent faulty) (Grouping.Suits faulty)
  | limit input _ _ => Node.Coherent input.phase (input.Coherent faulty) fun _ _ => True

theorem layered_phase (context : Context) (layer : Layer) (plan : Plan) :
    (plan.layered context layer).phase = plan.phase := by
  cases plan <;> rfl

/-- The tree is lawful under layers that keep the laws: one case for each operator, each over the
input that is lawful by induction. -/
theorem layered_lawful {faulty : LeafCall → Prop} {first second : Layer}
    (keep : KeepLaws faulty first second) (context : Context) (plan : Plan) :
    (plan.layered context first).Lawful faulty (plan.Coherent faulty)
      (plan.layered context second) := by
  have inputPhase : ∀ input : Plan,
      (input.layered context first).Lawful faulty (input.Coherent faulty)
        (input.layered context second) →
      (first _ (input.layered context first)).Lawful faulty (input.Coherent faulty)
          (second _ (input.layered context second)) ∧
        (second _ (input.layered context second)).phase = input.phase := by
    intro input lawful
    have kept := keep _ _ _ _ lawful
    exact ⟨kept.1, kept.2.trans (layered_phase context second input)⟩
  induction plan with
  | values slice type rows => exact Scan.protocol_lawful context (Scan.reads_rows_pure rows)
  | table name type => exact Scan.probed_lawful context (Scan.reads_rows_table name)
  | filter input predicate induction =>
      obtain ⟨lawful, phase⟩ := inputPhase input induction
      have whole := Filter.protocol_lawful lawful context input.rowType predicate
      rw [phase] at whole
      exact whole
  | project input type columns induction =>
      obtain ⟨lawful, phase⟩ := inputPhase input induction
      have whole := Project.protocol_lawful lawful context input.rowType type columns
      rw [phase] at whole
      exact whole
  | aggregate input type keys aggregates induction =>
      obtain ⟨lawful, phase⟩ := inputPhase input induction
      have whole := Grouping.protocol_lawful lawful context ⟨input.rowType, type, keys⟩
      rw [phase] at whole
      exact whole
  | limit input offset limit? induction =>
      obtain ⟨lawful, phase⟩ := inputPhase input induction
      have whole := Limit.protocol_lawful lawful context offset limit?
      rw [phase] at whole
      exact whole

theorem layered_refuses {faulty : LeafCall → Prop} {first second : Layer}
    (keep : KeepLaws faulty first second) (context : Context) (plan : Plan) :
    (plan.layered context first).Refuses faulty (plan.Coherent faulty)
      (plan.layered context second) := by
  cases plan with
  | values slice type rows => exact Scan.protocol_refuses context (pure rows)
  | table name type => exact Scan.probed_refuses context (Scan.loadTable name)
  | filter input predicate => exact Node.protocol_refuses context "filter.next" _ _
  | project input type columns => exact Node.protocol_refuses context "project.next" _ _
  | aggregate input type keys aggregates =>
      have phase := (keep _ _ _ _ (layered_lawful keep context input)).2.trans
        (layered_phase context second input)
      rw [Coherent, ← phase]
      exact Grouping.protocol_refuses context ⟨input.rowType, type, keys⟩
  | limit input offset limit? => exact Limit.protocol_refuses context offset limit?

theorem protocol_lawful {faulty : LeafCall → Prop} (context : Context) (plan : Plan) :
    (plan.protocol context).Lawful faulty (plan.Coherent faulty) (plan.protocol context) := by
  rw [← layered_plain]
  exact layered_lawful keep_laws_plain context plan

/-- A new operator over a new input is coherent. -/
theorem new_node_coherent {own : Type} {input : Plan} {faulty : LeafCall → Prop}
    (suits : Phase → own → Prop) {rest : input.Cursor} (ready : input.Coherent faulty rest)
    (closed : input.phase rest = .closed) (start : own) (suitable : suits .closed start) :
    Node.Coherent input.phase (input.Coherent faulty) suits { own := start, input := rest } := by
  refine ⟨ready, fun _ => closed, ?_, suitable⟩
  dsimp only
  rw [closed]

/-- A new cursor is coherent and closed. -/
theorem start_coherent {faulty : LeafCall → Prop} {store : Store} {source : BindingSource}
    {plan : Plan} {cursor : plan.Cursor} (started : plan.start store source = .ok cursor) :
    plan.Coherent faulty cursor ∧ plan.phase cursor = .closed := by
  induction started using started_induction with
  | values slice type rows => exact ⟨fun _ => rfl, rfl⟩
  | table name type => exact ⟨fun _ => rfl, rfl⟩
  | filter input predicate rest _ _ below =>
      exact ⟨new_node_coherent (fun _ _ => True) below.1 below.2 () trivial, rfl⟩
  | project input type columns rest _ _ below =>
      exact ⟨new_node_coherent (fun _ _ => True) below.1 below.2 () trivial, rfl⟩
  | aggregate input type keys aggregates accumulators rest _ _ _ below =>
      exact ⟨new_node_coherent (Grouping.Suits faulty) below.1 below.2 { accumulators }
        (Grouping.suits_of_empty rfl .closed), rfl⟩
  | limit input offset limit? rest _ _ below =>
      exact ⟨new_node_coherent (fun _ (_ : Limit.Progress) => True) below.1 below.2 {} trivial,
        rfl⟩

end Plan

end QueryExec
