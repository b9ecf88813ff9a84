import QueryExec.Proofs.Cursor.Links

/-!
How often the leaf of a tree is destroyed. Let the leaf do anything when it is asked to be
destroyed: the other calls on the tree stay what they are, since none of them asks, and destroying
the tree asks once. What comes before does not depend on the answer, and after the answer the tree
only ends.
-/

namespace QueryExec

open QueryExec.Action

/-- The protocol with another way of being destroyed. -/
def Protocol.destroying {cursor : Type} (protocol : Protocol cursor)
    (destroy : CursorAction cursor Unit) : Protocol cursor :=
  { protocol with destroy }

section Operators

variable {own input : Type} (inner : Protocol input) (destroy : CursorAction input Unit)

theorem Node.pull_destroying :
    (Node.pull (inner.destroying destroy) : CursorAction (Node own input) (Option Row)) =
      Node.pull inner :=
  rfl

theorem Node.finish_destroying :
    (Node.finish (inner.destroying destroy) : CursorAction (Node own input) Unit) =
      Node.finish inner :=
  rfl

/-- An operator whose way of making rows destroys nothing destroys its input only when it is
destroyed itself. -/
theorem Node.protocol_destroying (context : Context) (tap : String)
    (advance : CursorAction (Node own input) (Option Row)) :
    Node.protocol context tap (inner.destroying destroy) advance =
      (Node.protocol context tap inner advance).destroying
        (Node.destroy (inner.destroying destroy)) :=
  rfl

theorem Filter.search_destroying (context : Context) (inputType : RowType) (predicate : Expr)
    (bound : Nat) :
    Filter.search context inputType predicate (inner.destroying destroy) bound =
      Filter.search context inputType predicate inner bound := by
  induction bound with
  | zero => rfl
  | succ bound induction =>
      simp only [Filter.search, Node.pull_destroying, Node.finish_destroying, induction]

theorem Filter.protocol_destroying (context : Context) (inputType : RowType) (predicate : Expr) :
    Filter.protocol context inputType predicate (inner.destroying destroy) =
      (Filter.protocol context inputType predicate inner).destroying
        (Node.destroy (inner.destroying destroy)) := by
  have same : Filter.advance context inputType predicate (inner.destroying destroy) =
      Filter.advance context inputType predicate inner := by
    unfold Filter.advance
    simp only [Filter.search_destroying]
    rfl
  unfold Filter.protocol
  rw [same, Node.protocol_destroying]

theorem Project.protocol_destroying (context : Context) (inputType outputType : RowType)
    (columns : List Expr) :
    Project.protocol context inputType outputType columns (inner.destroying destroy) =
      (Project.protocol context inputType outputType columns inner).destroying
        (Node.destroy (inner.destroying destroy)) :=
  rfl

theorem Limit.skip_destroying (count : Nat) :
    Limit.skip (inner.destroying destroy) count = Limit.skip inner count := by
  induction count with
  | zero => simp only [Limit.skip, Node.pull_destroying, Node.finish_destroying]
  | succ count induction =>
      simp only [Limit.skip, Node.pull_destroying, Node.finish_destroying, induction]

theorem Limit.protocol_destroying (context : Context) (offset : Nat) (limit? : Option Nat) :
    Limit.protocol context offset limit? (inner.destroying destroy) =
      (Limit.protocol context offset limit? inner).destroying
        (Node.destroy (inner.destroying destroy)) := by
  have same : Limit.advance context offset limit? (inner.destroying destroy) =
      Limit.advance context offset limit? inner := by
    unfold Limit.advance
    simp only [Limit.skip_destroying, Node.finish_destroying]
  unfold Limit.protocol
  rw [same, Node.protocol_destroying]
  rfl

namespace Grouping

theorem collect_destroying (context : Context) (plan : GroupingPlan) (bound : Nat) :
    collect context plan (inner.destroying destroy) bound = collect context plan inner bound := by
  have taken : takeRow (inner.destroying destroy) = takeRow inner := rfl
  have ended : endOfInput plan (inner.destroying destroy) = endOfInput plan inner := rfl
  induction bound with
  | zero => rfl
  | succ bound induction => simp only [collect, taken, ended, induction]

theorem protocol_destroying (context : Context) (plan : GroupingPlan) :
    protocol context plan (inner.destroying destroy) =
      (protocol context plan inner).destroying (Grouping.destroy (inner.destroying destroy)) := by
  have same : advance context plan (inner.destroying destroy) = advance context plan inner := by
    unfold advance
    simp only [collect_destroying, Node.finish_destroying]
    rfl
  have nexts : next context plan (inner.destroying destroy) = next context plan inner := by
    unfold next
    rw [same]
    rfl
  unfold protocol
  rw [nexts]
  rfl

end Grouping

end Operators

namespace Scan

/-- What a leaf may do when it is asked to be destroyed: it fails or not, and changes itself and the
engine. -/
abbrev Answer : Type :=
  Scan × Engine → Except QueryError Unit × Scan × Engine

def answering (answer : Answer) : CursorAction Scan Unit :=
  ExceptT.mk fun pair => ((answer pair).1.mapError .failed, (answer pair).2)

/-- The failure that an outcome has, unless it is a read outside a row. -/
def failure : Except Interrupt Unit → Except QueryError Unit
  | .error (.failed error) => .error error
  | _ => .ok ()

/-- Every way of being destroyed that reads no row is an answer. -/
theorem answering_of_failures {action : CursorAction Scan Unit}
    (fails : ∀ pair, EndsIn pair action (fun _ _ => True)
      fun interrupt _ => interrupt ≠ .indexOutOfRange) :
    ∃ answer, answering answer = action := by
  refine ⟨fun pair => (failure (action.run pair).1, (action.run pair).2),
    ExceptT.ext (funext fun pair => ?_)⟩
  have meets := (fails pair).2
  revert meets
  change Meets _ _ (action.run pair) → _ = action.run pair
  unfold answering
  dsimp only [ExceptT.run_mk]
  rcases action.run pair with ⟨⟨_ | _⟩ | _, after⟩
  · exact fun _ => rfl
  · exact fun outside => absurd rfl outside
  · exact fun _ => rfl

theorem destroy_fails (pair : Scan × Engine) :
    EndsIn pair destroy (fun _ after => after.2 = pair.2)
      fun interrupt _ => interrupt ≠ .indexOutOfRange := by
  obtain ⟨scan, engine⟩ := pair
  refine agree_reaching (scan, engine)
    (CursorAction.agree_state (Call.agree_check (fun _ => rfl) fun _ => nofun)) fun _ => ?_
  exact CursorAction.agree_change _ rfl

theorem probed_destroy_fails (pair : Scan × Engine) :
    EndsIn pair (after .destroy destroy) (fun _ _ => True)
      fun interrupt _ => interrupt ≠ .indexOutOfRange := by
  obtain ⟨scan, engine⟩ := pair
  refine agree_then (fun _ reached => reached = (scan, engine.noted .destroy)) ⟨rfl, rfl⟩ ?_
  rintro _ _ rfl
  apply agree_bind (destroy_fails (scan, engine.noted .destroy))
  rintro _ ⟨_, _⟩ rfl
  exact CursorAction.agree_in_engine
    (Engine.agree_inject_fault engine.faults_within_any trivial fun _ => nofun)

end Scan

namespace Plan

/-- The cursor tree of a plan over a leaf that answers in some way when it is destroyed, and does
all else as it always does. -/
def answering (context : Context) (answer : Scan.Answer) : (plan : Plan) → Protocol plan.Cursor
  | values _ _ rows =>
      (Scan.protocol context (pure rows)).destroying (Scan.answering answer)
  | table name _ =>
      (Scan.probed (Scan.protocol context (Scan.loadTable name))).destroying
        (Scan.answering answer)
  | filter input predicate =>
      Filter.protocol context input.rowType predicate (answering context answer input)
  | project input type columns =>
      Project.protocol context input.rowType type columns (answering context answer input)
  | aggregate input type keys _ =>
      Grouping.protocol context ⟨input.rowType, type, keys⟩ (answering context answer input)
  | limit input offset limit? =>
      Limit.protocol context offset limit? (answering context answer input)

/-- The leaf of a tree. -/
def leaf : (plan : Plan) → plan.Cursor → Scan
  | values _ _ _ => id
  | table _ _ => id
  | filter input _ => fun node : Filter.State input.Cursor => input.leaf node.input
  | project input _ _ => fun node : Project.State input.Cursor => input.leaf node.input
  | aggregate input _ _ _ => fun node : Grouping.State input.Cursor => input.leaf node.input
  | limit input _ _ => fun node : Limit.State input.Cursor => input.leaf node.input

end Plan

/-- A destroyed cursor over an input. -/
def Node.sealed {own input : Type} (node : Node own input) (rest : input) : Node own input :=
  { node with phase := .destroyed, input := rest }

namespace Plan

/-- The tree over another leaf, with all cursors above the leaf destroyed. -/
def sealed : (plan : Plan) → plan.Cursor → Scan → plan.Cursor
  | values _ _ _ => fun _ scan => scan
  | table _ _ => fun _ scan => scan
  | filter input _ => fun (node : Filter.State input.Cursor) scan =>
      node.sealed (input.sealed node.input scan)
  | project input _ _ => fun (node : Project.State input.Cursor) scan =>
      node.sealed (input.sealed node.input scan)
  | aggregate input _ _ _ => fun (node : Grouping.State input.Cursor) scan =>
      node.sealed (input.sealed node.input scan)
  | limit input _ _ => fun (node : Limit.State input.Cursor) scan =>
      node.sealed (input.sealed node.input scan)

variable {context : Context} {faulty : LeafCall → Prop} {plan : Plan}

/-- The tree that runs is the one whose leaf does what it does. -/
theorem answering_own (context : Context) (plan : Plan) :
    ∃ answer, plan.answering context answer = plan.protocol context := by
  induction plan with
  | values slice type rows =>
      obtain ⟨answer, same⟩ := Scan.answering_of_failures fun pair =>
        agree_weaken (Scan.destroy_fails pair) (fun _ _ _ => trivial) fun _ _ => id
      exact ⟨answer, congrArg (Scan.protocol context (pure rows)).destroying same⟩
  | table name type =>
      obtain ⟨answer, same⟩ := Scan.answering_of_failures Scan.probed_destroy_fails
      exact ⟨answer, congrArg
        (Scan.probed (Scan.protocol context (Scan.loadTable name))).destroying same⟩
  | filter input predicate induction =>
      obtain ⟨answer, same⟩ := induction
      exact ⟨answer, congrArg (Filter.protocol context input.rowType predicate) same⟩
  | project input type columns induction =>
      obtain ⟨answer, same⟩ := induction
      exact ⟨answer, congrArg (Project.protocol context input.rowType type columns) same⟩
  | aggregate input type keys aggregates induction =>
      obtain ⟨answer, same⟩ := induction
      exact ⟨answer, congrArg (Grouping.protocol context ⟨input.rowType, type, keys⟩) same⟩
  | limit input offset limit? induction =>
      obtain ⟨answer, same⟩ := induction
      exact ⟨answer, congrArg (Limit.protocol context offset limit?) same⟩

/-- Whatever the leaf answers, only the destruction of the tree can tell. -/
theorem answering_eq (context : Context) (answer : Scan.Answer) (plan : Plan) :
    plan.answering context answer =
      (plan.protocol context).destroying (plan.answering context answer).destroy := by
  induction plan with
  | values slice type rows => rfl
  | table name type => rfl
  | filter input predicate induction =>
      unfold answering protocol
      rw [induction, Filter.protocol_destroying]
      rfl
  | project input type columns induction =>
      unfold answering protocol
      rw [induction, Project.protocol_destroying]
      rfl
  | aggregate input type keys aggregates induction =>
      unfold answering protocol
      rw [induction, Grouping.protocol_destroying]
      rfl
  | limit input offset limit? induction =>
      unfold answering protocol
      rw [induction, Limit.protocol_destroying]
      rfl

end Plan

/-- Destroying asks the leaf once, and asks one that is not destroyed yet: what comes before does
not depend on the answer, and after it nothing is left but to end. A failure to close is reported
first. -/
def AsksOnce {cursor : Type} (leaf : cursor → Scan) (sealed : cursor → Scan → cursor)
    (destroy : Scan.Answer → CursorAction cursor Unit) (pair : cursor × Engine) : Prop :=
  ∃ (closed : Except QueryError Unit) (reached : cursor × Engine),
    (leaf reached.1).phase ≠ .destroyed ∧
    ∀ answer : Scan.Answer, (destroy answer).run pair =
      ((closed.bind fun _ => (answer (leaf reached.1, reached.2)).1).mapError .failed,
        sealed reached.1 (answer (leaf reached.1, reached.2)).2.1,
        (answer (leaf reached.1, reached.2)).2.2)

namespace Node

variable {own input : Type} {faulty : LeafCall → Prop} {sound : input → Prop}
  {inner : Protocol input} {node : Node own input} {engine : Engine}

/-- What a cursor does before it asks its input to be destroyed fails at most by a fault, which
becomes an answer. -/
theorem closed_before (lawful : inner.Lawful faulty sound inner)
    (kept : Kept faulty sound (node.input, engine))
    (present : inner.phase node.input ≠ .destroyed) :
    EndsIn (node, engine)
      (if node.phase.isActive then (finish inner).attempt else pure (.ok ()))
      (fun _ after => Kept faulty sound (after.1.input, after.2) ∧
        inner.phase after.1.input ≠ .destroyed) fun _ _ => False := by
  split
  · refine agree_attempt (agree_weaken (finish_agrees lawful kept present) ?_ ?_)
    · rintro _ after ⟨kept, closed, _⟩
      exact ⟨kept, by rw [closed]; decide⟩
    · rintro _ after ⟨⟨kept, closed, _⟩, call, _, _, rfl⟩
      exact ⟨kept, by rw [closed]; decide⟩
  · exact agree_pure _ ⟨kept, present⟩

theorem on_input_run {result : Type} (action : CursorAction input result) :
    (onInput action : CursorAction (Node own input) result).run (node, engine) =
      ((action.run (node.input, engine)).1,
        { node with input := (action.run (node.input, engine)).2.1 },
        (action.run (node.input, engine)).2.2) :=
  rfl

/-- How a destruction ends once the cursor has closed. -/
def destroyRest (inner : Protocol input) (closed : Except QueryError Unit) :
    CursorAction (Node own input) Unit := do
  let destroyed ← (onInput inner.destroyOnce).attempt
  setPhase .destroyed
  Action.ofExcept closed
  Action.ofExcept destroyed

/-- The outcome of the input comes after that of the closing. -/
theorem destroy_rest_run {destroy : CursorAction input Unit} {closed below : Except QueryError Unit}
    {rest : input} {last : Engine} (present : inner.phase node.input ≠ .destroyed)
    (destroyed : destroy.run (node.input, engine) = (below.mapError .failed, rest, last)) :
    (destroyRest (inner.destroying destroy) closed).run (node, engine) =
      ((closed.bind fun _ => below).mapError .failed, node.sealed rest, last) := by
  have once : ((inner.destroying destroy).destroyOnce).run (node.input, engine) =
      (below.mapError .failed, rest, last) := by
    unfold Protocol.destroyOnce
    rw [run_bind]
    change (if inner.phase node.input = .destroyed then pure () else destroy).run
      (node.input, engine) = _
    rw [if_neg present, destroyed]
  unfold destroyRest
  rw [run_bind, run_attempt, on_input_run, once]
  cases below <;> cases closed <;> rfl

/-- A cursor that is not destroyed passes the check, closes if it is active and goes on. -/
theorem destroy_run {closed : Except QueryError Unit} {midway : Node own input × Engine}
    (present : node.phase ≠ .destroyed)
    (closing : (if node.phase.isActive then (finish inner).attempt else pure (.ok ()) :
      CursorAction (Node own input) (Except QueryError Unit)).run (node, engine) =
        (.ok closed, midway)) :
    (Node.destroy inner).run (node, engine) = (destroyRest inner closed).run midway := by
  have checked : (check .destroy : CursorAction (Node own input) Unit).run (node, engine) =
      (.ok (), node, engine) := by
    have legal : Call.destroy.legalIn node.phase = true := by simp [Call.legalIn, present]
    change (if Call.destroy.legalIn node.phase then pure () else _ :
      CursorAction (Node own input) Unit).run (node, engine) = _
    rw [if_pos legal]
    rfl
  unfold Node.destroy
  rw [run_bind, checked]
  change (if node.phase.isActive then (finish inner).attempt >>= destroyRest inner
    else pure (.ok ()) >>= destroyRest inner).run (node, engine) = _
  revert closing
  split <;> exact fun closing => by rw [run_bind, closing]

/-- A cursor asks the leaf through its input. -/
theorem destroy_asks_once {leaf : input → Scan} {sealed : input → Scan → input}
    {destroy : Scan.Answer → CursorAction input Unit} (lawful : inner.Lawful faulty sound inner)
    (asks : ∀ pair, Kept faulty sound pair → inner.phase pair.1 ≠ .destroyed →
      AsksOnce leaf sealed destroy pair)
    (kept : Kept faulty sound (node.input, engine)) (present : node.phase ≠ .destroyed)
    (below : inner.phase node.input ≠ .destroyed) :
    AsksOnce (fun node => leaf node.input) (fun node scan => node.sealed (sealed node.input scan))
      (fun answer => Node.destroy (inner.destroying (destroy answer))) (node, engine) := by
  have before := (closed_before lawful kept below).2
  revert before
  generalize closing : (if node.phase.isActive then (finish inner).attempt
    else pure (.ok ()) : CursorAction (Node own input) (Except QueryError Unit)).run
      (node, engine) = ran
  obtain ⟨_ | closed, midway, later⟩ := ran
  · exact False.elim
  rintro ⟨kept, below⟩
  obtain ⟨first, reached, legal, asks⟩ := asks (midway.input, later) kept below
  refine ⟨closed.bind fun _ => first, ({ midway with input := reached.1 }, reached.2), legal, ?_⟩
  intro answer
  have started : (Node.destroy (inner.destroying (destroy answer))).run (node, engine) =
      (destroyRest (inner.destroying (destroy answer)) closed).run (midway, later) :=
    destroy_run present closing
  rw [started, destroy_rest_run below (asks answer)]
  cases closed <;> rfl

end Node

namespace Plan

variable {context : Context} {faulty : LeafCall → Prop}

/-- An operator over a tree that asks its leaf once does so too. -/
theorem asks_once_above {input : Plan} (context : Context)
    (asks : ∀ {pair}, Kept faulty (input.Coherent faulty) pair →
      input.phase pair.1 ≠ .destroyed → AsksOnce input.leaf input.sealed
        (fun answer => (input.answering context answer).destroy) pair)
    {own : Type} {suits : Phase → own → Prop} {pair : Node own input.Cursor × Engine}
    (kept : Kept faulty (Node.Coherent input.phase (input.Coherent faulty) suits) pair)
    (present : pair.1.phase ≠ .destroyed) :
    AsksOnce (fun node => input.leaf node.input)
      (fun node scan => node.sealed (input.sealed node.input scan))
      (fun answer => Node.destroy (input.answering context answer)) pair := by
  have phase : (input.protocol context).phase = input.phase := by
    rw [← layered_plain]
    exact layered_phase context _ input
  have below : (input.protocol context).phase pair.1.input ≠ .destroyed := by
    rw [phase]
    exact fun gone => present (kept.1.destroyed.mpr gone)
  have asked := Node.destroy_asks_once (input.protocol_lawful context)
    (fun pair kept present => asks kept (by rwa [phase] at present)) ⟨kept.1.input, kept.2⟩ present
    below
  simp only [← answering_eq] at asked
  exact asked

/-- Destroying a tree in good order asks its leaf once: by induction on the plan. -/
theorem asks_once (context : Context) (plan : Plan) {pair : plan.Cursor × Engine}
    (kept : Kept faulty (plan.Coherent faulty) pair) (present : plan.phase pair.1 ≠ .destroyed) :
    AsksOnce plan.leaf plan.sealed (fun answer => (plan.answering context answer).destroy)
      pair := by
  induction plan with
  | values slice type rows => exact ⟨.ok (), pair, present, fun _ => rfl⟩
  | table name type => exact ⟨.ok (), pair, present, fun _ => rfl⟩
  | filter input predicate induction => exact asks_once_above context induction kept present
  | project input type columns induction => exact asks_once_above context induction kept present
  | aggregate input type keys aggregates induction =>
      obtain ⟨node, engine⟩ := pair
      -- The held row is let go first, which the aggregation does without its input.
      have forgotten : Kept faulty
          (Node.Coherent input.phase (input.Coherent faulty) fun _ (_ : GroupingState) => True)
          ({ node with own := { node.own with lookahead? := none } }, engine) :=
        ⟨⟨kept.1.input, kept.1.closed, kept.1.destroyed, trivial⟩, kept.2⟩
      exact asks_once_above context induction forgotten present
  | limit input offset limit? induction => exact asks_once_above context induction kept present

end Plan

end QueryExec
