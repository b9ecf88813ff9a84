import Mathlib.Order.CompleteBooleanAlgebra
import Mathlib.Order.CompletePartialOrder
import QueryExec.Proofs.Beside.Plans
import QueryExec.Proofs.Cursor.Dwindling

/-!
Cursors that record what is pulled from them. The log stands beside the cursor: no call looks at it,
and it gets an entry each time a row or the end of the rows comes up. An aggregation over such an
input answers every call as it does over the input alone and leaves the same cursor, so what the log
says of it is true of the aggregation as it is.
-/

namespace QueryExec

open QueryExec.Action QueryExec.Correspondence

/-- What happens between an operator, its input and its caller: a row came up, the rows came to
their end, or a row was given to the caller. -/
inductive Entry
  | pulled (row : Row)
  | ended
  | given (row : Row)

/-- What a pull brings up. -/
def Entry.ofPull : Option Row → Entry
  | some row => .pulled row
  | none => .ended

/-- A cursor and its log, which has the latest entry first. -/
structure Recorded (cursor : Type) where
  cursor : cursor
  log : List Entry := []

variable {cursor own input result : Type}

namespace Recorded

def note (entry : Entry) (recorded : Recorded cursor) : Recorded cursor :=
  { recorded with log := entry :: recorded.log }

/-- A call on the cursor that leaves the log alone. -/
def forward (action : CursorAction cursor result) : CursorAction (Recorded cursor) result :=
  action.onPart (fun pair => (pair.1.cursor, pair.2))
    fun part pair => ({ pair.1 with cursor := part.1 }, part.2)

end Recorded

/-- The protocol of a cursor that records what its calls of `next` bring up. -/
def Protocol.recorded (protocol : Protocol cursor) : Protocol (Recorded cursor) where
  phase := fun recorded => protocol.phase recorded.cursor
  openPass := Recorded.forward protocol.openPass
  next := do
    let row? ← Recorded.forward protocol.next
    CursorAction.change (Recorded.note (.ofPull row?))
    pure row?
  close := Recorded.forward protocol.close
  destroy := Recorded.forward protocol.destroy
  openBindings := Recorded.forward protocol.openBindings
  nextBindings := Recorded.forward protocol.nextBindings
  closeBindings := Recorded.forward protocol.closeBindings
  cancelBindings := fun bindings pair =>
    let (cursor, engine) := protocol.cancelBindings bindings (pair.1.cursor, pair.2)
    ({ pair.1 with cursor }, engine)
  remaining := fun recorded => protocol.remaining recorded.cursor
  passes := fun recorded => protocol.passes recorded.cursor

namespace Node

/-- A cursor whose input has a log from here on. -/
def recorded (node : Node own input) (log : List Entry) : Node own (Recorded input) :=
  { node with input := ⟨node.input, log⟩ }

def unrecorded (node : Node own (Recorded input)) : Node own input :=
  { node with input := node.input.cursor }

end Node

namespace Recorded

/-- A step on the cursor ends on the recorded cursor as it does alone. -/
theorem agree_forward {recorded : Recorded cursor} {engine : Engine}
    {left right : CursorAction cursor result} {gives : result → Recorded cursor × Engine → Prop}
    {stops : Interrupt → Recorded cursor × Engine → Prop}
    (agree : AgreeFrom (recorded.cursor, engine) left right
      (fun value after => gives value ({ recorded with cursor := after.1 }, after.2))
      fun interrupt after => stops interrupt ({ recorded with cursor := after.1 }, after.2)) :
    AgreeFrom (recorded, engine) (forward left) (forward right) gives stops :=
  agree_on_part agree

/-- A pull brings up what the cursor alone would give, and the log says so. -/
theorem next_ensures {protocol : Protocol cursor} {recorded : Recorded cursor} {engine : Engine}
    {gives : Option Row → cursor × Engine → Prop}
    (ensures : Ensures (recorded.cursor, engine) protocol.next gives) :
    Ensures (recorded, engine) protocol.recorded.next fun row? after =>
      gives row? (after.1.cursor, after.2) ∧ after.1.log = .ofPull row? :: recorded.log := by
  apply agree_then
    (fun row? after => gives row? (after.1.cursor, after.2) ∧ after.1.log = recorded.log)
    (agree_forward (agree_weaken ensures (fun _ _ given => ⟨given, rfl⟩) fun _ _ => id))
  intro row? after ends
  obtain ⟨⟨reached, log⟩, engine⟩ := after
  obtain ⟨given, rfl⟩ := ends
  exact ⟨rfl, given, rfl⟩

end Recorded

namespace Correspondence

/-- Everything is the same in both runs. -/
def identical : Correspondence Unit where
  rows := fun _ => Eq
  bound := fun _ _ => True
  engines := fun _ => Eq

/-- One step beside itself. -/
theorem identical_steps {gives : Unit → result → result → Prop} (world : Unit)
    (action : Action Engine result) (reflexive : ∀ value, gives world value value) :
    Correspond identical.engines world action action gives := by
  rintro engine _ rfl
  rcases action.run engine with ⟨interrupt | value, after⟩
  · exact ⟨rfl, world, le_rfl, rfl⟩
  · exact ⟨world, le_rfl, rfl, reflexive value⟩

theorem identical_lawful (context : Context) : identical.Lawful context where
  rows_type := congrArg Row.type
  rows_later := fun _ _ _ _ _ same => same
  bound_later := fun _ _ => trivial
  bound_empty := fun _ => trivial
  tap := fun world _ => identical_steps world _ fun _ => trivial
  check := fun world => identical_steps world _ fun _ => trivial
  read := by
    rintro world row _ rfl column
    exact identical_steps world _ fun _ => rfl
  eval := by
    rintro world row _ bindings rfl _ expression
    exact identical_steps world _ fun _ => rfl
  new_row := fun world _ _ => identical_steps world _ fun _ => rfl
  new_projection := by
    rintro world row _ bindings rfl _ type columns
    exact identical_steps world _ fun _ => rfl
  noted := fun call same => congrArg (fun engine : Engine => engine.noted call) same
  fault := by
    rintro world engine _ call rfl
    exact identical_steps world (Engine.injectFault call) (fun _ => trivial) _ _ rfl
  stored := by
    rintro world engine _ rfl name
    exact ⟨rfl, fun _ _ _ _ => rfl⟩

/-- A recorded cursor stands for the cursor that it records. -/
def Records (_ : Unit) (recorded : Recorded cursor) (cursor : cursor) : Prop :=
  recorded.cursor = cursor

theorem correspond_forward {gives : Unit → result → result → Prop} (world : Unit)
    (action : CursorAction cursor result) (reflexive : ∀ value, gives world value value) :
    Correspond (identical.States Records) world (Recorded.forward action) action gives := by
  rintro ⟨⟨reached, log⟩, engine⟩ ⟨_, _⟩ ⟨rfl, rfl⟩
  change EndLater (identical.States Records) world gives
    ((action.run (reached, engine)).1,
      (⟨(action.run (reached, engine)).2.1, log⟩, (action.run (reached, engine)).2.2))
    (action.run (reached, engine))
  rcases action.run (reached, engine) with ⟨interrupt | value, after⟩
  · exact ⟨rfl, world, le_rfl, rfl, rfl⟩
  · exact ⟨world, le_rfl, ⟨rfl, rfl⟩, reflexive value⟩

theorem rows_identical (world : Unit) (row? : Option Row) :
    identical.RowsAlike world row? row? := by
  cases row? with
  | none => exact .none
  | some row => exact .some rfl

/-- A recording protocol answers as the protocol itself. -/
theorem records_protocols (protocol : Protocol cursor) :
    identical.Protocols protocol.recorded protocol Records where
  enduring := fun _ _ _ _ _ same => same
  phase := congrArg protocol.phase
  remaining := congrArg protocol.remaining
  passes := congrArg protocol.passes
  openPass := fun world => correspond_forward world _ fun _ => trivial
  next := by
    intro world
    rw [← bind_pure protocol.next]
    refine correspond_bind (correspond_forward world _ (rows_identical world))
      fun later row? same? _ alike left right held => ?_
    exact ⟨later, le_rfl, held, alike⟩
  close := fun world => correspond_forward world _ fun _ => trivial
  destroy := fun world => correspond_forward world _ fun _ => trivial
  openBindings := fun world => correspond_forward world _ fun _ => trivial
  nextBindings := fun world => correspond_forward world _ fun _ => ⟨rfl, fun _ _ => trivial⟩
  closeBindings := fun world => correspond_forward world _ fun _ => trivial
  cancelBindings := by
    rintro world bindings ⟨⟨reached, log⟩, engine⟩ ⟨_, _⟩ ⟨rfl, rfl⟩
    exact ⟨rfl, rfl⟩

theorem option_identical {row? partner? : Option Row} {world : Unit}
    (alike : identical.RowsAlike world row? partner?) : row? = partner? := by
  cases alike with
  | some same => exact congrArg some same
  | none => rfl

theorem answers_identical {answer partner : CursorAnswer} {world : Unit}
    (alike : identical.AnswersAlike world answer partner) : answer = partner := by
  cases answer <;> cases partner
  case done.done => rfl
  case row.row => exact congrArg CursorAnswer.row (option_identical alike)
  case bindings.bindings => exact congrArg CursorAnswer.bindings alike.1
  all_goals exact alike.elim

/-- If one cursor stands for another that can be told from it, every call on it ends as the call on
the other, and leaves a cursor that stands for the one that the other call leaves. -/
theorem perform_same {left right : Type} {first : Protocol left} {second : Protocol right}
    {related : Unit → left → right → Prop} (protocols : identical.Protocols first second related)
    {plain : left → right} (stands : ∀ node, related () node (plain node))
    (told : ∀ {world node other}, related world node other → plain node = other)
    (call : CursorCall) {node after : left} {engine later : Engine}
    {outcome : Except Interrupt CursorAnswer}
    (ended : (first.perform call).run (node, engine) = (outcome, after, later)) :
    (second.perform call).run (plain node, engine) = (outcome, plain after, later) := by
  have corresponds := protocols.perform call (node, engine) (plain node, engine)
    ⟨stands node, rfl⟩
  rw [ended] at corresponds
  rcases end_alike_cases corresponds with
    ⟨answer, same, _, ⟨_, _⟩, gave, ran, _, _, ⟨beside, engines⟩, alike⟩ |
    ⟨interrupt, _, ⟨_, _⟩, gave, ran, _, _, beside, engines⟩
  · cases gave
    cases engines
    rw [ran, ← answers_identical alike, told beside]
  · cases gave
    cases engines
    rw [ran, told beside]

end Correspondence

namespace Grouping

theorem unrecorded_of_beside {world : Unit} {left : State (Recorded input)} {right : State input}
    (beside : Node.Beside identical (Beside identical) Records world left right) :
    left.unrecorded = right := by
  obtain ⟨phase, bindings, ⟨key, accumulators, lookahead?, sawInput⟩, reached, log⟩ := left
  obtain ⟨_, _, ⟨_, _, _, _⟩, _⟩ := right
  obtain ⟨rfl, rfl, -, ⟨rfl, rfl, rfl, held⟩, rfl⟩ := beside
  cases option_identical held
  rfl

theorem beside_unrecorded (world : Unit) (node : State (Recorded input)) :
    Node.Beside identical (Beside identical) Records world node node.unrecorded :=
  ⟨rfl, rfl, trivial, ⟨rfl, rfl, rfl, rows_identical world _⟩, rfl⟩

/-- Every call on an aggregation ends over a recorded input as it does over the input itself, and
leaves the same aggregation. -/
theorem perform_unrecorded (context : Context) (plan : GroupingPlan) (inner : Protocol input)
    (call : CursorCall) {node after : State (Recorded input)} {engine later : Engine}
    {outcome : Except Interrupt CursorAnswer}
    (ended : ((protocol context plan inner.recorded).perform call).run (node, engine) =
      (outcome, after, later)) :
    ((protocol context plan inner).perform call).run (node.unrecorded, engine) =
      (outcome, after.unrecorded, later) := by
  have protocols : identical.Protocols (protocol context plan inner.recorded)
      (protocol context plan inner) (Node.Beside identical (Beside identical) Records) :=
    protocols_beside (identical_lawful context) (records_protocols inner)
  exact perform_same protocols (beside_unrecorded ()) unrecorded_of_beside call ended

end Grouping

end QueryExec
