import QueryExec.Proofs.Recording

/-!
Cursors that count their calls. The tally stands beside the cursor, and it goes up before a row is
asked for and before the cursor is closed, whether or not the call succeeds. A limit over such an
input answers every call as it does over the input alone.
-/

namespace QueryExec

open QueryExec.Action QueryExec.Correspondence

/-- A cursor with the number of calls of `next` and of `close` made on it. -/
structure Tallied (cursor : Type) where
  cursor : cursor
  asked : Nat := 0
  closings : Nat := 0

variable {cursor own input result : Type}

namespace Tallied

/-- A call on the cursor that is not counted. -/
def forward (action : CursorAction cursor result) : CursorAction (Tallied cursor) result :=
  action.onPart (fun pair => (pair.1.cursor, pair.2))
    fun part pair => ({ pair.1 with cursor := part.1 }, part.2)

def ask (tallied : Tallied cursor) : Tallied cursor :=
  { tallied with asked := tallied.asked + 1 }

def shut (tallied : Tallied cursor) : Tallied cursor :=
  { tallied with closings := tallied.closings + 1 }

end Tallied

/-- The protocol of a cursor that counts how often it is asked for a row and closed. -/
def Protocol.tallied (protocol : Protocol cursor) : Protocol (Tallied cursor) where
  phase := fun tallied => protocol.phase tallied.cursor
  openPass := Tallied.forward protocol.openPass
  next := do
    CursorAction.change Tallied.ask
    Tallied.forward protocol.next
  close := do
    CursorAction.change Tallied.shut
    Tallied.forward protocol.close
  destroy := Tallied.forward protocol.destroy
  openBindings := Tallied.forward protocol.openBindings
  nextBindings := Tallied.forward protocol.nextBindings
  closeBindings := Tallied.forward protocol.closeBindings
  cancelBindings := fun bindings pair =>
    let (cursor, engine) := protocol.cancelBindings bindings (pair.1.cursor, pair.2)
    ({ pair.1 with cursor }, engine)
  remaining := fun tallied => protocol.remaining tallied.cursor
  passes := fun tallied => protocol.passes tallied.cursor

namespace Tallied

variable {protocol : Protocol cursor} {tallied : Tallied cursor} {engine : Engine}

theorem agree_forward {action : CursorAction cursor result}
    {gives : result → Tallied cursor × Engine → Prop}
    {stops : Interrupt → Tallied cursor × Engine → Prop}
    (agree : EndsIn (tallied.cursor, engine) action
      (fun value after => gives value ({ tallied with cursor := after.1 }, after.2))
      fun interrupt after => stops interrupt ({ tallied with cursor := after.1 }, after.2)) :
    EndsIn (tallied, engine) (forward action) gives stops :=
  agree_on_part agree

/-- A call for a row ends as it does on the cursor alone, and is counted. -/
theorem agree_next {gives : Option Row → Tallied cursor × Engine → Prop}
    {stops : Interrupt → Tallied cursor × Engine → Prop}
    (agree : EndsIn (tallied.cursor, engine) protocol.next
      (fun row? after => gives row? (⟨after.1, tallied.asked + 1, tallied.closings⟩, after.2))
      fun interrupt after =>
        stops interrupt (⟨after.1, tallied.asked + 1, tallied.closings⟩, after.2)) :
    EndsIn (tallied, engine) protocol.tallied.next gives stops := by
  refine agree_reaching (tallied.ask, engine) (CursorAction.agree_change _ rfl) fun _ => ?_
  exact agree_forward agree

/-- Closing ends as it does on the cursor alone, and is counted. -/
theorem agree_close {gives : Unit → Tallied cursor × Engine → Prop}
    {stops : Interrupt → Tallied cursor × Engine → Prop}
    (agree : EndsIn (tallied.cursor, engine) protocol.close
      (fun done after => gives done (⟨after.1, tallied.asked, tallied.closings + 1⟩, after.2))
      fun interrupt after =>
        stops interrupt (⟨after.1, tallied.asked, tallied.closings + 1⟩, after.2)) :
    EndsIn (tallied, engine) protocol.tallied.close gives stops := by
  refine agree_reaching (tallied.shut, engine) (CursorAction.agree_change _ rfl) fun _ => ?_
  exact agree_forward agree

end Tallied

namespace Node

/-- A cursor whose input is counted from here on. -/
def tallied (node : Node own input) : Node own (Tallied input) :=
  { node with input := ⟨node.input, 0, 0⟩ }

def untallied (node : Node own (Tallied input)) : Node own input :=
  { node with input := node.input.cursor }

end Node

namespace Correspondence

/-- A counted cursor stands for the cursor that it counts the calls of. -/
def Tallies (_ : Unit) (tallied : Tallied cursor) (cursor : cursor) : Prop :=
  tallied.cursor = cursor

theorem correspond_uncounted {gives : Unit → result → result → Prop} (world : Unit)
    (action : CursorAction cursor result) (reflexive : ∀ value, gives world value value) :
    Correspond (identical.States Tallies) world (Tallied.forward action) action gives := by
  rintro ⟨⟨reached, asked, closings⟩, engine⟩ ⟨_, _⟩ ⟨rfl, rfl⟩
  change EndLater (identical.States Tallies) world gives
    ((action.run (reached, engine)).1,
      (⟨(action.run (reached, engine)).2.1, asked, closings⟩, (action.run (reached, engine)).2.2))
    (action.run (reached, engine))
  rcases action.run (reached, engine) with ⟨interrupt | value, after⟩
  · exact ⟨rfl, world, le_rfl, rfl, rfl⟩
  · exact ⟨world, le_rfl, ⟨rfl, rfl⟩, reflexive value⟩

/-- Counting a call first changes nothing that the cursor knows. -/
theorem correspond_counted {gives : Unit → result → result → Prop} (world : Unit)
    (count : Tallied cursor → Tallied cursor) (same : ∀ tallied, (count tallied).cursor = tallied.cursor)
    (action : CursorAction cursor result) (reflexive : ∀ value, gives world value value) :
    Correspond (identical.States Tallies) world
      (do
        CursorAction.change count
        Tallied.forward action) action gives := by
  rintro ⟨tallied, engine⟩ ⟨_, _⟩ ⟨rfl, rfl⟩
  exact correspond_uncounted world action reflexive (count tallied, engine) (tallied.cursor, engine)
    ⟨same tallied, rfl⟩

/-- A counting protocol answers as the protocol itself. -/
theorem tallies_protocols (protocol : Protocol cursor) :
    identical.Protocols protocol.tallied protocol Tallies where
  enduring := fun _ _ _ _ _ same => same
  phase := congrArg protocol.phase
  remaining := congrArg protocol.remaining
  passes := congrArg protocol.passes
  openPass := fun world => correspond_uncounted world _ fun _ => trivial
  next := fun world => correspond_counted world Tallied.ask (fun _ => rfl) _ (rows_identical world)
  close := fun world => correspond_counted world Tallied.shut (fun _ => rfl) _ fun _ => trivial
  destroy := fun world => correspond_uncounted world _ fun _ => trivial
  openBindings := fun world => correspond_uncounted world _ fun _ => trivial
  nextBindings := fun world => correspond_uncounted world _ fun _ => ⟨rfl, fun _ _ => trivial⟩
  closeBindings := fun world => correspond_uncounted world _ fun _ => trivial
  cancelBindings := by
    rintro world bindings ⟨⟨reached, asked, closings⟩, engine⟩ ⟨_, _⟩ ⟨rfl, rfl⟩
    exact ⟨rfl, rfl⟩

end Correspondence

namespace Limit

theorem untallied_of_beside {world : Unit} {left : State (Tallied input)} {right : State input}
    (beside : Node.Beside identical (KeptSame Progress) Tallies world left right) :
    left.untallied = right := by
  obtain ⟨phase, bindings, own, reached, asked, closings⟩ := left
  obtain ⟨_, _, _, _⟩ := right
  obtain ⟨rfl, rfl, -, rfl, rfl⟩ := beside
  rfl

theorem beside_untallied (world : Unit) (node : State (Tallied input)) :
    Node.Beside identical (KeptSame Progress) Tallies world node node.untallied :=
  ⟨rfl, rfl, trivial, rfl, rfl⟩

/-- Every call on a limit ends over a counted input as it does over the input itself, and leaves the
same limit. -/
theorem perform_untallied (context : Context) (offset : Nat) (limit? : Option Nat)
    (inner : Protocol input) (call : CursorCall) {node after : State (Tallied input)}
    {engine later : Engine} {outcome : Except Interrupt CursorAnswer}
    (ended : ((protocol context offset limit? inner.tallied).perform call).run (node, engine) =
      (outcome, after, later)) :
    ((protocol context offset limit? inner).perform call).run (node.untallied, engine) =
      (outcome, after.untallied, later) := by
  have protocols : identical.Protocols (protocol context offset limit? inner.tallied)
      (protocol context offset limit? inner) (Node.Beside identical (KeptSame Progress) Tallies) :=
    protocols_beside (identical_lawful context) (tallies_protocols inner) offset limit?
  exact perform_same protocols (beside_untallied ()) untallied_of_beside call ended

end Limit

end QueryExec
