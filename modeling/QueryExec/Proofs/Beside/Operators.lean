import QueryExec.Cursor.Filter
import QueryExec.Cursor.Limit
import QueryExec.Cursor.Project
import QueryExec.Proofs.Beside.Correspondence

/-!
Operators beside each other. If the calls of two inputs correspond, so do the calls of one operator
over them: both cursors are in one phase and under one binding, and keep the same for themselves.
-/

namespace QueryExec

open QueryExec.Action QueryExec.Correspondence

namespace Node

variable {World own mine yours result partner : Type} [Preorder World]
  {corr : Correspondence World} {suits : World → own → own → Prop}
  {related : World → mine → yours → Prop} {world : World} {first : Protocol mine}
  {second : Protocol yours} {context : Context}

/-- Two cursors in one phase and under one binding, over related inputs. -/
structure Beside (corr : Correspondence World) (suits : World → own → own → Prop)
    (related : World → mine → yours → Prop) (world : World) (left : Node own mine)
    (right : Node own yours) : Prop where
  phase : left.phase = right.phase
  bindings : left.bindings = right.bindings
  bound : corr.bound world left.bindings
  own : suits world left.own right.own
  input : related world left.input right.input

theorem correspond_set_phase (phase : Phase) :
    Correspond (corr.States (Beside corr suits related)) world (setPhase phase) (setPhase phase)
      fun _ _ _ => True :=
  correspond_change fun _ _ held => { held with phase := rfl }

theorem correspond_change_own {step following : own → own}
    (keeps : ∀ left right, suits world left right → suits world (step left) (following right)) :
    Correspond (corr.States (Beside corr suits related)) world (changeOwn step)
      (changeOwn following) fun _ _ _ => True :=
  correspond_change fun _ _ held => { held with own := keeps _ _ held.own }

theorem correspond_check (call : Call) :
    Correspond (corr.States (Beside corr suits related)) world (check call) (check call)
      fun _ _ _ => True := by
  apply correspond_state
  intro left right held
  rw [held.phase]
  exact correspond_phase_check call right.phase

section OverInputs

variable (lawful : corr.Lawful context) (lasts : Enduring suits)
  (protocols : corr.Protocols first second related)

include lawful lasts

/-- A change of the inputs in a later world. -/
theorem Beside.over {later : World} (grown : world ≤ later) {left : Node own mine}
    {right : Node own yours} {below : mine} {beside : yours}
    (held : Beside corr suits related world left right) (inputs : related later below beside) :
    Beside corr suits related later { left with input := below }
      { right with input := beside } where
  phase := held.phase
  bindings := held.bindings
  bound := lawful.bound_later grown held.bound
  own := lasts _ _ _ _ grown held.own
  input := inputs

theorem beside_enduring (below : Enduring related) : Enduring (Beside corr suits related) :=
  fun _ _ _ _ grown held => held.over lawful lasts grown (below _ _ _ _ grown held.input)

theorem correspond_on_input {gives : World → result → partner → Prop}
    {action : CursorAction mine result} {acting : CursorAction yours partner}
    (correspond : Correspond (corr.States related) world action acting gives) :
    Correspond (corr.States (Beside corr suits related)) world (onInput action) (onInput acting)
      gives := by
  refine correspond_on_part (fun _ _ held => ⟨held.1.input, held.2⟩) ?_ correspond
  exact fun _ _ _ _ _ grown held states =>
    ⟨held.1.over lawful lasts grown states.1, states.2⟩

include protocols

/-- What two operators read through the journal of their engines. -/
theorem correspond_reading {gives : World → result → partner → Prop}
    {action : Action Journal result} {acting : Action Journal partner}
    (correspond : Correspond corr.engines world (Engine.inJournal action)
      (Engine.inJournal acting) gives) :
    Correspond (corr.States (Beside corr suits related)) world (CursorAction.inJournal action)
      (CursorAction.inJournal acting) gives :=
  correspond_in_engine (beside_enduring lawful lasts protocols.enduring) correspond

theorem correspond_check_cancelled :
    Correspond (corr.States (Beside corr suits related)) world (checkCancelled context)
      (checkCancelled context) fun _ _ _ => True :=
  correspond_reading lawful lasts protocols (lawful.check world)

theorem correspond_pull :
    Correspond (corr.States (Beside corr suits related)) world (pull first) (pull second)
      corr.RowsAlike := by
  apply correspond_state
  intro left right held
  rw [protocols.phase held.input]
  split
  · exact correspond_on_input lawful lasts (protocols.next world)
  · exact correspond_pure .none

theorem correspond_finish :
    Correspond (corr.States (Beside corr suits related)) world (finish first) (finish second)
      fun _ _ _ => True :=
  correspond_bind (correspond_set_phase .closed) fun _ _ _ _ _ =>
    correspond_on_input lawful lasts (correspond_close_active protocols)

/-- The end of the inputs, as every operator makes it the end of the pass. -/
theorem correspond_ended :
    Correspond (corr.States (Beside corr suits related)) world
      (do
        finish first
        pure none)
      (do
        finish second
        pure none) corr.RowsAlike :=
  correspond_bind (correspond_finish lawful lasts protocols) fun _ _ _ _ _ => correspond_pure .none

theorem correspond_abort :
    Correspond (corr.States (Beside corr suits related)) world (abort first) (abort second)
      fun _ _ _ => True :=
  correspond_bind (correspond_attempt (correspond_on_input lawful lasts
    (correspond_close_active protocols))) fun _ _ _ _ _ => correspond_set_phase .closed

theorem correspond_open_pass :
    Correspond (corr.States (Beside corr suits related)) world (openPass first) (openPass second)
      fun _ _ _ => True :=
  correspond_bind (correspond_check .openPass) fun later _ _ _ _ =>
    correspond_bind (correspond_on_input lawful lasts (protocols.openPass later)) fun _ _ _ _ _ =>
      correspond_set_phase .opening

theorem correspond_close :
    Correspond (corr.States (Beside corr suits related)) world (close first) (close second)
      fun _ _ _ => True :=
  correspond_bind (correspond_check .close) fun _ _ _ _ _ =>
    correspond_finish lawful lasts protocols

theorem correspond_destroy :
    Correspond (corr.States (Beside corr suits related)) world (destroy first) (destroy second)
      fun _ _ _ => True := by
  have rest : ∀ later (closed same : Except QueryError Unit),
      OutcomesAlike (fun _ _ => True) closed same →
      Correspond (corr.States (Beside corr suits related)) later
        (do
          let destroyed ← (onInput first.destroyOnce).attempt
          setPhase .destroyed
          Action.ofExcept closed
          Action.ofExcept destroyed)
        (do
          let destroyed ← (onInput second.destroyOnce).attempt
          setPhase .destroyed
          Action.ofExcept same
          Action.ofExcept destroyed) fun _ _ _ => True := by
    intro later closed same alike
    refine correspond_bind (correspond_attempt (correspond_on_input lawful lasts
      (correspond_destroy_once protocols))) ?_
    intro _ destroyed partner _ outcomes
    refine correspond_bind (correspond_set_phase .destroyed) fun _ _ _ _ _ => ?_
    exact correspond_bind (correspond_of_except alike) fun _ _ _ _ _ =>
      correspond_of_except outcomes
  refine correspond_bind (correspond_check .destroy) ?_
  intro later _ _ _ _
  apply correspond_state
  intro left right held
  rw [held.phase]
  dsimp only
  split
  · exact correspond_bind (correspond_attempt (correspond_finish lawful lasts protocols))
      fun _ closed same _ alike => rest _ closed same alike
  · exact correspond_then (fun _ => OutcomesAlike fun _ _ => True) (correspond_pure trivial)
      fun _ closed same _ alike => rest _ closed same alike

omit protocols in
/-- A call on bindings that the cursors pass on. -/
theorem correspond_passed_on {call : Call} {action : CursorAction mine Unit}
    {acting : CursorAction yours Unit}
    (correspond : ∀ world, Correspond (corr.States related) world action acting fun _ _ _ => True) :
    Correspond (corr.States (Beside corr suits related)) world
      (do
        check call
        onInput action)
      (do
        check call
        onInput acting) fun _ _ _ => True :=
  correspond_bind (correspond_check call) fun later _ _ _ _ =>
    correspond_on_input lawful lasts (correspond later)

theorem correspond_next_bindings :
    Correspond (corr.States (Beside corr suits related)) world (nextBindings first)
      (nextBindings second) corr.BindingsAlike := by
  refine correspond_bind (correspond_check .nextBindings) ?_
  intro later _ _ _ _
  refine correspond_bind (correspond_on_input lawful lasts (protocols.nextBindings later)) ?_
  rintro last bindings? _ _ ⟨rfl, bound⟩
  refine correspond_bind (correspond_change ?_) ?_
  · intro left right held
    cases bindings? with
    | none => exact held
    | some bindings => exact { held with bindings := rfl, bound := bound bindings rfl }
  · intro final _ _ grown _
    exact correspond_pure ⟨rfl, fun bindings member =>
      lawful.bound_later grown (bound bindings member)⟩

omit lawful lasts in
theorem cancel_bindings_beside (bindings : Bindings) (left : Node own mine × Engine)
    (right : Node own yours × Engine)
    (held : corr.States (Beside corr suits related) world left right) :
    corr.States (Beside corr suits related) world (cancelBindings first bindings left)
      (cancelBindings second bindings right) :=
  have below := protocols.cancelBindings bindings (left.1.input, left.2) (right.1.input, right.2)
    ⟨held.1.input, held.2⟩
  ⟨{ held.1 with
    phase := by simp only [cancelBindings, held.1.phase]
    input := below.1 }, below.2⟩

/-- The protocols of one operator over two inputs, from its way of making rows. -/
theorem protocols_beside (tap : String) {advance : CursorAction (Node own mine) (Option Row)}
    {advancing : CursorAction (Node own yours) (Option Row)}
    (advances : ∀ world, Correspond (corr.States (Beside corr suits related)) world advance
      advancing corr.RowsAlike) :
    corr.Protocols (protocol context tap first advance) (protocol context tap second advancing)
      (Beside corr suits related) where
  enduring := beside_enduring lawful lasts protocols.enduring
  phase := Beside.phase
  remaining := fun held => protocols.remaining held.input
  passes := fun held => protocols.passes held.input
  openPass := fun _ => correspond_open_pass lawful lasts protocols
  next := by
    intro world
    refine correspond_bind (correspond_check .next) fun later _ _ _ _ => ?_
    refine correspond_bind (correspond_reading lawful lasts protocols (lawful.tap later tap))
      fun later _ _ _ _ => ?_
    refine correspond_bind (correspond_on_failure
      (fun _ _ => correspond_abort lawful lasts protocols) (advances later)) ?_
    intro last row? partner? _ rows
    cases rows with
    | none => exact correspond_pure .none
    | some rows =>
        exact correspond_bind (correspond_set_phase .running) fun _ _ _ grown _ =>
          correspond_pure (.some (lawful.rows_later _ _ _ _ grown rows))
  close := fun _ => correspond_close lawful lasts protocols
  destroy := fun _ => correspond_destroy lawful lasts protocols
  openBindings := fun _ => correspond_passed_on lawful lasts protocols.openBindings
  nextBindings := fun _ => correspond_next_bindings lawful lasts protocols
  closeBindings := fun _ => correspond_passed_on lawful lasts protocols.closeBindings
  cancelBindings := cancel_bindings_beside protocols

end OverInputs

end Node

section Operators

variable {World mine yours : Type} [Preorder World] {corr : Correspondence World}
  {related : World → mine → yours → Prop} {world : World} {first : Protocol mine}
  {second : Protocol yours} {context : Context}

/-- What both keep is the same. -/
def KeptSame (own : Type) : World → own → own → Prop :=
  fun _ left right => left = right

theorem kept_same_enduring {own : Type} : Enduring (KeptSame own : World → own → own → Prop) :=
  fun _ _ _ _ _ => id

variable (lawful : corr.Lawful context) (protocols : corr.Protocols first second related)

include lawful protocols

theorem Filter.correspond_accepts (predicate : Expr) {row partner : Row}
    (rows : corr.rows world row partner) :
    Correspond (corr.States (Node.Beside corr (KeptSame Unit) related)) world
      (Filter.accepts context predicate row) (Filter.accepts context predicate partner)
      fun _ => Eq := by
  apply correspond_state
  intro left right held
  rw [held.bindings]
  refine correspond_bind (Node.correspond_reading lawful kept_same_enduring protocols
    (lawful.eval rows (held.bindings ▸ held.bound) predicate)) ?_
  rintro later value _ _ rfl
  exact correspond_pure rfl

/-- Both search alike: by induction on the bound. -/
theorem Filter.correspond_search (inputType : RowType) (predicate : Expr) (bound : Nat) :
    Correspond (corr.States (Node.Beside corr (KeptSame Unit) related)) world
      (Filter.search context inputType predicate first bound)
      (Filter.search context inputType predicate second bound) corr.RowsAlike := by
  induction bound generalizing world with
  | zero => exact correspond_pure .none
  | succ bound induction =>
      refine correspond_bind (Node.correspond_pull lawful kept_same_enduring protocols) ?_
      intro later row? partner? _ rows
      cases rows with
      | none => exact Node.correspond_ended lawful kept_same_enduring protocols
      | @some row partner rows =>
          dsimp only
          rw [← lawful.rows_type rows]
          split
          · exact correspond_pure (.some rows)
          refine correspond_bind (Filter.correspond_accepts lawful protocols predicate rows) ?_
          rintro last accepted _ grown rfl
          split
          · exact correspond_pure (.some (lawful.rows_later _ _ _ _ grown rows))
          · exact induction

theorem Filter.protocols_beside (inputType : RowType) (predicate : Expr) :
    corr.Protocols (Filter.protocol context inputType predicate first)
      (Filter.protocol context inputType predicate second)
      (Node.Beside corr (KeptSame Unit) related) := by
  refine Node.protocols_beside lawful kept_same_enduring protocols "filter.next" fun world => ?_
  refine correspond_bind (Node.correspond_check_cancelled lawful kept_same_enduring protocols)
    fun later _ _ _ _ => ?_
  apply correspond_state
  intro left right held
  rw [protocols.remaining held.input]
  exact Filter.correspond_search lawful protocols inputType predicate _

theorem Project.protocols_beside (inputType outputType : RowType) (columns : List Expr) :
    corr.Protocols (Project.protocol context inputType outputType columns first)
      (Project.protocol context inputType outputType columns second)
      (Node.Beside corr (KeptSame Unit) related) := by
  refine Node.protocols_beside lawful kept_same_enduring protocols "project.next" fun world => ?_
  refine correspond_bind (Node.correspond_check_cancelled lawful kept_same_enduring protocols)
    fun later _ _ _ _ => ?_
  refine correspond_bind (Node.correspond_pull lawful kept_same_enduring protocols) ?_
  intro last row? partner? _ rows
  cases rows with
  | none => exact Node.correspond_ended lawful kept_same_enduring protocols
  | @some row partner rows =>
      dsimp only
      rw [← lawful.rows_type rows]
      split
      · exact correspond_pure (.some rows)
      apply correspond_state
      intro left right held
      rw [held.bindings]
      refine correspond_bind (correspond_in_engine
        (Node.beside_enduring lawful kept_same_enduring protocols.enduring)
        (lawful.new_projection rows (held.bindings ▸ held.bound) outputType columns)) ?_
      exact fun _ _ _ _ made => correspond_pure (.some made)

/-- Both drop as many rows: by induction on their number. -/
theorem Limit.correspond_skip (count : Nat) :
    Correspond (corr.States (Node.Beside corr (KeptSame Limit.Progress) related)) world
      (Limit.skip first count) (Limit.skip second count) corr.RowsAlike := by
  have pulls {world : World} : Correspond
      (corr.States (Node.Beside corr (KeptSame Limit.Progress) related)) world (Node.pull first)
      (Node.pull second) corr.RowsAlike :=
    Node.correspond_pull lawful kept_same_enduring protocols
  have counts {world : World} (step : Limit.Progress → Limit.Progress) : Correspond
      (corr.States (Node.Beside corr (KeptSame Limit.Progress) related)) world
      (Node.changeOwn step) (Node.changeOwn step) fun _ _ _ => True :=
    Node.correspond_change_own fun _ _ => congrArg step
  induction count generalizing world with
  | zero =>
      refine correspond_bind pulls fun later row? partner? _ rows => ?_
      cases rows with
      | none => exact Node.correspond_ended lawful kept_same_enduring protocols
      | some rows =>
          exact correspond_bind (counts _) fun _ _ _ grown _ =>
            correspond_pure (.some (lawful.rows_later _ _ _ _ grown rows))
  | succ count induction =>
      refine correspond_bind pulls fun later row? partner? _ rows => ?_
      cases rows with
      | none => exact Node.correspond_ended lawful kept_same_enduring protocols
      | some rows => exact correspond_bind (counts _) fun _ _ _ _ _ => induction

theorem Limit.protocols_beside (offset : Nat) (limit? : Option Nat) :
    corr.Protocols (Limit.protocol context offset limit? first)
      (Limit.protocol context offset limit? second)
      (Node.Beside corr (KeptSame Limit.Progress) related) := by
  have base : corr.Protocols
      (Node.protocol context "limit.next" first (Limit.advance context offset limit? first))
      (Node.protocol context "limit.next" second (Limit.advance context offset limit? second))
      (Node.Beside corr (KeptSame Limit.Progress) related) := by
    refine Node.protocols_beside lawful kept_same_enduring protocols "limit.next" fun world => ?_
    refine correspond_bind (Node.correspond_check_cancelled lawful kept_same_enduring protocols)
      fun later _ _ _ _ => ?_
    apply correspond_state
    intro left right held
    rw [show left.own = right.own from held.own]
    dsimp only
    split
    · exact Node.correspond_ended lawful kept_same_enduring protocols
    · exact Limit.correspond_skip lawful protocols _
  exact { base with
    openPass := fun world => correspond_bind (base.openPass world) fun _ _ _ _ _ =>
      Node.correspond_change_own fun _ _ _ => rfl }

end Operators

end QueryExec
