import QueryExec.Cursor.Filter
import QueryExec.Cursor.Limit
import QueryExec.Cursor.Project
import QueryExec.Proofs.Tandem.Regime

/-!
Operators in tandem. If the calls of two inputs keep them related, so do the calls of one operator
over them: both runs pull rows that stand for each other, are in one phase and under one binding.
A filter needs that its predicate has one value in both runs, a projection that the rows it makes
stand for each other again.
-/

namespace QueryExec

open QueryExec.Action QueryExec.Regime

namespace Node

variable {regime : Regime} {own input result : Type}
  {suits : regime.World → Phase → own → own → Prop} {related : regime.World → input → input → Prop}

/-- Two cursors in one phase and under one binding, over related inputs. -/
structure Paired (regime : Regime) (suits : regime.World → Phase → own → own → Prop)
    (related : regime.World → input → input → Prop) (world : regime.World)
    (left right : Node own input) : Prop where
  phase : left.phase = right.phase
  bindings : left.bindings = right.bindings
  bound : regime.bound world left.bindings
  own : suits world left.phase left.own right.own
  input : related world left.input right.input

/-- What two operators keep stays related in later worlds. -/
def Lasts (regime : Regime) (suits : regime.World → Phase → own → own → Prop) : Prop :=
  ∀ world later phase left right, regime.Within world later → suits world phase left right →
    suits later phase left right

/-- It also stays related when they stop being active. -/
structure Kept (regime : Regime) (suits : regime.World → Phase → own → own → Prop) : Prop where
  lasts : Lasts regime suits
  idle : ∀ world phase final left right, final.isActive = false →
    suits world phase left right → suits world final left right

/-- What the operators keep while they are in one phase. -/
def Within (phase : Phase) (suits : regime.World → Phase → own → own → Prop) :
    regime.World → Phase → own → own → Prop :=
  fun world current left right => current = phase ∧ suits world current left right

variable {first second : Protocol input} {world : regime.World} {parts : Prop}
  {gives : regime.World → result → result → Prop}

theorem lasts_within {phase : Phase} (lasts : Lasts regime suits) :
    Lasts regime (Within phase suits) :=
  fun _ _ _ _ _ within held => ⟨held.1, lasts _ _ _ _ _ within held.2⟩

theorem within_paired {phase : Phase} {company : Company} {left right : Node own input × Engine}
    (held : regime.States (Paired regime (Within phase suits) related) world company left right) :
    regime.States (Paired regime suits related) world company left right :=
  ⟨{ held.1 with own := held.1.own.2 }, held.2⟩

section OverInputs

variable (lawful : regime.Lawful) (lasts : Lasts regime suits) (kept : Kept regime suits)
  (paired : regime.Paired first second related)

include lawful

theorem leads_set_phase (final : regime.World → Phase → own → own → Prop)
    {halts : regime.World → Company → Node own input × Engine → Node own input × Engine → Prop}
    (phase : Phase)
    (keeps : ∀ before left right, suits world before left right → final world phase left right) :
    regime.Leads (regime.States (Paired regime suits related))
      (regime.States (Paired regime final related)) halts world parts (setPhase phase)
      (setPhase phase) fun _ _ _ => True :=
  leads_change lawful fun _ _ held =>
    ⟨rfl, held.bindings, held.bound, keeps _ _ _ held.own, held.input⟩

theorem leads_change_own {final : regime.World → Phase → own → own → Prop}
    {halts : regime.World → Company → Node own input × Engine → Node own input × Engine → Prop}
    {step following : own → own}
    (keeps : ∀ phase left right, suits world phase left right →
      final world phase (step left) (following right)) :
    regime.Leads (regime.States (Paired regime suits related))
      (regime.States (Paired regime final related)) halts world parts (changeOwn step)
      (changeOwn following) fun _ _ _ => True :=
  leads_change lawful fun _ _ held =>
    ⟨held.phase, held.bindings, held.bound, keeps _ _ _ held.own, held.input⟩

theorem pairs_check (call : Call) :
    regime.Pairs (regime.States (Paired regime suits related)) world parts (check call)
      (check call) fun _ _ _ => True := by
  apply leads_state
  intro left right held
  rw [held.phase]
  exact leads_phase_check lawful call right.phase

omit lawful in
/-- A change of the inputs in a later world. -/
theorem Paired.over (lasts : Lasts regime suits) (lawful : regime.Lawful) {later : regime.World}
    (within : regime.Within world later) {left right : Node own input} {below beside : input}
    (held : Paired regime suits related world left right) (inputs : related later below beside) :
    Paired regime suits related later { left with input := below }
      { right with input := beside } where
  phase := held.phase
  bindings := held.bindings
  bound := lawful.bound_later within held.bound
  own := lasts _ _ _ _ _ within held.own
  input := inputs

include lasts in
theorem lasting (below : regime.Lasting related) :
    regime.Lasting (Paired regime suits related) :=
  fun _ _ _ _ within held => held.over lasts lawful within (below _ _ _ _ within held.input)

include lasts in
theorem pairs_on_input {action acting : CursorAction input result}
    (pairs : regime.Pairs (regime.States related) world parts action acting gives) :
    regime.Pairs (regime.States (Paired regime suits related)) world parts (onInput action)
      (onInput acting) gives := by
  intro company left right held
  apply tandem_on_part
  refine tandem_weaken (pairs company _ _ ⟨held.1.input, held.2⟩) ?_ ?_
  · rintro later value partner after last ⟨reached, within, states, given⟩
    exact ⟨reached, within, ⟨held.1.over lasts lawful within states.1, states.2⟩, given⟩
  · rintro later interrupt after last ⟨reached, within, states | outside⟩
    · exact ⟨reached, within, .inl ⟨held.1.over lasts lawful within states.1, states.2⟩⟩
    · exact ⟨reached, within, .inr outside⟩

include paired

include lasts in
theorem pairs_pull :
    regime.Pairs (regime.States (Paired regime suits related)) world regime.parts (pull first)
      (pull second) regime.RowPaired := by
  apply leads_state
  intro left right held
  rw [paired.phase held.input]
  split
  · exact pairs_on_input lawful lasts (paired.next world)
  · exact leads_pure lawful .none

include kept

theorem leads_finish :
    regime.Leads (regime.States (Paired regime suits related))
      (regime.States (Paired regime (Within .closed suits) related))
      (regime.States (Paired regime (Within .closed suits) related)) world parts (finish first)
      (finish second) fun _ _ _ => True := by
  refine leads_bind lawful (leads_set_phase lawful (Within .closed suits) .closed
    fun before _ _ held => ⟨rfl, kept.idle _ before _ _ _ rfl held⟩) ?_
  intro later _ _ _ _
  exact leads_steady (pairs_on_input lawful (lasts_within kept.lasts)
    (pairs_close_active lawful paired))

theorem pairs_finish :
    regime.Pairs (regime.States (Paired regime suits related)) world False (finish first)
      (finish second) fun _ _ _ => True :=
  leads_imp (leads_finish lawful kept paired) (fun _ _ _ => id) (fun _ _ _ _ => within_paired)
    (fun _ _ _ _ => within_paired) fun _ _ _ => id

/-- The end of the inputs, as every operator makes it the end of the pass. -/
theorem pairs_ended :
    regime.Pairs (regime.States (Paired regime suits related)) world parts
      (do
        finish first
        pure none)
      (do
        finish second
        pure none) regime.RowPaired :=
  pairs_bind lawful (leads_steady (pairs_finish lawful kept paired)) fun _ _ _ _ _ =>
    leads_pure lawful .none

theorem leads_abort :
    regime.Leads (regime.States (Paired regime suits related))
      (regime.States (Paired regime (Within .closed suits) related))
      (regime.States (Paired regime (Within .closed suits) related)) world False (abort first)
      (abort second) fun _ _ _ => True := by
  refine leads_bind lawful (leads_attempt (fun _ _ _ _ => states_journal)
    (pairs_on_input lawful kept.lasts (pairs_close_active lawful paired))) ?_
  intro later _ _ _ _
  exact leads_set_phase lawful _ .closed fun before _ _ held =>
    ⟨rfl, kept.idle _ before _ _ _ rfl held⟩

theorem pairs_abort :
    regime.Pairs (regime.States (Paired regime suits related)) world False (abort first)
      (abort second) fun _ _ _ => True :=
  leads_imp (leads_abort lawful kept paired) (fun _ _ _ => id) (fun _ _ _ _ => within_paired)
    (fun _ _ _ _ => within_paired) fun _ _ _ => id

theorem pairs_close :
    regime.Pairs (regime.States (Paired regime suits related)) world False (close first)
      (close second) fun _ _ _ => True :=
  pairs_bind lawful (pairs_check lawful .close) fun _ _ _ _ _ => pairs_finish lawful kept paired

omit paired kept in
/-- Only a destroyed cursor refuses to be destroyed. -/
theorem leads_check_destroy :
    regime.Leads (regime.States (Paired regime suits related))
      (regime.States (Paired regime suits related))
      (regime.States (Paired regime (Within .destroyed suits) related)) world parts
      (check .destroy) (check .destroy) fun _ _ _ => True := by
  apply leads_look
  intro left right seen
  rw [← seen.phase]
  unfold Call.check
  split
  · exact leads_answer lawful (fun _ _ _ held => ⟨held.1.1, held.2⟩) trivial
  next illegal =>
    have destroyed : left.phase = .destroyed := by simpa [Call.legalIn] using illegal
    intro _ below _ held
    obtain ⟨⟨paired, same, _⟩, engines⟩ := held
    refine ends_fail lawful rfl ⟨{ paired with own := ⟨?_, paired.own⟩ }, engines⟩
    rw [same, destroyed]

theorem leads_destroy :
    regime.Leads (regime.States (Paired regime suits related))
      (regime.States (Paired regime (Within .destroyed suits) related))
      (regime.States (Paired regime (Within .destroyed suits) related)) world False
      (destroy first) (destroy second) fun _ _ _ => True := by
  have rest : ∀ later (closed same : Except QueryError Unit),
      regime.Attempted (fun _ _ => True) closed same →
      regime.Leads (regime.States (Paired regime suits related))
        (regime.States (Paired regime (Within .destroyed suits) related))
        (regime.States (Paired regime (Within .destroyed suits) related)) later False
        (do
          let destroyed ← (onInput first.destroyOnce).attempt
          setPhase .destroyed
          Action.ofExcept closed
          Action.ofExcept destroyed)
        (do
          let destroyed ← (onInput second.destroyOnce).attempt
          setPhase .destroyed
          Action.ofExcept same
          Action.ofExcept destroyed) fun _ _ _ => True := by
    intro later closed same attempted
    refine leads_bind lawful (leads_attempt (fun _ _ _ _ => states_journal)
      (pairs_on_input lawful kept.lasts (pairs_destroy_once lawful paired))) ?_
    intro last destroyed partner _ outcomes
    refine leads_bind lawful (leads_set_phase lawful (Within .destroyed suits) .destroyed
      fun before _ _ held => ⟨rfl, kept.idle _ before _ _ _ rfl held⟩) ?_
    intro final _ _ _ _
    refine pairs_bind lawful (leads_of_attempted lawful attempted) ?_
    intro _ _ _ _ _
    exact leads_of_attempted lawful outcomes
  refine leads_bind lawful (leads_check_destroy lawful) ?_
  intro later _ _ _ _
  apply leads_state
  intro left right held
  rw [held.phase]
  dsimp only
  split
  · exact leads_bind lawful
      (leads_attempt (fun _ _ _ _ => states_journal) (pairs_finish lawful kept paired))
      fun _ closed same _ attempted => rest _ closed same attempted
  · exact leads_bind lawful (leads_pure lawful trivial)
      fun _ closed same _ attempted => rest _ closed same attempted

theorem pairs_destroy :
    regime.Pairs (regime.States (Paired regime suits related)) world False (destroy first)
      (destroy second) fun _ _ _ => True :=
  leads_imp (leads_destroy lawful kept paired) (fun _ _ _ => id) (fun _ _ _ _ => within_paired)
    (fun _ _ _ _ => within_paired) fun _ _ _ => id

omit paired in
/-- A call on bindings that the cursors pass on. -/
theorem pairs_passed_on {call : Call} {action acting : CursorAction input Unit}
    (pairs : ∀ world, regime.Pairs (regime.States related) world False action acting
      fun _ _ _ => True) :
    regime.Pairs (regime.States (Paired regime suits related)) world False
      (do
        check call
        onInput action)
      (do
        check call
        onInput acting) fun _ _ _ => True :=
  pairs_bind lawful (pairs_check lawful call) fun later _ _ _ _ =>
    pairs_on_input lawful kept.lasts (pairs later)

theorem pairs_next_bindings :
    regime.Pairs (regime.States (Paired regime suits related)) world False (nextBindings first)
      (nextBindings second) regime.BindingsPaired := by
  refine pairs_bind lawful (pairs_check lawful .nextBindings) ?_
  intro later _ _ _ _
  refine pairs_bind lawful (pairs_on_input lawful kept.lasts (paired.nextBindings later)) ?_
  rintro last bindings? _ _ ⟨rfl, bound⟩
  refine pairs_bind lawful (leads_change lawful ?_) ?_
  · intro left right held
    cases bindings? with
    | none => exact held
    | some bindings => exact { held with bindings := rfl, bound := bound bindings rfl }
  · intro final _ _ within _
    exact leads_pure lawful ⟨rfl, fun bindings member =>
      lawful.bound_later within (bound bindings member)⟩

omit lawful in
theorem cancel_bindings_paired {company : Company} (bindings : Bindings)
    (left right : Node own input × Engine)
    (held : regime.States (Paired regime suits related) world company left right) :
    regime.States (Paired regime suits related) world company
      (cancelBindings first bindings left) (cancelBindings second bindings right) := by
  have below := paired.cancelBindings bindings (left.1.input, left.2) (right.1.input, right.2)
    ⟨held.1.input, held.2⟩
  have idle :
      (if left.1.phase = .destroyed then Phase.destroyed else .closed).isActive = false := by
    split <;> rfl
  exact ⟨⟨by simp only [cancelBindings, held.1.phase], held.1.bindings, held.1.bound,
    kept.idle _ _ _ _ _ idle held.1.own, below.1⟩, below.2⟩

/-- The protocols of one operator over two inputs, from its way of making rows. What the operator
keeps is related in one way in all phases. -/
theorem protocol_paired (tap : String)
    {advance advancing : CursorAction (Node own input) (Option Row)}
    (steady : ∀ world phase other left right, suits world phase left right →
      suits world other left right)
    (advances : ∀ world, regime.Pairs (regime.States (Paired regime suits related)) world
      regime.parts advance advancing regime.RowPaired) :
    regime.Paired (protocol regime.first tap first advance)
      (protocol regime.second tap second advancing) (Paired regime suits related) where
  lasting := lasting lawful kept.lasts paired.lasting
  phase := Paired.phase
  remaining := fun held => paired.remaining held.input
  passes := fun held => paired.passes held.input
  openPass := fun _ => pairs_bind lawful (pairs_check lawful .openPass) fun later _ _ _ _ =>
    pairs_bind lawful (pairs_on_input lawful kept.lasts (paired.openPass later)) fun _ _ _ _ _ =>
      leads_set_phase lawful _ .opening fun before => steady _ before _
  next := by
    intro world
    refine pairs_bind lawful (pairs_check lawful .next) ?_
    intro later _ _ _ _
    refine pairs_bind lawful (leads_steady (pairs_reading lawful
      (lasting lawful kept.lasts paired.lasting) (lawful.tap later tap))) ?_
    intro later _ _ _ _
    refine pairs_bind lawful (leads_on_failure lawful (fun _ _ _ _ => states_journal)
      (fun _ _ => pairs_abort lawful kept paired) (advances later)) ?_
    intro last row? partner? _ rows
    cases rows with
    | none => exact leads_pure lawful .none
    | some rows =>
        exact pairs_bind lawful (leads_set_phase lawful _ .running fun before => steady _ before _)
          fun _ _ _ further _ => leads_pure lawful (.some (lawful.rows_later further rows))
  close := fun _ => pairs_close lawful kept paired
  destroy := fun _ => pairs_destroy lawful kept paired
  openBindings := fun _ => pairs_passed_on lawful kept paired.openBindings
  nextBindings := fun _ => pairs_next_bindings lawful kept paired
  closeBindings := fun _ => pairs_passed_on lawful kept paired.closeBindings
  cancelBindings := cancel_bindings_paired kept paired

end OverInputs

end Node

section Operators

variable {regime : Regime} {input : Type} {related : regime.World → input → input → Prop}
  {first second : Protocol input} {world : regime.World}

/-- What operators keep that is the same in both runs. -/
def KeptAlike (own : Type) : regime.World → Phase → own → own → Prop :=
  fun _ _ left right => left = right

theorem kept_alike {own : Type} : Node.Kept regime (KeptAlike own) :=
  ⟨fun _ _ _ _ _ _ => id, fun _ _ _ _ _ _ => id⟩

variable (lawful : regime.Lawful) (paired : regime.Paired first second related)

include lawful paired

/-- Both runs stop alike in a cancelled context. -/
theorem Node.pairs_check_cancelled {own : Type}
    {suits : regime.World → Phase → own → own → Prop} (kept : Node.Kept regime suits) :
    regime.Pairs (regime.States (Node.Paired regime suits related)) world regime.parts
      (Node.checkCancelled regime.first) (Node.checkCancelled regime.second) fun _ _ _ => True :=
  leads_steady (pairs_reading lawful (Node.lasting lawful kept.lasts paired.lasting)
    (lawful.check world))

omit paired in
/-- The same change of what both keep. -/
theorem Node.pairs_change_alike {own : Type} (step : own → own) :
    regime.Pairs (regime.States (Node.Paired regime (KeptAlike own) related)) world regime.parts
      (Node.changeOwn step) (Node.changeOwn step) fun _ _ _ => True :=
  Node.leads_change_own lawful fun _ _ _ => congrArg step

section Filters

variable {inputType : RowType} {predicate : Expr}
  (evaluates : ∀ world left right bindings, regime.rows world left right →
    left.type.same inputType = true → regime.bound world bindings →
    regime.Reads world regime.parts (predicate.eval (left.scope regime.first bindings))
      (predicate.eval (right.scope regime.second bindings)) Eq)

include evaluates

theorem Filter.pairs_accepts {row partner : Row} (rows : regime.rows world row partner)
    (same : row.type.same inputType = true) :
    regime.Pairs (regime.States (Node.Paired regime (KeptAlike Unit) related)) world
      regime.parts (Filter.accepts regime.first predicate row)
      (Filter.accepts regime.second predicate partner) fun _ => Eq := by
  apply leads_state
  intro left right held
  rw [held.bindings]
  refine pairs_bind lawful (pairs_reading lawful
    (Node.lasting lawful kept_alike.lasts paired.lasting)
    (evaluates world row partner _ rows same (held.bindings ▸ held.bound))) ?_
  rintro later value _ _ rfl
  exact leads_pure lawful rfl

theorem Filter.pairs_search (bound : Nat) :
    regime.Pairs (regime.States (Node.Paired regime (KeptAlike Unit) related)) world
      regime.parts (Filter.search regime.first inputType predicate first bound)
      (Filter.search regime.second inputType predicate second bound) regime.RowPaired := by
  induction bound generalizing world with
  | zero => exact leads_pure lawful .none
  | succ bound induction =>
      refine pairs_bind lawful (Node.pairs_pull lawful kept_alike.lasts paired) ?_
      intro later row? partner? _ rows
      cases rows with
      | none => exact Node.pairs_ended lawful kept_alike paired
      | @some row partner rows =>
          dsimp only
          rw [← lawful.rows_type rows]
          cases same : row.type.same inputType with
          | false => exact leads_pure lawful (.some rows)
          | true =>
              refine pairs_bind lawful (Filter.pairs_accepts lawful paired evaluates rows same) ?_
              rintro last accepted _ further rfl
              cases accepted with
              | true => exact leads_pure lawful (.some (lawful.rows_later further rows))
              | false => exact induction

theorem Filter.protocol_paired :
    regime.Paired (Filter.protocol regime.first inputType predicate first)
      (Filter.protocol regime.second inputType predicate second)
      (Node.Paired regime (KeptAlike Unit) related) := by
  refine Node.protocol_paired lawful kept_alike paired "filter.next" (fun _ _ _ _ _ => id) ?_
  intro world
  refine pairs_bind lawful (Node.pairs_check_cancelled lawful paired kept_alike) ?_
  intro later _ _ _ _
  apply leads_state
  intro left right held
  rw [paired.remaining held.input]
  exact Filter.pairs_search lawful paired evaluates _

end Filters

theorem Project.protocol_paired {inputType outputType : RowType} {columns : List Expr}
    (projects : ∀ world left right bindings, regime.rows world left right →
      left.type.same inputType = true → regime.bound world bindings →
      regime.Pairs regime.Engines world False
        (Engine.newProjection outputType left regime.first bindings columns)
        (Engine.newProjection outputType right regime.second bindings columns) regime.rows) :
    regime.Paired (Project.protocol regime.first inputType outputType columns first)
      (Project.protocol regime.second inputType outputType columns second)
      (Node.Paired regime (KeptAlike Unit) related) := by
  refine Node.protocol_paired lawful kept_alike paired "project.next" (fun _ _ _ _ _ => id) ?_
  intro world
  refine pairs_bind lawful (Node.pairs_check_cancelled lawful paired kept_alike) ?_
  intro later _ _ _ _
  refine pairs_bind lawful (Node.pairs_pull lawful kept_alike.lasts paired) ?_
  intro last row? partner? _ rows
  cases rows with
  | none => exact Node.pairs_ended lawful kept_alike paired
  | @some row partner rows =>
      dsimp only
      rw [← lawful.rows_type rows]
      cases same : row.type.same inputType with
      | false => exact leads_pure lawful (.some rows)
      | true =>
          apply leads_state
          intro left right held
          rw [held.bindings]
          refine pairs_bind lawful (leads_steady (pairs_in_engine
            (Node.lasting lawful kept_alike.lasts paired.lasting)
            (projects last row partner _ rows same (held.bindings ▸ held.bound)))) ?_
          intro _ _ _ _ made
          exact leads_pure lawful (.some made)

theorem Limit.pairs_skip (count : Nat) :
    regime.Pairs (regime.States (Node.Paired regime (KeptAlike Limit.Progress) related))
      world regime.parts (Limit.skip first count) (Limit.skip second count) regime.RowPaired := by
  induction count generalizing world with
  | zero =>
      refine pairs_bind lawful (Node.pairs_pull lawful kept_alike.lasts paired) ?_
      intro later row? partner? _ rows
      cases rows with
      | none => exact Node.pairs_ended lawful kept_alike paired
      | some rows =>
          refine pairs_bind lawful (Node.pairs_change_alike lawful _) ?_
          exact fun _ _ _ further _ => leads_pure lawful (.some (lawful.rows_later further rows))
  | succ count induction =>
      refine pairs_bind lawful (Node.pairs_pull lawful kept_alike.lasts paired) ?_
      intro later row? partner? _ rows
      cases rows with
      | none => exact Node.pairs_ended lawful kept_alike paired
      | some rows =>
          refine pairs_bind lawful (Node.pairs_change_alike lawful _) ?_
          exact fun _ _ _ _ _ => induction

theorem Limit.protocol_paired (offset : Nat) (limit? : Option Nat) :
    regime.Paired (Limit.protocol regime.first offset limit? first)
      (Limit.protocol regime.second offset limit? second)
      (Node.Paired regime (KeptAlike Limit.Progress) related) := by
  have base : regime.Paired
      (Node.protocol regime.first "limit.next" first
        (Limit.advance regime.first offset limit? first))
      (Node.protocol regime.second "limit.next" second
        (Limit.advance regime.second offset limit? second))
      (Node.Paired regime (KeptAlike Limit.Progress) related) := by
    refine Node.protocol_paired lawful kept_alike paired "limit.next" (fun _ _ _ _ _ => id) ?_
    intro world
    refine pairs_bind lawful (Node.pairs_check_cancelled lawful paired kept_alike) ?_
    intro later _ _ _ _
    apply leads_state
    intro left right held
    rw [show left.own = right.own from held.own]
    dsimp only
    split
    · exact Node.pairs_ended lawful kept_alike paired
    · exact Limit.pairs_skip lawful paired _
  exact { base with
    openPass := fun world => pairs_bind lawful (base.openPass world) fun _ _ _ _ _ =>
      Node.leads_change_own lawful fun _ _ _ _ => rfl }

end Operators

end QueryExec
