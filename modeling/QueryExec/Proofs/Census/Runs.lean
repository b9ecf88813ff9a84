import QueryExec.Update
import QueryExec.Proofs.Census.Trees

/-!
Whole runs enrol: draining, one pass for each binding, executions and updates. Their cursors are
new and are dropped in the end, so only the engine is left for the census to cover.
-/

namespace QueryExec

open QueryExec.Action

section Draining

variable {cursor result : Type} {faulty : LeafCall → Prop} {lists : Coverage cursor}
  {census : Census} {protocol : Protocol cursor}

theorem enrols_drain_within (enrolling : protocol.Enrolling faulty lists) (bound : Nat) :
    Enrols (Tracked faulty lists) census (protocol.drainWithin bound) fun _ _ => True := by
  induction bound generalizing census with
  | zero => exact enrols_pure [] trivial
  | succ bound induction =>
      apply enrols_bind (enrolling.next census)
      intro later row? _ listed
      cases row? with
      | none => exact enrols_pure [] trivial
      | some row =>
          apply enrols_bind (enrols_reading enrolling.lasting (keeps_read_all (listed row rfl)))
          intro _ _ _ _
          exact enrols_bind induction fun _ _ _ _ => enrols_pure _ trivial

theorem enrols_drain (enrolling : protocol.Enrolling faulty lists) :
    Enrols (Tracked faulty lists) census protocol.drain fun _ _ => True :=
  enrols_state fun _ _ => enrols_drain_within enrolling _

variable {pass : Bindings → CursorAction cursor result}
  (enrolling : protocol.Enrolling faulty lists)
  (passes : ∀ census bindings, bindings.Listed census →
    Enrols (Tracked faulty lists) census (pass bindings) fun _ _ => True)

include enrolling passes

theorem enrols_passes_within (bound : Nat) :
    Enrols (Tracked faulty lists) census (protocol.passesWithin pass bound) fun _ _ => True := by
  induction bound generalizing census with
  | zero => exact enrols_pure [] trivial
  | succ bound induction =>
      apply enrols_bind (enrolling.nextBindings census)
      intro later bindings? _ listed
      cases bindings? with
      | none => exact enrols_pure [] trivial
      | some bindings =>
          apply enrols_bind (enrolling.openPass later)
          intro last _ within _
          apply enrols_bind (passes last bindings ((listed bindings rfl).later within))
          intro _ _ _ _
          exact enrols_bind induction fun _ _ _ _ => enrols_pure _ trivial

theorem enrols_run_passes :
    Enrols (Tracked faulty lists) census (protocol.runPasses pass) fun _ _ => True := by
  apply enrols_bind (enrolling.openBindings census)
  intro _ _ _ _
  apply enrols_state
  intro _ _
  apply enrols_bind (enrols_passes_within enrolling passes _)
  intro later _ _ _
  exact enrols_bind (enrolling.closeBindings later) fun _ _ _ _ => enrols_pure _ trivial

omit passes in
theorem enrols_then_destroy {run : CursorAction cursor result}
    (enrols : Enrols (Tracked faulty lists) census run fun _ _ => True) :
    Enrols (Tracked faulty lists) census (protocol.thenDestroy run) fun _ _ => True := by
  apply enrols_bind (enrols_attempt enrols)
  intro later ran _ _
  apply enrols_bind (enrols_attempt (enrolling.destroy later))
  intro _ destroyed _ _
  apply enrols_then (fun _ _ => True) (enrols_of_except fun _ _ => trivial)
  intro _ _ _ _
  apply enrols_then (fun _ _ => True) (enrols_of_except fun _ _ => trivial)
  intro _ _ _ _
  exact enrols_pure _ trivial

end Draining

/-- A cursor that is dropped leaves the engine covered. -/
theorem enrols_run_from {cursor result : Type} {faulty : LeafCall → Prop} {lists : Coverage cursor}
    {census : Census} {initial : cursor} {action : CursorAction cursor result}
    {gives : Census → result → Prop} (listed : lists census initial)
    (enrols : Enrols (Tracked faulty lists) census action gives) :
    Enrols (Engine.Covered faulty) census (CursorAction.runFrom initial action) gives := by
  intro engine covered
  have ends := (enrols (initial, engine) ⟨listed, covered⟩).2
  refine ⟨rfl, ?_⟩
  change Meets _ _ ((action.run (initial, engine)).1, (action.run (initial, engine)).2.2)
  revert ends
  rcases action.run (initial, engine) with ⟨interrupt | value, after⟩
  · intro meets
    obtain ⟨later, within, held⟩ := meets
    exact ⟨later, within, held.2⟩
  · intro meets
    obtain ⟨later, within, held, given⟩ := meets
    exact ⟨later, within, held.2, given⟩

namespace Plan

variable {faulty : LeafCall → Prop} {census : Census} {plan : Plan} {result : Type}
  {pass : Bindings → CursorAction plan.Cursor result}

/-- A run leaves an engine that the census covers, whatever it does with the rows. -/
theorem enrols_run (context : Context) {source : BindingSource} (listed : plan.Listed census)
    (bound : source.Listed census)
    (passes : ∀ census bindings, bindings.Listed census →
      Enrols (Tracked faulty plan.Lists) census (pass bindings) fun _ _ => True) :
    Enrols (Engine.Covered faulty) census (plan.run context source pass) fun _ _ => True := by
  apply enrols_get
  intro engine _
  have starting : Enrols (Engine.Covered faulty) census
      (ofExcept (plan.start engine.store source)) plan.Lists :=
    enrols_of_except fun cursor started => start_lists started listed bound
  apply enrols_bind starting
  intro later cursor _ lists
  have enrolling := plan.protocol_enrolling faulty context
  exact enrols_run_from lists (enrols_then_destroy enrolling (enrols_run_passes enrolling passes))

theorem enrols_execute_each (context : Context) {bindings : List Bindings}
    (listed : plan.Listed census) (bound : ∀ one ∈ bindings, one.Listed census) :
    Enrols (Engine.Covered faulty) census (plan.executeEach context bindings) fun _ _ => True :=
  enrols_run context listed ⟨bound, fun _ impossible => by cases impossible⟩ fun _ _ _ =>
    enrols_drain (plan.protocol_enrolling faulty context)

theorem enrols_execute (context : Context) {bindings : Bindings} (listed : plan.Listed census)
    (bound : bindings.Listed census) :
    Enrols (Engine.Covered faulty) census (plan.execute context bindings) fun _ _ => True := by
  refine enrols_bind (enrols_run context listed bound fun _ _ _ =>
    enrols_drain (plan.protocol_enrolling faulty context)) fun _ _ _ _ => ?_
  exact enrols_pure _ trivial

end Plan

namespace Update

variable {faulty : LeafCall → Prop} {census : Census} {update : Update} {row : Row}
  {bindings : Bindings}

theorem keeps_selects (listed : row.Listed census) (bound : bindings.Listed census)
    (context : Context) (update : Update) :
    Keeps (Journal.Faithful census) (update.selects (row.scope context bindings)) := by
  unfold selects
  split
  · exact keeps_bind (keeps_eval listed bound context _) fun _ => keeps_pure _
  · exact keeps_pure true

theorem keeps_new_value (listed : row.Listed census) (bound : bindings.Listed census)
    (context : Context) (kind : Kind) (column : Nat) (assignment : Option Expr) :
    Keeps (Journal.Faithful census)
      (newValue context (row.scope context bindings) kind column assignment) := by
  cases assignment with
  | none => exact keeps_read listed column
  | some expression =>
      apply keeps_bind (keeps_at_column (keeps_eval listed bound context expression) column)
      intro value
      split
      · split
        · exact keeps_pure value
        · exact keeps_at_column ((keeps_compositional census).cast context value kind) column
      · exact keeps_pure value

theorem keeps_new_values (listed : row.Listed census) (bound : bindings.Listed census)
    (context : Context) (column : Nat) (assignments : List (Option Expr))
    (types : List ColumnType) :
    Keeps (Journal.Faithful census)
      (newValues context (row.scope context bindings) column assignments types) := by
  induction assignments generalizing column types with
  | nil => exact keeps_pure []
  | cons assignment rest induction =>
      cases types with
      | nil => exact keeps_pure []
      | cons type types =>
          apply keeps_bind (keeps_new_value listed bound context type.kind column assignment)
          intro _
          exact keeps_bind (induction (column + 1) types) fun _ => keeps_pure _

theorem enrols_apply (update : Update) (context : Context) (listed : row.Listed census)
    (bound : bindings.Listed census) :
    Enrols (Engine.Covered faulty) census (update.apply context bindings row) fun _ _ => True := by
  apply enrols_bind (Engine.enrols_in_journal (keeps_selects listed bound context update))
  intro later selected within _
  have listed : row.Listed later := listed.later within
  split
  · apply enrols_bind (Engine.enrols_in_journal (keeps_new_values listed
      (bound.later within) context 0 update.assignments update.input.rowType.columns))
    intro second values further _
    apply enrols_bind (Engine.enrols_new_row update.input.rowType values)
    intro third replacement beyond stored
    apply enrols_bind Engine.enrols_lock_row
    intro last _ ending _
    apply enrols_bind (Engine.enrols_update_row update.table
      (listed.later ((further.trans beyond).trans ending)) (Row.listed_of_stored stored last))
    intro _ _ _ _
    exact enrols_pure true trivial
  · exact enrols_pure false trivial

theorem enrols_pass_within (update : Update) (context : Context) (bound : bindings.Listed census)
    (most : Nat) :
    Enrols (Tracked faulty update.input.Lists) census (update.passWithin context bindings most)
      fun _ _ => True := by
  have enrolling := update.input.protocol_enrolling faulty context
  induction most generalizing census with
  | zero => exact enrols_pure _ trivial
  | succ most induction =>
      apply enrols_bind (enrolling.next census)
      intro later row? within listed
      cases row? with
      | none => exact enrols_pure _ trivial
      | some row =>
          apply enrols_bind (enrols_in_engine enrolling.lasting
            (enrols_apply update context (listed row rfl) (bound.later within)))
          intro _ _ further _
          exact enrols_bind (induction (bound.later (within.trans further))) fun _ _ _ _ =>
            enrols_pure _ trivial

theorem enrols_run (update : Update) (context : Context) (listed : update.input.Listed census)
    (bound : bindings.Listed census) :
    Enrols (Engine.Covered faulty) census (update.run context bindings) fun _ _ => True := by
  refine enrols_bind (Plan.enrols_run context listed bound fun _ _ own =>
    enrols_state fun _ _ => enrols_pass_within update context own _) fun _ _ _ _ => ?_
  exact enrols_pure _ trivial

end Update

end QueryExec
