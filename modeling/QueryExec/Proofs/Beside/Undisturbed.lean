import QueryExec.Proofs.Beside.Plans
import QueryExec.Proofs.Cursor.Production

/-!
Undisturbed runs beside each other. Each engine is steady for every context that is in use, under a
census of its own; the rows that stand for each other are listed there and look alike, whatever was
computed of them before and under whatever identities they were made.
-/

namespace QueryExec

open QueryExec.Action QueryExec.Correspondence

/-- The censuses of two runs. -/
structure Sides where
  mine : Census
  yours : Census

instance : Preorder Sides where
  le before later := before.mine.Within later.mine ∧ before.yours.Within later.yours
  le_refl sides := ⟨sides.mine.within_refl, sides.yours.within_refl⟩
  le_trans _ _ _ begun continued := ⟨begun.1.trans continued.1, begun.2.trans continued.2⟩

/-- The engine is steady for every context in use. -/
def Engine.Settled (users : Context → Prop) (store : Store) (census : Census) (engine : Engine) :
    Prop :=
  ∀ context, users context → engine.Steady context store census

/-- Rows that look alike, each listed on its side. -/
structure Row.Alike (sides : Sides) (left right : Row) : Prop where
  mine : left.Listed sides.mine
  yours : right.Listed sides.yours
  view : left.view = right.view

/-- Undisturbed runs over one store. -/
def Correspondence.undisturbed (users : Context → Prop) (store : Store) : Correspondence Sides where
  rows := Row.Alike
  bound sides bindings := bindings.Listed sides.mine ∧ bindings.Listed sides.yours
  engines sides left right :=
    left.Settled users store sides.mine ∧ right.Settled users store sides.yours

namespace Undisturbed

variable {users : Context → Prop} {store : Store} {context : Context} {sides : Sides}
  {left right : Engine}

theorem rows_alike_later {first second : Row} {later : Sides} (grown : sides ≤ later)
    (alike : first.Alike sides second) : first.Alike later second :=
  ⟨alike.mine.later grown.1, alike.yours.later grown.2, alike.view⟩

/-- A row is like itself where it is listed on both sides. -/
theorem alike_itself {row : Row} (mine : row.Listed sides.mine) (yours : row.Listed sides.yours) :
    row.Alike sides row :=
  ⟨mine, yours, rfl⟩

/-- What has one outcome in every sound journal is read alike on both sides. -/
theorem correspond_yields {result : Type} {first second : Action Journal result}
    {outcome : Except Interrupt result}
    (mine : ∀ context, Yields (Journal.Sound context sides.mine) first outcome)
    (yours : ∀ context, Yields (Journal.Sound context sides.yours) second outcome)
    (used : users context) :
    Correspond (undisturbed users store).engines sides (Engine.inJournal first)
      (Engine.inJournal second) fun _ => Eq := by
  rintro left right ⟨settled, quiet⟩
  obtain ⟨same, _⟩ := mine context left.journal (settled context used).journal
  obtain ⟨alike, _⟩ := yours context right.journal (quiet context used).journal
  have still : (undisturbed users store).engines sides
      ((Engine.inJournal first).run left).2 ((Engine.inJournal second).run right).2 :=
    ⟨fun user member => (settled user member).with_journal
        (mine user left.journal (settled user member).journal).2,
      fun user member => (quiet user member).with_journal
        (yours user right.journal (quiet user member).journal).2⟩
  change EndLater _ sides _ ((first.run left.journal).1, _) ((second.run right.journal).1, _)
  rw [same, alike]
  cases outcome with
  | ok value => exact ⟨sides, le_rfl, still, rfl⟩
  | error interrupt => exact ⟨rfl, sides, le_rfl, still⟩

theorem correspond_read (used : users context) {first second : Row}
    (alike : first.Alike sides second) (column : Nat) :
    Correspond (undisturbed users store).engines sides (Engine.inJournal (first.read column))
      (Engine.inJournal (second.read column)) fun _ => Eq := by
  refine correspond_yields (fun _ => first.read_yields alike.mine column) (fun _ => ?_) used
  have meaning : first.meaning = second.meaning := congrArg View.column alike.view
  rw [meaning]
  exact second.read_yields alike.yours column

theorem correspond_eval (used : users context) {first second : Row} {bindings : Bindings}
    (alike : first.Alike sides second) (mine : bindings.Listed sides.mine)
    (yours : bindings.Listed sides.yours) (expression : Expr) :
    Correspond (undisturbed users store).engines sides
      (Engine.inJournal (expression.eval (first.scope context bindings)))
      (Engine.inJournal (expression.eval (second.scope context bindings))) fun _ => Eq := by
  refine correspond_yields (fun _ => eval_yields alike.mine mine context expression) (fun _ => ?_)
    used
  rw [alike.view]
  exact eval_yields alike.yours yours context expression

theorem correspond_tap (used : users context) (name : String) :
    Correspond (undisturbed users store).engines sides (Engine.inJournal (context.tap name))
      (Engine.inJournal (context.tap name)) fun _ _ _ => True := by
  have taps (census : Census) (user : Context) :
      Yields (Journal.Sound user census) (context.tap name) (.ok ()) :=
    yields_modify fun _ sound => sound.tap context name
  exact correspond_imp (correspond_yields (taps sides.mine) (taps sides.yours) used)
    fun _ _ _ _ => trivial

/-- No context in use is cancelled. -/
theorem correspond_check (used : users context) :
    Correspond (undisturbed users store).engines sides (Engine.inJournal context.checkCancelled)
      (Engine.inJournal context.checkCancelled) fun _ _ _ => True := by
  rintro left right ⟨settled, quiet⟩
  change EndLater _ sides _
    ((context.checkCancelled.run left.journal).1,
      { left with journal := (context.checkCancelled.run left.journal).2 })
    ((context.checkCancelled.run right.journal).1,
      { right with journal := (context.checkCancelled.run right.journal).2 })
  rw [Context.check_passes (settled context used).journal.uncancelled,
    Context.check_passes (quiet context used).journal.uncancelled]
  exact ⟨sides, le_rfl, ⟨settled, quiet⟩, trivial⟩

theorem correspond_new_row (type : RowType) (values : List Datum) :
    Correspond (undisturbed users store).engines sides (Engine.newRow type values)
      (Engine.newRow type values) Row.Alike := by
  rintro left right ⟨settled, quiet⟩
  refine ⟨sides, le_rfl, ⟨fun user member => (settled user member).issued,
    fun user member => (quiet user member).issued⟩, trivial, trivial, ?_⟩
  rw [view_stored, view_stored]

/-- Each side enters the row that it makes under an identity of its own. -/
theorem correspond_new_projection (used : users context) {first second : Row} {bindings : Bindings}
    (alike : first.Alike sides second) (mine : bindings.Listed sides.mine)
    (yours : bindings.Listed sides.yours) (type : RowType) (columns : List Expr) :
    Correspond (undisturbed users store).engines sides
      (Engine.newProjection type first context bindings columns)
      (Engine.newProjection type second context bindings columns) Row.Alike := by
  rintro left right ⟨settled, quiet⟩
  let made := Row.projected left.nextId type first context bindings columns
  let other := Row.projected right.nextId type second context bindings columns
  let later : Sides :=
    ⟨sides.mine.with left.nextId made, sides.yours.with right.nextId other⟩
  have grown : sides ≤ later :=
    ⟨Census.within_with ((settled context used).fresh _ (Nat.le_refl _)) made,
      Census.within_with ((quiet context used).fresh _ (Nat.le_refl _)) other⟩
  refine ⟨later, grown, ⟨fun user member => (settled user member).projected made,
    fun user member => (quiet user member).projected other⟩, ?_, ?_, ?_⟩
  · exact ⟨if_pos rfl, alike.mine.later grown.1, mine.later grown.1⟩
  · exact ⟨if_pos rfl, alike.yours.later grown.2, yours.later grown.2⟩
  · rw [view_projected alike.mine mine, view_projected alike.yours yours, alike.view]

theorem run_inject_fault (quiet : left.FaultsWithin fun _ => False) (call : LeafCall) :
    (Engine.injectFault call).run (left.noted call) = (.ok (), left.noted call) := by
  have ends : EndsIn (left.noted call) (Engine.injectFault call)
      (fun _ after => after = left.noted call) fun _ _ => False :=
    Engine.agree_inject_fault quiet rfl False.elim
  have meets := ends.2
  revert meets
  rcases (Engine.injectFault call).run (left.noted call) with ⟨interrupt | value, after⟩
  · exact False.elim
  · rintro rfl
    rfl

theorem correspond_fault (used : users context) (call : LeafCall)
    (engines : (undisturbed users store).engines sides left right) :
    EndLater (undisturbed users store).engines sides (fun _ _ _ => True)
      ((Engine.injectFault call).run (left.noted call))
      ((Engine.injectFault call).run (right.noted call)) := by
  obtain ⟨settled, quiet⟩ := engines
  rw [run_inject_fault (settled context used).quiet, run_inject_fault (quiet context used).quiet]
  exact ⟨sides, le_rfl, ⟨fun user member => (settled user member).noted call,
    fun user member => (quiet user member).noted call⟩, trivial⟩

/-- Undisturbed runs correspond in every context in use, over a store of stored rows. -/
theorem lawful (used : users context)
    (plain : ∀ name table, store.table name = .ok table → table.Plain) :
    (undisturbed users store).Lawful context where
  rows_type := fun alike => congrArg View.type alike.view
  rows_later := fun _ _ _ _ => rows_alike_later
  bound_later := fun grown listed => ⟨listed.1.later grown.1, listed.2.later grown.2⟩
  bound_empty := fun _ => ⟨trivial, trivial⟩
  tap := fun _ => correspond_tap used
  check := fun _ => correspond_check used
  read := correspond_read used
  eval := fun alike listed => correspond_eval used alike listed.1 listed.2
  new_row := fun _ => correspond_new_row
  new_projection := fun alike listed =>
    correspond_new_projection used alike listed.1 listed.2
  noted := fun call engines =>
    ⟨fun user member => (engines.1 user member).noted call,
      fun user member => (engines.2 user member).noted call⟩
  fault := fun call => correspond_fault used call
  stored := by
    rintro sides left right ⟨settled, quiet⟩ name
    rw [(settled context used).store, (quiet context used).store]
    refine ⟨rfl, fun table found row member => ?_⟩
    have stored := plain name table found row member
    exact alike_itself (Row.listed_of_stored stored _) (Row.listed_of_stored stored _)

end Undisturbed

/-- The rows that a listed plan brings along are listed. -/
theorem Plan.Listed.supply {plan : Plan} {census : Census} (listed : plan.Listed census) :
    ∀ row ∈ plan.supply, row.Listed census := by
  induction plan with
  | values slice type rows => exact listed
  | table name type => exact nofun
  | filter input predicate induction => exact induction listed
  | project input type columns induction => exact induction listed
  | aggregate input type keys aggregates induction => exact induction listed
  | limit input offset limit? induction => exact induction listed

end QueryExec
