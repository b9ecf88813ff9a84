import QueryExec.Proofs.Action.Beside
import QueryExec.Proofs.Cursor.Leaf

/-!
What two runs beside each other have in common. A correspondence says which rows stand for each
other, which bindings both runs may use and how their engines are related; it is lawful in a
context if reading, making rows and looking at the engine keep it. Two cursors correspond if all
their calls do.
-/

namespace QueryExec

open QueryExec.Action

structure Correspondence (World : Type) where
  rows : World → Row → Row → Prop
  bound : World → Bindings → Prop
  engines : World → Engine → Engine → Prop

namespace Correspondence

variable {World mine yours : Type} [Preorder World] (corr : Correspondence World)

/-- Cursors that are related, in engines that correspond. -/
def States (related : World → mine → yours → Prop) (world : World) (left : mine × Engine)
    (right : yours × Engine) : Prop :=
  related world left.1 right.1 ∧ corr.engines world left.2 right.2

/-- Rows that stand for each other, or no row in either run. -/
def RowsAlike (world : World) : Option Row → Option Row → Prop :=
  Option.Rel (corr.rows world)

/-- One binding that both may use, or none in either run. -/
def BindingsAlike (world : World) (left right : Option Bindings) : Prop :=
  left = right ∧ ∀ bindings ∈ left, corr.bound world bindings

/-- What stays related in later worlds. -/
def Enduring {first second : Type} (related : World → first → second → Prop) : Prop :=
  ∀ world later left right, world ≤ later → related world left right → related later left right

theorem option_enduring {first second : Type} {related : World → first → second → Prop}
    (enduring : Enduring related) : Enduring fun world => Option.Rel (related world) := by
  rintro world later _ _ grown (held | _)
  · exact .some (enduring _ _ _ _ grown held)
  · exact .none

/-- What a correspondence has to do with the steps of an engine in a context. -/
structure Lawful (context : Context) : Prop where
  rows_type : ∀ {world left right}, corr.rows world left right → left.type = right.type
  rows_later : Enduring corr.rows
  bound_later : ∀ {world later bindings}, world ≤ later → corr.bound world bindings →
    corr.bound later bindings
  bound_empty : ∀ world, corr.bound world .empty
  tap : ∀ world name, Correspond corr.engines world (Engine.inJournal (context.tap name))
    (Engine.inJournal (context.tap name)) fun _ _ _ => True
  check : ∀ world, Correspond corr.engines world (Engine.inJournal context.checkCancelled)
    (Engine.inJournal context.checkCancelled) fun _ _ _ => True
  read : ∀ {world left right}, corr.rows world left right → ∀ column,
    Correspond corr.engines world (Engine.inJournal (left.read column))
      (Engine.inJournal (right.read column)) fun _ => Eq
  eval : ∀ {world left right bindings}, corr.rows world left right → corr.bound world bindings →
    ∀ expression : Expr, Correspond corr.engines world
      (Engine.inJournal (expression.eval (left.scope context bindings)))
      (Engine.inJournal (expression.eval (right.scope context bindings))) fun _ => Eq
  new_row : ∀ world type values, Correspond corr.engines world (Engine.newRow type values)
    (Engine.newRow type values) corr.rows
  new_projection : ∀ {world left right bindings}, corr.rows world left right →
    corr.bound world bindings → ∀ type columns, Correspond corr.engines world
      (Engine.newProjection type left context bindings columns)
      (Engine.newProjection type right context bindings columns) corr.rows
  noted : ∀ {world left right} call, corr.engines world left right →
    corr.engines world (left.noted call) (right.noted call)
  fault : ∀ {world left right} call, corr.engines world left right →
    EndLater corr.engines world (fun _ _ _ => True)
      ((Engine.injectFault call).run (left.noted call))
      ((Engine.injectFault call).run (right.noted call))
  stored : ∀ {world left right}, corr.engines world left right → ∀ name,
    left.store.table name = right.store.table name ∧
      ∀ table, left.store.table name = .ok table → ∀ row ∈ table.rows, corr.rows world row row

/-- The calls of two protocols keep their cursors related and answer alike. -/
structure Protocols (first : Protocol mine) (second : Protocol yours)
    (related : World → mine → yours → Prop) : Prop where
  enduring : Enduring related
  phase : ∀ {world left right}, related world left right → first.phase left = second.phase right
  remaining : ∀ {world left right}, related world left right →
    first.remaining left = second.remaining right
  passes : ∀ {world left right}, related world left right → first.passes left = second.passes right
  openPass : ∀ world, Correspond (corr.States related) world first.openPass second.openPass
    fun _ _ _ => True
  next : ∀ world, Correspond (corr.States related) world first.next second.next corr.RowsAlike
  close : ∀ world, Correspond (corr.States related) world first.close second.close
    fun _ _ _ => True
  destroy : ∀ world, Correspond (corr.States related) world first.destroy second.destroy
    fun _ _ _ => True
  openBindings : ∀ world,
    Correspond (corr.States related) world first.openBindings second.openBindings
      fun _ _ _ => True
  nextBindings : ∀ world,
    Correspond (corr.States related) world first.nextBindings second.nextBindings
      corr.BindingsAlike
  closeBindings : ∀ world,
    Correspond (corr.States related) world first.closeBindings second.closeBindings
      fun _ _ _ => True
  cancelBindings : ∀ {world} bindings left right, corr.States related world left right →
    corr.States related world (first.cancelBindings bindings left)
      (second.cancelBindings bindings right)

section Steps

variable {corr} {related : World → mine → yours → Prop} {world : World} {result partner : Type}
  {gives : World → result → partner → Prop}

theorem correspond_state {next : mine → CursorAction mine result}
    {following : yours → CursorAction yours partner}
    (follows : ∀ left right, related world left right →
      Correspond (corr.States related) world (next left) (following right) gives) :
    Correspond (corr.States related) world (CursorAction.state >>= next)
      (CursorAction.state >>= following) gives :=
  fun left right held => follows left.1 right.1 held.1 left right held

theorem correspond_change {step : mine → mine} {following : yours → yours}
    (keeps : ∀ left right, related world left right → related world (step left)
      (following right)) :
    Correspond (corr.States related) world (CursorAction.change step)
      (CursorAction.change following) fun _ _ _ => True :=
  correspond_modify fun left right held => ⟨keeps left.1 right.1 held.1, held.2⟩

theorem correspond_in_engine (enduring : Enduring related) {action : Action Engine result}
    {acting : Action Engine partner}
    (correspond : Correspond corr.engines world action acting gives) :
    Correspond (corr.States related) world (CursorAction.inEngine action)
      (CursorAction.inEngine acting) gives := by
  unfold CursorAction.inEngine onSecond
  refine correspond_on_part (fun _ _ held => held.2) ?_ correspond
  exact fun _ _ _ _ _ grown held engines => ⟨enduring _ _ _ _ grown held.1, engines⟩

theorem correspond_phase_check (call : Call) (phase : Phase) :
    Correspond (corr.States related) world (call.check phase) (call.check phase)
      fun _ _ _ => True := by
  unfold Call.check
  split
  · exact correspond_pure trivial
  · exact correspond_fail _

end Steps

section Journals

variable {corr} {world : World} {result other : Type}

omit [Preorder World] in
theorem in_journal_bind (action : Action Journal other) (next : other → Action Journal result) :
    Engine.inJournal (action >>= next) =
      Engine.inJournal action >>= fun value => Engine.inJournal (next value) := by
  have run {answer : Type} (step : Action Journal answer) (engine : Engine) :
      (Engine.inJournal step).run engine = ((step.run engine.journal).1,
        { engine with journal := (step.run engine.journal).2 }) := rfl
  refine ExceptT.ext (funext fun engine => ?_)
  rw [run, run_bind, run_bind, run]
  rcases action.run engine.journal with ⟨_ | _, _⟩ <;> rfl

/-- Readings that correspond, one after the other. -/
theorem reading_bind {first second : Action Journal other}
    {next following : other → Action Journal result}
    (begin : Correspond corr.engines world (Engine.inJournal first) (Engine.inJournal second)
      fun _ => Eq)
    (continues : ∀ later value, world ≤ later → Correspond corr.engines later
      (Engine.inJournal (next value)) (Engine.inJournal (following value)) fun _ => Eq) :
    Correspond corr.engines world (Engine.inJournal (first >>= next))
      (Engine.inJournal (second >>= following)) fun _ => Eq := by
  rw [in_journal_bind, in_journal_bind]
  refine correspond_bind begin ?_
  rintro later value _ grown rfl
  exact continues later value grown

theorem reading_pure (value : result) : Correspond corr.engines world
    (Engine.inJournal (pure value)) (Engine.inJournal (pure value)) fun _ => Eq :=
  fun _ _ held => ⟨world, le_rfl, held, rfl⟩

/-- Readings of one list of items, item by item. -/
theorem reading_map {item : Type} {step following : item → Action Journal result}
    (items : List item) (each : ∀ later, world ≤ later → ∀ member, Correspond corr.engines later
      (Engine.inJournal (step member)) (Engine.inJournal (following member)) fun _ => Eq) :
    Correspond corr.engines world (Engine.inJournal (items.mapM step))
      (Engine.inJournal (items.mapM following)) fun _ => Eq := by
  induction items generalizing world with
  | nil => exact reading_pure []
  | cons head rest induction =>
      rw [List.mapM_cons, List.mapM_cons]
      refine reading_bind (each world le_rfl head) fun later value grown => ?_
      refine reading_bind (induction fun last further => each last (le_trans grown further)) ?_
      exact fun _ _ _ => reading_pure _

end Journals

section Calls

variable {corr} {related : World → mine → yours → Prop} {world : World} {first : Protocol mine}
  {second : Protocol yours} (protocols : corr.Protocols first second related)

include protocols

theorem correspond_close_active :
    Correspond (corr.States related) world first.closeActive second.closeActive
      fun _ _ _ => True := by
  apply correspond_state
  intro left right held
  rw [protocols.phase held]
  split
  · exact protocols.close world
  · exact correspond_pure trivial

theorem correspond_destroy_once :
    Correspond (corr.States related) world first.destroyOnce second.destroyOnce
      fun _ _ _ => True := by
  apply correspond_state
  intro left right held
  rw [protocols.phase held]
  split
  · exact correspond_pure trivial
  · exact protocols.destroy world

end Calls

end Correspondence

end QueryExec
