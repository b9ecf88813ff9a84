import Mathlib.Logic.Function.Basic
import QueryExec.Proofs.Beside.Undisturbed
import QueryExec.Proofs.Execution

/-!
Executions of one plan do not disturb each other. Each has a context, a source of bindings and a
cursor of its own, and they share the rows of the plan, what was computed of them and the store.
Their events come in any order; each execution is answered as if it ran alone.
-/

namespace QueryExec

open QueryExec.Action QueryExec.Correspondence

/-- One execution of a plan: its cursor, once it is made, and the rows that it was given. -/
structure Plan.Execution (plan : Plan) where
  context : Context
  source : BindingSource
  cursor? : Option plan.Cursor := none
  given : List Row := []

/-- An execution that has not begun. -/
def Plan.execution (plan : Plan) (context : Context) (source : BindingSource) : plan.Execution :=
  { context, source }

namespace Plan.Execution

/-- What happens in an execution: its cursor is made or called, or a row it was given is read. -/
inductive Event
  | create
  | call (call : CursorCall)
  | read (position column : Nat)

/-- What an answer shows: of a row its type, since its columns are read one by one. -/
inductive Shown
  | done
  | row (type? : Option RowType)
  | bindings (bindings? : Option Bindings)

inductive Reply
  | created (outcome : Except QueryError Unit)
  | answered (outcome : Except Interrupt Shown) (phase : Phase)
  | value (outcome : Except Interrupt Datum)
  /-- There is no cursor yet, or no such row. -/
  | absent

def Shown.of : CursorAnswer → Shown
  | .done => done
  | .row row? => row (row?.map Row.type)
  | .bindings bindings? => bindings bindings?

/-- The row of an answer, if it has one. -/
def rowsOf : Except Interrupt CursorAnswer → List Row
  | .ok (.row row?) => row?.toList
  | _ => []

variable {plan : Plan}

def call (execution : plan.Execution) (cursor : plan.Cursor) (engine : Engine)
    (call : CursorCall) : Reply × plan.Execution × Engine :=
  let (outcome, after, reached) :=
    ((plan.protocol execution.context).perform call).run (cursor, engine)
  (.answered (outcome.map Shown.of) ((plan.protocol execution.context).phase after),
    { execution with cursor? := some after, given := execution.given ++ rowsOf outcome }, reached)

def serve (execution : plan.Execution) (engine : Engine) :
    Event → Reply × plan.Execution × Engine
  | .create =>
      match plan.start engine.store execution.source with
      | .ok cursor => (.created (.ok ()), { execution with cursor? := some cursor }, engine)
      | .error error => (.created (.error error), execution, engine)
  | .call called =>
      match execution.cursor? with
      | some cursor => execution.call cursor engine called
      | none => (.absent, execution, engine)
  | .read position column =>
      match execution.given[position]? with
      | some row =>
          let (outcome, reached) := (Engine.inJournal (row.read column)).run engine
          (.value outcome, execution, reached)
      | none => (.absent, execution, engine)

/-- The replies of an execution that has the engine to itself. -/
def alone (execution : plan.Execution) (engine : Engine) : List Event → List Reply
  | [] => []
  | event :: rest =>
      let (reply, after, reached) := execution.serve engine event
      reply :: alone after reached rest

variable {side : Type} [DecidableEq side]

/-- The replies of several executions that share an engine, in the order of their events. -/
def interleave (executions : side → plan.Execution) (engine : Engine) :
    List (side × Event) → List (side × Reply)
  | [] => []
  | (own, event) :: rest =>
      let (reply, after, reached) := (executions own).serve engine event
      (own, reply) :: interleave (Function.update executions own after) reached rest

/-- What belongs to one of the executions. -/
def ofSide {item : Type} (own : side) (items : List (side × item)) : List item :=
  (items.filter fun entry => entry.1 = own).map Prod.snd

/-- Two executions that look alike, in use and with all that they keep listed. -/
structure Alike (users : Context → Prop) (store : Store) (sides : Sides)
    (left right : plan.Execution) : Prop where
  context : left.context = right.context
  used : users left.context
  source : left.source = right.source
  bound : left.source.All ((undisturbed users store).bound sides)
  supply : ∀ row ∈ plan.supply, row.Alike sides row
  cursor : Option.Rel (plan.Beside (undisturbed users store) sides) left.cursor? right.cursor?
  given : List.Forall₂ (Row.Alike sides) left.given right.given

/-- Two lists that correspond have corresponding entries. -/
theorem entries_alike {item other : Type} {related : item → other → Prop} {first : List item}
    {second : List other} (alike : List.Forall₂ related first second) (position : Nat) :
    Option.Rel related first[position]? second[position]? := by
  induction alike generalizing position with
  | nil => exact .none
  | cons head _ induction =>
      cases position with
      | zero => exact .some head
      | succ position => exact induction position

section Serving

variable {users : Context → Prop} {store : Store} {sides : Sides} {left right : plan.Execution}
  {mine yours : Engine}

/-- Two servings that end alike. -/
def ServedAlike (users : Context → Prop) (store : Store) (sides : Sides)
    (first second : Reply × plan.Execution × Engine) : Prop :=
  ∃ later, sides ≤ later ∧ first.1 = second.1 ∧ Alike users store later first.2.1 second.2.1 ∧
    (undisturbed users store).engines later first.2.2 second.2.2

variable (plain : ∀ name table, store.table name = .ok table → table.Plain)

include plain

theorem Alike.later {later : Sides} (alike : Alike users store sides left right)
    (grown : sides ≤ later) : Alike users store later left right :=
  have lawful := Undisturbed.lawful alike.used plain
  { alike with
    bound := alike.bound.imp fun _ => lawful.bound_later grown
    supply := fun row member => Undisturbed.rows_alike_later grown (alike.supply row member)
    cursor := option_enduring (plan.protocols_beside lawful).enduring _ _ _ _ grown alike.cursor
    given := alike.given.imp fun _ _ => Undisturbed.rows_alike_later grown }

omit plain in
/-- Answers that are alike show the same and give rows that are alike. -/
theorem answers_shown {answer other : CursorAnswer}
    (alike : (undisturbed users store).AnswersAlike sides answer other) :
    Shown.of answer = Shown.of other ∧
      List.Forall₂ (Row.Alike sides) (rowsOf (.ok answer)) (rowsOf (.ok other)) := by
  cases answer <;> cases other
  case done.done => exact ⟨rfl, .nil⟩
  case row.row row? other? =>
      cases alike with
      | some rows =>
          exact ⟨congrArg (fun view => Shown.row (some (View.type view))) rows.view,
            .cons rows .nil⟩
      | none => exact ⟨rfl, .nil⟩
  case bindings.bindings => exact ⟨congrArg Shown.bindings alike.1, .nil⟩
  all_goals exact alike.elim

theorem call_alike (alike : Alike users store sides left right)
    (engines : (undisturbed users store).engines sides mine yours) {cursor other : plan.Cursor}
    (beside : plan.Beside (undisturbed users store) sides cursor other) (called : CursorCall) :
    ServedAlike users store sides (left.call cursor mine called)
      (right.call other yours called) := by
  have protocols := plan.protocols_beside (Undisturbed.lawful alike.used plain)
  have ends := protocols.perform called (cursor, mine) (other, yours) ⟨beside, engines⟩
  unfold call
  rw [← alike.context]
  rcases end_alike_cases ends with
    ⟨answer, same, after, last, ran, went, later, grown, reached, shown⟩ |
    ⟨interrupt, after, last, ran, went, later, grown, reached⟩
  · rw [ran, went]
    obtain ⟨same, rows⟩ := answers_shown shown
    dsimp only
    refine ⟨later, grown, ?_, ?_, reached.2⟩
    · exact congrArg₂ Reply.answered (congrArg Except.ok same) (protocols.phase reached.1)
    · have still := alike.later plain grown
      exact { still with
        context := rfl
        cursor := .some reached.1
        given := List.rel_append still.given rows }
  · rw [ran, went]
    dsimp only
    refine ⟨later, grown, congrArg (Reply.answered _) (protocols.phase reached.1), ?_, reached.2⟩
    have still := alike.later plain grown
    exact { still with
      context := rfl
      cursor := .some reached.1
      given := List.rel_append still.given .nil }

theorem create_alike (alike : Alike users store sides left right)
    (engines : (undisturbed users store).engines sides mine yours) :
    ServedAlike users store sides (left.serve mine .create) (right.serve yours .create) := by
  have lawful := Undisturbed.lawful alike.used plain
  obtain ⟨settled, quiet⟩ := engines
  unfold serve
  rw [← alike.source, (settled _ alike.used).store, (quiet _ alike.used).store]
  cases started : plan.start store left.source with
  | error error => exact ⟨sides, le_rfl, rfl, alike, settled, quiet⟩
  | ok cursor =>
      dsimp only
      have beside := plan.start_beside lawful started alike.supply alike.bound
      exact ⟨sides, le_rfl, rfl, { alike with source := rfl, cursor := .some beside }, settled,
        quiet⟩

theorem read_alike (alike : Alike users store sides left right)
    (engines : (undisturbed users store).engines sides mine yours) (position column : Nat) :
    ServedAlike users store sides (left.serve mine (.read position column))
      (right.serve yours (.read position column)) := by
  have rows := entries_alike alike.given position
  unfold serve
  dsimp only
  revert rows
  cases left.given[position]? with
  | none =>
      cases right.given[position]? with
      | none => exact fun _ => ⟨sides, le_rfl, rfl, alike, engines⟩
      | some other => exact nofun
  | some row =>
      cases right.given[position]? with
      | none => exact nofun
      | some other =>
          rintro (rows | _)
          have ends := Undisturbed.correspond_read alike.used rows column mine yours engines
          dsimp only
          rcases end_alike_cases ends with
            ⟨value, same, after, last, ran, went, later, grown, reached, shown⟩ |
            ⟨interrupt, after, last, ran, went, later, grown, reached⟩
          · rw [ran, went]
            exact ⟨later, grown, congrArg (fun value => Reply.value (.ok value)) shown,
              alike.later plain grown, reached⟩
          · rw [ran, went]
            exact ⟨later, grown, rfl, alike.later plain grown, reached⟩

/-- Executions that look alike are served alike. -/
theorem serve_alike (alike : Alike users store sides left right)
    (engines : (undisturbed users store).engines sides mine yours) (event : Event) :
    ServedAlike users store sides (left.serve mine event) (right.serve yours event) := by
  cases event with
  | create => exact create_alike plain alike engines
  | read position column => exact read_alike plain alike engines position column
  | call called =>
      have cursors := alike.cursor
      unfold serve
      revert cursors
      cases left.cursor? with
      | none =>
          cases right.cursor? with
          | none => exact fun _ => ⟨sides, le_rfl, rfl, alike, engines⟩
          | some other => exact nofun
      | some cursor =>
          cases right.cursor? with
          | none => exact nofun
          | some other =>
              rintro (beside | _)
              exact call_alike plain alike engines beside called

end Serving

section Interleaving

variable {users : Context → Prop} {store : Store} {executions : side → plan.Execution}
  {engine : Engine} {lone : side → plan.Execution × Engine} {mine : Census} {yours : side → Census}

theorem of_side_own {item : Type} (own : side) (first : item) (rest : List (side × item)) :
    ofSide own ((own, first) :: rest) = first :: ofSide own rest := by
  simp [ofSide]

theorem of_side_other {item : Type} {own acting : side} (other : acting ≠ own) (first : item)
    (rest : List (side × item)) : ofSide own ((acting, first) :: rest) = ofSide own rest := by
  simp [ofSide, other]

/-- Executions that share an engine, and each of them again with an engine to itself. -/
structure Abreast (users : Context → Prop) (store : Store) (executions : side → plan.Execution)
    (engine : Engine) (lone : side → plan.Execution × Engine) (mine : Census)
    (yours : side → Census) : Prop where
  alike : ∀ own, Alike users store ⟨mine, yours own⟩ (executions own) (lone own).1
  shared : engine.Settled users store mine
  settled : ∀ own, (lone own).2.Settled users store (yours own)

variable (plain : ∀ name table, store.table name = .ok table → table.Plain)

include plain

/-- One event is answered as it is alone, and the executions stay abreast. -/
theorem Abreast.serve (abreast : Abreast users store executions engine lone mine yours) (own : side)
    (event : Event) :
    ((executions own).serve engine event).1 = ((lone own).1.serve (lone own).2 event).1 ∧
    ∃ grown others, Abreast users store
      (Function.update executions own ((executions own).serve engine event).2.1)
      ((executions own).serve engine event).2.2
      (Function.update lone own ((lone own).1.serve (lone own).2 event).2)
      grown others := by
  obtain ⟨later, grown, same, alike, shared, reached⟩ := serve_alike plain (abreast.alike own)
    ⟨abreast.shared, abreast.settled own⟩ event
  refine ⟨same, later.mine, Function.update yours own later.yours, ?_, shared, ?_⟩
  · intro other
    by_cases self : other = own
    · subst self
      rw [Function.update_self, Function.update_self, Function.update_self]
      exact alike
    · rw [Function.update_of_ne self, Function.update_of_ne self, Function.update_of_ne self]
      exact (abreast.alike other).later plain ⟨grown.1, (yours other).within_refl⟩
  · intro other
    by_cases self : other = own
    · subst self
      rw [Function.update_self, Function.update_self]
      exact reached
    · rw [Function.update_of_ne self, Function.update_of_ne self]
      exact abreast.settled other

/-- The replies of each execution are those it has alone: by induction on the events. -/
theorem Abreast.replies (abreast : Abreast users store executions engine lone mine yours)
    (events : List (side × Event)) (own : side) :
    ofSide own (interleave executions engine events) =
      (lone own).1.alone (lone own).2 (ofSide own events) := by
  induction events generalizing executions engine lone mine yours with
  | nil => rfl
  | cons first rest induction =>
      obtain ⟨acting, event⟩ := first
      obtain ⟨same, grown, others, abreast⟩ := abreast.serve plain acting event
      have rests := induction abreast
      unfold interleave
      dsimp only
      by_cases self : acting = own
      · subst self
        rw [Function.update_self] at rests
        rw [of_side_own, of_side_own, rests, same]
        rfl
      · rw [Function.update_of_ne (Ne.symm self)] at rests
        rw [of_side_other self, of_side_other self, rests]

end Interleaving

end Plan.Execution

namespace Session

open Plan.Execution

variable {session : Session} {plan : Plan} {faulty : LeafCall → Prop} {census : Census}

theorem Offers.listed {bindings : Bindings} (offered : session.Offers plan bindings)
    (covered : session.Covered faulty census) : bindings.Listed census := by
  rcases offered.2 with ⟨name, present⟩ | ⟨id, rfl⟩
  · exact Table.every_get covered.names.bindings present
  · exact trivial

/-- The tables of a covered engine have stored rows only. -/
theorem tables_plain {engine : Engine} (covered : engine.Covered faulty census) (name : String)
    (table : StoredTable) (found : engine.store.table name = .ok table) : table.Plain := by
  unfold Store.table at found
  split at found
  next present =>
    cases found
    exact (Table.every_get covered.tidy present).plain
  next => cases found

/-- Whatever a session did before, executions of one of its plans are independent. Each may have a
context and bindings of its own or share them, and their cursors are made and called and their rows
are read in any order: where no context is cancelled and no leaf call is to fail, each is answered
as if it were alone. -/
theorem executions_independent (reached : session.Reached fun _ => True)
    {name : String} (shared : session.plans.get? name = some plan) {side : Type} [DecidableEq side]
    (contexts : side → Context) (sources : side → BindingSource)
    (offered : ∀ own, (sources own).All (session.Offers plan))
    (uncancelled : ∀ own, (session.engine.journal.of (contexts own)).cancelled = false)
    (faultless : session.engine.FaultsWithin fun _ => False) (events : List (side × Event))
    (own : side) :
    ofSide own (interleave (fun one => plan.execution (contexts one) (sources one))
        session.engine events) =
      (plan.execution (contexts own) (sources own)).alone session.engine (ofSide own events) := by
  obtain ⟨census, covered⟩ := reached.covered
  have listed : plan.Listed census := Table.every_get covered.names.plans shared
  let users : Context → Prop := fun context => ∃ one, contexts one = context
  have settled : session.engine.Settled users session.engine.store census := by
    rintro _ ⟨one, rfl⟩
    exact ⟨⟨uncancelled one, covered.engine.faithful⟩, covered.engine.fresh, faultless, rfl⟩
  have abreast : Abreast users session.engine.store
      (fun one => plan.execution (contexts one) (sources one)) session.engine
      (fun one => (plan.execution (contexts one) (sources one), session.engine)) census
      fun _ => census :=
    { alike := fun one =>
        { context := rfl
          used := ⟨one, rfl⟩
          source := rfl
          bound := (offered one).imp fun _ bound => ⟨bound.listed covered, bound.listed covered⟩
          supply := fun row member => Undisturbed.alike_itself (listed.supply row member)
            (listed.supply row member)
          cursor := .none
          given := .nil }
      shared := settled
      settled := fun _ => settled }
  exact abreast.replies (tables_plain covered.engine) events own

end Session

/-! Two cursors of one plan take turns at a row that is computed when it is read. -/

namespace Doubles

open Session Plan.Execution

def bigint : ColumnType := .notNull .bigint

def session : Session :=
  Counting.new.after [.type "number" [bigint], .row "base" "number" [Counting.count 21],
    .projectRow "double" "base" [bigint]
      [.binary (.arithmetic .add) (.column 0 bigint) (.column 0 bigint)] none,
    .plan "doubles" (.values "number" [.named "double"])]

def plan : Plan :=
  .values 5 ⟨1, [bigint]⟩
    [.projected 4 ⟨2, [bigint]⟩ (.stored 2 ⟨1, [bigint]⟩ [Counting.count 21]) Counting.new.context
      (.root 3) [.binary (.arithmetic .add) (.column 0 bigint) (.column 0 bigint)]]

/-- The first execution reads the row that the second has yet to be given. -/
def events : List (Bool × Event) :=
  [(true, .create), (true, .call .openPass), (false, .create), (true, .call .next),
    (false, .call .openPass), (true, .read 0 0), (false, .call .next), (false, .read 0 0),
    (true, .call .next), (false, .call .next)]

/-- What each execution is answered. -/
def replies : List Plan.Execution.Reply :=
  [.created (.ok ()), .answered (.ok .done) .opening,
    .answered (.ok (.row (some ⟨2, [bigint]⟩))) .running, .value (.ok (Counting.count 42)),
    .answered (.ok (.row none)) .closed]

theorem turns_at_one_row :
    session.Reached (fun _ => True) ∧ session.plans.get? "doubles" = some plan ∧
    ∀ own,
      ofSide own (interleave (fun _ => plan.execution Counting.new.context (.ofOne (.root 0)))
        session.engine events) = replies ∧
      (plan.execution Counting.new.context (.ofOne (.root 0))).alone session.engine
        (ofSide own events) = replies := by
  have reached : session.Reached fun _ => True := Counting.new_reached.after _
  have shared : session.plans.get? "doubles" = some plan := rfl
  have answered (own : Bool) :
      (plan.execution Counting.new.context (.ofOne (.root 0))).alone session.engine
        (ofSide own events) = replies := by
    cases own <;> rfl
  refine ⟨reached, shared, fun own => ⟨?_, answered own⟩⟩
  refine Eq.trans (executions_independent reached shared (fun _ => Counting.new.context)
    (fun _ => .ofOne (.root 0)) (fun _ => ⟨⟨"doubles", rfl⟩, .inr ⟨0, rfl⟩⟩) (fun _ => rfl) ?_
    events own) (answered own)
  exact fun _ impossible => by cases impossible

end Doubles

end QueryExec
