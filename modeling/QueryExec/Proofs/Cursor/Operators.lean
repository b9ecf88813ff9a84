import QueryExec.Proofs.Cursor.Leaf

/-!
Filters, projections and limits over a lawful input are lawful. Their loops keep the cursor alive
at every turn.
-/

namespace QueryExec

open QueryExec.Action

namespace Node

variable {own input result : Type} {faulty : LeafCall → Prop} {phaseOf : input → Phase}
  {sound : input → Prop} {suits : Phase → own → Prop} {node : Node own input} {engine : Engine}

/-- Reading and computing changes nothing in the cursor. -/
theorem journal_agrees {action : Action Journal result} (unrefused : Unrefused action)
    (alive : Alive faulty phaseOf sound suits (node, engine)) :
    EndsIn (node, engine) (CursorAction.inJournal action)
      (fun _ after => Alive faulty phaseOf sound suits after ∧ after.1 = node)
      fun interrupt after => (Alive faulty phaseOf sound suits after ∧ after.1 = node) ∧
        interrupt.isRefusal = false := by
  refine CursorAction.agree_in_journal (agree_weaken (unrefused engine.journal) ?_ ?_)
  · exact fun _ _ _ => ⟨alive, rfl⟩
  · exact fun _ _ calm => ⟨⟨alive, rfl⟩, calm⟩

theorem check_cancelled_agrees (context : Context)
    (alive : Alive faulty phaseOf sound suits (node, engine)) :
    EndsIn (node, engine) (checkCancelled context)
      (fun _ after => Alive faulty phaseOf sound suits after ∧ after.1 = node)
      fun interrupt after => (Alive faulty phaseOf sound suits after ∧ after.1 = node) ∧
        interrupt.isRefusal = false :=
  journal_agrees context.check_cancelled_unrefused alive

end Node

namespace Engine

/-- Making a row changes nothing but the supply of identities. -/
theorem new_row_agrees {engine : Engine} (type : RowType) (values : List Datum) :
    EndsIn engine (newRow type values)
      (fun row after => row = .stored engine.nextId type values ∧
        after = { engine with nextId := engine.nextId + 1 })
      fun _ _ => False :=
  ⟨rfl, rfl, rfl⟩

theorem new_projection_agrees {engine : Engine} (type : RowType) (base : Row) (context : Context)
    (bindings : Bindings) (columns : List Expr) :
    EndsIn engine (newProjection type base context bindings columns)
      (fun row after => row = .projected engine.nextId type base context bindings columns ∧
        after = { engine with nextId := engine.nextId + 1 })
      fun _ _ => False :=
  ⟨rfl, rfl, rfl⟩

end Engine

variable {input : Type} {faulty : LeafCall → Prop} {sound : input → Prop}
  {left right : Protocol input}

namespace Filter

variable {node : State input} {engine : Engine}

theorem accepts_agrees (context : Context) (predicate : Expr) (row : Row)
    (alive : Node.Alive faulty right.phase sound (fun _ _ => True) (node, engine)) :
    EndsIn (node, engine) (accepts context predicate row)
      (fun _ after => Node.Alive faulty right.phase sound (fun _ _ => True) after)
      fun interrupt after => Node.Alive faulty right.phase sound (fun _ _ => True) after ∧
        interrupt.isRefusal = false := by
  apply CursorAction.agree_state
  have evaluated := predicate.eval_unrefused (row.scope_unrefused context node.bindings)
  refine agree_then (fun _ after =>
    Node.Alive faulty right.phase sound (fun _ _ => True) after)
    (agree_weaken (Node.journal_agrees evaluated alive) ?_ ?_) ?_
  · exact fun _ _ reached => reached.1
  · exact fun _ _ stopped => ⟨stopped.1.1, stopped.2⟩
  · exact fun value after alive => agree_pure value.isTrue alive

/-- One turn of the search pulls a row and judges it; the rest is the search with one turn
less. -/
theorem search_agrees (lawful : left.Lawful faulty sound right) (context : Context)
    (inputType : RowType) (predicate : Expr) (bound : Nat)
    (alive : Node.Alive faulty right.phase sound (fun _ _ => True) (node, engine)) :
    AgreeFrom (node, engine) (search context inputType predicate left bound)
      (search context inputType predicate right bound)
      (fun _ after => Node.Alive faulty right.phase sound (fun _ _ => True) after)
      fun interrupt after => Node.Alive faulty right.phase sound (fun _ _ => True) after ∧
        interrupt.isRefusal = false := by
  induction bound generalizing node engine with
  | zero => exact agree_pure none alive
  | succ bound induction =>
      apply agree_bind (agree_weaken (Node.pull_agrees lawful alive) (fun _ _ ends => ends.1)
        fun _ _ ends => ⟨ends.1.1, ends.2⟩)
      rintro (_ | row) ⟨node, engine⟩ alive
      · exact agree_bind (Node.finish_keeps_alive lawful alive trivial)
          fun _ after alive => agree_pure none alive
      · dsimp only
        split
        · exact agree_pure (some row) alive
        · apply agree_bind (accepts_agrees context predicate row alive)
          intro accepted ⟨node, engine⟩ alive
          split
          · exact agree_pure (some row) alive
          · exact induction alive

theorem protocol_lawful (lawful : left.Lawful faulty sound right) (context : Context)
    (inputType : RowType) (predicate : Expr) :
    (protocol context inputType predicate left).Lawful faulty
      (Node.Coherent right.phase sound fun _ _ => True)
      (protocol context inputType predicate right) := by
  apply Node.protocol_lawful lawful context "filter.next"
  intro node engine alive _
  apply agree_bind (agree_weaken (Node.check_cancelled_agrees context alive)
    (fun _ _ reached => reached.1) fun _ _ stopped => ⟨stopped.1.1, stopped.2⟩)
  intro _ after alive
  obtain ⟨node, engine⟩ := after
  apply CursorAction.agree_state
  rw [lawful.remaining]
  exact search_agrees lawful context inputType predicate _ alive

end Filter

namespace Project

theorem protocol_lawful (lawful : left.Lawful faulty sound right) (context : Context)
    (inputType outputType : RowType) (columns : List Expr) :
    (protocol context inputType outputType columns left).Lawful faulty
      (Node.Coherent right.phase sound fun _ _ => True)
      (protocol context inputType outputType columns right) := by
  apply Node.protocol_lawful lawful context "project.next"
  intro node engine alive _
  apply agree_bind (agree_weaken (Node.check_cancelled_agrees context alive)
    (fun _ _ reached => reached.1) fun _ _ stopped => ⟨stopped.1.1, stopped.2⟩)
  intro _ after alive
  obtain ⟨node, engine⟩ := after
  apply agree_bind (agree_weaken (Node.pull_agrees lawful alive) (fun _ _ ends => ends.1)
    fun _ _ ends => ⟨ends.1.1, ends.2⟩)
  rintro (_ | row) ⟨node, engine⟩ alive
  · exact agree_bind (Node.finish_keeps_alive lawful alive trivial)
      fun _ after alive => agree_pure none alive
  · dsimp only
    split
    · exact agree_pure (some row) alive
    · apply CursorAction.agree_state
      refine agree_then (fun _ after =>
        Node.Alive faulty right.phase sound (fun _ _ => True) after) ?_
        fun projected after alive => agree_pure (some projected) alive
      refine CursorAction.agree_in_engine (agree_given
        (Engine.new_projection_agrees outputType row context node.bindings columns) ?_)
      intro _ _ ends
      obtain ⟨rfl, rfl⟩ := ends
      exact alive

end Project

namespace Limit

variable {node : State input} {engine : Engine}

/-- Counting rows is no concern of the laws. -/
theorem counted_alive (progress : Progress)
    (alive : Node.Alive faulty right.phase sound (fun _ _ => True) (node, engine)) :
    Node.Alive faulty right.phase sound (fun _ _ => True)
      ({ node with own := progress }, engine) :=
  ⟨⟨alive.1.input, alive.1.closed, alive.1.destroyed, trivial⟩, alive.2⟩

theorem skip_agrees (lawful : left.Lawful faulty sound right) (count : Nat)
    (alive : Node.Alive faulty right.phase sound (fun _ _ => True) (node, engine)) :
    AgreeFrom (node, engine) (skip left count) (skip right count)
      (fun _ after => Node.Alive faulty right.phase sound (fun _ _ => True) after)
      fun interrupt after => Node.Alive faulty right.phase sound (fun _ _ => True) after ∧
        interrupt.isRefusal = false := by
  induction count generalizing node engine with
  | zero =>
      apply agree_bind (agree_weaken (Node.pull_agrees lawful alive) (fun _ _ ends => ends.1)
        fun _ _ ends => ⟨ends.1.1, ends.2⟩)
      rintro (_ | row) ⟨node, engine⟩ alive
      · exact agree_bind (Node.finish_keeps_alive lawful alive trivial)
          fun _ after alive => agree_pure none alive
      · exact agree_bind (Node.agree_change_own _ (counted_alive _ alive))
          fun _ after alive => agree_pure (some row) alive
  | succ count induction =>
      apply agree_bind (agree_weaken (Node.pull_agrees lawful alive) (fun _ _ ends => ends.1)
        fun _ _ ends => ⟨ends.1.1, ends.2⟩)
      rintro (_ | row) ⟨node, engine⟩ alive
      · exact agree_bind (Node.finish_keeps_alive lawful alive trivial)
          fun _ after alive => agree_pure none alive
      · exact agree_bind (Node.agree_change_own _ (counted_alive _ alive))
          fun _ after alive => induction alive

theorem advance_agrees (lawful : left.Lawful faulty sound right) (context : Context)
    (offset : Nat) (limit? : Option Nat)
    (alive : Node.Alive faulty right.phase sound (fun _ _ => True) (node, engine)) :
    AgreeFrom (node, engine) (advance context offset limit? left)
      (advance context offset limit? right)
      (fun _ after => Node.Alive faulty right.phase sound (fun _ _ => True) after)
      fun interrupt after => Node.Alive faulty right.phase sound (fun _ _ => True) after ∧
        interrupt.isRefusal = false := by
  apply agree_bind (agree_weaken (Node.check_cancelled_agrees context alive)
    (fun _ _ reached => reached.1) fun _ _ stopped => ⟨stopped.1.1, stopped.2⟩)
  intro _ after alive
  obtain ⟨node, engine⟩ := after
  apply CursorAction.agree_state
  dsimp only
  split
  · exact agree_bind (Node.finish_keeps_alive lawful alive trivial)
      fun _ after alive => agree_pure none alive
  · exact skip_agrees lawful _ alive

theorem protocol_lawful (lawful : left.Lawful faulty sound right) (context : Context)
    (offset : Nat) (limit? : Option Nat) :
    (protocol context offset limit? left).Lawful faulty
      (Node.Coherent right.phase sound fun _ _ => True)
      (protocol context offset limit? right) := by
  have base := Node.protocol_lawful lawful context "limit.next"
    fun alive _ => advance_agrees lawful context offset limit? alive
  refine { base with openPass := ?_ }
  intro node engine coherent faults closed
  apply agree_bind (base.openPass coherent faults closed)
  intro _ after ends
  obtain ⟨node, engine⟩ := after
  obtain ⟨⟨coherent, faults⟩, active⟩ := ends
  have alive := counted_alive {} ⟨coherent, Phase.present_of_active active, faults⟩
  exact Node.agree_change_own _ ⟨⟨alive.1, alive.2.2⟩, active⟩

end Limit

end QueryExec
