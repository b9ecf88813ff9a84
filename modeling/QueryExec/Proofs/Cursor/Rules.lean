import QueryExec.Cursor.Tree
import QueryExec.Proofs.Action.Invariant
import QueryExec.Proofs.Row.Refusal

/-!
The rules of agreement for the steps that cursors are made of: reading and changing the state,
steps in the engine and in the journal, calls on the input and the check of a call.
-/

namespace QueryExec

open QueryExec.Action

namespace CursorAction

variable {cursor result other : Type} {start : cursor × Engine}
  {gives : result → cursor × Engine → Prop} {stops : Interrupt → cursor × Engine → Prop}

theorem agree_state {left right : cursor → CursorAction cursor result}
    (agree : AgreeFrom start (left start.1) (right start.1) gives stops) :
    AgreeFrom start (state >>= left) (state >>= right) gives stops :=
  agree

theorem agree_change (step : cursor → cursor) {gives : Unit → cursor × Engine → Prop}
    (holds : gives () (step start.1, start.2)) :
    EndsIn start (change step) gives stops :=
  ⟨rfl, holds⟩

/-- A step in the engine leaves the cursor as it is. -/
theorem agree_in_engine {action : Action Engine result}
    (agree : EndsIn start.2 action (fun value engine => gives value (start.1, engine))
      fun interrupt engine => stops interrupt (start.1, engine)) :
    EndsIn start (inEngine action) gives stops := by
  unfold inEngine onSecond
  exact agree_on_part agree

/-- A step in the journal leaves the cursor and all else in the engine as it is. -/
theorem agree_in_journal {action : Action Journal result}
    (agree : EndsIn start.2.journal action
      (fun value journal => gives value (start.1, { start.2 with journal }))
      fun interrupt journal => stops interrupt (start.1, { start.2 with journal })) :
    EndsIn start (inJournal action) gives stops :=
  agree_in_engine (by unfold Engine.inJournal; exact agree_on_part agree)

theorem agree_tap (context : Context) (name : String) {gives : Unit → cursor × Engine → Prop}
    (holds : gives () (start.1, { start.2 with journal := start.2.journal.tap context name })) :
    EndsIn start (inJournal (context.tap name)) gives stops :=
  ⟨rfl, holds⟩

end CursorAction

/-- A legal call passes its check. -/
theorem Call.agree_check {state : Type} {start : state} {call : Call} {phase : Phase}
    {gives : Unit → state → Prop} {stops : Interrupt → state → Prop}
    (allowed : call.legalIn phase = true → gives () start)
    (denied : call.legalIn phase = false → stops (.failed (.lifecycle call phase)) start) :
    EndsIn start (call.check phase : Action state Unit) gives stops := by
  unfold Call.check
  split
  next legal => exact agree_pure () (allowed legal)
  next illegal => exact agree_fail _ (denied (by simpa using illegal))

theorem Call.check_passes {state : Type} {start : state} {call : Call} {phase : Phase}
    (legal : call.legalIn phase = true) :
    EndsIn start (call.check phase : Action state Unit) (fun _ after => after = start)
      fun _ _ => False := by
  refine Call.agree_check (fun _ => rfl) fun illegal => ?_
  rw [legal] at illegal
  cases illegal

/-- Looking at the cursor keeps every invariant. -/
theorem keeps_state {cursor : Type} {holds : cursor × Engine → Prop} :
    Keeps holds CursorAction.state :=
  fun _ kept => ⟨rfl, kept⟩

theorem keeps_phase_check {state : Type} {holds : state → Prop} (call : Call) (phase : Phase) :
    Keeps holds (call.check phase) :=
  fun _ kept => Call.agree_check (fun _ => kept) fun _ => kept

namespace Protocol

variable {cursor : Type} {start : cursor × Engine} {left right : Protocol cursor}
  {gives : Unit → cursor × Engine → Prop} {stops : Interrupt → cursor × Engine → Prop}

theorem agree_close_active (same : left.phase = right.phase)
    (closes : (right.phase start.1).isActive = true →
      AgreeFrom start left.close right.close gives stops)
    (idle : (right.phase start.1).isActive = false → gives () start) :
    AgreeFrom start left.closeActive right.closeActive gives stops := by
  apply CursorAction.agree_state
  rw [same]
  split
  next active => exact closes active
  next inactive => exact agree_pure () (idle (by simpa using inactive))

theorem agree_destroy_once (same : left.phase = right.phase)
    (destroys : right.phase start.1 ≠ .destroyed →
      AgreeFrom start left.destroy right.destroy gives stops)
    (gone : right.phase start.1 = .destroyed → gives () start) :
    AgreeFrom start left.destroyOnce right.destroyOnce gives stops := by
  apply CursorAction.agree_state
  rw [same]
  split
  next destroyed => exact agree_pure () (gone destroyed)
  next present => exact destroys present

end Protocol

namespace Node

variable {own input result : Type} {node : Node own input} {engine : Engine}
  {gives : result → Node own input × Engine → Prop}
  {stops : Interrupt → Node own input × Engine → Prop}

theorem agree_on_input {left right : CursorAction input result}
    (agree : AgreeFrom (node.input, engine) left right
      (fun value after => gives value ({ node with input := after.1 }, after.2))
      fun interrupt after => stops interrupt ({ node with input := after.1 }, after.2)) :
    AgreeFrom (node, engine) (onInput left) (onInput right) gives stops :=
  agree_on_part agree

theorem agree_set_phase {gives : Unit → Node own input × Engine → Prop} (phase : Phase)
    (holds : gives () ({ node with phase }, engine)) :
    EndsIn (node, engine) (setPhase phase) gives stops :=
  CursorAction.agree_change _ holds

theorem agree_change_own {gives : Unit → Node own input × Engine → Prop} (step : own → own)
    (holds : gives () ({ node with own := step node.own }, engine)) :
    EndsIn (node, engine) (changeOwn step) gives stops :=
  CursorAction.agree_change _ holds

theorem agree_check {call : Call} {gives : Unit → Node own input × Engine → Prop}
    (allowed : call.legalIn node.phase = true → gives () (node, engine))
    (denied : call.legalIn node.phase = false →
      stops (.failed (.lifecycle call node.phase)) (node, engine)) :
    EndsIn (node, engine) (check call) gives stops :=
  CursorAction.agree_state (Call.agree_check allowed denied)

theorem check_passes {call : Call} (legal : call.legalIn node.phase = true) :
    EndsIn (node, engine) (check call) (fun _ after => after = (node, engine))
      fun _ _ => False :=
  CursorAction.agree_state (Call.check_passes legal)

/-- What is done in a legal call is what comes after its check. -/
theorem agree_past_check {call : Call} {left right : CursorAction (Node own input) result}
    (legal : call.legalIn node.phase = true)
    (continues : AgreeFrom (node, engine) left right gives stops) :
    AgreeFrom (node, engine) (do check call; left) (do check call; right) gives stops :=
  agree_reaching (node, engine) (agree_given (check_passes legal) fun _ _ => id) fun _ => continues

end Node

end QueryExec
