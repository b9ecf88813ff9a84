import QueryExec.Proofs.Cursor.Grouping

/-!
The calls on a cursor as data, so that a history can be a sequence of them. A legal call obeys the
laws; an illegal one is refused before the cursor does anything else, so the cursor stays as it
was.
-/

namespace QueryExec

open QueryExec.Action

/-- What the holder of a cursor can ask of it. -/
inductive CursorCall
  | openPass
  | next
  | close
  | destroy
  | openBindings
  | nextBindings
  | closeBindings
  | cancelBindings (bindings : Bindings)

/-- What a cursor checks its phase for; a cancellation is not checked. -/
def CursorCall.checked? : CursorCall → Option Call
  | openPass => some .openPass
  | next => some .next
  | close => some .close
  | destroy => some .destroy
  | openBindings => some .openBindings
  | nextBindings => some .nextBindings
  | closeBindings => some .closeBindings
  | cancelBindings _ => none

/-- Either the phase allows the call, or the call is checked and illegal. -/
theorem CursorCall.legal_or_refused (call : CursorCall) (phase : Phase) :
    (∀ asked, call.checked? = some asked → asked.legalIn phase = true) ∨
      ∃ asked, call.checked? = some asked ∧ asked.legalIn phase = false := by
  cases isAsked : call.checked? with
  | none => exact .inl fun _ impossible => by cases impossible
  | some asked =>
      cases legal : asked.legalIn phase with
      | false => exact .inr ⟨asked, rfl, legal⟩
      | true =>
          refine .inl fun other same => ?_
          cases same
          exact legal

inductive CursorAnswer
  | done
  | row (row? : Option Row)
  | bindings (bindings? : Option Bindings)

def Protocol.perform {cursor : Type} (protocol : Protocol cursor) :
    CursorCall → CursorAction cursor CursorAnswer
  | .openPass => do
      protocol.openPass
      pure .done
  | .next => return .row (← protocol.next)
  | .close => do
      protocol.close
      pure .done
  | .destroy => do
      protocol.destroy
      pure .done
  | .openBindings => do
      protocol.openBindings
      pure .done
  | .nextBindings => return .bindings (← protocol.nextBindings)
  | .closeBindings => do
      protocol.closeBindings
      pure .done
  | .cancelBindings bindings => do
      modify (protocol.cancelBindings bindings)
      pure .done

section Laws

variable {cursor : Type} {faulty : LeafCall → Prop} {sound : cursor → Prop}
  {left right : Protocol cursor} {state : cursor} {engine : Engine}

/-- An answer given after a call. -/
theorem answer_agrees {result : Type} {first second : CursorAction cursor result}
    {gives : result → cursor × Engine → Prop} {stops : Interrupt → cursor × Engine → Prop}
    {holds : cursor × Engine → Prop} {fails : Interrupt → cursor × Engine → Prop}
    (answer : result → CursorAnswer)
    (called : AgreeFrom (state, engine) first second gives stops)
    (given : ∀ value after, gives value after → holds after)
    (stopped : ∀ interrupt after, stops interrupt after → fails interrupt after) :
    AgreeFrom (state, engine)
      (do
        let value ← first
        pure (answer value))
      (do
        let value ← second
        pure (answer value))
      (fun _ after => holds after) fails :=
  agree_bind (agree_weaken called given stopped) fun value _ kept => agree_pure (answer value) kept

/-- Every legal call keeps the state sound and is not refused. -/
theorem Protocol.Lawful.perform_agrees (lawful : left.Lawful faulty sound right)
    (call : CursorCall) (kept : sound state) (faults : engine.FaultsWithin faulty)
    (legal : ∀ asked, call.checked? = some asked → asked.legalIn (right.phase state) = true) :
    AgreeFrom (state, engine) (left.perform call) (right.perform call)
      (fun _ after => Kept faulty sound after)
      fun interrupt after => Kept faulty sound after ∧ interrupt.isRefusal = false := by
  cases call with
  | openPass =>
      have closed : right.phase state = .closed := by simpa [Call.legalIn] using legal _ rfl
      exact answer_agrees (fun _ => .done) (lawful.openPass kept faults closed)
        (fun _ _ ends => ends.1) fun _ _ ends => ⟨ends.1, ends.2.2⟩
  | next =>
      exact answer_agrees .row (lawful.next kept faults (legal _ rfl))
        (fun _ _ ends => ends.1) fun _ _ ends => ⟨ends.1, ends.2.2⟩
  | close =>
      exact answer_agrees (fun _ => .done) (lawful.close kept faults (legal _ rfl))
        (fun _ _ ends => ends.1) fun _ _ ends => ⟨ends.1, Interrupt.refusal_of_fault ends.2.2⟩
  | destroy =>
      have present : right.phase state ≠ .destroyed := by simpa [Call.legalIn] using legal _ rfl
      exact answer_agrees (fun _ => .done) (lawful.destroy kept faults present)
        (fun _ _ ends => ends.1) fun _ _ ends => ⟨ends.1, Interrupt.refusal_of_fault ends.2.2⟩
  | openBindings =>
      have present : right.phase state ≠ .destroyed := by simpa [Call.legalIn] using legal _ rfl
      exact answer_agrees (fun _ => .done) (lawful.openBindings kept faults present)
        (fun _ _ ends => ends.1) fun _ _ ends => ⟨ends.1, Interrupt.refusal_of_fault ends.2.2⟩
  | nextBindings =>
      have closed : right.phase state = .closed := by simpa [Call.legalIn] using legal _ rfl
      exact answer_agrees .bindings (lawful.nextBindings kept faults closed)
        (fun _ _ ends => ends.1) fun _ _ ends => ⟨ends.1, Interrupt.refusal_of_fault ends.2.2⟩
  | closeBindings =>
      have present : right.phase state ≠ .destroyed := by simpa [Call.legalIn] using legal _ rfl
      exact answer_agrees (fun _ => .done) (lawful.closeBindings kept faults present)
        (fun _ _ ends => ends.1) fun _ _ ends => ⟨ends.1, Interrupt.refusal_of_fault ends.2.2⟩
  | cancelBindings bindings =>
      obtain ⟨same, kept, _⟩ := lawful.cancelBindings bindings kept faults
      refine agree_then (fun _ after => Kept faulty sound after) ⟨?_, kept⟩
        fun _ _ kept => agree_pure _ kept
      exact congrArg (fun after => (Except.ok (), after)) same

end Laws

/-- The cursor is as before, and if the call was refused the cursor itself refused it. -/
def Refused {cursor : Type} (faulty : LeafCall → Prop) (phaseOf : cursor → Phase)
    (state : cursor) (asked : Call) (interrupt : Interrupt) (after : cursor × Engine) : Prop :=
  after.1 = state ∧ after.2.FaultsWithin faulty ∧
    (interrupt.isRefusal = true → interrupt = .failed (.lifecycle asked (phaseOf state)))

/-- Both calls fail alike where the phase does not allow them. -/
def RefusedAlike {cursor result : Type} (faulty : LeafCall → Prop) (phaseOf : cursor → Phase)
    (sound : cursor → Prop) (asked : Call) (first second : CursorAction cursor result) : Prop :=
  ∀ state engine, sound state → engine.FaultsWithin faulty →
    asked.legalIn (phaseOf state) = false →
    AgreeFrom (state, engine) first second (fun _ _ => False) (Refused faulty phaseOf state asked)

/-- Both protocols refuse what the phase does not allow, and neither changes the cursor then. -/
structure Protocol.Refuses {cursor : Type} (faulty : LeafCall → Prop) (sound : cursor → Prop)
    (left right : Protocol cursor) : Prop where
  openPass : RefusedAlike faulty right.phase sound .openPass left.openPass right.openPass
  next : RefusedAlike faulty right.phase sound .next left.next right.next
  close : RefusedAlike faulty right.phase sound .close left.close right.close
  destroy : RefusedAlike faulty right.phase sound .destroy left.destroy right.destroy
  openBindings :
    RefusedAlike faulty right.phase sound .openBindings left.openBindings right.openBindings
  nextBindings :
    RefusedAlike faulty right.phase sound .nextBindings left.nextBindings right.nextBindings
  closeBindings :
    RefusedAlike faulty right.phase sound .closeBindings left.closeBindings right.closeBindings

section Refusals

variable {cursor : Type} {faulty : LeafCall → Prop} {phaseOf : cursor → Phase}
  {sound : cursor → Prop} {left right : Protocol cursor}

/-- What follows a refused call is never reached. -/
theorem refused_then {result other : Type} {asked : Call}
    {first second : CursorAction cursor other} {leftNext rightNext : other →
      CursorAction cursor result} (refused : RefusedAlike faulty phaseOf sound asked first second) :
    RefusedAlike faulty phaseOf sound asked (first >>= leftNext) (second >>= rightNext) :=
  fun state engine kept faults illegal =>
    agree_bind (refused state engine kept faults illegal) fun _ _ impossible => impossible.elim

theorem Protocol.Refuses.perform_refused (refuses : left.Refuses faulty sound right)
    (call : CursorCall) (asked : Call) (isAsked : call.checked? = some asked) :
    RefusedAlike faulty right.phase sound asked (left.perform call) (right.perform call) := by
  cases call <;> cases isAsked
  · exact refused_then refuses.openPass
  · exact refused_then refuses.next
  · exact refused_then refuses.close
  · exact refused_then refuses.destroy
  · exact refused_then refuses.openBindings
  · exact refused_then refuses.nextBindings
  · exact refused_then refuses.closeBindings

end Refusals

namespace Node

variable {own input : Type} {faulty : LeafCall → Prop} {left right : Protocol input}
  {sound : Node own input → Prop}

theorem check_refused (asked : Call) :
    RefusedAlike faulty Node.phase sound asked (check asked) (check asked) := by
  intro node engine _ faults illegal
  refine agree_check ?_ fun _ => ⟨rfl, faults, fun _ => rfl⟩
  intro legal
  rw [illegal] at legal
  cases legal

theorem protocol_refuses (context : Context) (tap : String)
    (first second : CursorAction (Node own input) (Option Row)) :
    (protocol context tap left first).Refuses faulty sound (protocol context tap right second) where
  openPass := refused_then (check_refused .openPass)
  next := refused_then (check_refused .next)
  close := refused_then (check_refused .close)
  destroy := refused_then (check_refused .destroy)
  openBindings := refused_then (check_refused .openBindings)
  nextBindings := refused_then (check_refused .nextBindings)
  closeBindings := refused_then (check_refused .closeBindings)

end Node

namespace Limit

theorem protocol_refuses {input : Type} {faulty : LeafCall → Prop} {left right : Protocol input}
    {sound : State input → Prop} (context : Context) (offset : Nat) (limit? : Option Nat) :
    (protocol context offset limit? left).Refuses faulty sound
      (protocol context offset limit? right) :=
  let base := Node.protocol_refuses context "limit.next" (advance context offset limit? left)
    (advance context offset limit? right)
  { base with openPass := refused_then base.openPass }

end Limit

namespace Grouping

variable {input : Type} {left right : Protocol input} {faulty : LeafCall → Prop}
  {soundInput : input → Prop}

/-- A destroyed aggregation holds nothing, so letting go of the held row changes nothing. -/
theorem destroy_refused :
    RefusedAlike faulty Node.phase (Node.Coherent right.phase soundInput (Suits faulty)) .destroy
      (destroy left) (destroy right) := by
  intro node engine coherent faults illegal
  have destroyed : node.phase = .destroyed := by simpa [Call.legalIn] using illegal
  have empty := coherent.own (.inl destroyed)
  have unchanged : { node with own := { node.own with lookahead? := none } } = node := by
    rcases node with ⟨phase, bindings, own, input⟩
    rcases own with ⟨key, accumulators, lookahead?, sawInput⟩
    cases empty
    rfl
  refine agree_reaching (node, engine)
    (Node.agree_change_own _ (congrArg (·, engine) unchanged)) fun _ => ?_
  exact refused_then (Node.check_refused .destroy) node engine coherent faults illegal

theorem protocol_refuses (context : Context) (plan : GroupingPlan) :
    (protocol context plan left).Refuses faulty
      (Node.Coherent right.phase soundInput (Suits faulty)) (protocol context plan right) where
  openPass := by
    intro node engine coherent faults illegal
    apply agree_then (fun _ after => after.1 = node ∧ after.2.FaultsWithin faulty)
      (CursorAction.agree_tap context _ ⟨rfl, faults⟩)
    intro _ after ends
    obtain ⟨node, engine⟩ := after
    obtain ⟨rfl, faults⟩ := ends
    exact refused_then (refused_then (Node.check_refused .openPass)) node engine coherent faults
      illegal
  next := refused_then (Node.check_refused .next)
  close := refused_then (refused_then (Node.check_refused .close))
  destroy := destroy_refused
  openBindings := refused_then (Node.check_refused .openBindings)
  nextBindings := refused_then (Node.check_refused .nextBindings)
  closeBindings := refused_then (Node.check_refused .closeBindings)

end Grouping

namespace Scan

variable {faulty : LeafCall → Prop} {sound : Scan → Prop}

theorem check_refused (asked : Call) :
    RefusedAlike faulty Scan.phase sound asked (check asked) (check asked) := by
  intro scan engine _ faults illegal
  refine CursorAction.agree_state (Call.agree_check ?_ fun _ => ⟨rfl, faults, fun _ => rfl⟩)
  intro legal
  rw [illegal] at legal
  cases legal

theorem protocol_refuses (context : Context) (load : Action Engine (List Row)) :
    (protocol context load).Refuses faulty sound (protocol context load) where
  openPass := refused_then (check_refused .openPass)
  next := refused_then (check_refused .next)
  close := refused_then (check_refused .close)
  destroy := refused_then (check_refused .destroy)
  openBindings := refused_then (check_refused .openBindings)
  nextBindings := refused_then (check_refused .nextBindings)
  closeBindings := refused_then (check_refused .closeBindings)

theorem instead_of_refused {result : Type} {asked : Call} (call : LeafCall)
    {action : CursorAction Scan result}
    (refused : RefusedAlike faulty Scan.phase sound asked action action) :
    RefusedAlike faulty Scan.phase sound asked (insteadOf call action) (insteadOf call action) := by
  intro scan engine kept faults illegal
  have noted := Engine.faults_within_noted faults call
  apply instead_of_agrees faults (refused scan _ kept noted illegal)
  exact fun _ => ⟨rfl, noted, fun impossible => by cases impossible⟩

theorem after_refused {asked : Call} (call : LeafCall) {action : CursorAction Scan Unit}
    (refused : RefusedAlike faulty Scan.phase sound asked action action) :
    RefusedAlike faulty Scan.phase sound asked (after call action) (after call action) := by
  intro scan engine kept faults illegal
  refine agree_then (fun _ after => after = (scan, engine.noted call)) ⟨rfl, rfl⟩ ?_
  intro _ _ same
  subst same
  exact refused_then refused scan (engine.noted call) kept
    (Engine.faults_within_noted faults call) illegal

/-- Behind the probe a fault may come in place of the refusal. -/
theorem probed_refuses (context : Context) (load : Action Engine (List Row)) :
    (probed (protocol context load)).Refuses faulty sound (probed (protocol context load)) :=
  let inner := protocol_refuses context load
  { openPass := instead_of_refused .openPass inner.openPass
    next := instead_of_refused .next inner.next
    close := after_refused .close inner.close
    destroy := after_refused .destroy inner.destroy
    openBindings := instead_of_refused .openBindings inner.openBindings
    nextBindings := instead_of_refused .nextBindings inner.nextBindings
    closeBindings := instead_of_refused .closeBindings inner.closeBindings }

end Scan

end QueryExec
