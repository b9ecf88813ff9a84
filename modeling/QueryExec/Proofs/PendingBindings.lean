import QueryExec.Proofs.Idle
import QueryExec.Proofs.Lifecycle

/-!
The bindings that wait for a cursor tree. A source over a list of bindings is a queue: an opening
puts the whole list in it, a delivery takes its first binding, and a cancellation takes out what is
the cancelled binding or nested under it, wherever it stands. Nothing else that is called on the
tree moves the queue. So from one opening to the next the tree returns each entry of the list at
most once, in the order of the list, and none of a binding that was cancelled before.
-/

namespace QueryExec

open QueryExec.Action

/-- The other binding is `ancestor` itself, or its chain of parents leads there. -/
inductive Bindings.Under (ancestor : Bindings) : Bindings → Prop
  | itself {bindings : Bindings} (same : ancestor.same bindings = true) : ancestor.Under bindings
  | nested {bindings parent : Bindings} (below : bindings.parent? = some parent)
      (under : ancestor.Under parent) : ancestor.Under bindings

namespace Bindings

variable {ancestor : Bindings}

/-- What is bound in a binding changes neither its identity nor its parent. -/
theorem Under.congr {bindings other : Bindings} (under : ancestor.Under bindings)
    (id : other.id = bindings.id) (parent : other.parent? = bindings.parent?) :
    ancestor.Under other := by
  cases under with
  | itself same =>
      refine .itself ?_
      unfold Bindings.same at same ⊢
      rwa [id]
  | nested below under => exact .nested (parent.trans below) under

theorem under_of_covers : (bindings : Bindings) → ancestor.covers bindings = true →
    ancestor.Under bindings
  | .root _, covered => .itself covered
  | .nested _ parent, covered => by
      rcases Bool.or_eq_true _ _ |>.mp covered with same | deeper
      · exact .itself same
      · exact .nested rfl (under_of_covers parent deeper)
  | .parameter _ _ rest, covered => (under_of_covers rest covered).congr rfl rfl
  | .outer _ _ rest, covered => (under_of_covers rest covered).congr rfl rfl

theorem covers_of_same : (bindings : Bindings) → ancestor.same bindings = true →
    ancestor.covers bindings = true
  | .root _, same => same
  | .nested _ _, same => Bool.or_eq_true _ _ |>.mpr (.inl same)
  | .parameter _ _ rest, same => covers_of_same rest same
  | .outer _ _ rest, same => covers_of_same rest same

theorem covers_of_parent {parent : Bindings} (covered : ancestor.covers parent = true) :
    (bindings : Bindings) → bindings.parent? = some parent → ancestor.covers bindings = true
  | .root _, below => nomatch below
  | .nested _ _, below => by
      cases below
      exact Bool.or_eq_true _ _ |>.mpr (.inr covered)
  | .parameter _ _ rest, below => covers_of_parent covered rest below
  | .outer _ _ rest, below => covers_of_parent covered rest below

/-- The walk through the parents finds exactly what is under the binding. -/
theorem covers_iff_under (ancestor bindings : Bindings) :
    ancestor.covers bindings = true ↔ ancestor.Under bindings := by
  refine ⟨under_of_covers bindings, fun under => ?_⟩
  induction under with
  | itself same => exact covers_of_same _ same
  | nested below _ covered => exact covers_of_parent covered _ below

instance (ancestor bindings : Bindings) : Decidable (ancestor.Under bindings) :=
  decidable_of_iff _ (covers_iff_under ancestor bindings)

theorem decide_under (ancestor bindings : Bindings) :
    decide (ancestor.Under bindings) = ancestor.covers bindings := by
  rw [Bool.eq_iff_iff, decide_eq_true_iff, covers_iff_under]

theorem same_self (bindings : Bindings) : bindings.same bindings = true :=
  beq_self_eq_true bindings.id

end Bindings

/-- A call on a tree and what came of it. -/
structure Exchange where
  call : CursorCall
  outcome : Except Interrupt CursorAnswer

namespace Exchange

/-- The list of bindings was made pending. -/
def opens : Exchange → Bool
  | ⟨.openBindings, .ok _⟩ => true
  | _ => false

/-- The binding that was returned. -/
def returned? : Exchange → Option Bindings
  | ⟨.nextBindings, .ok (.bindings next?)⟩ => next?
  | _ => none

/-- Of a log that has the latest exchange first, what came after the last opening. -/
def sinceOpening (log : List Exchange) : List Exchange :=
  log.takeWhile fun exchange => !exchange.opens

/-- The bindings that were returned, in that order. -/
def returned (log : List Exchange) : List Bindings :=
  (log.filterMap returned?).reverse

variable {exchange : Exchange} {log : List Exchange}

theorem since_opening_opened (opened : exchange.opens = true) :
    sinceOpening (exchange :: log) = [] := by
  simp [sinceOpening, opened]

theorem since_opening_further (still : exchange.opens = false) :
    sinceOpening (exchange :: log) = exchange :: sinceOpening log := by
  simp [sinceOpening, still]

theorem returned_of_error {call : CursorCall} {interrupt : Interrupt} :
    returned? ⟨call, .error interrupt⟩ = none := by
  cases call <;> rfl

theorem returned_further (exchange : Exchange) (log : List Exchange) :
    returned (exchange :: log) = returned log ++ exchange.returned?.toList := by
  unfold returned
  cases given : exchange.returned? with
  | none => rw [List.filterMap_cons_none given, Option.toList_none, List.append_nil]
  | some bindings => rw [List.filterMap_cons_some given, List.reverse_cons, Option.toList_some]

theorem returned_append (later earlier : List Exchange) :
    returned (later ++ earlier) = returned earlier ++ returned later := by
  rw [returned, List.filterMap_append, List.reverse_append]
  rfl

end Exchange

namespace Plan

/-- Where the bindings of a tree come from. -/
def source : (plan : Plan) → plan.Cursor → BindingSource
  | values _ _ _ => Scan.source
  | table _ _ => Scan.source
  | filter input _ => fun node : Filter.State input.Cursor => input.source node.input
  | project input _ _ => fun node : Project.State input.Cursor => input.source node.input
  | aggregate input _ _ _ => fun node : Grouping.State input.Cursor => input.source node.input
  | limit input _ _ => fun node : Limit.State input.Cursor => input.source node.input

/-- The bindings that the tree has still to return, in order. -/
def awaiting (plan : Plan) (cursor : plan.Cursor) : List Bindings :=
  (plan.source cursor).pending

/-- A tree over a list of bindings, calls of any sort on it and how they ended, the latest first. No
leaf fails; between the calls the engine may become any other, and while a call runs the journal may
change before every call that one cursor forwards to another. -/
inductive Conversed (context : Context) (plan : Plan) (all : List Bindings) :
    plan.Cursor → List Exchange → Prop
  | start {store : Store} {cursor : plan.Cursor}
      (started : plan.start store (.ofList all) = .ok cursor) : Conversed context plan all cursor []
  | call {cursor cursor' : plan.Cursor} {log : List Exchange}
      (earlier : Conversed context plan all cursor log) (call : CursorCall)
      (meanwhile : Journal → Journal) {engine engine' : Engine}
      (faultless : engine.FaultsWithin fun _ => False) {outcome : Except Interrupt CursorAnswer}
      (ended : ((plan.layered context fun _ => Protocol.amid meanwhile).perform call).run
        (cursor, engine) = (outcome, cursor', engine')) :
      Conversed context plan all cursor' (⟨call, outcome⟩ :: log)

/-- What a call that the phase allows does to the bindings that wait. -/
def Queues (plan : Plan) (all : List Bindings) (before after : plan.Cursor) : Exchange → Prop
  | ⟨.openBindings, outcome⟩ => outcome = .ok .done ∧ plan.awaiting after = all
  | ⟨.nextBindings, outcome⟩ =>
      outcome = .ok (.bindings (plan.awaiting before).head?) ∧
        plan.awaiting after = (plan.awaiting before).tail
  | ⟨.closeBindings, outcome⟩ => outcome = .ok .done ∧ plan.awaiting after = []
  | ⟨.cancelBindings cancelled, outcome⟩ =>
      outcome = .ok .done ∧
        plan.awaiting after =
          (plan.awaiting before).filter (fun waiting => ¬cancelled.Under waiting) ∧
        plan.phases after = (plan.phases before).map fun phase =>
          if phase = .destroyed then .destroyed else .closed
  | ⟨.openPass, _⟩ | ⟨.next, _⟩ | ⟨.close, _⟩ | ⟨.destroy, _⟩ =>
      plan.awaiting after = plan.awaiting before

/-- Any call: one that the phase allows does its part, any other fails and changes nothing. -/
def Handles (plan : Plan) (all : List Bindings) (before after : plan.Cursor)
    (exchange : Exchange) : Prop :=
  ((∀ asked, exchange.call.checked? = some asked → asked.legalIn (plan.phase before) = true) →
    plan.Queues all before after exchange) ∧
  ∀ asked, exchange.call.checked? = some asked → asked.legalIn (plan.phase before) = false →
    (∃ interrupt, exchange.outcome = .error interrupt) ∧ after = before

/-- The source of the tree is over the list. -/
def OverList (plan : Plan) (all : List Bindings) (cursor : plan.Cursor) : Prop :=
  ∃ bindings pending, plan.Carrying bindings (.several all pending) cursor

/-- The end of a call that the phase allows: it did its part, and the source is still over the
list. -/
def Serves (plan : Plan) (all : List Bindings) (before : plan.Cursor) (call : CursorCall)
    (outcome : Except Interrupt CursorAnswer) (after : plan.Cursor × Engine) : Prop :=
  plan.OverList all after.1 ∧ plan.Queues all before after.1 ⟨call, outcome⟩

/-- The tree is sound and its source is over the list. -/
structure Supplied (plan : Plan) (all : List Bindings) (cursor : plan.Cursor) : Prop where
  coherent : plan.Coherent (fun _ => False) cursor
  overList : plan.OverList all cursor

variable {context : Context} {plan : Plan} {all : List Bindings} {cursor cursor' : plan.Cursor}
  {log : List Exchange} {engine engine' : Engine}

theorem source_eq {bindings : Bindings} {source : BindingSource}
    (carrying : plan.Carrying bindings source cursor) : plan.source cursor = source := by
  induction plan with
  | values slice type rows => exact carrying.2
  | table name type => exact carrying.2
  | filter input predicate induction => exact induction carrying.2.2
  | project input type columns induction => exact induction carrying.2.2
  | aggregate input type keys aggregates induction => exact induction carrying.2.2
  | limit input offset limit? induction => exact induction carrying.2.2

theorem awaiting_eq {bindings : Bindings} {source : BindingSource}
    (carrying : plan.Carrying bindings source cursor) : plan.awaiting cursor = source.pending :=
  congrArg BindingSource.pending (source_eq carrying)

/-- A cancellation closes every cursor of the tree that is not destroyed. -/
theorem cancel_phases (context : Context) (meanwhile : Journal → Journal) (cancelled : Bindings)
    (plan : Plan) (cursor : plan.Cursor) (engine : Engine) :
    plan.phases ((plan.layered context fun _ => Protocol.amid meanwhile).cancelBindings cancelled
        (cursor, engine)).1 =
      (plan.phases cursor).map fun phase =>
        if phase = .destroyed then .destroyed else .closed := by
  induction plan generalizing engine with
  | values slice type rows => rfl
  | table name type => rfl
  | filter input predicate induction => exact congrArg (List.cons _) (induction _ _)
  | project input type columns induction => exact congrArg (List.cons _) (induction _ _)
  | aggregate input type keys aggregates induction => exact congrArg (List.cons _) (induction _ _)
  | limit input offset limit? induction => exact congrArg (List.cons _) (induction _ _)

/-- A call that fails only by faults of the leaf succeeds where there are none. -/
theorem succeeds_without_faults {result : Type} {start : plan.Cursor × Engine}
    {action : CursorAction plan.Cursor result} {gives given : result → plan.Cursor × Engine → Prop}
    {stops : Interrupt → plan.Cursor × Engine → Prop} {first second : plan.Cursor × Engine → Prop}
    {calls : List LeafCall} (moves : EndsIn start action gives stops)
    (lawful : EndsIn start action given fun interrupt after =>
      first after ∧ second after ∧ interrupt.IsFaultOf (fun _ => False) calls)
    {halts : Interrupt → plan.Cursor × Engine → Prop} : EndsIn start action gives halts :=
  agree_weaken (agree_both moves lawful) (fun _ _ => And.left)
    fun _ _ ends => (no_fault ends.2.2.2).elim

/-- The calls of a pass leave the queue as it is, however they end. -/
theorem pass_leaves_queue {result : Type} {bindings : Bindings} {pending : List Bindings}
    {action : CursorAction plan.Cursor result} (answer : result → CursorAnswer)
    (stays : Stays (plan.Carrying bindings (.several all pending)) action)
    (carrying : plan.Carrying bindings (.several all pending) cursor) :
    EndsIn (cursor, engine)
      (do
        let value ← action
        pure (answer value))
      (fun _ after => plan.OverList all after.1 ∧ plan.awaiting after.1 = plan.awaiting cursor)
      fun _ after => plan.OverList all after.1 ∧ plan.awaiting after.1 = plan.awaiting cursor := by
  have kept : ∀ after : plan.Cursor × Engine,
      plan.Carrying bindings (.several all pending) after.1 →
        plan.OverList all after.1 ∧ plan.awaiting after.1 = plan.awaiting cursor :=
    fun after holds => ⟨⟨_, _, holds⟩, (awaiting_eq holds).trans (awaiting_eq carrying).symm⟩
  exact answer_agrees answer (stays _ carrying) (fun _ => kept) fun _ => kept

/-- What is called on bindings succeeds and moves the source; a pass leaves it where it is. -/
theorem Supplied.serves (supplied : plan.Supplied all cursor) (context : Context)
    (meanwhile : Journal → Journal) (faultless : engine.FaultsWithin fun _ => False)
    (call : CursorCall)
    (legal : ∀ asked, call.checked? = some asked → asked.legalIn (plan.phase cursor) = true) :
    EndsIn (cursor, engine)
      ((plan.layered context fun _ => Protocol.amid meanwhile).perform call)
      (fun answer after => plan.Serves all cursor call (.ok answer) after)
      fun interrupt after => plan.Serves all cursor call (.error interrupt) after := by
  obtain ⟨coherent, bindings, pending, carrying⟩ := supplied
  have lawful : (plan.layered context fun _ => Protocol.amid meanwhile).Lawful (fun _ => False)
      (plan.Coherent fun _ => False) (plan.layered context fun _ => Protocol.amid meanwhile) :=
    layered_lawful (keep_laws_amid meanwhile) context plan
  have carries := layered_carries context meanwhile plan
  rw [← layered_phase context fun _ => Protocol.amid meanwhile] at legal
  cases call with
  | openPass => exact pass_leaves_queue (fun _ => .done) (carries.openPass _ _) carrying
  | next => exact pass_leaves_queue .row (carries.next _ _) carrying
  | close => exact pass_leaves_queue (fun _ => .done) (carries.close _ _) carrying
  | destroy => exact pass_leaves_queue (fun _ => .done) (carries.destroy _ _) carrying
  | openBindings =>
      have present := bne_iff_ne.mp (legal .openBindings rfl)
      refine agree_bind (succeeds_without_faults (carries.openBindings engine carrying)
        (lawful.openBindings coherent faultless present)) fun _ after moved => agree_pure _ ?_
      exact ⟨⟨_, _, moved⟩, rfl, awaiting_eq moved⟩
  | nextBindings =>
      have closed := beq_iff_eq.mp (legal .nextBindings rfl)
      refine agree_bind (succeeds_without_faults (carries.nextBindings engine carrying)
        (lawful.nextBindings coherent faultless closed)) fun _ after ends => agree_pure _ ?_
      obtain ⟨rfl, moved⟩ := ends
      have waited := BindingSource.pending_next (.several all pending)
      rw [← awaiting_eq carrying, ← awaiting_eq moved] at waited
      refine ⟨?_, congrArg (Except.ok ∘ CursorAnswer.bindings) waited.1, waited.2⟩
      cases pending with
      | nil => exact ⟨_, _, moved⟩
      | cons first rest => exact ⟨_, _, moved⟩
  | closeBindings =>
      have present := bne_iff_ne.mp (legal .closeBindings rfl)
      refine agree_bind (succeeds_without_faults (carries.closeBindings engine carrying)
        (lawful.closeBindings coherent faultless present)) fun _ after moved => agree_pure _ ?_
      exact ⟨⟨_, _, moved⟩, rfl, awaiting_eq moved⟩
  | cancelBindings cancelled =>
      have moved := carries.cancelBindings cancelled engine carrying
      refine agree_then (fun _ after => after =
        (plan.layered context fun _ => Protocol.amid meanwhile).cancelBindings cancelled
          (cursor, engine)) ⟨rfl, rfl⟩ fun _ after same => agree_pure _ ?_
      subst same
      refine ⟨⟨_, _, moved⟩, rfl, ?_, cancel_phases context meanwhile cancelled plan cursor engine⟩
      rw [awaiting_eq moved, BindingSource.pending_cancel, awaiting_eq carrying]
      refine List.filter_congr fun other _ => ?_
      rw [decide_not, Bindings.decide_under]

/-- Every call on such a tree does its part, and leaves such a tree. -/
theorem Supplied.handles (supplied : plan.Supplied all cursor) (context : Context)
    (meanwhile : Journal → Journal) (faultless : engine.FaultsWithin fun _ => False)
    (call : CursorCall) {outcome : Except Interrupt CursorAnswer}
    (ended : ((plan.layered context fun _ => Protocol.amid meanwhile).perform call).run
      (cursor, engine) = (outcome, cursor', engine')) :
    plan.Supplied all cursor' ∧ plan.Handles all cursor cursor' ⟨call, outcome⟩ := by
  have kept := (call_keeps_coherent context (keep_laws_amid meanwhile) supplied.coherent faultless
    call).1
  rw [ended] at kept
  rcases CursorCall.legal_or_refused call (plan.phase cursor) with legal | ⟨asked, isAsked, illegal⟩
  · have served := ends_of_agree (plan.Serves all cursor call)
      (supplied.serves context meanwhile faultless call legal)
    rw [ended] at served
    refine ⟨⟨kept, served.1⟩, fun _ => served.2, fun asked isAsked illegal => ?_⟩
    exact absurd (legal asked isAsked) (by simp [illegal])
  · have refused := ends_of_agree
      (fun outcome (after : plan.Cursor × Engine) =>
        (∃ interrupt, outcome = .error interrupt) ∧ after.1 = cursor)
      (agree_weaken (illegal_call_refused context (keep_laws_amid meanwhile) supplied.coherent
        faultless isAsked illegal) (fun _ _ => False.elim)
        fun interrupt _ ends => ⟨⟨interrupt, rfl⟩, ends.1⟩)
    rw [ended] at refused
    obtain ⟨failed, rfl⟩ := refused
    refine ⟨supplied, fun legal => ?_, fun _ _ _ => ⟨failed, rfl⟩⟩
    exact absurd (legal asked isAsked) (by simp [illegal])

theorem Conversed.supplied (conversed : plan.Conversed context all cursor log) :
    plan.Supplied all cursor := by
  induction conversed with
  | start started => exact ⟨(start_coherent started).1, _, _, start_carries started⟩
  | call earlier call meanwhile faultless ended supplied =>
      exact (supplied.handles context meanwhile faultless call ended).1

/-- What an exchange returned and what waits after it stood in the queue before, in that order,
unless the list was made pending. -/
theorem Handles.turn {exchange : Exchange} (handles : plan.Handles all cursor cursor' exchange)
    (still : exchange.opens = false) :
    (exchange.returned?.toList ++ plan.awaiting cursor').Sublist (plan.awaiting cursor) := by
  obtain ⟨call, outcome⟩ := exchange
  rcases CursorCall.legal_or_refused call (plan.phase cursor) with legal | ⟨asked, isAsked, illegal⟩
  · have queues := handles.1 legal
    have kept (same : plan.awaiting cursor' = plan.awaiting cursor) :
        (plan.awaiting cursor').Sublist (plan.awaiting cursor) := same ▸ List.Sublist.refl _
    cases call with
    | openBindings =>
        obtain ⟨rfl, -⟩ := queues
        cases still
    | nextBindings =>
        obtain ⟨rfl, left⟩ := queues
        rw [left]
        cases plan.awaiting cursor <;> exact List.Sublist.refl _
    | closeBindings =>
        rw [queues.2]
        exact List.nil_sublist _
    | cancelBindings cancelled =>
        rw [queues.2.1]
        exact List.filter_sublist
    | openPass => exact kept queues
    | next => exact kept queues
    | close => exact kept queues
    | destroy => exact kept queues
  · obtain ⟨⟨interrupt, rfl⟩, rfl⟩ := handles.2 asked isAsked illegal
    rw [Exchange.returned_of_error]
    exact List.Sublist.refl _

/-- After an opening the whole list waits. -/
theorem Handles.opened {exchange : Exchange} (handles : plan.Handles all cursor cursor' exchange)
    (opened : exchange.opens = true) : plan.awaiting cursor' = all := by
  obtain ⟨call, outcome⟩ := exchange
  cases call with
  | openBindings =>
      rcases CursorCall.legal_or_refused .openBindings (plan.phase cursor) with
        legal | ⟨asked, isAsked, illegal⟩
      · exact (handles.1 legal).2
      · obtain ⟨⟨interrupt, rfl⟩, -⟩ := handles.2 asked isAsked illegal
        cases opened
  | _ => cases opened

/-- Since the last opening, what was returned and what still waits are entries of the list, each at
most once and in its order. -/
theorem Conversed.within_list (conversed : plan.Conversed context all cursor log) :
    (Exchange.returned (Exchange.sinceOpening log) ++ plan.awaiting cursor).Sublist all := by
  induction conversed with
  | start started =>
      rw [awaiting_eq (start_carries started)]
      exact List.nil_sublist all
  | @call cursor cursor' log earlier call meanwhile engine engine' faultless outcome ended within =>
      have handles := (earlier.supplied.handles context meanwhile faultless call ended).2
      cases opened : Exchange.opens ⟨call, outcome⟩ with
      | true =>
          rw [Exchange.since_opening_opened opened, handles.opened opened]
          exact List.Sublist.refl all
      | false =>
          rw [Exchange.since_opening_further opened, Exchange.returned_further, List.append_assoc]
          exact ((List.append_sublist_append_left _).mpr (handles.turn opened)).trans within

/-- What was returned after an exchange of the same opening, and what still waits, stood in the
queue after that exchange. -/
theorem Conversed.after_exchange (conversed : plan.Conversed context all cursor log)
    {later earlier : List Exchange} {exchange : Exchange}
    (since : Exchange.sinceOpening log = later ++ exchange :: earlier) :
    ∃ before after, plan.Handles all before after exchange ∧
      (Exchange.returned later ++ plan.awaiting cursor).Sublist (plan.awaiting after) := by
  induction conversed generalizing later with
  | start started => cases later <;> cases since
  | @call cursor cursor' log earlier call meanwhile engine engine' faultless outcome ended found =>
      have handles := (earlier.supplied.handles context meanwhile faultless call ended).2
      cases opened : Exchange.opens ⟨call, outcome⟩ with
      | true =>
          rw [Exchange.since_opening_opened opened] at since
          cases later <;> cases since
      | false =>
          rw [Exchange.since_opening_further opened] at since
          cases later with
          | nil =>
              cases since
              exact ⟨cursor, cursor', handles, List.Sublist.refl _⟩
          | cons latest later =>
              obtain ⟨rfl, rest⟩ := List.cons.inj since
              obtain ⟨before, after, part, within⟩ := found rest
              refine ⟨before, after, part, ?_⟩
              rw [Exchange.returned_further, List.append_assoc]
              exact ((List.append_sublist_append_left _).mpr (handles.turn opened)).trans within

/-- Since the last opening, nothing under a cancelled binding was returned after the
cancellation. -/
theorem Conversed.none_cancelled (conversed : plan.Conversed context all cursor log)
    {later earlier : List Exchange} {cancelled : Bindings}
    {outcome : Except Interrupt CursorAnswer}
    (since : Exchange.sinceOpening log = later ++ ⟨.cancelBindings cancelled, outcome⟩ :: earlier)
    {other : Bindings} (among : other ∈ Exchange.returned later) : ¬cancelled.Under other := by
  obtain ⟨before, after, handles, within⟩ := conversed.after_exchange since
  obtain ⟨-, filtered, -⟩ := handles.1 nofun
  have stood := within.subset (List.mem_append_left _ among)
  rw [filtered, List.mem_filter] at stood
  exact of_decide_eq_true stood.2

/-- Since the last opening, a binding that the list holds once was not returned again. -/
theorem Conversed.none_repeated (conversed : plan.Conversed context all cursor log)
    {later earlier : List Exchange} {exchange : Exchange} {delivered : Bindings}
    (since : Exchange.sinceOpening log = later ++ exchange :: earlier)
    (returned : exchange.returned? = some delivered) (once : all.countP delivered.same ≤ 1)
    {other : Bindings} (among : other ∈ Exchange.returned later) :
    delivered.same other = false := by
  have within := (List.sublist_append_left _ _).trans conversed.within_list
  rw [since, Exchange.returned_append, Exchange.returned_further, returned,
    Option.toList_some] at within
  have counted : (Exchange.returned earlier ++ [delivered] ++ Exchange.returned later).countP
      delivered.same ≤ 1 := Nat.le_trans within.countP_le once
  rw [List.countP_append, List.countP_append, List.countP_singleton,
    if_pos delivered.same_self] at counted
  have none : (Exchange.returned later).countP delivered.same = 0 := by omega
  exact Bool.eq_false_iff.mpr (List.countP_eq_zero.mp none other among)

/-- Whatever is called on a tree over a list of bindings: every call does its part to the queue of
waiting bindings. What the tree has returned since the list was last made pending, and what still
waits, are entries of the list in its order and each at most once; what is under a cancelled
binding is not returned after the cancellation, and a binding that the list holds once is not
returned after it has been. -/
theorem Conversed.queue_of_bindings (conversed : plan.Conversed context all cursor log) :
    (∀ (meanwhile : Journal → Journal) (engine : Engine), engine.FaultsWithin (fun _ => False) →
      ∀ (call : CursorCall) outcome cursor' engine',
        ((plan.layered context fun _ => Protocol.amid meanwhile).perform call).run
            (cursor, engine) = (outcome, cursor', engine') →
          plan.Handles all cursor cursor' ⟨call, outcome⟩) ∧
    (Exchange.returned (Exchange.sinceOpening log) ++ plan.awaiting cursor).Sublist all ∧
    ∀ later exchange earlier, Exchange.sinceOpening log = later ++ exchange :: earlier →
      ∀ other ∈ Exchange.returned later,
        (∀ cancelled, exchange.call = .cancelBindings cancelled → ¬cancelled.Under other) ∧
        ∀ delivered, exchange.returned? = some delivered → all.countP delivered.same ≤ 1 →
          delivered.same other = false := by
  refine ⟨?_, conversed.within_list, ?_⟩
  · intro meanwhile engine faultless call outcome cursor' engine' ended
    exact (conversed.supplied.handles context meanwhile faultless call ended).2
  · intro later exchange earlier since other among
    refine ⟨fun cancelled isCancel => ?_, fun delivered returned once =>
      conversed.none_repeated since returned once among⟩
    obtain ⟨call, outcome⟩ := exchange
    cases isCancel
    exact conversed.none_cancelled since among

end Plan

/-! A list with one binding twice returns it twice. -/

namespace RepeatedBinding

def plan : Plan :=
  .limit (.values 0 ⟨0, []⟩ []) 0 none

def context : Context :=
  ⟨1, .empty, {}⟩

/-- A new tree over a list. -/
def new (all : List Bindings) : plan.Cursor :=
  ({ own := {}, input := { source := .ofList all : Scan } } : Limit.State Scan)

/-- The conversation with one more call. -/
def further (call : CursorCall) (sofar : plan.Cursor × List Exchange) :
    plan.Cursor × List Exchange :=
  let (outcome, cursor, _) := ((plan.layered context fun _ => Protocol.amid id).perform call).run
    (sofar.1, {})
  (cursor, ⟨call, outcome⟩ :: sofar.2)

/-- The tree and the log after calls on a new tree, the latest call first. -/
def conversation (all : List Bindings) : List CursorCall → plan.Cursor × List Exchange
  | [] => (new all, [])
  | call :: earlier => further call (conversation all earlier)

theorem conversation_conversed (all : List Bindings) (calls : List CursorCall) :
    plan.Conversed context all (conversation all calls).1 (conversation all calls).2 := by
  induction calls with
  | nil =>
      have started : plan.start {} (.ofList all) = .ok (new all) := rfl
      exact .start started
  | cons call earlier conversed =>
      have faultless : Engine.FaultsWithin (fun _ => False) {} := nofun
      exact conversed.call call id faultless rfl

def binding : Bindings :=
  .root 1

theorem repeated_binding_returned_again :
    ∃ cursor log, plan.Conversed context [binding, binding] cursor log ∧
      ¬∀ later exchange earlier, Exchange.sinceOpening log = later ++ exchange :: earlier →
        ∀ other ∈ Exchange.returned later,
          ∀ delivered, exchange.returned? = some delivered → delivered.same other = false := by
  refine ⟨_, _, conversation_conversed [binding, binding]
    [.nextBindings, .nextBindings, .openBindings], fun never => ?_⟩
  have again := never [_] _ [] rfl binding (List.mem_singleton.mpr rfl) binding rfl
  cases again

end RepeatedBinding

/-! An outer binding is cancelled while one binding that is nested under it waits two levels below,
and one that is not waits behind. -/

namespace CancelledOuter

open RepeatedBinding

def outer : Bindings :=
  .root 1

def first : Bindings :=
  .nested 2 outer

def second : Bindings :=
  .nested 4 (.nested 3 outer)

def unrelated : Bindings :=
  .root 5

def calls : List CursorCall :=
  [.nextBindings, .cancelBindings outer, .nextBindings, .openBindings]

/-- The tree and the log after the calls. -/
def reached : plan.Cursor × List Exchange :=
  conversation [first, second, unrelated] calls

theorem descendants_skipped :
    plan.Conversed context [first, second, unrelated] reached.1 reached.2 ∧
      Exchange.returned (Exchange.sinceOpening reached.2) = [first, unrelated] ∧
      ¬outer.Under unrelated ∧ first.same unrelated = false := by
  have conversed := conversation_conversed [first, second, unrelated] calls
  obtain ⟨-, -, since⟩ := conversed.queue_of_bindings
  have cancelled := (since [_] _ _ rfl unrelated (List.mem_singleton.mpr rfl)).1 outer rfl
  have delivered := (since [_, _] _ [] rfl unrelated (List.mem_singleton.mpr rfl)).2 first rfl
  exact ⟨conversed, rfl, cancelled, delivered (by decide)⟩

end CancelledOuter

end QueryExec
