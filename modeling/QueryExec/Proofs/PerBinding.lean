import QueryExec.Proofs.Cursor.Dwindling
import QueryExec.Proofs.SinglePass

/-!
One cursor for several bindings. A pass resets what the pass before left behind, so the passes of
one cursor, one for each binding, are the executions of new cursors under these bindings one after
the other: the same rows or the same first failure, and the same warnings, since nothing but the log
of the probe tells the two engines apart.
-/

namespace QueryExec

open QueryExec.Action

namespace Engine

/-- Two engines in which no leaf is to fail and that differ at most in what their probes logged. -/
structure Twins (left right : Engine) : Prop where
  quiet : left.FaultsWithin fun _ => False
  still : right.FaultsWithin fun _ => False
  same : { left with probe? := none } = { right with probe? := none }

namespace Twins

variable {left right : Engine}

theorem journal (twins : left.Twins right) : left.journal = right.journal  := by
  simpa using congrArg Engine.journal twins.same

theorem store (twins : left.Twins right) : left.store = right.store  := by
  simpa using congrArg Engine.store twins.same

theorem nextId (twins : left.Twins right) : left.nextId = right.nextId  := by
  simpa using congrArg Engine.nextId twins.same

theorem noted_left (call : LeafCall) (twins : left.Twins right) : (left.noted call).Twins right :=
  ⟨faults_within_noted twins.quiet call, twins.still, twins.same⟩

theorem noted_right (call : LeafCall) (twins : left.Twins right) : left.Twins (right.noted call) :=
  ⟨twins.quiet, faults_within_noted twins.still call, twins.same⟩

end Twins

theorem inject_fault_quiet {engine : Engine} (quiet : engine.FaultsWithin fun _ => False)
    (call : LeafCall) : ((injectFault call).run (engine.noted call)).1 = .ok () :=
  Plan.outcome_eq (agree_inject_fault quiet rfl False.elim)

theorem twins_shared : Shared Twins where
  noted := fun call twins => (twins.noted_left call).noted_right call
  fault := fun call twins =>
    (inject_fault_quiet twins.quiet call).trans (inject_fault_quiet twins.still call).symm
  journal := Twins.journal
  store := Twins.store
  nextId := Twins.nextId
  journaled := fun journal twins =>
    ⟨twins.quiet, twins.still, congrArg (fun engine : Engine => { engine with journal }) twins.same⟩
  issued := fun twins =>
    ⟨twins.quiet, twins.still,
      congrArg (fun engine : Engine => { engine with nextId := engine.nextId + 1 }) twins.same⟩

end Engine

section Opening

variable {alike : Engine → Engine → Prop} {leftEngine rightEngine : Engine}

theorem Node.concur_on_input {own input result : Type} {left right : Node own input}
    {first second : CursorAction input result}
    {gives : result → Node own input × Engine → Node own input × Engine → Prop}
    {stops : Node own input × Engine → Node own input × Engine → Prop}
    (concur : Concur (left.input, leftEngine) (right.input, rightEngine) first second
      (fun value after other => gives value ({ left with input := after.1 }, after.2)
        ({ right with input := other.1 }, other.2))
      fun after other => stops ({ left with input := after.1 }, after.2)
        ({ right with input := other.1 }, other.2)) :
    Concur (left, leftEngine) (right, rightEngine) (onInput first) (onInput second) gives stops :=
  concur

/-- Two closed cursors of one operator open as their inputs do. -/
theorem Node.open_pass_concurs {own input : Type} {inner : Protocol input}
    {left right : Node own input} {below : input × Engine → input × Engine → Prop}
    (closed : left.phase = .closed) (other : right.phase = .closed)
    (opens : Concur (left.input, leftEngine) (right.input, rightEngine) inner.openPass
      inner.openPass (fun _ => below) fun after other => alike after.2 other.2) :
    Concur (left, leftEngine) (right, rightEngine) (openPass inner) (openPass inner)
      (fun _ after other => ∃ mine yours,
        after.1 = { left with phase := .opening, input := mine } ∧
        other.1 = { right with phase := .opening, input := yours } ∧
        below (mine, after.2) (yours, other.2))
      fun after other => alike after.2 other.2 := by
  apply concur_mine_first (Node.check_passes (by simp [Call.legalIn, closed]))
  intro _ _ same
  subst same
  apply concur_yours_first (Node.check_passes (by simp [Call.legalIn, other]))
  intro _ _ same
  subst same
  have pulled : Concur (left, leftEngine) (right, rightEngine) (onInput inner.openPass)
      (onInput inner.openPass)
      (fun _ after other => ∃ mine yours, after.1 = { left with input := mine } ∧
        other.1 = { right with input := yours } ∧ below (mine, after.2) (yours, other.2))
      fun after other => alike after.2 other.2 :=
    Node.concur_on_input (concur_weaken opens
      (fun _ after other alike => ⟨after.1, other.1, rfl, rfl, alike⟩) fun _ _ => id)
  apply concur_bind pulled
  intro _ after other ends
  obtain ⟨_, leftEngine⟩ := after
  obtain ⟨_, rightEngine⟩ := other
  obtain ⟨mine, yours, rfl, rfl, alike⟩ := ends
  exact ⟨rfl, mine, yours, rfl, rfl, alike⟩

/-- Counting a call keeps engines alike. -/
theorem shared_tap {cursor : Type} (shared : Engine.Shared alike) (context : Context)
    (name : String) (left right : cursor) (engines : alike leftEngine rightEngine) :
    Concur (left, leftEngine) (right, rightEngine) (CursorAction.inJournal (context.tap name))
      (CursorAction.inJournal (context.tap name))
      (fun _ after other => after.1 = left ∧ other.1 = right ∧ alike after.2 other.2)
      fun after other => alike after.2 other.2 := by
  have kept := shared.journaled (rightEngine.journal.tap context name) engines
  refine ⟨rfl, rfl, rfl, ?_⟩
  change alike { leftEngine with journal := leftEngine.journal.tap context name }
    { rightEngine with journal := rightEngine.journal.tap context name }
  rw [shared.journal engines]
  exact kept

/-- Opening forgets all that an aggregation keeps but its functions. -/
theorem Grouping.opened_eq {fresh : List Accumulator} {left right : GroupingState}
    (mine : Primed fresh left) (yours : Primed fresh right) (free : left.lookahead? = none)
    (alsoFree : right.lookahead? = none) :
    { left with
      key := []
      sawInput := false
      accumulators := left.accumulators.map Accumulator.reset } =
    { right with
      key := []
      sawInput := false
      accumulators := right.accumulators.map Accumulator.reset } := by
  unfold Primed at mine yours
  rw [mine, yours, free, alsoFree]

namespace Plan

/-- A closed tree in good order that holds nothing and has a binding. -/
structure Rested (plan : Plan) (bindings : Bindings) (cursor : plan.Cursor) : Prop where
  coherent : plan.Coherent (fun _ => False) cursor
  closed : plan.phase cursor = .closed
  carrying : ∃ source, plan.Carrying bindings source cursor
  empty : plan.held cursor = []

theorem rested_below {own : Type} {input : Plan} {suits : Phase → own → Prop} {owns : own → Prop}
    {node : Node own input.Cursor} {bindings : Bindings} {source : BindingSource}
    (coherent : node.Coherent input.phase (input.Coherent fun _ => False) suits)
    (closed : node.phase = .closed)
    (carrying : Node.Carrying owns input.Carrying bindings source node)
    (empty : input.held node.input = []) : input.Rested bindings node.input :=
  ⟨coherent.input, coherent.closed closed, ⟨source, carrying.2.2⟩, empty⟩

/-- Whatever came before, trees that rest under one binding open alike: what their operators keep
is set anew. -/
theorem open_pass_concurs (shared : Engine.Shared alike) {context : Context} {plan : Plan}
    {bindings : Bindings} {left right : plan.Cursor} (mine : plan.Rested bindings left)
    (yours : plan.Rested bindings right) (engines : alike leftEngine rightEngine) :
    Concur (left, leftEngine) (right, rightEngine) (plan.protocol context).openPass
      (plan.protocol context).openPass (fun _ => plan.Alike alike)
      fun after other => alike after.2 other.2 := by
  induction plan generalizing leftEngine rightEngine with
  | values slice type rows =>
      have same : Scan.Alike alike (left, leftEngine) (right, rightEngine) :=
        ⟨mine.closed.trans yours.closed.symm, mine.empty.trans yours.empty.symm, engines⟩
      exact concur_weaken (concur_of_in_step
        (((values slice type rows).protocol_mirrored shared context).openPass _ _ same))
        (fun _ _ _ => id) fun _ _ reached => reached.engine
  | table name type =>
      have same : Scan.Alike alike (left, leftEngine) (right, rightEngine) :=
        ⟨mine.closed.trans yours.closed.symm, mine.empty.trans yours.empty.symm, engines⟩
      exact concur_weaken (concur_of_in_step
        (((table name type).protocol_mirrored shared context).openPass _ _ same))
        (fun _ _ _ => id) fun _ _ reached => reached.engine
  | filter input predicate induction =>
      obtain ⟨coherent, closed, ⟨source, carrying⟩, empty⟩ := mine
      obtain ⟨coherent', closed', ⟨source', carrying'⟩, empty'⟩ := yours
      refine concur_weaken (Node.open_pass_concurs closed closed' (induction
        (rested_below coherent closed carrying empty)
        (rested_below coherent' closed' carrying' empty') engines)) ?_ fun _ _ => id
      intro _ after other ends
      obtain ⟨_, leftEngine⟩ := after
      obtain ⟨_, rightEngine⟩ := other
      obtain ⟨below, below', rfl, rfl, alike⟩ := ends
      exact ⟨rfl, carrying.1.trans carrying'.1.symm, rfl, alike⟩
  | project input type columns induction =>
      obtain ⟨coherent, closed, ⟨source, carrying⟩, empty⟩ := mine
      obtain ⟨coherent', closed', ⟨source', carrying'⟩, empty'⟩ := yours
      refine concur_weaken (Node.open_pass_concurs closed closed' (induction
        (rested_below coherent closed carrying empty)
        (rested_below coherent' closed' carrying' empty') engines)) ?_ fun _ _ => id
      intro _ after other ends
      obtain ⟨_, leftEngine⟩ := after
      obtain ⟨_, rightEngine⟩ := other
      obtain ⟨below, below', rfl, rfl, alike⟩ := ends
      exact ⟨rfl, carrying.1.trans carrying'.1.symm, rfl, alike⟩
  | aggregate input type keys aggregates induction =>
      obtain ⟨coherent, closed, ⟨source, carrying⟩, empty⟩ := mine
      obtain ⟨coherent', closed', ⟨source', carrying'⟩, empty'⟩ := yours
      obtain ⟨free, empty⟩ := List.append_eq_nil_iff.mp empty
      obtain ⟨free', empty'⟩ := List.append_eq_nil_iff.mp empty'
      apply concur_bind (shared_tap shared context "aggregate.open" left right engines)
      intro _ after other ends
      obtain ⟨_, leftEngine⟩ := after
      obtain ⟨_, rightEngine⟩ := other
      obtain ⟨rfl, rfl, engines⟩ := ends
      apply concur_bind (Node.open_pass_concurs closed closed' (induction
        (rested_below coherent closed carrying empty)
        (rested_below coherent' closed' carrying' empty') engines))
      intro _ after other ends
      obtain ⟨_, leftEngine⟩ := after
      obtain ⟨_, rightEngine⟩ := other
      obtain ⟨below, below', rfl, rfl, alike⟩ := ends
      refine ⟨rfl, rfl, carrying.1.trans carrying'.1.symm, ?_, alike⟩
      exact Grouping.opened_eq carrying.2.1 carrying'.2.1 (Option.toList_eq_nil_iff.mp free)
        (Option.toList_eq_nil_iff.mp free')
  | limit input offset limit? induction =>
      obtain ⟨coherent, closed, ⟨source, carrying⟩, empty⟩ := mine
      obtain ⟨coherent', closed', ⟨source', carrying'⟩, empty'⟩ := yours
      apply concur_bind (Node.open_pass_concurs closed closed' (induction
        (rested_below coherent closed carrying empty)
        (rested_below coherent' closed' carrying' empty') engines))
      intro _ after other ends
      obtain ⟨_, leftEngine⟩ := after
      obtain ⟨_, rightEngine⟩ := other
      obtain ⟨below, below', rfl, rfl, alike⟩ := ends
      exact ⟨rfl, rfl, carrying.1.trans carrying'.1.symm, rfl, alike⟩

end Plan

end Opening

namespace Plan

section Passes

variable {context : Context} {plan : Plan} {bindings : Bindings} {source other : BindingSource}
  {pair left right : plan.Cursor × Engine}

/-- A whole pass of the cursor of a plan: its opening and then every row. -/
def onePass (context : Context) (plan : Plan) : CursorAction plan.Cursor (List (List Datum)) := do
  (plan.protocol context).openPass
  (plan.protocol context).drain

theorem Resting.rested (resting : Resting plan bindings source pair) :
    plan.Rested bindings pair.1 :=
  ⟨resting.kept.1, resting.closed, ⟨source, resting.carrying⟩, resting.nothing_held⟩

/-- A pass of a resting tree leaves it at rest, or usable after a failure. -/
theorem Resting.pass_agrees (resting : Resting plan bindings source pair) :
    EndsIn pair (plan.onePass context) (fun _ after => Resting plan bindings source after)
      fun _ after => Usable plan bindings source after := by
  refine agree_bind (agree_weaken (resting.standing.open_pass_agrees resting.closed)
    (fun _ _ => id) fun _ _ => Standing.usable) ?_
  rintro _ after ⟨standing, active⟩
  refine agree_weaken ((plan.protocol_dwindles context).drain_closes ?_ Usable.next_agrees active
    standing.usable) ?_ fun _ _ => id
  · exact fun action start usable => reading_keeps (Usable plan bindings source)
      (fun journal usable => usable.with_journal journal) action usable
  · rintro _ after ⟨closed, usable⟩
    rw [protocol_phase] at closed
    exact ⟨usable, closed⟩

theorem respects_drain {alike : Engine → Engine → Prop} (shared : Engine.Shared alike)
    (context : Context) (plan : Plan) :
    Respects (plan.Alike alike) (plan.protocol context).drain := by
  have mirrored := plan.protocol_mirrored shared context
  apply respects_look fun _ _ same => by simp only [mirrored.remaining same]
  intro cursor
  generalize (plan.protocol context).remaining cursor + 1 = bound
  induction bound with
  | zero => exact respects_pure []
  | succ bound induction =>
      apply respects_bind mirrored.next
      intro row?
      cases row? with
      | none => exact respects_pure []
      | some row =>
          exact respects_bind (respects_in_journal mirrored.twinned row.readAll) fun _ =>
            respects_bind induction fun _ => respects_pure _

/-- No pass writes in the store. -/
theorem pass_spares_store (context : Context) (plan : Plan) (store : Store) :
    Spares (fun engine => engine.store = store) (plan.onePass context) := by
  have shared : Engine.Shared (Fixed fun engine => engine.store = store) :=
    fixed_shared (fun _ _ => id) (fun _ _ => id) fun _ => id
  exact spares_of_respects (respects_bind (plan.protocol_mirrored shared context).openPass
    fun _ => respects_drain shared context plan)

/-- Passes of two resting trees under one binding concur. -/
theorem pass_concurs (mine : Resting plan bindings source left)
    (yours : Resting plan bindings other right) (twins : left.2.Twins right.2) :
    Concur left right (plan.onePass context) (plan.onePass context)
      (fun _ after last => after.2.Twins last.2 ∧ Resting plan bindings source after ∧
        Resting plan bindings other last)
      fun after last => after.2.Twins last.2 ∧ Usable plan bindings source after ∧
        Usable plan bindings other last := by
  refine concur_and (concur_bind
    (open_pass_concurs Engine.twins_shared mine.rested yours.rested twins) ?_)
    mine.pass_agrees yours.pass_agrees
  intro _ after last same
  exact concur_weaken (concur_of_in_step (respects_drain Engine.twins_shared context plan _ _ same))
    (fun _ _ _ => alike_engine) fun _ _ => alike_engine

end Passes

section Runs

variable {result : Type} {context : Context} {plan : Plan} {engine : Engine}
  {source : BindingSource}

section Endings

variable {bindings : Bindings} {pair : plan.Cursor × Engine} {holds : Engine → Prop}
  (noted : ∀ call engine, holds engine → holds (Engine.noted engine call))

include noted

theorem Usable.close_bindings_keeps (usable : Usable plan bindings source pair)
    (kept : holds pair.2) :
    EndsIn pair (plan.protocol context).closeBindings
      (fun _ after => Usable plan bindings source.close after ∧ holds after.2)
      fun _ _ => False :=
  agree_weaken (usable.standing.close_bindings_keeps noted kept)
    (fun _ _ ends => ⟨ends.1.usable, ends.2⟩) fun _ _ ends => no_fault ends.2.2

theorem Usable.destroy_keeps (usable : Usable plan bindings source pair) (kept : holds pair.2) :
    EndsIn pair (plan.protocol context).destroy (fun _ after => holds after.2)
      fun _ _ => False :=
  agree_weaken (usable.standing.destroy_keeps noted kept) (fun _ _ => id)
    fun _ _ ends => no_fault ends.2

end Endings

/-- A tree that can be destroyed, whatever its binding. -/
def Destroyable (pair : plan.Cursor × Engine) : Prop :=
  ∃ bindings source, Usable plan bindings source pair

/-- What holds of a state once a run was tried from which it came. -/
def Tried {other : Type} (gives : result → other → Prop) (stops : other → Prop) :
    Except QueryError result → other → Prop
  | .ok value, mine => gives value mine
  | .error _, mine => stops mine

/-- Destroying the cursor at the end of a run leaves outcomes and the relation to another run as
they are. -/
theorem concur_then_destroy (context : Context) {other : Type} {left : other}
    {right : plan.Cursor × Engine}
    {first : Action other result} {run : CursorAction plan.Cursor result}
    {gives : result → other → Prop} {stops : other → Prop} {between : other → Engine → Prop}
    (noted : ∀ mine call engine, between mine engine → between mine (Engine.noted engine call))
    (runs : Concur left right first run
      (fun value mine yours => gives value mine ∧ between mine yours.2 ∧ Destroyable yours)
      fun mine yours => stops mine ∧ between mine yours.2 ∧ Destroyable yours) :
    Concur left right first ((plan.protocol context).thenDestroy run)
      (fun value mine yours => gives value mine ∧ between mine yours.2)
      fun mine yours => stops mine ∧ between mine yours.2 := by
  rw [← attempt_of_except first]
  unfold Protocol.thenDestroy
  have attempted : Concur left right first.attempt run.attempt
      (fun tried mine yours => Tried gives stops tried mine ∧ between mine yours.2 ∧
        Destroyable yours)
      fun mine yours => stops mine ∧ between mine yours.2 :=
    concur_attempt (concur_weaken runs (fun _ _ _ => id)
      fun _ _ ends => ⟨fun _ => ends, ends.1, ends.2.1⟩)
  apply concur_bind attempted
  intro tried mine yours ends
  obtain ⟨ran, kept, bindings, source, usable⟩ := ends
  have destroys : EndsIn yours (plan.protocol context).destroy.attempt
      (fun destroyed final => destroyed = .ok () ∧ between mine final.2) fun _ _ => False :=
    agree_attempt (agree_given (usable.destroy_keeps (noted mine) kept) fun _ _ kept => ⟨rfl, kept⟩)
  apply concur_yours_first destroys
  rintro _ final ⟨rfl, kept⟩
  cases tried with
  | ok value => exact concur_pure value ⟨ran, kept⟩
  | error error => exact concur_fail error ⟨ran, kept⟩

end Runs

section Executions

variable {context : Context} {plan : Plan} {bindings : Bindings} {source other : BindingSource}
  {left : plan.Cursor × Engine} {right : Engine}

/-- A tree whose single binding was delivered has no further passes. -/
theorem no_more_passes {pair : plan.Cursor × Engine} {holds : Engine → Prop}
    (noted : ∀ call engine, holds engine → holds (Engine.noted engine call))
    (resting : Resting plan bindings (.single bindings .exhausted) pair) (kept : holds pair.2)
    (bound : Nat) :
    EndsIn pair
      ((plan.protocol context).passesWithin (fun _ => (plan.protocol context).drain) bound)
      (fun results after => results = [] ∧
        Resting plan bindings (.single bindings .exhausted) after ∧ holds after.2)
      fun _ _ => False :=
  agree_weaken (resting.standing.no_more_passes noted resting.closed kept _ bound)
    (fun _ _ ends => ⟨ends.1, ⟨ends.2.1.usable, ends.2.2.1⟩, ends.2.2.2⟩)
    fun _ _ ends => no_fault ends.2.2

theorem one_pass_then (bound : Nat) :
    (do
      (plan.protocol context).openPass
      let first ← (plan.protocol context).drain
      let rest ← (plan.protocol context).passesWithin (fun _ => (plan.protocol context).drain) bound
      pure (first :: rest)) =
    (do
      let first ← plan.onePass context
      let rest ← (plan.protocol context).passesWithin (fun _ => (plan.protocol context).drain) bound
      pure (first :: rest)) := by
  simp only [onePass, bind_assoc]

/-- The passes of a new cursor with a single binding are one pass, and concur with a pass of a tree
that rests under that binding. -/
theorem single_pass_concurs (context : Context) {mine yours : plan.Cursor × Engine}
    (resting : Resting plan bindings source mine)
    (new : Resting plan .empty (.ofOne bindings) yours) (twins : mine.2.Twins yours.2) :
    Concur mine yours (do return [← plan.onePass context])
      ((plan.protocol context).runPasses fun _ => (plan.protocol context).drain)
      (fun _ after last => Resting plan bindings source after ∧ after.2.Twins last.2 ∧
        Destroyable last)
      fun after last => Usable plan bindings source after ∧ after.2.Twins last.2 ∧
        Destroyable last := by
  have noted : ∀ (engine : Engine) call last, engine.Twins last → engine.Twins (last.noted call) :=
    fun _ call _ twins => twins.noted_right call
  apply concur_yours_first (new.open_bindings_agrees (noted mine.2) twins)
  rintro _ opened ⟨new, twins⟩
  have looks : EndsIn opened CursorAction.state
      (fun cursor after => cursor = opened.1 ∧ after = opened) fun _ _ => False := ⟨rfl, rfl, rfl⟩
  apply concur_yours_first looks
  rintro _ opened ⟨rfl, rfl⟩
  have passes : Concur mine opened (do return [← plan.onePass context])
      ((plan.protocol context).passesWithin (fun _ => (plan.protocol context).drain)
        ((plan.protocol context).passes opened.1 + 1))
      (fun _ after last => Resting plan bindings source after ∧ after.2.Twins last.2 ∧
        Resting plan bindings (.single bindings .exhausted) last)
      fun after last => Usable plan bindings source after ∧ after.2.Twins last.2 ∧
        Destroyable last := by
    apply concur_yours_first (new.next_bindings_agrees (noted mine.2) twins)
    rintro _ delivered ⟨rfl, new, twins⟩
    change Concur mine delivered _ (do
      (plan.protocol context).openPass
      let first ← (plan.protocol context).drain
      let rest ← (plan.protocol context).passesWithin (fun _ => (plan.protocol context).drain)
        ((plan.protocol context).passes opened.1)
      pure (first :: rest)) _ _
    rw [one_pass_then]
    apply concur_bind (concur_weaken (pass_concurs resting new twins) (fun _ _ _ => id)
      fun _ _ ends => ⟨ends.2.1, ends.1, _, _, ends.2.2⟩)
    rintro rows after last ⟨twins, resting, new⟩
    apply concur_yours_first (no_more_passes (noted after.2) new twins _)
    rintro _ last ⟨rfl, new, twins⟩
    exact concur_pure [rows] ⟨resting, twins, new⟩
  apply concur_yours_last passes
  rintro results after last ⟨resting, twins, new⟩
  apply agree_bind (new.toUsable.close_bindings_keeps (noted after.2) twins)
  rintro _ final ⟨usable, twins⟩
  exact agree_pure results ⟨rfl, resting, twins, _, _, usable⟩

/-- A new cursor rests, with the empty binding. -/
theorem start_resting {store : Store} {cursor : plan.Cursor} {engine : Engine}
    (started : plan.start store source = .ok cursor)
    (quiet : engine.FaultsWithin fun _ => False) :
    Resting plan .empty source (cursor, engine) := by
  have ⟨coherent, closed⟩ : plan.Coherent (fun _ => False) cursor ∧ plan.phase cursor = .closed :=
    start_coherent started
  have present : plan.phase cursor ≠ .destroyed := by simp [closed]
  exact ⟨⟨⟨coherent, quiet⟩, present, start_carries started⟩, closed⟩

/-- An execution under a binding concurs with a pass of any tree that rests under it. -/
theorem execute_concurs (resting : Resting plan bindings source left) (twins : left.2.Twins right)
    (admitted : plan.admitted right.store = .ok ()) :
    Concur left right (plan.onePass context) (plan.execute context bindings)
      (fun _ after last => Resting plan bindings source after ∧ after.2.Twins last)
      fun after last => Usable plan bindings source after ∧ after.2.Twins last := by
  obtain ⟨cursor, started⟩ := started_of_admitted admitted (.ofOne bindings)
  have runs : Concur left right (do return [← plan.onePass context])
      (plan.run context (.ofOne bindings) fun _ => (plan.protocol context).drain)
      (fun _ after last => Resting plan bindings source after ∧ after.2.Twins last)
      fun after last => Usable plan bindings source after ∧ after.2.Twins last := by
    have single := single_pass_concurs context resting (start_resting started twins.still) twins
    have destroyed := concur_then_destroy context
      (fun after call last twins => Engine.Twins.noted_right call twins) single
    unfold Concur
    rw [run_started started]
    exact destroyed
  have one : plan.onePass context =
      (do return [← plan.onePass context]) >>= fun passes => pure (passes.headD []) := by
    simp
  rw [one]
  exact concur_bind runs fun passes _ _ ends => concur_pure (passes.headD []) ends

/-- One pass after another concurs with one execution after another: by induction on the bound of
the passes, which exceeds the pending bindings. -/
theorem passes_concur (most : Nat) (resting : Resting plan bindings source left)
    (enough : source.pending.length < most) (twins : left.2.Twins right)
    (admitted : plan.admitted right.store = .ok ()) :
    Concur left right
      ((plan.protocol context).passesWithin (fun _ => (plan.protocol context).drain) most)
      (source.pending.mapM (plan.execute context))
      (fun _ after last => after.2.Twins last ∧ Destroyable after)
      fun after last => after.2.Twins last ∧ Destroyable after := by
  induction most generalizing bindings source left right with
  | zero => exact absurd enough (Nat.not_lt_zero _)
  | succ most induction =>
      obtain ⟨head, tail⟩ := source.pending_next
      have noted : ∀ call (engine : Engine), engine.Twins right → (engine.noted call).Twins right :=
        fun call _ twins => twins.noted_left call
      apply concur_mine_first (resting.next_bindings_agrees noted twins)
      rintro _ delivered ⟨rfl, resting, twins⟩
      rw [head] at resting ⊢
      cases pending : source.pending with
      | nil =>
          rw [pending] at resting
          exact concur_pure [] ⟨twins, _, _, resting.toUsable⟩
      | cons next rest =>
          rw [pending] at resting tail enough
          rw [List.mapM_cons]
          change Concur delivered right (do
            (plan.protocol context).openPass
            let first ← (plan.protocol context).drain
            let rest ← (plan.protocol context).passesWithin
              (fun _ => (plan.protocol context).drain) most
            pure (first :: rest)) _ _ _
          rw [one_pass_then]
          have stores : delivered.2.store = right.store := twins.store
          have executes := concur_and (execute_concurs resting twins admitted)
            (pass_spares_store context plan right.store delivered stores)
            (ensures_nothing right (plan.execute context next))
          apply concur_bind (concur_weaken executes (fun _ _ _ => id)
            fun _ _ ends => ⟨ends.1.2, _, _, ends.1.1⟩)
          rintro rows after last ⟨⟨resting, twins⟩, store, _⟩
          have fewer : source.next.2.pending.length < most := by
            rw [tail]
            exact Nat.lt_of_succ_lt_succ enough
          have rests := induction resting fewer twins (by rw [← twins.store, store]; exact admitted)
          rw [tail] at rests
          exact concur_bind rests fun others _ _ ends => concur_pure (rows :: others) ends

end Executions

section PerBinding

variable {context : Context} {plan : Plan} {engine : Engine}

theorem refused_of_admission {store : Store} {error : QueryError}
    (refused : plan.admitted store = .error error) (source : BindingSource) :
    plan.start store source = .error error := by
  have same := start_admitted store source plan
  rw [refused] at same
  cases started : plan.start store source with
  | ok cursor =>
      rw [started] at same
      cases same
  | error other =>
      rw [started] at same
      cases same
      rfl

/-- A plan that cannot start is refused before any pass. -/
theorem refused_concurs {error : QueryError} (refused : plan.admitted engine.store = .error error)
    (twins : engine.Twins engine) (first : Bindings) (rest : List Bindings) :
    Concur engine engine (plan.executeEach context (first :: rest))
      ((first :: rest).mapM (plan.execute context)) (fun _ after last => after.Twins last)
      fun after last => after.Twins last := by
  have executed : (plan.execute context first).run engine = (.error (.failed error), engine) := by
    unfold execute
    rw [run_bind, run_refused (refused_of_admission refused _)]
  unfold Concur executeEach
  rw [run_refused (refused_of_admission refused _), List.mapM_cons, run_bind, executed]
  exact ⟨rfl, twins⟩

/-- The passes of one cursor concur with executions of new cursors. -/
theorem all_passes_concur {cursor : plan.Cursor} {bindings : List Bindings}
    (started : plan.start engine.store (.ofList bindings) = .ok cursor)
    (twins : engine.Twins engine) (admitted : plan.admitted engine.store = .ok ()) :
    Concur (cursor, engine) engine
      ((plan.protocol context).runPasses fun _ => (plan.protocol context).drain)
      (bindings.mapM (plan.execute context))
      (fun _ after last => after.2.Twins last ∧ Destroyable after)
      fun after last => after.2.Twins last ∧ Destroyable after := by
  have noted : ∀ other call (last : Engine), last.Twins other → (last.noted call).Twins other :=
    fun _ call _ twins => twins.noted_left call
  have resting := start_resting started twins.quiet
  apply concur_mine_first (resting.open_bindings_agrees (noted engine) twins)
  rintro _ opened ⟨resting, twins⟩
  have looks : EndsIn opened CursorAction.state
      (fun cursor after => cursor = opened.1 ∧ after = opened) fun _ _ => False := ⟨rfl, rfl, rfl⟩
  apply concur_mine_first looks
  rintro _ opened ⟨rfl, rfl⟩
  have enough : (BindingSource.ofList bindings).openAll.pending.length <
      (plan.protocol context).passes opened.1 + 1 := by
    rw [passes_eq resting.carrying]
    exact Nat.lt_succ_self _
  apply concur_mine_last (passes_concur _ resting enough twins admitted)
  rintro results after last ⟨twins, bindings, source, usable⟩
  apply agree_bind (usable.close_bindings_keeps (noted last) twins)
  rintro _ final ⟨usable, twins⟩
  exact agree_pure results ⟨rfl, twins, _, _, usable⟩

end PerBinding

/-- Executing a plan under several bindings with one cursor gives what executing it under each of
them with a new cursor gives: the results in order, or the first failure. The engines end alike in
all but the log of the probe, so every context has the same warnings. -/
theorem execute_each_eq_executions {plan : Plan} {context : Context} {bindings : List Bindings}
    (some : bindings ≠ []) {engine : Engine} (faultless : engine.FaultsWithin fun _ => False) :
    let each := (plan.executeEach context bindings).run engine
    let apart := (bindings.mapM (plan.execute context)).run engine
    each.1 = apart.1 ∧
      (∀ any : Context, (each.2.journal.of any).warnings = (apart.2.journal.of any).warnings) ∧
      { each.2 with probe? := none } = { apart.2 with probe? := none } := by
  obtain ⟨first, rest, rfl⟩ := List.exists_cons_of_ne_nil some
  have twins : engine.Twins engine := ⟨faultless, faultless, rfl⟩
  have concur : Concur engine engine (plan.executeEach context (first :: rest))
      ((first :: rest).mapM (plan.execute context)) (fun _ after last => after.Twins last)
      fun after last => after.Twins last := by
    cases admission : plan.admitted engine.store with
    | error error => exact refused_concurs admission twins first rest
    | ok _ =>
        obtain ⟨cursor, started⟩ := started_of_admitted admission (.ofList (first :: rest))
        have passes : Concur engine (cursor, engine) ((first :: rest).mapM (plan.execute context))
            ((plan.protocol context).runPasses fun _ => (plan.protocol context).drain)
            (fun _ last after => True ∧ after.2.Twins last ∧ Destroyable after)
            fun last after => True ∧ after.2.Twins last ∧ Destroyable after :=
          concur_weaken (concur_symm (all_passes_concur started twins admission))
            (fun _ _ _ ends => ⟨trivial, ends⟩) fun _ _ ends => ⟨trivial, ends⟩
        have destroyed := concur_then_destroy context
          (fun last call after (twins : Engine.Twins after last) => twins.noted_left call) passes
        have whole : Concur (cursor, engine) engine ((plan.protocol context).thenDestroy
            ((plan.protocol context).runPasses fun _ => (plan.protocol context).drain))
            ((first :: rest).mapM (plan.execute context))
            (fun _ after last => after.2.Twins last) fun after last => after.2.Twins last :=
          concur_weaken (concur_symm destroyed) (fun _ _ _ ends => ends.2) fun _ _ ends => ends.2
        unfold Concur executeEach
        rw [run_started started]
        exact whole
  obtain ⟨same, ends⟩ := concur
  have alike : ((plan.executeEach context (first :: rest)).run engine).2.Twins
      (((first :: rest).mapM (plan.execute context)).run engine).2 := by
    revert ends
    split <;> exact id
  exact ⟨same, fun any => by rw [alike.journal], alike.same⟩

end Plan

/-! Three passes of one cursor: two end early at a limit with a group open, and the one between
them gives no row. -/

namespace Rebound

def type : RowType :=
  ⟨0, [.notNull .boolean]⟩

/-- The first of the distinct flags in a table, where the parameter admits its rows. -/
def plan : Plan :=
  .limit (.aggregate (.filter (.table "" type) (.parameter 0 (.notNull .boolean))) ⟨1, type.columns⟩
    1 []) 0 (some 1)

def context : Context :=
  ⟨1, .empty, {}⟩

def engine : Engine where
  nextId := 5
  store.tables :=
    ⟨[("", ⟨type, [.stored 1 type [.boolean false], .stored 2 type [.boolean true]]⟩)]⟩
  probe? := some {}

def admitting (id : Nat) (admits : Bool) : Bindings :=
  .parameter 0 (.boolean admits) (.root id)

theorem first_flag_per_binding :
    [admitting 2 true, admitting 3 false, admitting 4 true] ≠ [] ∧
    (engine.FaultsWithin fun _ => False) ∧
    ((plan.executeEach context [admitting 2 true, admitting 3 false, admitting 4 true]).run
      engine).1.toOption = some [[[.boolean false]], [], [[.boolean false]]] := by
  have nonempty : [admitting 2 true, admitting 3 false, admitting 4 true] ≠ [] := by simp
  have faultless : engine.FaultsWithin fun _ => False := by
    intro probe present call number listed _
    cases present
    cases listed
  refine ⟨nonempty, faultless, ?_⟩
  rw [(Plan.execute_each_eq_executions nonempty faultless).1]
  decide +kernel

end Rebound

end QueryExec
