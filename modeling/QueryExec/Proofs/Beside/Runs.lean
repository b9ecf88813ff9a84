import QueryExec.Execution
import QueryExec.Proofs.Beside.Plans

/-!
Whole runs beside each other. If the calls of two cursors correspond, both are drained of the same
values, go through their bindings alike and are destroyed alike; their cursors are new and are
dropped in the end, so what corresponds afterwards are the engines.
-/

namespace QueryExec.Correspondence

open QueryExec.Action

variable {World mine yours result : Type} [Preorder World] {corr : Correspondence World}
  {related : World → mine → yours → Prop} {world : World} {context : Context}
  {first : Protocol mine} {second : Protocol yours}

theorem correspond_read_all (lawful : corr.Lawful context) {row partner : Row}
    (rows : corr.rows world row partner) :
    Correspond corr.engines world (Engine.inJournal row.readAll)
      (Engine.inJournal partner.readAll) fun _ => Eq := by
  unfold Row.readAll
  rw [lawful.rows_type rows]
  refine reading_map _ fun later grown column => ?_
  exact lawful.read (lawful.rows_later _ _ _ _ grown rows) column

section Draining

variable (lawful : corr.Lawful context) (protocols : corr.Protocols first second related)

include lawful protocols

theorem correspond_drain_within (bound : Nat) :
    Correspond (corr.States related) world (first.drainWithin bound) (second.drainWithin bound)
      fun _ => Eq := by
  induction bound generalizing world with
  | zero => exact correspond_pure rfl
  | succ bound induction =>
      refine correspond_bind (protocols.next world) fun later row? partner? _ rows => ?_
      cases rows with
      | none => exact correspond_pure rfl
      | some rows =>
          refine correspond_bind (correspond_in_engine protocols.enduring
            (correspond_read_all lawful rows)) ?_
          rintro last values _ _ rfl
          refine correspond_bind induction ?_
          rintro _ rest _ _ rfl
          exact correspond_pure rfl

theorem correspond_drain :
    Correspond (corr.States related) world first.drain second.drain fun _ => Eq := by
  apply correspond_state
  intro left right held
  rw [protocols.remaining held]
  exact correspond_drain_within lawful protocols _

end Draining

section Passes

variable (protocols : corr.Protocols first second related)

include protocols

section

variable {pass : Bindings → CursorAction mine result}
  {acting : Bindings → CursorAction yours result}
  (passes : ∀ world bindings, corr.bound world bindings →
    Correspond (corr.States related) world (pass bindings) (acting bindings) fun _ => Eq)
  (lasting : ∀ {world later bindings}, world ≤ later → corr.bound world bindings →
    corr.bound later bindings)

include passes lasting

/-- Passes that correspond, one for each binding: by induction on their number. -/
theorem correspond_passes_within (bound : Nat) :
    Correspond (corr.States related) world (first.passesWithin pass bound)
      (second.passesWithin acting bound) fun _ => Eq := by
  induction bound generalizing world with
  | zero => exact correspond_pure rfl
  | succ bound induction =>
      refine correspond_bind (protocols.nextBindings world) ?_
      rintro later bindings? _ _ ⟨rfl, bound⟩
      cases bindings? with
      | none => exact correspond_pure rfl
      | some bindings =>
          refine correspond_bind (protocols.openPass later) fun last _ _ grown _ => ?_
          refine correspond_bind (passes last bindings (lasting grown (bound bindings rfl))) ?_
          rintro _ outcome _ _ rfl
          refine correspond_bind induction ?_
          rintro _ rest _ _ rfl
          exact correspond_pure rfl

theorem correspond_run_passes :
    Correspond (corr.States related) world (first.runPasses pass) (second.runPasses acting)
      fun _ => Eq := by
  refine correspond_bind (protocols.openBindings world) fun later _ _ _ _ => ?_
  apply correspond_state
  intro left right held
  rw [protocols.passes held]
  refine correspond_bind (correspond_passes_within protocols passes lasting _) ?_
  rintro last results _ _ rfl
  exact correspond_bind (protocols.closeBindings last) fun _ _ _ _ _ => correspond_pure rfl

end

theorem correspond_then_destroy {run : CursorAction mine result}
    {running : CursorAction yours result}
    (correspond : Correspond (corr.States related) world run running fun _ => Eq) :
    Correspond (corr.States related) world (first.thenDestroy run) (second.thenDestroy running)
      fun _ => Eq := by
  refine correspond_bind (correspond_attempt correspond) fun later ran running _ ends => ?_
  refine correspond_bind (correspond_attempt (protocols.destroy later))
    fun last destroyed destroying _ gone => ?_
  refine correspond_bind (correspond_of_except ends) ?_
  rintro _ value _ _ rfl
  exact correspond_bind (correspond_of_except gone) fun _ _ _ _ _ => correspond_pure rfl

end Passes

/-- Cursors that are dropped leave engines that correspond. -/
theorem correspond_run_from {initial : mine} {starting : yours} {action : CursorAction mine result}
    {acting : CursorAction yours result} (beside : related world initial starting)
    (correspond : Correspond (corr.States related) world action acting fun _ => Eq) :
    Correspond corr.engines world (CursorAction.runFrom initial action)
      (CursorAction.runFrom starting acting) fun _ => Eq := by
  intro left right engines
  change EndLater corr.engines world _
    ((action.run (initial, left)).1, (action.run (initial, left)).2.2)
    ((acting.run (starting, right)).1, (acting.run (starting, right)).2.2)
  rcases end_alike_cases (correspond (initial, left) (starting, right) ⟨beside, engines⟩) with
    ⟨value, same, after, last, ran, went, later, grown, reached, answered⟩ |
    ⟨interrupt, after, last, ran, went, later, grown, reached⟩
  · rw [ran, went]
    exact ⟨later, grown, reached.2, answered⟩
  · rw [ran, went]
    exact ⟨rfl, later, grown, reached.2⟩

end QueryExec.Correspondence
