import QueryExec.Proofs.Action.Invariant

/-!
Runs as series of deeds. A deed changes the state and yields some items, and the first deed that
fails ends the run, with its own failure. A step that does nothing but deeds is such a run wherever
it starts, so what every deed keeps and what their yields add up to is shown by induction on the
series.
-/

namespace QueryExec.Action

variable {state deed item result other : Type} {perform : deed → Action state (List item)}

/-- Deeds one after another, none of which fails, with all that they yield. -/
inductive Series (perform : deed → Action state (List item)) : state → List item → state → Prop
  | idle (start : state) : Series perform start [] start
  | further {start middle last : state} {yield rest : List item} (next : deed)
      (done : (perform next).run start = (.ok yield, middle))
      (others : Series perform middle rest last) : Series perform start (yield ++ rest) last

/-- A run of deeds: it ends of itself or with the first deed that fails. -/
inductive Ran (perform : deed → Action state (List item)) (start : state) :
    List item → Except Interrupt Unit → state → Prop
  | ended {last : state} {yield : List item} (series : Series perform start yield last) :
      Ran perform start yield (.ok ()) last
  | stopped {middle last : state} {yield : List item} {interrupt : Interrupt}
      (series : Series perform start yield middle) (next : deed)
      (failed : (perform next).run middle = (.error interrupt, last)) :
      Ran perform start yield (.error interrupt) last

/-- The outcome of a step apart from what it answers. -/
def fate (outcome : Except Interrupt result) : Except Interrupt Unit :=
  outcome.map fun _ => ()

/-- From everywhere the step is a run of deeds. -/
def Does (perform : deed → Action state (List item)) (action : Action state result) : Prop :=
  ∀ start, ∃ yield, Ran perform start yield (fate (action.run start).1) (action.run start).2

theorem Series.before {start middle last : state} {yield more : List item}
    {outcome : Except Interrupt Unit} (series : Series perform start yield middle)
    (rest : Ran perform middle more outcome last) :
    Ran perform start (yield ++ more) outcome last := by
  induction series with
  | idle start => exact rest
  | further next done _ induction =>
      rw [List.append_assoc]
      cases induction rest with
      | ended series => exact .ended (.further next done series)
      | stopped series last failed => exact .stopped (.further next done series) last failed

/-- A step that changes nothing needs no deed. -/
theorem does_nothing {action : Action state result}
    (still : ∀ start, ∃ value, action.run start = (.ok value, start)) : Does perform action := by
  intro start
  obtain ⟨value, same⟩ := still start
  rw [same]
  exact ⟨[], .ended (.idle start)⟩

theorem does_pure (value : result) : Does perform (pure value) :=
  does_nothing fun _ => ⟨value, rfl⟩

/-- A step that is one deed, up to what is answered and what is yielded. -/
theorem does_deed {action : Action state result} (next : deed) (yields : result → List item)
    (same : perform next = action >>= fun value => pure (yields value)) : Does perform action := by
  intro start
  have ran : (perform next).run start = _ := congrArg (fun step => step.run start) same
  rw [run_bind] at ran
  revert ran
  rcases action.run start with ⟨interrupt | value, last⟩
  · exact fun ran => ⟨[], .stopped (.idle start) next ran⟩
  · exact fun ran => ⟨yields value ++ [], .ended (.further next ran (.idle last))⟩

theorem does_bind {action : Action state other} {next : other → Action state result}
    (first : Does perform action) (second : ∀ value, Does perform (next value)) :
    Does perform (action >>= next) := by
  intro start
  obtain ⟨yield, ran⟩ := first start
  rw [run_bind]
  revert ran
  rcases action.run start with ⟨interrupt | value, middle⟩
  · exact fun ran => ⟨yield, ran⟩
  · intro ran
    obtain ⟨more, rest⟩ := second value middle
    cases ran with
    | ended series => exact ⟨yield ++ more, series.before rest⟩

end QueryExec.Action
