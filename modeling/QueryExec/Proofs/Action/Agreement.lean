import QueryExec.Action

/-!
Reasoning about steps. Two steps agree from a state when they end in the same way and that end
meets a condition; a step that agrees with itself just meets the condition. There is one rule for
each way of putting steps together, so that a proof follows the text of a step and does not open
the monad.
-/

namespace QueryExec.Action

variable {state inner result other : Type}

/-- The condition on an end: `gives` on what a step answers, `stops` on why it stopped. -/
def Meets (gives : result → state → Prop) (stops : Interrupt → state → Prop)
    (last : Except Interrupt result × state) : Prop :=
  match last.1 with
  | .ok value => gives value last.2
  | .error interrupt => stops interrupt last.2

/-- From `start` both steps end in the same way, and that end meets the condition. -/
def AgreeFrom (start : state) (left right : Action state result)
    (gives : result → state → Prop) (stops : Interrupt → state → Prop) : Prop :=
  left.run start = right.run start ∧ Meets gives stops (right.run start)

/-- The condition that a single step meets. -/
abbrev EndsIn (start : state) (action : Action state result)
    (gives : result → state → Prop) (stops : Interrupt → state → Prop) : Prop :=
  AgreeFrom start action action gives stops

theorem run_bind (action : Action state result) (next : result → Action state other)
    (start : state) :
    (action >>= next).run start =
      match action.run start with
      | (.ok value, reached) => (next value).run reached
      | (.error interrupt, reached) => (.error interrupt, reached) := by
  change (ExceptT.bindCont next (action.run start).1) (action.run start).2 = _
  rcases action.run start with ⟨outcome, reached⟩
  cases outcome <;> rfl

theorem run_attempt (action : Action state result) (start : state) :
    action.attempt.run start =
      match action.run start with
      | (.ok value, reached) => (.ok (.ok value), reached)
      | (.error (.failed error), reached) => (.ok (.error error), reached)
      | (.error .indexOutOfRange, reached) => (.error .indexOutOfRange, reached) :=
  rfl

theorem run_on_failure (cleanup : Action state Unit) (action : Action state result)
    (start : state) :
    (onFailure cleanup action).run start =
      match action.run start with
      | (.error (.failed error), reached) =>
          match cleanup.run reached with
          | (.error .indexOutOfRange, cleaned) => (.error .indexOutOfRange, cleaned)
          | (_, cleaned) => (.error (.failed error), cleaned)
      | other => other := by
  unfold onFailure
  rw [run_bind, run_attempt]
  rcases action.run start with ⟨⟨error | _⟩ | value, reached⟩
  · dsimp only
    rw [run_bind, run_attempt]
    rcases cleanup.run reached with ⟨⟨_ | _⟩ | _, cleaned⟩ <;> rfl
  · rfl
  · rfl

theorem run_at_column (action : Action state result) (column : Nat) (start : state) :
    (action.atColumn column).run start =
      match action.run start with
      | (.error (.failed error), reached) => (.error (.failed (error.atColumn column)), reached)
      | other => other :=
  rfl

section Rules

variable {start : state} {left right : Action state result}
  {gives : result → state → Prop} {stops : Interrupt → state → Prop}

theorem agree_weaken {gives' : result → state → Prop} {stops' : Interrupt → state → Prop}
    (agree : AgreeFrom start left right gives' stops')
    (given : ∀ value reached, gives' value reached → gives value reached)
    (stopped : ∀ interrupt reached, stops' interrupt reached → stops interrupt reached) :
    AgreeFrom start left right gives stops := by
  obtain ⟨same, meets⟩ := agree
  refine ⟨same, ?_⟩
  unfold Meets at meets ⊢
  split at meets
  · exact given _ _ meets
  · exact stopped _ _ meets

/-- Two conditions on the same ends hold together. -/
theorem agree_both {gives' : result → state → Prop} {stops' : Interrupt → state → Prop}
    (agree : AgreeFrom start left right gives stops)
    (also : AgreeFrom start left right gives' stops') :
    AgreeFrom start left right
      (fun value reached => gives value reached ∧ gives' value reached)
      fun interrupt reached => stops interrupt reached ∧ stops' interrupt reached := by
  obtain ⟨same, meets⟩ := agree
  obtain ⟨_, meets'⟩ := also
  refine ⟨same, ?_⟩
  unfold Meets at meets meets' ⊢
  revert meets meets'
  rcases (right.run start).1 with interrupt | value <;> exact And.intro

theorem agree_pure (value : result) (holds : gives value start) :
    EndsIn start (pure value : Action state result) gives stops :=
  ⟨rfl, holds⟩

theorem agree_fail (error : QueryError) (holds : stops (.failed error) start) :
    EndsIn start (fail error : Action state result) gives stops :=
  ⟨rfl, holds⟩

/-- Every step ends. -/
theorem agree_anyhow (action : Action state result) (start : state) :
    EndsIn start action (fun _ _ => True) fun _ _ => True := by
  refine ⟨rfl, ?_⟩
  unfold Meets
  split <;> trivial

/-- The first steps agree, and wherever they lead the second steps agree from there. -/
theorem agree_bind {middle : other → state → Prop}
    {first second : Action state other} {leftNext rightNext : other → Action state result}
    (begin : AgreeFrom start first second middle stops)
    (continues : ∀ value reached, middle value reached →
      AgreeFrom reached (leftNext value) (rightNext value) gives stops) :
    AgreeFrom start (first >>= leftNext) (second >>= rightNext) gives stops := by
  obtain ⟨same, meets⟩ := begin
  unfold AgreeFrom
  rw [run_bind, run_bind, same]
  revert meets
  rcases second.run start with ⟨interrupt | value, reached⟩
  · exact fun meets => ⟨rfl, meets⟩
  · exact fun meets => continues value reached meets

/-- The rule for steps in a row with the condition between them spelled out. -/
theorem agree_then (middle : other → state → Prop)
    {first second : Action state other} {leftNext rightNext : other → Action state result}
    (begin : AgreeFrom start first second middle stops)
    (continues : ∀ value reached, middle value reached →
      AgreeFrom reached (leftNext value) (rightNext value) gives stops) :
    AgreeFrom start (first >>= leftNext) (second >>= rightNext) gives stops :=
  agree_bind begin continues

/-- A step that never stops meets whatever is asked of steps that stop. -/
theorem agree_given {gives' : result → state → Prop}
    (agree : AgreeFrom start left right gives' fun _ _ => False)
    (given : ∀ value reached, gives' value reached → gives value reached) :
    AgreeFrom start left right gives stops :=
  agree_weaken agree given fun _ _ impossible => impossible.elim

/-- The rule for steps in a row of which the first is known to end there, if it ends. -/
theorem agree_reaching (reached : state) {first second : Action state other}
    {leftNext rightNext : other → Action state result}
    (begin : AgreeFrom start first second (fun _ after => after = reached) stops)
    (continues : ∀ value, AgreeFrom reached (leftNext value) (rightNext value) gives stops) :
    AgreeFrom start (first >>= leftNext) (second >>= rightNext) gives stops :=
  agree_bind begin fun value _ same => same ▸ continues value

/-- The rule for steps in a row of which the first never stops. -/
theorem agree_surely {middle : other → state → Prop}
    {first second : Action state other} {leftNext rightNext : other → Action state result}
    (begin : AgreeFrom start first second middle fun _ _ => False)
    (continues : ∀ value reached, middle value reached →
      AgreeFrom reached (leftNext value) (rightNext value) gives stops) :
    AgreeFrom start (first >>= leftNext) (second >>= rightNext) gives stops :=
  agree_bind (agree_given begin fun _ _ => id) continues

/-- A query error becomes an answer; a column index outside its row still stops the step. -/
theorem agree_attempt {gives : Except QueryError result → state → Prop}
    (agree : AgreeFrom start left right (fun value reached => gives (.ok value) reached)
      fun interrupt reached =>
        match interrupt with
        | .failed error => gives (.error error) reached
        | .indexOutOfRange => stops .indexOutOfRange reached) :
    AgreeFrom start left.attempt right.attempt gives stops := by
  obtain ⟨same, meets⟩ := agree
  unfold AgreeFrom
  rw [run_attempt, run_attempt, same]
  refine ⟨rfl, ?_⟩
  revert meets
  rcases right.run start with ⟨⟨_ | _⟩ | _, reached⟩ <;> exact id

theorem agree_of_except (outcome : Except QueryError result)
    (given : ∀ value, outcome = .ok value → gives value start)
    (stopped : ∀ error, outcome = .error error → stops (.failed error) start) :
    EndsIn start (ofExcept outcome) gives stops := by
  cases outcome with
  | ok value => exact agree_pure value (given value rfl)
  | error error => exact agree_fail error (stopped error rfl)

/-- The cleanups of a failed step agree and its error is kept, unless a cleanup itself reads outside
a row. -/
def CleansUp (leftCleanup rightCleanup : Action state Unit) (stops : Interrupt → state → Prop)
    (error : QueryError) (reached : state) : Prop :=
  AgreeFrom reached leftCleanup rightCleanup (fun _ last => stops (.failed error) last)
    fun interrupt last =>
      match interrupt with
      | .failed _ => stops (.failed error) last
      | .indexOutOfRange => stops .indexOutOfRange last

/-- After a success there is nothing to clean up. -/
def CleanedUp (leftCleanup rightCleanup : Action state Unit) (gives : result → state → Prop)
    (stops : Interrupt → state → Prop) : Except QueryError result → state → Prop
  | .ok value, reached => gives value reached
  | .error error, reached => CleansUp leftCleanup rightCleanup stops error reached

/-- Steps that agree and whose cleanups agree after a query error agree with their cleanups. -/
theorem agree_on_failure {leftCleanup rightCleanup : Action state Unit}
    (agree : AgreeFrom start left right gives fun interrupt reached =>
      match interrupt with
      | .failed error => CleansUp leftCleanup rightCleanup stops error reached
      | .indexOutOfRange => stops .indexOutOfRange reached) :
    AgreeFrom start (onFailure leftCleanup left) (onFailure rightCleanup right) gives stops := by
  apply agree_then (CleanedUp leftCleanup rightCleanup gives stops) (agree_attempt agree)
  intro tried reached holds
  cases tried with
  | ok value => exact agree_pure value holds
  | error error =>
      refine agree_then (fun _ last => stops (.failed error) last)
        (agree_attempt (agree_weaken holds ?_ ?_)) ?_
      · exact fun _ _ kept => kept
      · rintro (_ | _) last kept <;> exact kept
      · exact fun _ last kept => agree_fail error kept

/-- A condition on the state that every end meets holds where the step ends. -/
theorem reaches_of_ends {holds : state → Prop}
    (ends : EndsIn start right (fun _ reached => holds reached) fun _ reached => holds reached) :
    holds (right.run start).2 := by
  have meets := ends.2
  revert meets
  rcases right.run start with ⟨_ | _, reached⟩ <;> exact id

/-- A condition on how the step ends and in which state. -/
theorem ends_of_agree (ends : Except Interrupt result → state → Prop)
    (agree : EndsIn start right (fun value after => ends (.ok value) after)
      fun interrupt after => ends (.error interrupt) after) :
    ends (right.run start).1 (right.run start).2 := by
  have meets := agree.2
  revert meets
  rcases right.run start with ⟨_ | _, after⟩ <;> exact id

/-- The condition on answers holds of what the step answers. -/
theorem answer_of_ends {holds : result → Prop} {value : result}
    (ends : EndsIn start right (fun value _ => holds value) fun _ _ => True)
    (answered : (right.run start).1 = .ok value) : holds value := by
  have meets := ends.2
  unfold Meets at meets
  rw [answered] at meets
  exact meets

/-- The condition on interrupts holds of what stops the step. -/
theorem interrupt_of_ends {holds : Interrupt → Prop} {interrupt : Interrupt}
    (ends : EndsIn start right (fun _ _ => True) fun interrupt _ => holds interrupt)
    (stopped : (right.run start).1 = .error interrupt) : holds interrupt := by
  have meets := ends.2
  unfold Meets at meets
  rw [stopped] at meets
  exact meets

/-- A step on a part of the state agrees as it does on the part alone. -/
theorem agree_on_part {outer : Type} {whole : outer} {get : outer → state}
    {put : state → outer → outer} {gives : result → outer → Prop}
    {stops : Interrupt → outer → Prop}
    (agree : AgreeFrom (get whole) left right (fun value part => gives value (put part whole))
      fun interrupt part => stops interrupt (put part whole)) :
    AgreeFrom whole (onPart get put left) (onPart get put right) gives stops := by
  obtain ⟨same, meets⟩ := agree
  refine ⟨?_, ?_⟩
  · change ((left.run (get whole)).1, put (left.run (get whole)).2 whole) =
      ((right.run (get whole)).1, put (right.run (get whole)).2 whole)
    rw [same]
  · exact meets

end Rules

end QueryExec.Action
