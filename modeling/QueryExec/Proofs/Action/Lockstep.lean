import QueryExec.Proofs.Action.Agreement

/-!
Steps in lockstep. Two runs that start in related states end in the same way and in related states
again. A step that does not tell related states apart respects the relation, and steps put together
from such steps do too, so a relation has to be looked at only where a state is read or changed.
-/

namespace QueryExec.Action

variable {state result other : Type} {related : state → state → Prop}

/-- Two runs have the same outcome and end in related states. -/
def InStep (related : state → state → Prop) (left right : state)
    (first second : Action state result) : Prop :=
  (first.run left).1 = (second.run right).1 ∧ related (first.run left).2 (second.run right).2

/-- The step does not tell related states apart. -/
def Respects (related : state → state → Prop) (action : Action state result) : Prop :=
  ∀ left right, related left right → InStep related left right action action

theorem in_step_bind {left right : state} {first second : Action state other}
    {leftNext rightNext : other → Action state result}
    (begin : InStep related left right first second)
    (continues : ∀ value left right, related left right →
      InStep related left right (leftNext value) (rightNext value)) :
    InStep related left right (first >>= leftNext) (second >>= rightNext) := by
  obtain ⟨same, reached⟩ := begin
  unfold InStep
  rw [run_bind, run_bind]
  revert same reached
  rcases first.run left with ⟨outcome, leftAfter⟩
  rcases second.run right with ⟨_, rightAfter⟩
  rintro rfl reached
  cases outcome with
  | error interrupt => exact ⟨rfl, reached⟩
  | ok value => exact continues value leftAfter rightAfter reached

theorem respects_pure (value : result) : Respects related (pure value) :=
  fun _ _ alike => ⟨rfl, alike⟩

theorem respects_fail (error : QueryError) :
    Respects related (fail error : Action state result) :=
  fun _ _ alike => ⟨rfl, alike⟩

theorem respects_of_except (outcome : Except QueryError result) :
    Respects related (ofExcept outcome) := by
  cases outcome with
  | ok value => exact respects_pure value
  | error error => exact respects_fail error

theorem respects_bind {action : Action state other} {next : other → Action state result}
    (first : Respects related action) (second : ∀ value, Respects related (next value)) :
    Respects related (action >>= next) :=
  fun left right alike => in_step_bind (first left right alike) second

/-- Reading the state, where what follows is the same for related states. -/
theorem respects_get {next : state → Action state result}
    (same : ∀ left right, related left right → next left = next right)
    (respects : ∀ seen, Respects related (next seen)) : Respects related (get >>= next) := by
  intro left right alike
  have rest := respects right left right alike
  unfold InStep at rest ⊢
  change ((next left).run left).1 = ((next right).run right).1 ∧
    related ((next left).run left).2 ((next right).run right).2
  rw [same left right alike]
  exact rest

theorem respects_attempt {action : Action state result} (respects : Respects related action) :
    Respects related action.attempt := by
  intro left right alike
  obtain ⟨same, reached⟩ := respects left right alike
  unfold InStep
  rw [run_attempt, run_attempt]
  revert same reached
  rcases action.run left with ⟨outcome, leftAfter⟩
  rcases action.run right with ⟨_, rightAfter⟩
  rintro rfl reached
  rcases outcome with ⟨_ | _⟩ | _ <;> exact ⟨rfl, reached⟩

theorem respects_on_failure {cleanup : Action state Unit} {action : Action state result}
    (cleaning : Respects related cleanup) (respects : Respects related action) :
    Respects related (onFailure cleanup action) := by
  apply respects_bind (respects_attempt respects)
  intro tried
  cases tried with
  | ok value => exact respects_pure value
  | error error => exact respects_bind (respects_attempt cleaning) fun _ => respects_fail error

section Concurrence

variable {mine yours : Type} {left : mine} {right : yours} {first : Action mine result}
  {second : Action yours result} {gives : result → mine → yours → Prop}
  {stops : mine → yours → Prop}

/-- Two runs, each in a state of its own, have the same outcome; `gives` relates the states they end
in after a success and `stops` those after a failure. -/
def Concur (left : mine) (right : yours) (first : Action mine result)
    (second : Action yours result) (gives : result → mine → yours → Prop)
    (stops : mine → yours → Prop) : Prop :=
  (first.run left).1 = (second.run right).1 ∧
    match (first.run left).1 with
    | .ok value => gives value (first.run left).2 (second.run right).2
    | .error _ => stops (first.run left).2 (second.run right).2

theorem concur_weaken {gives' : result → mine → yours → Prop} {stops' : mine → yours → Prop}
    (concur : Concur left right first second gives' stops')
    (given : ∀ value after other, gives' value after other → gives value after other)
    (stopped : ∀ after other, stops' after other → stops after other) :
    Concur left right first second gives stops := by
  obtain ⟨same, ends⟩ := concur
  refine ⟨same, ?_⟩
  revert ends
  rcases first.run left with ⟨_ | value, after⟩
  · exact stopped after _
  · exact given value after _

theorem concur_symm (concur : Concur left right first second gives stops) :
    Concur right left second first (fun value other after => gives value after other)
      fun other after => stops after other := by
  obtain ⟨same, ends⟩ := concur
  refine ⟨same.symm, ?_⟩
  rw [← same]
  exact ends

theorem concur_bind {middle : other → mine → yours → Prop} {first : Action mine other}
    {second : Action yours other} {mineNext : other → Action mine result}
    {yoursNext : other → Action yours result}
    (begin : Concur left right first second middle stops)
    (continues : ∀ value after other, middle value after other →
      Concur after other (mineNext value) (yoursNext value) gives stops) :
    Concur left right (first >>= mineNext) (second >>= yoursNext) gives stops := by
  obtain ⟨same, ends⟩ := begin
  unfold Concur
  rw [run_bind, run_bind]
  revert same ends
  rcases first.run left with ⟨outcome, after⟩
  rcases second.run right with ⟨_, other⟩
  rintro rfl ends
  cases outcome with
  | error interrupt => exact ⟨rfl, ends⟩
  | ok value => exact continues value after other ends

theorem concur_pure (value : result) (holds : gives value left right) :
    Concur left right (pure value) (pure value) gives stops :=
  ⟨rfl, holds⟩

theorem concur_fail (error : QueryError) (holds : stops left right) :
    Concur left right (fail error) (fail error : Action yours result) gives stops :=
  ⟨rfl, holds⟩

theorem concur_of_in_step {related : state → state → Prop} {left right : state}
    {first second : Action state result} (inStep : InStep related left right first second) :
    Concur left right first second (fun _ => related) related := by
  obtain ⟨same, reached⟩ := inStep
  refine ⟨same, ?_⟩
  split <;> exact reached

/-- A query error becomes an answer; a column index outside its row still stops both runs. -/
theorem concur_attempt {gives : Except QueryError result → mine → yours → Prop}
    (concur : Concur left right first second (fun value => gives (.ok value))
      fun after other => (∀ error, gives (.error error) after other) ∧ stops after other) :
    Concur left right first.attempt second.attempt gives stops := by
  obtain ⟨same, ends⟩ := concur
  unfold Concur
  rw [run_attempt, run_attempt]
  revert same ends
  rcases first.run left with ⟨outcome, after⟩
  rcases second.run right with ⟨_, other⟩
  rintro rfl ends
  rcases outcome with ⟨error | _⟩ | value
  · exact ⟨rfl, ends.1 error⟩
  · exact ⟨rfl, ends.2⟩
  · exact ⟨rfl, ends⟩

theorem attempt_of_except (action : Action mine result) :
    (action.attempt >>= ofExcept) = action := by
  refine ExceptT.ext (funext fun start => ?_)
  rw [run_bind, run_attempt]
  rcases action.run start with ⟨⟨_ | _⟩ | _, _⟩ <;> rfl

/-- What each run does by itself holds as well. -/
theorem concur_and {givesMine : result → mine → Prop} {stopsMine : mine → Prop}
    {givesYours : result → yours → Prop} {stopsYours : yours → Prop}
    (concur : Concur left right first second gives stops)
    (mineEnds : EndsIn left first givesMine fun _ => stopsMine)
    (yoursEnds : EndsIn right second givesYours fun _ => stopsYours) :
    Concur left right first second
      (fun value after other => gives value after other ∧ givesMine value after ∧
        givesYours value other)
      fun after other => stops after other ∧ stopsMine after ∧ stopsYours other := by
  obtain ⟨same, ends⟩ := concur
  have mineMeets := mineEnds.2
  have yoursMeets := yoursEnds.2
  refine ⟨same, ?_⟩
  unfold Meets at mineMeets yoursMeets
  revert same ends mineMeets yoursMeets
  rcases first.run left with ⟨outcome, after⟩
  rcases second.run right with ⟨_, other⟩
  rintro rfl ends mineMeets yoursMeets
  cases outcome <;> exact ⟨ends, mineMeets, yoursMeets⟩

/-- A first step of one run alone, which cannot fail. -/
theorem concur_mine_first {middle : other → mine → Prop} {step : Action mine other}
    {next : other → Action mine result} (begin : EndsIn left step middle fun _ _ => False)
    (continues : ∀ value after, middle value after →
      Concur after right (next value) second gives stops) :
    Concur left right (step >>= next) second gives stops := by
  have meets := begin.2
  unfold Concur
  rw [run_bind]
  unfold Meets at meets
  revert meets
  rcases step.run left with ⟨_ | value, after⟩
  · exact False.elim
  · exact continues value after

/-- A first step of the other run alone, which cannot fail. -/
theorem concur_yours_first {middle : other → yours → Prop} {step : Action yours other}
    {next : other → Action yours result} (begin : EndsIn right step middle fun _ _ => False)
    (continues : ∀ value after, middle value after →
      Concur left after first (next value) gives stops) :
    Concur left right first (step >>= next) gives stops := by
  have meets := begin.2
  unfold Concur
  rw [run_bind]
  unfold Meets at meets
  revert meets
  rcases step.run right with ⟨_ | value, after⟩
  · exact False.elim
  · exact continues value after

/-- A last step of one run alone, which cannot fail. -/
theorem concur_mine_last {last : result → Action mine result}
    {middle : result → mine → yours → Prop}
    (begin : Concur left right first second middle stops)
    (finishes : ∀ value after other, middle value after other →
      EndsIn after (last value) (fun given final => given = value ∧ gives value final other)
        fun _ _ => False) :
    Concur left right (first >>= last) second gives stops := by
  rw [← bind_pure second]
  apply concur_bind begin
  intro value after other holds
  rw [← bind_pure (last value)]
  apply concur_mine_first (finishes value after other holds)
  rintro given final ⟨rfl, holds⟩
  exact concur_pure given holds

/-- A last step of the other run alone, which cannot fail. -/
theorem concur_yours_last {last : result → Action yours result}
    {middle : result → mine → yours → Prop}
    (begin : Concur left right first second middle stops)
    (finishes : ∀ value after other, middle value after other →
      EndsIn other (last value) (fun given final => given = value ∧ gives value after final)
        fun _ _ => False) :
    Concur left right first (second >>= last) gives stops := by
  rw [← bind_pure first]
  apply concur_bind begin
  intro value after other holds
  rw [← bind_pure (last value)]
  apply concur_yours_first (finishes value after other holds)
  rintro given final ⟨rfl, holds⟩
  exact concur_pure given holds

end Concurrence

end QueryExec.Action
