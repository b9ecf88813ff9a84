import QueryExec.Action
import QueryExec.Proofs.Action.Agreement

/-!
Steps whose outcome does not depend on the state they start from, as long as that state is good;
the state they leave is good again.
-/

namespace QueryExec

def Interrupt.atColumn (column : Nat) : Interrupt → Interrupt
  | .failed error => .failed (error.atColumn column)
  | .indexOutOfRange => .indexOutOfRange

/-- Of two outcomes in a row, both are values where the last one is. -/
theorem ok_of_bind {failure result other : Type} {first : Except failure other}
    {next : other → Except failure result} {value : result} (both : first >>= next = .ok value) :
    ∃ middle, first = .ok middle ∧ next middle = .ok value := by
  cases first with
  | error _ => cases both
  | ok middle => exact ⟨middle, rfl, both⟩

theorem ok_of_map_error {failure other result : Type} {outcome : Except failure result}
    {rename : failure → other} {value : result} (mapped : outcome.mapError rename = .ok value) :
    outcome = .ok value := by
  cases outcome <;> cases mapped
  rfl

namespace Action

variable {state result other : Type} {good : state → Prop}

/-- From every good state the step ends with this outcome and in a good state. -/
def Yields (good : state → Prop) (action : Action state result)
    (outcome : Except Interrupt result) : Prop :=
  ∀ start, good start → (action.run start).1 = outcome ∧ good (action.run start).2

/-- The step that has an outcome and changes nothing. -/
def ofOutcome : Except Interrupt result → Action state result
  | .ok value => pure value
  | .error interrupt => throw interrupt

theorem yields_of_outcome (outcome : Except Interrupt result) :
    Yields good (ofOutcome outcome) outcome := by
  intro start holds
  cases outcome <;> exact ⟨rfl, holds⟩

theorem yields_pure (value : result) : Yields good (pure value) (.ok value) :=
  fun _ holds => ⟨rfl, holds⟩

theorem yields_fail (error : QueryError) :
    Yields good (fail error : Action state result) (.error (.failed error)) :=
  fun _ holds => ⟨rfl, holds⟩

theorem yields_modify {step : state → state} (keeps : ∀ start, good start → good (step start)) :
    Yields good (modify step) (.ok ()) :=
  fun start holds => ⟨rfl, keeps start holds⟩

/-- Outcomes follow one another as the steps do. -/
theorem yields_bind {action : Action state other} {next : other → Action state result}
    {outcome : Except Interrupt other} {last : other → Except Interrupt result}
    (first : Yields good action outcome) (second : ∀ value, Yields good (next value) (last value)) :
    Yields good (action >>= next) (outcome >>= last) := by
  intro start holds
  obtain ⟨same, reached⟩ := first start holds
  rw [run_bind]
  revert same reached
  rcases action.run start with ⟨interrupt | value, after⟩
  · intro alike reached
    subst alike
    exact ⟨rfl, reached⟩
  · intro alike reached
    subst alike
    exact second value after reached

/-- The same from one state: where the outcomes of two steps are known, so is the outcome of one
after the other. -/
theorem agree_outcome_bind {action : Action state other} {next : other → Action state result}
    {outcome : Except Interrupt other} {last : other → Except Interrupt result} {start : state}
    {middle : other → state → Prop} {gives : result → state → Prop} {stops : state → Prop}
    (first : EndsIn start action (fun value after => outcome = .ok value ∧ middle value after)
      fun interrupt after => outcome = .error interrupt ∧ stops after)
    (second : ∀ value after, middle value after →
      EndsIn after (next value) (fun given final => last value = .ok given ∧ gives given final)
        fun interrupt final => last value = .error interrupt ∧ stops final) :
    EndsIn start (action >>= next)
      (fun given final => (outcome >>= last) = .ok given ∧ gives given final)
      fun interrupt final => (outcome >>= last) = .error interrupt ∧ stops final := by
  cases outcome with
  | error interrupt =>
      refine agree_bind (agree_weaken first (fun _ _ => id) ?_) ?_
      · intro _ after ends
        obtain ⟨same, stopped⟩ := ends
        cases same
        exact ⟨rfl, stopped⟩
      · intro value after ends
        obtain ⟨impossible, _⟩ := ends
        cases impossible
  | ok found =>
      refine agree_bind (agree_weaken first (fun _ _ => id) ?_) ?_
      · intro _ _ ends
        obtain ⟨impossible, _⟩ := ends
        cases impossible
      · intro value after ends
        obtain ⟨same, reached⟩ := ends
        cases same
        exact second found after reached

/-- The outcome of taking the entry at an index. -/
def entry (items : List result) (position : Nat) : Except Interrupt result :=
  match items[position]? with
  | some item => .ok item
  | none => .error .indexOutOfRange

theorem yields_index (good : state → Prop) (items : List result) (position : Nat) :
    Yields good (index items position) (entry items position) := by
  intro start holds
  unfold index entry
  cases items[position]? <;> exact ⟨rfl, holds⟩

theorem yields_at_column {action : Action state result} {outcome : Except Interrupt result}
    (yields : Yields good action outcome) (column : Nat) :
    Yields good (action.atColumn column) (outcome.mapError (·.atColumn column)) := by
  intro start holds
  obtain ⟨same, reached⟩ := yields start holds
  rw [run_at_column]
  revert same reached
  rcases action.run start with ⟨⟨error | _⟩ | value, after⟩ <;> rintro rfl reached <;>
    exact ⟨rfl, reached⟩

theorem yields_map {item : Type} {step : item → Action state result}
    {value : item → Except Interrupt result} (items : List item)
    (yields : ∀ member, Yields good (step member) (value member)) :
    Yields good (items.mapM step) (items.mapM value) := by
  induction items with
  | nil => exact yields_pure []
  | cons first rest induction =>
      rw [List.mapM_cons, List.mapM_cons]
      exact yields_bind (yields first) fun _ => yields_bind induction fun _ => yields_pure _

/-- Two steps with one outcome. -/
def SameOutcome (good : state → Prop) (first second : Action state result) : Prop :=
  ∃ outcome, Yields good first outcome ∧ Yields good second outcome

theorem same_outcome_bind {first second : Action state other}
    {leftNext rightNext : other → Action state result} (begin : SameOutcome good first second)
    (continues : ∀ value, SameOutcome good (leftNext value) (rightNext value)) :
    SameOutcome good (first >>= leftNext) (second >>= rightNext) := by
  obtain ⟨outcome, left, right⟩ := begin
  have last := fun value => (continues value).choose_spec
  exact ⟨outcome >>= fun value => (continues value).choose,
    yields_bind left fun value => (last value).1, yields_bind right fun value => (last value).2⟩

/-- The outcome that is shared is the outcome from any one good state. -/
theorem SameOutcome.left_yields {first second : Action state result} {start : state}
    (same : SameOutcome good first second) (holds : good start) :
    Yields good first (second.run start).1 := by
  obtain ⟨outcome, left, right⟩ := same
  rw [(right start holds).1]
  exact left

end Action

end QueryExec
