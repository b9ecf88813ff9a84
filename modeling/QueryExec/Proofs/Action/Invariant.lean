import QueryExec.Proofs.Action.Outcome

/-!
Steps that keep an invariant of their state, however they end. The rules follow the ways in which
steps are put together, so that an invariant is shown of the smallest steps only.
-/

namespace QueryExec.Action

variable {state result other : Type} {holds : state → Prop}

/-- The step keeps an invariant of its state, however it ends. -/
def Keeps (holds : state → Prop) (action : Action state result) : Prop :=
  ∀ start, holds start → EndsIn start action (fun _ after => holds after) fun _ after => holds after

/-- However a step ends, it leaves a state. -/
theorem keeps_of_reaches {action : Action state result}
    (reaches : ∀ start, holds start → holds (action.run start).2) : Keeps holds action := by
  intro start kept
  have reached := reaches start kept
  refine ⟨rfl, ?_⟩
  unfold Meets
  split <;> exact reached

theorem keeps_pure (value : result) : Keeps holds (pure value) :=
  fun _ kept => agree_pure value kept

theorem keeps_fail (error : QueryError) : Keeps holds (fail error : Action state result) :=
  fun _ kept => agree_fail error kept

theorem keeps_modify {step : state → state} (keeps : ∀ before, holds before → holds (step before)) :
    Keeps holds (modify step) :=
  fun start kept => ⟨rfl, keeps start kept⟩

theorem keeps_set {value : state} (held : holds value) : Keeps holds (set value) :=
  fun _ _ => ⟨rfl, held⟩

/-- What follows starts from the state that was seen. -/
theorem keeps_get {next : state → Action state result}
    (keeps : ∀ seen, holds seen → Keeps holds (next seen)) : Keeps holds (get >>= next) :=
  fun start kept => keeps start kept start kept

theorem keeps_bind {action : Action state other} {next : other → Action state result}
    (first : Keeps holds action) (second : ∀ value, Keeps holds (next value)) :
    Keeps holds (action >>= next) :=
  fun start kept => agree_bind (first start kept) fun value after => second value after

/-- What is answered has no part in the state. -/
theorem keeps_answer {action : Action state other} (keeps : Keeps holds action)
    (answer : other → result) : Keeps holds (action >>= fun value => pure (answer value)) :=
  keeps_bind keeps fun _ => keeps_pure _

theorem keeps_attempt {action : Action state result} (keeps : Keeps holds action) :
    Keeps holds action.attempt := by
  intro start kept
  refine agree_attempt (agree_weaken (keeps start kept) (fun _ _ => id) ?_)
  rintro (_ | _) after kept <;> exact kept

theorem keeps_of_except (outcome : Except QueryError result) : Keeps holds (ofExcept outcome) :=
  fun _ kept => agree_of_except outcome (fun _ _ => kept) fun _ _ => kept

theorem keeps_of_option (error : QueryError) (found : Option result) :
    Keeps holds (ofOption error found) := by
  cases found with
  | some value => exact keeps_pure value
  | none => exact keeps_fail error

theorem keeps_index (items : List result) (position : Nat) :
    Keeps holds (index items position) := by
  intro start kept
  unfold index
  split <;> exact ⟨rfl, kept⟩

/-- A step on a part of the state, whose own invariant is all that the part is held to. -/
theorem keeps_on_part {inner : Type} {part : inner → Prop} {get : state → inner}
    {put : inner → state → state} {action : Action inner result}
    (seen : ∀ whole, holds whole → part (get whole))
    (restored : ∀ whole changed, holds whole → part changed → holds (put changed whole))
    (keeps : Keeps part action) : Keeps holds (action.onPart get put) :=
  fun start kept => agree_on_part (agree_weaken (keeps (get start) (seen start kept))
    (fun _ changed held => restored start changed kept held)
    fun _ changed held => restored start changed kept held)

theorem keeps_on_failure {cleanup : Action state Unit} {action : Action state result}
    (cleaning : Keeps holds cleanup) (keeps : Keeps holds action) :
    Keeps holds (onFailure cleanup action) := by
  apply keeps_bind (keeps_attempt keeps)
  intro tried
  cases tried with
  | ok value => exact keeps_pure value
  | error error => exact keeps_bind (keeps_attempt cleaning) fun _ => keeps_fail error

theorem keeps_at_column {action : Action state result} (keeps : Keeps holds action)
    (column : Nat) : Keeps holds (action.atColumn column) := by
  refine keeps_of_reaches fun start kept => ?_
  have reached : holds (action.run start).2 := reaches_of_ends (keeps start kept)
  rw [run_at_column]
  revert reached
  rcases action.run start with ⟨⟨_ | _⟩ | _, after⟩ <;> exact id

theorem keeps_map {item : Type} {step : item → Action state result} (items : List item)
    (keeps : ∀ member, Keeps holds (step member)) : Keeps holds (items.mapM step) := by
  induction items with
  | nil => exact keeps_pure []
  | cons first rest induction =>
      rw [List.mapM_cons]
      exact keeps_bind (keeps first) fun _ => keeps_bind induction fun _ => keeps_pure _

theorem keeps_for {item : Type} {step : item → Action state PUnit} (items : List item)
    (keeps : ∀ member, Keeps holds (step member)) : Keeps holds (items.forM step) := by
  induction items with
  | nil => exact keeps_pure _
  | cons first rest induction => exact keeps_bind (keeps first) fun _ => induction

theorem keeps_fold {item : Type} {step : result → item → Action state result} (items : List item)
    (keeps : ∀ before member, Keeps holds (step before member)) (start : result) :
    Keeps holds (items.foldlM step start) := by
  induction items generalizing start with
  | nil => exact keeps_pure start
  | cons first rest induction =>
      rw [List.foldlM_cons]
      exact keeps_bind (keeps start first) induction

theorem keeps_of_yields {action : Action state result} {outcome : Except Interrupt result}
    (yields : Yields holds action outcome) : Keeps holds action :=
  keeps_of_reaches fun start kept => (yields start kept).2

end QueryExec.Action
