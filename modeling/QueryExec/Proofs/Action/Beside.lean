import Mathlib.Order.Defs.PartialOrder
import QueryExec.Proofs.Action.Agreement

/-!
Two runs beside each other, each in a state of its own. Their steps correspond if they end alike:
with answers that correspond or with the same interrupt, and in states that correspond again. What
corresponds to what grows while the runs go on, so all of it is relative to a world. The states may
even be of different types, as those of a run and of the same run with something recorded.
-/

namespace QueryExec.Action

variable {World mine yours result partner other another : Type} [Preorder World]

/-- Two ends that are alike: `gives` relates what was answered, `stops` what is left of stopped
steps. -/
def EndAlike (gives : result → partner → mine → yours → Prop) (stops : mine → yours → Prop) :
    Except Interrupt result × mine → Except Interrupt partner × yours → Prop
  | (.ok value, after), (.ok same, last) => gives value same after last
  | (.error interrupt, after), (.error same, last) => interrupt = same ∧ stops after last
  | _, _ => False

/-- Two ends that are alike, with states that correspond in a later world. -/
abbrev EndLater (states : World → mine → yours → Prop) (world : World)
    (gives : World → result → partner → Prop) :
    Except Interrupt result × mine → Except Interrupt partner × yours → Prop :=
  EndAlike
    (fun value same after last =>
      ∃ later, world ≤ later ∧ states later after last ∧ gives later value same)
    fun after last => ∃ later, world ≤ later ∧ states later after last

/-- From corresponding states the steps end alike. -/
def Correspond (states : World → mine → yours → Prop) (world : World)
    (first : Action mine result) (second : Action yours partner)
    (gives : World → result → partner → Prop) : Prop :=
  ∀ left right, states world left right →
    EndLater states world gives (first.run left) (second.run right)

section Ends

variable {gives : result → partner → mine → yours → Prop} {stops : mine → yours → Prop}
  {first : Except Interrupt result × mine} {second : Except Interrupt partner × yours}

/-- Alike ends are both at an answer or both at one interrupt. -/
theorem end_alike_cases (alike : EndAlike gives stops first second) :
    (∃ value same after last, first = (.ok value, after) ∧ second = (.ok same, last) ∧
      gives value same after last) ∨
    ∃ interrupt after last, first = (.error interrupt, after) ∧
      second = (.error interrupt, last) ∧ stops after last := by
  rcases first with ⟨interrupt | value, after⟩ <;> rcases second with ⟨same | partner, last⟩
  · obtain ⟨rfl, stopped⟩ := alike
    exact .inr ⟨interrupt, after, last, rfl, rfl, stopped⟩
  · exact alike.elim
  · exact alike.elim
  · exact .inl ⟨value, partner, after, last, rfl, rfl, alike⟩

theorem end_alike_imp {given : result → partner → mine → yours → Prop}
    {stopped : mine → yours → Prop} (alike : EndAlike given stopped first second)
    (answers : ∀ value same after last, given value same after last → gives value same after last)
    (halts : ∀ after last, stopped after last → stops after last) :
    EndAlike gives stops first second := by
  rcases end_alike_cases alike with ⟨value, same, after, last, rfl, rfl, held⟩ |
    ⟨interrupt, after, last, rfl, rfl, held⟩
  · exact answers _ _ _ _ held
  · exact ⟨rfl, halts _ _ held⟩

end Ends

section Rules

variable {states : World → mine → yours → Prop} {world : World}
  {gives : World → result → partner → Prop} {first : Action mine result}
  {second : Action yours partner}

/-- What ends alike as seen from a later world does so as seen from an earlier one. -/
theorem end_later_from {later : World} (grown : world ≤ later)
    {first : Except Interrupt result × mine} {second : Except Interrupt partner × yours}
    (ends : EndLater states later gives first second) :
    EndLater states world gives first second := by
  refine end_alike_imp ends ?_ ?_
  · rintro value same after last ⟨final, further, held⟩
    exact ⟨final, le_trans grown further, held⟩
  · rintro after last ⟨final, further, held⟩
    exact ⟨final, le_trans grown further, held⟩

theorem correspond_imp {given : World → result → partner → Prop}
    (correspond : Correspond states world first second given)
    (implies : ∀ later value same, given later value same → gives later value same) :
    Correspond states world first second gives := by
  intro left right held
  refine end_alike_imp (correspond left right held) ?_ fun _ _ => id
  rintro value same after last ⟨later, grown, reached, answered⟩
  exact ⟨later, grown, reached, implies _ _ _ answered⟩

theorem correspond_pure {value : result} {same : partner} (given : gives world value same) :
    Correspond states world (pure value) (pure same) gives :=
  fun _ _ held => ⟨world, le_rfl, held, given⟩

theorem correspond_fail (error : QueryError) :
    Correspond states world (fail error : Action mine result) (fail error : Action yours partner)
      gives :=
  fun _ _ held => ⟨rfl, world, le_rfl, held⟩

theorem correspond_bind {middle : World → other → another → Prop} {begun : Action mine other}
    {started : Action yours another} {next : other → Action mine result}
    {following : another → Action yours partner}
    (begin : Correspond states world begun started middle)
    (continues : ∀ later value same, world ≤ later → middle later value same →
      Correspond states later (next value) (following same) gives) :
    Correspond states world (begun >>= next) (started >>= following) gives := by
  intro left right held
  rw [run_bind, run_bind]
  rcases end_alike_cases (begin left right held) with
    ⟨value, same, after, last, ran, went, later, grown, reached, given⟩ |
    ⟨interrupt, after, last, ran, went, stopped⟩
  · rw [ran, went]
    exact end_later_from grown (continues later value same grown given after last reached)
  · rw [ran, went]
    exact ⟨rfl, stopped⟩

/-- The same, where what holds in between is said. -/
theorem correspond_then (middle : World → other → another → Prop) {begun : Action mine other}
    {started : Action yours another} {next : other → Action mine result}
    {following : another → Action yours partner}
    (begin : Correspond states world begun started middle)
    (continues : ∀ later value same, world ≤ later → middle later value same →
      Correspond states later (next value) (following same) gives) :
    Correspond states world (begun >>= next) (started >>= following) gives :=
  correspond_bind begin continues

theorem correspond_modify {step : mine → mine} {following : yours → yours}
    (keeps : ∀ left right, states world left right → states world (step left) (following right)) :
    Correspond states world (modify step) (modify following) fun _ _ _ => True :=
  fun left right held => ⟨world, le_rfl, keeps left right held, trivial⟩

/-- Both look at their states; what follows starts from the states that were seen. -/
theorem correspond_get {next : mine → Action mine result} {following : yours → Action yours partner}
    (follows : ∀ left right, states world left right →
      Correspond states world (next left) (following right) gives) :
    Correspond states world (get >>= next) (get >>= following) gives :=
  fun left right held => follows left right held left right held

/-- The outcomes of an attempt: corresponding answers, or one error. -/
def OutcomesAlike (given : result → partner → Prop) :
    Except QueryError result → Except QueryError partner → Prop
  | .ok value, .ok same => given value same
  | .error error, .error same => error = same
  | _, _ => False

theorem correspond_of_except {given : result → partner → Prop}
    {outcome : Except QueryError result} {same : Except QueryError partner}
    (alike : OutcomesAlike given outcome same) :
    Correspond states world (ofExcept outcome) (ofExcept same) fun _ => given := by
  rcases outcome with error | value <;> rcases same with other | partner
  · cases alike
    exact correspond_fail error
  · exact alike.elim
  · exact alike.elim
  · exact correspond_pure alike

/-- A query error becomes an answer; a column index outside its row still stops both. -/
theorem correspond_attempt (correspond : Correspond states world first second gives) :
    Correspond states world first.attempt second.attempt fun later =>
      OutcomesAlike (gives later) := by
  intro left right held
  rw [run_attempt, run_attempt]
  rcases end_alike_cases (correspond left right held) with
    ⟨value, same, after, last, ran, went, reached⟩ | ⟨interrupt, after, last, ran, went, stopped⟩
  · rw [ran, went]
    exact reached
  · rw [ran, went]
    obtain ⟨later, grown, reached⟩ := stopped
    cases interrupt with
    | failed error => exact ⟨later, grown, reached, rfl⟩
    | indexOutOfRange => exact ⟨rfl, later, grown, reached⟩

theorem correspond_on_failure {cleanup : Action mine Unit} {cleaning : Action yours Unit}
    (cleans : ∀ later, world ≤ later →
      Correspond states later cleanup cleaning fun _ _ _ => True)
    (correspond : Correspond states world first second gives) :
    Correspond states world (onFailure cleanup first) (onFailure cleaning second) gives := by
  refine correspond_bind (correspond_attempt correspond) ?_
  rintro later (error | value) (same | partner) grown alike
  · cases alike
    exact correspond_bind (correspond_attempt (cleans later grown)) fun _ _ _ _ _ =>
      correspond_fail error
  · exact alike.elim
  · exact alike.elim
  · exact correspond_pure alike

/-- Steps on a part of each state, where the rest corresponds in later worlds too. -/
theorem correspond_on_part {inner outer : Type} {parts : World → inner → outer → Prop}
    {get : mine → inner} {put : inner → mine → mine} {take : yours → outer}
    {give : outer → yours → yours} {action : Action inner result} {acting : Action outer partner}
    (part : ∀ left right, states world left right → parts world (get left) (take right))
    (rest : ∀ later left right below beside, world ≤ later → states world left right →
      parts later below beside → states later (put below left) (give beside right))
    (correspond : Correspond parts world action acting gives) :
    Correspond states world (action.onPart get put) (acting.onPart take give) gives := by
  intro left right held
  change EndLater states world gives
    ((action.run (get left)).1, put (action.run (get left)).2 left)
    ((acting.run (take right)).1, give (acting.run (take right)).2 right)
  rcases end_alike_cases (correspond _ _ (part left right held)) with
    ⟨value, same, after, last, ran, went, later, grown, reached, given⟩ |
    ⟨interrupt, after, last, ran, went, later, grown, reached⟩
  · rw [ran, went]
    exact ⟨later, grown, rest _ _ _ _ _ grown held reached, given⟩
  · rw [ran, went]
    exact ⟨rfl, later, grown, rest _ _ _ _ _ grown held reached⟩

end Rules

end QueryExec.Action
