import QueryExec.Proofs.Action.Outcome

/-!
Two runs in tandem, of which the second may stop where the first goes on. As long as they are
together their answers are related and they fail alike. They part when the second stops with an
error; from then on only the first counts, but it is still held to what it would answer beside a
partner, so that one proof says what both runs do together and what the first does alone.
-/

namespace QueryExec.Action

/-- Whether the second run still goes along. -/
inductive Company
  | together
  | alone
deriving DecidableEq

variable {state result other : Type}

/-- The first run has ended in a way that a partner could have ended in as well. -/
def EndsAlone (calm : Interrupt → Prop)
    (gives : Company → result → result → state → state → Prop)
    (stops : Company → Interrupt → state → state → Prop)
    (last : Except Interrupt result × state) : Prop :=
  match last.1 with
  | .ok value => ∃ partner right, gives .alone value partner last.2 right
  | .error interrupt => calm interrupt ∧ ∃ right, stops .alone interrupt last.2 right

/-- Both runs have ended alike. -/
def EndTogether (calm : Interrupt → Prop)
    (gives : Company → result → result → state → state → Prop)
    (stops : Company → Interrupt → state → state → Prop)
    (first second : Except Interrupt result × state) : Prop :=
  match first.1, second.1 with
  | .ok value, .ok partner => gives .together value partner first.2 second.2
  | .error interrupt, .error same =>
      interrupt = same ∧ calm interrupt ∧ stops .together interrupt first.2 second.2
  | _, _ => False

/-- Two steps in tandem from two states. What stops the first is calm, and the second stops alone
only where `parts` admits it. -/
def Tandem (calm : Interrupt → Prop) (parts : Prop) (company : Company) (left right : state)
    (first second : Action state result)
    (gives : Company → result → result → state → state → Prop)
    (stops : Company → Interrupt → state → state → Prop) : Prop :=
  match company with
  | .together => EndTogether calm gives stops (first.run left) (second.run right) ∨
      parts ∧ (∃ interrupt, (second.run right).1 = .error interrupt) ∧
        EndsAlone calm gives stops (first.run left)
  | .alone => EndsAlone calm gives stops (first.run left)

section Rules

variable {calm : Interrupt → Prop} {parts : Prop} {company : Company} {left right : state}
  {first second : Action state result}
  {gives : Company → result → result → state → state → Prop}
  {stops : Company → Interrupt → state → state → Prop}

theorem ends_alone_imp {gives' : Company → result → result → state → state → Prop}
    {stops' : Company → Interrupt → state → state → Prop}
    {last : Except Interrupt result × state} (ends : EndsAlone calm gives' stops' last)
    (given : ∀ company value partner left right, gives' company value partner left right →
      gives company value partner left right)
    (stopped : ∀ company interrupt left right, stops' company interrupt left right →
      stops company interrupt left right) : EndsAlone calm gives stops last := by
  rcases last with ⟨interrupt | value, after⟩
  · obtain ⟨still, other, reached⟩ := ends
    exact ⟨still, other, stopped _ _ _ _ reached⟩
  · obtain ⟨partner, other, reached⟩ := ends
    exact ⟨partner, other, given _ _ _ _ _ reached⟩

/-- Runs that end together are both at an answer or both at the same failure. -/
theorem end_together_cases {first second : Except Interrupt result × state}
    (ends : EndTogether calm gives stops first second) :
    (∃ value partner after last, first = (.ok value, after) ∧ second = (.ok partner, last) ∧
      gives .together value partner after last) ∨
    ∃ interrupt after last, first = (.error interrupt, after) ∧
      second = (.error interrupt, last) ∧ calm interrupt ∧
      stops .together interrupt after last := by
  rcases first with ⟨interrupt | value, after⟩ <;> rcases second with ⟨same | partner, last⟩
  · obtain ⟨rfl, still, stopped⟩ := ends
    exact .inr ⟨interrupt, after, last, rfl, rfl, still, stopped⟩
  · exact ends.elim
  · exact ends.elim
  · exact .inl ⟨value, partner, after, last, rfl, rfl, ends⟩

/-- Steps made of steps in tandem are in tandem if the first one's end by itself tells the end of
what is made of it, if both ends together do so, and if what is made of the second stops with it. -/
theorem tandem_cases {outer answer : Type} {whole other : outer}
    {begun started : Action outer answer}
    {gives' : Company → answer → answer → outer → outer → Prop}
    {stops' : Company → Interrupt → outer → outer → Prop}
    (tandem : Tandem calm parts company left right first second gives stops)
    (alone : EndsAlone calm gives stops (first.run left) →
      EndsAlone calm gives' stops' (begun.run whole))
    (together : EndTogether calm gives stops (first.run left) (second.run right) →
      Tandem calm parts .together whole other begun started gives' stops')
    (parted : ∀ interrupt, (second.run right).1 = .error interrupt →
      ∃ later, (started.run other).1 = .error later) :
    Tandem calm parts company whole other begun started gives' stops' := by
  cases company with
  | alone => exact alone tandem
  | together =>
      rcases tandem with ends | ⟨admitted, ⟨interrupt, stopped⟩, ends⟩
      · exact together ends
      · exact .inr ⟨admitted, parted interrupt stopped, alone ends⟩

theorem tandem_weaken {gives' : Company → result → result → state → state → Prop}
    {stops' : Company → Interrupt → state → state → Prop}
    (tandem : Tandem calm parts company left right first second gives' stops')
    (given : ∀ company value partner left right, gives' company value partner left right →
      gives company value partner left right)
    (stopped : ∀ company interrupt left right, stops' company interrupt left right →
      stops company interrupt left right) :
    Tandem calm parts company left right first second gives stops := by
  refine tandem_cases tandem (fun ends => ends_alone_imp ends given stopped) ?_
    fun interrupt failed => ⟨interrupt, failed⟩
  intro ends
  left
  rcases end_together_cases ends with ⟨value, partner, after, last, ran, went, held⟩ |
    ⟨interrupt, after, last, ran, went, still, held⟩
  · rw [ran, went]
    exact given _ _ _ _ _ held
  · rw [ran, went]
    exact ⟨rfl, still, stopped _ _ _ _ held⟩

theorem ends_alone_of_tandem
    (tandem : Tandem calm parts .alone left right first second gives stops) :
    EndsAlone calm gives stops (first.run left) :=
  tandem

/-- Only what the steps do from these states counts. -/
theorem tandem_congr {begun started : Action state result} (same : begun.run left = first.run left)
    (alike : started.run right = second.run right)
    (tandem : Tandem calm parts company left right first second gives stops) :
    Tandem calm parts company left right begun started gives stops := by
  cases company <;> unfold Tandem at * <;> simpa only [same, alike] using tandem

/-- Who has parted does not meet again. -/
theorem tandem_company
    (tandem : Tandem calm parts company left right first second gives stops) :
    Tandem calm parts company left right first second
      (fun later value partner after last =>
        (later = .together → company = .together) ∧ gives later value partner after last)
      fun later interrupt after last =>
        (later = .together → company = .together) ∧ stops later interrupt after last := by
  cases company with
  | together =>
      exact tandem_weaken tandem (fun _ _ _ _ _ given => ⟨fun _ => rfl, given⟩)
        fun _ _ _ _ stopped => ⟨fun _ => rfl, stopped⟩
  | alone =>
      have ends := ends_alone_of_tandem tandem
      unfold Tandem EndsAlone
      unfold EndsAlone at ends
      revert ends
      rcases first.run left with ⟨interrupt | value, after⟩
      · rintro ⟨still, last, stopped⟩
        exact ⟨still, last, id, stopped⟩
      · rintro ⟨partner, last, given⟩
        exact ⟨partner, last, id, given⟩

/-- Runs that never part keep to any leave to part. -/
theorem tandem_steady (tandem : Tandem calm False company left right first second gives stops) :
    Tandem calm parts company left right first second gives stops := by
  cases company with
  | alone => exact tandem
  | together => exact tandem.imp_right fun apart => apart.1.elim

theorem tandem_pure {value partner : result} (given : gives company value partner left right) :
    Tandem calm parts company left right (pure value) (pure partner) gives stops := by
  cases company with
  | alone => exact ⟨partner, right, given⟩
  | together => exact .inl given

theorem tandem_throw {interrupt : Interrupt} (still : calm interrupt)
    (stopped : stops company interrupt left right) :
    Tandem calm parts company left right (throw interrupt) (throw interrupt) gives stops := by
  cases company with
  | alone => exact ⟨still, right, stopped⟩
  | together => exact .inl ⟨rfl, still, stopped⟩

theorem tandem_fail {error : QueryError} (still : calm (.failed error))
    (stopped : stops company (.failed error) left right) :
    Tandem calm parts company left right (fail error) (fail error) gives stops :=
  tandem_throw still stopped

/-- The second run stops here. -/
theorem tandem_part (admitted : parts) {interrupt : Interrupt}
    (stopped : (second.run right).1 = .error interrupt)
    (ends : EndsAlone calm gives stops (first.run left)) :
    Tandem calm parts company left right first second gives stops := by
  cases company with
  | alone => exact ends
  | together => exact .inr ⟨admitted, ⟨interrupt, stopped⟩, ends⟩

theorem ends_alone_bind {middle : Company → other → other → state → state → Prop}
    {begun : Action state other} {next : other → Action state result}
    (begin : EndsAlone calm middle stops (begun.run left))
    (continues : ∀ value partner after last, middle .alone value partner after last →
      EndsAlone calm gives stops ((next value).run after)) :
    EndsAlone calm gives stops ((begun >>= next).run left) := by
  rw [run_bind]
  revert begin
  rcases begun.run left with ⟨interrupt | value, after⟩
  · exact id
  · rintro ⟨partner, last, held⟩
    exact continues value partner after last held

/-- The first steps in tandem, and then the second steps from wherever they lead. -/
theorem tandem_bind {middle : Company → other → other → state → state → Prop}
    {begun started : Action state other} {next following : other → Action state result}
    (begin : Tandem calm parts company left right begun started middle stops)
    (continues : ∀ company value partner after last, middle company value partner after last →
      Tandem calm parts company after last (next value) (following partner) gives stops) :
    Tandem calm parts company left right (begun >>= next) (started >>= following) gives stops := by
  refine tandem_cases begin (fun ends => ends_alone_bind ends fun value partner after last =>
    continues .alone value partner after last) ?_ ?_
  · intro ends
    unfold Tandem
    rw [run_bind, run_bind]
    rcases end_together_cases ends with ⟨value, partner, after, last, ran, went, held⟩ |
      ⟨interrupt, after, last, ran, went, still, held⟩
    · rw [ran, went]
      exact continues .together value partner after last held
    · rw [ran, went]
      exact .inl ⟨rfl, still, held⟩
  · intro interrupt stopped
    refine ⟨interrupt, ?_⟩
    rw [run_bind]
    revert stopped
    rcases started.run right with ⟨same | partner, last⟩
    · intro stopped
      cases stopped
      rfl
    · exact fun impossible => by cases impossible

/-- The same, where what holds in between is said. -/
theorem tandem_then (middle : Company → other → other → state → state → Prop)
    {begun started : Action state other} {next following : other → Action state result}
    (begin : Tandem calm parts company left right begun started middle stops)
    (continues : ∀ company value partner after last, middle company value partner after last →
      Tandem calm parts company after last (next value) (following partner) gives stops) :
    Tandem calm parts company left right (begun >>= next) (started >>= following) gives stops :=
  tandem_bind begin continues

/-- Both runs take what a conversion to a step gives. -/
theorem tandem_of_except {outcome : Except QueryError result}
    (given : ∀ value, outcome = .ok value → gives company value value left right)
    (stopped : ∀ error, outcome = .error error → calm (.failed error) ∧
      stops company (.failed error) left right) :
    Tandem calm parts company left right (ofExcept outcome) (ofExcept outcome) gives stops := by
  cases outcome with
  | ok value => exact tandem_pure (given value rfl)
  | error error => exact tandem_fail (stopped error rfl).1 (stopped error rfl).2

/-- What an attempt makes of a stop: an answer, unless nothing handles it. -/
def Attempted
    (gives : Company → Except QueryError result → Except QueryError result → state → state → Prop)
    (stops : Company → Interrupt → state → state → Prop) (calm : Interrupt → Prop)
    (company : Company) (interrupt : Interrupt) (after last : state) : Prop :=
  match interrupt with
  | .failed error => calm (.failed error) → gives company (.error error) (.error error) after last
  | .indexOutOfRange => stops company .indexOutOfRange after last

/-- Steps that never part may be attempted. -/
theorem tandem_attempt
    {gives : Company → Except QueryError result → Except QueryError result → state → state → Prop}
    (tandem : Tandem calm False company left right first second
      (fun company value partner => gives company (.ok value) (.ok partner))
      (Attempted gives stops calm)) :
    Tandem calm parts company left right first.attempt second.attempt gives stops := by
  cases company with
  | alone =>
      have ends := ends_alone_of_tandem tandem
      unfold Tandem EndsAlone
      rw [run_attempt]
      unfold EndsAlone at ends
      revert ends
      rcases first.run left with ⟨⟨error | _⟩ | value, after⟩
      · rintro ⟨still, last, stopped⟩
        exact ⟨.error error, last, stopped still⟩
      · exact fun ends => ends
      · rintro ⟨partner, last, given⟩
        exact ⟨.ok partner, last, given⟩
  | together =>
      have ends := tandem.resolve_right fun apart => apart.1
      left
      rw [run_attempt, run_attempt]
      rcases end_together_cases ends with ⟨value, partner, after, last, ran, went, given⟩ |
        ⟨error | _, after, last, ran, went, still, stopped⟩
      · rw [ran, went]
        exact given
      · rw [ran, went]
        exact stopped still
      · rw [ran, went]
        exact ⟨rfl, still, stopped⟩

/-- What a cleanup after a query error leaves: its own failure is dropped. -/
def Cleaned (stops : Company → Interrupt → state → state → Prop) (error : QueryError)
    (company : Company) (interrupt : Interrupt) (after last : state) : Prop :=
  match interrupt with
  | .failed _ => stops company (.failed error) after last
  | .indexOutOfRange => stops company .indexOutOfRange after last

section Cleanup

variable {cleanup cleaning : Action state Unit} {raw : Company → Interrupt → state → state → Prop}
  (cleans : ∀ company error after last, raw company (.failed error) after last →
    Tandem calm False company after last cleanup cleaning
      (fun company _ _ => stops company (.failed error)) (Cleaned stops error))
  (skips : ∀ company after last, raw company .indexOutOfRange after last →
    stops company .indexOutOfRange after last)

include cleans skips

theorem ends_alone_on_failure (ends : EndsAlone calm gives raw (first.run left)) :
    EndsAlone calm gives stops ((onFailure cleanup first).run left) := by
  rw [run_on_failure]
  revert ends
  rcases first.run left with ⟨⟨error | _⟩ | value, after⟩
  · rintro ⟨still, last, stopped⟩
    have cleaned := ends_alone_of_tandem (cleans .alone error after last stopped)
    dsimp only
    revert cleaned
    rcases cleanup.run after with ⟨⟨_ | _⟩ | _, final⟩
    · exact fun ends => ⟨still, ends.2⟩
    · exact fun ends => ends
    · rintro ⟨_, ends⟩
      exact ⟨still, ends⟩
  · rintro ⟨still, last, stopped⟩
    exact ⟨still, last, skips .alone after last stopped⟩
  · exact fun ends => ends

theorem end_together_on_failure
    (ends : EndTogether calm gives raw (first.run left) (second.run right)) :
    EndTogether calm gives stops ((onFailure cleanup first).run left)
      ((onFailure cleaning second).run right) := by
  rw [run_on_failure, run_on_failure]
  rcases end_together_cases ends with ⟨value, partner, after, last, ran, went, given⟩ |
    ⟨error | _, after, last, ran, went, still, stopped⟩
  · rw [ran, went]
    exact given
  · rw [ran, went]
    dsimp only
    have cleaned := (cleans .together error after last stopped).resolve_right fun apart => apart.1
    rcases end_together_cases cleaned with ⟨_, _, final, other, cleared, wiped, ends⟩ |
      ⟨_ | _, final, other, cleared, wiped, calm, ends⟩
    · rw [cleared, wiped]
      exact ⟨rfl, still, ends⟩
    · rw [cleared, wiped]
      exact ⟨rfl, still, ends⟩
    · rw [cleared, wiped]
      exact ⟨rfl, calm, ends⟩
  · rw [ran, went]
    exact ⟨rfl, still, skips .together after last stopped⟩

/-- Steps with cleanups that never part. -/
theorem tandem_on_failure
    (tandem : Tandem calm parts company left right first second gives raw) :
    Tandem calm parts company left right (onFailure cleanup first) (onFailure cleaning second) gives
      stops := by
  refine tandem_cases tandem (ends_alone_on_failure cleans skips)
    (fun ends => .inl (end_together_on_failure cleans skips ends)) ?_
  intro interrupt stopped
  rw [run_on_failure]
  revert stopped
  rcases second.run right with ⟨⟨error | _⟩ | value, after⟩
  · intro _
    dsimp only
    rcases cleaning.run after with ⟨⟨_ | _⟩ | _, final⟩ <;> exact ⟨_, rfl⟩
  · exact fun _ => ⟨_, rfl⟩
  · exact fun impossible => by cases impossible

end Cleanup

theorem run_at_column_eq (column : Nat) (action : Action state result) (start : state) :
    (action.atColumn column).run start =
      ((action.run start).1.mapError (·.atColumn column), (action.run start).2) := by
  rw [run_at_column]
  rcases action.run start with ⟨⟨error | _⟩ | value, reached⟩ <;> rfl

/-- Steps whose failures are scoped to a column. -/
theorem tandem_at_column (column : Nat)
    (still : ∀ error, calm (.failed error) → calm (.failed (error.atColumn column)))
    {raw : Company → Interrupt → state → state → Prop}
    (tandem : Tandem calm parts company left right first second gives raw)
    (renamed : ∀ company interrupt after last, raw company interrupt after last →
      stops company (interrupt.atColumn column) after last) :
    Tandem calm parts company left right (first.atColumn column) (second.atColumn column) gives
      stops := by
  have located (interrupt) (own : calm interrupt) : calm (interrupt.atColumn column) := by
    cases interrupt with
    | failed error => exact still error own
    | indexOutOfRange => exact own
  refine tandem_cases tandem ?_ ?_ ?_
  · rw [run_at_column_eq]
    rcases first.run left with ⟨interrupt | value, after⟩
    · rintro ⟨own, last, stopped⟩
      exact ⟨located interrupt own, last, renamed _ _ _ _ stopped⟩
    · exact id
  · intro ends
    left
    rw [run_at_column_eq, run_at_column_eq]
    rcases end_together_cases ends with ⟨value, partner, after, last, ran, went, given⟩ |
      ⟨interrupt, after, last, ran, went, own, stopped⟩
    · rw [ran, went]
      exact given
    · rw [ran, went]
      exact ⟨rfl, located interrupt own, renamed _ _ _ _ stopped⟩
  · intro interrupt stopped
    rw [run_at_column_eq, stopped]
    exact ⟨_, rfl⟩

/-- A step on a part of the state. -/
theorem tandem_on_part {outer : Type} {whole partner : outer} {get : outer → state}
    {put : state → outer → outer} {gives : Company → result → result → outer → outer → Prop}
    {stops : Company → Interrupt → outer → outer → Prop}
    (tandem : Tandem calm parts company (get whole) (get partner) first second
      (fun company value same after last =>
        gives company value same (put after whole) (put last partner))
      fun company interrupt after last =>
        stops company interrupt (put after whole) (put last partner)) :
    Tandem calm parts company whole partner (onPart get put first) (onPart get put second) gives
      stops := by
  refine tandem_cases tandem ?_ .inl fun interrupt stopped => ⟨interrupt, stopped⟩
  change EndsAlone calm _ _ (first.run (get whole)) → EndsAlone calm gives stops
    ((first.run (get whole)).1, put (first.run (get whole)).2 whole)
  rcases first.run (get whole) with ⟨interrupt | value, after⟩
  · rintro ⟨still, last, stopped⟩
    exact ⟨still, put last partner, stopped⟩
  · rintro ⟨same, last, given⟩
    exact ⟨same, put last partner, given⟩

end Rules

end QueryExec.Action
