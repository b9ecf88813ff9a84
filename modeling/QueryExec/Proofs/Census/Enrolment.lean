import QueryExec.Proofs.Cursor.Lawful
import QueryExec.Proofs.Row.Meaning

/-!
How a census grows. A step enrols what it makes: from a state that a census covers it ends, in
whatever way, in a state that a later census covers, and what it answers is in that census. The
rules put such steps together; the engine steps are the first of them. Only projections add to a
census, and the identities of the rows to come are not in it yet.
-/

namespace QueryExec

open QueryExec.Action

section Journals

variable {census : Census} {result : Type}

/-- Some key is not in a table. -/
theorem Table.absent_beyond {value : Type} (entries : List (Nat × value)) :
    ∃ bound, ∀ key, bound ≤ key → Table.lookup key entries = none := by
  induction entries with
  | nil => exact ⟨0, fun _ _ => rfl⟩
  | cons entry rest induction =>
      obtain ⟨bound, absent⟩ := induction
      refine ⟨max bound (entry.1 + 1), fun key beyond => ?_⟩
      have different : entry.1 ≠ key := by omega
      rw [Table.lookup, if_neg different]
      exact absent key (by omega)

/-- A context that was never used is not cancelled. -/
theorem Journal.some_context_uncancelled (journal : Journal) :
    ∃ context : Context, (journal.of context).cancelled = false := by
  obtain ⟨bound, absent⟩ := Table.absent_beyond journal.diagnostics.entries
  refine ⟨⟨bound, .empty, {}⟩, ?_⟩
  have missing : journal.diagnostics.get? bound = none := absent bound (Nat.le_refl bound)
  unfold Journal.of
  rw [missing]
  rfl

/-- What has an outcome while some context is not cancelled has it in every faithful journal. -/
theorem yields_faithful {action : Action Journal result} {outcome : Except Interrupt result}
    (yields : ∀ context, Yields (Journal.Sound context census) action outcome) :
    Yields (Journal.Faithful census) action outcome := by
  intro journal faithful
  obtain ⟨context, uncancelled⟩ := journal.some_context_uncancelled
  obtain ⟨same, sound⟩ := yields context journal ⟨uncancelled, faithful⟩
  exact ⟨same, sound.faithful⟩

/-- Steps that keep the journal faithful are put together of such steps. -/
theorem keeps_compositional (census : Census) :
    StepRelation.Compositional fun first _ => Keeps (Journal.Faithful census) first where
  pure := keeps_pure
  fail := fun error _ => keeps_fail error
  warn := fun _ _ => keeps_modify fun _ faithful => faithful
  bind := keeps_bind

theorem keeps_tap (context : Context) (name : String) :
    Keeps (Journal.Faithful census) (context.tap name) := by
  apply keeps_modify
  intro journal faithful
  unfold Journal.tap
  split
  · exact faithful
  · exact faithful

theorem keeps_check_cancelled (context : Context) :
    Keeps (Journal.Faithful census) context.checkCancelled := by
  apply keeps_bind (fun _ faithful => ⟨rfl, faithful⟩)
  intro journal
  split
  · exact keeps_fail _
  · exact keeps_pure ()

variable {row : Row} {bindings : Bindings}

theorem keeps_read (listed : row.Listed census) (column : Nat) :
    Keeps (Journal.Faithful census) (row.read column) :=
  keeps_of_yields (yields_faithful fun _ => row.read_yields listed column)

theorem keeps_eval (listed : row.Listed census) (bound : bindings.Listed census)
    (context : Context) (expression : Expr) :
    Keeps (Journal.Faithful census) (expression.eval (row.scope context bindings)) :=
  keeps_of_yields (yields_faithful fun _ => eval_yields listed bound context expression)

theorem keeps_read_all (listed : row.Listed census) :
    Keeps (Journal.Faithful census) row.readAll :=
  keeps_map _ (keeps_read listed)

theorem keeps_read_each (listed : row.Listed census) :
    Keeps (Journal.Faithful census) row.readEach :=
  keeps_map _ fun column => keeps_attempt (keeps_read listed column)

theorem keeps_describe (listed : row.Listed census) :
    Keeps (Journal.Faithful census) row.describe :=
  keeps_bind (keeps_read_each listed) fun _ => keeps_pure _

end Journals

/-- What a census covers of a state. -/
abbrev Coverage (state : Type) : Type := Census → state → Prop

/-- From every state that the census covers, the step ends in a state that a later census covers,
and its answer suits that census. -/
def Enrols {state result : Type} (covered : Coverage state) (census : Census)
    (action : Action state result) (gives : Census → result → Prop) : Prop :=
  ∀ start, covered census start →
    EndsIn start action
      (fun value after => ∃ later, census.Within later ∧ covered later after ∧ gives later value)
      fun _ after => ∃ later, census.Within later ∧ covered later after

section Rules

variable {state result other : Type} {covered : Coverage state} {census : Census}
  {gives : Census → result → Prop} {middle : Census → other → Prop}

theorem enrols_pure (value : result) (given : gives census value) :
    Enrols covered census (pure value) gives :=
  fun _ held => agree_pure value ⟨census, census.within_refl, held, given⟩

theorem enrols_fail (error : QueryError) :
    Enrols covered census (fail error : Action state result) gives :=
  fun _ held => agree_fail error ⟨census, census.within_refl, held⟩

/-- What the first step answers the second may use, under the census that has grown so far. -/
theorem enrols_bind {action : Action state other} {next : other → Action state result}
    (first : Enrols covered census action middle)
    (second : ∀ later value, census.Within later → middle later value →
      Enrols covered later (next value) gives) :
    Enrols covered census (action >>= next) gives := by
  intro start held
  apply agree_bind (first start held)
  intro value reached ends
  obtain ⟨later, within, held, given⟩ := ends
  apply agree_weaken (second later value within given reached held)
  · intro answer after ends
    obtain ⟨last, further, held, given⟩ := ends
    exact ⟨last, within.trans further, held, given⟩
  · intro interrupt after ends
    obtain ⟨last, further, held⟩ := ends
    exact ⟨last, within.trans further, held⟩

/-- The rule for steps in a row with what the first answers spelled out. -/
theorem enrols_then (middle : Census → other → Prop) {action : Action state other}
    {next : other → Action state result} (first : Enrols covered census action middle)
    (second : ∀ later value, census.Within later → middle later value →
      Enrols covered later (next value) gives) :
    Enrols covered census (action >>= next) gives :=
  enrols_bind first second

theorem enrols_weaken {gives' : Census → result → Prop} {action : Action state result}
    (enrols : Enrols covered census action gives')
    (given : ∀ later value, census.Within later → gives' later value → gives later value) :
    Enrols covered census action gives := by
  intro start held
  refine agree_weaken (enrols start held) ?_ fun _ _ stopped => stopped
  intro value after ends
  obtain ⟨later, within, held, suits⟩ := ends
  exact ⟨later, within, held, given later value within suits⟩

/-- An answer that is made of the answer of a step. -/
theorem enrols_answer {action : Action state other} (answer : other → result)
    (enrols : Enrols covered census action middle) :
    Enrols covered census (answer <$> action) fun _ _ => True := by
  rw [← bind_pure_comp]
  exact enrols_bind enrols fun _ value _ _ => enrols_pure (answer value) trivial

/-- A step that adds nothing to the census. -/
theorem enrols_of_keeps {action : Action state result} (keeps : Keeps (covered census) action) :
    Enrols covered census action fun _ _ => True :=
  fun start held => agree_weaken (keeps start held)
    (fun _ _ held => ⟨census, census.within_refl, held, trivial⟩)
    fun _ _ held => ⟨census, census.within_refl, held⟩

theorem enrols_modify {step : state → state}
    (keeps : ∀ start, covered census start → covered census (step start)) :
    Enrols covered census (modify step) fun _ _ => True :=
  enrols_of_keeps (keeps_modify keeps)

theorem enrols_set {state : Type} {covered : Coverage state} {value : state}
    (held : covered census value) : Enrols covered census (set value) fun _ _ => True :=
  fun _ _ => ⟨rfl, census, census.within_refl, held, trivial⟩

/-- Reading the state: what follows starts from the state that was read. -/
theorem enrols_get {next : state → Action state result}
    (follows : ∀ start, covered census start → Enrols covered census (next start) gives) :
    Enrols covered census (get >>= next) gives :=
  fun start held => follows start held start held

theorem enrols_of_except {outcome : Except QueryError result}
    (given : ∀ value, outcome = .ok value → gives census value) :
    Enrols covered census (ofExcept outcome) gives := by
  cases outcome with
  | ok value => exact enrols_pure value (given value rfl)
  | error error => exact enrols_fail error

theorem enrols_of_option {error : QueryError} {found : Option result}
    (given : ∀ value, found = some value → gives census value) :
    Enrols covered census (ofOption error found) gives := by
  cases found with
  | some value => exact enrols_pure value (given value rfl)
  | none => exact enrols_fail error

theorem enrols_index (items : List result) (position : Nat) :
    Enrols covered census (index items position) fun _ _ => True := by
  unfold index
  split
  · exact enrols_pure _ trivial
  · exact fun _ held => ⟨rfl, census, census.within_refl, held⟩

theorem enrols_attempt {action : Action state result}
    (enrols : Enrols covered census action gives) :
    Enrols covered census action.attempt fun later outcome =>
      ∀ value, outcome = .ok value → gives later value := by
  intro start held
  refine agree_attempt (agree_weaken (enrols start held) ?_ ?_)
  · intro value after ends
    obtain ⟨later, within, held, given⟩ := ends
    refine ⟨later, within, held, fun other same => ?_⟩
    cases same
    exact given
  · rintro (error | _) after ⟨later, within, held⟩
    · exact ⟨later, within, held, fun _ impossible => by cases impossible⟩
    · exact ⟨later, within, held⟩

theorem enrols_on_failure {cleanup : Action state Unit} {action : Action state result}
    (cleaning : ∀ later, census.Within later → Enrols covered later cleanup fun _ _ => True)
    (enrols : Enrols covered census action gives) :
    Enrols covered census (onFailure cleanup action) gives := by
  apply enrols_bind (enrols_attempt enrols)
  intro later tried within given
  cases tried with
  | ok value => exact enrols_pure value (given value rfl)
  | error error =>
      exact enrols_bind (enrols_attempt (cleaning later within)) fun _ _ _ _ => enrols_fail error

/-- A step on a part of the state, where the rest stays covered as the census grows. -/
theorem enrols_on_part {outer : Type} {whole : Coverage outer} {get : outer → state}
    {put : state → outer → outer} {action : Action state result}
    (part : ∀ start, whole census start → covered census (get start))
    (rest : ∀ later start changed, census.Within later → whole census start →
      covered later changed → whole later (put changed start))
    (enrols : Enrols covered census action gives) :
    Enrols whole census (action.onPart get put) gives := by
  intro start held
  refine agree_on_part (agree_weaken (enrols (get start) (part start held)) ?_ ?_)
  · intro value changed ends
    obtain ⟨later, within, reached, given⟩ := ends
    exact ⟨later, within, rest later start changed within held reached, given⟩
  · intro interrupt changed ends
    obtain ⟨later, within, reached⟩ := ends
    exact ⟨later, within, rest later start changed within held reached⟩

/-- What stays true of a thing as the census grows. -/
def Lasting {thing : Type} (holds : Census → thing → Prop) : Prop :=
  ∀ (census later : Census) (one : thing), census.Within later → holds census one →
    holds later one

theorem row_listed_lasting : Lasting fun census (row : Row) => row.Listed census :=
  fun _ _ row within listed => Row.Listed.later within row listed

theorem bindings_listed_lasting :
    Lasting fun census (bindings : Bindings) => bindings.Listed census :=
  fun _ _ bindings within listed => Bindings.Listed.later within bindings listed

theorem enrols_map {item : Type} {step : item → Action state result} (items : List item)
    (lasting : Lasting gives)
    (each : ∀ later, census.Within later → ∀ member ∈ items,
      Enrols covered later (step member) gives) :
    Enrols covered census (items.mapM step)
      fun later values => ∀ value ∈ values, gives later value := by
  induction items generalizing census with
  | nil => exact enrols_pure [] fun _ impossible => by cases impossible
  | cons first rest induction =>
      rw [List.mapM_cons]
      apply enrols_bind (each census census.within_refl first List.mem_cons_self)
      intro later value within given
      have others := induction fun last further member listed =>
        each last (within.trans further) member (List.mem_cons_of_mem _ listed)
      refine enrols_bind others fun last values further all => enrols_pure _ ?_
      exact List.forall_mem_cons.mpr ⟨lasting _ _ value further given, all⟩

theorem enrols_for {item : Type} {step : item → Action state PUnit} (items : List item)
    (each : ∀ later, census.Within later → ∀ member ∈ items,
      Enrols covered later (step member) fun _ _ => True) :
    Enrols covered census (items.forM step) fun _ _ => True := by
  induction items generalizing census with
  | nil => exact enrols_pure _ trivial
  | cons first rest induction =>
      apply enrols_bind (each census census.within_refl first List.mem_cons_self)
      intro later _ within _
      exact induction fun last further member listed =>
        each last (within.trans further) member (List.mem_cons_of_mem _ listed)

theorem enrols_fold {item : Type} {step : result → item → Action state result} (items : List item)
    (each : ∀ later before, census.Within later → gives later before → ∀ member ∈ items,
      Enrols covered later (step before member) gives)
    {before : result} (given : gives census before) :
    Enrols covered census (items.foldlM step before) gives := by
  induction items generalizing census before with
  | nil => exact enrols_pure before given
  | cons first rest induction =>
      rw [List.foldlM_cons]
      apply enrols_bind (each census before census.within_refl given first List.mem_cons_self)
      intro later _ within given
      exact induction (fun last before further given member listed =>
        each last before (within.trans further) given member (List.mem_cons_of_mem _ listed)) given

end Rules

end QueryExec
