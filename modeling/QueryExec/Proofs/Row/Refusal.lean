import QueryExec.Proofs.Row.Evaluation

/-!
Reading rows and evaluating expressions can fail in many ways, but no such failure is the refusal
of a call by a cursor.
-/

namespace QueryExec

open QueryExec.Action

/-- A refusal is the failure of a call that the phase of its cursor does not allow. -/
def Interrupt.isRefusal : Interrupt → Bool
  | .failed error => error.isLifecycle
  | .indexOutOfRange => false

namespace Action

/-- A step that calls no cursor: whatever stops it, it is no refusal. -/
def Unrefused {state result : Type} (action : Action state result) : Prop :=
  ∀ start, EndsIn start action (fun _ _ => True) fun interrupt _ => interrupt.isRefusal = false

variable {state result other : Type}

theorem unrefused_pure (value : result) : Unrefused (pure value : Action state result) :=
  fun _ => agree_pure value trivial

theorem unrefused_fail (error : QueryError) (other : error.isLifecycle = false) :
    Unrefused (fail error : Action state result) :=
  fun _ => agree_fail error other

theorem unrefused_bind {action : Action state other} {next : other → Action state result}
    (first : Unrefused action) (second : ∀ value, Unrefused (next value)) :
    Unrefused (action >>= next) :=
  fun start => agree_bind (first start) fun value reached _ => second value reached

theorem unrefused_modify (step : state → state) :
    Unrefused (modify step : Action state Unit) :=
  fun _ => ⟨rfl, trivial⟩

theorem unrefused_get : Unrefused (get : Action state state) :=
  fun _ => ⟨rfl, trivial⟩

theorem unrefused_index (items : List result) (position : Nat) :
    Unrefused (index items position : Action state result) := by
  intro start
  unfold index
  cases items[position]? with
  | some item => exact agree_pure item trivial
  | none => exact ⟨rfl, rfl⟩

theorem at_column_lifecycle (error : QueryError) (column : Nat) :
    (error.atColumn column).isLifecycle = error.isLifecycle := by
  cases error <;> rfl

theorem unrefused_at_column {action : Action state result} (column : Nat)
    (unrefused : Unrefused action) : Unrefused (action.atColumn column) := by
  intro start
  obtain ⟨_, meets⟩ := unrefused start
  refine ⟨rfl, ?_⟩
  rw [run_at_column]
  revert meets
  rcases action.run start with ⟨⟨error | _⟩ | _, after⟩
  · exact fun calm => (at_column_lifecycle error column).trans calm
  · exact id
  · exact id

theorem unrefused_map {item : Type} {step : item → Action state result}
    (unrefused : ∀ value, Unrefused (step value)) (items : List item) :
    Unrefused (items.mapM step) := by
  induction items with
  | nil => exact unrefused_pure []
  | cons first rest induction =>
      rw [List.mapM_cons]
      exact unrefused_bind (unrefused first) fun _ =>
        unrefused_bind induction fun _ => unrefused_pure _

end Action

namespace Context

theorem tap_unrefused (context : Context) (name : String) : Unrefused (context.tap name) :=
  unrefused_modify _

theorem check_cancelled_unrefused (context : Context) : Unrefused context.checkCancelled := by
  apply unrefused_bind unrefused_get
  intro journal
  split
  · exact unrefused_fail _ rfl
  · exact unrefused_pure ()

end Context

/-- Two steps of which neither is refused. -/
def BothUnrefused {result : Type} (first second : Action Journal result) : Prop :=
  Unrefused first ∧ Unrefused second

theorem lifecycle_of_about_value {error : QueryError} (about : error.isAboutValue = true) :
    error.isLifecycle = false := by
  cases error with
  | lifecycle call phase => cases about
  | _ => rfl

theorem unrefused_compositional : StepRelation.Compositional BothUnrefused where
  pure := fun value => ⟨unrefused_pure value, unrefused_pure value⟩
  fail := fun error about =>
    have calm := lifecycle_of_about_value about
    ⟨unrefused_fail error calm, unrefused_fail error calm⟩
  warn := fun _ _ => ⟨unrefused_modify _, unrefused_modify _⟩
  bind := fun first rest =>
    ⟨unrefused_bind first.1 fun value => (rest value).1,
      unrefused_bind first.2 fun value => (rest value).2⟩

/-- A scope none of whose reads is refused. -/
structure Scope.Unrefused (scope : Scope) : Prop where
  column : ∀ index, Action.Unrefused (scope.column index)
  outer : ∀ binding read, scope.outer? binding = some read →
    ∀ field, Action.Unrefused (read field)

theorem Expr.eval_unrefused {scope : Scope} (unrefused : scope.Unrefused) (expression : Expr) :
    Action.Unrefused (expression.eval scope) := by
  have scopes : scope.Alike BothUnrefused scope :=
    { context := rfl
      parameter := rfl
      outer := rfl
      column := fun index => ⟨unrefused.column index, unrefused.column index⟩
      field := fun binding read found field =>
        ⟨unrefused.outer binding read found field, unrefused.outer binding read found field⟩ }
  exact (unrefused_compositional.eval scopes expression).1

/-- By induction on the rows that are read. -/
theorem Row.read_unrefused (row : Row) (column : Nat) : Action.Unrefused (row.read column) := by
  induction row using Row.induction generalizing column with
  | stored id type values =>
      unfold Row.read
      exact unrefused_index values column
  | projected id type base context bindings columns ofBase ofRows =>
      unfold Row.read
      apply unrefused_bind (unrefused_index columns column)
      intro expression
      apply unrefused_bind unrefused_get
      intro journal
      split
      · exact unrefused_pure _
      · have unrefused : (base.scope context bindings).Unrefused := by
          refine ⟨ofBase, fun index read found => ?_⟩
          obtain ⟨row, bound, rfl⟩ := Bindings.read_outer_row found
          exact ofRows index row bound
        have evaluated := expression.eval_unrefused unrefused
        apply unrefused_bind (Context.tap_unrefused context _)
        intro _
        apply unrefused_bind (unrefused_at_column column evaluated)
        intro value
        exact unrefused_bind (unrefused_modify _) fun _ => unrefused_pure _

theorem Row.scope_unrefused (row : Row) (context : Context) (bindings : Bindings) :
    (row.scope context bindings).Unrefused where
  column := row.read_unrefused
  outer := by
    intro index read found
    obtain ⟨row, _, rfl⟩ := Bindings.read_outer_row found
    exact row.read_unrefused

end QueryExec
