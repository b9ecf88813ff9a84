import QueryExec.Proofs.Row.Meaning

/-!
Rows that are evaluated at once. The columns of a stored row are its values, and each column of a
projected row is its expression over the evaluated row below, whether or not anyone reads it:
nothing is remembered, and no journal is involved. Beside the values stands what a lazy reader has
to read for them, level by level, when it keeps the columns that it has computed.
-/

namespace QueryExec

open QueryExec.Action

/-- A scope in which everything is evaluated. -/
def Scope.evaluated (context : Context) (column : Nat → Except Interrupt Datum)
    (parameter? : Nat → Option Datum) (outer? : Nat → Option (Nat → Except Interrupt Datum)) :
    Scope where
  context
  column := fun index => ofOutcome (column index)
  parameter?
  outer? := fun binding => (outer? binding).map fun read field => ofOutcome (read field)

/-- The value of an expression, or why it has none. -/
def Expr.value (scope : Scope) (expression : Expr) : Except Interrupt Datum :=
  ((expression.eval scope).run {}).1

mutual

/-- The value of a column over the evaluated row below. A failure carries the index of the
column. -/
def Row.eager : Row → Nat → Except Interrupt Datum
  | .stored _ _ values, column => entry values column
  | .projected _ _ base context bindings columns, column =>
      match columns[column]? with
      | some expression =>
          (expression.value (.evaluated context (fun index => base.eager index)
            (fun index => bindings.parameter? index)
            fun index => bindings.eagerOuter index)).mapError (·.atColumn column)
      | none => .error .indexOutOfRange

/-- The evaluated outer row bound at an index. -/
def Bindings.eagerOuter : Bindings → Nat → Option (Nat → Except Interrupt Datum)
  | .root _, _ => none
  | .nested _ parent, index => parent.eagerOuter index
  | .parameter _ _ rest, index => rest.eagerOuter index
  | .outer bound row rest, index =>
      if bound = index then some fun column => row.eager column else rest.eagerOuter index

end

theorem Bindings.eager_outer_eq (index : Nat) : (bindings : Bindings) →
    bindings.eagerOuter index = (bindings.outerRow? index).map Row.eager
  | .root _ => rfl
  | .nested _ parent => eager_outer_eq index parent
  | .parameter _ _ rest => eager_outer_eq index rest
  | .outer bound row rest => by
      unfold Bindings.eagerOuter Bindings.outerRow?
      split
      · rfl
      · exact eager_outer_eq index rest

/-- What an expression sees of the evaluated row below. -/
def Row.evaluated (base : Row) (context : Context) (bindings : Bindings) : Scope :=
  .evaluated context base.eager bindings.parameter? bindings.eagerOuter

/-- A row and the rows that it is projected from, down to the stored one. -/
def Row.tower : Row → List Row
  | .stored id type values => [.stored id type values]
  | .projected id type base context bindings columns =>
      .projected id type base context bindings columns :: base.tower

/-- A column of a row that is asked for. -/
structure Reading where
  row : Row
  column : Nat

/-- Which cells hold a value, by row identity and column. -/
abbrev Cells : Type := Nat × Nat → Bool

namespace Reading

def outcome (reading : Reading) : Except Interrupt Datum :=
  reading.row.eager reading.column

def succeeds (reading : Reading) : Bool :=
  reading.outcome.toOption.isSome

/-- The cell that a successful read fills. -/
def cell (reading : Reading) : Nat × Nat :=
  (reading.row.id, reading.column)

end Reading

/-- The cells that hold a value after these reads. -/
def Cells.after (filled : Cells) (log : List Reading) : Cells :=
  fun cell => filled cell || log.any fun reading => reading.succeeds && reading.cell == cell

/-- Reads that are made one after another, each with the reads that it takes. -/
def Cells.inTurn {source : Type} (read : source → Cells → List Reading) :
    List source → Cells → List Reading
  | [], _ => []
  | first :: rest, filled =>
      read first filled ++ inTurn read rest (filled.after (read first filled))

/-- What an expression can read: a column of the row at hand or of an outer row. -/
inductive Access
  | column (index : Nat)
  | outer (binding field : Nat)

/-- What the evaluation of an expression reads, in order: it ends with the first failure. -/
def Expr.accesses (scope : Scope) : Expr → List Access
  | literal _ => []
  | column index _ => [.column index]
  | parameter _ _ => []
  | outer binding field _ => [.outer binding field]
  | binary _ left right =>
      left.accesses scope ++
        match left.value scope with
        | .ok _ => right.accesses scope
        | .error _ => []
  | unary _ operand => operand.accesses scope
  | cast operand _ => operand.accesses scope
  | nullTest operand _ => operand.accesses scope

mutual

/-- The reads of projected columns that a read takes, at all levels, in the order in which they end.
A cell that holds a value is only looked at; for any other its expression is evaluated. -/
def Row.readings : Row → Nat → Cells → List Reading
  | .stored _ _ _, _, _ => []
  | .projected id type base context bindings columns, column, filled =>
      match columns[column]? with
      | some expression =>
          if filled (id, column) then
            [⟨.projected id type base context bindings columns, column⟩]
          else
            Cells.inTurn
                (fun access filled =>
                  match access with
                  | .column index => base.readings index filled
                  | .outer binding field => bindings.outerReadings binding field filled)
                (expression.accesses (base.evaluated context bindings)) filled ++
              [⟨.projected id type base context bindings columns, column⟩]
      | none => []

def Bindings.outerReadings : Bindings → Nat → Nat → Cells → List Reading
  | .root _, _, _, _ => []
  | .nested _ parent, index, field, filled => parent.outerReadings index field filled
  | .parameter _ _ rest, index, field, filled => rest.outerReadings index field filled
  | .outer bound row rest, index, field, filled =>
      if bound = index then row.readings field filled else rest.outerReadings index field filled

end

/-- A field of an outer row takes the reads of the row that is bound; of no row, none. -/
theorem Bindings.outer_readings_eq (index field : Nat) (filled : Cells) : (bindings : Bindings) →
    bindings.outerReadings index field filled =
      match bindings.outerRow? index with
      | some row => row.readings field filled
      | none => []
  | .root _ => rfl
  | .nested _ parent => outer_readings_eq index field filled parent
  | .parameter _ _ rest => outer_readings_eq index field filled rest
  | .outer bound row rest => by
      unfold Bindings.outerReadings Bindings.outerRow?
      split
      · rfl
      · exact outer_readings_eq index field filled rest

section Equations

variable {id : Nat} {type : RowType} {base : Row} {context : Context} {bindings : Bindings}
  {columns : List Expr} {column : Nat} {expression : Expr} {filled : Cells}

theorem Row.eager_found (found : columns[column]? = some expression) :
    (Row.projected id type base context bindings columns).eager column =
      (expression.value (base.evaluated context bindings)).mapError (·.atColumn column) := by
  conv => lhs; unfold Row.eager
  rw [found]
  rfl

theorem Row.eager_missing (missing : columns[column]? = none) :
    (Row.projected id type base context bindings columns).eager column =
      .error .indexOutOfRange := by
  conv => lhs; unfold Row.eager
  rw [missing]

/-- What one thing that an expression reads takes. -/
def Access.readings (base : Row) (bindings : Bindings) : Access → Cells → List Reading
  | .column index, filled => base.readings index filled
  | .outer binding field, filled => bindings.outerReadings binding field filled

/-- The reads that the evaluation of an expression takes. -/
def Expr.readings (base : Row) (context : Context) (bindings : Bindings) (expression : Expr) :
    Cells → List Reading :=
  Cells.inTurn (Access.readings base bindings)
    (expression.accesses (base.evaluated context bindings))

theorem Row.readings_found (found : columns[column]? = some expression) :
    (Row.projected id type base context bindings columns).readings column filled =
      if filled (id, column) then [⟨.projected id type base context bindings columns, column⟩]
      else
        expression.readings base context bindings filled ++
          [⟨.projected id type base context bindings columns, column⟩] := by
  have same : (fun access filled =>
      match access with
      | .column index => base.readings index filled
      | .outer binding field => bindings.outerReadings binding field filled) =
        Access.readings base bindings := by
    funext access filled
    cases access <;> rfl
  conv => lhs; unfold Row.readings
  rw [found, same]
  rfl

theorem Row.readings_missing (missing : columns[column]? = none) :
    (Row.projected id type base context bindings columns).readings column filled = [] := by
  conv => lhs; unfold Row.readings
  rw [missing]

end Equations

section Failures

/-- A failure about a value, or a read outside of a row. -/
def Interrupt.isAboutValue : Interrupt → Bool
  | .failed error => error.isAboutValue
  | .indexOutOfRange => true

/-- The step fails about values only. -/
def FailsOnValues {result : Type} (action : Action Journal result) : Prop :=
  ∀ start, EndsIn start action (fun _ _ => True) fun interrupt _ => interrupt.isAboutValue = true

theorem fails_on_values_compositional :
    StepRelation.Compositional fun first _ => FailsOnValues first where
  pure := fun value _ => agree_pure value trivial
  fail := fun error about _ => agree_fail error about
  warn := fun _ _ _ => ⟨rfl, trivial⟩
  bind := fun first second start =>
    agree_bind (first start) fun value reached _ => second value reached

theorem fails_of_outcome {outcome : Except Interrupt Datum}
    (about : ∀ interrupt, outcome = .error interrupt → interrupt.isAboutValue = true) :
    FailsOnValues (ofOutcome outcome) := by
  intro start
  cases outcome with
  | ok value => exact agree_pure value trivial
  | error interrupt => exact ⟨rfl, about interrupt rfl⟩

theorem Interrupt.about_value_at_column {interrupt : Interrupt}
    (about : interrupt.isAboutValue = true) (column : Nat) :
    (interrupt.atColumn column).isAboutValue = true := by
  rcases interrupt with (error | _)
  · cases error <;> first | rfl | cases about
  · rfl

/-- By induction on the rows that are read. -/
theorem Row.eager_about_value (row : Row) (column : Nat) (interrupt : Interrupt)
    (failed : row.eager column = .error interrupt) : interrupt.isAboutValue = true := by
  induction row using Row.induction generalizing column interrupt with
  | stored id type values =>
      unfold Row.eager entry at failed
      split at failed <;> cases failed
      rfl
  | projected id type base context bindings columns ofBase ofRows =>
      cases found : columns[column]? with
      | none =>
          rw [Row.eager_missing found] at failed
          cases failed
          rfl
      | some expression =>
          rw [Row.eager_found found] at failed
          have scopes : (base.evaluated context bindings).Alike
              (fun {_} first _ => FailsOnValues first) (base.evaluated context bindings) :=
            { context := rfl
              parameter := rfl
              outer := rfl
              column := fun index => fails_of_outcome (ofBase index)
              field := by
                intro binding read bound field
                obtain ⟨evaluated, outer, rfl⟩ := Option.map_eq_some_iff.mp bound
                rw [Bindings.eager_outer_eq] at outer
                obtain ⟨row, present, rfl⟩ := Option.map_eq_some_iff.mp outer
                exact fails_of_outcome (ofRows binding row present field) }
          have fails := fails_on_values_compositional.eval scopes expression
          cases value : expression.value (base.evaluated context bindings) with
          | ok datum =>
              rw [value] at failed
              cases failed
          | error cause =>
              rw [value] at failed
              cases failed
              exact Interrupt.about_value_at_column
                (interrupt_of_ends (fails {}) value) column

/-- A projected column that fails does so about a value, and the failure names the column. -/
theorem Reading.failure_tagged {reading : Reading} {error : QueryError}
    (failed : reading.outcome = .error (.failed error)) :
    ∃ cause, error = .value (some reading.column) cause := by
  obtain ⟨row, column⟩ := reading
  cases row with
  | stored id type values =>
      unfold Reading.outcome Row.eager entry at failed
      split at failed <;> cases failed
  | projected id type base context bindings columns =>
      have about := Row.eager_about_value _ _ _ failed
      cases found : columns[column]? with
      | none =>
          rw [outcome, Row.eager_missing found] at failed
          cases failed
      | some expression =>
          rw [outcome, Row.eager_found found] at failed
          cases value : expression.value (base.evaluated context bindings) with
          | ok datum =>
              rw [value] at failed
              cases failed
          | error interrupt =>
              rw [value] at failed
              rcases interrupt with (cause | _)
              · cases failed
                cases cause with
                | value _ cause => exact ⟨cause, rfl⟩
                | cast cause => exact ⟨.cast cause, rfl⟩
                | _ => cases about
              · cases failed

end Failures

end QueryExec
