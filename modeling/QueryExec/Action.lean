import QueryExec.Error

/-!
Steps that change a state and may stop early. What a step changed before it stopped stays
changed, so the state is returned beside the outcome and not inside it.
-/

namespace QueryExec

/-- Why a step stopped. A query error can be handled and cleaned up after; a column index
outside its row is a mistake of the caller that nothing handles. -/
inductive Interrupt
  | failed (error : QueryError)
  | indexOutOfRange
deriving DecidableEq, Repr

abbrev Action (state result : Type) : Type := ExceptT Interrupt (StateM state) result

namespace Action

variable {state inner outer result : Type}

def fail (error : QueryError) : Action state result :=
  throw (.failed error)

def ofExcept : Except QueryError result → Action state result
  | .ok value => pure value
  | .error error => fail error

def ofOption (error : QueryError) : Option result → Action state result
  | some value => pure value
  | none => fail error

/-- A failure about a value, not yet scoped to a column. -/
def ofValue : Except ValueError result → Action state result
  | .ok value => pure value
  | .error cause => fail (.value none cause)

/-- The entry at an index of a row, a list of columns or a list of assignments. -/
def index (items : List result) (position : Nat) : Action state result :=
  match items[position]? with
  | some item => pure item
  | none => throw .indexOutOfRange

/-- Runs a step on a part of the state. -/
def onPart (get : outer → inner) (put : inner → outer → outer)
    (action : Action inner result) : Action outer result :=
  ExceptT.mk fun whole =>
    let (outcome, part) := action.run (get whole)
    (outcome, put part whole)

/-- Runs a step on the second component of a pair. -/
def onSecond (action : Action inner result) : Action (outer × inner) result :=
  action.onPart Prod.snd fun part whole => (whole.1, part)

/-- The outcome as a value: a query error no longer stops the step. -/
def attempt (action : Action state result) : Action state (Except QueryError result) :=
  ExceptT.mk fun before =>
    match action.run before with
    | (.ok value, after) => (.ok (.ok value), after)
    | (.error (.failed error), after) => (.ok (.error error), after)
    | (.error .indexOutOfRange, after) => (.error .indexOutOfRange, after)

/-- Runs `cleanup` when the step ends in a query error, and keeps that error. -/
def onFailure (cleanup : Action state Unit) (action : Action state result) :
    Action state result := do
  match ← action.attempt with
  | .ok value => pure value
  | .error error => do
      let _ ← cleanup.attempt
      fail error

/-- Scopes the query error of a step to an output column. -/
def atColumn (column : Nat) (action : Action state result) : Action state result :=
  ExceptT.mk fun before =>
    match action.run before with
    | (.error (.failed error), after) => (.error (.failed (error.atColumn column)), after)
    | other => other

end Action

end QueryExec
