import QueryExec.Probe
import QueryExec.Store

/-!
Everything executions share and change: the journal, the store, the probe on the storage boundary
and the supply of identities. Writes to the store materialise the row that is written, under the
row type of the table.
-/

namespace QueryExec

structure Engine where
  /-- Every identity given out so far is smaller. Zero is the empty binding. -/
  nextId : Nat := 1
  /-- The number of the next row type. It is a word, so numbers repeat after `2 ^ 32` types. -/
  nextTypeId : UInt32 := 1
  journal : Journal := {}
  store : Store := {}
  probe? : Option Probe := none

namespace Engine

def inJournal {result : Type} (action : Action Journal result) : Action Engine result :=
  action.onPart Engine.journal fun journal engine => { engine with journal }

def freshId : Action Engine Nat := do
  let engine ← get
  set { engine with nextId := engine.nextId + 1 }
  pure engine.nextId

/-- Every call makes another type, whatever its columns. -/
def newRowType (columns : List ColumnType) : Action Engine RowType := do
  let engine ← get
  set { engine with nextTypeId := engine.nextTypeId + 1 }
  pure ⟨engine.nextTypeId, columns⟩

def newRow (type : RowType) (values : List Datum) : Action Engine Row :=
  return .stored (← freshId) type values

def newProjection (type : RowType) (base : Row) (context : Context) (bindings : Bindings)
    (columns : List Expr) : Action Engine Row :=
  return .projected (← freshId) type base context bindings columns

/-- Logs a call on the storage boundary. -/
def note (call : LeafCall) : Action Engine Unit :=
  modify fun engine => { engine with probe? := engine.probe?.map (·.note call) }

/-- Fails if the call noted last under this name was chosen to fail. -/
def injectFault (call : LeafCall) : Action Engine Unit := do
  match (← get).probe? with
  | some probe =>
      if probe.mustFail call then Action.fail (.storage (.injected call.name)) else pure ()
  | none => pure ()

def storedTable (name : String) : Action Engine StoredTable := do
  Action.ofExcept ((← get).store.table name)

def setTable (name : String) (table : StoredTable) : Action Engine Unit :=
  modify fun engine => { engine with store := engine.store.setTable name table }

def createTable (name : String) (type : RowType) : Action Engine Unit := do
  let engine ← get
  let store ← Action.ofExcept (engine.store.create name type)
  set { engine with store }

/-- A new row of the type of the table with the values of `row`, which must have its shape. -/
def materialise (table : StoredTable) (row : Row) : Action Engine Row := do
  if row.type.sameShape table.type then
    let values ← inJournal row.readAll
    newRow table.type values
  else
    Action.fail (.storage (.shapeMismatch row.type.describe table.type.describe))

/-- Where a row is stored; the text of a stray row is part of the failure. -/
def positionOf (name : String) (table : StoredTable) (row : Row) : Action Engine Nat := do
  match table.position? row with
  | some position => pure position
  | none => do
      let text ← inJournal row.describe
      Action.fail (.storage (.notStored text name))

def insertRow (name : String) (row : Row) : Action Engine Unit := do
  let table ← storedTable name
  let stored ← materialise table row
  setTable name (table.append stored)

/-- Replaces a stored row in its place. -/
def updateRow (name : String) (old new : Row) : Action Engine Unit := do
  let table ← storedTable name
  let position ← positionOf name table old
  let stored ← materialise table new
  setTable name (table.replaceAt position stored)

def deleteRow (name : String) (row : Row) : Action Engine Unit := do
  let table ← storedTable name
  let position ← positionOf name table row
  setTable name (table.eraseAt position)

/-- The step before a write changes a row. -/
def lockRow : Action Engine Unit := do
  note .lock
  injectFault .lock
  modify fun engine =>
    { engine with store := { engine.store with lockedRows := engine.store.lockedRows + 1 } }

end Engine

end QueryExec
