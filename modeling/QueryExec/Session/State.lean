import QueryExec.Session.Request
import QueryExec.Update

/-!
The state of a session: the engine, the current context and the named objects. Objects of
different sorts have names of their own.
-/

namespace QueryExec

/-- A cursor with the plan and the context it was made for. -/
structure OpenCursor where
  plan : Plan
  context : Context
  state : plan.Cursor

namespace OpenCursor

def protocol (cursor : OpenCursor) : Protocol cursor.plan.Cursor :=
  cursor.plan.protocol cursor.context

def phase (cursor : OpenCursor) : Phase :=
  cursor.protocol.phase cursor.state

end OpenCursor

structure Session where
  engine : Engine
  context : Context
  /-- The catalog of contexts that bring none of their own. -/
  catalog : Catalog
  types : Table String RowType := {}
  rows : Table String Row := {}
  /-- Projected rows by the name they were made under. -/
  projections : Table String Row := {}
  slots : Table String (Option Row) := {}
  plans : Table String Plan := {}
  bindings : Table String Bindings := {}
  sources : Table String BindingSource := {}
  cursors : Table String OpenCursor := {}

namespace Session

abbrev SessionAction (result : Type) : Type := Action Session result

/-- A session over an empty store. -/
def start (settings : SettingsSource) (catalog : CatalogSource) (probe? : Option Probe) :
    Except QueryError Session := do
  let settings ← settings.build
  let catalog ← catalog.build
  .ok
    { engine := { nextId := 2, probe? }
      context := { id := 1, catalog, settings }
      catalog }

variable {result : Type}

def inEngine (action : Action Engine result) : SessionAction result :=
  action.onPart Session.engine fun engine session => { session with engine }

def inJournal (action : Action Journal result) : SessionAction result :=
  inEngine (Engine.inJournal action)

/-- The object of a name in one of the tables of the session. -/
def named {object : Type} (table : Session → Table String object) (name : String) :
    SessionAction object := do
  Action.ofOption (.configuration (.unknownName name)) ((table (← get)).get? name)

def typeNamed (name : String) : SessionAction RowType :=
  named Session.types name

def rowNamed (name : String) : SessionAction Row :=
  named Session.rows name

def bindingsNamed (name : String) : SessionAction Bindings :=
  named Session.bindings name

def nameRow (name : String) (row : Row) : SessionAction Unit :=
  modify fun session => { session with rows := session.rows.set name row }

/-- A new binding of nothing. -/
def freshBindings : SessionAction Bindings :=
  return .root (← inEngine Engine.freshId)

/-- The named binding, or a new one of nothing. -/
def bindingsOrFresh : Option String → SessionAction Bindings
  | some name => bindingsNamed name
  | none => freshBindings

def sourceOf : BindingsChoice → SessionAction BindingSource
  | .fresh => return .ofOne (← freshBindings)
  | .one name => return .ofOne (← bindingsNamed name)
  | .list names => return .ofList (← names.mapM bindingsNamed)

/-- The first name, in order, of this very binding. -/
def nameOf? (session : Session) (bindings : Bindings) : Option String :=
  let names := (session.bindings.entries.filter fun entry => entry.2.same bindings).map Prod.fst
  (names.mergeSort fun left right => left ≤ right).head?

def buildExpression (blueprint : Blueprint) : SessionAction Expr := do
  Action.ofExcept (blueprint.build (← get).context.catalog)

/-- The row of a source; values without a type make a row of `default`. -/
def buildRow (default : RowType) : RowSource → SessionAction Row
  | .named name => rowNamed name
  | .ofValues values => inEngine (Engine.newRow default values)
  | .ofType type values => do
      let rowType ← typeNamed type
      inEngine (Engine.newRow rowType values)

def buildPlan : PlanSource → SessionAction Plan
  | .named name => named Session.plans name
  | .values type rows => do
      let rowType ← typeNamed type
      let built ← rows.mapM (buildRow rowType)
      return .values (← inEngine Engine.freshId) rowType built
  | .table name type => return .table name (← typeNamed type)
  | .filter input predicate => do
      let inner ← buildPlan input
      let expression ← buildExpression predicate
      Action.ofExcept (inner.filtered expression)
  | .project input columns => do
      let inner ← buildPlan input
      let expressions ← columns.mapM buildExpression
      inEngine (inner.projected expressions)
  | .aggregate input keys aggregates => do
      inEngine ((← buildPlan input).aggregated keys aggregates)
  | .limit input offset limit? => return .limit (← buildPlan input) offset limit?

end Session

end QueryExec
