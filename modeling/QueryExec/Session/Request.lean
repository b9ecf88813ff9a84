import QueryExec.Aggregate
import QueryExec.Expr.Blueprint
import QueryExec.Probe
import QueryExec.SettingsText

/-!
Requests to a session: commands over named objects, with the sources of catalogs, settings, rows
and plans that a command can spell out.
-/

namespace QueryExec.Session

/-- The standard conversions, if wanted, and then custom ones in order. -/
structure CatalogSource where
  standard : Bool := true
  custom : List Conversion := []

def CatalogSource.build (source : CatalogSource) : Except QueryError Catalog :=
  Catalog.build ((if source.standard then Conversion.allStandard else []) ++ source.custom)

/-- Settings text first, then single settings that override it. -/
structure SettingsSource where
  text? : Option String := none
  castErrorsFatal? : Option Bool := none
  tapsEnabled? : Option Bool := none
  maxWarnings? : Option Nat := none

def SettingsSource.build (source : SettingsSource) : Except QueryError Settings := do
  let base ←
    match source.text? with
    | some text => Settings.read text
    | none => .ok {}
  .ok
    { castErrorsFatal := source.castErrorsFatal?.getD base.castErrorsFatal
      tapsEnabled := source.tapsEnabled?.getD base.tapsEnabled
      maxWarnings := source.maxWarnings?.getD base.maxWarnings }

inductive RowSource
  | named (name : String)
  /-- A new row of the type at hand. -/
  | ofValues (values : List Datum)
  | ofType (type : String) (values : List Datum)

inductive PlanSource
  | named (name : String)
  | values (type : String) (rows : List RowSource)
  | table (name type : String)
  | filter (input : PlanSource) (predicate : Blueprint)
  | project (input : PlanSource) (columns : List Blueprint)
  | aggregate (input : PlanSource) (keys : Nat) (aggregates : List Aggregate)
  | limit (input : PlanSource) (offset : Nat) (limit? : Option Nat)

/-- The bindings a cursor runs under: a new empty one, a named one, or several. -/
inductive BindingsChoice
  | fresh
  | one (name : String)
  | list (names : List String)

structure UpdateSource where
  input : PlanSource
  table : String
  columns : Nat
  assignments : List (Nat × Blueprint)
  selector? : Option Blueprint := none
  bindings? : Option String := none

/-- A call on a named cursor. -/
inductive CursorCommand
  | openPass
  | next (name? : Option String) (readColumns : Bool)
  | close
  | destroy
  | openBindings
  | nextBindings
  | closeBindings
  | cancelBindings (bindings? : Option String)
  | look
  | drain

/-- A call on a named source of bindings. -/
inductive SourceCommand
  | openAll
  | next
  | close
  | cancel (bindings : String)

inductive Command
  | context (settings : SettingsSource) (catalog? : Option CatalogSource)
  | cancel
  | isCancelled
  | warn (message : String)
  | warnings
  | cast (value : Datum) (target : Kind)
  | taps
  | tapCount (name : String)
  | lockedRows
  | leafLog
  | type (name : String) (columns : List ColumnType)
  | sameType (left right : String)
  | row (name type : String) (values : List Datum)
  | copyRow (row name : String)
  | projectRow (name base : String) (types : List ColumnType) (columns : List Blueprint)
      (bindings? : Option String)
  | evaluated (row : String)
  | acquire (row name : String)
  | release (row : String)
  | holders (row : String)
  | sameRow (left right : String)
  | readColumn (row : String) (column : Nat)
  | readRow (row : String)
  | describeRow (row : String)
  | hold (slot row : String)
  | slot (slot : String)
  | takeSlot (slot name : String)
  | releaseSlot (slot : String)
  | createTable (table type : String)
  | insert (table : String) (rows : List RowSource)
  | updateRow (table old new : String)
  | deleteRow (table row : String)
  | table (table : String) (name? : Option String)
  | plan (name : String) (plan : PlanSource)
  | execute (plan : PlanSource) (bindings? : Option String)
  | executeEach (plan : PlanSource) (bindings : List String)
  | update (update : UpdateSource)
  | bindings (name : String) (parent? : Option String) (parameters : List (Nat × Datum))
      (rows : List (Nat × String))
  | lookup (bindings : String) (index : Nat)
  | isAncestor (left right : String)
  | newSource (name : String) (choice : BindingsChoice)
  | onSource (source : String) (command : SourceCommand)
  | cursor (name : String) (plan : PlanSource) (choice : BindingsChoice)
  | onCursor (cursor : String) (command : CursorCommand)

end QueryExec.Session
