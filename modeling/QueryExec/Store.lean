import QueryExec.Row

/-!
Tables of stored rows. The contents of a table are a list of rows in insertion order, and a row
is addressed by its identity.
-/

namespace QueryExec

structure StoredTable where
  type : RowType
  rows : List Row := []

structure Store where
  tables : Table String StoredTable := {}
  /-- How many times a row was locked. -/
  lockedRows : Nat := 0

namespace StoredTable

/-- The place of a row among the rows of the table. -/
def position? (table : StoredTable) (row : Row) : Option Nat :=
  table.rows.findIdx? row.same

def append (table : StoredTable) (row : Row) : StoredTable :=
  { table with rows := table.rows ++ [row] }

def replaceAt (table : StoredTable) (position : Nat) (row : Row) : StoredTable :=
  { table with rows := table.rows.set position row }

def eraseAt (table : StoredTable) (position : Nat) : StoredTable :=
  { table with rows := table.rows.eraseIdx position }

end StoredTable

namespace Store

def table (store : Store) (name : String) : Except QueryError StoredTable :=
  match store.tables.get? name with
  | some table => .ok table
  | none => .error (.storage (.noSuchTable name))

def setTable (store : Store) (name : String) (table : StoredTable) : Store :=
  { store with tables := store.tables.set name table }

def create (store : Store) (name : String) (type : RowType) : Except QueryError Store :=
  if store.tables.contains name then .error (.storage (.tableExists name))
  else .ok (store.setTable name { type })

/-- A scan must declare the row type of the table itself. -/
def checkScan (store : Store) (name : String) (declared : RowType) : Except QueryError Unit := do
  let table ← store.table name
  if table.type.same declared then .ok ()
  else
    .error (.storage (.scanTypeMismatch name table.type.describe declared.describe))

end Store

end QueryExec
