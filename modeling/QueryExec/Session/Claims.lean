import QueryExec.Session.State

/-!
Claims on rows. A row is held by named handles, slots, plans over lists of rows, stored tables
and cursors; a live projected row holds its base, and a live binding holds the outer rows it
binds. Nothing counts claims while a session runs: they are read off its state.
-/

namespace QueryExec

mutual

/-- A row and every row that lives because it does. -/
def Row.reach : Row → List Row
  | .stored id type values => [.stored id type values]
  | .projected id type base context bindings columns =>
      .projected id type base context bindings columns :: (base.reach ++ bindings.reachRows)

/-- Every row that lives because a binding does. -/
def Bindings.reachRows : Bindings → List Row
  | .root _ => []
  | .nested _ parent => parent.reachRows
  | .parameter _ _ rest => rest.reachRows
  | .outer _ row rest => row.reach ++ rest.reachRows

end

mutual

/-- Every binding that lives because a row does. -/
def Row.reachBindings : Row → List Bindings
  | .stored _ _ _ => []
  | .projected _ _ base _ bindings _ =>
      bindings :: (base.reachBindings ++ bindings.reachInner)

/-- Every other binding that lives because a binding does. -/
def Bindings.reachInner : Bindings → List Bindings
  | .root _ => []
  | .nested _ parent => parent :: parent.reachInner
  | .parameter _ _ rest => rest.reachInner
  | .outer _ row rest => row.reachBindings ++ rest.reachInner

end

/-- The first of all items with one key. -/
def firstByKey {item : Type} (key : item → Nat) : List item → List item
  | [] => []
  | first :: rest =>
      first :: (firstByKey key rest).filter fun other => key other ≠ key first

/-- Claims from outside the rows themselves. -/
structure Claims where
  rows : List Row := []
  bindings : List Bindings := []

namespace Claims

instance : Append Claims :=
  ⟨fun left right => ⟨left.rows ++ right.rows, left.bindings ++ right.bindings⟩⟩

def liveRows (claims : Claims) : List Row :=
  firstByKey Row.id (claims.rows.flatMap Row.reach ++ claims.bindings.flatMap Bindings.reachRows)

def liveBindings (claims : Claims) : List Bindings :=
  firstByKey Bindings.id
    (claims.rows.flatMap Row.reachBindings ++
      claims.bindings.flatMap fun bindings => bindings :: bindings.reachInner)

/-- The base row of a projected row. -/
def base? : Row → Option Row
  | .stored _ _ _ => none
  | .projected _ _ base _ _ _ => some base

/-- Every claim on a row: those from outside, those of live projected rows on their bases and
those of live bindings on their outer rows. -/
def all (claims : Claims) : List Row :=
  claims.rows ++ claims.liveRows.filterMap base? ++ claims.liveBindings.flatMap Bindings.ownRows

def holders (claims : Claims) (row : Row) : Nat :=
  claims.all.countP row.same

end Claims

namespace BindingSource

def held : BindingSource → List Bindings
  | single bindings _ => [bindings]
  | several all pending => all ++ pending

end BindingSource

namespace Plan

/-- The lists of rows that the leaf of a plan holds, each with its identity. -/
def slices : Plan → List (Nat × List Row)
  | values slice _ rows => [(slice, rows)]
  | table _ _ => []
  | filter input _ => input.slices
  | project input _ _ => input.slices
  | aggregate input _ _ _ => input.slices
  | limit input _ _ => input.slices

def scanClaims (scan : Scan) : Claims :=
  ⟨scan.pending, scan.current :: scan.source.held⟩

/-- What the cursors of a tree hold. -/
def cursorClaims : (plan : Plan) → plan.Cursor → Claims
  | values _ _ _, scan => scanClaims scan
  | table _ _, scan => scanClaims scan
  | filter input _, (node : Filter.State input.Cursor) =>
      ⟨[], [node.bindings]⟩ ++ input.cursorClaims node.input
  | project input _ _, (node : Project.State input.Cursor) =>
      ⟨[], [node.bindings]⟩ ++ input.cursorClaims node.input
  | aggregate input _ _ _, (node : Grouping.State input.Cursor) =>
      ⟨node.own.lookahead?.toList, [node.bindings]⟩ ++ input.cursorClaims node.input
  | limit input _ _, (node : Limit.State input.Cursor) =>
      ⟨[], [node.bindings]⟩ ++ input.cursorClaims node.input

end Plan

namespace Session

def openCursors (session : Session) : List OpenCursor :=
  session.cursors.values

/-- Lists of rows that several plans and cursors share are claimed once. -/
def slices (session : Session) : List (Nat × List Row) :=
  firstByKey Prod.fst
    (session.plans.values.flatMap Plan.slices ++
      session.openCursors.flatMap fun cursor => cursor.plan.slices)

def claims (session : Session) : Claims :=
  { rows :=
      session.rows.values ++ session.slots.values.filterMap id ++
        session.engine.store.tables.values.flatMap StoredTable.rows ++
        session.slices.flatMap Prod.snd
    bindings := session.bindings.values ++ session.sources.values.flatMap BindingSource.held } ++
  session.openCursors.foldr (fun cursor rest => cursor.plan.cursorClaims cursor.state ++ rest) {}

end Session

end QueryExec
