import QueryExec.Proofs.Cursor.Production

/-!
The rows that filters and limits over one scan emit. They are rows of the scan itself, so they can
be told by their identities; to whoever looks only at their values they are what the plan denotes.
-/

namespace QueryExec

/-- Rows of a scan and how they end: by an interruption or, without one, by the end of the data. -/
structure Feed where
  rows : List Row
  ending : Option Interrupt := none

namespace Feed

def stopped (interrupt : Interrupt) : Feed :=
  ⟨[], some interrupt⟩

def cons (row : Row) (feed : Feed) : Feed :=
  { feed with rows := row :: feed.rows }

/-- What can be seen of a feed. -/
def views (feed : Feed) : RowStream :=
  ⟨feed.rows.map Row.view, feed.ending⟩

/-- The rows that are kept, up to the first that cannot be judged. -/
def filterRows (keeps : Row → Except Interrupt Bool) (ending : Option Interrupt) : List Row → Feed
  | [] => ⟨[], ending⟩
  | row :: rest =>
      match keeps row with
      | .ok true => (filterRows keeps ending rest).cons row
      | .ok false => filterRows keeps ending rest
      | .error interrupt => stopped interrupt

def filtered (keeps : Row → Except Interrupt Bool) (feed : Feed) : Feed :=
  filterRows keeps feed.ending feed.rows

/-- The rows after the first `offset`, at most so many; what would come after them is not met. -/
def limitRows (ending : Option Interrupt) : (offset : Nat) → (left? : Option Nat) → List Row → Feed
  | _, some 0, _ => ⟨[], none⟩
  | _, _, [] => ⟨[], ending⟩
  | offset + 1, left?, _ :: rest => limitRows ending offset left? rest
  | 0, left?, row :: rest => (limitRows ending 0 (left?.map (· - 1)) rest).cons row

def limited (offset : Nat) (limit? : Option Nat) (feed : Feed) : Feed :=
  limitRows feed.ending offset limit? feed.rows

section Filtering

variable {keeps : Row → Except Interrupt Bool}

theorem filtered_cons (keeps : Row → Except Interrupt Bool) (row : Row) (rest : Feed) :
    (rest.cons row).filtered keeps =
      match keeps row with
      | .ok true => (rest.filtered keeps).cons row
      | .ok false => rest.filtered keeps
      | .error interrupt => stopped interrupt :=
  rfl

theorem filter_rows_sublist (ending : Option Interrupt) (rows : List Row) :
    (filterRows keeps ending rows).rows.Sublist rows := by
  induction rows with
  | nil => exact List.nil_sublist _
  | cons row rest induction =>
      unfold filterRows
      split
      · exact induction.cons_cons row
      · exact induction.cons row
      · exact List.nil_sublist _

theorem filtered_views {sees : View → Except Interrupt Bool}
    (same : ∀ row, keeps row = sees row.view) (feed : Feed) :
    (feed.filtered keeps).views = feed.views.filtered sees := by
  obtain ⟨rows, ending⟩ := feed
  change (filterRows keeps ending rows).views =
    RowStream.filterRows sees ending (rows.map Row.view)
  induction rows with
  | nil => rfl
  | cons row rest induction =>
      rw [List.map_cons]
      unfold filterRows RowStream.filterRows
      rw [← same row]
      cases keeps row with
      | error interrupt => rfl
      | ok kept =>
          cases kept with
          | true => exact congrArg (RowStream.cons row.view) induction
          | false => exact induction

end Filtering

section Limiting

variable {left? : Option Nat}

theorem limited_none_left (offset : Nat) (feed : Feed) :
    feed.limited offset (some 0) = ⟨[], none⟩ := by
  unfold limited limitRows
  rfl

theorem limited_ended (offset : Nat) (left? : Option Nat) :
    limited offset left? ⟨[], none⟩ = ⟨[], none⟩ := by
  rcases left? with _ | _ | most <;> rfl

theorem limited_stopped (offset : Nat) (room : left? ≠ some 0) (interrupt : Interrupt) :
    (stopped interrupt).limited offset left? = stopped interrupt := by
  rcases left? with _ | _ | most
  · rfl
  · exact absurd rfl room
  · rfl

theorem limited_skip (offset : Nat) (room : left? ≠ some 0) (row : Row) (rest : Feed) :
    (rest.cons row).limited (offset + 1) left? = rest.limited offset left? := by
  rcases left? with _ | _ | most
  · rfl
  · exact absurd rfl room
  · rfl

theorem limited_take (room : left? ≠ some 0) (row : Row) (rest : Feed) :
    (rest.cons row).limited 0 left? = (rest.limited 0 (left?.map (· - 1))).cons row := by
  rcases left? with _ | _ | most
  · rfl
  · exact absurd rfl room
  · rfl

theorem limited_new (offset : Nat) (limit? : Option Nat) (feed : Feed) :
    feed.limited (offset - 0) (limit?.map (· - 0)) = feed.limited offset limit? := by
  cases limit? <;> rfl

theorem limit_rows_sublist (ending : Option Interrupt) (offset : Nat) (left? : Option Nat)
    (rows : List Row) : (limitRows ending offset left? rows).rows.Sublist rows := by
  fun_induction limitRows ending offset left? rows with
  | case1 => exact List.nil_sublist _
  | case2 => exact List.nil_sublist _
  | case3 offset left? row rest _ induction => exact induction.cons row
  | case4 left? row rest _ induction => exact induction.cons_cons row

/-- The induction is on the rows; a limit of none ends it early. -/
theorem limited_views (offset : Nat) (left? : Option Nat) (feed : Feed) :
    (feed.limited offset left?).views = feed.views.limited offset left? := by
  obtain ⟨rows, ending⟩ := feed
  induction rows generalizing offset left? with
  | nil =>
      cases ending with
      | none =>
          rw [limited_ended]
          exact (RowStream.limited_ended offset left?).symm
      | some interrupt =>
          by_cases room : left? = some 0
          · rw [room, limited_none_left]
            exact (RowStream.limited_none_left offset _).symm
          · exact (congrArg views (limited_stopped offset room interrupt)).trans
              (RowStream.limited_stopped offset room interrupt).symm
  | cons row rest induction =>
      by_cases room : left? = some 0
      · rw [room, limited_none_left]
        exact (RowStream.limited_none_left offset _).symm
      cases offset with
      | succ offset =>
          exact (congrArg views (limited_skip offset room row ⟨rest, ending⟩)).trans
            (induction offset left?)
      | zero =>
          refine (congrArg views (limited_take room row ⟨rest, ending⟩)).trans ?_
          refine Eq.trans ?_ (RowStream.limited_take room row.view (views ⟨rest, ending⟩)).symm
          exact congrArg (RowStream.cons row.view) (induction 0 (left?.map (· - 1)))

end Limiting

end Feed

namespace Plan

/-- The plan is a scan of a table of this type under filters and limits. -/
inductive Scans (name : String) (type : RowType) : Plan → Prop
  | table : Scans name type (.table name type)
  | filter {input : Plan} (scans : Scans name type input) (predicate : Expr) :
      Scans name type (.filter input predicate)
  | limit {input : Plan} (scans : Scans name type input) (offset : Nat) (limit? : Option Nat) :
      Scans name type (.limit input offset limit?)

/-- What the plan emits of the rows of its scan; plans that make rows of their own emit none. -/
def feed (context : Context) (bindings : Bindings) (leaf : List Row) : Plan → Feed
  | values _ _ _ => ⟨leaf, none⟩
  | table _ _ => ⟨leaf, none⟩
  | filter input predicate =>
      (input.feed context bindings leaf).filtered fun row =>
        row.view.passes context bindings input.rowType predicate
  | limit input offset limit? => (input.feed context bindings leaf).limited offset limit?
  | project _ _ _ => ⟨[], none⟩
  | aggregate _ _ _ _ => ⟨[], none⟩

section Scanning

variable {name : String} {type : RowType} {plan : Plan}

theorem Scans.row_type (scans : plan.Scans name type) : plan.rowType = type := by
  induction scans with
  | table => rfl
  | filter _ _ same => exact same
  | limit _ _ _ same => exact same

/-- A scan of a stored table under the type of that table is admitted. -/
theorem Scans.admitted {store : Store} {stored : StoredTable}
    (scans : plan.Scans name stored.type) (present : store.tables.get? name = some stored) :
    plan.admitted store = .ok () := by
  induction scans with
  | table =>
      unfold Plan.admitted Store.checkScan Store.table
      rw [present]
      exact if_pos (beq_self_eq_true stored.type.id)
  | filter _ _ below => exact below
  | limit _ _ _ below => exact below

variable (context : Context) (bindings : Bindings) (leaf : List Row)

/-- What is emitted are rows of the scan, in their order. -/
theorem Scans.feed_sublist (scans : plan.Scans name type) :
    (plan.feed context bindings leaf).rows.Sublist leaf := by
  induction scans with
  | table => exact List.Sublist.refl leaf
  | filter _ predicate below => exact (Feed.filter_rows_sublist _ _).trans below
  | limit _ offset limit? below => exact (Feed.limit_rows_sublist _ _ _ _).trans below

/-- The values of what is emitted are what the plan denotes. -/
theorem Scans.feed_views (scans : plan.Scans name type) :
    (plan.feed context bindings leaf).views =
      plan.stream context bindings (leaf.map Row.view) := by
  induction scans with
  | table => rfl
  | @filter input scans predicate below =>
      let sees := fun view : View => view.passes context bindings input.rowType predicate
      have seen : ∀ row : Row, row.view.passes context bindings input.rowType predicate =
          sees row.view := fun _ => rfl
      exact (Feed.filtered_views seen _).trans (congrArg (RowStream.filtered sees) below)
  | limit scans offset limit? below =>
      exact (Feed.limited_views offset limit? _).trans
        (congrArg (RowStream.limited offset limit?) below)

end Scanning

end Plan

end QueryExec
