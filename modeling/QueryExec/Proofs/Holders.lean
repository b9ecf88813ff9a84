import QueryExec.Proofs.Census.Sessions
import QueryExec.Session.Claims

/-!
Holders of rows when only the stored rows change. Stored rows hold nothing themselves, and none has
the identity of a projected row, so an exchange of stored rows changes the claims of the store and
no others. A store succeeds another when some of its rows were replaced by new ones.
-/

namespace QueryExec

mutual

/-- All rows that live because a listed one does are listed. -/
theorem Row.reach_listed {census : Census} : (row : Row) → row.Listed census →
    ∀ other ∈ row.reach, other.Listed census
  | .stored _ _ _, _ => by
      intro other member
      rw [Row.reach, List.mem_singleton] at member
      subst member
      trivial
  | .projected id type base context bindings columns, listed => by
      intro other member
      rw [Row.reach, List.mem_cons, List.mem_append] at member
      rcases member with rfl | below | bound
      · exact listed
      · exact Row.reach_listed base listed.2.1 other below
      · exact Bindings.reach_rows_listed bindings listed.2.2 other bound

theorem Bindings.reach_rows_listed {census : Census} : (bindings : Bindings) →
    bindings.Listed census → ∀ other ∈ bindings.reachRows, other.Listed census
  | .root _, _ => by simp [Bindings.reachRows]
  | .nested _ parent, listed => by
      rw [Bindings.reachRows]
      exact Bindings.reach_rows_listed parent listed
  | .parameter _ _ rest, listed => by
      rw [Bindings.reachRows]
      exact Bindings.reach_rows_listed rest listed
  | .outer _ row rest, listed => by
      intro other member
      rw [Bindings.reachRows, List.mem_append] at member
      rcases member with own | below
      · exact Row.reach_listed row listed.1 other own
      · exact Bindings.reach_rows_listed rest listed.2 other below

end

section Keys

variable {item : Type} {key : item → Nat}

theorem mem_of_first_by_key {items : List item} {one : item}
    (member : one ∈ firstByKey key items) : one ∈ items := by
  induction items with
  | nil => exact member
  | cons first rest induction =>
      rcases List.mem_cons.mp member with rfl | later
      · exact List.mem_cons_self
      · exact List.mem_cons_of_mem _ (induction (List.mem_filter.mp later).1)

/-- Which item is the first of its key does not depend on the items of other keys. -/
theorem filter_first_by_key (among : Nat → Bool) (items : List item) :
    (firstByKey key items).filter (fun one => among (key one)) =
      firstByKey key (items.filter fun one => among (key one)) := by
  induction items with
  | nil => rfl
  | cons first rest induction =>
      rw [firstByKey]
      cases known : among (key first) with
      | true =>
          rw [List.filter_cons_of_pos (by exact known), List.filter_cons_of_pos (by exact known),
            firstByKey, ← induction, List.filter_filter, List.filter_filter]
          simp only [Bool.and_comm]
      | false =>
          rw [List.filter_cons_of_neg (by simp [known]), List.filter_cons_of_neg (by simp [known]),
            ← induction, List.filter_filter]
          refine List.filter_congr fun one _ => ?_
          by_cases same : key one = key first
          · simp [same, known]
          · simp [same]

end Keys

namespace Claims

variable {census : Census} {front stored back : List Row} {bindings : List Bindings}

/-- The claims that live rows and live bindings make. -/
def indirect (claims : Claims) : List Row :=
  claims.liveRows.filterMap base? ++ claims.liveBindings.flatMap Bindings.ownRows

theorem holders_eq (claims : Claims) (row : Row) :
    claims.holders row = claims.rows.countP row.same + claims.indirect.countP row.same := by
  unfold holders all indirect
  rw [List.append_assoc, List.countP_append]

/-- Only rows of the census have a base. -/
theorem base_of_unlisted {row : Row} (listed : row.Listed census)
    (unlisted : (census row.id).isSome = false) : base? row = none := by
  cases row with
  | stored id type values => rfl
  | projected id type base context bindings columns =>
      rw [show census (Row.projected id type base context bindings columns).id = _ from listed.1]
        at unlisted
      cases unlisted

theorem bases_of_first (rows : List Row) (listed : ∀ row ∈ rows, row.Listed census) :
    (firstByKey Row.id rows).filterMap base? =
      (firstByKey Row.id (rows.filter fun row => (census row.id).isSome)).filterMap base? := by
  rw [← filter_first_by_key (fun id => (census id).isSome), List.filterMap_filter]
  refine List.filterMap_congr fun row member => ?_
  split
  · rfl
  next unlisted =>
      exact base_of_unlisted (listed row (mem_of_first_by_key member)) (by simpa using unlisted)

/-- Stored rows, none of them with the identity of a row of the census. -/
def Aside (census : Census) (rows : List Row) : Prop :=
  ∀ row ∈ rows, row.isStored = true ∧ census row.id = none

theorem Aside.reach (aside : Aside census stored) : stored.flatMap Row.reach = stored := by
  induction stored with
  | nil => rfl
  | cons first rest induction =>
      obtain ⟨⟨plain, _⟩, others⟩ := List.forall_mem_cons.mp aside
      rw [List.flatMap_cons, induction others]
      cases first with
      | stored id type values => rw [Row.reach, List.singleton_append]
      | projected id type base context bindings columns => cases plain

theorem Aside.reach_bindings (aside : Aside census stored) :
    stored.flatMap Row.reachBindings = [] := by
  refine List.flatMap_eq_nil_iff.mpr fun row among => ?_
  have plain := (aside row among).1
  cases row with
  | stored id type values => rw [Row.reachBindings]
  | projected id type base context bindings columns => cases plain

theorem Aside.none_known (aside : Aside census stored) :
    stored.filter (fun row => (census row.id).isSome) = [] :=
  List.filter_eq_nil_iff.mpr fun row among => by simp [(aside row among).2]

/-- What lives because of the stored rows makes no claims. -/
theorem indirect_without (listed : ∀ row ∈ front ++ back, row.Listed census)
    (bound : ∀ one ∈ bindings, one.Listed census) (aside : Aside census stored) :
    indirect ⟨front ++ stored ++ back, bindings⟩ = indirect ⟨front ++ back, bindings⟩ := by
  have reached : ∀ rows : List Row, (∀ row ∈ rows, row.Listed census) →
      ∀ row ∈ rows.flatMap Row.reach ++ bindings.flatMap Bindings.reachRows,
        row.Listed census := by
    intro rows listed row member
    rcases List.mem_append.mp member with own | below
    · obtain ⟨one, among, own⟩ := List.mem_flatMap.mp own
      exact Row.reach_listed one (listed one among) row own
    · obtain ⟨one, among, below⟩ := List.mem_flatMap.mp below
      exact Bindings.reach_rows_listed one (bound one among) row below
  have all : ∀ row ∈ front ++ stored ++ back, row.Listed census := by
    intro row member
    rw [List.append_assoc, List.mem_append, List.mem_append] at member
    rcases member with before | own | after
    · exact listed row (List.mem_append_left _ before)
    · exact Row.listed_of_stored (aside row own).1 census
    · exact listed row (List.mem_append_right _ after)
  unfold indirect liveRows liveBindings
  rw [bases_of_first _ (reached _ all), bases_of_first _ (reached _ listed)]
  simp only [List.flatMap_append, aside.reach, aside.reach_bindings, List.filter_append,
    aside.none_known, List.append_nil]

/-- When stored rows take the place of others, a row loses and wins the claims of these rows
only. -/
theorem holders_exchange {replacing : List Row} (listed : ∀ row ∈ front ++ back, row.Listed census)
    (bound : ∀ one ∈ bindings, one.Listed census) (aside : Aside census stored)
    (beside : Aside census replacing) (row : Row) :
    holders ⟨front ++ stored ++ back, bindings⟩ row + replacing.countP row.same =
      holders ⟨front ++ replacing ++ back, bindings⟩ row + stored.countP row.same := by
  rw [holders_eq, holders_eq, indirect_without listed bound aside,
    indirect_without listed bound beside]
  simp only [List.countP_append]
  omega

/-- All rows and bindings that are claimed are listed. -/
structure Listed (census : Census) (claims : Claims) : Prop where
  rows : ∀ row ∈ claims.rows, row.Listed census
  bindings : ∀ one ∈ claims.bindings, one.Listed census

theorem Listed.append {claims others : Claims} (listed : claims.Listed census)
    (more : others.Listed census) : (claims ++ others).Listed census where
  rows := List.forall_mem_append.mpr ⟨listed.rows, more.rows⟩
  bindings := List.forall_mem_append.mpr ⟨listed.bindings, more.bindings⟩

end Claims

theorem BindingSource.held_listed {census : Census} {source : BindingSource}
    (listed : source.Listed census) : ∀ one ∈ source.held, one.Listed census := by
  cases source with
  | single bindings state => exact List.forall_mem_singleton.mpr listed
  | several all pending => exact List.forall_mem_append.mpr listed

namespace Plan

variable {census : Census} {plan : Plan}

theorem slices_listed (listed : plan.Listed census) :
    ∀ slice ∈ plan.slices, ∀ row ∈ slice.2, row.Listed census := by
  induction plan with
  | values slice type rows => exact List.forall_mem_singleton.mpr listed
  | table name type => exact fun _ impossible => by cases impossible
  | filter input predicate induction => exact induction listed
  | project input type columns induction => exact induction listed
  | aggregate input type keys aggregates induction => exact induction listed
  | limit input offset limit? induction => exact induction listed

/-- A tree over listed rows is the tree of a plan over listed rows. -/
theorem listed_of_lists {cursor : plan.Cursor} (lists : plan.Lists census cursor) :
    plan.Listed census := by
  induction plan with
  | values slice type rows => exact lists.supply
  | table name type => exact trivial
  | filter input predicate induction => exact induction lists.2.2
  | project input type columns induction => exact induction lists.2.2
  | aggregate input type keys aggregates induction => exact induction lists.2.2
  | limit input offset limit? induction => exact induction lists.2.2

theorem scan_claims_listed {supply : List Row} {scan : Scan} (lists : scan.Lists supply census) :
    (scanClaims scan).Listed census where
  rows := lists.pending
  bindings := List.forall_mem_cons.mpr ⟨lists.current, BindingSource.held_listed lists.source⟩

theorem cursor_claims_listed {cursor : plan.Cursor} (lists : plan.Lists census cursor) :
    (plan.cursorClaims cursor).Listed census := by
  have bound : ∀ {bindings : Bindings}, bindings.Listed census →
      Claims.Listed census ⟨[], [bindings]⟩ := fun listed =>
    ⟨fun _ impossible => (List.not_mem_nil impossible).elim, List.forall_mem_singleton.mpr listed⟩
  induction plan with
  | values slice type rows => exact scan_claims_listed lists
  | table name type => exact scan_claims_listed lists
  | filter input predicate induction => exact (bound lists.1).append (induction lists.2.2)
  | project input type columns induction => exact (bound lists.1).append (induction lists.2.2)
  | aggregate input type keys aggregates induction =>
      refine Claims.Listed.append ⟨fun row held => ?_, List.forall_mem_singleton.mpr lists.1⟩
        (induction lists.2.2)
      exact lists.2.1 row (Option.mem_toList.mp held)
  | limit input offset limit? induction => exact (bound lists.1).append (induction lists.2.2)

end Plan

/-- The rows of all tables. -/
def Store.rows (store : Store) : List Row :=
  store.tables.values.flatMap StoredTable.rows

namespace Session

variable {faulty : LeafCall → Prop} {census : Census} {session : Session}

/-- What the open cursors claim. -/
def cursorClaims (session : Session) : Claims :=
  session.openCursors.foldr (fun cursor rest => cursor.plan.cursorClaims cursor.state ++ rest) {}

theorem Covered.cursor_claims_listed (covered : session.Covered faulty census) :
    session.cursorClaims.Listed census := by
  have known : ∀ cursor ∈ session.openCursors, cursor.plan.Lists census cursor.state := by
    intro cursor member
    obtain ⟨entry, among, rfl⟩ := List.mem_map.mp member
    exact (covered.names.cursors entry among).2
  unfold cursorClaims
  generalize session.openCursors = cursors at known
  induction cursors with
  | nil => exact ⟨nofun, nofun⟩
  | cons first rest induction =>
      obtain ⟨own, others⟩ := List.forall_mem_cons.mp known
      exact (Plan.cursor_claims_listed own).append (induction others)

/-- The rows that are claimed by names and slots. -/
def handles (session : Session) : List Row :=
  session.rows.values ++ session.slots.values.filterMap id

theorem Covered.handles_listed (covered : session.Covered faulty census) :
    ∀ row ∈ session.handles, row.Listed census := by
  intro row member
  rcases List.mem_append.mp member with named | held
  · obtain ⟨entry, among, rfl⟩ := List.mem_map.mp named
    exact covered.names.rows entry among
  · obtain ⟨content, member, present⟩ := List.mem_filterMap.mp held
    obtain ⟨entry, among, rfl⟩ := List.mem_map.mp member
    exact covered.names.slots entry among row present

theorem Covered.slices_listed (covered : session.Covered faulty census) :
    ∀ row ∈ session.slices.flatMap Prod.snd, row.Listed census := by
  intro row member
  obtain ⟨slice, among, own⟩ := List.mem_flatMap.mp member
  rcases List.mem_append.mp (mem_of_first_by_key among) with planned | opened
  · obtain ⟨plan, member, among⟩ := List.mem_flatMap.mp planned
    obtain ⟨entry, named, rfl⟩ := List.mem_map.mp member
    exact Plan.slices_listed (covered.names.plans entry named) slice among row own
  · obtain ⟨cursor, member, among⟩ := List.mem_flatMap.mp opened
    obtain ⟨entry, named, rfl⟩ := List.mem_map.mp member
    exact Plan.slices_listed (Plan.listed_of_lists (covered.names.cursors entry named).2) slice
      among row own

/-- The bindings that are claimed by names, sources and cursors. -/
def bound (session : Session) : List Bindings :=
  session.bindings.values ++ session.sources.values.flatMap BindingSource.held ++
    session.cursorClaims.bindings

theorem Covered.bound_listed (covered : session.Covered faulty census) :
    ∀ one ∈ session.bound, one.Listed census := by
  refine List.forall_mem_append.mpr ⟨List.forall_mem_append.mpr ⟨?_, ?_⟩,
    covered.cursor_claims_listed.bindings⟩
  · intro one member
    obtain ⟨entry, among, rfl⟩ := List.mem_map.mp member
    exact covered.names.bindings entry among
  · intro one member
    obtain ⟨source, member, held⟩ := List.mem_flatMap.mp member
    obtain ⟨entry, among, rfl⟩ := List.mem_map.mp member
    exact BindingSource.held_listed (covered.names.sources entry among) one held

/-- The claims of a session, with those of its store apart. -/
theorem claims_eq (session : Session) :
    session.claims =
      ⟨session.handles ++ session.engine.store.rows ++
        (session.slices.flatMap Prod.snd ++ session.cursorClaims.rows), session.bound⟩ := by
  rw [← List.append_assoc]
  rfl

/-- The stored rows of a covered session. -/
theorem Covered.stored_aside (covered : session.Covered faulty census) :
    Claims.Aside census session.engine.store.rows := by
  intro row member
  obtain ⟨table, member, among⟩ := List.mem_flatMap.mp member
  obtain ⟨entry, named, rfl⟩ := List.mem_map.mp member
  exact ⟨(covered.engine.tidy entry named).plain row among,
    covered.engine.unlisted entry named row among⟩

/-- A session whose engine has only other stored rows: the holders of a row change by the claims of
the store. -/
theorem Covered.holders_stored (covered : session.Covered faulty census) {after : Engine}
    (beside : Claims.Aside census after.store.rows) (row : Row) :
    session.claims.holders row + after.store.rows.countP row.same =
      { session with engine := after }.claims.holders row +
        session.engine.store.rows.countP row.same := by
  rw [claims_eq, claims_eq { session with engine := after }]
  refine Claims.holders_exchange ?_ covered.bound_listed covered.stored_aside beside row
  exact List.forall_mem_append.mpr ⟨covered.handles_listed,
    List.forall_mem_append.mpr ⟨covered.slices_listed, covered.cursor_claims_listed.rows⟩⟩

end Session

end QueryExec
