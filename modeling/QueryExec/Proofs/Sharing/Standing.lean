import QueryExec.Proofs.Holders
import QueryExec.Proofs.Sharing.Commands

/-!
What a session claims and what its registry must know. All that is claimed has entries, and a
registry that knows what is claimed and nothing else still covers the session. So whatever is
claimed after a command either was there before it or has an identity that was given out since.
-/

namespace QueryExec

open QueryExec.Action QueryExec.Correspondence

namespace Claims

/-- A condition on all that is claimed from outside. -/
def All (holds : Claimable → Prop) (claims : Claims) : Prop :=
  (∀ row ∈ claims.rows, holds (.row row)) ∧ ∀ bindings ∈ claims.bindings, holds (.bindings bindings)

variable {holds : Claimable → Prop} {claims others : Claims}

theorem all_things : (∀ one ∈ claims.things, holds one) ↔ claims.All holds := by
  simp only [things, List.forall_mem_append, List.forall_mem_map]
  rfl

theorem all_append : (claims ++ others).All holds ↔ claims.All holds ∧ others.All holds := by
  have rows : (claims ++ others).rows = claims.rows ++ others.rows := rfl
  have bindings : (claims ++ others).bindings = claims.bindings ++ others.bindings := rfl
  unfold All
  rw [rows, bindings, List.forall_mem_append, List.forall_mem_append]
  exact and_and_and_comm

theorem all_one_binding {bindings : Bindings} :
    Claims.All holds ⟨[], [bindings]⟩ ↔ holds (.bindings bindings) := by
  simp [All]

end Claims

theorem BindingSource.all_iff_held {holds : Bindings → Prop} {source : BindingSource} :
    source.All holds ↔ ∀ bindings ∈ source.held, holds bindings := by
  cases source with
  | single bindings state => simp [All, held]
  | several all pending => simp [All, held, or_imp, forall_and]

namespace Plan

variable {world : Registry} {plan : Plan} {supply : List Row}

theorem scan_enters_iff {scan : Scan} (supplied : ∀ row ∈ supply, world.Has (.row row)) :
    Scan.Beside registered supply world scan scan ↔ (scanClaims scan).All world.Has := by
  constructor
  · intro enters
    refine ⟨fun row among => (List.forall₂_same.mp enters.pending row among).2, ?_⟩
    exact List.forall_mem_cons.mpr ⟨enters.under, BindingSource.all_iff_held.mp enters.bound⟩
  · rintro ⟨rows, bindings⟩
    obtain ⟨under, bound⟩ := List.forall_mem_cons.mp bindings
    exact ⟨rfl, rfl, rfl, under, BindingSource.all_iff_held.mpr bound,
      List.forall₂_same.mpr fun row among => ⟨rfl, rows row among⟩,
      fun row among => ⟨rfl, supplied row among⟩⟩

theorem lookahead_enters_iff {row? : Option Row} :
    registered.RowsAlike world row? row? ↔ ∀ row ∈ row?.toList, world.Has (.row row) := by
  cases row? with
  | none => exact iff_of_true .none nofun
  | some row =>
      refine ⟨fun alike => ?_, fun has => .some ⟨rfl, has row List.mem_cons_self⟩⟩
      cases alike with
      | some rows => exact List.forall_mem_singleton.mpr rows.2

/-- An operator that keeps no rows claims its binding and what its input claims. -/
theorem kept_enters_iff {own : Type} {input : Plan} {node : Node own input.Cursor}
    (inner : input.Enters world node.input ↔ (input.cursorClaims node.input).All world.Has) :
    Node.Beside registered (KeptSame own) (input.Beside registered) world node node ↔
      ((⟨[], [node.bindings]⟩ : Claims) ++ input.cursorClaims node.input).All world.Has := by
  rw [Claims.all_append, Claims.all_one_binding, ← inner]
  exact ⟨fun enters => ⟨enters.bound, enters.input⟩,
    fun known => ⟨rfl, rfl, known.1, rfl, known.2⟩⟩

/-- A cursor stands beside itself exactly when all that it claims has entries: by induction on the
plan. -/
theorem enters_iff {cursor : plan.Cursor} (supplied : ∀ row ∈ plan.supply, world.Has (.row row)) :
    plan.Enters world cursor ↔ (plan.cursorClaims cursor).All world.Has := by
  induction plan with
  | values slice type rows => exact scan_enters_iff supplied
  | table name type => exact scan_enters_iff fun _ none => by cases none
  | filter input predicate induction => exact kept_enters_iff (induction supplied)
  | project input type columns induction => exact kept_enters_iff (induction supplied)
  | aggregate input type keys aggregates induction =>
      refine Iff.trans ?_ Claims.all_append.symm
      rw [← induction supplied]
      constructor
      · intro enters
        exact ⟨⟨lookahead_enters_iff.mp enters.own.lookahead,
          List.forall_mem_singleton.mpr enters.bound⟩, enters.input⟩
      · rintro ⟨⟨rows, bindings⟩, input⟩
        exact ⟨rfl, rfl, List.forall_mem_singleton.mp bindings,
          ⟨rfl, rfl, rfl, lookahead_enters_iff.mpr rows⟩, input⟩
  | limit input offset limit? induction => exact kept_enters_iff (induction supplied)

end Plan

section Keys

variable {item : Type} {key : item → Nat}

/-- Where a key stands for one item, the first of each key are all of them. -/
theorem mem_first_by_key_iff {items : List item} {one : item}
    (apart : ∀ left ∈ items, ∀ right ∈ items, key left = key right → left = right) :
    one ∈ firstByKey key items ↔ one ∈ items := by
  refine ⟨mem_of_first_by_key, fun among => ?_⟩
  induction items with
  | nil => exact among
  | cons first rest induction =>
      rw [firstByKey, List.mem_cons]
      rcases List.mem_cons.mp among with rfl | later
      · exact .inl rfl
      · by_cases same : key one = key first
        · exact .inl (apart one among first List.mem_cons_self same)
        · refine .inr (List.mem_filter.mpr ⟨induction (fun left others right more => ?_) later, ?_⟩)
          · exact apart left (List.mem_cons_of_mem _ others) right (List.mem_cons_of_mem _ more)
          · simpa using same

theorem first_by_key_nodup (items : List item) : ((firstByKey key items).map key).Nodup := by
  induction items with
  | nil => exact List.nodup_nil
  | cons first rest induction =>
      rw [firstByKey, List.map_cons, List.nodup_cons]
      refine ⟨fun among => ?_, induction.sublist (List.filter_sublist.map key)⟩
      obtain ⟨other, member, same⟩ := List.mem_map.mp among
      exact of_decide_eq_true (List.mem_filter.mp member).2 same

end Keys

namespace Registry

/-- Only the empty binding has an entry, and the first context has its identity. -/
def opening : Registry where
  next := 2
  things id := if id = Bindings.empty.id then some (.bindings .empty) else none
  slices _ := none
  below := by
    intro id one entry
    split at entry
    next same => exact same ▸ Nat.zero_lt_two
    · cases entry
  slices_below := nofun
  empty := if_pos rfl

open Classical in
/-- The registry with the entries of some things only. -/
noncomputable def restrict (world : Registry) (live : Claimable → Prop)
    (empty : live (.bindings .empty)) : Registry where
  next := world.next
  things id := (world.things id).filter fun one => live one
  slices := world.slices
  below id one entry := world.below id one (Option.filter_eq_some_iff.mp entry).1
  slices_below := world.slices_below
  empty := Option.filter_eq_some_iff.mpr ⟨world.empty, decide_eq_true empty⟩

variable {world : Registry} {live : Claimable → Prop} {empty : live (.bindings .empty)}
  {one : Claimable}

theorem restrict_entry {id : Nat} :
    (world.restrict live empty).things id = some one ↔ world.things id = some one ∧ live one := by
  simp [restrict, Option.filter_eq_some_iff]

theorem has_restrict (has : world.Has one) (alive : ∀ other ∈ one.reach, live other) :
    (world.restrict live empty).Has one :=
  fun other reached => restrict_entry.mpr ⟨has other reached, alive other reached⟩

/-- Whatever has an entry under an old identity is one of these things. -/
theorem live_of_restrict {later : Registry} (grown : world.restrict live empty ≤ later)
    (entry : later.things one.id = some one) (old : one.id < world.next) : live one :=
  (restrict_entry.mp ((grown.2 one.id old).1 ▸ entry)).2

end Registry

theorem Table.every_iff_values {key value : Type} [DecidableEq key] {holds : value → Prop}
    {table : Table key value} : table.Every holds ↔ ∀ item ∈ table.values, holds item :=
  List.forall_mem_map.symm

namespace Session

variable {world : Registry} {session : Session}

/-- All that is claimed from outside. The empty binding is always there. -/
def claimed (session : Session) : List Claimable :=
  .bindings .empty :: session.claims.things

/-- What lives because of a claim from outside. -/
def Live (session : Session) (one : Claimable) : Prop :=
  ∃ claim ∈ session.claimed, one ∈ claim.reach

theorem live_empty (session : Session) : session.Live (.bindings .empty) :=
  ⟨_, List.mem_cons_self, Claimable.mem_reach_self _⟩

/-- The lists of rows that plans and cursors share. -/
def shared (session : Session) : List (Nat × List Row) :=
  session.plans.values.flatMap Plan.slices ++
    session.openCursors.flatMap fun cursor => cursor.plan.slices

theorem cursor_claims_all {holds : Claimable → Prop} : session.cursorClaims.All holds ↔
    ∀ cursor ∈ session.openCursors, (cursor.plan.cursorClaims cursor.state).All holds := by
  unfold cursorClaims
  induction session.openCursors with
  | nil => exact iff_of_true ⟨nofun, nofun⟩ nofun
  | cons first rest induction =>
      rw [List.foldr_cons, Claims.all_append, List.forall_mem_cons, induction]

/-- What is claimed, by the place where it is claimed. -/
theorem claims_all {holds : Claimable → Prop} : session.claims.All holds ↔
    (∀ row ∈ session.rows.values, holds (.row row)) ∧
    (∀ row? ∈ session.slots.values, ∀ row ∈ row?, holds (.row row)) ∧
    (∀ table ∈ session.engine.store.tables.values, ∀ row ∈ table.rows, holds (.row row)) ∧
    (∀ slice ∈ session.slices, ∀ row ∈ slice.2, holds (.row row)) ∧
    (∀ bindings ∈ session.bindings.values, holds (.bindings bindings)) ∧
    (∀ source ∈ session.sources.values, source.All fun one => holds (.bindings one)) ∧
    ∀ cursor ∈ session.openCursors, (cursor.plan.cursorClaims cursor.state).All holds := by
  have held : (∀ row ∈ session.slots.values.filterMap id, holds (.row row)) ↔
      ∀ row? ∈ session.slots.values, ∀ row ∈ row?, holds (.row row) := by
    simp only [List.mem_filterMap, id_eq]
    exact ⟨fun all row? among row present => all row ⟨row?, among, present⟩,
      fun all row ⟨row?, among, present⟩ => all row? among row present⟩
  rw [← cursor_claims_all, claims_eq]
  simp only [Claims.All, handles, bound, Store.rows, List.forall_mem_append,
    List.forall_mem_flatMap, BindingSource.all_iff_held, held]
  constructor
  · rintro ⟨⟨⟨⟨rows, slots⟩, stored⟩, slices, given⟩, ⟨named, sources⟩, under⟩
    exact ⟨rows, slots, stored, slices, named, sources, given, under⟩
  · rintro ⟨rows, slots, stored, slices, named, sources, given, under⟩
    exact ⟨⟨⟨⟨rows, slots⟩, stored⟩, slices, given⟩, ⟨named, sources⟩, under⟩

theorem mem_shared_iff {slice : Nat × List Row} : slice ∈ session.shared ↔
    (∃ plan ∈ session.plans.values, slice ∈ plan.slices) ∨
      ∃ cursor ∈ session.openCursors, slice ∈ cursor.plan.slices := by
  simp [shared]

/-- Lists of rows are told apart by their identities once they have entries. -/
theorem mem_slices_iff
    (entries : ∀ slice ∈ session.shared, world.slices slice.1 = some slice.2)
    {slice : Nat × List Row} : slice ∈ session.slices ↔ slice ∈ session.shared := by
  refine mem_first_by_key_iff fun left among right member same => ?_
  have first := entries left among
  rw [same, entries right member] at first
  exact Prod.ext same (Option.some.inj first).symm

/-- A session keeps to its registry exactly when its names are told apart and everything that it
claims has entries. -/
theorem registered_iff : session.Registered world ↔
    session.engine.nextId = world.next ∧ session.rows.keys.Nodup ∧
      (∀ slice ∈ session.shared, world.slices slice.1 = some slice.2) ∧
      session.claims.All world.Has := by
  constructor
  · intro registered
    have plans := Table.every_iff_values.mp registered.plans
    have cursors := Table.every_iff_values.mp registered.cursors
    have entered : ∀ slice ∈ session.shared, world.slices slice.1 = some slice.2 ∧
        ∀ row ∈ slice.2, world.Has (.row row) := by
      intro slice among
      rcases mem_shared_iff.mp among with ⟨plan, named, among⟩ | ⟨cursor, named, among⟩
      · exact plans plan named slice among
      · exact (cursors cursor named).1 slice among
    have entries := fun slice among => (entered slice among).1
    refine ⟨registered.engine.next, registered.once, entries, claims_all.mpr ?_⟩
    exact ⟨Table.every_iff_values.mp registered.rows, Table.every_iff_values.mp registered.slots,
      Table.every_iff_values.mp registered.engine.stored,
      fun slice among => (entered slice ((mem_slices_iff entries).mp among)).2,
      Table.every_iff_values.mp registered.bindings, Table.every_iff_values.mp registered.sources,
      fun cursor named =>
        have known := cursors cursor named
        (Plan.enters_iff known.1.supply).mp known.2⟩
  · rintro ⟨next, once, entries, claims⟩
    obtain ⟨rows, slots, stored, slices, bindings, sources, cursors⟩ := claims_all.mp claims
    have entered : ∀ slice ∈ session.shared, world.slices slice.1 = some slice.2 ∧
        ∀ row ∈ slice.2, world.Has (.row row) :=
      fun slice among => ⟨entries slice among, slices slice ((mem_slices_iff entries).mpr among)⟩
    refine ⟨⟨next, Table.every_iff_values.mpr stored⟩, once, Table.every_iff_values.mpr rows,
      Table.every_iff_values.mpr slots, Table.every_iff_values.mpr fun plan named slice among => ?_,
      Table.every_iff_values.mpr bindings, Table.every_iff_values.mpr sources,
      Table.every_iff_values.mpr fun cursor named => ?_⟩
    · exact entered slice (mem_shared_iff.mpr (.inl ⟨plan, named, among⟩))
    · have own : cursor.plan.Entered world := fun slice among =>
        entered slice (mem_shared_iff.mpr (.inr ⟨cursor, named, among⟩))
      exact ⟨own, (Plan.enters_iff own.supply).mpr (cursors cursor named)⟩

/-- All that is claimed has its entries. -/
theorem Registered.claimed (registered : session.Registered world) :
    ∀ one ∈ session.claimed, world.Has one :=
  List.forall_mem_cons.mpr
    ⟨world.has_empty, Claims.all_things.mpr (registered_iff.mp registered).2.2.2⟩

/-- What lives has its entry. -/
theorem Registered.live (registered : session.Registered world) {one : Claimable}
    (live : session.Live one) : world.things one.id = some one := by
  obtain ⟨claim, among, reached⟩ := live
  exact registered.claimed claim among one reached

/-- A registry that forgets whatever does not live still covers the session. -/
theorem Registered.restrict (registered : session.Registered world) :
    session.Registered (world.restrict session.Live session.live_empty) := by
  obtain ⟨next, once, entries, claims⟩ := registered_iff.mp registered
  refine registered_iff.mpr ⟨next, once, entries, Claims.all_things.mp fun one among => ?_⟩
  refine Registry.has_restrict (Claims.all_things.mpr claims one among) fun other reached => ?_
  exact ⟨one, List.mem_cons_of_mem _ among, reached⟩

/-- A session that begins claims nothing. -/
theorem start_claims {settings : SettingsSource} {catalog : CatalogSource} {probe? : Option Probe}
    (started : Session.start settings catalog probe? = .ok session) :
    session.engine.nextId = 2 ∧ session.rows.keys = [] ∧ session.shared = [] ∧
      session.claims = {} := by
  obtain ⟨_, _, _, _, rfl⟩ := start_made started
  exact ⟨rfl, rfl, rfl, rfl⟩

theorem start_registered {settings : SettingsSource} {catalog : CatalogSource}
    {probe? : Option Probe} (started : Session.start settings catalog probe? = .ok session) :
    session.Registered .opening := by
  obtain ⟨next, keys, shared, claims⟩ := start_claims started
  refine registered_iff.mpr ⟨next, keys ▸ List.nodup_nil, ?_, ?_⟩
  · rw [shared]
    exact nofun
  · rw [claims]
    exact ⟨nofun, nofun⟩

end Session

end QueryExec
