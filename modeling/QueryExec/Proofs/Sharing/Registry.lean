import QueryExec.Proofs.Beside.Plans
import QueryExec.Proofs.Sharing.Claimable

/-!
What an identity stands for. A registry has an entry for each row and each binding that can be
claimed and for each list of rows that plans share, and knows which identities were given out; as it
grows, what was given out keeps its meaning, so a later entry either is an old one or stands for
something new. A run that is in order stands beside itself: that is a correspondence, and every
cursor keeps it.
-/

namespace QueryExec

open QueryExec.Action QueryExec.Correspondence

structure Registry where
  /-- The next identity to be given out. -/
  next : Nat
  things : Nat → Option Claimable
  slices : Nat → Option (List Row)
  below : ∀ id one, things id = some one → id < next
  slices_below : ∀ id rows, slices id = some rows → id < next
  empty : things Bindings.empty.id = some (.bindings .empty)

namespace Registry

instance : Preorder Registry where
  le world later := world.next ≤ later.next ∧ ∀ id < world.next,
    later.things id = world.things id ∧ later.slices id = world.slices id
  le_refl _ := ⟨le_rfl, fun _ _ => ⟨rfl, rfl⟩⟩
  le_trans _ _ _ begun continued :=
    ⟨begun.1.trans continued.1, fun id given =>
      have first := begun.2 id given
      have second := continued.2 id (given.trans_le begun.1)
      ⟨second.1.trans first.1, second.2.trans first.2⟩⟩

variable {world : Registry} {one : Claimable}

/-- A thing and all that it leads to have their entries. -/
def Has (world : Registry) (one : Claimable) : Prop :=
  ∀ other ∈ one.reach, world.things other.id = some other

theorem has_iff_parts :
    world.Has one ↔ world.things one.id = some one ∧ ∀ part ∈ one.parts, world.Has part := by
  constructor
  · intro has
    refine ⟨has one one.mem_reach_self, fun part among other reached => has other ?_⟩
    exact Claimable.mem_reach_iff.mpr (.inr ⟨part, among, reached⟩)
  · rintro ⟨own, below⟩ other reached
    rcases Claimable.mem_reach_iff.mp reached with rfl | ⟨part, among, reached⟩
    · exact own
    · exact below part among other reached

theorem Has.later {later : Registry} (has : world.Has one) (grown : world ≤ later) :
    later.Has one :=
  fun other reached =>
    have entry := has other reached
    (grown.2 other.id (world.below _ _ entry)).1.trans entry

theorem slice_later {later : Registry} (grown : world ≤ later) {id : Nat} {rows : List Row}
    (entry : world.slices id = some rows) : later.slices id = some rows :=
  (grown.2 id (world.slices_below _ _ entry)).2.trans entry

theorem has_empty (world : Registry) : world.Has (.bindings .empty) := by
  refine has_iff_parts.mpr ⟨world.empty, fun part among => ?_⟩
  cases among

/-- The registry after an identity was given out: to a thing, to a list of rows, or to something
that nobody claims. -/
def issue (world : Registry) (one? : Option Claimable) (slice? : Option (List Row)) : Registry where
  next := world.next + 1
  things id := if id = world.next then one? else world.things id
  slices id := if id = world.next then slice? else world.slices id
  below := by
    intro id one entry
    split at entry
    next same => exact same ▸ Nat.lt_succ_self id
    · exact Nat.lt_succ_of_lt (world.below id one entry)
  slices_below := by
    intro id rows entry
    split at entry
    next same => exact same ▸ Nat.lt_succ_self id
    · exact Nat.lt_succ_of_lt (world.slices_below id rows entry)
  empty := by
    have old := world.below _ _ world.empty
    rw [if_neg (Nat.ne_of_lt old)]
    exact world.empty

variable {one? : Option Claimable} {slice? : Option (List Row)}

theorem le_issue : world ≤ world.issue one? slice? :=
  ⟨Nat.le_succ _, fun _ given => ⟨if_neg (Nat.ne_of_lt given), if_neg (Nat.ne_of_lt given)⟩⟩

/-- A new thing whose parts have entries is entered under the next identity. -/
theorem has_issue (own : one.id = world.next) (below : ∀ part ∈ one.parts, world.Has part) :
    (world.issue (some one) slice?).Has one :=
  has_iff_parts.mpr ⟨if_pos own, fun part among => (below part among).later le_issue⟩

/-- The engine gives out the next identity, and all stored rows have entries. -/
structure Covers (world : Registry) (engine : Engine) : Prop where
  next : engine.nextId = world.next
  stored : engine.store.tables.Every fun table => ∀ row ∈ table.rows, world.Has (.row row)

theorem Covers.issue {engine : Engine} (covers : world.Covers engine) :
    (world.issue one? slice?).Covers { engine with nextId := engine.nextId + 1 } where
  next := congrArg (· + 1) covers.next
  stored := Table.every_imp covers.stored fun _ stored row among =>
    (stored row among).later le_issue

end Registry

/-- One thing on both sides, and it is as it should be. -/
def Both {kind : Type} (holds : kind → Prop) (left right : kind) : Prop :=
  left = right ∧ holds left

/-- A run beside itself, with an entry for everything that it comes across. -/
def Correspondence.registered : Correspondence Registry where
  rows world := Both fun row => world.Has (.row row)
  bound world bindings := world.Has (.bindings bindings)
  engines world := Both world.Covers

namespace Registry

variable {world : Registry} {result : Type}

/-- Reading changes the journal and nothing else. -/
theorem correspond_reading (action : Action Journal result) :
    Correspond registered.engines world (Engine.inJournal action) (Engine.inJournal action)
      fun _ => Eq := by
  rintro engine _ ⟨rfl, covers⟩
  have still : world.Covers { engine with journal := (action.run engine.journal).2 } :=
    ⟨covers.next, covers.stored⟩
  change EndLater _ world _ ((action.run engine.journal).1, _) ((action.run engine.journal).1, _)
  cases (action.run engine.journal).1 with
  | ok value => exact ⟨world, le_rfl, ⟨rfl, still⟩, rfl⟩
  | error interrupt => exact ⟨rfl, world, le_rfl, ⟨rfl, still⟩⟩

theorem correspond_read_journal (action : Action Journal result) :
    Correspond registered.engines world (Engine.inJournal action) (Engine.inJournal action)
      fun _ _ _ => True :=
  correspond_imp (correspond_reading action) fun _ _ _ _ => trivial

theorem correspond_new_row (type : RowType) (values : List Datum) :
    Correspond registered.engines world (Engine.newRow type values) (Engine.newRow type values)
      registered.rows := by
  rintro engine _ ⟨rfl, covers⟩
  let made := Claimable.row (.stored engine.nextId type values)
  have has : (world.issue (some made) none).Has made :=
    has_issue covers.next fun _ none => by cases none
  exact ⟨world.issue (some made) none, le_issue, ⟨rfl, covers.issue⟩, ⟨rfl, has⟩⟩

theorem correspond_new_projection {row partner : Row} {bindings : Bindings}
    (rows : registered.rows world row partner) (bound : registered.bound world bindings)
    (type : RowType) (context : Context) (columns : List Expr) :
    Correspond registered.engines world (Engine.newProjection type row context bindings columns)
      (Engine.newProjection type partner context bindings columns) registered.rows := by
  obtain ⟨rfl, has⟩ := rows
  rintro engine _ ⟨rfl, covers⟩
  let made := Claimable.row (.projected engine.nextId type row context bindings columns)
  have entered : (world.issue (some made) none).Has made :=
    has_issue covers.next (List.forall_mem_cons.mpr ⟨has, List.forall_mem_singleton.mpr bound⟩)
  exact ⟨world.issue (some made) none, le_issue, ⟨rfl, covers.issue⟩, ⟨rfl, entered⟩⟩

theorem correspond_inject_fault (call : LeafCall) :
    Correspond registered.engines world (Engine.injectFault call) (Engine.injectFault call)
      fun _ _ _ => True := by
  apply correspond_get
  rintro engine _ ⟨rfl, _⟩
  split
  · split
    · exact correspond_fail _
    · exact correspond_pure trivial
  · exact correspond_pure trivial

/-- Every run keeps to its registry. -/
theorem registered_lawful (context : Context) : registered.Lawful context where
  rows_type rows := congrArg Row.type rows.1
  rows_later := fun _ _ _ _ grown rows => ⟨rows.1, rows.2.later grown⟩
  bound_later := fun grown bound => Has.later bound grown
  bound_empty := has_empty
  tap := fun _ _ => correspond_read_journal _
  check := fun _ => correspond_read_journal _
  read := by
    rintro world row _ ⟨rfl, _⟩ column
    exact correspond_reading _
  eval := by
    rintro world row _ bindings ⟨rfl, _⟩ _ expression
    exact correspond_reading _
  new_row := fun _ => correspond_new_row
  new_projection := fun rows bound type columns =>
    correspond_new_projection rows bound type context columns
  noted := by
    rintro world engine _ call ⟨rfl, covers⟩
    exact ⟨rfl, covers.next, covers.stored⟩
  fault := by
    rintro world engine _ call ⟨rfl, covers⟩
    exact correspond_inject_fault call _ _ ⟨rfl, covers.next, covers.stored⟩
  stored := by
    rintro world engine _ ⟨rfl, covers⟩ name
    refine ⟨rfl, fun table found row among => ⟨rfl, ?_⟩⟩
    unfold Store.table at found
    split at found
    next stored known =>
      cases found
      exact Table.every_get covers.stored known row among
    · cases found

end Registry

end QueryExec
