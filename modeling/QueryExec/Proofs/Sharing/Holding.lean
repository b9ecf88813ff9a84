import QueryExec.Proofs.Sharing.Audit

/-!
What the commands on handles do to the claims of a session. Acquiring a row takes one claim on it,
releasing a name or a slot gives one up, and a handle that goes from a name to a slot or back takes
and gives up none; what was in its new place is given up. So the holders of a row change by the
claims on the row itself, unless something that led to the row goes with the last claim on it.
-/

namespace QueryExec

open QueryExec.Action

namespace Claims

/-- All that lives because of some claims. -/
def living (claims : Claims) : List Claimable :=
  claims.liveRows.map .row ++ claims.liveBindings.map .bindings

variable {claims : Claims}

theorem living_nodup : claims.living.Nodup := by
  have rows : claims.liveRows.Nodup := List.Nodup.of_map _ (first_by_key_nodup _)
  have bindings : claims.liveBindings.Nodup := List.Nodup.of_map _ (first_by_key_nodup _)
  refine List.Nodup.append (rows.map fun _ _ => Claimable.row.inj)
    (bindings.map fun _ _ => Claimable.bindings.inj) fun one row bound => ?_
  obtain ⟨_, _, rfl⟩ := List.mem_map.mp row
  obtain ⟨_, _, other⟩ := List.mem_map.mp bound
  cases other

/-- What lives claims the rows among its parts. -/
theorem indirect_perm :
    claims.indirect.Perm ((claims.living.flatMap Claimable.parts).filterMap Claimable.row?) := by
  have parts := (Claimable.rows_of_all_parts claims.living).symm
  have rows : claims.living.filterMap Claimable.row? = claims.liveRows := by
    simp [living, List.filterMap_map, Function.comp_def, Claimable.row?]
  have bindings : claims.living.filterMap Claimable.bindings? = claims.liveBindings := by
    simp [living, List.filterMap_map, Function.comp_def, Claimable.bindings?]
  rwa [rows, bindings] at parts

end Claims

namespace Session

variable {session after : Session} {world later : Registry} {taken given : List Row}
  {row held : Row} {source name slot : String}

/-- Two sessions of which the second claims what the first claims, except that the claims on some
rows were taken and those on others were given up. -/
structure Exchanges (session after : Session) (taken given : List Row) : Prop where
  rows : (given ++ after.claims.rows).Perm (taken ++ session.claims.rows)
  bindings : after.claims.bindings = session.claims.bindings

section Handles

/-- Where only names and slots change, only their claims do. -/
theorem exchanges_of_handles {rows : Table String Row} {slots : Table String (Option Row)}
    (handles : (given ++ { session with rows, slots }.handles).Perm (taken ++ session.handles)) :
    session.Exchanges { session with rows, slots } taken given := by
  refine ⟨?_, rfl⟩
  have others := handles.append_right
    (session.engine.store.rows ++ (session.slices.flatMap Prod.snd ++ session.cursorClaims.rows))
  rw [claims_eq, claims_eq session]
  simp only [List.append_assoc] at others ⊢
  exact others

/-- What a slot holds. -/
def content (session : Session) (slot : String) : Option Row :=
  (session.slots.get? slot).getD none

theorem slot_content_run (session : Session) (slot : String) :
    (slotContent slot).run session = (.ok (session.content slot), session) :=
  rfl

/-- A slot gives up what it held for what it is to hold. -/
theorem slots_set (session : Session) (slot : String) (holds : Option Row) :
    ((session.content slot).toList ++ (session.slots.set slot holds).values.filterMap id).Perm
      (holds.toList ++ session.slots.values.filterMap id) := by
  have given : (session.slots.get? slot).toList.filterMap id = (session.content slot).toList := by
    unfold content
    rcases session.slots.get? slot with _ | _ | old <;> rfl
  have taken : (holds :: session.slots.values).filterMap id =
      holds.toList ++ session.slots.values.filterMap id := by
    cases holds <;> rfl
  rw [← given, ← taken, ← List.filterMap_append]
  exact (session.slots.values_set slot holds).filterMap id

/-- One more name for a row is one more claim on it. -/
theorem acquire_exchanges (named : session.rows.get? source = some held) (name : String) :
    session.Exchanges (session.step (.acquire source name)).2 [held]
      (session.rows.get? name).toList := by
  have made : (session.step (.acquire source name)).2 =
      { session with rows := session.rows.set name held } := by
    change ((rowNamed source >>= _ : SessionAction Reply).run session).2 = _
    rw [run_bind, row_named_run named]
    rfl
  rw [made]
  refine exchanges_of_handles ?_
  unfold handles
  rw [← List.append_assoc]
  exact (session.rows.values_set name held).append_right _

/-- Releasing a name gives up the claim that the name was. -/
theorem release_exchanges (registered : session.Registered world)
    (named : session.rows.get? name = some held) :
    session.Exchanges (session.step (.release name)).2 [] [held] := by
  have made : (session.step (.release name)).2 =
      { session with rows := session.rows.erase name } := by
    change ((rowNamed name >>= _ : SessionAction Reply).run session).2 = _
    rw [run_bind, row_named_run named]
    rfl
  rw [made]
  refine exchanges_of_handles ?_
  exact ((Table.values_erase registered.once named).append_right _).symm

/-- A claim moves from a name to a slot, and what the slot held is given up. -/
theorem hold_exchanges (registered : session.Registered world)
    (named : session.rows.get? name = some held) (slot : String) :
    session.Exchanges (session.step (.hold slot name)).2 [] (session.content slot).toList := by
  have made : (session.step (.hold slot name)).2 =
      { session with
        rows := session.rows.erase name
        slots := session.slots.set slot (some held) } := by
    change ((rowNamed name >>= _ : SessionAction Reply).run session).2 = _
    rw [run_bind, row_named_run named]
    rfl
  rw [made]
  refine exchanges_of_handles ?_
  have names := Table.values_erase registered.once named
  have slots := session.slots_set slot (some held)
  unfold handles
  refine List.perm_append_comm_assoc .. |>.trans ?_
  refine (slots.append_left _).trans ?_
  exact List.perm_middle.trans (names.symm.append_right _)

/-- A claim moves from a slot to a name, and what had the name is given up. -/
theorem take_slot_exchanges (full : session.content slot = some held) (name : String) :
    session.Exchanges (session.step (.takeSlot slot name)).2 []
      (session.rows.get? name).toList := by
  have made : (session.step (.takeSlot slot name)).2 =
      { session with
        rows := session.rows.set name held
        slots := session.slots.set slot none } := by
    change ((slotContent slot >>= _ : SessionAction Reply).run session).2 = _
    rw [run_bind, slot_content_run, full]
    rfl
  rw [made]
  refine exchanges_of_handles ?_
  have names := session.rows.values_set name held
  have slots := session.slots_set slot none
  rw [full] at slots
  unfold handles
  rw [← List.append_assoc]
  refine (names.append_right _).trans ?_
  exact List.perm_middle.symm.trans (slots.append_left _)

/-- An empty slot is left as it is. -/
theorem take_slot_empty (empty : session.content slot = none) :
    session.step (.takeSlot slot name) = (.ok (.truth false), session) := by
  change (slotContent slot >>= _ : SessionAction Reply).run session = _
  rw [run_bind, slot_content_run, empty]
  rfl

/-- Emptying a slot gives up what it held. -/
theorem release_slot_exchanges (session : Session) (slot : String) :
    session.Exchanges (session.step (.releaseSlot slot)).2 [] (session.content slot).toList := by
  refine exchanges_of_handles ?_
  unfold handles
  refine List.perm_append_comm_assoc .. |>.trans ?_
  exact (session.slots_set slot none).append_left _

end Handles

section Holders

/-- All that lives is listed; the empty binding, which has no parts, may live unclaimed. -/
theorem Registered.mem_living_iff (registered : session.Registered world) {one : Claimable}
    (some : one.parts ≠ []) : one ∈ session.claims.living ↔ session.Live one := by
  rcases one with row | bound
  · simpa [Claims.living] using registered.mem_live_rows_iff
  · have filled : bound ≠ .empty := by
      rintro rfl
      exact some rfl
    rw [← registered.mem_live_bindings_iff, or_iff_right filled]
    simp [Claims.living]

/-- What lives does so because of a claim on a row or a claim on a binding. -/
theorem live_iff {one : Claimable} : session.Live one ↔
    (∃ claim ∈ session.claims.rows, one ∈ (Claimable.row claim).reach) ∨
      ∃ bound ∈ .empty :: session.claims.bindings, one ∈ (Claimable.bindings bound).reach := by
  unfold Live claimed Claims.things
  simp only [List.mem_cons, List.mem_append, List.mem_map, or_and_right, exists_or,
    exists_eq_left, exists_exists_and_eq_and]
  exact or_left_comm

namespace Exchanges

variable (exchanges : session.Exchanges after taken given)
include exchanges

/-- Where only what lives is taken, nothing comes to life. -/
theorem live_before (known : ∀ other ∈ taken, session.Live (.row other)) {one : Claimable}
    (live : after.Live one) : session.Live one := by
  rcases live_iff.mp live with ⟨claim, among, reached⟩ | bound
  · have before : claim ∈ taken ++ session.claims.rows :=
      exchanges.rows.mem_iff.mp (List.mem_append_right _ among)
    rcases List.mem_append.mp before with other | kept
    · obtain ⟨own, claimed, above⟩ := known claim other
      exact ⟨own, claimed, Claimable.reach_trans above reached⟩
    · exact live_iff.mpr (.inl ⟨claim, kept, reached⟩)
  · exact live_iff.mpr (.inr (exchanges.bindings ▸ bound))

/-- What has a row among its parts lives on, unless it goes with something else that led to the
row. -/
theorem live_after {row : Row}
    (apart : ∀ other ∈ given, other = row ∨ after.Live (.row other) ∨ row ∉ other.reach)
    {one : Claimable} (part : .row row ∈ one.parts) (live : session.Live one) :
    after.Live one := by
  have below : .row row ∈ one.reach :=
    Claimable.mem_reach_iff.mpr (.inr ⟨_, part, Claimable.mem_reach_self _⟩)
  rcases live_iff.mp live with ⟨claim, among, reached⟩ | bound
  · have later : claim ∈ given ++ after.claims.rows :=
      exchanges.rows.mem_iff.mpr (List.mem_append_right _ among)
    rcases List.mem_append.mp later with other | kept
    · rcases apart claim other with rfl | ⟨own, claimed, above⟩ | beside
      · -- A row does not lead to what it is a part of.
        have larger := Claimable.size_of_reach reached
        have smaller := Claimable.size_of_part part
        omega
      · exact ⟨own, claimed, Claimable.reach_trans above reached⟩
      · have through := Claimable.reach_trans reached below
        exact absurd (Claimable.row_mem_reach_row.mp through) beside
    · exact live_iff.mpr (.inl ⟨claim, kept, reached⟩)
  · exact live_iff.mpr (.inr (exchanges.bindings.symm ▸ bound))

/-- The holders of a row change by the claims on it that were taken and given up. -/
theorem holders (registered : session.Registered world) (remains : after.Registered later)
    (known : ∀ other ∈ taken, session.Live (.row other)) {row : Row}
    (live : session.Live (.row row))
    (apart : ∀ other ∈ given, other = row ∨ after.Live (.row other) ∨ row ∉ other.reach) :
    after.claims.holders row + given.countP row.same =
      session.claims.holders row + taken.countP row.same := by
  have indirect : after.claims.indirect.countP row.same =
      session.claims.indirect.countP row.same := by
    rw [Claims.indirect_perm.countP_eq, Claims.indirect_perm.countP_eq,
      List.countP_eq_length_filter, List.countP_eq_length_filter, List.filterMap_flatMap,
      List.filterMap_flatMap, List.filter_flatMap, List.filter_flatMap]
    refine (flat_map_perm Claims.living_nodup Claims.living_nodup fun one some => ?_).length_eq
    obtain ⟨other, among⟩ := List.exists_mem_of_ne_nil _ some
    obtain ⟨part, same⟩ := List.mem_filter.mp among
    have part := Claimable.mem_rows_iff.mp part
    have parts : one.parts ≠ [] := List.ne_nil_of_mem part
    rw [remains.mem_living_iff parts, registered.mem_living_iff parts]
    refine ⟨exchanges.live_before known, fun before => ?_⟩
    have below : session.Live (.row other) := by
      obtain ⟨claim, claimed, reached⟩ := before
      exact ⟨claim, claimed, Claimable.reach_trans reached
        (Claimable.mem_reach_iff.mpr (.inr ⟨_, part, Claimable.mem_reach_self _⟩))⟩
    have equal := registered.same_thing live below (beq_iff_eq.mp same)
    rw [← equal] at part
    exact exchanges.live_after apart part before
  have direct := exchanges.rows.countP_eq row.same
  rw [List.countP_append, List.countP_append] at direct
  rw [Claims.holders_eq, Claims.holders_eq, indirect]
  omega

end Exchanges

/-- One holder of a row is gone. Every other row has the holders that it had, unless the row led to
it and is gone as well. -/
structure Drops (session after : Session) (held : Row) : Prop where
  own : after.claims.holders held + 1 = session.claims.holders held
  others : ∀ row ∈ session.claims.liveRows, row ≠ held →
    held ∈ after.claims.liveRows ∨ row ∉ held.reach →
    after.claims.holders row = session.claims.holders row

theorem Registered.count_other (registered : session.Registered world)
    (live : held ∈ session.claims.liveRows) (among : row ∈ session.claims.liveRows)
    (different : row ≠ held) : [held].countP row.same = 0 := by
  refine List.countP_eq_zero.mpr fun one single same => ?_
  rw [List.mem_singleton.mp single] at same
  have equal := registered.same_thing (registered.mem_live_rows_iff.mp among)
    (registered.mem_live_rows_iff.mp live) (beq_iff_eq.mp same)
  exact different (Claimable.row.inj equal)

theorem count_own (held : Row) : [held].countP held.same = 1 :=
  List.countP_singleton.trans (if_pos (beq_self_eq_true held.id))

section Commands

variable {command : Command} (reached : session.Reached fun _ => True)
include reached

theorem Reached.registered : ∃ world, session.Registered world := by
  obtain ⟨_, audited⟩ := reached.audited
  obtain ⟨world, balanced⟩ := audited.balanced
  exact ⟨world, balanced.registered⟩

theorem Reached.named_live (named : session.rows.get? name = some held) :
    held ∈ session.claims.liveRows := by
  obtain ⟨_, audited⟩ := reached.audited
  obtain ⟨_, balanced⟩ := audited.balanced
  exact balanced.named_live named

/-- The holders of a live row after a command that takes no claims but on live rows. -/
theorem Exchanges.holders_step (exchanges : session.Exchanges (session.step command).2 taken given)
    (known : ∀ other ∈ taken, other ∈ session.claims.liveRows)
    (live : row ∈ session.claims.liveRows)
    (apart : ∀ other ∈ given, other = row ∨
      other ∈ (session.step command).2.claims.liveRows ∨ row ∉ other.reach) :
    (session.step command).2.claims.holders row + given.countP row.same =
      session.claims.holders row + taken.countP row.same := by
  obtain ⟨_, registered⟩ := reached.registered
  obtain ⟨_, remains⟩ := (reached.step command).registered
  refine exchanges.holders registered remains (fun other among => ?_)
    (registered.mem_live_rows_iff.mp live) fun other among => ?_
  · exact registered.mem_live_rows_iff.mp (known other among)
  · rw [← remains.mem_live_rows_iff]
    exact apart other among

theorem Exchanges.keeps (exchanges : session.Exchanges (session.step command).2 [] [])
    (live : row ∈ session.claims.liveRows) :
    (session.step command).2.claims.holders row = session.claims.holders row := by
  have counted := exchanges.holders_step reached nofun live nofun
  rwa [List.countP_nil, Nat.add_zero, Nat.add_zero] at counted

theorem Exchanges.drops (exchanges : session.Exchanges (session.step command).2 [] [held]) :
    session.Drops (session.step command).2 held := by
  obtain ⟨_, registered⟩ := reached.registered
  have live : held ∈ session.claims.liveRows := by
    have claimed : held ∈ session.claims.rows := exchanges.rows.mem_iff.mp List.mem_cons_self
    exact registered.mem_live_rows_iff.mpr
      (live_iff.mpr (.inl ⟨held, claimed, Claimable.mem_reach_self _⟩))
  constructor
  · have counted := exchanges.holders_step reached nofun live
      (List.forall_mem_singleton.mpr (.inl rfl))
    rwa [count_own, List.countP_nil, Nat.add_zero] at counted
  · intro row among different apart
    have counted := exchanges.holders_step reached nofun among
      (List.forall_mem_singleton.mpr (.inr apart))
    rwa [registered.count_other live among different, List.countP_nil, Nat.add_zero,
      Nat.add_zero] at counted

/-- To acquire a row under a new name makes one more holder of it and of no other row. -/
theorem Reached.acquire_adds_holder (named : session.rows.get? source = some held)
    (new : session.rows.get? name = none) :
    (session.step (.acquire source name)).2.claims.holders held =
        session.claims.holders held + 1 ∧
      ∀ row ∈ session.claims.liveRows, row ≠ held →
        (session.step (.acquire source name)).2.claims.holders row =
          session.claims.holders row := by
  obtain ⟨_, registered⟩ := reached.registered
  have live := reached.named_live named
  have exchanges := acquire_exchanges named name
  rw [new] at exchanges
  constructor
  · have counted := exchanges.holders_step reached (List.forall_mem_singleton.mpr live) live nofun
    rwa [count_own, Option.toList_none, List.countP_nil, Nat.add_zero] at counted
  · intro row among different
    have counted := exchanges.holders_step reached (List.forall_mem_singleton.mpr live) among nofun
    rwa [registered.count_other live among different, Option.toList_none, List.countP_nil,
      Nat.add_zero, Nat.add_zero] at counted

theorem Reached.release_drops (named : session.rows.get? name = some held) :
    session.Drops (session.step (.release name)).2 held := by
  obtain ⟨_, registered⟩ := reached.registered
  exact (release_exchanges registered named).drops reached

/-- To move a handle into an empty slot changes the holders of no row. -/
theorem Reached.hold_keeps (named : session.rows.get? name = some held)
    (empty : session.content slot = none) (live : row ∈ session.claims.liveRows) :
    (session.step (.hold slot name)).2.claims.holders row = session.claims.holders row := by
  obtain ⟨_, registered⟩ := reached.registered
  have exchanges := hold_exchanges registered named slot
  rw [empty] at exchanges
  exact exchanges.keeps reached live

/-- To move a handle into a full slot gives up the row that was there. -/
theorem Reached.hold_drops {old : Row} (named : session.rows.get? name = some held)
    (full : session.content slot = some old) :
    session.Drops (session.step (.hold slot name)).2 old := by
  obtain ⟨_, registered⟩ := reached.registered
  have exchanges := hold_exchanges registered named slot
  rw [full] at exchanges
  exact exchanges.drops reached

/-- To take a handle out of its slot under a new name changes the holders of no row. -/
theorem Reached.take_slot_keeps (full : session.content slot = some held)
    (new : session.rows.get? name = none) (live : row ∈ session.claims.liveRows) :
    (session.step (.takeSlot slot name)).2.claims.holders row = session.claims.holders row := by
  have exchanges := take_slot_exchanges full name
  rw [new] at exchanges
  exact exchanges.keeps reached live

theorem Reached.release_slot_drops (full : session.content slot = some held) :
    session.Drops (session.step (.releaseSlot slot)).2 held := by
  have exchanges := session.release_slot_exchanges slot
  rw [full] at exchanges
  exact exchanges.drops reached

end Commands

end Holders

end Session

end QueryExec
