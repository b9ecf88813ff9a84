import Mathlib.Data.List.Nodup
import Mathlib.Data.List.Perm.Basic
import Mathlib.Logic.Function.Basic
import Mathlib.Logic.Relation
import QueryExec.Proofs.Sharing.Claimable

/-!
Counting holders. A ledger has a holder count for every row and every binding that is there, and
looks at nothing else: the first claim makes a thing, each further one counts one up, each that is
given up counts one down, and whatever comes down to none is freed and gives up what it claimed
itself. Claims are taken and given up in any order, and what is to be given up after a thing was
freed waits until its turn comes.

Whatever the order, the count of a thing is the number of claims on it, nothing that is claimed was
freed, and nothing is freed twice.
-/

namespace QueryExec

structure Ledger where
  /-- The rows and bindings that are there. -/
  objects : List Claimable := []
  /-- The holder counts, by identity. -/
  counts : Nat → Nat := fun _ => 0
  /-- The claims from outside. -/
  outside : List Claimable := []
  /-- Claims that are to be given up and still count. -/
  due : List Claimable := []
  made : List Claimable := []
  freed : List Claimable := []
  /-- The claims that were given up from outside. -/
  surrendered : List Claimable := []
  /-- The claims that no longer count. -/
  released : List Claimable := []

namespace Ledger

/-- At first there is the empty binding, on which there is a claim that is never given up. -/
def opening : Ledger where
  objects := [.bindings .empty]
  counts id := if Bindings.empty.id = id then 1 else 0
  outside := [.bindings .empty]
  made := [.bindings .empty]

/-- One more claim on a thing that is there. -/
def claim (ledger : Ledger) (one : Claimable) : Ledger :=
  { ledger with
    outside := one :: ledger.outside
    counts := Function.update ledger.counts one.id (ledger.counts one.id + 1) }

/-- The first claim on a new thing. The claims on its parts become its own. -/
def make (ledger : Ledger) (one : Claimable) (rest : List Claimable) : Ledger :=
  { ledger with
    objects := one :: ledger.objects
    counts := Function.update ledger.counts one.id 1
    outside := one :: rest
    made := one :: ledger.made }

/-- Gives up a claim from outside. -/
def surrender (ledger : Ledger) (one : Claimable) (rest : List Claimable) : Ledger :=
  { ledger with
    outside := rest
    due := one :: ledger.due
    surrendered := one :: ledger.surrendered }

/-- A thing goes, and its claims on its parts are to be given up. -/
def free (ledger : Ledger) (one : Claimable) : Ledger :=
  { ledger with
    objects := ledger.objects.filter fun other => other.id ≠ one.id
    due := one.parts ++ ledger.due
    freed := one :: ledger.freed }

/-- Counts one claim down; the thing goes if that was the last. -/
def release (ledger : Ledger) (one : Claimable) (rest : List Claimable) : Ledger :=
  let counted : Ledger :=
    { ledger with
      due := rest
      counts := Function.update ledger.counts one.id (ledger.counts one.id - 1)
      released := one :: ledger.released }
  if ledger.counts one.id = 1 then counted.free one else counted

/-- One thing that happens, while the identities below a bound have been given out. A claim is taken
on a thing that is there or makes a new one, under an identity that nothing else ever had. -/
inductive Move (issued : Nat) : Ledger → Ledger → Prop
  | claim {ledger : Ledger} {one : Claimable} (present : one ∈ ledger.objects) :
      Move issued ledger (ledger.claim one)
  | make {ledger : Ledger} {one : Claimable} {rest : List Claimable}
      (new : ∀ other ∈ ledger.objects, other.id ≠ one.id)
      (unused : ∀ other ∈ ledger.freed, other.id ≠ one.id) (given : one.id < issued)
      (held : ledger.outside.Perm (one.parts ++ rest)) : Move issued ledger (ledger.make one rest)
  | surrender {ledger : Ledger} {one : Claimable} {rest : List Claimable}
      (held : ledger.outside.Perm (one :: rest)) : Move issued ledger (ledger.surrender one rest)
  | release {ledger : Ledger} {one : Claimable} {rest : List Claimable}
      (held : ledger.due.Perm (one :: rest)) : Move issued ledger (ledger.release one rest)

abbrev Moves (issued : Nat) : Ledger → Ledger → Prop :=
  Relation.ReflTransGen (Move issued)

/-- Every claim that counts: those from outside, those to be given up and those of the things that
are there. -/
def claims (ledger : Ledger) : List Claimable :=
  ledger.outside ++ ledger.due ++ ledger.objects.flatMap Claimable.parts

/-- How many claims there are on the things of an identity. -/
def claimsOn (claims : List Claimable) (id : Nat) : Nat :=
  (claims.map Claimable.id).count id

/-- The books are right. -/
structure Exact (issued : Nat) (ledger : Ledger) : Prop where
  counted : ∀ id, ledger.counts id = claimsOn ledger.claims id
  present : ∀ one ∈ ledger.claims, one ∈ ledger.objects
  claimed : ∀ one ∈ ledger.objects, one ∈ ledger.claims
  made : ledger.made.Perm (ledger.freed ++ ledger.objects)
  once : (ledger.made.map Claimable.id).Nodup
  below : ∀ one ∈ ledger.made, one.id < issued
  balanced : (ledger.released ++ ledger.due).Perm
    (ledger.surrendered ++ ledger.freed.flatMap Claimable.parts)

variable {issued : Nat} {ledger before after : Ledger} {one other : Claimable}
  {rest : List Claimable}

section Counting

theorem claims_on_cons (one : Claimable) (claims : List Claimable) (id : Nat) :
    claimsOn (one :: claims) id = claimsOn claims id + if one.id = id then 1 else 0 := by
  unfold claimsOn
  rw [List.map_cons, List.count_cons]
  simp

theorem claims_on_perm {claims others : List Claimable} (same : claims.Perm others) (id : Nat) :
    claimsOn claims id = claimsOn others id :=
  (same.map Claimable.id).count_eq id

theorem claims_on_pos {claims : List Claimable} (among : one ∈ claims) :
    0 < claimsOn claims one.id :=
  List.count_pos_iff.mpr (List.mem_map_of_mem among)

theorem not_claimed {claims : List Claimable} {id : Nat} (none : claimsOn claims id = 0) :
    ∀ one ∈ claims, one.id ≠ id := by
  intro one among same
  have some := claims_on_pos among
  rw [same, none] at some
  exact Nat.lt_irrefl 0 some

end Counting

theorem Exact.apart (exact : ledger.Exact issued) :
    (ledger.freed.map Claimable.id ++ ledger.objects.map Claimable.id).Nodup := by
  rw [← List.map_append]
  exact (exact.made.map Claimable.id).nodup_iff.mp exact.once

theorem Exact.distinct (exact : ledger.Exact issued) : (ledger.objects.map Claimable.id).Nodup :=
  (List.nodup_append.mp exact.apart).2.1

/-- Things that are there are told apart by their identities. -/
theorem Exact.same_thing (exact : ledger.Exact issued) (first : one ∈ ledger.objects)
    (second : other ∈ ledger.objects) (same : one.id = other.id) : one = other :=
  List.inj_on_of_nodup_map exact.distinct first second same

/-- Nothing that is there was freed. -/
theorem Exact.not_freed (exact : ledger.Exact issued) (present : one ∈ ledger.objects) :
    ∀ other ∈ ledger.freed, other.id ≠ one.id :=
  fun _ freed => (List.nodup_append.mp exact.apart).2.2 _ (List.mem_map_of_mem freed) _
    (List.mem_map_of_mem present)

theorem exact_opening (given : Bindings.empty.id < issued) : opening.Exact issued where
  counted id := by
    change _ = claimsOn [.bindings .empty] id
    rw [claims_on_cons]
    exact (Nat.zero_add _).symm
  present _ := id
  claimed _ := id
  made := .refl _
  once := List.nodup_singleton _
  below := List.forall_mem_singleton.mpr given
  balanced := .refl _

section Moves

theorem claims_claim (ledger : Ledger) (one : Claimable) :
    (ledger.claim one).claims = one :: ledger.claims :=
  rfl

theorem Exact.claim (exact : ledger.Exact issued) (present : one ∈ ledger.objects) :
    (ledger.claim one).Exact issued := by
  refine { exact with counted := ?_, present := ?_, claimed := ?_ }
  · intro id
    rw [claims_claim, claims_on_cons, ← exact.counted]
    by_cases same : id = one.id
    · subst same
      simp [Ledger.claim]
    · simp [Ledger.claim, same, Ne.symm same]
  · exact List.forall_mem_cons.mpr ⟨present, exact.present⟩
  · exact fun other among => List.mem_cons_of_mem _ (exact.claimed other among)

theorem claims_make (held : ledger.outside.Perm (one.parts ++ rest)) :
    (ledger.make one rest).claims.Perm (one :: ledger.claims) := by
  refine List.Perm.cons one ?_
  change (rest ++ ledger.due ++ (one.parts ++ ledger.objects.flatMap Claimable.parts)).Perm
    (ledger.outside ++ ledger.due ++ ledger.objects.flatMap Claimable.parts)
  refine List.Perm.trans ?_ ((held.symm.append_right _).append_right _)
  rw [← List.append_assoc]
  refine List.Perm.append_right _ ?_
  rw [List.append_assoc one.parts]
  exact List.perm_append_comm

theorem Exact.make (exact : ledger.Exact issued)
    (new : ∀ other ∈ ledger.objects, other.id ≠ one.id)
    (unused : ∀ row ∈ ledger.freed, row.id ≠ one.id) (given : one.id < issued)
    (held : ledger.outside.Perm (one.parts ++ rest)) : (ledger.make one rest).Exact issued := by
  have claims := claims_make held
  have unclaimed : claimsOn ledger.claims one.id = 0 := by
    refine List.count_eq_zero.mpr fun among => ?_
    obtain ⟨other, claimed, same⟩ := List.mem_map.mp among
    exact new other (exact.present other claimed) same
  refine
    { counted := ?_, present := ?_, claimed := ?_, made := ?_, once := ?_, below := ?_,
      balanced := exact.balanced }
  · intro id
    rw [claims_on_perm claims, claims_on_cons, ← exact.counted]
    by_cases same : id = one.id
    · subst same
      simp [Ledger.make, exact.counted, unclaimed]
    · simp [Ledger.make, same, Ne.symm same]
  · intro other among
    rcases List.mem_cons.mp (claims.mem_iff.mp among) with rfl | among
    · exact List.mem_cons_self
    · exact List.mem_cons_of_mem _ (exact.present other among)
  · intro other among
    refine claims.mem_iff.mpr ?_
    rcases List.mem_cons.mp among with rfl | among
    · exact List.mem_cons_self
    · exact List.mem_cons_of_mem _ (exact.claimed other among)
  · exact (exact.made.cons one).trans List.perm_middle.symm
  · refine List.nodup_cons.mpr ⟨fun among => ?_, exact.once⟩
    obtain ⟨other, among, same⟩ := List.mem_map.mp among
    rcases List.mem_append.mp (exact.made.mem_iff.mp among) with freed | kept
    · exact unused other freed same
    · exact new other kept same
  · exact List.forall_mem_cons.mpr ⟨given, exact.below⟩

theorem claims_surrender (held : ledger.outside.Perm (one :: rest)) :
    (ledger.surrender one rest).claims.Perm ledger.claims := by
  change (rest ++ one :: ledger.due ++ _).Perm (ledger.outside ++ ledger.due ++ _)
  refine List.Perm.append_right _ (List.perm_middle.trans ?_)
  exact (held.append_right ledger.due).symm

theorem Exact.surrender (exact : ledger.Exact issued) (held : ledger.outside.Perm (one :: rest)) :
    (ledger.surrender one rest).Exact issued := by
  have claims := claims_surrender held
  refine { exact with counted := ?_, present := ?_, claimed := ?_, balanced := ?_ }
  · exact fun id => (exact.counted id).trans (claims_on_perm claims id).symm
  · exact fun other among => exact.present other (claims.mem_iff.mp among)
  · exact fun other among => claims.mem_iff.mpr (exact.claimed other among)
  · exact List.perm_middle.trans (exact.balanced.cons one)

/-- A thing and the others that are there. -/
theorem Exact.objects_split (exact : ledger.Exact issued) (present : one ∈ ledger.objects) :
    ledger.objects.Perm (one :: ledger.objects.filter fun other => other.id ≠ one.id) := by
  have apart : one ∉ ledger.objects.filter fun other => other.id ≠ one.id := by simp
  have objects : ledger.objects.Nodup := List.Nodup.of_map _ exact.distinct
  refine (List.perm_ext_iff_of_nodup objects
    (List.nodup_cons.mpr ⟨apart, objects.filter _⟩)).mpr fun other => ?_
  rw [List.mem_cons, List.mem_filter, decide_eq_true_iff]
  constructor
  · intro among
    by_cases same : other.id = one.id
    · exact .inl (exact.same_thing among present same)
    · exact .inr ⟨among, same⟩
  · rintro (rfl | ⟨among, _⟩)
    · exact present
    · exact among

/-- What is left when a claim no longer counts and others remain. -/
theorem claims_count_down (held : ledger.due.Perm (one :: rest)) :
    ledger.claims.Perm
      (one :: (ledger.outside ++ rest ++ ledger.objects.flatMap Claimable.parts)) := by
  unfold claims
  refine ((held.append_left ledger.outside).append_right _).trans ?_
  exact List.perm_middle.append_right _

theorem Exact.count_down (exact : ledger.Exact issued) (held : ledger.due.Perm (one :: rest))
    (shared : ledger.counts one.id ≠ 1) : (ledger.release one rest).Exact issued := by
  have claims := claims_count_down held
  have counted := fun id => (exact.counted id).trans
    ((claims_on_perm claims id).trans (claims_on_cons one _ id))
  unfold Ledger.release
  rw [if_neg shared]
  refine { exact with counted := ?_, present := ?_, claimed := ?_, balanced := ?_ }
  · intro id
    have before := counted id
    by_cases same : id = one.id
    · subst same
      rw [if_pos rfl] at before
      simp only [Function.update_self, before]
      rfl
    · rw [if_neg (Ne.symm same)] at before
      simp only [Function.update_of_ne same]
      exact before
  · exact fun other among => exact.present other
      (claims.mem_iff.mpr (List.mem_cons_of_mem _ among))
  · intro other among
    rcases List.mem_cons.mp (claims.mem_iff.mp (exact.claimed other among)) with rfl | others
    · have before := counted other.id
      rw [if_pos rfl] at before
      have some : 0 < claimsOn
          (ledger.outside ++ rest ++ ledger.objects.flatMap Claimable.parts) other.id := by
        omega
      obtain ⟨twin, twins, same⟩ := List.mem_map.mp (List.count_pos_iff.mp some)
      have there := exact.present twin (claims.mem_iff.mpr (List.mem_cons_of_mem _ twins))
      rw [← exact.same_thing there among same]
      exact twins
    · exact others
  · exact (List.perm_middle.symm.trans (held.symm.append_left _)).trans exact.balanced

/-- What is left when the last claim on a thing no longer counts. -/
theorem Exact.claims_free (exact : ledger.Exact issued) (held : ledger.due.Perm (one :: rest))
    (present : one ∈ ledger.objects) :
    ledger.claims.Perm (one :: (ledger.outside ++ (one.parts ++ rest) ++
      (ledger.objects.filter fun other => other.id ≠ one.id).flatMap Claimable.parts)) := by
  refine (claims_count_down held).trans (List.Perm.cons one ?_)
  have objects := (exact.objects_split present).flatMap_right Claimable.parts
  refine (objects.append_left _).trans ?_
  rw [List.flatMap_cons, List.append_assoc, List.append_assoc, List.append_assoc]
  refine List.Perm.append_left _ ?_
  exact List.perm_append_comm_assoc _ _ _

/-- A thing that goes gives up one claim on each of its parts. -/
theorem Exact.balanced_free (exact : ledger.Exact issued) (held : ledger.due.Perm (one :: rest)) :
    (one :: ledger.released ++ (one.parts ++ rest)).Perm
      (ledger.surrendered ++ (one :: ledger.freed).flatMap Claimable.parts) := by
  have before := (List.perm_middle.symm.trans (held.symm.append_left _)).trans exact.balanced
  rw [List.flatMap_cons]
  refine (List.perm_append_comm_assoc _ _ _).trans ?_
  refine (before.append_left one.parts).trans ?_
  exact List.perm_append_comm_assoc _ _ _

theorem Exact.free_last (exact : ledger.Exact issued) (held : ledger.due.Perm (one :: rest))
    (last : ledger.counts one.id = 1) : (ledger.release one rest).Exact issued := by
  have present : one ∈ ledger.objects :=
    exact.present one ((claims_count_down held).mem_iff.mpr List.mem_cons_self)
  have objects := exact.objects_split present
  have claims := exact.claims_free held present
  have counted := fun id => (exact.counted id).trans
    ((claims_on_perm claims id).trans (claims_on_cons one _ id))
  have gone := counted one.id
  rw [last, if_pos rfl] at gone
  have unclaimed := not_claimed (Nat.succ.inj gone.symm)
  unfold Ledger.release
  rw [if_pos last]
  refine { exact with counted := ?_, present := ?_, claimed := ?_, made := ?_, balanced := ?_ }
  · intro id
    have before := counted id
    by_cases same : id = one.id
    · subst same
      rw [if_pos rfl] at before
      simp only [Ledger.free, Function.update_self, before]
      rfl
    · rw [if_neg (Ne.symm same)] at before
      simp only [Ledger.free, Function.update_of_ne same]
      exact before
  · intro other among
    have before := exact.present other (claims.mem_iff.mpr (List.mem_cons_of_mem _ among))
    exact List.mem_filter.mpr ⟨before, decide_eq_true (unclaimed other among)⟩
  · intro other among
    obtain ⟨before, different⟩ := List.mem_filter.mp among
    rcases List.mem_cons.mp (claims.mem_iff.mp (exact.claimed other before)) with rfl | others
    · simp at different
    · exact others
  · exact exact.made.trans ((objects.append_left _).trans List.perm_middle)
  · exact exact.balanced_free held

/-- Whatever happens, the books stay right. -/
theorem Move.exact (move : Move issued before after) (exact : before.Exact issued) :
    after.Exact issued := by
  cases move with
  | claim present => exact exact.claim present
  | make new unused given held => exact exact.make new unused given held
  | surrender held => exact exact.surrender held
  | @release one rest held =>
      by_cases last : before.counts one.id = 1
      · exact exact.free_last held last
      · exact exact.count_down held last

/-- The books stay right however much happens: by induction on what happens. -/
theorem Moves.exact (moves : Moves issued before after) (exact : before.Exact issued) :
    after.Exact issued := by
  induction moves with
  | refl => exact exact
  | tail _ move induction => exact move.exact induction

/-- What was made is not forgotten. -/
theorem Moves.still_made (moves : Moves issued before after) : before.made ⊆ after.made := by
  induction moves with
  | refl => exact List.Subset.refl _
  | @tail amid last _ move induction =>
      have grows : amid.made ⊆ last.made := by
        cases move with
        | make => exact List.subset_cons_self _ _
        | @release one rest held =>
            unfold Ledger.release
            split <;> exact List.Subset.refl _
        | claim | surrender => exact List.Subset.refl _
      exact List.Subset.trans induction grows

theorem Exact.later (exact : ledger.Exact issued) {later : Nat} (grown : issued ≤ later) :
    ledger.Exact later :=
  { exact with below := fun one among => Nat.lt_of_lt_of_le (exact.below one among) grown }

/-- A thing that was there is freed exactly when no claim on it is left. -/
theorem Exact.freed_iff (exact : before.Exact issued) {later : Nat}
    (moves : Moves later before after) (reached : after.Exact later)
    (present : one ∈ before.objects) : one ∈ after.freed ↔ claimsOn after.claims one.id = 0 := by
  have made : one ∈ before.made := exact.made.mem_iff.mpr (List.mem_append_right _ present)
  have kept := List.mem_append.mp (reached.made.mem_iff.mp (moves.still_made made))
  constructor
  · intro freed
    refine List.count_eq_zero.mpr fun among => ?_
    obtain ⟨claim, claims, same⟩ := List.mem_map.mp among
    exact reached.not_freed (reached.present claim claims) one freed same.symm
  · intro none
    refine kept.resolve_right fun there => ?_
    exact not_claimed none one (reached.claimed one there) rfl

end Moves

section Reach

theorem Exact.part_present (exact : ledger.Exact issued) (present : one ∈ ledger.objects)
    (part : other ∈ one.parts) : other ∈ ledger.objects :=
  exact.present other (List.mem_append_right _ (List.mem_flatMap.mpr ⟨one, present, part⟩))

/-- All that a thing leads to is there while the thing is. -/
theorem Exact.reach_present (exact : ledger.Exact issued) (present : one ∈ ledger.objects)
    (reached : other ∈ one.reach) : other ∈ ledger.objects := by
  induction one using Claimable.parts_induction with
  | step one induction =>
      rcases Claimable.mem_reach_iff.mp reached with rfl | ⟨part, among, below⟩
      · exact present
      · exact induction part among (exact.part_present present among) below

/-- Once nothing is due, everything that is there lives because of a claim from outside. The
induction goes up from a thing to the things that claim it, which are larger. -/
theorem Exact.reached_from_outside (exact : ledger.Exact issued) (settled : ledger.due = [])
    (present : one ∈ ledger.objects) : ∃ claim ∈ ledger.outside, one ∈ claim.reach := by
  have bound : ∀ other ∈ ledger.objects, other.size ≤ (ledger.objects.map Claimable.size).sum :=
    fun other among => List.single_le_sum (fun _ _ => Nat.zero_le _) _ (List.mem_map_of_mem among)
  generalize (ledger.objects.map Claimable.size).sum = most at bound
  generalize distance : most - one.size = rest
  induction rest using Nat.strong_induction_on generalizing one with
  | _ rest induction =>
      have claimed := exact.claimed one present
      unfold claims at claimed
      rw [settled, List.append_nil] at claimed
      rcases List.mem_append.mp claimed with outer | inner
      · exact ⟨one, outer, one.mem_reach_self⟩
      · obtain ⟨holder, among, part⟩ := List.mem_flatMap.mp inner
        have smaller := Claimable.size_of_part part
        have within := bound holder among
        obtain ⟨claim, outer, reached⟩ := induction _ (by omega) among rfl
        refine ⟨claim, outer, Claimable.reach_trans reached ?_⟩
        exact Claimable.mem_reach_iff.mpr (.inr ⟨one, part, one.mem_reach_self⟩)

theorem Exact.objects_iff (exact : ledger.Exact issued) (settled : ledger.due = []) :
    one ∈ ledger.objects ↔ ∃ claim ∈ ledger.outside, one ∈ claim.reach := by
  refine ⟨exact.reached_from_outside settled, ?_⟩
  rintro ⟨claim, outer, reached⟩
  refine exact.reach_present (exact.present claim ?_) reached
  exact List.mem_append_left _ (List.mem_append_left _ outer)

end Reach

end Ledger

end QueryExec
