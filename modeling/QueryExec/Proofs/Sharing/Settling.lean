import QueryExec.Proofs.Sharing.Ledger

/-!
What a ledger can come to. Claims on new things can be taken part by part, claims from outside can
be given up in any order, and what is due runs out. So a ledger can follow every change of what is
claimed from outside, unless something that was freed is claimed again.
-/

namespace QueryExec.Ledger

variable {issued : Nat} {things : Nat → Option Claimable} {ledger before middle after : Ledger}
  {claims more : List Claimable} {one : Claimable}

/-- Identities stand for one thing each. -/
def Known (things : Nat → Option Claimable) (ledger : Ledger) : Prop :=
  ∀ one ∈ ledger.objects, things one.id = some one

/-- All that the claims lead to may be claimed: an identity stands for one thing, is given out, and
was nothing's that was freed. -/
def Admits (things : Nat → Option Claimable) (issued : Nat) (ledger : Ledger)
    (claims : List Claimable) : Prop :=
  ∀ claim ∈ claims, ∀ one ∈ claim.reach,
    things one.id = some one ∧ one.id < issued ∧ ∀ other ∈ ledger.freed, other.id ≠ one.id

/-- Some claims were taken and nothing else happened. -/
structure Takes (issued : Nat) (claims : List Claimable) (before after : Ledger) : Prop where
  moves : Moves issued before after
  outside : after.outside = claims ++ before.outside
  due : after.due = before.due
  freed : after.freed = before.freed
  objects : ∀ one ∈ after.objects, one ∈ before.objects ∨ ∃ claim ∈ claims, one ∈ claim.reach

theorem Takes.admits (takes : Takes issued claims before after)
    (admits : before.Admits things issued more) : after.Admits things issued more := by
  unfold Admits
  rw [takes.freed]
  exact admits

theorem Takes.known (takes : Takes issued claims before after) (known : before.Known things)
    (admits : before.Admits things issued claims) : after.Known things := by
  intro one present
  rcases takes.objects one present with old | ⟨claim, among, reached⟩
  · exact known one old
  · exact (admits claim among one reached).1

/-- Claims that can be taken from any right books that admit them. -/
def Takeable (things : Nat → Option Claimable) (issued : Nat) (claims : List Claimable) : Prop :=
  ∀ before : Ledger, before.Exact issued → before.Known things →
    before.Admits things issued claims → ∃ after, Takes issued claims before after

/-- Claims are taken one after the other. -/
theorem takeable_all (each : ∀ claim ∈ claims, Takeable things issued [claim]) :
    Takeable things issued claims := by
  induction claims with
  | nil =>
      exact fun before _ _ _ => ⟨before, .refl, rfl, rfl, rfl, fun one present => .inl present⟩
  | cons first rest induction =>
      intro before exact known admits
      obtain ⟨own, others⟩ := List.forall_mem_cons.mp each
      obtain ⟨head, tail⟩ := List.forall_mem_cons.mp admits
      obtain ⟨middle, rests⟩ := induction others before exact known tail
      obtain ⟨after, takes⟩ := own middle (rests.moves.exact exact) (rests.known known tail)
        (rests.admits (List.forall_mem_singleton.mpr head))
      refine ⟨after, rests.moves.trans takes.moves, ?_, takes.due.trans rests.due,
        takes.freed.trans rests.freed, ?_⟩
      · rw [takes.outside, rests.outside, List.singleton_append, List.cons_append]
      · intro one present
        rcases takes.objects one present with old | ⟨claim, among, reached⟩
        · rcases rests.objects one old with older | ⟨claim, among, reached⟩
          · exact .inl older
          · exact .inr ⟨claim, List.mem_cons_of_mem _ among, reached⟩
        · rw [List.mem_singleton.mp among] at reached
          exact .inr ⟨first, List.mem_cons_self, reached⟩

/-- A claim on any thing can be taken: on one that is there at once, on a new one after claims on
its parts, which are smaller. -/
theorem takeable (one : Claimable) : Takeable things issued [one] := by
  induction one using Claimable.parts_induction with
  | step one induction =>
      intro before exact known admits
      have own := List.forall_mem_singleton.mp admits
      by_cases present : one ∈ before.objects
      · refine ⟨before.claim one, .single (.claim present), rfl, rfl, rfl, ?_⟩
        exact fun other among => .inl among
      · have below : before.Admits things issued one.parts := fun part among other reached =>
          own other (Claimable.mem_reach_iff.mpr (.inr ⟨part, among, reached⟩))
        obtain ⟨middle, takes⟩ := takeable_all induction before exact known below
        obtain ⟨identity, given, unused⟩ := own one one.mem_reach_self
        have new : ∀ other ∈ middle.objects, other.id ≠ one.id := by
          intro other among same
          have known := takes.known known below other among
          rw [same, identity] at known
          cases known
          refine (takes.objects one among).elim present ?_
          rintro ⟨part, among, reached⟩
          have larger := Claimable.size_of_reach reached
          have smaller := Claimable.size_of_part among
          omega
        have held : middle.outside.Perm (one.parts ++ before.outside) :=
          takes.outside ▸ List.Perm.refl _
        rw [← takes.freed] at unused
        refine ⟨middle.make one before.outside, takes.moves.tail (.make new unused given held), rfl,
          takes.due, takes.freed, ?_⟩
        intro other among
        rcases List.mem_cons.mp among with rfl | among
        · exact .inr ⟨other, List.mem_singleton.mpr rfl, other.mem_reach_self⟩
        · refine (takes.objects other among).imp_right ?_
          rintro ⟨part, among, reached⟩
          exact ⟨one, List.mem_singleton.mpr rfl,
            Claimable.mem_reach_iff.mpr (.inr ⟨part, among, reached⟩)⟩

/-- Claims from outside can be given up one after the other. -/
theorem surrenders (issued : Nat) {keep gone : List Claimable}
    (held : ledger.outside.Perm (gone ++ keep)) :
    ∃ after, Moves issued ledger after ∧ after.outside.Perm keep := by
  induction gone generalizing ledger with
  | nil => exact ⟨ledger, .refl, held⟩
  | cons first rest induction =>
      have given : (ledger.surrender first (rest ++ keep)).outside.Perm (rest ++ keep) := .refl _
      obtain ⟨after, moves, kept⟩ := induction given
      exact ⟨after, .head (.surrender held) moves, kept⟩

/-- What is due runs out: each claim that is given up leaves less to be given up. -/
theorem settles (issued : Nat) (ledger : Ledger) :
    ∃ after, Moves issued ledger after ∧ after.outside = ledger.outside ∧ after.due = [] := by
  generalize weight : (ledger.due.map Claimable.size).sum = rest
  induction rest using Nat.strong_induction_on generalizing ledger with
  | _ rest induction =>
      cases due : ledger.due with
      | nil => exact ⟨ledger, .refl, rfl, due⟩
      | cons one others =>
          have size := one.size_eq
          rw [due, List.map_cons, List.sum_cons] at weight
          have next : ((ledger.release one others).due.map Claimable.size).sum < rest ∧
              (ledger.release one others).outside = ledger.outside := by
            unfold Ledger.release
            split
            · refine ⟨?_, rfl⟩
              change ((one.parts ++ others).map Claimable.size).sum < rest
              rw [List.map_append, List.sum_append]
              omega
            · refine ⟨?_, rfl⟩
              change (others.map Claimable.size).sum < rest
              omega
          obtain ⟨after, moves, outside, settled⟩ := induction _ next.1 _ rfl
          exact ⟨after, .head (.release (due ▸ List.Perm.refl _)) moves, outside.trans next.2,
            settled⟩

/-- The books can follow a change of what is claimed from outside. -/
theorem follows (exact : ledger.Exact issued) (known : ledger.Known things)
    (admits : ledger.Admits things issued claims) :
    ∃ after, Moves issued ledger after ∧ after.outside.Perm claims ∧ after.due = [] := by
  obtain ⟨middle, takes⟩ := takeable_all (fun one _ => takeable one) ledger exact known admits
  have held : middle.outside.Perm (ledger.outside ++ claims) :=
    takes.outside ▸ List.perm_append_comm
  obtain ⟨later, given, kept⟩ := surrenders issued held
  obtain ⟨after, moves, outside, settled⟩ := settles issued later
  exact ⟨after, (takes.moves.trans given).trans moves, outside ▸ kept, settled⟩

end QueryExec.Ledger
