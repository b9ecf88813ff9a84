import Mathlib.Data.List.Nodup
import QueryExec.Proofs.Row.Equality

/-!
Building catalogs. Conversions are added one after another, and each is refused that maps a kind to
itself or repeats the pair of an earlier one. A catalog comes of the list exactly when none is
refused; it then holds all of them, and a pair leads to the one conversion that was registered for
it.
-/

namespace QueryExec

/-- The kinds that a conversion is registered for. -/
def Conversion.pair (conversion : Conversion) : Kind × Kind :=
  (conversion.source, conversion.target)

namespace Catalog

/-- No conversion maps a kind to itself and no pair of kinds has two conversions. -/
structure Registrable (conversions : List Conversion) : Prop where
  moves : ∀ conversion ∈ conversions, conversion.source ≠ conversion.target
  apart : (conversions.map Conversion.pair).Nodup

/-- Why a conversion cannot be added after others. -/
inductive Refuses (earlier : List Conversion) (conversion : Conversion) : Misconfiguration → Prop
  | identity (same : conversion.source = conversion.target) :
      Refuses earlier conversion (.identityConversion conversion.source)
  | duplicate (taken : conversion.pair ∈ earlier.map Conversion.pair) :
      Refuses earlier conversion (.duplicateConversion conversion.source conversion.target)

variable {earlier rest later conversions : List Conversion} {conversion : Conversion}
  {cause : Misconfiguration} {source target : Kind}

theorem registrable_nil : Registrable [] where
  moves := nofun
  apart := List.nodup_nil

theorem Registrable.front (registrable : Registrable (earlier ++ later)) : Registrable earlier where
  moves _ among := registrable.moves _ (List.mem_append_left _ among)
  apart := registrable.apart.sublist ((List.sublist_append_left earlier later).map _)

theorem Registrable.snoc (registrable : Registrable earlier)
    (moves : conversion.source ≠ conversion.target)
    (free : conversion.pair ∉ earlier.map Conversion.pair) :
    Registrable (earlier ++ [conversion]) where
  moves := List.forall_mem_append.mpr ⟨registrable.moves, List.forall_mem_singleton.mpr moves⟩
  apart := by
    rw [List.map_append, List.map_singleton]
    exact List.concat_eq_append ▸ registrable.apart.concat free

/-- What is refused after some conversions makes no list of conversions registrable. -/
theorem Refuses.not_registrable (refuses : Refuses earlier conversion cause) :
    ¬Registrable (earlier ++ conversion :: later) := by
  intro registrable
  cases refuses with
  | identity same => exact registrable.moves conversion (by simp) same
  | duplicate taken =>
      have apart := registrable.apart
      rw [List.map_append, List.map_cons, List.nodup_append] at apart
      exact apart.2.2 _ taken _ List.mem_cons_self rfl

theorem find_isSome_iff : (find? ⟨conversions⟩ source target).isSome ↔
    (source, target) ∈ conversions.map Conversion.pair := by
  simp [find?, Conversion.pair]

/-- Where a pair has one conversion at most, looking it up gives that conversion. -/
theorem Registrable.find_iff (registrable : Registrable conversions) :
    find? ⟨conversions⟩ source target = some conversion ↔
      conversion ∈ conversions ∧ conversion.source = source ∧ conversion.target = target := by
  constructor
  · intro found
    have named := List.find?_some found
    simp only [Bool.and_eq_true, decide_eq_true_eq] at named
    exact ⟨List.mem_of_find?_eq_some found, named⟩
  · rintro ⟨among, rfl, rfl⟩
    have some : (find? ⟨conversions⟩ conversion.source conversion.target).isSome :=
      find_isSome_iff.mpr (List.mem_map_of_mem among)
    obtain ⟨other, found⟩ := Option.isSome_iff_exists.mp some
    have named := List.find?_some found
    simp only [Bool.and_eq_true, decide_eq_true_eq] at named
    have same : other = conversion := List.inj_on_of_nodup_map registrable.apart
      (List.mem_of_find?_eq_some found) among (Prod.ext named.1 named.2)
    rw [found, same]

section Adding

variable (registrable : Registrable earlier)

include registrable

/-- After conversions that are registrable the next one makes them longer or is refused. -/
theorem registrable_or_refuses (conversion : Conversion) :
    Registrable (earlier ++ [conversion]) ∨ ∃ cause, Refuses earlier conversion cause := by
  by_cases same : conversion.source = conversion.target
  · exact .inr ⟨_, .identity same⟩
  by_cases taken : conversion.pair ∈ earlier.map Conversion.pair
  · exact .inr ⟨_, .duplicate taken⟩
  · exact .inl (registrable.snoc same taken)

theorem add_refused (refuses : Refuses earlier conversion cause) :
    add ⟨earlier⟩ conversion = .error (.configuration cause) := by
  cases refuses with
  | identity same => exact if_pos same
  | duplicate taken =>
      -- the earlier conversion of the pair is no identity, so this one is none either
      obtain ⟨other, among, same⟩ := List.mem_map.mp taken
      have moves : conversion.source ≠ conversion.target := by
        obtain ⟨sources, targets⟩ := Prod.mk.inj same
        exact sources ▸ targets ▸ registrable.moves other among
      exact (if_neg moves).trans (if_pos (find_isSome_iff.mpr taken))

omit registrable in
theorem add_registrable (registrable : Registrable (earlier ++ [conversion])) :
    add ⟨earlier⟩ conversion = .ok ⟨earlier ++ [conversion]⟩ := by
  have moves : conversion.source ≠ conversion.target := registrable.moves conversion (by simp)
  have free : ¬(find? ⟨earlier⟩ conversion.source conversion.target).isSome := fun taken =>
    (Refuses.duplicate (find_isSome_iff.mp taken)).not_registrable registrable
  exact (if_neg moves).trans (if_neg free)

omit registrable in
/-- What is registrable is added in full: by induction on what is still to be added. -/
theorem add_all (registrable : Registrable (earlier ++ rest)) :
    rest.foldlM add ⟨earlier⟩ = .ok ⟨earlier ++ rest⟩ := by
  induction rest generalizing earlier with
  | nil => rw [List.append_nil]; rfl
  | cons next rest induction =>
      rw [List.append_cons] at registrable ⊢
      rw [List.foldlM_cons, add_registrable registrable.front]
      exact induction registrable

/-- Where not all is registrable, there is a first conversion that is refused. -/
theorem exists_first_refused (bad : ¬Registrable (earlier ++ rest)) :
    ∃ front refused later cause, rest = front ++ refused :: later ∧
      Registrable (earlier ++ front) ∧ Refuses (earlier ++ front) refused cause := by
  induction rest generalizing earlier with
  | nil => exact absurd registrable (List.append_nil earlier ▸ bad)
  | cons next rest induction =>
      rcases registrable_or_refuses registrable next with further | ⟨cause, refuses⟩
      · obtain ⟨front, refused, later, cause, rfl, good, refuses⟩ :=
          induction further (List.append_cons .. ▸ bad)
        rw [List.append_assoc] at good refuses
        exact ⟨next :: front, refused, later, cause, rfl, good, refuses⟩
      · rw [← List.append_nil earlier] at registrable refuses
        exact ⟨[], next, rest, cause, rfl, registrable, refuses⟩

/-- Adding ends with the first refusal. -/
theorem add_up_to_refused (refuses : Refuses earlier conversion cause) :
    build (earlier ++ conversion :: later) = .error (.configuration cause) := by
  have before : earlier.foldlM add empty = .ok ⟨earlier⟩ := add_all registrable
  rw [build, List.foldlM_append, before]
  change List.foldlM add ⟨earlier⟩ (conversion :: later) = _
  rw [List.foldlM_cons, add_refused registrable refuses]
  rfl

end Adding

section Standard

theorem standard_pair_iff : (source, target) ∈ Conversion.allStandard.map Conversion.pair ↔
    Conversion.isStandard source target = true := by
  constructor
  · intro among
    obtain ⟨conversion, listed, same⟩ := List.mem_map.mp among
    obtain ⟨source', target', made⟩ := Conversion.listed_iff.mp listed
    unfold Conversion.standard? at made
    split at made <;> cases made
    next standard =>
      cases same
      exact standard
  · exact fun standard => List.mem_map.mpr
      ⟨_, Conversion.listed_iff.mpr ⟨source, target, if_pos standard⟩, rfl⟩

theorem registrable_standard : Registrable Conversion.allStandard where
  moves conversion among := by
    have standard := standard_pair_iff.mp (List.mem_map_of_mem among)
    exact bne_iff_ne.mp (Bool.and_eq_true_iff.mp standard).1
  apart := by decide +kernel

/-- Beside the standard conversions there is room for one of each other pair. -/
theorem registrable_beside_standard_iff :
    Registrable (Conversion.allStandard ++ conversions) ↔ Registrable conversions ∧
      ∀ conversion ∈ conversions,
        Conversion.isStandard conversion.source conversion.target = false := by
  constructor
  · intro registrable
    have apart := registrable.apart
    rw [List.map_append, List.nodup_append'] at apart
    have moves := (List.forall_mem_append.mp registrable.moves).2
    refine ⟨⟨moves, apart.2.1⟩, fun conversion among => ?_⟩
    rw [← Bool.not_eq_true, ← standard_pair_iff]
    exact fun taken => apart.2.2 taken (List.mem_map_of_mem among)
  · rintro ⟨registrable, other⟩
    refine ⟨List.forall_mem_append.mpr ⟨registrable_standard.moves, registrable.moves⟩, ?_⟩
    rw [List.map_append, List.nodup_append']
    refine ⟨registrable_standard.apart, registrable.apart, fun pair taken among => ?_⟩
    obtain ⟨conversion, listed, rfl⟩ := List.mem_map.mp among
    exact absurd (standard_pair_iff.mp taken) (by simp [other conversion listed])

end Standard

/-- What comes of a list of conversions: a catalog that holds all of them, each under its own pair,
or a failure that names the first one that maps a kind to itself or repeats an earlier pair. -/
theorem build_outcome (conversions : List Conversion) :
    (Registrable conversions ∧ ∃ catalog, build conversions = .ok catalog ∧
      catalog.size = conversions.length ∧
      ∀ source target conversion, catalog.find? source target = some conversion ↔
        conversion ∈ conversions ∧ conversion.source = source ∧ conversion.target = target) ∨
    (¬Registrable conversions ∧ ∃ earlier refused later cause,
      conversions = earlier ++ refused :: later ∧ Registrable earlier ∧
      Refuses earlier refused cause ∧ build conversions = .error (.configuration cause)) := by
  by_cases registrable : Registrable conversions
  · refine .inl ⟨registrable, ⟨conversions⟩, add_all registrable, rfl, ?_⟩
    exact fun source target conversion => registrable.find_iff
  · obtain ⟨earlier, refused, later, cause, rfl, good, refuses⟩ :=
      exists_first_refused registrable_nil registrable
    exact .inr ⟨registrable, earlier, refused, later, cause, rfl, good, refuses,
      add_up_to_refused good refuses⟩

end Catalog

end QueryExec
