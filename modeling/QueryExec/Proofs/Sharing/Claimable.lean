import Mathlib.Algebra.GroupWithZero.Nat
import Mathlib.Algebra.Order.BigOperators.Group.List
import Mathlib.Algebra.Order.Group.Nat
import Mathlib.Data.List.Nodup
import QueryExec.Session.Claims

/-!
What can be claimed: rows and bindings. A projected row claims its base and its binding, a binding
claims the rows that it binds and the binding it is nested under. Whatever a claim leads to is
reached by going from a thing to what it claims itself, and that always leads to smaller things.
-/

namespace QueryExec

inductive Claimable
  | row (row : Row)
  | bindings (bindings : Bindings)

namespace Bindings

/-- What a binding reaches it reaches through a row of its own or through the binding it is nested
under: by induction on the chain. -/
theorem mem_reach_rows {row : Row} : (bindings : Bindings) →
    (row ∈ bindings.reachRows ↔
      (∃ own ∈ bindings.ownRows, row ∈ own.reach) ∨ ∃ parent ∈ bindings.parent?,
        row ∈ parent.reachRows)
  | .root _ => by simp [reachRows, ownRows, parent?]
  | .nested _ parent => by simp [reachRows, ownRows, parent?]
  | .parameter _ _ rest => by
      rw [reachRows, ownRows, parent?]
      exact mem_reach_rows rest
  | .outer _ own rest => by
      rw [reachRows, ownRows, parent?, List.mem_append, mem_reach_rows rest, ← or_assoc]
      simp

theorem mem_reach_inner {bound : Bindings} : (bindings : Bindings) →
    (bound ∈ bindings.reachInner ↔
      (∃ own ∈ bindings.ownRows, bound ∈ own.reachBindings) ∨ ∃ parent ∈ bindings.parent?,
        bound = parent ∨ bound ∈ parent.reachInner)
  | .root _ => by simp [reachInner, ownRows, parent?]
  | .nested _ parent => by simp [reachInner, ownRows, parent?]
  | .parameter _ _ rest => by
      rw [reachInner, ownRows, parent?]
      exact mem_reach_inner rest
  | .outer _ own rest => by
      rw [reachInner, ownRows, parent?, List.mem_append, mem_reach_inner rest, ← or_assoc]
      simp

/-- How much a binding reaches, counted through its parts: by induction on the chain. -/
theorem reach_length : (bindings : Bindings) →
    bindings.reachRows.length + bindings.reachInner.length =
      (bindings.ownRows.map fun own => own.reach.length + own.reachBindings.length).sum +
        (bindings.parent?.toList.map fun parent =>
          parent.reachRows.length + (parent.reachInner.length + 1)).sum
  | .root _ => by simp [reachRows, reachInner, ownRows, parent?]
  | .nested _ parent => by simp [reachRows, reachInner, ownRows, parent?]
  | .parameter _ _ rest => by
      rw [reachRows, reachInner, ownRows, parent?]
      exact reach_length rest
  | .outer _ own rest => by
      have others := reach_length rest
      rw [reachRows, reachInner, ownRows, parent?, List.length_append, List.length_append,
        List.map_cons, List.sum_cons]
      omega

end Bindings

namespace Claimable

def id : Claimable → Nat
  | row one => one.id
  | bindings one => one.id

def row? : Claimable → Option Row
  | row one => some one
  | bindings _ => none

def bindings? : Claimable → Option Bindings
  | row _ => none
  | bindings one => some one

/-- What a thing claims itself. -/
def parts : Claimable → List Claimable
  | row (.stored _ _ _) => []
  | row (.projected _ _ base _ bound _) => [row base, bindings bound]
  | bindings one => one.ownRows.map row ++ one.parent?.toList.map bindings

/-- A thing and all that lives because it does. -/
def reach : Claimable → List Claimable
  | row one => one.reach.map row ++ one.reachBindings.map bindings
  | bindings one => one.reachRows.map row ++ (one :: one.reachInner).map bindings

/-- How much lives because the thing does. -/
def size (one : Claimable) : Nat :=
  one.reach.length

variable {one other inner : Claimable}

@[simp]
theorem row_mem_reach_row {row base : Row} :
    Claimable.row row ∈ (Claimable.row base).reach ↔ row ∈ base.reach := by
  simp [reach]

@[simp]
theorem bindings_mem_reach_row {bound : Bindings} {base : Row} :
    Claimable.bindings bound ∈ (Claimable.row base).reach ↔ bound ∈ base.reachBindings := by
  simp [reach]

@[simp]
theorem row_mem_reach_bindings {row : Row} {bound : Bindings} :
    Claimable.row row ∈ (Claimable.bindings bound).reach ↔ row ∈ bound.reachRows := by
  simp [reach]

@[simp]
theorem bindings_mem_reach_bindings {bound above : Bindings} :
    Claimable.bindings bound ∈ (Claimable.bindings above).reach ↔
      bound = above ∨ bound ∈ above.reachInner := by
  simp [reach]

/-- What is reached is the thing itself or is reached through one of its parts. -/
theorem mem_reach_iff :
    other ∈ one.reach ↔ other = one ∨ ∃ part ∈ one.parts, other ∈ part.reach := by
  rcases one with (⟨id, type, values⟩ | ⟨id, type, base, context, bound, columns⟩) | above
  · rcases other with row | bound
    · simp [parts, Row.reach]
    · simp [parts, Row.reachBindings]
  · rcases other with row | below
    · simp [parts, Row.reach]
    · simp [parts, Row.reachBindings, or_left_comm]
  · simp only [parts, List.mem_append, List.mem_map, Option.mem_toList, or_and_right, exists_or,
      exists_exists_and_eq_and]
    rcases other with row | below
    · simp [Bindings.mem_reach_rows above]
    · simp [Bindings.mem_reach_inner above]

theorem mem_reach_self (one : Claimable) : one ∈ one.reach :=
  mem_reach_iff.mpr (.inl rfl)

theorem size_eq (one : Claimable) : one.size = (one.parts.map size).sum + 1 := by
  rcases one with (⟨id, type, values⟩ | ⟨id, type, base, context, bound, columns⟩) | bound
  · simp [parts, size, reach, Row.reach, Row.reachBindings]
  · simp [parts, size, reach, Row.reach, Row.reachBindings]
    omega
  · have counted := bound.reach_length
    simp [parts, size, reach, Function.comp_def] at counted ⊢
    omega

theorem size_of_part (part : other ∈ one.parts) : other.size < one.size := by
  have single : other.size ≤ (one.parts.map size).sum :=
    List.single_le_sum (fun _ _ => Nat.zero_le _) _ (List.mem_map_of_mem part)
  rw [size_eq one]
  omega

/-- To show something of all things it is enough to show it of each thing whose parts have it. -/
theorem parts_induction {holds : Claimable → Prop}
    (step : ∀ one, (∀ part ∈ one.parts, holds part) → holds one) (one : Claimable) : holds one :=
  step one fun part among =>
    have := size_of_part among
    parts_induction step part
termination_by one.size

theorem size_of_reach (reached : other ∈ one.reach) : other.size ≤ one.size := by
  induction one using parts_induction with
  | step one induction =>
      rcases mem_reach_iff.mp reached with rfl | ⟨part, among, below⟩
      · exact Nat.le_refl _
      · exact Nat.le_trans (induction part among below) (Nat.le_of_lt (size_of_part among))

theorem reach_trans (reached : other ∈ one.reach) (further : inner ∈ other.reach) :
    inner ∈ one.reach := by
  induction one using parts_induction with
  | step one induction =>
      rcases mem_reach_iff.mp reached with rfl | ⟨part, among, below⟩
      · exact further
      · exact mem_reach_iff.mpr (.inr ⟨part, among, induction part among below⟩)

section Sorts

variable {things : List Claimable}

theorem mem_rows_iff {one : Row} : one ∈ things.filterMap row? ↔ row one ∈ things := by
  rw [List.mem_filterMap]
  constructor
  · rintro ⟨_ | _, among, same⟩ <;> cases same
    exact among
  · exact fun among => ⟨_, among, rfl⟩

theorem mem_bindings_iff {one : Bindings} :
    one ∈ things.filterMap bindings? ↔ bindings one ∈ things := by
  rw [List.mem_filterMap]
  constructor
  · rintro ⟨_ | _, among, same⟩ <;> cases same
    exact among
  · exact fun among => ⟨_, among, rfl⟩

theorem rows_nodup (apart : things.Nodup) : (things.filterMap row?).Nodup :=
  apart.filterMap fun left right _ first second => by
    cases left <;> cases right <;> cases first <;> cases second
    rfl

theorem bindings_nodup (apart : things.Nodup) : (things.filterMap bindings?).Nodup :=
  apart.filterMap fun left right _ first second => by
    cases left <;> cases right <;> cases first <;> cases second
    rfl

end Sorts

/-- A thing claims its base if it is a row, and its own rows if it is a binding. -/
theorem rows_of_parts (one : Claimable) :
    one.parts.filterMap row? =
      one.row?.toList.filterMap Claims.base? ++ one.bindings?.toList.flatMap Bindings.ownRows := by
  rcases one with (⟨id, type, values⟩ | ⟨id, type, base, context, bound, columns⟩) | bound
  · rfl
  · rfl
  · have none : (bound.parent?.toList.map bindings).filterMap row? = [] := by
      cases bound.parent? <;> rfl
    simp [parts, none, List.filterMap_map, row?, bindings?, Function.comp_def]

/-- The rows that things claim: the bases of rows and the rows of bindings. -/
theorem rows_of_all_parts (things : List Claimable) :
    ((things.flatMap parts).filterMap row?).Perm
      ((things.filterMap row?).filterMap Claims.base? ++
        (things.filterMap bindings?).flatMap Bindings.ownRows) := by
  induction things with
  | nil => exact .refl _
  | cons first rest induction =>
      rw [List.flatMap_cons, List.filterMap_append, rows_of_parts]
      refine (induction.append_left _).trans ?_
      rcases first with row | bindings
      · refine List.Perm.of_eq ?_
        cases base : Claims.base? row <;> simp [List.filterMap_cons, row?, bindings?, base]
      · have swapped := List.perm_append_comm_assoc bindings.ownRows
          ((rest.filterMap row?).filterMap Claims.base?)
          ((rest.filterMap bindings?).flatMap Bindings.ownRows)
        simpa [List.filterMap_cons, row?, bindings?] using swapped

end Claimable

namespace Claims

/-- All claims of rows and of bindings. -/
def things (claims : Claims) : List Claimable :=
  claims.rows.map .row ++ claims.bindings.map .bindings

theorem rows_of_things (claims : Claims) : claims.things.filterMap Claimable.row? = claims.rows := by
  simp [things, List.filterMap_map, Function.comp_def, Claimable.row?]

end Claims

end QueryExec
