import Mathlib.Data.List.Forall2
import QueryExec.Cursor.Tree
import QueryExec.Proofs.Action.Outcome

/-!
What plans and their cursors are made of. Building an operator checks its expressions and, for
the operators that give rows of their own, makes a row type; a cursor starts with one node for
each operator over the cursor of its input.
-/

namespace QueryExec.Plan

open QueryExec.Action

variable {input plan : Plan} {type : RowType} {engine after : Engine}

/-- A predicate that has a type is of booleans. -/
theorem filtered_made {predicate : Expr} (made : input.filtered predicate = .ok plan) :
    plan = .filter input predicate ∧
      ∀ type, predicate.type? = some type → type.kind = .boolean := by
  unfold filtered at made
  split at made
  next own ofPredicate =>
    split at made <;> cases made
    next boolean =>
      refine ⟨rfl, fun type known => ?_⟩
      rw [ofPredicate] at known
      cases known
      exact boolean
  next untyped =>
    cases made
    refine ⟨rfl, fun type known => ?_⟩
    rw [untyped] at known
    cases known

theorem projected_made {columns : List Expr}
    (made : (input.projected columns).run engine = (.ok plan, after)) :
    ∃ type, plan = .project input type columns ∧ projectionTypes 0 columns = .ok type.columns := by
  unfold projected at made
  cases types : projectionTypes 0 columns with
  | error error =>
      rw [types] at made
      cases made
  | ok own =>
      rw [types] at made
      cases made
      exact ⟨_, rfl, rfl⟩

theorem aggregated_made {keys : Nat} {aggregates : List Aggregate}
    (made : (input.aggregated keys aggregates).run engine = (.ok plan, after)) :
    ∃ type, plan = .aggregate input type keys aggregates ∧
      groupedTypes input.rowType.columns keys aggregates = .ok type.columns := by
  unfold aggregated at made
  cases types : groupedTypes input.rowType.columns keys aggregates with
  | error error =>
      rw [types] at made
      cases made
  | ok own =>
      rw [types] at made
      cases made
      exact ⟨_, rfl, rfl⟩

section Starting

variable {store : Store} {source : BindingSource}

/-- Each aggregate starts the accumulator at its place. -/
theorem accumulators_started {aggregates : List Aggregate} {accumulators : List Accumulator}
    (ready : startAccumulators aggregates = .ok accumulators) :
    List.Forall₂ (fun aggregate accumulator => aggregate.start = .ok accumulator) aggregates
      accumulators := by
  unfold startAccumulators at ready
  induction aggregates generalizing accumulators with
  | nil =>
      cases ready
      exact .nil
  | cons aggregate rest induction =>
      rw [List.mapM_cons] at ready
      obtain ⟨accumulator, started, ready⟩ := ok_of_bind ready
      obtain ⟨others, readyOthers, made⟩ := ok_of_bind ready
      cases made
      exact .cons started (induction readyOthers)

theorem table_started {name : String} {cursor : (table name type).Cursor}
    (started : (table name type).start store source = .ok cursor) :
    store.checkScan name type = .ok () ∧ cursor = ({ source } : Scan) := by
  unfold start at started
  split at started <;> cases started
  next checked => exact ⟨checked, rfl⟩

theorem filter_started {predicate : Expr} {cursor : (filter input predicate).Cursor}
    (started : (filter input predicate).start store source = .ok cursor) :
    ∃ rest, input.start store source = .ok rest ∧
      cursor = ({ own := (), input := rest } : Filter.State input.Cursor) := by
  unfold start at started
  split at started <;> cases started
  next rest restStarted => exact ⟨rest, restStarted, rfl⟩

theorem project_started {columns : List Expr} {cursor : (project input type columns).Cursor}
    (started : (project input type columns).start store source = .ok cursor) :
    ∃ rest, input.start store source = .ok rest ∧
      cursor = ({ own := (), input := rest } : Project.State input.Cursor) := by
  unfold start at started
  split at started <;> cases started
  next rest restStarted => exact ⟨rest, restStarted, rfl⟩

/-- An aggregation starts with the accumulators of its aggregates. -/
theorem aggregate_started {keys : Nat} {aggregates : List Aggregate}
    {cursor : (aggregate input type keys aggregates).Cursor}
    (started : (aggregate input type keys aggregates).start store source = .ok cursor) :
    ∃ accumulators rest, startAccumulators aggregates = .ok accumulators ∧
      input.start store source = .ok rest ∧
      cursor = ({ own := { accumulators }, input := rest } : Grouping.State input.Cursor) := by
  unfold start at started
  split at started <;> cases started
  next accumulators rest ready restStarted => exact ⟨accumulators, rest, ready, restStarted, rfl⟩

theorem limit_started {offset : Nat} {limit? : Option Nat}
    {cursor : (limit input offset limit?).Cursor}
    (started : (limit input offset limit?).start store source = .ok cursor) :
    ∃ rest, input.start store source = .ok rest ∧
      cursor = ({ own := {}, input := rest } : Limit.State input.Cursor) := by
  unfold start at started
  split at started <;> cases started
  next rest restStarted => exact ⟨rest, restStarted, rfl⟩

/-- What holds of every new leaf, and of an operator's new cursor when it holds of its input's,
holds of every cursor that starts. -/
@[elab_as_elim]
theorem started_induction
    {motive : (plan : Plan) → (cursor : plan.Cursor) → plan.start store source = .ok cursor → Prop}
    (values : ∀ slice type rows, motive (.values slice type rows) ({ source } : Scan) rfl)
    (table : ∀ name type (started : (table name type).start store source = .ok ({ source } : Scan)),
      motive (.table name type) ({ source } : Scan) started)
    (filter : ∀ input predicate rest begun
      (started : (filter input predicate).start store source =
        .ok ({ own := (), input := rest } : Filter.State input.Cursor)),
      motive input rest begun → motive (.filter input predicate) _ started)
    (project : ∀ input type columns rest begun
      (started : (project input type columns).start store source =
        .ok ({ own := (), input := rest } : Project.State input.Cursor)),
      motive input rest begun → motive (.project input type columns) _ started)
    (aggregate : ∀ input type keys aggregates accumulators rest begun
      (started : (aggregate input type keys aggregates).start store source =
        .ok ({ own := { accumulators }, input := rest } : Grouping.State input.Cursor)),
      startAccumulators aggregates = .ok accumulators → motive input rest begun →
      motive (.aggregate input type keys aggregates) _ started)
    (limit : ∀ input offset limit? rest begun
      (started : (limit input offset limit?).start store source =
        .ok ({ own := {}, input := rest } : Limit.State input.Cursor)),
      motive input rest begun → motive (.limit input offset limit?) _ started)
    {plan : Plan} {cursor : plan.Cursor} (started : plan.start store source = .ok cursor) :
    motive plan cursor started := by
  induction plan with
  | values slice type rows =>
      cases started
      exact values slice type rows
  | table name type =>
      obtain ⟨_, rfl⟩ := table_started started
      exact table name type started
  | filter input predicate induction =>
      obtain ⟨rest, begun, rfl⟩ := filter_started started
      exact filter input predicate rest begun started (induction begun)
  | project input type columns induction =>
      obtain ⟨rest, begun, rfl⟩ := project_started started
      exact project input type columns rest begun started (induction begun)
  | aggregate input type keys aggregates induction =>
      obtain ⟨accumulators, rest, ready, begun, rfl⟩ := aggregate_started started
      exact aggregate input type keys aggregates accumulators rest begun started ready
        (induction begun)
  | limit input offset limit? induction =>
      obtain ⟨rest, begun, rfl⟩ := limit_started started
      exact limit input offset limit? rest begun started (induction begun)

end Starting

end QueryExec.Plan
