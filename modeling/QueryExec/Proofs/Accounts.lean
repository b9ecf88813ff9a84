import QueryExec.Proofs.Recording

/-!
What the log of an aggregation's input says about groups. An account reads a log from its first
entry on: which groups are finished, and where the aggregation stands after the latest entry. An
account follows what the aggregation does entry by entry; what it says as a whole follows by
induction: the rows of the input type are those of the groups in order, each finished group gave one
row, and gave it as soon as it was known to be finished.
-/

namespace QueryExec.Grouping

open QueryExec.Action

/-- Rows that stand next to each other and go together. -/
structure Group where
  first : Row
  others : List Row := []

def Group.rows (group : Group) : List Row :=
  group.first :: group.others

def Group.add (group : Group) (row : Row) : Group :=
  { group with others := group.others ++ [row] }

/-- The rows of the input type that came up. -/
def declared (inputType : RowType) : List Entry → List Row
  | [] => []
  | .pulled row :: earlier =>
      if row.type.same inputType then declared inputType earlier ++ [row]
      else declared inputType earlier
  | .ended :: earlier => declared inputType earlier
  | .given _ :: earlier => declared inputType earlier

/-- Whether the latest entry is a row of another type. -/
def passing (inputType : RowType) : List Entry → Bool
  | .pulled row :: _ => !row.type.same inputType
  | _ => false

/-- The rows that were given, but for those that only passed. -/
def made (inputType : RowType) : List Entry → List Row
  | [] => []
  | .given row :: earlier =>
      if passing inputType earlier then made inputType earlier else made inputType earlier ++ [row]
  | .pulled _ :: earlier => made inputType earlier
  | .ended :: earlier => made inputType earlier

/-- Where an aggregation stands: between two groups, with the row that ended the last one, within a
group, or behind the last row. -/
inductive Place
  | between (held? : Option Row)
  | within (group : Group)
  | done

/-- The rows that came up and are not in a finished group. -/
def Place.rows : Place → List Row
  | between held? => held?.toList
  | within group => group.rows
  | done => []

variable (catalog : Catalog) (plan : GroupingPlan) (fresh : List Accumulator)

/-- The key of the first row, which the other rows have too, and what accumulators that started
afresh are after all rows. -/
structure Group.Absorbed (group : Group) (key : List Datum) (accumulators : List Accumulator) :
    Prop where
  keyed : (List.range plan.keys).mapM group.first.view.column = .ok key
  taken : group.rows.foldlM (fun before row => Run.absorb row.view plan.keys before) fresh =
    .ok accumulators
  alike : ∀ row ∈ group.others,
    Run.matchesKey catalog row.view 0 key plan.inputType.columns = .ok true

/-- The row that a group adds up to. -/
def Group.Makes (group : Group) (row : Row) : Prop :=
  ∃ id key accumulators, group.Absorbed catalog plan fresh key accumulators ∧
    row = .stored id plan.outputType (key ++ accumulators.map Accumulator.result)

/-- A row of the input type without the key of the group. -/
def Group.EndedBy (group : Group) (row : Row) : Prop :=
  row.type.same plan.inputType = true ∧
    ∃ key, (List.range plan.keys).mapM group.first.view.column = .ok key ∧
      Run.matchesKey catalog row.view 0 key plan.inputType.columns = .ok false

/-- The row over no rows, which has the empty values. -/
def MakesVacant (row : Row) : Prop :=
  plan.keys = 0 ∧ ∃ id, row = .stored id plan.outputType (fresh.map Accumulator.emptyResult)

/-- The rows that groups gave, one each; in place of all of them there may be the row over no
rows. -/
def Gave (groups : List Group) (rows : List Row) : Prop :=
  List.Forall₂ (Group.Makes catalog plan fresh) groups rows ∨
    groups = [] ∧ ∃ row, MakesVacant plan fresh row ∧ rows = [row]

/-- Every group gave its row right after the entry that ended it, a row of another group or the end
of the input. Of the rows of the input type, its own and those of earlier groups had come up
before. -/
def GivenInTime (log : List Entry) (groups : List Group) : Prop :=
  ∀ before group after, groups = before ++ group :: after →
    ∃ later output last earlier, log = later ++ .given output :: last :: earlier ∧
      declared plan.inputType earlier = (before ++ [group]).flatMap Group.rows ∧
      group.Makes catalog plan fresh output ∧
      (last = .ended ∨ ∃ row, last = .pulled row ∧ group.EndedBy catalog plan row)

/-- What is finished and where the aggregation stands after the entries of a log. -/
inductive Account : List Entry → List Group → Place → Prop
  | opened : Account [] [] (.between none)
  /-- A row of another type is given as it is. -/
  | passed {log : List Entry} {groups : List Group} {place : Place} {row : Row}
      (account : Account log groups place)
      (here : place = .between none ∨ ∃ group, place = .within group)
      (foreign : row.type.same plan.inputType = false) :
      Account (.given row :: .pulled row :: log) groups place
  | begun {log : List Entry} {groups : List Group} {row : Row}
      (account : Account log groups (.between none)) (own : row.type.same plan.inputType = true) :
      Account (.pulled row :: log) groups (.within ⟨row, []⟩)
  /-- The row that ended a group is the first of the next. -/
  | resumed {log : List Entry} {groups : List Group} {row : Row}
      (account : Account log groups (.between (some row))) :
      Account log groups (.within ⟨row, []⟩)
  | joined {log : List Entry} {groups : List Group} {group : Group} {row : Row}
      (account : Account log groups (.within group)) (own : row.type.same plan.inputType = true) :
      Account (.pulled row :: log) groups (.within (group.add row))
  | turned {log : List Entry} {groups : List Group} {group : Group} {row output : Row}
      (account : Account log groups (.within group)) (ends : group.EndedBy catalog plan row)
      (makes : group.Makes catalog plan fresh output) :
      Account (.given output :: .pulled row :: log) (groups ++ [group]) (.between (some row))
  | closed {log : List Entry} {groups : List Group} {group : Group} {output : Row}
      (account : Account log groups (.within group))
      (makes : group.Makes catalog plan fresh output) :
      Account (.given output :: .ended :: log) (groups ++ [group]) .done
  | vacant {log : List Entry} {groups : List Group} {output : Row}
      (account : Account log groups (.between none)) (makes : MakesVacant plan fresh output) :
      Account (.given output :: .ended :: log) groups .done

section Consequences

variable {catalog plan fresh} {log : List Entry} {groups : List Group} {place : Place}
  (account : Account catalog plan fresh log groups place)

include account

/-- Only before its first group an aggregation is between groups with no row to begin one. -/
theorem Account.unbegun (here : place = .between none) : groups = [] := by
  induction account with
  | opened => rfl
  | passed account _ _ induction => exact induction here
  | begun | resumed | joined | turned | closed | vacant => cases here

/-- The rows of the input type are those of the groups, one group after the other. -/
theorem Account.declared_rows :
    declared plan.inputType log = groups.flatMap Group.rows ++ place.rows := by
  induction account with
  | opened => rfl
  | passed account _ foreign induction => simpa [declared, foreign] using induction
  | begun account own induction => simpa [declared, own, Place.rows, Group.rows] using induction
  | resumed account induction => simpa [Place.rows, Group.rows] using induction
  | joined account own induction =>
      simp [declared, own, induction, Place.rows, Group.rows, Group.add]
  | turned account ends _ induction => simp [declared, ends.1, induction, Place.rows]
  | closed account _ induction => simp [declared, induction, Place.rows]
  | vacant account _ induction => simpa [declared, Place.rows] using induction

/-- Until the last row is given, each finished group has given one. -/
theorem Account.made_unfinished (unfinished : place ≠ .done) :
    List.Forall₂ (Group.Makes catalog plan fresh) groups (made plan.inputType log) := by
  induction account with
  | opened => exact .nil
  | passed account _ foreign induction =>
      simpa [made, passing, foreign] using induction unfinished
  | begun account _ induction => exact induction nofun
  | resumed account induction => exact induction nofun
  | joined account _ induction => exact induction nofun
  | turned account ends makes induction =>
      have given := List.rel_append (induction nofun) (.cons makes .nil)
      simpa [made, passing, ends.1] using given
  | closed | vacant => exact absurd rfl unfinished

/-- Behind the last row without a finished group, just the row over no rows was given. -/
theorem Account.made_vacant (here : place = .done) (none_finished : groups = []) :
    ∃ row, MakesVacant plan fresh row ∧ made plan.inputType log = [row] := by
  cases account with
  | passed account elsewhere =>
      rcases elsewhere with rfl | ⟨_, rfl⟩ <;> cases here
  | closed account makes => exact absurd none_finished (by simp)
  | vacant account makes =>
      have none_given : made plan.inputType _ = [] :=
        List.forall₂_nil_left_iff.mp (none_finished ▸ account.made_unfinished nofun)
      exact ⟨_, makes, by simp [made, passing, none_given]⟩
  | opened | begun | resumed | joined | turned => cases here

/-- Each finished group has given one row; without any there may be the row over no rows. -/
theorem Account.made_rows : Gave catalog plan fresh groups (made plan.inputType log) := by
  by_cases finished : place = .done
  · by_cases some_finished : groups = []
    · exact .inr ⟨some_finished, account.made_vacant finished some_finished⟩
    · cases account with
      | passed account elsewhere =>
          rcases elsewhere with rfl | ⟨_, rfl⟩ <;> cases finished
      | closed account makes =>
          exact .inl (List.rel_append (account.made_unfinished nofun) (.cons makes .nil))
      | vacant account => exact absurd (account.unbegun rfl) some_finished
      | opened | begun | resumed | joined | turned => cases finished
  · exact .inl (account.made_unfinished finished)

omit account in
/-- What was given in time stays so. -/
theorem GivenInTime.later (timely : GivenInTime catalog plan fresh log groups)
    (entries : List Entry) : GivenInTime catalog plan fresh (entries ++ log) groups := by
  intro before group after split
  obtain ⟨later, output, last, earlier, rfl, given⟩ := timely before group after split
  exact ⟨entries ++ later, output, last, earlier, (List.append_assoc ..).symm, given⟩

/-- The group that an entry ends gives its row in time, as those before it did. -/
theorem Account.given_now {group : Group} (here : place = .within group) {last : Entry}
    {output : Row} (timely : GivenInTime catalog plan fresh log groups)
    (makes : group.Makes catalog plan fresh output)
    (ends : last = .ended ∨ ∃ row, last = .pulled row ∧ group.EndedBy catalog plan row) :
    GivenInTime catalog plan fresh (.given output :: last :: log) (groups ++ [group]) := by
  intro before other after split
  rcases List.eq_nil_or_concat after with rfl | ⟨others, final, rfl⟩
  · obtain ⟨rfl, same⟩ := List.append_inj' split rfl
    cases same
    subst here
    refine ⟨[], output, last, log, rfl, ?_, makes, ends⟩
    rw [account.declared_rows]
    simp [Place.rows]
  · rw [List.concat_eq_append, ← List.cons_append, ← List.append_assoc] at split
    exact timely.later [.given output, last] before other others (List.append_inj' split rfl).1

theorem Account.given_in_time : GivenInTime catalog plan fresh log groups := by
  induction account with
  | opened => exact fun before _ _ split => absurd split (by simp)
  | passed account _ _ induction => exact induction.later [_, _]
  | begun account _ induction => exact induction.later [_]
  | resumed account induction => exact induction
  | joined account _ induction => exact induction.later [_]
  | turned account ends makes induction =>
      exact account.given_now rfl induction makes (.inr ⟨_, rfl, ends⟩)
  | closed account makes induction => exact account.given_now rfl induction makes (.inl rfl)
  | vacant account _ induction => exact induction.later [_, _]

/-- The row that begins the next group came up last and ended the group before it, whose row was
given then. -/
theorem Account.held_row {row : Row} (here : place = .between (some row)) :
    ∃ output earlier group before, log = .given output :: .pulled row :: earlier ∧
      groups = before ++ [group] ∧ group.EndedBy catalog plan row := by
  cases account with
  | turned account ends makes =>
      cases here
      exact ⟨_, _, _, _, rfl, rfl, ends⟩
  | passed account elsewhere =>
      rcases elsewhere with rfl | ⟨_, rfl⟩ <;> cases here
  | opened | begun | resumed | joined | closed | vacant => cases here

/-- The last row was given when the rows had come to their end. -/
theorem Account.last_given (here : place = .done) :
    ∃ output earlier, log = .given output :: .ended :: earlier := by
  cases account with
  | closed | vacant => exact ⟨_, _, rfl⟩
  | passed account elsewhere =>
      rcases elsewhere with rfl | ⟨_, rfl⟩ <;> cases here
  | opened | begun | resumed | joined | turned => cases here

end Consequences

end QueryExec.Grouping
