import Mathlib.Data.List.Forall2
import QueryExec.Proofs.Replacement

/-!
What an update has made of a store when it has dealt with some rows of a table. Every place of the
table holds the row it held before, or what has become of it. Since rows have identities of their
own, a row that is still to come is found in its place whatever was written before, so dealing with
it changes that place alone.
-/

namespace QueryExec

open QueryExec.Action

theorem StoredTable.Tidy.position_eq {table : StoredTable} {unused position : Nat} {row : Row}
    (tidy : table.Tidy unused) (place : table.rows[position]? = some row) :
    table.position? row = some position := by
  obtain ⟨bound, here⟩ := List.getElem?_eq_some_iff.mp place
  refine List.findIdx?_eq_some_iff_getElem.mpr ⟨bound, by simp [here, Row.same], ?_⟩
  intro earlier before same
  have alike : row.id = table.rows[earlier].id := by simpa [Row.same] using same
  have ids : (table.rows.map Row.id)[earlier]? = (table.rows.map Row.id)[position]? := by
    rw [List.getElem?_map, List.getElem?_map, place,
      List.getElem?_eq_getElem (Nat.lt_trans before bound)]
    exact congrArg some alike.symm
  have own : earlier = position :=
    (List.getElem?_inj (by simpa using Nat.lt_trans before bound) tidy.distinct).mp ids
  omega

namespace Update

/-- Whether the update replaces a row. -/
def replaces (update : Update) (context : Context) (bindings : Bindings) (row : Row) : Bool :=
  match update.verdict context bindings row with
  | .ok (some _) => true
  | _ => false

/-- What is found in the place of an old row when an update has dealt with some rows: a new row with
the new values if the old one is among them and selected, and else the old row itself. -/
inductive Becomes (update : Update) (context : Context) (bindings : Bindings) (type : RowType)
    (unused : Nat) (dealt : List Row) (old : Row) : Row → Prop
  | replaced {values : List Datum} {id : Nat} (among : old ∈ dealt)
      (selected : update.verdict context bindings old = .ok (some values)) (new : unused ≤ id) :
      Becomes update context bindings type unused dealt old (.stored id type values)
  | kept (unselected : old ∈ dealt → update.verdict context bindings old = .ok none) :
      Becomes update context bindings type unused dealt old old

/-- What an update that has dealt with some rows of a table has made of the store: every place of
the table holds what has become of its row, the other tables are as they were, and there are as many
more locks as rows were replaced. -/
structure Rewritten (update : Update) (context : Context) (bindings : Bindings)
    (table : StoredTable) (unused : Nat) (before : Store) (dealt : List Row) (after : Store) :
    Prop where
  table : ∃ rows, after.tables.get? update.table = some { table with rows } ∧
    List.Forall₂ (update.Becomes context bindings table.type unused dealt) table.rows rows
  others : ∀ name, name ≠ update.table → after.tables.get? name = before.tables.get? name
  locked : after.lockedRows = before.lockedRows + dealt.countP (update.replaces context bindings)

section Rewriting

variable {update : Update} {context : Context} {bindings : Bindings} {type : RowType}
  {unused : Nat} {dealt olds news : List Row} {old new row : Row} {position : Nat}

theorem replaces_selected {values : List Datum}
    (selected : update.verdict context bindings row = .ok (some values)) :
    update.replaces context bindings row = true := by
  simp [replaces, selected]

theorem replaces_unselected (unselected : update.verdict context bindings row = .ok none) :
    update.replaces context bindings row = false := by
  simp [replaces, unselected]

/-- Dealing with a row changes nothing for the others. -/
theorem Becomes.later (becomes : update.Becomes context bindings type unused dealt old new)
    (other : old ≠ row) : update.Becomes context bindings type unused (dealt ++ [row]) old new := by
  cases becomes with
  | replaced among selected new => exact .replaced (List.mem_append_left _ among) selected new
  | kept unselected =>
      refine .kept fun among => ?_
      rcases List.mem_append.mp among with before | own
      · exact unselected before
      · exact absurd (List.mem_singleton.mp own) other

/-- Nor does dealing with a row that is not selected change anything. -/
theorem Becomes.unselected (becomes : update.Becomes context bindings type unused dealt old new)
    (unselected : update.verdict context bindings row = .ok none) :
    update.Becomes context bindings type unused (dealt ++ [row]) old new := by
  by_cases same : old = row
  · subst same
    cases becomes with
    | replaced among selected new => cases selected.symm.trans unselected
    | kept _ => exact .kept fun _ => unselected
  · exact becomes.later same

/-- A row that was not dealt with is still in its place. -/
theorem still_in_place
    (becomes : List.Forall₂ (update.Becomes context bindings type unused dealt) olds news)
    (among : row ∈ olds) (untouched : row ∉ dealt) :
    ∃ position : Nat, olds[position]? = some row ∧ news[position]? = some row := by
  induction becomes with
  | nil => cases among
  | @cons old new olds news first rest induction =>
      rcases List.mem_cons.mp among with rfl | among
      · cases first with
        | replaced dealtWith _ _ => exact absurd dealtWith untouched
        | kept _ => exact ⟨0, rfl, rfl⟩
      · obtain ⟨position, before, after⟩ := induction among
        exact ⟨position + 1, before, after⟩

theorem becomes_apart
    (becomes : List.Forall₂ (update.Becomes context bindings type unused dealt) olds news)
    (apart : row ∉ olds) :
    List.Forall₂ (update.Becomes context bindings type unused (dealt ++ [row])) olds news := by
  induction becomes with
  | nil => exact .nil
  | cons first _ induction =>
      have ⟨other, apart⟩ := not_or.mp fun among => apart (List.mem_cons.mpr among)
      exact .cons (first.later (Ne.symm other)) (induction apart)

/-- Writing what has become of a row in its place deals with that row. -/
theorem becomes_set
    (becomes : List.Forall₂ (update.Becomes context bindings type unused dealt) olds news)
    (distinct : olds.Nodup) (place : olds[position]? = some row)
    (own : update.Becomes context bindings type unused (dealt ++ [row]) row new) :
    List.Forall₂ (update.Becomes context bindings type unused (dealt ++ [row])) olds
      (news.set position new) := by
  induction becomes generalizing position with
  | nil => cases place
  | @cons old _ olds _ first rest induction =>
      obtain ⟨fresh, distinct⟩ := List.nodup_cons.mp distinct
      cases position with
      | zero =>
          cases place
          exact .cons own (becomes_apart rest fresh)
      | succ position =>
          have among : row ∈ olds := List.mem_of_getElem? place
          have other : old ≠ row := fun same => fresh (same ▸ among)
          exact .cons (first.later other) (induction distinct place)

/-- An update that has not begun has changed nothing. -/
theorem rewritten_nothing {store : Store} {table : StoredTable}
    (stored : store.tables.get? update.table = some table) :
    update.Rewritten context bindings table unused store [] store where
  table := ⟨table.rows, stored, List.forall₂_same.mpr fun _ _ => .kept (by simp)⟩
  others := fun _ _ => rfl
  locked := rfl

/-- A row that is not selected is dealt with by leaving the store alone. -/
theorem Rewritten.unselected {table : StoredTable} {before after : Store}
    (rewritten : update.Rewritten context bindings table unused before dealt after)
    (unselected : update.verdict context bindings row = .ok none) :
    update.Rewritten context bindings table unused before (dealt ++ [row]) after where
  table := by
    obtain ⟨rows, stored, becomes⟩ := rewritten.table
    exact ⟨rows, stored, becomes.imp fun _ _ becomes => becomes.unselected unselected⟩
  others := rewritten.others
  locked := by
    rw [rewritten.locked, List.countP_append]
    simp [replaces_unselected unselected]

/-- A selected row is dealt with by a new row in its place and one more lock. -/
theorem Rewritten.selected {table current : StoredTable} {before after : Store} {id : Nat}
    {values : List Datum}
    (rewritten : update.Rewritten context bindings table unused before dealt after)
    (stored : after.tables.get? update.table = some current) (distinct : table.rows.Nodup)
    (place : table.rows[position]? = some row)
    (selected : update.verdict context bindings row = .ok (some values)) (new : unused ≤ id) :
    update.Rewritten context bindings table unused before (dealt ++ [row])
      { after.setTable update.table
          (current.replaceAt position (.stored id current.type values)) with
        lockedRows := after.lockedRows + 1 } where
  table := by
    obtain ⟨rows, present, becomes⟩ := rewritten.table
    cases stored.symm.trans present
    exact ⟨_, Table.get_set_same _ _ _, becomes_set becomes distinct place
      (.replaced (by simp) selected new)⟩
  others := fun name other =>
    (Table.get_set_other _ _ _ _ other).trans (rewritten.others name other)
  locked := by
    change after.lockedRows + 1 = _
    rw [rewritten.locked, List.countP_append, Nat.add_assoc]
    simp [replaces_selected selected]

end Rewriting

/-- An engine in which an update has dealt with some rows of a table. -/
structure Midway (update : Update) (context : Context) (bindings : Bindings) (table : StoredTable)
    (unused : Nat) (before : Store) (dealt : List Row) (engine : Engine) : Prop where
  rewritten : update.Rewritten context bindings table unused before dealt engine.store
  tidy : ∀ current, engine.store.tables.get? update.table = some current →
    current.Tidy engine.nextId
  later : unused ≤ engine.nextId

section Dealing

variable {update : Update} {context : Context} {census : Census} {faulty : LeafCall → Prop}
  {bindings : Bindings} {table : StoredTable} {unused : Nat} {before : Store} {dealt : List Row}
  {row : Row} {position : Nat} {engine : Engine}

theorem Midway.with_journal
    (midway : update.Midway context bindings table unused before dealt engine) (journal : Journal) :
    update.Midway context bindings table unused before dealt { engine with journal } :=
  ⟨midway.rewritten, midway.tidy, midway.later⟩

theorem Midway.noted (midway : update.Midway context bindings table unused before dealt engine)
    (call : LeafCall) :
    update.Midway context bindings table unused before dealt (engine.noted call) :=
  ⟨midway.rewritten, midway.tidy, midway.later⟩

theorem Midway.issued (midway : update.Midway context bindings table unused before dealt engine) :
    update.Midway context bindings table unused before dealt
      { engine with nextId := engine.nextId + 1 } where
  rewritten := midway.rewritten
  tidy := fun current stored => (midway.tidy current stored).later (Nat.le_succ _)
  later := Nat.le_succ_of_le midway.later

/-- A row that was not dealt with is found in its place, whatever was written before. -/
theorem Midway.found (midway : update.Midway context bindings table unused before dealt engine)
    (among : row ∈ table.rows) (untouched : row ∉ dealt) :
    ∃ current position, engine.store.tables.get? update.table = some current ∧
      current.type = table.type ∧ table.rows[position]? = some row ∧
      current.position? row = some position := by
  obtain ⟨rows, stored, becomes⟩ := midway.rewritten.table
  obtain ⟨position, place, still⟩ := still_in_place becomes among untouched
  exact ⟨_, position, stored, rfl, place, (midway.tidy _ stored).position_eq still⟩

/-- Dealing with a further row of the table. -/
theorem Midway.apply_agrees
    (midway : update.Midway context bindings table unused before dealt engine)
    (listed : row.Listed census) (bound : bindings.Listed census)
    (typed : update.input.rowType = table.type)
    (arity : update.assignments.length = table.type.width) (distinct : table.rows.Nodup)
    (among : row ∈ table.rows) (untouched : row ∉ dealt)
    (able : engine.Able context census faulty) :
    EndsIn engine (update.apply context bindings row)
      (fun modified after => modified = update.replaces context bindings row ∧
        after.Able context census faulty ∧
        update.Midway context bindings table unused before (dealt ++ [row]) after)
      fun interrupt after => update.Fails context faulty bindings row interrupt ∧
        after.FaultsWithin faulty ∧
        update.Rewritten context bindings table unused before dealt after.store := by
  obtain ⟨current, position, stored, same, place, found⟩ := midway.found among untouched
  rw [← same] at typed arity
  apply agree_weaken (update.apply_agrees listed bound typed arity stored found able)
  · rintro (_ | _) after ⟨able, deals⟩
    · obtain ⟨unselected, kept, issued⟩ := deals
      refine ⟨(replaces_unselected unselected).symm, able, ?_, ?_, ?_⟩
      · rw [kept]
        exact midway.rewritten.unselected unselected
      · rw [kept, issued]
        exact midway.tidy
      · rw [issued]
        exact midway.later
    · obtain ⟨values, id, selected, new, issued, written⟩ := deals
      refine ⟨(replaces_selected selected).symm, able, ?_, ?_, ?_⟩
      · rw [written]
        exact midway.rewritten.selected stored distinct place selected
          (Nat.le_trans midway.later new)
      · rw [written, issued]
        intro reached present
        cases (Table.get_set_same _ _ _).symm.trans present
        exact ((midway.tidy current stored).later new).replace_at position rfl rfl
      · rw [issued]
        exact Nat.le_succ_of_le (Nat.le_trans midway.later new)
  · rintro interrupt after ⟨kept, faults, fails⟩
    refine ⟨fails, faults, ?_⟩
    rw [kept]
    exact midway.rewritten

end Dealing

end Update

end QueryExec
