import Mathlib.Data.List.Nodup
import QueryExec.Proofs.Census.Enrolment
import QueryExec.Proofs.Cursor.Leaf

/-!
The engine steps enrol. A census covers an engine when the journal is faithful to it, the
identities to come are not in it and the tables of the store are tidy and not in it either; the
kinds of faults that are admitted are kept beside it.
-/

namespace QueryExec

open QueryExec.Action

namespace Table

variable {key value : Type} [DecidableEq key] {holds : value → Prop}

/-- Every value of the table is such. -/
def Every (holds : value → Prop) (table : Table key value) : Prop :=
  ∀ entry ∈ table.entries, holds entry.2

omit [DecidableEq key] in
theorem every_empty : ({} : Table key value).Every holds :=
  fun _ impossible => by cases impossible

theorem every_place {wanted : key} {item : value} {entries : List (key × value)}
    (every : ∀ entry ∈ entries, holds entry.2) (own : holds item) :
    ∀ entry ∈ place wanted item entries, holds entry.2 := by
  induction entries with
  | nil =>
      intro entry member
      rw [List.mem_singleton.mp member]
      exact own
  | cons first rest induction =>
      obtain ⟨head, tail⟩ := List.forall_mem_cons.mp every
      unfold place
      split
      · exact List.forall_mem_cons.mpr ⟨own, tail⟩
      · exact List.forall_mem_cons.mpr ⟨head, induction tail⟩

omit [DecidableEq key] in
theorem every_imp {other : value → Prop} {table : Table key value} (every : table.Every holds)
    (implies : ∀ item, holds item → other item) : table.Every other :=
  fun entry member => implies entry.2 (every entry member)

theorem every_set {table : Table key value} (every : table.Every holds) (wanted : key)
    {item : value} (own : holds item) : (table.set wanted item).Every holds :=
  every_place every own

theorem every_erase {table : Table key value} (every : table.Every holds) (wanted : key) :
    (table.erase wanted).Every holds :=
  fun entry member => every entry (List.mem_filter.mp member).1

theorem every_get {table : Table key value} (every : table.Every holds) {wanted : key}
    {item : value} (found : table.get? wanted = some item) : holds item := by
  rcases table with ⟨entries⟩
  change lookup wanted entries = some item at found
  change ∀ entry ∈ entries, holds entry.2 at every
  induction entries with
  | nil => cases found
  | cons first rest induction =>
      obtain ⟨head, tail⟩ := List.forall_mem_cons.mp every
      unfold lookup at found
      split at found
      · cases found
        exact head
      · exact induction found tail

section Items

variable {table : Table key value} {wanted : key} {item : value}

theorem keys_place (entries : List (key × value)) :
    (place wanted item entries).map Prod.fst =
      if wanted ∈ entries.map Prod.fst then entries.map Prod.fst
      else entries.map Prod.fst ++ [wanted] := by
  induction entries with
  | nil => rfl
  | cons first rest induction =>
      unfold place
      by_cases same : first.1 = wanted
      · simp [same]
      · simp only [if_neg same, List.map_cons, induction, List.mem_cons, Ne.symm same, false_or]
        split <;> rfl

theorem keys_set_nodup (once : table.keys.Nodup) (wanted : key) (item : value) :
    (table.set wanted item).keys.Nodup := by
  unfold keys set
  rw [keys_place]
  split
  · exact once
  next absent =>
      exact once.append (List.nodup_singleton wanted) (List.disjoint_singleton.mpr absent)

theorem keys_erase_nodup (once : table.keys.Nodup) (wanted : key) :
    (table.erase wanted).keys.Nodup :=
  once.sublist (List.filter_sublist.map Prod.fst)

/-- Setting a key puts its value among the others, in the place of the one that it replaces. -/
theorem values_set (table : Table key value) (wanted : key) (item : value) :
    ((table.get? wanted).toList ++ (table.set wanted item).values).Perm (item :: table.values) := by
  rcases table with ⟨entries⟩
  unfold get? set values
  induction entries with
  | nil => exact .refl _
  | cons first rest induction =>
      unfold lookup place
      split
      · exact .swap _ _ _
      · exact (List.perm_middle.trans (induction.cons _)).trans (.swap _ _ _)

/-- With a key goes its value and no other, since a key is there once. -/
theorem values_erase (once : table.keys.Nodup) (found : table.get? wanted = some item) :
    table.values.Perm (item :: (table.erase wanted).values) := by
  rcases table with ⟨entries⟩
  unfold get? at found
  unfold keys at once
  unfold values erase
  induction entries with
  | nil => cases found
  | cons first rest induction =>
      obtain ⟨alone, others⟩ := List.nodup_cons.mp once
      unfold lookup at found
      split at found
      next same =>
        cases found
        have kept : rest.filter (fun entry => entry.1 ≠ wanted) = rest := by
          refine List.filter_eq_self.mpr fun entry among => decide_eq_true fun equal => alone ?_
          exact same.trans equal.symm ▸ List.mem_map_of_mem among
        rw [List.filter_cons_of_neg (by simp [same]), kept]
        exact .refl _
      next different =>
        rw [List.filter_cons_of_pos (by simpa using different)]
        exact ((induction others found).cons _).trans (.swap _ _ _)

end Items

end Table

/-- Every row of the table is stored, so it is listed in every census. -/
def StoredTable.Plain (table : StoredTable) : Prop :=
  ∀ row ∈ table.rows, row.isStored = true

/-- The rows of the table are stored and have identities of their own, all given out before. -/
structure StoredTable.Tidy (unused : Nat) (table : StoredTable) : Prop where
  plain : table.Plain
  distinct : (table.rows.map Row.id).Nodup
  given : ∀ row ∈ table.rows, row.id < unused

/-- No row of the table has the identity of a row of the census, which are projected ones. -/
def StoredTable.Unlisted (census : Census) (table : StoredTable) : Prop :=
  ∀ row ∈ table.rows, census row.id = none

namespace StoredTable

variable {table : StoredTable} {unused : Nat} {row : Row} {census : Census}

theorem tidy_empty (type : RowType) : Tidy unused { type } where
  plain := fun _ impossible => by cases impossible
  distinct := List.nodup_nil
  given := fun _ impossible => by cases impossible

theorem Tidy.later (tidy : table.Tidy unused) {later : Nat} (grown : unused ≤ later) :
    table.Tidy later :=
  { tidy with given := fun row among => Nat.lt_of_lt_of_le (tidy.given row among) grown }

theorem Tidy.unknown (tidy : table.Tidy unused) (new : row.id = unused) :
    row.id ∉ table.rows.map Row.id := by
  intro known
  obtain ⟨other, among, same⟩ := List.mem_map.mp known
  have earlier := tidy.given other among
  omega

/-- A new row may be added. -/
theorem Tidy.append (tidy : table.Tidy unused) (stored : row.isStored = true)
    (new : row.id = unused) : (table.append row).Tidy (unused + 1) where
  plain := by
    intro other member
    rcases List.mem_append.mp member with before | own
    · exact tidy.plain other before
    · rwa [List.mem_singleton.mp own]
  distinct := by
    change ((table.rows ++ [row]).map Row.id).Nodup
    rw [List.map_append, List.map_singleton]
    exact List.nodup_append_comm.mp (List.nodup_cons.mpr ⟨tidy.unknown new, tidy.distinct⟩)
  given := by
    intro other member
    rcases List.mem_append.mp member with before | own
    · exact Nat.lt_succ_of_lt (tidy.given other before)
    · rw [List.mem_singleton.mp own, new]
      exact Nat.lt_succ_self _

/-- A new row may take the place of another. -/
theorem Tidy.replace_at (tidy : table.Tidy unused) (position : Nat) (stored : row.isStored = true)
    (new : row.id = unused) : (table.replaceAt position row).Tidy (unused + 1) where
  plain := by
    intro other member
    rcases List.mem_or_eq_of_mem_set member with before | rfl
    · exact tidy.plain other before
    · exact stored
  distinct := by
    change ((table.rows.set position row).map Row.id).Nodup
    rw [List.map_set]
    exact tidy.distinct.set (tidy.unknown new)
  given := by
    intro other member
    rcases List.mem_or_eq_of_mem_set member with before | rfl
    · exact Nat.lt_succ_of_lt (tidy.given other before)
    · rw [new]
      exact Nat.lt_succ_self _

theorem Tidy.erase_at (tidy : table.Tidy unused) (position : Nat) :
    (table.eraseAt position).Tidy unused where
  plain := fun other member => tidy.plain other (List.mem_of_mem_eraseIdx member)
  distinct := tidy.distinct.sublist ((List.eraseIdx_sublist _ position).map Row.id)
  given := fun other member => tidy.given other (List.mem_of_mem_eraseIdx member)

theorem Unlisted.append (unlisted : table.Unlisted census) (new : census row.id = none) :
    (table.append row).Unlisted census := by
  intro other member
  rcases List.mem_append.mp member with before | own
  · exact unlisted other before
  · rwa [List.mem_singleton.mp own]

theorem Unlisted.replace_at (unlisted : table.Unlisted census) (position : Nat)
    (new : census row.id = none) : (table.replaceAt position row).Unlisted census := by
  intro other member
  rcases List.mem_or_eq_of_mem_set member with before | rfl
  · exact unlisted other before
  · exact new

theorem Unlisted.erase_at (unlisted : table.Unlisted census) (position : Nat) :
    (table.eraseAt position).Unlisted census :=
  fun other member => unlisted other (List.mem_of_mem_eraseIdx member)

/-- A row that is made now has another identity than the rows that are stored. -/
theorem Unlisted.with (unlisted : table.Unlisted census) (tidy : table.Tidy unused) (made : Row) :
    table.Unlisted (census.with unused made) := by
  intro other member
  have different : other.id ≠ unused := Nat.ne_of_lt (tidy.given other member)
  simpa [Census.with, different] using unlisted other member

end StoredTable

theorem Row.listed_of_stored {row : Row} (stored : row.isStored = true) (census : Census) :
    row.Listed census := by
  cases row with
  | stored id type values => exact trivial
  | projected id type base context bindings columns => cases stored

namespace Engine

/-- What a census covers of an engine in which only the admitted kinds of leaf calls fail. -/
structure Covered (faulty : LeafCall → Prop) (census : Census) (engine : Engine) : Prop where
  faithful : engine.journal.Faithful census
  fresh : ∀ id, engine.nextId ≤ id → census id = none
  tidy : engine.store.tables.Every (StoredTable.Tidy engine.nextId)
  unlisted : engine.store.tables.Every (StoredTable.Unlisted census)
  faults : engine.FaultsWithin faulty

variable {faulty : LeafCall → Prop} {census : Census} {result : Type} {engine : Engine}

theorem Covered.with_journal (covered : engine.Covered faulty census) {journal : Journal}
    (faithful : journal.Faithful census) : Covered faulty census { engine with journal } :=
  { covered with faithful }

theorem Covered.issued (covered : engine.Covered faulty census) :
    Covered faulty census { engine with nextId := engine.nextId + 1 } :=
  { covered with
    fresh := fun id later => covered.fresh id (Nat.le_of_succ_le later)
    tidy := Table.every_imp covered.tidy fun _ tidy => tidy.later (Nat.le_succ _) }

theorem Covered.with_table (covered : engine.Covered faulty census) (name : String)
    {table : StoredTable} (tidy : table.Tidy engine.nextId) (unlisted : table.Unlisted census) :
    Covered faulty census { engine with store := engine.store.setTable name table } :=
  { covered with
    tidy := Table.every_set covered.tidy name tidy
    unlisted := Table.every_set covered.unlisted name unlisted }

theorem enrols_in_journal {action : Action Journal result}
    (keeps : Keeps (Journal.Faithful census) action) :
    Enrols (Covered faulty) census (inJournal action) fun _ _ => True := by
  apply enrols_of_keeps
  intro engine covered
  exact agree_on_part (agree_weaken (keeps engine.journal covered.faithful)
    (fun _ _ => covered.with_journal) fun _ _ => covered.with_journal)

theorem enrols_fresh_id : Enrols (Covered faulty) census freshId fun _ _ => True :=
  fun _ covered => ⟨rfl, census, census.within_refl, covered.issued, trivial⟩

theorem enrols_new_row_type (columns : List ColumnType) :
    Enrols (Covered faulty) census (newRowType columns) fun _ _ => True :=
  fun _ covered => ⟨rfl, census, census.within_refl, { covered with }, trivial⟩

theorem enrols_new_row (type : RowType) (values : List Datum) :
    Enrols (Covered faulty) census (newRow type values) fun _ row => row.isStored = true :=
  enrols_bind enrols_fresh_id fun _ _ _ _ => enrols_pure _ rfl

/-- A projected row is entered in the census under its own identity. -/
theorem enrols_new_projection (type : RowType) {base : Row} (context : Context)
    {bindings : Bindings} (columns : List Expr) (listed : base.Listed census)
    (bound : bindings.Listed census) :
    Enrols (Covered faulty) census (newProjection type base context bindings columns)
      fun later row => row.Listed later := by
  intro engine covered
  let made := Row.projected engine.nextId type base context bindings columns
  have within : census.Within (census.with engine.nextId made) :=
    Census.within_with (covered.fresh _ (Nat.le_refl _)) made
  refine ⟨rfl, census.with engine.nextId made, within, ?_, ?_⟩
  · exact { covered.issued with
      faithful := covered.faithful.later within
      fresh := Census.fresh_with covered.fresh made
      unlisted := fun entry member =>
        (covered.unlisted entry member).with (covered.tidy entry member) made }
  · exact ⟨if_pos rfl, Row.Listed.later within base listed,
      Bindings.Listed.later within bindings bound⟩

theorem covered_noted {engine : Engine} (covered : engine.Covered faulty census) (call : LeafCall) :
    (engine.noted call).Covered faulty census :=
  { covered with faults := faults_within_noted covered.faults call }

theorem enrols_note (call : LeafCall) :
    Enrols (Covered faulty) census (note call) fun _ _ => True :=
  enrols_modify fun _ covered => covered_noted covered call

theorem enrols_inject_fault (call : LeafCall) :
    Enrols (Covered faulty) census (injectFault call) fun _ _ => True := by
  apply enrols_get
  intro engine _
  split
  · split
    · exact enrols_fail _
    · exact enrols_pure () trivial
  · exact enrols_pure () trivial

/-- What is read of a table are stored rows. -/
theorem enrols_stored_table (name : String) :
    Enrols (Covered faulty) census (storedTable name) fun _ table => table.Plain := by
  apply enrols_get
  intro engine covered
  apply enrols_of_except
  intro table found
  unfold Store.table at found
  split at found
  next present =>
      cases found
      exact (Table.every_get covered.tidy present).plain
  next => cases found

theorem enrols_create_table (name : String) (type : RowType) :
    Enrols (Covered faulty) census (createTable name type) fun _ _ => True := by
  apply enrols_get
  intro engine covered
  cases created : engine.store.create name type with
  | error error => exact enrols_fail error
  | ok store =>
      refine enrols_set ?_
      unfold Store.create at created
      split at created
      · cases created
      · cases created
        exact covered.with_table name (StoredTable.tidy_empty type) fun _ impossible => by
          cases impossible

section Writing

variable {good : Journal → Prop} {name : String} {table : StoredTable} {row : Row}

/-- A reading step changes the journal alone. -/
theorem reads_agree {action : Action Journal result} {outcome : Except Interrupt result}
    (yields : Yields good action outcome) (holds : good engine.journal) :
    EndsIn engine (inJournal action)
      (fun value after => outcome = .ok value ∧
        ∃ journal, good journal ∧ after = { engine with journal })
      fun interrupt after => outcome = .error interrupt ∧
        ∃ journal, good journal ∧ after = { engine with journal } := by
  obtain ⟨same, still⟩ := yields engine.journal holds
  refine agree_on_part ⟨rfl, ?_⟩
  revert same still
  rcases action.run engine.journal with ⟨interrupt | value, journal⟩
  · exact fun same still => ⟨same.symm, journal, still, rfl⟩
  · exact fun same still => ⟨same.symm, journal, still, rfl⟩

theorem stored_table_agrees (name : String) (engine : Engine) :
    EndsIn engine (storedTable name)
      (fun table after => engine.store.tables.get? name = some table ∧ engine = after)
      fun _ after => engine.store.tables.get? name = none ∧ engine = after := by
  refine agree_then (fun read after => engine = read ∧ engine = after) ⟨rfl, rfl, rfl⟩ ?_
  rintro _ _ ⟨rfl, rfl⟩
  unfold Store.table
  cases engine.store.tables.get? name with
  | some table => exact agree_pure table ⟨rfl, rfl⟩
  | none => exact agree_fail _ ⟨rfl, rfl⟩

theorem position_of_agrees (describes : Keeps good row.describe) (holds : good engine.journal) :
    EndsIn engine (positionOf name table row)
      (fun position after => table.position? row = some position ∧ engine = after)
      fun _ after => table.position? row = none ∧
        ∃ journal, good journal ∧ after = { engine with journal } := by
  unfold positionOf
  cases table.position? row with
  | some position => exact agree_pure position ⟨rfl, rfl⟩
  | none =>
      refine agree_then (fun _ after => ∃ journal, good journal ∧ after = { engine with journal })
        (agree_on_part (agree_weaken (describes engine.journal holds) ?_ ?_)) ?_
      · exact fun _ journal still => ⟨journal, still, rfl⟩
      · exact fun _ journal still => ⟨rfl, journal, still, rfl⟩
      · exact fun _ _ still => agree_fail _ ⟨rfl, still⟩

/-- What is stored of a row is a new row of the type of the table with the values of the row. -/
theorem materialise_agrees (reads : Yields good row.readAll row.view.values)
    (holds : good engine.journal) :
    EndsIn engine (materialise table row)
      (fun stored after => ∃ journal values, good journal ∧ row.view.values = .ok values ∧
        stored = .stored engine.nextId table.type values ∧
        after = { engine with journal, nextId := engine.nextId + 1 })
      fun interrupt after =>
        (row.type.sameShape table.type = true → row.view.values = .error interrupt) ∧
        ∃ journal, good journal ∧ after = { engine with journal } := by
  unfold materialise
  split
  next shaped =>
    refine agree_bind (agree_weaken (reads_agree reads holds) (fun _ _ => id)
      fun _ _ failed => ⟨fun _ => failed.1, failed.2⟩) ?_
    rintro values _ ⟨same, journal, still, rfl⟩
    exact ⟨rfl, journal, values, still, same, rfl, rfl⟩
  next misshapen =>
    exact agree_fail _ ⟨fun shaped => absurd shaped misshapen, engine.journal, holds, rfl⟩

section Steps

variable {next : StoredTable → Action Engine result} {further : Nat → Action Engine result}
  {write : Row → Action Engine result}

/-- The tables of a covered engine are tidy, and their rows are no projected ones. -/
theorem Covered.in_table (covered : engine.Covered faulty census)
    (continues : ∀ table, table.Tidy engine.nextId → table.Unlisted census →
      EndsIn engine (next table) (fun _ => Covered faulty census) fun _ => Covered faulty census) :
    EndsIn engine (storedTable name >>= next) (fun _ => Covered faulty census)
      fun _ => Covered faulty census := by
  refine agree_bind (agree_weaken (stored_table_agrees name engine) (fun _ _ => id) ?_) ?_
  · rintro _ _ ⟨_, rfl⟩
    exact covered
  · rintro table _ ⟨present, rfl⟩
    exact continues table (Table.every_get covered.tidy present)
      (Table.every_get covered.unlisted present)

/-- A row that is not found is described, which changes the journal at most. -/
theorem Covered.at_position (covered : engine.Covered faulty census) (listed : row.Listed census)
    (continues : ∀ position,
      EndsIn engine (further position) (fun _ => Covered faulty census)
        fun _ => Covered faulty census) :
    EndsIn engine (positionOf name table row >>= further) (fun _ => Covered faulty census)
      fun _ => Covered faulty census := by
  refine agree_bind (agree_weaken (position_of_agrees (keeps_describe listed)
    covered.faithful) (fun _ _ => id) ?_) ?_
  · rintro _ _ ⟨_, journal, faithful, rfl⟩
    exact covered.with_journal faithful
  · rintro position _ ⟨_, rfl⟩
    exact continues position

/-- What is written is a new row with the identity that was the next one. -/
theorem Covered.of_materialised (covered : engine.Covered faulty census)
    (listed : row.Listed census)
    (continues : ∀ reached values, reached.Covered faulty census →
      reached.nextId = engine.nextId + 1 →
      EndsIn reached (write (.stored engine.nextId table.type values))
        (fun _ => Covered faulty census) fun _ => Covered faulty census) :
    EndsIn engine (materialise table row >>= write) (fun _ => Covered faulty census)
      fun _ => Covered faulty census := by
  refine agree_bind (agree_weaken (materialise_agrees (yields_faithful fun _ =>
    read_all_yields listed) covered.faithful) (fun _ _ => id) ?_) ?_
  · rintro _ _ ⟨_, journal, faithful, rfl⟩
    exact covered.with_journal faithful
  · rintro _ _ ⟨journal, values, faithful, _, rfl, rfl⟩
    exact continues _ values (covered.with_journal faithful).issued rfl

end Steps

theorem enrols_insert_row (name : String) (listed : row.Listed census) :
    Enrols (Covered faulty) census (insertRow name row) fun _ _ => True := by
  apply enrols_of_keeps
  intro engine covered
  refine covered.in_table fun table tidy unlisted => ?_
  refine covered.of_materialised listed fun reached values still next => ?_
  exact ⟨rfl, still.with_table name (next ▸ tidy.append rfl rfl)
    (unlisted.append (covered.fresh _ (Nat.le_refl _)))⟩

theorem enrols_update_row (name : String) {old new : Row} (oldListed : old.Listed census)
    (newListed : new.Listed census) :
    Enrols (Covered faulty) census (updateRow name old new) fun _ _ => True := by
  apply enrols_of_keeps
  intro engine covered
  refine covered.in_table fun table tidy unlisted => ?_
  refine covered.at_position oldListed fun position => ?_
  refine covered.of_materialised newListed fun reached values still next => ?_
  exact ⟨rfl, still.with_table name (next ▸ tidy.replace_at position rfl rfl)
    (unlisted.replace_at position (covered.fresh _ (Nat.le_refl _)))⟩

theorem enrols_delete_row (name : String) (listed : row.Listed census) :
    Enrols (Covered faulty) census (deleteRow name row) fun _ _ => True := by
  apply enrols_of_keeps
  intro engine covered
  refine covered.in_table fun table tidy unlisted => ?_
  refine covered.at_position listed fun position => ?_
  exact ⟨rfl, covered.with_table name (tidy.erase_at position) (unlisted.erase_at position)⟩

end Writing

theorem enrols_lock_row : Enrols (Covered faulty) census lockRow fun _ _ => True := by
  apply enrols_bind (enrols_note .lock)
  intro later _ _ _
  apply enrols_bind (enrols_inject_fault .lock)
  intro _ _ _ _
  exact enrols_modify fun _ covered => { covered with }

end Engine

end QueryExec
