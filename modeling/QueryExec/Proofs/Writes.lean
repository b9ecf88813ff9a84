import QueryExec.Proofs.Census.Engine

/-!
What any sequence of writes makes of a store. The rows written may be any rows: stored or
projected, in the store or not, of the shape of the table or of another. A write that fails leaves
all tables as they were; one that succeeds changes one table in one place. Hence stored rows keep
the type of their table and identities of their own, so that a handle addresses one row at most.
-/

namespace QueryExec

open QueryExec.Action

/-- A call that changes the tables of a store. -/
inductive WriteCall
  | create (name : String) (type : RowType)
  | insert (name : String) (row : Row)
  | update (name : String) (old new : Row)
  | delete (name : String) (row : Row)

def WriteCall.perform : WriteCall → Action Engine Unit
  | create name type => Engine.createTable name type
  | insert name row => Engine.insertRow name row
  | update name old new => Engine.updateRow name old new
  | delete name row => Engine.deleteRow name row

/-- The engines whose tables were made by writes, from a store without tables on. Between two
writes anything may have happened that writes no table. -/
inductive Engine.Written : Engine → Prop
  | start {engine : Engine} (bare : engine.store.tables.entries = []) : Written engine
  | write {engine : Engine} (written : engine.Written) (call : WriteCall) :
      Written (call.perform.run engine).2
  | meanwhile {engine later : Engine} (written : engine.Written)
      (untouched : later.store.tables = engine.store.tables)
      (grown : engine.nextId ≤ later.nextId) : Written later

/-- What reading all columns of the row gives at this time. -/
def Row.valuesIn (row : Row) (journal : Journal) : Except Interrupt (List Datum) :=
  (row.readAll.run journal).1

theorem Row.values_in_length {row : Row} {journal : Journal} {values : List Datum}
    (read : row.valuesIn journal = .ok values) : values.length = row.type.width := by
  have counted (columns : List Nat) : EndsIn journal (columns.mapM row.read)
      (fun values _ => values.length = columns.length) fun _ _ => True := by
    generalize journal = start
    induction columns generalizing start with
    | nil => exact agree_pure [] rfl
    | cons column columns induction =>
        rw [List.mapM_cons]
        refine agree_bind (agree_anyhow (row.read column) start) fun _ reached _ => ?_
        refine agree_bind (induction reached) fun values _ long => ?_
        exact agree_pure _ (congrArg (· + 1) long)
  have long := answer_of_ends (counted (List.range row.type.width)) read
  rwa [List.length_range] at long

namespace StoredTable

/-- Every row has its values and the type of the table. -/
def Typed (table : StoredTable) : Prop :=
  ∀ row ∈ table.rows, ∃ id values, row = .stored id table.type values ∧
    values.length = table.type.width

variable {table : StoredTable} {row target : Row} {front back : List Row}

/-- The rows around the one that a handle addresses. -/
theorem addressed {position : Nat} (found : table.position? row = some position) :
    ∃ front target back, table.rows = front ++ target :: back ∧ row.same target = true ∧
      position = front.length := by
  obtain ⟨bound, same, _⟩ := List.findIdx?_eq_some_iff_getElem.mp found
  refine ⟨table.rows.take position, table.rows[position], table.rows.drop (position + 1), ?_, same,
    ?_⟩
  · rw [List.getElem_cons_drop, List.take_append_drop]
  · rw [List.length_take_of_le (Nat.le_of_lt bound)]

theorem replace_between (around : table.rows = front ++ target :: back) (new : Row) :
    table.replaceAt front.length new = { table with rows := front ++ new :: back } := by
  unfold replaceAt
  rw [around, List.set_append_right _ _ (Nat.le_refl _), Nat.sub_self, List.set_cons_zero]

theorem erase_between (around : table.rows = front ++ target :: back) :
    table.eraseAt front.length = { table with rows := front ++ back } := by
  unfold eraseAt
  rw [around, List.eraseIdx_append_of_length_le (Nat.le_refl _), Nat.sub_self,
    List.eraseIdx_cons_zero]

end StoredTable

namespace Store

/-- The row is at a place of a table. -/
def RowAt (store : Store) (name : String) (place : Nat) (row : Row) : Prop :=
  ∃ table, store.tables.get? name = some table ∧ table.rows[place]? = some row

/-- One table became another, and the others are as they were. -/
def Becomes (before : Store) (name : String) (table : StoredTable) (after : Store) : Prop :=
  after.tables.get? name = some table ∧
    ∀ other, other ≠ name → after.tables.get? other = before.tables.get? other

/-- Stored rows have the type of their table, and no two of the store are the same. -/
structure Proper (store : Store) : Prop where
  typed : ∀ name table, store.tables.get? name = some table → table.Typed
  distinct : ∀ name place row other field another, store.RowAt name place row →
    store.RowAt other field another → row.same another = true → name = other ∧ place = field

/-- What writes keep: the rows of each table have identities of their own that were given out
before, and those of two tables have none in common. -/
structure Kept (unused : Nat) (store : Store) : Prop where
  typed : ∀ name table, store.tables.get? name = some table → table.Typed
  tidy : ∀ name table, store.tables.get? name = some table → table.Tidy unused
  apart : ∀ name table other another, name ≠ other →
    store.tables.get? name = some table → store.tables.get? other = some another →
    ∀ row ∈ table.rows, ∀ stored ∈ another.rows, row.id ≠ stored.id

variable {store before after : Store} {unused unused' : Nat} {name : String} {table : StoredTable}

theorem becomes_set_table (store : Store) (name : String) (table : StoredTable) :
    store.Becomes name table (store.setTable name table) :=
  ⟨Table.get_set_same _ _ _, fun _ different => Table.get_set_other _ _ _ _ different⟩

theorem kept_empty (bare : store.tables.entries = []) : store.Kept unused := by
  have missing (name : String) : store.tables.get? name = none := by
    unfold Table.get?
    rw [bare]
    rfl
  constructor
  · intro name table found
    rw [missing] at found
    cases found
  · intro name table found
    rw [missing] at found
    cases found
  · intro name table _ _ _ found
    rw [missing] at found
    cases found

theorem Kept.later (kept : before.Kept unused) (untouched : after.tables = before.tables)
    (grown : unused ≤ unused') : after.Kept unused' := by
  constructor
  · rw [untouched]
    exact kept.typed
  · intro name table found
    rw [untouched] at found
    exact (kept.tidy name table found).later grown
  · rw [untouched]
    exact kept.apart

/-- A table found afterwards is the one that was set, or was found before. -/
theorem Becomes.found (becomes : before.Becomes name table after) {other : String}
    {another : StoredTable} (found : after.tables.get? other = some another) :
    (other = name ∧ another = table) ∨
      (other ≠ name ∧ before.tables.get? other = some another) := by
  obtain ⟨changed, others⟩ := becomes
  by_cases same : other = name
  · rw [same, changed] at found
    exact .inl ⟨same, (Option.some.inj found).symm⟩
  · rw [others other same] at found
    exact .inr ⟨same, found⟩

/-- A table may become another one whose rows were in it before or are new. -/
theorem Kept.become (kept : before.Kept unused) (becomes : before.Becomes name table after)
    (grown : unused ≤ unused') (typed : table.Typed) (tidy : table.Tidy unused')
    (origin : ∀ row ∈ table.rows, row.id = unused ∨
      ∃ old, before.tables.get? name = some old ∧ row ∈ old.rows) : after.Kept unused' := by
  have unlike (other : String) (another : StoredTable) (different : other ≠ name)
      (found : before.tables.get? other = some another) :
      ∀ row ∈ table.rows, ∀ stored ∈ another.rows, row.id ≠ stored.id := by
    intro row among stored present
    rcases origin row among with new | ⟨old, known, earlier⟩
    · have given := (kept.tidy other another found).given stored present
      omega
    · exact kept.apart name old other another different.symm known found row earlier stored present
  constructor
  · intro other another found
    rcases becomes.found found with ⟨rfl, rfl⟩ | ⟨_, found⟩
    · exact typed
    · exact kept.typed other another found
  · intro other another found
    rcases becomes.found found with ⟨rfl, rfl⟩ | ⟨_, found⟩
    · exact tidy
    · exact (kept.tidy other another found).later grown
  · intro first table₁ second table₂ different found₁ found₂ row among stored present
    rcases becomes.found found₁ with ⟨rfl, rfl⟩ | ⟨left, earlier₁⟩ <;>
      rcases becomes.found found₂ with ⟨same, rfl⟩ | ⟨right, earlier₂⟩
    · exact absurd same.symm different
    · exact unlike second table₂ right earlier₂ row among stored present
    · exact (unlike first table₁ left earlier₁ stored present row among).symm
    · exact kept.apart first table₁ second table₂ different earlier₁ earlier₂ row among stored
        present

/-- So it is where its rows were in the same table before or are one new row of its type. -/
theorem Kept.rewritten {old : StoredTable} (kept : before.Kept unused)
    (found : before.tables.get? name = some old) (becomes : before.Becomes name table after)
    (same : table.type = old.type) (grown : unused ≤ unused') (tidy : table.Tidy unused')
    (origin : ∀ row ∈ table.rows, row ∈ old.rows ∨ ∃ values,
      row = .stored unused old.type values ∧ values.length = old.type.width) :
    after.Kept unused' := by
  refine kept.become becomes grown ?_ tidy ?_
  · intro row member
    rw [same]
    rcases origin row member with earlier | ⟨values, own, long⟩
    · exact kept.typed name old found row earlier
    · exact ⟨unused, values, own, long⟩
  · intro row member
    rcases origin row member with earlier | ⟨values, rfl, _⟩
    · exact .inr ⟨old, found, earlier⟩
    · exact .inl rfl

theorem Kept.proper (kept : store.Kept unused) : store.Proper where
  typed := kept.typed
  distinct := by
    rintro name place row other field another ⟨table, found, here⟩ ⟨table', found', there⟩ same
    have alike : row.id = another.id := by simpa [Row.same] using same
    by_cases apart : name = other
    · subst apart
      rw [found] at found'
      cases found'
      refine ⟨rfl, ?_⟩
      have ids : (table.rows.map Row.id)[place]? = (table.rows.map Row.id)[field]? := by
        rw [List.getElem?_map, List.getElem?_map, here, there]
        exact congrArg some alike
      have bound : place < (table.rows.map Row.id).length := by
        rw [List.length_map]
        exact (List.getElem?_eq_some_iff.mp here).1
      exact (List.getElem?_inj bound (kept.tidy name table found).distinct).mp ids
    · exact absurd alike (kept.apart name table other table' apart found found' row
        (List.mem_of_getElem? here) another (List.mem_of_getElem? there))

end Store

namespace WriteCall

/-- When a call is carried out. -/
def Admitted (engine : Engine) : WriteCall → Prop
  | create name _ => engine.store.tables.get? name = none
  | insert name row =>
      ∃ table, engine.store.tables.get? name = some table ∧
        row.type.columns = table.type.columns ∧ ∃ values, row.valuesIn engine.journal = .ok values
  | update name old new =>
      ∃ table, engine.store.tables.get? name = some table ∧
        (∃ target ∈ table.rows, old.same target = true) ∧
        new.type.columns = table.type.columns ∧ ∃ values, new.valuesIn engine.journal = .ok values
  | delete name row =>
      ∃ table, engine.store.tables.get? name = some table ∧
        ∃ target ∈ table.rows, row.same target = true

/-- What a call does when it is carried out. What it stores is a new row of the type of the table
with the values of the row that it is given. -/
def Effect (before after : Engine) : WriteCall → Prop
  | create name type =>
      before.store.Becomes name { type } after.store ∧ after.nextId = before.nextId
  | insert name row =>
      ∃ table values, before.store.tables.get? name = some table ∧
        row.valuesIn before.journal = .ok values ∧
        before.store.Becomes name
          { table with rows := table.rows ++ [.stored before.nextId table.type values] }
          after.store ∧
        after.nextId = before.nextId + 1
  | update name old new =>
      ∃ table front target back values, before.store.tables.get? name = some table ∧
        table.rows = front ++ target :: back ∧ old.same target = true ∧
        new.valuesIn before.journal = .ok values ∧
        before.store.Becomes name
          { table with rows := front ++ .stored before.nextId table.type values :: back }
          after.store ∧
        after.nextId = before.nextId + 1
  | delete name row =>
      ∃ table front target back, before.store.tables.get? name = some table ∧
        table.rows = front ++ target :: back ∧ row.same target = true ∧
        before.store.Becomes name { table with rows := front ++ back } after.store ∧
        after.nextId = before.nextId

variable {engine before after : Engine} {name : String} {table : StoredTable} {row : Row}

/-- Reading in the journal of an engine changes the journal alone. -/
theorem reads_in_journal (row : Row) (engine : Engine) :
    EndsIn engine (Engine.inJournal row.readAll)
      (fun values after => row.valuesIn engine.journal = .ok values ∧
        ∃ journal, after = { engine with journal })
      fun interrupt after => row.valuesIn engine.journal = .error interrupt ∧
        ∃ journal, after = { engine with journal } := by
  refine agree_on_part ⟨rfl, ?_⟩
  unfold Meets Row.valuesIn
  split
  next same => exact ⟨same, _, rfl⟩
  next same => exact ⟨same, _, rfl⟩

/-- What is stored is a new row of the type of the table with the values that were read. -/
theorem materialise_ends (table : StoredTable) (row : Row) (engine : Engine) :
    EndsIn engine (Engine.materialise table row)
      (fun stored after => ∃ values journal, row.type.columns = table.type.columns ∧
        row.valuesIn engine.journal = .ok values ∧
        stored = .stored engine.nextId table.type values ∧
        after = { engine with journal, nextId := engine.nextId + 1 })
      fun _ after => ¬ (row.type.columns = table.type.columns ∧
        ∃ values, row.valuesIn engine.journal = .ok values) ∧
        ∃ journal, after = { engine with journal } := by
  unfold Engine.materialise
  split
  next shaped =>
    have columns : row.type.columns = table.type.columns := by
      simpa [RowType.sameShape] using shaped
    refine agree_bind (agree_weaken (reads_in_journal row engine) (fun _ _ => id) ?_) ?_
    · rintro interrupt _ ⟨failed, journal, rfl⟩
      refine ⟨?_, journal, rfl⟩
      rintro ⟨_, values, read⟩
      rw [failed] at read
      cases read
    · rintro values _ ⟨read, journal, rfl⟩
      exact ⟨rfl, values, journal, columns, read, rfl, rfl⟩
  next misshapen =>
    refine agree_fail _ ⟨?_, engine.journal, rfl⟩
    rintro ⟨columns, _⟩
    exact misshapen (by simpa [RowType.sameShape] using columns)

/-- A row is addressed by its identity, and the tables are as before. -/
theorem position_ends (name : String) (table : StoredTable) (row : Row) (engine : Engine) :
    EndsIn engine (Engine.positionOf name table row)
      (fun position after => table.position? row = some position ∧ engine = after)
      fun _ after => table.position? row = none ∧ ∃ journal, after = { engine with journal } := by
  have describes : Keeps (fun _ => True) row.describe := fun start _ =>
    agree_anyhow row.describe start
  refine agree_weaken (Engine.position_of_agrees describes trivial) (fun _ _ => id) ?_
  rintro _ _ ⟨missing, journal, _, rfl⟩
  exact ⟨missing, journal, rfl⟩

/-- The step is carried out if it is admitted, and otherwise fails and changes no table. -/
def CarriedOut (engine : Engine) (step : Action Engine Unit) (admitted : Prop)
    (done : Engine → Prop) : Prop :=
  EndsIn engine step (fun _ after => admitted ∧ done after)
    fun _ after => ¬ admitted ∧ after.store = engine.store ∧ after.nextId = engine.nextId

/-- A step on a table needs the table. -/
theorem on_table {step : StoredTable → Action Engine Unit} {admitted : StoredTable → Prop}
    {done : Engine → Prop} (continues : ∀ table, engine.store.tables.get? name = some table →
      CarriedOut engine (step table) (admitted table) done) :
    CarriedOut engine (Engine.storedTable name >>= step)
      (∃ table, engine.store.tables.get? name = some table ∧ admitted table) done := by
  refine agree_bind (agree_weaken (Engine.stored_table_agrees name engine) (fun _ _ => id) ?_) ?_
  · rintro _ _ ⟨missing, rfl⟩
    refine ⟨?_, rfl, rfl⟩
    rintro ⟨table, found, _⟩
    exact Option.some_ne_none table (found.symm.trans missing)
  rintro table _ ⟨found, rfl⟩
  refine agree_weaken (continues table found) ?_ ?_
  · exact fun _ _ carried => ⟨⟨table, found, carried.1⟩, carried.2⟩
  · rintro _ _ ⟨refused, unchanged⟩
    refine ⟨?_, unchanged⟩
    rintro ⟨another, again, admits⟩
    rw [found] at again
    cases again
    exact refused admits

/-- A step on a row needs the row in the table. -/
theorem on_row {step : Nat → Action Engine Unit} {admitted : Prop} {done : Engine → Prop}
    (continues : ∀ front target back, table.rows = front ++ target :: back →
      row.same target = true → CarriedOut engine (step front.length) admitted done) :
    CarriedOut engine (Engine.positionOf name table row >>= step)
      ((∃ target ∈ table.rows, row.same target = true) ∧ admitted) done := by
  refine agree_bind (agree_weaken (position_ends name table row engine) (fun _ _ => id) ?_) ?_
  · rintro _ _ ⟨stray, journal, rfl⟩
    refine ⟨?_, rfl, rfl⟩
    rintro ⟨⟨target, among, same⟩, _⟩
    have unlike := List.findIdx?_eq_none_iff.mp stray target among
    rw [same] at unlike
    cases unlike
  rintro position _ ⟨placed, rfl⟩
  obtain ⟨front, target, back, around, same, rfl⟩ := StoredTable.addressed placed
  have among : target ∈ table.rows := by
    rw [around]
    exact List.mem_append_right front List.mem_cons_self
  refine agree_weaken (continues front target back around same) ?_ ?_
  · exact fun _ _ carried => ⟨⟨⟨target, among, same⟩, carried.1⟩, carried.2⟩
  · exact fun _ _ refused => ⟨fun admits => refused.1 admits.2, refused.2⟩

/-- A step that stores a row in a table needs its shape and its values. -/
theorem on_values {step : Row → Engine → Engine} {done : Engine → Prop}
    (completes : ∀ values journal, row.valuesIn engine.journal = .ok values →
      done (step (.stored engine.nextId table.type values)
        { engine with journal, nextId := engine.nextId + 1 })) :
    CarriedOut engine (Engine.materialise table row >>= fun stored => modify (step stored))
      (row.type.columns = table.type.columns ∧
        ∃ values, row.valuesIn engine.journal = .ok values) done := by
  refine agree_bind (agree_weaken (materialise_ends table row engine) (fun _ _ => id) ?_) ?_
  · rintro _ _ ⟨refused, journal, rfl⟩
    exact ⟨refused, rfl, rfl⟩
  · rintro _ _ ⟨values, journal, columns, read, rfl, rfl⟩
    exact ⟨rfl, ⟨columns, values, read⟩, completes values journal read⟩

theorem create_carried_out (name : String) (type : RowType) (engine : Engine) :
    CarriedOut engine (perform (.create name type)) (Admitted engine (.create name type))
      fun after => Effect engine after (.create name type) := by
  refine agree_then (fun read after => engine = read ∧ engine = after) ⟨rfl, rfl, rfl⟩ ?_
  rintro _ _ ⟨rfl, rfl⟩
  unfold Store.create Table.contains
  cases found : engine.store.tables.get? name with
  | some table =>
      have taken : ¬ Admitted engine (.create name type) :=
        fun free => Option.some_ne_none table (found.symm.trans free)
      exact agree_then (fun _ _ => False) (agree_fail _ ⟨taken, rfl, rfl⟩) fun _ _ => False.elim
  | none => exact ⟨rfl, found, Store.becomes_set_table _ name _, rfl⟩

theorem insert_carried_out (name : String) (row : Row) (engine : Engine) :
    CarriedOut engine (perform (.insert name row)) (Admitted engine (.insert name row))
      fun after => Effect engine after (.insert name row) :=
  on_table fun table found => on_values fun values _ read =>
    ⟨table, values, found, read, Store.becomes_set_table _ name _, rfl⟩

theorem update_carried_out (name : String) (old new : Row) (engine : Engine) :
    CarriedOut engine (perform (.update name old new)) (Admitted engine (.update name old new))
      fun after => Effect engine after (.update name old new) := by
  refine on_table fun table found => on_row fun front target back around same =>
    on_values fun values _ read => ?_
  rw [StoredTable.replace_between around]
  exact ⟨table, front, target, back, values, found, around, same, read,
    Store.becomes_set_table _ name _, rfl⟩

theorem delete_carried_out (name : String) (row : Row) (engine : Engine) :
    CarriedOut engine (perform (.delete name row)) (Admitted engine (.delete name row))
      fun after => Effect engine after (.delete name row) := by
  have carried : CarriedOut engine (perform (.delete name row))
      (∃ table, engine.store.tables.get? name = some table ∧
        (∃ target ∈ table.rows, row.same target = true) ∧ True)
      fun after => Effect engine after (.delete name row) := by
    refine on_table fun table found => on_row fun front target back around same => ?_
    rw [StoredTable.erase_between around]
    exact ⟨rfl, trivial, table, front, target, back, found, around, same,
      Store.becomes_set_table _ name _, rfl⟩
  simp only [and_true] at carried
  exact carried

theorem carried_out (call : WriteCall) (engine : Engine) :
    CarriedOut engine call.perform (call.Admitted engine) fun after =>
      call.Effect engine after := by
  cases call with
  | create name type => exact create_carried_out name type engine
  | insert name row => exact insert_carried_out name row engine
  | update name old new => exact update_carried_out name old new engine
  | delete name row => exact delete_carried_out name row engine

variable {unused : Nat} {call : WriteCall}

/-- The values that are stored are as many as the columns of the table. -/
theorem stored_width {values : List Datum} (columns : row.type.columns = table.type.columns)
    (read : row.valuesIn engine.journal = .ok values) : values.length = table.type.width :=
  (Row.values_in_length read).trans (congrArg List.length columns)

/-- A call that is carried out keeps what writes keep. -/
theorem Effect.kept (effect : call.Effect before after) (admitted : call.Admitted before)
    (kept : before.store.Kept before.nextId) : after.store.Kept after.nextId := by
  cases call with
  | create name type =>
      obtain ⟨becomes, issued⟩ := effect
      refine kept.become becomes (Nat.le_of_eq issued.symm) ?_ (StoredTable.tidy_empty type) ?_
      · exact fun _ impossible => by cases impossible
      · exact fun _ impossible => by cases impossible
  | insert name row =>
      obtain ⟨table, values, found, read, becomes, issued⟩ := effect
      obtain ⟨_, again, columns, _⟩ := admitted
      rw [found] at again
      cases again
      have tidy : (table.append (.stored before.nextId table.type values)).Tidy after.nextId := by
        rw [issued]
        exact (kept.tidy name table found).append rfl rfl
      refine kept.rewritten found becomes rfl (by omega) tidy fun stored member => ?_
      rcases List.mem_append.mp member with earlier | own
      · exact .inl earlier
      · exact .inr ⟨values, List.mem_singleton.mp own, stored_width columns read⟩
  | update name old new =>
      obtain ⟨table, front, target, back, values, found, around, same, read, becomes, issued⟩ :=
        effect
      obtain ⟨_, again, _, columns, _⟩ := admitted
      rw [found] at again
      cases again
      have tidy : StoredTable.Tidy after.nextId
          { table with rows := front ++ .stored before.nextId table.type values :: back } := by
        rw [issued, ← StoredTable.replace_between around]
        exact (kept.tidy name table found).replace_at front.length rfl rfl
      refine kept.rewritten found becomes rfl (by omega) tidy fun stored member => ?_
      rw [around]
      simp only [List.mem_append, List.mem_cons] at member ⊢
      rcases member with earlier | own | later
      · exact .inl (.inl earlier)
      · exact .inr ⟨values, own, stored_width columns read⟩
      · exact .inl (.inr (.inr later))
  | delete name row =>
      obtain ⟨table, front, target, back, found, around, same, becomes, issued⟩ := effect
      have tidy : StoredTable.Tidy after.nextId { table with rows := front ++ back } := by
        rw [issued, ← StoredTable.erase_between around]
        exact (kept.tidy name table found).erase_at front.length
      refine kept.rewritten found becomes rfl (by omega) tidy fun stored member => ?_
      rw [around]
      simp only [List.mem_append, List.mem_cons] at member ⊢
      rcases member with earlier | later
      · exact .inl (.inl earlier)
      · exact .inl (.inr (.inr later))

end WriteCall

namespace Engine

/-- Every write keeps what writes keep, whether it is carried out or not. -/
theorem Written.kept {engine : Engine} (written : engine.Written) :
    engine.store.Kept engine.nextId := by
  induction written with
  | start bare => exact Store.kept_empty bare
  | @write engine _ call kept =>
      have keeps : EndsIn engine call.perform (fun _ after => after.store.Kept after.nextId)
          fun _ after => after.store.Kept after.nextId := by
        refine agree_weaken (call.carried_out engine) ?_ ?_
        · exact fun _ after carried => carried.2.kept carried.1 kept
        · exact fun _ after refused => kept.later (congrArg Store.tables refused.2.1)
            (Nat.le_of_eq refused.2.2.symm)
      exact reaches_of_ends keeps
  | meanwhile _ untouched grown kept => exact kept.later untouched grown

/-- After any writes all stored rows have the type of their table and no two of the store are the
same. The next call succeeds exactly if it is admitted; then it has its effect, and otherwise the
store stays as it is. -/
theorem Written.writes_are_exact {engine : Engine} (written : engine.Written) :
    engine.store.Proper ∧ ∀ call : WriteCall,
      match call.perform.run engine with
      | (.ok (), after) => call.Admitted engine ∧ call.Effect engine after
      | (.error _, after) => ¬ call.Admitted engine ∧ after.store = engine.store := by
  refine ⟨written.kept.proper, fun call => ?_⟩
  have meets := (call.carried_out engine).2
  revert meets
  rcases call.perform.run engine with ⟨interrupt | value, after⟩
  · exact fun refused => ⟨refused.1, refused.2.1⟩
  · exact id

end Engine

/-! A row of one table is copied into another and then put in its own place again; a row made from
it on the fly is stored by its value; a stray row and a row of another shape are refused. -/

namespace Copies

def flags : RowType := ⟨1, [⟨.boolean, true⟩]⟩

def marks : RowType := ⟨2, [⟨.boolean, true⟩]⟩

def pairs : RowType := ⟨3, [⟨.boolean, true⟩, ⟨.boolean, true⟩]⟩

def context : Context := ⟨0, .standard, {}⟩

def first : Row := .stored 1 flags [.boolean true]

def negated : Row :=
  .projected 9 marks first context .empty [.unary .not (.column 0 ⟨.boolean, true⟩)]

def calls : List WriteCall :=
  [.create "flags" flags, .create "marks" marks,
    .insert "flags" (.stored 8 pairs [.null, .null]),
    .insert "flags" (.stored 8 flags [.boolean true]),
    .insert "marks" first, .insert "marks" negated,
    .update "flags" first first, .update "flags" first negated, .delete "marks" negated]

def engine : Engine :=
  calls.foldl (fun engine call => (call.perform.run engine).2) {}

theorem written_after (calls : List WriteCall) {engine : Engine} (written : engine.Written) :
    (calls.foldl (fun engine call => (call.perform.run engine).2) engine).Written := by
  induction calls generalizing engine with
  | nil => exact written
  | cons call calls induction => exact induction (written.write call)

theorem copies_are_rows_of_their_own :
    engine.Written ∧
    engine.store.tables.get? "flags" = some ⟨flags, [.stored 4 flags [.boolean true]]⟩ ∧
    engine.store.tables.get? "marks" =
      some ⟨marks, [.stored 2 marks [.boolean true], .stored 3 marks [.boolean false]]⟩ ∧
    engine.store.Proper ∧
    ∀ call : WriteCall,
      match call.perform.run engine with
      | (.ok (), after) => call.Admitted engine ∧ call.Effect engine after
      | (.error _, after) => ¬ call.Admitted engine ∧ after.store = engine.store := by
  have written : engine.Written := written_after calls (.start rfl)
  exact ⟨written, rfl, rfl, written.writes_are_exact⟩

end Copies

end QueryExec
