import QueryExec.Proofs.Cursor.Calls
import QueryExec.Proofs.Cursor.Lockstep
import QueryExec.Proofs.Plan
import QueryExec.Proofs.Writes

/-!
What a scan of a stored table hands out while the table is written. A pass takes the rows that the
table has when it is opened and gives them in their order, whatever is inserted, replaced or deleted
meanwhile; the rows that it gives keep their values.
-/

namespace QueryExec

open QueryExec.Action

/-- A pass as it is seen from outside: the rows of the table when it was opened, what reading them
gave at that time, and the rows that were handed out since. -/
structure Pass where
  snapshot : List Row
  values : List (Except Interrupt (List Datum))
  yielded : List Row := []

namespace Pass

/-- A pass that is opened on an engine with the table. -/
def begun (name : String) (engine : Engine) : Option Pass :=
  (engine.store.tables.get? name).map fun table =>
    { snapshot := table.rows, values := table.rows.map fun row => row.valuesIn engine.journal }

/-- What is known of the last pass after a call, made in an engine, has ended. -/
def after (name : String) (engine : Engine) (pass? : Option Pass) :
    CursorCall → Except Interrupt CursorAnswer → Option Pass
  | .openPass, .ok _ => begun name engine
  | .next, .ok (.row (some row)) =>
      pass?.map fun pass => { pass with yielded := pass.yielded ++ [row] }
  | _, _ => pass?

/-- The rows given are the first ones of the snapshot, and all of the snapshot have the declared
type and the values that they had, whatever happened to the journal. -/
structure Sound (declared : RowType) (pass : Pass) : Prop where
  inOrder : pass.yielded <+: pass.snapshot
  typed : ∀ row ∈ pass.snapshot, row.type.same declared = true
  readable : ∀ outcome ∈ pass.values, ∃ values, outcome = .ok values
  lasting : ∀ journal, pass.snapshot.map (fun row => row.valuesIn journal) = pass.values

end Pass

/-- What can happen to a scan of a stored table, the engine around it and its last pass. Between
any two calls on the scan there may be any writes and anything else that writes no table. -/
inductive Plan.Watched (context : Context) (name : String) (declared : RowType) :
    (Plan.table name declared).Cursor → Engine → Option Pass → Prop
  | start {engine : Engine} {source : BindingSource} {cursor : (Plan.table name declared).Cursor}
      (written : engine.Written)
      (started : (Plan.table name declared).start engine.store source = .ok cursor) :
      Watched context name declared cursor engine none
  | write {cursor : (Plan.table name declared).Cursor} {engine : Engine} {pass? : Option Pass}
      (earlier : Watched context name declared cursor engine pass?) (call : WriteCall) :
      Watched context name declared cursor (call.perform.run engine).2 pass?
  | meanwhile {cursor : (Plan.table name declared).Cursor} {engine later : Engine}
      {pass? : Option Pass} (earlier : Watched context name declared cursor engine pass?)
      (untouched : later.store.tables = engine.store.tables)
      (grown : engine.nextId ≤ later.nextId) : Watched context name declared cursor later pass?
  | call {cursor cursor' : (Plan.table name declared).Cursor} {engine engine' : Engine}
      {pass? : Option Pass} (earlier : Watched context name declared cursor engine pass?)
      (call : CursorCall) {outcome : Except Interrupt CursorAnswer}
      (ended : (((Plan.table name declared).protocol context).perform call).run (cursor, engine) =
        (outcome, cursor', engine')) :
      Watched context name declared cursor' engine' (Pass.after name engine pass? call outcome)

theorem Row.stored_values_in (id : Nat) {type : RowType} {values : List Datum}
    (width : values.length = type.width) (journal : Journal) :
    (Row.stored id type values).valuesIn journal = .ok values := by
  have reads (column : Nat) : Yields (fun _ : Journal => True)
      ((Row.stored id type values).read column) ((Row.stored id type values).meaning column) := by
    have yields := yields_index (fun _ : Journal => True) values column
    unfold Row.meaning
    rw [read_stored, (yields {} trivial).1]
    exact yields
  have all : Yields (fun _ : Journal => True) (Row.stored id type values).readAll
      (Row.stored id type values).view.values := yields_map _ reads
  exact ((all journal trivial).1).trans (stored_values id width)

/-- A table is never taken away and keeps its type. -/
theorem WriteCall.keeps_table (call : WriteCall) {engine : Engine} {name : String}
    {table : StoredTable} (found : engine.store.tables.get? name = some table) :
    ∃ later, (call.perform.run engine).2.store.tables.get? name = some later ∧
      later.type = table.type := by
  have kept {changed : String} {another : StoredTable} {after : Engine}
      (becomes : engine.store.Becomes changed another after.store)
      (same : ∀ old, engine.store.tables.get? changed = some old → another.type = old.type) :
      ∃ later, after.store.tables.get? name = some later ∧ later.type = table.type := by
    by_cases own : name = changed
    · subst own
      exact ⟨another, becomes.1, same table found⟩
    · exact ⟨table, (becomes.2 name own).trans found, rfl⟩
  refine ends_of_agree
    (fun _ (after : Engine) => ∃ later,
      after.store.tables.get? name = some later ∧ later.type = table.type)
    (agree_weaken (call.carried_out engine) ?_ ?_)
  · rintro _ after ⟨admitted, effect⟩
    cases call with
    | create other type =>
        have free : engine.store.tables.get? other = none := admitted
        refine kept effect.1 fun old present => ?_
        cases free.symm.trans present
    | insert other row =>
        obtain ⟨old, _, present, _, becomes, _⟩ := effect
        refine kept becomes fun another again => ?_
        cases present.symm.trans again
        rfl
    | update other old new =>
        obtain ⟨old, _, _, _, _, present, _, _, _, becomes, _⟩ := effect
        refine kept becomes fun another again => ?_
        cases present.symm.trans again
        rfl
    | delete other row =>
        obtain ⟨old, _, _, _, present, _, _, becomes, _⟩ := effect
        refine kept becomes fun another again => ?_
        cases present.symm.trans again
        rfl
  · rintro _ after ⟨-, same, -⟩
    exact ⟨table, same ▸ found, rfl⟩

/-- A scan that is admitted declares the type of a table of the store. -/
theorem Store.declared_of_checked {store : Store} {name : String} {declared : RowType}
    (checked : store.checkScan name declared = .ok ()) :
    ∃ table, store.tables.get? name = some table ∧ table.type.same declared = true := by
  unfold checkScan Store.table at checked
  cases found : store.tables.get? name with
  | none =>
      rw [found] at checked
      cases checked
  | some table =>
      rw [found] at checked
      refine ⟨table, rfl, ?_⟩
      by_contra other
      exact absurd (checked.symm.trans (if_neg other)) (by simp)

namespace Scan

variable {context : Context} {name : String} {scan : Scan} {engine : Engine}

/-- The tables and the supply of identities are as before. -/
def Untouched (before after : Engine) : Prop :=
  after.store.tables = before.store.tables ∧ after.nextId = before.nextId

/-- The scan has what was pending before, or is not in a pass, and no table was touched. -/
def Calm (scan : Scan) (engine : Engine) (pair : Scan × Engine) : Prop :=
  (pair.1.phase.isActive = true → scan.phase.isActive = true ∧ pair.1.pending = scan.pending) ∧
    Untouched engine pair.2

theorem calm_refl (scan : Scan) (engine : Engine) : Calm scan engine (scan, engine) :=
  ⟨fun active => ⟨active, rfl⟩, rfl, rfl⟩

section Calm

theorem keeps_calm_change {step : Scan → Scan}
    (calm : ∀ before, (step before).phase.isActive = true →
      before.phase.isActive = true ∧ (step before).pending = before.pending) :
    Keeps (Calm scan engine) (CursorAction.change step) := by
  refine keeps_modify fun pair kept => ⟨fun active => ?_, kept.2⟩
  obtain ⟨before, same⟩ := calm pair.1 active
  exact ⟨(kept.1 before).1, same.trans (kept.1 before).2⟩

theorem keeps_calm_check (call : Call) : Keeps (Calm scan engine) (check call) :=
  keeps_bind keeps_state fun scan => keeps_phase_check call scan.phase

theorem keeps_calm_engine {result : Type} {action : Action Engine result}
    (keeps : ∀ before, Keeps (Untouched before) action) :
    Keeps (Calm scan engine) (CursorAction.inEngine action) := by
  rintro ⟨before, reached⟩ kept
  exact CursorAction.agree_in_engine (agree_weaken (keeps engine reached kept.2)
    (fun _ _ untouched => ⟨kept.1, untouched⟩) fun _ _ untouched => ⟨kept.1, untouched⟩)

theorem keeps_untouched_note (before : Engine) (call : LeafCall) :
    Keeps (Untouched before) (Engine.note call) :=
  keeps_modify fun _ kept => kept

theorem keeps_untouched_fault (before : Engine) (call : LeafCall) :
    Keeps (Untouched before) (Engine.injectFault call) := by
  intro reached kept
  exact agree_weaken (inject_fault_keeps call reached) (fun _ _ same => same ▸ kept)
    fun _ _ same => same ▸ kept

theorem keeps_calm_instead {result : Type} {action : CursorAction Scan result} (call : LeafCall)
    (keeps : Keeps (Calm scan engine) action) :
    Keeps (Calm scan engine) (insteadOf call action) :=
  keeps_bind (keeps_calm_engine fun before => keeps_untouched_note before call) fun _ =>
    keeps_bind (keeps_calm_engine fun before => keeps_untouched_fault before call) fun _ => keeps

theorem keeps_calm_after {action : CursorAction Scan Unit} (call : LeafCall)
    (keeps : Keeps (Calm scan engine) action) : Keeps (Calm scan engine) (after call action) :=
  keeps_bind (keeps_calm_engine fun before => keeps_untouched_note before call) fun _ =>
    keeps_bind keeps fun _ =>
      keeps_calm_engine fun before => keeps_untouched_fault before call

/-- Calls other than to open and to take a row leave a pass as it is or end it. -/
theorem keeps_calm_call (load : Action Engine (List Row)) {call : CursorCall}
    (opens : call ≠ .openPass) (takes : call ≠ .next) :
    Keeps (Calm scan engine) ((probed (protocol context load)).perform call) := by
  have ended : ∀ {step : Scan → Scan}, (∀ before, (step before).phase.isActive = false) →
      ∀ before, (step before).phase.isActive = true →
        before.phase.isActive = true ∧ (step before).pending = before.pending := by
    intro step idle before active
    rw [idle] at active
    cases active
  cases call with
  | openPass => exact absurd rfl opens
  | next => exact absurd rfl takes
  | close =>
      refine keeps_bind (keeps_calm_after .close ?_) fun _ => keeps_pure _
      exact keeps_bind (keeps_calm_check .close) fun _ => keeps_calm_change (ended fun _ => rfl)
  | destroy =>
      refine keeps_bind (keeps_calm_after .destroy ?_) fun _ => keeps_pure _
      exact keeps_bind (keeps_calm_check .destroy) fun _ => keeps_calm_change (ended fun _ => rfl)
  | openBindings =>
      refine keeps_bind (keeps_calm_instead .openBindings ?_) fun _ => keeps_pure _
      exact keeps_bind (keeps_calm_check .openBindings) fun _ =>
        keeps_calm_change fun _ active => ⟨active, rfl⟩
  | nextBindings =>
      refine keeps_bind (keeps_calm_instead .nextBindings ?_) fun _ => keeps_pure _
      refine keeps_bind (keeps_calm_check .nextBindings) fun _ => keeps_bind keeps_state fun _ => ?_
      exact keeps_bind (keeps_calm_change fun _ active => ⟨active, rfl⟩) fun _ => keeps_pure _
  | closeBindings =>
      refine keeps_bind (keeps_calm_instead .closeBindings ?_) fun _ => keeps_pure _
      exact keeps_bind (keeps_calm_check .closeBindings) fun _ =>
        keeps_calm_change fun _ active => ⟨active, rfl⟩
  | cancelBindings bindings =>
      refine keeps_bind (keeps_modify fun pair kept => ⟨fun active => ?_, kept.2⟩) fun _ =>
        keeps_pure _
      exact absurd active (by
        change (if pair.1.phase = .destroyed then Phase.destroyed else .closed).isActive ≠ true
        split <;> decide)

end Calm

/-- Why a call on a scan that is opened or gives a row may fail: the phase refuses it, the context
was cancelled, or the probe makes it fail. -/
def Excused (asked : Call) (call : LeafCall) (interrupt : Interrupt) : Prop :=
  (∃ phase, interrupt = .failed (.lifecycle asked phase)) ∨ interrupt = .failed .cancelled ∨
    interrupt = .failed (.storage (.injected call.name))

/-- An opening takes the rows that the table has. -/
theorem open_pass_ends {table : StoredTable}
    (found : engine.store.tables.get? name = some table) :
    EndsIn (scan, engine) (probed (protocol context (loadTable name))).openPass
      (fun _ after => after.1 = { scan with pending := table.rows, phase := .opening } ∧
        Untouched engine after.2)
      fun interrupt after => Excused .openPass .openPass interrupt ∧
        Calm scan engine after := by
  refine instead_of_agrees engine.faults_within_any ?_
    fun _ => ⟨.inr (.inr rfl), fun active => ⟨active, rfl⟩, rfl, rfl⟩
  refine agree_reaching (scan, engine.noted .openPass) (CursorAction.agree_state
    (Call.agree_check (fun _ => rfl)
      fun _ => ⟨.inl ⟨_, rfl⟩, fun active => ⟨active, rfl⟩, rfl, rfl⟩)) fun _ => ?_
  refine agree_then (fun _ after => scan = after.1 ∧ after.2.store = engine.store ∧
    after.2.nextId = engine.nextId) (CursorAction.agree_tap context _ ⟨rfl, rfl, rfl⟩) ?_
  rintro _ ⟨_, reached⟩ ⟨rfl, same, issued⟩
  refine agree_then (fun rows after => rows = table.rows ∧ after = (scan, reached)) ?_ ?_
  · refine CursorAction.agree_in_engine (agree_bind (agree_weaken
      (Engine.stored_table_agrees name reached) (fun _ _ => id) ?_) ?_)
    · rintro _ _ ⟨missing, -⟩
      rw [same] at missing
      exact absurd (found.symm.trans missing) (Option.some_ne_none table)
    · rintro another _ ⟨present, rfl⟩
      rw [same] at present
      cases found.symm.trans present
      exact agree_pure _ ⟨rfl, rfl⟩
  · rintro _ _ ⟨rfl, rfl⟩
    exact CursorAction.agree_change _ ⟨rfl, congrArg Store.tables same, issued⟩

theorem check_cancelled_ends (context : Context) (journal : Journal) :
    EndsIn journal context.checkCancelled (fun _ after => after = journal)
      fun interrupt after => interrupt = .failed .cancelled ∧ after = journal := by
  refine agree_then (fun read after => read = journal ∧ after = journal) ⟨rfl, rfl, rfl⟩ ?_
  rintro _ _ ⟨rfl, rfl⟩
  split
  · exact agree_fail _ ⟨rfl, rfl⟩
  · exact agree_pure () rfl

/-- A row is the next of those that are pending, and a pass without them ends. -/
theorem next_ends :
    EndsIn (scan, engine) (probed (protocol context (loadTable name))).next
      (fun row? after => scan.phase.isActive = true ∧ row? = scan.pending.head? ∧
        (after.1.phase.isActive = true → row?.isSome = true ∧ after.1.pending = scan.pending.tail) ∧
          Untouched engine after.2)
      fun interrupt after => Excused .next .next interrupt ∧ Calm scan engine after := by
  refine instead_of_agrees engine.faults_within_any ?_
    fun _ => ⟨.inr (.inr rfl), fun active => ⟨active, rfl⟩, rfl, rfl⟩
  refine agree_then (fun _ after => scan.phase.isActive = true ∧ after = (scan, engine.noted .next))
    (CursorAction.agree_state (Call.agree_check (fun active => ⟨active, rfl⟩) fun _ =>
      ⟨.inl ⟨_, rfl⟩, fun active => ⟨active, rfl⟩, rfl, rfl⟩)) ?_
  rintro _ _ ⟨active, rfl⟩
  refine agree_then (fun _ after => scan = after.1 ∧ Untouched engine after.2) ?_ ?_
  · refine agree_on_failure (CursorAction.agree_in_journal
      (agree_weaken (check_cancelled_ends context _) ?_ ?_))
    · rintro _ _ rfl
      exact ⟨rfl, rfl, rfl⟩
    · rintro _ _ ⟨rfl, rfl⟩
      exact CursorAction.agree_change abandon
        ⟨.inr (.inl rfl), fun running => Bool.noConfusion running, rfl, rfl⟩
  rintro _ ⟨_, reached⟩ ⟨rfl, untouched⟩
  refine agree_then (fun _ after => scan = after.1 ∧ Untouched engine after.2)
    (CursorAction.agree_tap context _ ⟨rfl, untouched⟩) ?_
  rintro _ ⟨_, tapped⟩ ⟨rfl, untouched⟩
  apply CursorAction.agree_state
  dsimp only
  cases pending : scan.pending with
  | nil =>
      refine agree_then (fun _ after => after.1.phase = .closed ∧ Untouched engine after.2)
        (CursorAction.agree_change _ ⟨rfl, untouched⟩) fun _ after ends => agree_pure none ?_
      refine ⟨active, rfl, fun running => ?_, ends.2⟩
      rw [ends.1] at running
      cases running
  | cons row rest =>
      refine agree_then (fun _ after => after.1.pending = rest ∧ Untouched engine after.2)
        (CursorAction.agree_change _ ⟨rfl, untouched⟩) fun _ after ends =>
          agree_pure (some row) ⟨active, rfl, fun _ => ⟨rfl, ends.1⟩, ends.2⟩

end Scan

namespace Pass

variable {name : String} {declared : RowType} {engine : Engine} {table : StoredTable} {pass : Pass}

theorem begun_of_found (found : engine.store.tables.get? name = some table) :
    begun name engine = some
      { snapshot := table.rows, values := table.rows.map fun row => row.valuesIn engine.journal } :=
  congrArg (Option.map _) found

/-- The rows of a table that was written have its type and values of their own. -/
theorem begun_sound (written : engine.Written)
    (found : engine.store.tables.get? name = some table) (same : table.type.same declared = true)
    (begins : begun name engine = some pass) : pass.Sound declared := by
  have stored := written.kept.typed name table found
  have lasting : ∀ row ∈ table.rows, ∃ values, ∀ journal, row.valuesIn journal = .ok values := by
    intro row member
    obtain ⟨id, values, rfl, width⟩ := stored row member
    exact ⟨values, Row.stored_values_in id width⟩
  cases (begun_of_found found).symm.trans begins
  refine ⟨List.nil_prefix, ?_, ?_, ?_⟩
  · intro row member
    obtain ⟨id, values, rfl, -⟩ := stored row member
    exact same
  · intro outcome member
    obtain ⟨row, among, rfl⟩ := List.mem_map.mp member
    obtain ⟨values, read⟩ := lasting row among
    exact ⟨values, read engine.journal⟩
  · intro journal
    refine List.map_congr_left fun row among => ?_
    obtain ⟨values, read⟩ := lasting row among
    rw [read, read]

/-- Handing out a row of the snapshot that is still to come keeps the order. -/
theorem Sound.take {row : Row} {rest : List Row} (sound : pass.Sound declared)
    (next : pass.snapshot = pass.yielded ++ row :: rest) :
    Sound declared { pass with yielded := pass.yielded ++ [row] } where
  inOrder := ⟨rest, by rw [next, List.append_assoc, List.singleton_append]⟩
  typed := sound.typed
  readable := sound.readable
  lasting := sound.lasting

end Pass

namespace Plan

variable {context : Context} {name : String} {declared : RowType}

/-- What every history keeps: while the scan is in a pass, what is pending is the part of the
snapshot that was not handed out. -/
structure Passing (name : String) (declared : RowType) (scan : Scan) (engine : Engine)
    (pass? : Option Pass) : Prop where
  written : engine.Written
  present : ∃ table, engine.store.tables.get? name = some table ∧ table.type.same declared = true
  pending : scan.phase.isActive = true →
    ∃ pass, pass? = some pass ∧ pass.snapshot = pass.yielded ++ scan.pending
  sound : ∀ pass, pass? = some pass → pass.Sound declared

variable {scan : Scan} {engine : Engine} {pass? : Option Pass}

theorem Passing.untouched (passing : Passing name declared scan engine pass?) {later : Engine}
    (untouched : Scan.Untouched engine later) : Passing name declared scan later pass? where
  written := passing.written.meanwhile untouched.1 (Nat.le_of_eq untouched.2.symm)
  present := by
    rw [untouched.1]
    exact passing.present
  pending := passing.pending
  sound := passing.sound

theorem Passing.calm (passing : Passing name declared scan engine pass?) {after : Scan × Engine}
    (calm : scan.Calm engine after) : Passing name declared after.1 after.2 pass? :=
  { passing.untouched calm.2 with
    pending := fun active => by
      obtain ⟨before, same⟩ := calm.1 active
      rw [same]
      exact passing.pending before }

theorem Passing.write (passing : Passing name declared scan engine pass?) (call : WriteCall) :
    Passing name declared scan (call.perform.run engine).2 pass? where
  written := passing.written.write call
  present := by
    obtain ⟨table, found, same⟩ := passing.present
    obtain ⟨later, kept, type⟩ := call.keeps_table found
    exact ⟨later, kept, type ▸ same⟩
  pending := passing.pending
  sound := passing.sound

/-- An opening begins a pass over the table as it is. -/
theorem Passing.open_pass (passing : Passing name declared scan engine pass?) :
    EndsIn (scan, engine) (Scan.probed (Scan.protocol context (Scan.loadTable name))).openPass
      (fun _ after => Passing name declared after.1 after.2 (Pass.begun name engine))
      fun interrupt after => Scan.Excused .openPass .openPass interrupt ∧
        Passing name declared after.1 after.2 pass? := by
  obtain ⟨table, found, same⟩ := passing.present
  refine agree_weaken (Scan.open_pass_ends found) ?_
    fun _ after ends => ⟨ends.1, passing.calm ends.2⟩
  rintro _ ⟨_, after⟩ ⟨rfl, untouched⟩
  refine { passing.untouched untouched with
    pending := fun _ => ⟨_, Pass.begun_of_found found, rfl⟩
    sound := fun pass begins => Pass.begun_sound passing.written found same begins }

/-- A row is handed out in its place, and the pass ends when all were handed out. -/
theorem Passing.next (passing : Passing name declared scan engine pass?) :
    EndsIn (scan, engine) (Scan.probed (Scan.protocol context (Scan.loadTable name))).next
      (fun row? after => ∃ pass, pass? = some pass ∧
        match row? with
        | some row => pass.yielded ++ [row] <+: pass.snapshot ∧
            Passing name declared after.1 after.2
              (some { pass with yielded := pass.yielded ++ [row] })
        | none => pass.yielded = pass.snapshot ∧ Passing name declared after.1 after.2 pass?)
      fun interrupt after => Scan.Excused .next .next interrupt ∧
        Passing name declared after.1 after.2 pass? := by
  refine agree_weaken Scan.next_ends ?_ fun _ after ends => ⟨ends.1, passing.calm ends.2⟩
  rintro row? after ⟨active, head, further, untouched⟩
  obtain ⟨pass, rfl, whole⟩ := passing.pending active
  refine ⟨pass, rfl, ?_⟩
  cases pending : scan.pending with
  | nil =>
      rw [pending] at head whole
      subst head
      refine ⟨by rw [whole, List.append_nil], ?_⟩
      exact { passing.untouched untouched with
        pending := fun running => absurd (further running).1 Bool.false_ne_true }
  | cons row rest =>
      rw [pending] at head whole further
      subst head
      refine ⟨⟨rest, by rw [whole, List.append_assoc, List.singleton_append]⟩, ?_⟩
      refine { passing.untouched untouched with
        pending := fun running => ⟨_, rfl, ?_⟩
        sound := ?_ }
      · rw [(further running).2, whole, List.append_assoc, List.singleton_append, List.tail_cons]
      · rintro _ ⟨⟩
        exact (passing.sound pass rfl).take whole

variable (context) in
/-- One call of any sort. -/
theorem Passing.call (passing : Passing name declared scan engine pass?) (call : CursorCall) :
    EndsIn (scan, engine)
      ((Scan.probed (Scan.protocol context (Scan.loadTable name))).perform call)
      (fun answer after =>
        Passing name declared after.1 after.2 (Pass.after name engine pass? call (.ok answer)))
      fun interrupt after =>
        Passing name declared after.1 after.2 (Pass.after name engine pass? call (.error interrupt))
    := by
  cases call with
  | openPass =>
      refine agree_bind (agree_weaken passing.open_pass (fun _ _ => id) fun _ _ => And.right) ?_
      exact fun _ _ begun => agree_pure _ begun
  | next =>
      refine agree_bind (agree_weaken passing.next (fun _ _ => id) fun _ _ => And.right) ?_
      rintro (_ | row) after ⟨pass, rfl, -, kept⟩
      · exact agree_pure _ kept
      · exact agree_pure _ kept
  | _ =>
      refine agree_weaken
        (Scan.keeps_calm_call _ (by simp) (by simp) _ (Scan.calm_refl scan engine)) ?_ ?_
      · exact fun _ _ calm => passing.calm calm
      · exact fun _ _ calm => passing.calm calm

theorem Watched.passing {cursor : (Plan.table name declared).Cursor}
    (watched : Watched context name declared cursor engine pass?) :
    Passing name declared cursor engine pass? := by
  induction watched with
  | @start engine source cursor written started =>
      obtain ⟨checked, rfl⟩ := Plan.table_started started
      refine ⟨written, Store.declared_of_checked checked, ?_, ?_⟩
      · exact fun active => Bool.noConfusion active
      · intro _ missing
        cases missing
  | write earlier call passing => exact passing.write call
  | meanwhile earlier untouched grown passing =>
      exact ⟨passing.written.meanwhile untouched grown, untouched ▸ passing.present,
        passing.pending, passing.sound⟩
  | @call cursor cursor' engine engine' pass? earlier call outcome ended passing =>
      have kept := ends_of_agree (fun outcome (after : Scan × Engine) =>
        Passing name declared after.1 after.2 (Pass.after name engine pass? call outcome))
        (passing.call context call)
      change ((Scan.probed (Scan.protocol context (Scan.loadTable name))).perform call).run
        (cursor, engine) = _ at ended
      rw [ended] at kept
      exact kept

/-- Whatever calls and writes there were: the rows handed out since a scan was opened are the first
ones that the table had then, in their order, and all of those are of the declared type and keep the
values that they had. The next row continues them, and the end comes when all were given. An opening
finds the table as it is. Neither fails unless the phase refuses it, the context is cancelled or the
probe makes it fail. -/
theorem Watched.rows_of_snapshot {cursor : (Plan.table name declared).Cursor}
    (watched : Watched context name declared cursor engine pass?) :
    (∀ pass, pass? = some pass → pass.Sound declared) ∧
    (match (((Plan.table name declared).protocol context).openPass.run (cursor, engine)).1 with
      | .ok () => ∃ table, engine.store.tables.get? name = some table ∧
          Pass.begun name engine = some
            { snapshot := table.rows
              values := table.rows.map fun row => row.valuesIn engine.journal }
      | .error interrupt => Scan.Excused .openPass .openPass interrupt) ∧
    match (((Plan.table name declared).protocol context).next.run (cursor, engine)).1 with
      | .ok (some row) => ∃ pass, pass? = some pass ∧ pass.yielded ++ [row] <+: pass.snapshot
      | .ok none => ∃ pass, pass? = some pass ∧ pass.yielded = pass.snapshot
      | .error interrupt => Scan.Excused .next .next interrupt := by
  have passing := watched.passing
  obtain ⟨table, found, -⟩ := passing.present
  refine ⟨passing.sound, ?_, ?_⟩
  · refine ends_of_agree (fun outcome _ =>
      match outcome with
      | .ok () => ∃ table, engine.store.tables.get? name = some table ∧
          Pass.begun name engine = some
            { snapshot := table.rows
              values := table.rows.map fun row => row.valuesIn engine.journal }
      | .error interrupt => Scan.Excused .openPass .openPass interrupt)
      (agree_weaken passing.open_pass ?_ fun _ _ => And.left)
    exact fun _ _ _ => ⟨table, found, Pass.begun_of_found found⟩
  · refine ends_of_agree (fun outcome _ =>
      match outcome with
      | .ok (some row) => ∃ pass, pass? = some pass ∧ pass.yielded ++ [row] <+: pass.snapshot
      | .ok none => ∃ pass, pass? = some pass ∧ pass.yielded = pass.snapshot
      | .error interrupt => Scan.Excused .next .next interrupt)
      (agree_weaken passing.next ?_ fun _ _ => And.left)
    rintro (_ | row) _ ⟨pass, known, given, -⟩
    · exact ⟨pass, known, given⟩
    · exact ⟨pass, known, given⟩

end Plan

/-! A table of two rows is scanned while the first row is replaced, the second deleted and a third
inserted: the pass gives the two rows that there were, and the next pass the two that there are. -/

namespace Overwritten

def flags : RowType := ⟨1, [⟨.boolean, true⟩]⟩

def leaf : Plan := .table "flags" flags

def context : Context := ⟨0, .standard, {}⟩

def yes : Row := .stored 1 flags [.boolean true]

def no : Row := .stored 2 flags [.boolean false]

/-- The table as it is scanned. -/
def first : List WriteCall :=
  [.create "flags" flags, .insert "flags" (.stored 0 flags [.boolean true]),
    .insert "flags" (.stored 0 flags [.boolean false])]

/-- What is written after one row was handed out. -/
def second : List WriteCall :=
  [.update "flags" yes no, .delete "flags" no, .insert "flags" (.stored 0 flags [.null])]

def written (calls : List WriteCall) (engine : Engine) : Engine :=
  calls.foldl (fun engine call => (call.perform.run engine).2) engine

/-- The tree and the engine after a call. -/
def called (call : CursorCall) (pair : leaf.Cursor × Engine) : leaf.Cursor × Engine :=
  (((leaf.protocol context).perform call).run pair).2

def begun : leaf.Cursor × Engine :=
  (({ source := .ofOne .empty } : Scan), written first {})

def halfway : leaf.Cursor × Engine :=
  called .next (called .openPass begun)

def given : leaf.Cursor × Engine :=
  called .next (halfway.1, written second halfway.2)

def pass : Pass :=
  { snapshot := [yes, no], values := [.ok [.boolean true], .ok [.boolean false]]
    yielded := [yes, no] }

theorem watched_written (calls : List WriteCall) {cursor : leaf.Cursor} {engine : Engine}
    {pass? : Option Pass} (watched : Plan.Watched context "flags" flags cursor engine pass?) :
    Plan.Watched context "flags" flags cursor (written calls engine) pass? := by
  induction calls generalizing engine with
  | nil => exact watched
  | cons call rest induction => exact induction (watched.write call)

theorem watched_called (call : CursorCall) (pair : leaf.Cursor × Engine) {pass? : Option Pass}
    (watched : Plan.Watched context "flags" flags pair.1 pair.2 pass?) :
    Plan.Watched context "flags" flags (called call pair).1 (called call pair).2
      (Pass.after "flags" pair.2 pass? call (((leaf.protocol context).perform call).run pair).1) :=
  watched.call call rfl

theorem watched_given : Plan.Watched context "flags" flags given.1 given.2 (some pass) := by
  have fresh : (written first {}).Written := Copies.written_after first (.start rfl)
  have watched : Plan.Watched context "flags" flags begun.1 begun.2 none :=
    .start fresh rfl
  have passed := watched_called .next _ (watched_called .openPass _ watched)
  exact watched_called .next (halfway.1, written second halfway.2) (watched_written second passed)

/-- Both rows of the old table were given, and the pass ends there; the next pass finds the new
table. -/
theorem old_rows_given :
    Plan.Watched context "flags" flags given.1 given.2 (some pass) ∧ pass.Sound flags ∧
      ((leaf.protocol context).next.run given).1 = .ok none ∧ pass.yielded = pass.snapshot ∧
        Pass.begun "flags" (called .next given).2 = some
          { snapshot := [.stored 3 flags [.boolean false], .stored 4 flags [.null]]
            values := [.ok [.boolean false], .ok [.null]] } := by
  obtain ⟨sound, -, ended⟩ := watched_given.rows_of_snapshot
  refine ⟨watched_given, sound pass rfl, rfl, ?_, rfl⟩
  obtain ⟨_, same, whole⟩ :
    ∃ other, some pass = some other ∧ other.yielded = other.snapshot := ended
  cases same
  exact whole

end Overwritten

end QueryExec
