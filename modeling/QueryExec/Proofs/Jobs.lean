import QueryExec.Execution
import QueryExec.Proofs.Action.Series
import QueryExec.Proofs.Cursor.Destruction
import QueryExec.Proofs.Holders
import QueryExec.Proofs.Idle
import QueryExec.Proofs.Replacement
import QueryExec.Proofs.Writes
import QueryExec.Update

/-!
Jobs: the ways to run a plan to the end. Between the making of its cursor and its destruction a job
does nothing but calls on the cursor and work on the rows that it was given. Every such deed leaves
the tree in good order, and the store with new rows in the place of those that the deed replaced.
-/

namespace QueryExec

open QueryExec.Action

namespace Table

variable {key value : Type} [DecidableEq key]

theorem lookup_splits {wanted : key} {old : value} {entries : List (key × value)}
    (found : lookup wanted entries = some old) : ∃ front back,
      entries = front ++ (wanted, old) :: back ∧
      ∀ new, place wanted new entries = front ++ (wanted, new) :: back := by
  induction entries with
  | nil => cases found
  | cons first rest induction =>
      obtain ⟨name, item⟩ := first
      unfold lookup at found
      split at found
      next same =>
        cases found
        subst same
        exact ⟨[], rest, rfl, fun _ => if_pos rfl⟩
      next different =>
        obtain ⟨front, back, around, placed⟩ := induction found
        refine ⟨(name, item) :: front, back, congrArg _ around, fun new => ?_⟩
        unfold place
        rw [if_neg different, placed new]
        rfl

end Table

/-- Where a table is set for one that differs in one row, so do the stored rows. -/
theorem Store.rows_replaced {before after : Store} {name : String} {table other : StoredTable}
    {front back : List Row} {old new : Row} (found : before.tables.get? name = some table)
    (around : table.rows = front ++ old :: back) (replaced : other.rows = front ++ new :: back)
    (sets : after.tables = before.tables.set name other) : ∃ ahead behind,
      before.rows = ahead ++ old :: behind ∧ after.rows = ahead ++ new :: behind := by
  obtain ⟨earlier, later, entries, placed⟩ := Table.lookup_splits found
  have made : after.tables.entries = earlier ++ (name, other) :: later := by
    rw [sets]
    exact placed other
  refine ⟨earlier.flatMap (fun entry => entry.2.rows) ++ front,
    back ++ later.flatMap (fun entry => entry.2.rows), ?_, ?_⟩
  · simp [Store.rows, Table.values, entries, around, List.flatMap_map]
  · simp [Store.rows, Table.values, made, replaced, List.flatMap_map]

namespace Engine

/-- Some rows were replaced by new ones, each as often as it is listed, and the identities of the
new ones are not among those given out before `unused`. -/
structure Succeeds (unused : Nat) (replaced : List Row) (before after : Engine) : Prop where
  grown : unused ≤ after.nextId
  counts : ∀ row : Row, row.id < unused → before.store.rows.countP row.same =
    after.store.rows.countP row.same + replaced.countP row.same
  made : ∀ row ∈ after.store.rows,
    row ∈ before.store.rows ∨ row.isStored = true ∧ unused ≤ row.id

variable {unused : Nat} {replaced others : List Row} {before middle after engine : Engine}

/-- The tables are as they were. -/
theorem succeeds_of_tables (same : after.store.tables = before.store.tables)
    (grown : unused ≤ after.nextId) : Succeeds unused [] before after := by
  have rows : after.store.rows = before.store.rows := by
    unfold Store.rows
    rw [same]
  refine ⟨grown, fun row _ => ?_, fun row among => .inl ?_⟩
  · rw [rows]
    rfl
  · rwa [← rows]

theorem Succeeds.trans (first : Succeeds unused replaced before middle)
    (second : Succeeds unused others middle after) :
    Succeeds unused (replaced ++ others) before after where
  grown := second.grown
  counts := fun row old => by
    rw [first.counts row old, second.counts row old, List.countP_append]
    omega
  made := fun row among => by
    rcases second.made row among with earlier | new
    · exact first.made row earlier
    · exact .inr new

/-- A stored row was replaced in its place by a new one. -/
theorem succeeds_of_replacement {name : String} {table : StoredTable} {front back : List Row}
    {old target new : Row} (found : before.store.tables.get? name = some table)
    (around : table.rows = front ++ target :: back) (same : old.same target = true)
    (stored : new.isStored = true) (fresh : unused ≤ new.id) (grown : unused ≤ after.nextId)
    (replaces : after.store.tables =
      before.store.tables.set name { table with rows := front ++ new :: back }) :
    Succeeds unused [old] before after where
  grown := grown
  counts := by
    intro row given
    have alike : row.same target = row.same old := by
      unfold Row.same at same ⊢
      rw [eq_of_beq same]
    have unlike : row.same new = false := by
      unfold Row.same
      exact beq_eq_false_iff_ne.mpr (by omega)
    obtain ⟨ahead, behind, rows, remade⟩ := Store.rows_replaced found around rfl replaces
    rw [rows, remade, List.countP_append, List.countP_append, List.countP_cons, List.countP_cons,
      List.countP_singleton, alike, unlike]
    simp only [Bool.false_eq_true, if_false]
    omega
  made := by
    intro row member
    obtain ⟨ahead, behind, rows, remade⟩ := Store.rows_replaced found around rfl replaces
    rw [rows]
    rw [remade] at member
    rcases List.mem_append.mp member with earlier | own
    · exact .inl (List.mem_append_left _ earlier)
    rcases List.mem_cons.mp own with rfl | later
    · exact .inr ⟨stored, fresh⟩
    · exact .inl (List.mem_append_right _ (List.mem_cons_of_mem _ later))

/-- The tables are still such, and the identities below `unused` are given out. -/
def Untouched (tables : Table String StoredTable) (unused : Nat) (engine : Engine) : Prop :=
  engine.store.tables = tables ∧ unused ≤ engine.nextId

theorem keeps_in_journal {result : Type} {tables : Table String StoredTable}
    (action : Action Journal result) : Keeps (Untouched tables unused) (inJournal action) :=
  keeps_of_reaches fun _ kept => kept

/-- Replacing a row of a table writes a new row in its place; a failure writes nothing. -/
theorem update_row_succeeds (name : String) (old new : Row) (grown : unused ≤ engine.nextId) :
    EndsIn engine (updateRow name old new) (fun _ after => Succeeds unused [old] engine after)
      fun _ after => Succeeds unused [] engine after := by
  refine agree_bind (agree_weaken (stored_table_agrees name engine) (fun _ _ => id) ?_) ?_
  · rintro _ _ ⟨_, rfl⟩
    exact succeeds_of_tables rfl grown
  rintro table _ ⟨found, rfl⟩
  refine agree_bind (agree_weaken (WriteCall.position_ends name table old engine)
    (fun _ _ => id) ?_) ?_
  · rintro _ _ ⟨_, journal, rfl⟩
    exact succeeds_of_tables rfl grown
  rintro position _ ⟨placed, rfl⟩
  refine agree_bind (agree_weaken (WriteCall.materialise_ends table new engine)
    (fun _ _ => id) ?_) ?_
  · rintro _ _ ⟨_, journal, rfl⟩
    exact succeeds_of_tables rfl grown
  rintro _ _ ⟨values, journal, _, _, rfl, rfl⟩
  obtain ⟨front, target, back, around, same, rfl⟩ := StoredTable.addressed placed
  rw [StoredTable.replace_between around]
  have fresh : unused ≤ (Row.stored engine.nextId table.type values).id := grown
  exact ⟨rfl, succeeds_of_replacement found around same rfl fresh (Nat.le_succ_of_le grown) rfl⟩

end Engine

/-- An update replaces the row that it is given or leaves the tables as they were. -/
theorem Update.apply_succeeds {unused : Nat} {engine : Engine} (update : Update) (context : Context)
    (bindings : Bindings) (row : Row) (grown : unused ≤ engine.nextId) :
    EndsIn engine (update.apply context bindings row)
      (fun replaced after =>
        Engine.Succeeds unused (if replaced then [row] else []) engine after)
      fun _ after => Engine.Succeeds unused [] engine after := by
  have settled : ∀ {later : Engine}, later.Untouched engine.store.tables unused →
      Engine.Succeeds unused [] engine later :=
    fun untouched => Engine.succeeds_of_tables untouched.1 untouched.2
  have started : engine.Untouched engine.store.tables unused := ⟨rfl, grown⟩
  refine agree_bind (agree_weaken (Engine.keeps_in_journal _ engine started) (fun _ _ => id)
    fun _ _ => settled) ?_
  intro chosen judged untouched
  split
  · refine agree_bind (agree_weaken (Engine.keeps_in_journal _ judged untouched) (fun _ _ => id)
      fun _ _ => settled) ?_
    intro values computed untouched
    refine agree_then (fun _ after => after.Untouched engine.store.tables unused) ?_ ?_
    · exact ⟨rfl, untouched.1, Nat.le_succ_of_le untouched.2⟩
    intro replacement made untouched
    refine agree_bind (agree_weaken (Engine.lock_row_agrees made.faults_within_any)
      (fun _ _ => id) ?_) ?_
    · rintro _ _ ⟨rfl, _⟩
      exact settled untouched
    rintro _ locked same
    have untouched : locked.Untouched engine.store.tables unused := by
      rw [same]
      exact untouched
    refine agree_bind (agree_weaken (Engine.update_row_succeeds update.table row replacement
      untouched.2) (fun _ _ => id) ?_) ?_
    · exact fun _ _ succeeds => (settled untouched).trans succeeds
    · exact fun _ _ succeeds => agree_pure true ((settled untouched).trans succeeds)
  · exact agree_pure false (settled untouched)

theorem CursorAction.in_engine_run {cursor result : Type} (action : Action Engine result)
    (start : cursor × Engine) : (inEngine action).run start =
      ((action.run start.2).1, start.1, (action.run start.2).2) :=
  rfl

theorem CursorAction.in_engine_answer {cursor other result : Type} (action : Action Engine other)
    (answer : other → result) :
    (inEngine (action >>= fun value => pure (answer value)) : CursorAction cursor result) =
      inEngine action >>= fun value => pure (answer value) := by
  refine ExceptT.ext (funext fun start => ?_)
  rw [run_bind, in_engine_run, in_engine_run, run_bind]
  rcases action.run start.2 with ⟨_ | _, _⟩ <;> rfl

/-- The ways to run a plan to the end: under one binding, under each of several, or for an update
of a table. -/
inductive Job
  | execute (plan : Plan) (bindings : Bindings)
  | executeEach (plan : Plan) (bindings : List Bindings)
  | updateTable (update : Update) (bindings : Bindings)

/-- What a job does with its cursor before it destroys it. -/
inductive Deed
  | openBindings
  | nextBindings
  | openPass
  | next
  | closeBindings
  | work (bindings : Bindings) (row : Row)

namespace Job

def plan : Job → Plan
  | execute plan _ => plan
  | executeEach plan _ => plan
  | updateTable update _ => update.input

def source : Job → BindingSource
  | execute _ bindings => .ofOne bindings
  | executeEach _ bindings => .ofList bindings
  | updateTable _ bindings => .ofOne bindings

def Answer : Job → Type
  | execute _ _ => List (List Datum)
  | executeEach _ _ => List (List (List Datum))
  | updateTable _ _ => UpdateCount

def run (context : Context) : (job : Job) → Action Engine job.Answer
  | execute plan bindings => plan.execute context bindings
  | executeEach plan bindings => plan.executeEach context bindings
  | updateTable update bindings => update.run context bindings

/-- What is done with a row: it is read, or an update is applied to it. The answer is whether it was
replaced. -/
def work (context : Context) (bindings : Bindings) (row : Row) : Job → Action Engine Bool
  | execute _ _ | executeEach _ _ => do
      let _ ← Engine.inJournal row.readAll
      pure false
  | updateTable update _ => update.apply context bindings row

/-- Does a deed with the cursor of a tree, and yields the row that it replaced in the store. -/
def perform (job : Job) (context : Context) (tree : Protocol job.plan.Cursor) :
    Deed → CursorAction job.plan.Cursor (List Row)
  | .openBindings => do
      tree.openBindings
      pure []
  | .nextBindings => do
      let _ ← tree.nextBindings
      pure []
  | .openPass => do
      tree.openPass
      pure []
  | .next => do
      let _ ← tree.next
      pure []
  | .closeBindings => do
      tree.closeBindings
      pure []
  | .work bindings row => do
      let replaced ← CursorAction.inEngine (job.work context bindings row)
      pure (if replaced then [row] else [])

variable {job : Job} {context : Context} {tree : Protocol job.plan.Cursor} {result : Type}

/-- No deed destroys the cursor. -/
theorem perform_destroying (destroy : CursorAction job.plan.Cursor Unit) :
    job.perform context (tree.destroying destroy) = job.perform context tree := by
  funext deed
  cases deed <;> rfl

theorem does_state : Does (job.perform context tree) CursorAction.state :=
  does_nothing fun start => ⟨start.1, rfl⟩

/-- Passes that are made of deeds make runs of deeds. -/
theorem does_run_passes {pass : Bindings → CursorAction job.plan.Cursor result}
    (passes : ∀ bindings, Does (job.perform context tree) (pass bindings)) :
    Does (job.perform context tree) (tree.runPasses pass) := by
  have each : ∀ bound, Does (job.perform context tree) (tree.passesWithin pass bound) := by
    intro bound
    induction bound with
    | zero => exact does_pure []
    | succ bound induction =>
        apply does_bind (does_deed .nextBindings (fun _ => []) rfl)
        intro bindings?
        cases bindings? with
        | none => exact does_pure []
        | some bindings =>
            apply does_bind (does_deed .openPass (fun _ => []) rfl)
            intro _
            apply does_bind (passes bindings)
            intro _
            exact does_bind induction fun _ => does_pure _
  apply does_bind (does_deed .openBindings (fun _ => []) rfl)
  intro _
  apply does_bind does_state
  intro _
  apply does_bind (each _)
  intro _
  exact does_bind (does_deed .closeBindings (fun _ => []) rfl) fun _ => does_pure _

/-- Draining is made of deeds where the work on a row is to read it. -/
theorem does_drain (reads : ∀ bindings row, job.work context bindings row = do
      let _ ← Engine.inJournal row.readAll
      pure false) :
    Does (job.perform context tree) tree.drain := by
  have each : ∀ bound, Does (job.perform context tree) (tree.drainWithin bound) := by
    intro bound
    induction bound with
    | zero => exact does_pure []
    | succ bound induction =>
        apply does_bind (does_deed .next (fun _ => []) rfl)
        intro row?
        cases row? with
        | none => exact does_pure []
        | some row =>
            apply does_bind (does_deed (.work .empty row) (fun _ => []) ?_)
            · intro _
              exact does_bind induction fun _ => does_pure _
            · change (CursorAction.inEngine (job.work context .empty row) >>= _) = _
              rw [reads, CursorAction.in_engine_answer, bind_assoc]
              simp only [pure_bind]
              rfl
  exact does_bind does_state fun _ => each _

end Job

theorem Update.does_pass (update : Update) (context : Context) (own bindings : Bindings) :
    Does ((Job.updateTable update own).perform context (update.input.protocol context))
      (update.pass context bindings) := by
  have each : ∀ bound, Does
      ((Job.updateTable update own).perform context (update.input.protocol context))
      (update.passWithin context bindings bound) := by
    intro bound
    induction bound with
    | zero => exact does_pure _
    | succ bound induction =>
        apply does_bind (does_deed .next (fun _ => []) rfl)
        intro row?
        cases row? with
        | none => exact does_pure _
        | some row =>
            apply does_bind (does_deed (.work bindings row)
              (fun replaced => if replaced then [row] else []) rfl)
            intro _
            exact does_bind induction fun _ => does_pure _
  exact does_bind Job.does_state fun _ => each _

namespace Plan

variable {context : Context} {plan : Plan} {result : Type}

/-- A tree in good order that is not destroyed. -/
def Upright (plan : Plan) (pair : plan.Cursor × Engine) : Prop :=
  Kept (fun _ => True) (plan.Coherent fun _ => True) pair ∧ plan.phase pair.1 ≠ .destroyed

/-- A call that leaves the tree upright where it is legal does so anyway, since it changes nothing
where it is not. -/
theorem keeps_upright {asked : Call} {action : CursorAction plan.Cursor result}
    (refused : RefusedAlike (fun _ => True) (plan.protocol context).phase
      (plan.Coherent fun _ => True) asked action action)
    (legal : ∀ pair, plan.Upright pair →
      asked.legalIn ((plan.protocol context).phase pair.1) = true →
      EndsIn pair action (fun _ after => plan.Upright after) fun _ after => plan.Upright after) :
    Keeps plan.Upright action := by
  intro pair upright
  cases allowed : asked.legalIn ((plan.protocol context).phase pair.1) with
  | true => exact legal pair upright allowed
  | false =>
      refine agree_weaken (refused pair.1 pair.2 upright.1.1 upright.1.2 allowed)
        (fun _ _ impossible => impossible.elim) ?_
      rintro _ ⟨_, engine⟩ ⟨rfl, faults, _⟩
      exact ⟨⟨upright.1.1, faults⟩, upright.2⟩

end Plan

theorem Job.deed_keeps_upright (job : Job) (context : Context) (deed : Deed) :
    Keeps job.plan.Upright (job.perform context (job.plan.protocol context) deed) := by
  have lawful : (job.plan.protocol context).Lawful (fun _ => True) (job.plan.Coherent fun _ => True)
      (job.plan.protocol context) := job.plan.protocol_lawful context
  have refuses := Plan.layered_refuses (@keep_laws_plain fun _ => True) context job.plan
  rw [Plan.layered_plain] at refuses
  have present : ∀ {pair}, job.plan.Upright pair →
      (job.plan.protocol context).phase pair.1 ≠ .destroyed := by
    rw [Plan.protocol_phase]
    exact fun upright => upright.2
  have upright : ∀ {pair}, Kept (fun _ => True) (job.plan.Coherent fun _ => True) pair →
      (job.plan.protocol context).phase pair.1 ≠ .destroyed → job.plan.Upright pair := by
    rw [Plan.protocol_phase]
    exact And.intro
  cases deed with
  | openBindings =>
      refine keeps_bind (Plan.keeps_upright refuses.openBindings fun pair held _ => ?_)
        fun _ => keeps_pure []
      refine agree_weaken (lawful.openBindings held.1.1 held.1.2 (present held)) ?_ ?_
      · rintro _ after ⟨kept, same⟩
        exact upright kept (by rw [same]; exact present held)
      · rintro _ after ⟨kept, same, _⟩
        exact upright kept (by rw [same]; exact present held)
  | nextBindings =>
      refine keeps_bind (Plan.keeps_upright refuses.nextBindings fun pair held legal => ?_)
        fun _ => keeps_pure []
      have closed : (job.plan.protocol context).phase pair.1 = .closed := by
        simpa [Call.legalIn] using legal
      refine agree_weaken (lawful.nextBindings held.1.1 held.1.2 closed) ?_ ?_
      · rintro _ after ⟨kept, closed⟩
        exact upright kept (by rw [closed]; decide)
      · rintro _ after ⟨kept, closed, _⟩
        exact upright kept (by rw [closed]; decide)
  | openPass =>
      refine keeps_bind (Plan.keeps_upright refuses.openPass fun pair held legal => ?_)
        fun _ => keeps_pure []
      have closed : (job.plan.protocol context).phase pair.1 = .closed := by
        simpa [Call.legalIn] using legal
      refine agree_weaken (lawful.openPass held.1.1 held.1.2 closed) ?_ ?_
      · rintro _ after ⟨kept, active⟩
        exact upright kept (Phase.present_of_active active)
      · rintro _ after ⟨kept, closed, _⟩
        exact upright kept (by rw [closed]; decide)
  | next =>
      refine keeps_bind (Plan.keeps_upright refuses.next fun pair held legal => ?_)
        fun _ => keeps_pure []
      refine agree_weaken (lawful.next held.1.1 held.1.2 legal) ?_ ?_
      · exact fun _ after ends => upright ends.1 ends.2
      · exact fun _ after ends => upright ends.1 ends.2.1
  | closeBindings =>
      refine keeps_bind (Plan.keeps_upright refuses.closeBindings fun pair held _ => ?_)
        fun _ => keeps_pure []
      refine agree_weaken (lawful.closeBindings held.1.1 held.1.2 (present held)) ?_ ?_
      · rintro _ after ⟨kept, same⟩
        exact upright kept (by rw [same]; exact present held)
      · rintro _ after ⟨kept, same, _⟩
        exact upright kept (by rw [same]; exact present held)
  | work bindings row =>
      refine keeps_bind ?_ fun _ => keeps_pure _
      rintro ⟨cursor, engine⟩ held
      have still : ∀ later, job.plan.Upright (cursor, later) := fun later =>
        ⟨⟨held.1.1, later.faults_within_any⟩, held.2⟩
      exact CursorAction.agree_in_engine (agree_weaken
        (agree_anyhow (job.work context bindings row) engine) (fun _ later _ => still later)
        fun _ later _ => still later)

namespace Job

variable {context : Context} {unused : Nat}

/-- Reading writes nothing. -/
theorem read_succeeds (row : Row) {engine : Engine} (grown : unused ≤ engine.nextId) :
    EndsIn engine (do
      let _ ← Engine.inJournal row.readAll
      pure false)
      (fun replaced after => Engine.Succeeds unused (if replaced then [row] else []) engine after)
      fun _ after => Engine.Succeeds unused [] engine after := by
  have untouched : engine.Untouched engine.store.tables unused := ⟨rfl, grown⟩
  refine agree_bind (agree_weaken (Engine.keeps_in_journal row.readAll engine untouched)
    (fun _ _ => id) ?_) ?_
  · exact fun _ _ kept => Engine.succeeds_of_tables kept.1 kept.2
  · exact fun _ _ kept => agree_pure false (Engine.succeeds_of_tables kept.1 kept.2)

theorem work_succeeds (job : Job) (bindings : Bindings) (row : Row) {engine : Engine}
    (grown : unused ≤ engine.nextId) :
    EndsIn engine (job.work context bindings row)
      (fun replaced after => Engine.Succeeds unused (if replaced then [row] else []) engine after)
      fun _ after => Engine.Succeeds unused [] engine after := by
  cases job with
  | updateTable update own => exact update.apply_succeeds context bindings row grown
  | execute plan own => exact read_succeeds row grown
  | executeEach plan own => exact read_succeeds row grown

/-- What a deed does to the store: only work on a row writes, and it replaces no other row. -/
theorem deed_succeeds (job : Job) (deed : Deed) {start : job.plan.Cursor × Engine}
    (grown : unused ≤ start.2.nextId) :
    EndsIn start (job.perform context (job.plan.protocol context) deed)
      (fun replaced after => Engine.Succeeds unused replaced start.2 after.2)
      fun _ after => Engine.Succeeds unused [] start.2 after.2 := by
  have spares : ∀ {result : Type} {action : CursorAction job.plan.Cursor result},
      Spares (Engine.Untouched start.2.store.tables unused) action →
      EndsIn start (action >>= fun _ => pure [])
        (fun replaced after => Engine.Succeeds unused replaced start.2 after.2)
        fun _ after => Engine.Succeeds unused [] start.2 after.2 := by
    intro result action spares
    refine agree_bind (agree_weaken (spares start ⟨rfl, grown⟩) (fun _ _ => id) ?_) ?_
    · exact fun _ _ kept => Engine.succeeds_of_tables kept.1 kept.2
    · exact fun _ _ kept => agree_pure [] (Engine.succeeds_of_tables kept.1 kept.2)
  have noted : ∀ call engine, Engine.Untouched start.2.store.tables unused engine →
      Engine.Untouched start.2.store.tables unused (engine.noted call) := fun _ _ => id
  have mirrored := job.plan.protocol_mirrored (Plan.fixed_shared noted (fun _ _ => id)
    fun _ kept => ⟨kept.1, Nat.le_succ_of_le kept.2⟩) context
  have supply := job.plan.bindings_spare _ noted context
  cases deed with
  | openBindings => exact spares supply.openBindings
  | nextBindings => exact spares supply.nextBindings
  | openPass => exact spares (Plan.spares_of_respects mirrored.openPass)
  | next => exact spares (Plan.spares_of_respects mirrored.next)
  | closeBindings => exact spares (Plan.spares_of_respects mirrored.closeBindings)
  | work bindings row =>
      obtain ⟨cursor, engine⟩ := start
      refine agree_then (fun replaced after =>
        Engine.Succeeds unused (if replaced then [row] else []) engine after.2)
        (CursorAction.agree_in_engine (job.work_succeeds bindings row grown)) ?_
      exact fun _ _ succeeds => agree_pure _ succeeds

end Job

end QueryExec
