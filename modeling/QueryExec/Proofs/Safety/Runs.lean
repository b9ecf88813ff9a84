import QueryExec.Proofs.Cursor.Dwindling
import QueryExec.Proofs.Idle
import QueryExec.Proofs.Recombination
import QueryExec.Proofs.Safety.Grouping

/-!
Runs of plans that were accepted. The checks of the constructors, references within the rows and
rows of the right shape leave nothing structural to go wrong: no run reads outside of a row, makes a
call in the wrong phase or complains about how its plan is put together. What can still fail a run
lies in the values, in the store or in a cancellation.
-/

namespace QueryExec

open QueryExec.Action

/-- The failure is about values, conversions, the store or a cancellation. -/
def QueryError.isAboutData : QueryError → Bool
  | lifecycle _ _ => false
  | configuration _ => false
  | cast _ => true
  | value _ _ => true
  | cancelled => true
  | storage _ => true

def Interrupt.isAboutData : Interrupt → Bool
  | .failed error => error.isAboutData
  | .indexOutOfRange => false

/-- What is orderly and refuses no call is about data. -/
theorem Interrupt.about_data {interrupt : Interrupt} (orderly : interrupt.isOrderly = true)
    (accepted : interrupt.isRefusal = false) : interrupt.isAboutData = true := by
  rcases interrupt with (lifecycle | configuration | cast | value | cancelled | storage) | panic
  · cases accepted
  · cases orderly
  · rfl
  · rfl
  · rfl
  · rfl
  · cases orderly

theorem Interrupt.fault_about_data {faulty : LeafCall → Prop} {calls : List LeafCall}
    {interrupt : Interrupt} (fault : interrupt.IsFaultOf faulty calls) :
    interrupt.isAboutData = true := by
  obtain ⟨call, _, _, rfl⟩ := fault
  rfl

section Cursors

variable {cursor result : Type} {protocol : Protocol cursor} {sound fits : cursor → Prop}
  {toCome : cursor → Nat} {dictionary : Dictionary} {names : List String}
  {bound : Bindings → Prop} {pair : cursor × Engine}

/-- A cursor that is sound, in order and not destroyed. -/
structure Protocol.Serving (protocol : Protocol cursor) (dictionary : Dictionary)
    (names : List String) (sound fits : cursor → Prop) (pair : cursor × Engine) : Prop where
  sound : sound pair.1
  present : protocol.phase pair.1 ≠ .destroyed
  ordered : Ordered dictionary names fits pair

/-- A serving cursor that stopped for a reason that is about data. -/
def Protocol.Faltering (protocol : Protocol cursor) (dictionary : Dictionary)
    (names : List String) (sound fits : cursor → Prop) (interrupt : Interrupt)
    (pair : cursor × Engine) : Prop :=
  protocol.Serving dictionary names sound fits pair ∧ interrupt.isAboutData = true

variable (lawful : protocol.Lawful (fun _ => True) sound protocol)
  (orderly : protocol.Orderly dictionary names bound fits)
  (serving : protocol.Serving dictionary names sound fits pair)

include lawful orderly serving

theorem open_pass_serves (closed : protocol.phase pair.1 = .closed) :
    EndsIn pair protocol.openPass
      (fun _ after => protocol.Serving dictionary names sound fits after ∧
        (protocol.phase after.1).isActive = true)
      (protocol.Faltering dictionary names sound fits) := by
  refine agree_weaken (agree_both (lawful.openPass serving.sound pair.2.faults_within_any closed)
    (orderly.openPass pair serving.ordered)) ?_ ?_
  · rintro _ after ⟨⟨kept, active⟩, ordered, _⟩
    exact ⟨⟨kept.1, Phase.present_of_active active, ordered⟩, active⟩
  · rintro _ after ⟨⟨kept, closed, accepted⟩, ordered, calm⟩
    exact ⟨⟨kept.1, by simp [closed], ordered⟩, Interrupt.about_data calm accepted⟩

theorem next_serves (active : (protocol.phase pair.1).isActive = true) :
    EndsIn pair protocol.next
      (fun row? after => protocol.Serving dictionary names sound fits after ∧
        ∀ row ∈ row?, row.Shaped dictionary)
      (protocol.Faltering dictionary names sound fits) := by
  refine agree_weaken (agree_both (lawful.next serving.sound pair.2.faults_within_any active)
    (orderly.next pair serving.ordered)) ?_ ?_
  · rintro _ after ⟨⟨kept, present⟩, ordered, shaped⟩
    exact ⟨⟨kept.1, present, ordered⟩, shaped⟩
  · rintro _ after ⟨⟨kept, present, accepted⟩, ordered, calm⟩
    exact ⟨⟨kept.1, present, ordered⟩, Interrupt.about_data calm accepted⟩

theorem open_bindings_serves (closed : protocol.phase pair.1 = .closed) :
    EndsIn pair protocol.openBindings
      (fun _ after => protocol.Serving dictionary names sound fits after ∧
        protocol.phase after.1 = .closed)
      (protocol.Faltering dictionary names sound fits) := by
  refine agree_weaken (agree_both
    (lawful.openBindings serving.sound pair.2.faults_within_any serving.present)
    (orderly.openBindings pair serving.ordered)) ?_ ?_
  · rintro _ after ⟨⟨kept, same⟩, ordered, _⟩
    exact ⟨⟨kept.1, by rw [same]; exact serving.present, ordered⟩, same.trans closed⟩
  · rintro _ after ⟨⟨kept, same, fault⟩, ordered, _⟩
    exact ⟨⟨kept.1, by rw [same]; exact serving.present, ordered⟩,
      Interrupt.fault_about_data fault⟩

theorem next_bindings_serves (closed : protocol.phase pair.1 = .closed) :
    EndsIn pair protocol.nextBindings
      (fun _ after => protocol.Serving dictionary names sound fits after ∧
        protocol.phase after.1 = .closed)
      (protocol.Faltering dictionary names sound fits) := by
  refine agree_weaken (agree_both
    (lawful.nextBindings serving.sound pair.2.faults_within_any closed)
    (orderly.nextBindings pair serving.ordered)) ?_ ?_
  · rintro _ after ⟨⟨kept, closed⟩, ordered, _⟩
    exact ⟨⟨kept.1, by simp [closed], ordered⟩, closed⟩
  · rintro _ after ⟨⟨kept, closed, fault⟩, ordered, _⟩
    exact ⟨⟨kept.1, by simp [closed], ordered⟩, Interrupt.fault_about_data fault⟩

theorem close_bindings_serves :
    EndsIn pair protocol.closeBindings
      (fun _ after => protocol.Serving dictionary names sound fits after)
      (protocol.Faltering dictionary names sound fits) := by
  refine agree_weaken (agree_both
    (lawful.closeBindings serving.sound pair.2.faults_within_any serving.present)
    (orderly.closeBindings pair serving.ordered)) ?_ ?_
  · rintro _ after ⟨⟨kept, same⟩, ordered, _⟩
    exact ⟨kept.1, by rw [same]; exact serving.present, ordered⟩
  · rintro _ after ⟨⟨kept, same, fault⟩, ordered, _⟩
    exact ⟨⟨kept.1, by rw [same]; exact serving.present, ordered⟩,
      Interrupt.fault_about_data fault⟩

omit orderly in
theorem destroy_serves :
    EndsIn pair protocol.destroy (fun _ _ => True) fun interrupt _ =>
      interrupt.isAboutData = true :=
  agree_weaken (lawful.destroy serving.sound pair.2.faults_within_any serving.present)
    (fun _ _ _ => trivial) fun _ _ ends => Interrupt.fault_about_data ends.2.2

omit lawful orderly in
/-- Reading all columns of a shaped row. -/
theorem read_all_serves {row : Row} (shaped : row.Shaped dictionary) :
    EndsIn pair (CursorAction.inJournal row.readAll)
      (fun _ after => protocol.Serving dictionary names sound fits after)
      (protocol.Faltering dictionary names sound fits) := by
  have reads := row.read_columns_orderly shaped (Nat.le_refl _)
  have unrefused := unrefused_map row.read_unrefused (List.range row.type.width)
  refine CursorAction.agree_in_journal (agree_weaken (agree_both (reads pair.2.journal trivial)
    (unrefused pair.2.journal)) ?_ ?_)
  · exact fun _ _ _ => ⟨serving.sound, serving.present, serving.ordered⟩
  · exact fun _ _ ends => ⟨⟨serving.sound, serving.present, serving.ordered⟩,
      Interrupt.about_data ends.1.2 ends.2⟩

variable (dwindles : protocol.Dwindles toCome)

include dwindles

theorem drain_serves (active : (protocol.phase pair.1).isActive = true) :
    EndsIn pair protocol.drain
      (fun _ after => protocol.phase after.1 = .closed ∧
        protocol.Serving dictionary names sound fits after)
      (protocol.Faltering dictionary names sound fits) :=
  dwindles.drain_ends (fun shaped serving => read_all_serves serving shaped)
    (fun serving active => next_serves lawful orderly serving active) active serving

/-- One pass after another stops for reasons about data only: by induction on the bound. -/
theorem passes_within_serves (closed : protocol.phase pair.1 = .closed) (most : Nat) :
    EndsIn pair (protocol.passesWithin (fun _ => protocol.drain) most)
      (fun _ after => protocol.Serving dictionary names sound fits after)
      (protocol.Faltering dictionary names sound fits) := by
  induction most generalizing pair with
  | zero => exact agree_pure [] serving
  | succ most induction =>
      refine agree_bind (next_bindings_serves lawful orderly serving closed) ?_
      rintro (_ | bindings) after ⟨serving, closed⟩
      · exact agree_pure [] serving
      refine agree_bind (open_pass_serves lawful orderly serving closed) ?_
      rintro _ after ⟨serving, active⟩
      refine agree_bind (drain_serves lawful orderly serving dwindles active) ?_
      rintro values after ⟨closed, serving⟩
      refine agree_bind (induction serving closed) ?_
      exact fun _ _ serving => agree_pure _ serving

/-- A whole run on a new cursor fails for reasons about data only. -/
theorem run_passes_serves (closed : protocol.phase pair.1 = .closed) :
    EndsIn pair (protocol.thenDestroy (protocol.runPasses fun _ => protocol.drain))
      (fun _ _ => True) fun interrupt _ => interrupt.isAboutData = true := by
  have runs : EndsIn pair (protocol.runPasses fun _ => protocol.drain)
      (fun _ after => protocol.Serving dictionary names sound fits after)
      (protocol.Faltering dictionary names sound fits) := by
    refine agree_bind (open_bindings_serves lawful orderly serving closed) ?_
    rintro _ after ⟨serving, closed⟩
    apply CursorAction.agree_state
    refine agree_bind (passes_within_serves lawful orderly serving dwindles closed _) ?_
    intro results after serving
    exact agree_bind (close_bindings_serves lawful orderly serving) fun _ _ serving =>
      agree_pure results serving
  refine agree_then (fun ran after => protocol.Serving dictionary names sound fits after ∧
    ∀ error, ran = .error error → (Interrupt.failed error).isAboutData = true)
    (agree_attempt (agree_weaken runs (fun _ _ serving => ⟨serving, nofun⟩) ?_)) ?_
  · rintro (error | _) after ⟨serving, calm⟩
    · exact ⟨serving, fun _ same => by cases same; exact calm⟩
    · cases calm
  rintro ran after ⟨serving, calm⟩
  refine agree_then (fun destroyed _ =>
    ∀ error, destroyed = .error error → (Interrupt.failed error).isAboutData = true)
    (agree_attempt (agree_weaken (destroy_serves lawful serving) (fun _ _ _ => nofun) ?_)) ?_
  · rintro (error | _) last calm
    · exact fun _ same => by cases same; exact calm
    · cases calm
  intro destroyed last also
  refine agree_then (fun _ _ => True) (agree_of_except ran (fun _ _ => trivial) calm) ?_
  intro value last _
  refine agree_then (fun _ _ => True) (agree_of_except destroyed (fun _ _ => trivial) also) ?_
  exact fun _ _ _ => agree_pure value trivial

end Cursors

namespace Plan

/-- A plan that the constructors accept. -/
inductive Built (dictionary : Dictionary) : Plan → Prop
  | values {slice : Nat} {type : RowType} {rows : List Row}
      (registered : type.Registered dictionary) : Built dictionary (.values slice type rows)
  | table {name : String} {type : RowType} (registered : type.Registered dictionary) :
      Built dictionary (.table name type)
  | filter {input plan : Plan} {predicate : Expr} (below : Built dictionary input)
      (accepted : input.filtered predicate = .ok plan) : Built dictionary plan
  | project {input plan : Plan} {columns : List Expr} {engine after : Engine}
      (below : Built dictionary input)
      (accepted : (input.projected columns).run engine = (.ok plan, after))
      (registered : plan.rowType.Registered dictionary) : Built dictionary plan
  | aggregate {input plan : Plan} {keys : Nat} {aggregates : List Aggregate}
      {engine after : Engine} (below : Built dictionary input)
      (accepted : (input.aggregated keys aggregates).run engine = (.ok plan, after))
      (registered : plan.rowType.Registered dictionary) : Built dictionary plan
  | limit {input : Plan} {offset : Nat} {limit? : Option Nat} (below : Built dictionary input) :
      Built dictionary (.limit input offset limit?)

/-- The columns that each operator refers to are columns of its input type. -/
def Within : Plan → Prop
  | values _ _ _ => True
  | table _ _ => True
  | filter input predicate => input.Within ∧ predicate.Within input.rowType.width
  | project input _ columns =>
      input.Within ∧ ∀ column ∈ columns, column.Within input.rowType.width
  | aggregate input _ _ _ => input.Within
  | limit input _ _ => input.Within

/-- The fields of outer rows that the plan refers to are there in every row that is bound at their
index. -/
def Reaches (bindings : Bindings) : Plan → Prop
  | values _ _ _ => True
  | table _ _ => True
  | filter input predicate => input.Reaches bindings ∧ predicate.Reaches bindings
  | project input _ columns =>
      input.Reaches bindings ∧ ∀ column ∈ columns, column.Reaches bindings
  | aggregate input _ _ _ => input.Reaches bindings
  | limit input _ _ => input.Reaches bindings

theorem reaches_empty (plan : Plan) : plan.Reaches .empty := by
  induction plan with
  | values slice type rows => exact trivial
  | table name type => exact trivial
  | filter input predicate induction => exact ⟨induction, predicate.reaches_empty⟩
  | project input type columns induction =>
      exact ⟨induction, fun column _ => column.reaches_empty⟩
  | aggregate input type keys aggregates induction => exact induction
  | limit input offset limit? induction => exact induction

theorem Built.registered {dictionary : Dictionary} {plan : Plan} (built : plan.Built dictionary) :
    plan.rowType.Registered dictionary := by
  induction built with
  | values registered => exact registered
  | table registered => exact registered
  | @filter input plan predicate below accepted induction =>
      obtain ⟨rfl, _⟩ := filtered_made accepted
      exact induction
  | project below accepted registered => exact registered
  | aggregate below accepted registered => exact registered
  | limit below induction => exact induction

theorem projection_types_length {start : Nat} {columns : List Expr} {types : List ColumnType}
    (typed : projectionTypes start columns = .ok types) : columns.length = types.length := by
  induction columns generalizing start types with
  | nil =>
      cases typed
      rfl
  | cons column rest induction =>
      unfold projectionTypes at typed
      split at typed
      · obtain ⟨others, typedRest, made⟩ := ok_of_bind typed
        cases made
        exact congrArg (· + 1) (induction typedRest)
      · cases typed

theorem start_accumulators_length {aggregates : List Aggregate} {accumulators : List Accumulator}
    (ready : startAccumulators aggregates = .ok accumulators) :
    accumulators.length = aggregates.length :=
  (accumulators_started ready).length_eq.symm

/-- The cursors of an accepted plan are orderly, from the start on: by induction on the plan. -/
theorem protocol_orderly {dictionary : Dictionary} {bound : Bindings → Prop} {plan : Plan}
    (built : plan.Built dictionary) (within : plan.Within)
    (shapes : ∀ bindings, bound bindings → bindings.Shaped dictionary) (unbound : bound .empty)
    (reaches : ∀ bindings, bound bindings → plan.Reaches bindings) (context : Context)
    (supplied : ∀ row ∈ plan.supply, row.Shaped dictionary) :
    ∃ fits, (plan.protocol context).Orderly dictionary plan.tables bound fits ∧
      ∀ store source cursor, plan.start store source = .ok cursor → source.All bound →
        fits cursor := by
  induction built with
  | @values slice type rows registered =>
      refine ⟨Scan.InOrder dictionary bound,
        Scan.protocol_orderly (proceeds_pure supplied) context, ?_⟩
      rintro store source _ ⟨⟩ all
      exact ⟨by simp, all⟩
  | @table name type registered =>
      refine ⟨Scan.InOrder dictionary bound, Scan.probed_orderly
        (Scan.protocol_orderly (Engine.behaves_load_table List.mem_cons_self) context), ?_⟩
      intro store source cursor started all
      obtain ⟨_, rfl⟩ := table_started started
      exact ⟨by simp, all⟩
  | @filter input plan predicate below accepted induction =>
      obtain ⟨rfl, _⟩ := filtered_made accepted
      obtain ⟨fits, orderly, starts⟩ := induction within.1 (fun bindings held =>
        (reaches bindings held).1) supplied
      refine ⟨_, Filter.protocol_orderly orderly shapes below.registered within.2
        (fun bindings held => (reaches bindings held).2) context, ?_⟩
      intro store source cursor started all
      obtain ⟨rest, restStarted, rfl⟩ := filter_started started
      exact ⟨unbound, trivial, starts store source rest restStarted all⟩
  | @project input plan columns engine after below accepted registered induction =>
      obtain ⟨type, rfl, typed⟩ := projected_made accepted
      obtain ⟨fits, orderly, starts⟩ := induction within.1 (fun bindings held =>
        (reaches bindings held).1) supplied
      refine ⟨_, Project.protocol_orderly orderly shapes below.registered registered
        (projection_types_length typed) within.2 (fun bindings held => (reaches bindings held).2)
        context, ?_⟩
      intro store source cursor started all
      obtain ⟨rest, restStarted, rfl⟩ := project_started started
      exact ⟨unbound, trivial, starts store source rest restStarted all⟩
  | @aggregate input plan keys aggregates engine after below accepted registered induction =>
      obtain ⟨type, rfl, typed⟩ := aggregated_made accepted
      obtain ⟨fits, orderly, starts⟩ := induction within reaches supplied
      obtain ⟨takes, gives⟩ := widths_of_built typed
      have measured : Grouping.Measured dictionary ⟨input.rowType, type, keys⟩
          aggregates.length := ⟨below.registered, registered, takes.symm, gives.symm⟩
      refine ⟨_, Grouping.protocol_orderly orderly measured, ?_⟩
      intro store source cursor started all
      obtain ⟨accumulators, rest, ready, restStarted, rfl⟩ := aggregate_started started
      exact ⟨unbound, Grouping.closed_fitted .closed _ ⟨start_accumulators_length ready, by simp⟩,
        starts store source rest restStarted all⟩
  | @limit input offset limit? below induction =>
      obtain ⟨fits, orderly, starts⟩ := induction within reaches supplied
      refine ⟨_, Limit.protocol_orderly orderly offset limit? context, ?_⟩
      intro store source cursor started all
      obtain ⟨rest, restStarted, rfl⟩ := limit_started started
      exact ⟨unbound, trivial, starts store source rest restStarted all⟩

/-- A run may stop with such an error: one about data, or the one that kept the cursor from being
created. -/
def Excuses (plan : Plan) (store : Store) (source : BindingSource) (error : QueryError) : Prop :=
  error.isAboutData = true ∨ plan.start store source = .error error

/-- What stopped a run is an error that excuses it. -/
def Excused (plan : Plan) (store : Store) (source : BindingSource) (interrupt : Interrupt) : Prop :=
  ∃ error, interrupt = .failed error ∧ plan.Excuses store source error

theorem excused_of_about_data {plan : Plan} {store : Store} {source : BindingSource}
    {interrupt : Interrupt} (about : interrupt.isAboutData = true) :
    plan.Excused store source interrupt := by
  cases interrupt with
  | failed error => exact ⟨error, rfl, .inl about⟩
  | indexOutOfRange => cases about

section Runs

variable {dictionary : Dictionary} {plan : Plan} (built : plan.Built dictionary)
  (within : plan.Within) (supplied : ∀ row ∈ plan.supply, row.Shaped dictionary) {engine : Engine}
  (stored : engine.Stocked dictionary plan.tables)

include built within supplied stored

/-- A run under any bindings, from the creation of its cursor on. -/
theorem run_serves (context : Context) {source : BindingSource}
    (bound : source.All fun bindings => bindings.Shaped dictionary ∧ plan.Reaches bindings) :
    EndsIn engine (plan.run context source fun _ => (plan.protocol context).drain)
      (fun _ _ => True) fun interrupt _ => plan.Excused engine.store source interrupt := by
  refine agree_then (fun read after => engine = read ∧ engine = after) ⟨rfl, rfl, rfl⟩ ?_
  rintro _ _ ⟨rfl, rfl⟩
  cases created : plan.start engine.store source with
  | error error => exact agree_fail error ⟨error, rfl, .inr created⟩
  | ok cursor =>
      let reachable (bindings : Bindings) : Prop :=
        bindings.Shaped dictionary ∧ plan.Reaches bindings
      have unbound : reachable .empty := ⟨trivial, plan.reaches_empty⟩
      obtain ⟨fits, orderly, starts⟩ := @protocol_orderly dictionary reachable plan built within
        (fun _ => And.left) unbound (fun _ => And.right) context supplied
      have ⟨coherent, closed⟩ : plan.Coherent (fun _ => True) cursor ∧
          plan.phase cursor = .closed := start_coherent created
      rw [← protocol_phase context] at closed
      have serving : (plan.protocol context).Serving dictionary plan.tables
          (plan.Coherent fun _ => True) fits (cursor, engine) :=
        ⟨coherent, by simp [closed], starts _ _ _ created bound, stored⟩
      have runs : EndsIn engine (CursorAction.runFrom cursor ((plan.protocol context).thenDestroy
          ((plan.protocol context).runPasses fun _ => (plan.protocol context).drain)))
          (fun _ _ => True) fun interrupt _ => interrupt.isAboutData = true :=
        agree_run_from (run_passes_serves (plan.protocol_lawful context) orderly serving
          (plan.protocol_dwindles context) closed)
      exact agree_weaken runs (fun _ _ _ => trivial) fun _ _ => excused_of_about_data

/-- A run of a plan that was accepted, under one binding or under one after another, stops for
reasons about data only, unless its cursor could not be created. Numbers of row types repeat in the
long run: the dictionary says that those at hand stand for one type each. -/
theorem accepted_plan_fails_on_data_only (context : Context) :
    (∀ bindings interrupt, bindings.Shaped dictionary → plan.Reaches bindings →
      ((plan.execute context bindings).run engine).1 = .error interrupt →
        plan.Excused engine.store (.ofOne bindings) interrupt) ∧
    ∀ all interrupt, (∀ bindings ∈ all, bindings.Shaped dictionary ∧ plan.Reaches bindings) →
      ((plan.executeEach context all).run engine).1 = .error interrupt →
        plan.Excused engine.store (.ofList all) interrupt := by
  refine ⟨fun bindings interrupt shaped reaches stopped => ?_, fun all interrupt each stopped => ?_⟩
  · have bound : (BindingSource.ofOne bindings).All fun bindings =>
        bindings.Shaped dictionary ∧ plan.Reaches bindings := ⟨shaped, reaches⟩
    exact interrupt_of_ends (agree_bind (run_serves built within supplied stored context bound)
      fun passes _ _ => agree_pure (passes.headD []) trivial) stopped
  · have bound : (BindingSource.ofList all).All fun bindings =>
        bindings.Shaped dictionary ∧ plan.Reaches bindings := ⟨each, nofun⟩
    exact interrupt_of_ends (run_serves built within supplied stored context bound) stopped

end Runs

end Plan

/-! The sum of shares of a pool, over a leaf with a row of another type and a lazily computed row,
where one share is of nothing. -/

namespace Shares

open Counting

def pair : RowType := ⟨1, [.notNull .bigint, .notNull .bigint]⟩

def divisor : RowType := ⟨2, [.notNull .bigint]⟩

def quotient : RowType := ⟨3, [.notNull .bigint]⟩

def total : RowType := ⟨4, [⟨.bigint, true⟩]⟩

def dictionary (id : UInt32) : List ColumnType :=
  if id = 1 then pair.columns else if id = 4 then total.columns else divisor.columns

def base : Row :=
  .stored 1 pair [count 5, count 0]

def leaf : Plan :=
  .values 3 divisor [base, .projected 2 divisor base ⟨0, .empty, {}⟩ .empty
    [.column 1 (.notNull .bigint)]]

def positive : Expr :=
  .binary (.comparison .ge) (.column 0 (.notNull .bigint)) (.literal (count 0))

def share : Expr :=
  .binary (.arithmetic .div) (.outer 0 1 (.notNull .bigint)) (.column 0 (.notNull .bigint))

def plan : Plan :=
  .limit (.aggregate (.project (.filter leaf positive) quotient [share]) total 0 [⟨.sum, none⟩])
    0 none

def pool : Bindings :=
  .outer 0 (.stored 4 pair [count 1, count 60]) .empty

/-- The engine before the types of the plan were made. -/
def engine : Engine where
  nextId := 5
  nextTypeId := 3

def context : Context :=
  ⟨0, .empty, {}⟩

theorem plan_built : plan.Built dictionary := by
  have below : leaf.Built dictionary := .values (show divisor.Registered dictionary from rfl)
  have filtered : (leaf.filter positive).Built dictionary :=
    .filter below (show leaf.filtered positive = _ from rfl)
  have projected : ((leaf.filter positive).project quotient [share]).Built dictionary :=
    .project filtered (show ((leaf.filter positive).projected [share]).run engine = _ from rfl) rfl
  exact .limit (.aggregate projected (show (Plan.aggregated _ 0 [⟨.sum, none⟩]).run
    { engine with nextTypeId := 4 } = _ from rfl) rfl)

/-- A division by zero stops the run, and it is about data. -/
theorem empty_share_is_about_data :
    plan.Within ∧ pool.Shaped dictionary ∧ plan.Reaches pool ∧
    (∀ row ∈ plan.supply, row.Shaped dictionary) ∧ engine.Stocked dictionary plan.tables ∧
    ((plan.execute context pool).run engine).1 =
      .error (.failed (.value (some 0) .divisionByZero)) ∧
    plan.Excused engine.store (.ofOne pool) (.failed (.value (some 0) .divisionByZero)) := by
  have within : plan.Within := by
    refine ⟨⟨trivial, Nat.zero_lt_one, trivial⟩, ?_⟩
    rintro _ (_ | ⟨_, ⟨⟩⟩)
    exact ⟨trivial, Nat.zero_lt_one⟩
  have shaped : pool.Shaped dictionary := ⟨⟨rfl, rfl⟩, trivial⟩
  have reaches : plan.Reaches pool := by
    refine ⟨⟨trivial, trivial, trivial⟩, ?_⟩
    rintro _ (_ | ⟨_, ⟨⟩⟩)
    refine ⟨?_, trivial⟩
    rintro _ ⟨⟩
    decide
  have below : base.Shaped dictionary := ⟨rfl, rfl⟩
  have supplied : ∀ row ∈ plan.supply, row.Shaped dictionary := by
    rintro _ (_ | ⟨_, _ | ⟨_, ⟨⟩⟩⟩)
    · exact below
    refine ⟨rfl, rfl, ?_, below, trivial⟩
    rintro _ (_ | ⟨_, ⟨⟩⟩)
    exact ⟨Nat.one_lt_two, trivial⟩
  have stored : engine.Stocked dictionary plan.tables := nofun
  have stopped : ((plan.execute context pool).run engine).1 =
      .error (.failed (.value (some 0) .divisionByZero)) := by
    decide +kernel
  exact ⟨within, shaped, reaches, supplied, stored, stopped,
    (Plan.accepted_plan_fails_on_data_only plan_built within supplied stored context).1 _ _ shaped
      reaches stopped⟩

end Shares

/-! Reads outside of a row, in plans that are accepted and refer to columns that are there: of a row
whose type got a number again that stands for another type, and through a bound row that is computed
lazily and refers outside of its base. -/

namespace Astray

/-- The row has a value or an expression for each column of its type. -/
def Full : Row → Prop
  | .stored _ type values => values.length = type.width
  | .projected _ type _ _ _ columns => columns.length = type.width

def flag : RowType :=
  ⟨1, [.notNull .boolean]⟩

/-- A type without columns, made when the numbers had all been given and began anew. -/
def bare : RowType :=
  ⟨1, []⟩

def mixed : Plan :=
  .values 0 flag [.stored 1 bare []]

def isSet : Expr :=
  .column 0 (.notNull .boolean)

def kept : Plan :=
  .filter mixed isSet

def answer : RowType :=
  ⟨2, [.notNull .boolean]⟩

def isMissing : Expr :=
  .nullTest (.outer 0 0 (.notNull .boolean)) false

def leaf : Plan :=
  .values 0 flag [.stored 1 flag [.boolean true]]

def asked : Plan :=
  .project leaf answer [isMissing]

/-- Its one column refers to a second column of a row that has one. -/
def stray : Row :=
  .projected 3 flag (.stored 2 flag [.boolean true]) ⟨0, .empty, {}⟩ .empty
    [.column 1 (.notNull .boolean)]

def outer : Bindings :=
  .outer 0 stray .empty

def engine : Engine where
  nextId := 4
  nextTypeId := 2

def context : Context :=
  ⟨0, .empty, {}⟩

theorem kept_built : kept.Built fun _ => flag.columns :=
  .filter (.values rfl) (show mixed.filtered isSet = _ from rfl)

theorem asked_built : asked.Built fun _ => flag.columns :=
  .project (.values rfl) (show (leaf.projected [isMissing]).run engine = _ from rfl) rfl

/-- Accepted plans over full rows whose references are all inside: one is stopped by a row that was
made as one of another type, the other by the row that is bound for it. -/
theorem accepted_plans_read_outside :
    (kept.Built (fun _ => flag.columns) ∧ kept.Within ∧ kept.Reaches .empty ∧
      (∀ row ∈ kept.supply, Full row) ∧
      ((kept.execute context .empty).run engine).1 = .error .indexOutOfRange) ∧
    asked.Built (fun _ => flag.columns) ∧ asked.Within ∧ asked.Reaches outer ∧
      (∀ row ∈ stray :: asked.supply, Full row) ∧
      ((asked.execute context outer).run engine).1 = .error .indexOutOfRange := by
  have keptWithin : kept.Within := ⟨trivial, Nat.zero_lt_one⟩
  have keptFull : ∀ row ∈ kept.supply, Full row := List.forall_mem_singleton.mpr rfl
  have askedWithin : asked.Within := ⟨trivial, List.forall_mem_singleton.mpr trivial⟩
  have askedReaches : asked.Reaches outer := by
    refine ⟨trivial, List.forall_mem_singleton.mpr ?_⟩
    rintro _ ⟨⟩
    exact Nat.zero_lt_one
  have askedFull : ∀ row ∈ stray :: asked.supply, Full row :=
    List.forall_mem_cons.mpr ⟨rfl, List.forall_mem_singleton.mpr rfl⟩
  refine ⟨⟨kept_built, keptWithin, kept.reaches_empty, keptFull, ?_⟩,
    asked_built, askedWithin, askedReaches, askedFull, ?_⟩
  · decide +kernel
  · decide +kernel

end Astray

end QueryExec
