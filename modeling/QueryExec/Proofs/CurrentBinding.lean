import QueryExec.Proofs.Census.Trees
import QueryExec.Proofs.Cursor.Binding
import QueryExec.Proofs.Lifecycle

/-!
The current binding of a tree. Every cursor keeps a copy of its own, and projected rows keep the
copy of the projection that made them long after their pass. Whatever is called on a tree, fails in
it or happens around it, all copies are the binding that was returned last, so predicates are
evaluated under it, and a row that is read at last is evaluated under the binding of its pass.
-/

namespace QueryExec

open QueryExec.Action

/-- In this journal, every column of every projection in the row has the value or failure of its
expression over the row below, under the context and the binding that the projection was made
with. -/
def Row.Evaluates (journal : Journal) : Row → Prop
  | .stored _ _ _ => True
  | .projected id type base context bindings columns =>
      base.Evaluates journal ∧
        ∀ column expression, columns[column]? = some expression →
          (((Row.projected id type base context bindings columns).read column).run journal).1 =
            (base.view.eval context bindings expression).mapError (·.atColumn column)

theorem Row.evaluates_of_listed {census : Census} {journal : Journal}
    (faithful : journal.Faithful census) :
    (row : Row) → row.Listed census → row.Evaluates journal := by
  intro row listed
  cases row with
  | stored id type values => exact trivial
  | projected id type base context bindings columns =>
      refine ⟨Row.evaluates_of_listed faithful base listed.2.1, fun column expression found => ?_⟩
      have meant := yields_faithful
        (fun _ => Row.read_yields _ listed column) journal faithful
      have shown := congrArg (fun view => view.column column)
        (view_projected listed.2.1 listed.2.2 :
          (Row.projected id type base context bindings columns).view = _)
      refine meant.1.trans (shown.trans ?_)
      unfold View.projected
      simp only [found]

/-- Other steps may lead from one engine to the other: they made rows with identities of their own
and remembered only what rows mean. So a census that covers the first engine and knows the rows that
the steps could use has grown into one that covers the second. -/
def Engine.Leads (known : Census → Prop) (engine later : Engine) : Prop :=
  ∀ census, engine.Covered (fun _ => True) census → known census →
    ∃ grown, census.Within grown ∧ later.Covered (fun _ => True) grown

/-- A row that a tree gave, the binding of the tree when it did, and the rows that waited in its
leaf before. -/
structure Delivery where
  row : Row
  bindings : Bindings
  waiting : List Row

/-- A call that gives a row is recorded. -/
def CursorAnswer.given (bindings : Bindings) (waiting : List Row) (before : List Delivery) :
    Except Interrupt CursorAnswer → List Delivery
  | .ok (.row (some made)) => before ++ [⟨made, bindings, waiting⟩]
  | _ => before

theorem CursorAnswer.all_given {holds : Delivery → Prop} {bindings : Bindings}
    {waiting : List Row} {before : List Delivery} {answer : CursorAnswer}
    (held : ∀ delivery ∈ before, holds delivery)
    (made : ∀ row, answer = .row (some row) → holds ⟨row, bindings, waiting⟩) :
    ∀ delivery ∈ given bindings waiting before (.ok answer), holds delivery := by
  rcases answer with _ | ⟨_ | row⟩ | _
  case row.some =>
    intro delivery among
    rcases List.mem_append.mp among with earlier | last
    · exact held delivery earlier
    · rw [List.mem_singleton.mp last]
      exact made row rfl
  all_goals exact held

theorem Protocol.Enrolling.perform {cursor : Type} {faulty : LeafCall → Prop}
    {lists : Coverage cursor} {protocol : Protocol cursor}
    (enrolling : protocol.Enrolling faulty lists) (census : Census) (call : CursorCall) :
    Enrols (Tracked faulty lists) census (protocol.perform call) fun later answer =>
      ∀ row, answer = .row (some row) → row.Listed later := by
  have quiet {result : Type} {action : CursorAction cursor result} {answer : result → CursorAnswer}
      {gives : Census → result → Prop} (enrols : Enrols (Tracked faulty lists) census action gives)
      (silent : ∀ value row, answer value ≠ .row (some row)) :
      Enrols (Tracked faulty lists) census (action >>= fun value => pure (answer value))
        fun later answer => ∀ row, answer = .row (some row) → row.Listed later :=
    enrols_bind enrols fun _ value _ _ =>
      enrols_pure _ fun row same => absurd same (silent value row)
  cases call with
  | openPass => exact quiet (enrolling.openPass census) nofun
  | next =>
      refine enrols_bind (enrolling.next census) fun later row? _ listed => enrols_pure _ ?_
      intro row same
      cases same
      exact listed row rfl
  | close => exact quiet (enrolling.close census) nofun
  | destroy => exact quiet (enrolling.destroy census) nofun
  | openBindings => exact quiet (enrolling.openBindings census) nofun
  | nextBindings => exact quiet (enrolling.nextBindings census) nofun
  | closeBindings => exact quiet (enrolling.closeBindings census) nofun
  | cancelBindings bindings =>
      exact quiet (enrols_of_keeps (keeps_modify fun pair held =>
        enrolling.cancelBindings census bindings pair held)) nofun

namespace Plan

/-- The bindings of the cursors of a tree, from the topmost one down to the leaf. -/
def bindings : (plan : Plan) → plan.Cursor → List Bindings
  | values _ _ _ => fun scan : Scan => [scan.current]
  | table _ _ => fun scan : Scan => [scan.current]
  | filter input _ => fun node : Filter.State input.Cursor =>
      node.bindings :: input.bindings node.input
  | project input _ _ => fun node : Project.State input.Cursor =>
      node.bindings :: input.bindings node.input
  | aggregate input _ _ _ => fun node : Grouping.State input.Cursor =>
      node.bindings :: input.bindings node.input
  | limit input _ _ => fun node : Limit.State input.Cursor =>
      node.bindings :: input.bindings node.input

/-- The protocol of a tree whose filters and projections are given their binding and do not look at
what their cursors keep. -/
def under (context : Context) (bindings : Bindings) : (plan : Plan) → Protocol plan.Cursor
  | values _ _ rows => Scan.protocol context (pure rows)
  | table name _ => Scan.probed (Scan.protocol context (Scan.loadTable name))
  | filter input predicate =>
      Filter.protocolUnder bindings context input.rowType predicate (under context bindings input)
  | project input type columns =>
      Project.protocolUnder bindings context input.rowType type columns
        (under context bindings input)
  | aggregate input type keys _ =>
      Grouping.protocol context ⟨input.rowType, type, keys⟩ (under context bindings input)
  | limit input offset limit? =>
      Limit.protocol context offset limit? (under context bindings input)

/-- The rows that wait in the leaf of a tree. -/
def waiting : (plan : Plan) → plan.Cursor → List Row
  | values _ _ _ => Scan.pending
  | table _ _ => Scan.pending
  | filter input _ => fun node : Filter.State input.Cursor => input.waiting node.input
  | project input _ _ => fun node : Project.State input.Cursor => input.waiting node.input
  | aggregate input _ _ _ => fun node : Grouping.State input.Cursor => input.waiting node.input
  | limit input _ _ => fun node : Limit.State input.Cursor => input.waiting node.input

/-- What a tree can give under a binding when such rows wait in its leaf: such a row as it is, what
projections that carry the binding make over one, or the row of a group. -/
def Emits (context : Context) (bindings : Bindings) (waits : Row → Prop) : Plan → Row → Prop
  | values _ _ _ => waits
  | table _ _ => waits
  | filter input _ => Emits context bindings waits input
  | project input _ columns =>
      Project.Emits context bindings input.rowType columns (Emits context bindings waits input)
  | aggregate input _ _ _ => Grouping.Passes input.rowType (Emits context bindings waits input)
  | limit input _ _ => Emits context bindings waits input

/-- The whole tree has one current binding and a source, and its aggregations hold rows of their
input types only. -/
def Bound : (plan : Plan) → Carried plan.Cursor
  | values _ _ _ => Scan.Carrying
  | table _ _ => Scan.Carrying
  | filter input _ => Node.Carrying (fun _ => True) input.Bound
  | project input _ _ => Node.Carrying (fun _ => True) input.Bound
  | aggregate input _ _ _ => Node.Carrying (Grouping.HoldsOwn input.rowType) input.Bound
  | limit input _ _ => Node.Carrying (fun _ => True) input.Bound

/-- Such a tree, with such rows waiting in its leaf. -/
def Drawing (waits : Row → Prop) : (plan : Plan) → Carried plan.Cursor
  | values _ _ _ => Scan.Drawing waits
  | table _ _ => Scan.Drawing waits
  | filter input _ => Node.Carrying (fun _ => True) (input.Drawing waits)
  | project input _ _ => Node.Carrying (fun _ => True) (input.Drawing waits)
  | aggregate input _ _ _ =>
      Node.Carrying (Grouping.HoldsOwn input.rowType) (input.Drawing waits)
  | limit input _ _ => Node.Carrying (fun _ => True) (input.Drawing waits)

variable {context : Context} {plan : Plan} {cursor : plan.Cursor} {bindings : Bindings}
  {source : BindingSource} {engine : Engine} {waits : Row → Prop}

theorem protocol_bound (context : Context) (plan : Plan) :
    (plan.protocol context).Carries plan.Bound := by
  induction plan with
  | values slice type rows => exact Scan.protocol_carries context (pure rows)
  | table name type => exact Scan.probed_carries context (Scan.loadTable name)
  | filter input predicate induction =>
      exact Filter.protocol_carries induction context input.rowType predicate
  | project input type columns induction =>
      exact Project.protocol_carries induction context input.rowType type columns
  | aggregate input type keys aggregates induction =>
      exact Grouping.protocol_carries (Grouping.holds_own_settled input.rowType) induction context
  | limit input offset limit? induction =>
      exact Limit.protocol_carries induction context offset limit?

theorem start_bound {store : Store} (started : plan.start store source = .ok cursor) :
    plan.Bound .empty source cursor := by
  induction started using started_induction with
  | values slice type rows => exact ⟨rfl, rfl⟩
  | table name type => exact ⟨rfl, rfl⟩
  | filter input predicate rest _ _ bound => exact ⟨rfl, trivial, bound⟩
  | project input type columns rest _ _ bound => exact ⟨rfl, trivial, bound⟩
  | aggregate input type keys aggregates accumulators rest _ _ _ bound =>
      exact ⟨rfl, fun _ held => absurd held (by simp), bound⟩
  | limit input offset limit? rest _ _ bound => exact ⟨rfl, trivial, bound⟩

theorem Bound.all_bindings (bound : plan.Bound bindings source cursor) :
    ∀ kept ∈ plan.bindings cursor, kept = bindings := by
  induction plan with
  | values slice type rows => exact List.forall_mem_singleton.mpr bound.1
  | table name type => exact List.forall_mem_singleton.mpr bound.1
  | filter input predicate induction =>
      exact List.forall_mem_cons.mpr ⟨bound.1, induction bound.2.2⟩
  | project input type columns induction =>
      exact List.forall_mem_cons.mpr ⟨bound.1, induction bound.2.2⟩
  | aggregate input type keys aggregates induction =>
      exact List.forall_mem_cons.mpr ⟨bound.1, induction bound.2.2⟩
  | limit input offset limit? induction =>
      exact List.forall_mem_cons.mpr ⟨bound.1, induction bound.2.2⟩

/-- Only the way to the next row depends on where the binding comes from. -/
theorem under_eq (context : Context) (bindings : Bindings) (plan : Plan) :
    plan.under context bindings =
      (plan.protocol context).pulling (plan.under context bindings).next := by
  induction plan with
  | values slice type rows => rfl
  | table name type => rfl
  | filter input predicate induction =>
      unfold under
      rw [induction]
      exact Filter.under_pulling ..
  | project input type columns induction =>
      unfold under
      rw [induction]
      exact Project.under_pulling ..
  | aggregate input type keys aggregates induction =>
      unfold under
      rw [induction]
      exact Grouping.protocol_pulling ..
  | limit input offset limit? induction =>
      unfold under
      rw [induction]
      exact Limit.protocol_pulling ..

theorem drawing_iff (cursor : plan.Cursor) : plan.Drawing waits bindings source cursor ↔
    plan.Bound bindings source cursor ∧ ∀ row ∈ plan.waiting cursor, waits row := by
  induction plan with
  | values slice type rows => exact Iff.rfl
  | table name type => exact Iff.rfl
  | filter input predicate induction => exact Node.carrying_iff induction cursor
  | project input type columns induction => exact Node.carrying_iff induction cursor
  | aggregate input type keys aggregates induction => exact Node.carrying_iff induction cursor
  | limit input offset limit? induction => exact Node.carrying_iff induction cursor

theorem drawing_close (context : Context) (plan : Plan) :
    Stays (plan.Drawing waits bindings source) (plan.protocol context).close := by
  induction plan with
  | values slice type rows => exact Scan.stays_close
  | table name type => exact Scan.stays_after .close Scan.stays_close
  | filter input predicate induction => exact Node.stays_close induction
  | project input type columns induction => exact Node.stays_close induction
  | aggregate input type keys aggregates induction =>
      exact keeps_bind (Node.stays_close induction) fun _ =>
        Grouping.stays_forget (Grouping.holds_own_settled input.rowType)
  | limit input offset limit? induction => exact Node.stays_close induction

/-- A tree with this binding gives its rows as if it were given the binding. -/
theorem supplies_under (context : Context) (bindings : Bindings) (source : BindingSource)
    (waits : Row → Prop) (plan : Plan) :
    Supplies (plan.Drawing waits bindings source) (plan.Emits context bindings waits)
      (plan.protocol context).next (plan.under context bindings).next := by
  induction plan with
  | values slice type rows => exact Scan.supplies_next context
  | table name type => exact Scan.supplies_instead_of .next (Scan.supplies_next context)
  | filter input predicate induction =>
      unfold under
      rw [under_eq]
      exact Filter.supplies_next (drawing_close context input) induction context input.rowType
        predicate
  | project input type columns induction =>
      unfold under
      rw [under_eq]
      exact Project.supplies_next (drawing_close context input) induction context input.rowType
        type columns
  | aggregate input type keys aggregates induction =>
      unfold under
      rw [under_eq]
      exact Grouping.supplies_next ⟨input.rowType, type, keys⟩ (drawing_close context input)
        induction context
  | limit input offset limit? induction =>
      unfold under
      rw [under_eq]
      exact Limit.supplies_next (drawing_close context input) induction context offset limit?

/-- Every call on a tree with this binding is answered as if the tree were given the binding. The
tree has the binding that is returned last, and what its projections made carries the one it had. -/
theorem Bound.call (bound : plan.Bound bindings source cursor) (context : Context)
    (engine : Engine) (call : CursorCall) :
    AgreeFrom (cursor, engine) ((plan.protocol context).perform call)
      ((plan.under context bindings).perform call)
      (fun answer after =>
        (∃ source, plan.Bound (CursorAnswer.latest bindings (.ok answer)) source after.1) ∧
          ∀ row, answer = .row (some row) →
            plan.Emits context bindings (· ∈ plan.waiting cursor) row)
      fun _ after => ∃ source, plan.Bound bindings source after.1 := by
  rw [under_eq]
  exact (protocol_bound context plan).call_pulling
    (supplies_under context bindings source (· ∈ plan.waiting cursor) plan)
    (fun later drawn => ((drawing_iff later).mp drawn).1)
    ((drawing_iff cursor).mpr ⟨bound, fun _ => id⟩) engine call

/-- What projections of the tree made of the row carries the binding that the tree had. -/
def MadeUnder (context : Context) (plan : Plan) (delivery : Delivery) : Prop :=
  plan.Emits context delivery.bindings (· ∈ delivery.waiting) delivery.row

/-- What can become of a tree and its engine: calls of any sort and any outcome, and between them
whatever other steps do to the engine. Recorded are the binding that was returned last and the rows
that were given, each with the last binding at that time. -/
inductive Served (context : Context) (plan : Plan) :
    plan.Cursor → Engine → Bindings → List Delivery → Prop
  | start {census : Census} {cursor : plan.Cursor} {engine : Engine} {source : BindingSource}
      (covered : engine.Covered (fun _ => True) census) (listed : plan.Listed census)
      (bound : source.Listed census) (started : plan.start engine.store source = .ok cursor) :
      Served context plan cursor engine .empty []
  | call {cursor cursor' : plan.Cursor} {engine engine' : Engine} {latest : Bindings}
      {given : List Delivery} (earlier : Served context plan cursor engine latest given)
      (call : CursorCall) {outcome : Except Interrupt CursorAnswer}
      (ended : ((plan.protocol context).perform call).run (cursor, engine) =
        (outcome, cursor', engine')) :
      Served context plan cursor' engine' (CursorAnswer.latest latest outcome)
        (CursorAnswer.given latest (plan.waiting cursor) given outcome)
  | meanwhile {cursor : plan.Cursor} {engine engine' : Engine} {latest : Bindings}
      {given : List Delivery} (earlier : Served context plan cursor engine latest given)
      (leads : engine.Leads (fun census => plan.Lists census cursor ∧
        ∀ delivery ∈ given, delivery.row.Listed census) engine') :
      Served context plan cursor engine' latest given

variable {latest : Bindings} {given : List Delivery}

/-- What is known of a tree that has been served. -/
theorem Served.known (served : plan.Served context cursor engine latest given) :
    (∃ source, plan.Bound latest source cursor) ∧
      (∀ delivery ∈ given, plan.MadeUnder context delivery) ∧
      ∃ census, Tracked (fun _ => True) plan.Lists census (cursor, engine) ∧
        ∀ delivery ∈ given, delivery.row.Listed census := by
  induction served with
  | start covered listed bound started =>
      exact ⟨⟨_, start_bound started⟩, nofun, _, ⟨start_lists started listed bound, covered⟩, nofun⟩
  | @call cursor cursor' engine engine' latest given earlier call outcome ended known =>
      obtain ⟨⟨source, bound⟩, emitted, census, tracked, listed⟩ := known
      obtain ⟨same, bound⟩ := bound.call context engine call
      have grown := ((protocol_enrolling (fun _ => True) context plan).perform census call
        (cursor, engine) tracked).2
      rw [← same] at bound
      rw [ended] at bound grown
      cases outcome with
      | error interrupt =>
          obtain ⟨later, within, tracked⟩ := grown
          exact ⟨bound, emitted, later, tracked, fun delivery among =>
            (listed delivery among).later within⟩
      | ok answer =>
          obtain ⟨bound, emits⟩ := bound
          obtain ⟨later, within, tracked, made⟩ := grown
          exact ⟨bound, CursorAnswer.all_given emitted emits, later, tracked,
            CursorAnswer.all_given (fun delivery among => (listed delivery among).later within)
              made⟩
  | meanwhile earlier leads known =>
      obtain ⟨bound, emitted, census, tracked, listed⟩ := known
      obtain ⟨later, within, covered⟩ := leads census tracked.2 ⟨tracked.1, listed⟩
      refine ⟨bound, emitted, later, ⟨?_, covered⟩, fun delivery among =>
        (listed delivery among).later within⟩
      exact (protocol_enrolling (fun _ => True) context plan).lasting _ _ _ within tracked.1

/-- The columns of a given row may be read at any time. -/
theorem Served.read (served : plan.Served context cursor engine latest given)
    {delivery : Delivery} (among : delivery ∈ given) (column : Nat) :
    plan.Served context cursor
      ((Engine.inJournal (delivery.row.read column)).run engine).2 latest given := by
  refine served.meanwhile fun census covered known => ⟨census, census.within_refl, ?_⟩
  have kept := keeps_read (known.2 delivery among) column engine.journal covered.faithful
  exact covered.with_journal (reaches_of_ends kept)

/-- After any calls, whatever failed: all cursors of the tree have the binding that was returned
last, every call evaluates predicates and makes projections under that binding, and the rows that
were given carry the binding that was the last when they were given and evaluate under it now. -/
theorem Served.one_binding (served : plan.Served context cursor engine latest given) :
    (∀ kept ∈ plan.bindings cursor, kept = latest) ∧
    (∀ (call : CursorCall) (engine : Engine),
      ((plan.protocol context).perform call).run (cursor, engine) =
        ((plan.under context latest).perform call).run (cursor, engine)) ∧
    ∀ delivery ∈ given,
      plan.MadeUnder context delivery ∧ delivery.row.Evaluates engine.journal := by
  obtain ⟨⟨source, bound⟩, emitted, census, tracked, listed⟩ := served.known
  refine ⟨bound.all_bindings, fun call engine => (bound.call context engine call).1, ?_⟩
  exact fun delivery among => ⟨emitted delivery among,
    Row.evaluates_of_listed tracked.2.faithful delivery.row (listed delivery among)⟩

end Plan

/-! A projection gives a parameter. Its row is read when the tree has the next binding and is
destroyed. -/

namespace Deferred

def flags : RowType := ⟨1, [⟨.boolean, true⟩]⟩

def plan : Plan :=
  .project (.values 0 flags [.stored 1 flags [.null]]) ⟨2, [⟨.boolean, true⟩]⟩
    [.parameter 0 ⟨.boolean, true⟩]

def context : Context := ⟨0, .standard, {}⟩

def first : Bindings := .parameter 0 (.boolean true) (.root 1)

def second : Bindings := .parameter 0 (.boolean false) (.root 2)

def new : plan.Cursor × Engine :=
  (({ own := (), input := { source := .ofList [first, second] : Scan } } : Project.State Scan),
    { nextId := 2 })

/-- The tree and the engine after calls. -/
def after (calls : List CursorCall) : plan.Cursor × Engine :=
  plan.history context calls new

def given : Delivery :=
  { row := .projected 2 ⟨2, [⟨.boolean, true⟩]⟩ (.stored 1 flags [.null]) context first
      [.parameter 0 ⟨.boolean, true⟩]
    bindings := first
    waiting := [.stored 1 flags [.null]] }

def calls : List CursorCall :=
  [.openBindings, .nextBindings, .openPass, .next, .close, .nextBindings, .destroy]

theorem served_new : plan.Served context new.1 new.2 .empty [] := by
  have unknown : Engine.Covered (fun _ => True) (fun _ => none) new.2 :=
    ⟨Journal.faithful_empty, fun _ _ => rfl, Table.every_empty, Table.every_empty,
      Engine.faults_within_any _⟩
  have bound : (BindingSource.ofList [first, second]).Listed fun _ => none :=
    ⟨List.forall_mem_cons.mpr ⟨trivial, List.forall_mem_singleton.mpr trivial⟩, nofun⟩
  exact .start unknown (List.forall_mem_singleton.mpr trivial) bound rfl

theorem served_call (call : CursorCall) (pair : plan.Cursor × Engine) {latest : Bindings}
    {given : List Delivery} (served : plan.Served context pair.1 pair.2 latest given) :
    plan.Served context (plan.history context [call] pair).1 (plan.history context [call] pair).2
      (CursorAnswer.latest latest (((plan.protocol context).perform call).run pair).1)
      (CursorAnswer.given latest (plan.waiting pair.1) given
        (((plan.protocol context).perform call).run pair).1) :=
  served.call call rfl

theorem served_throughout : plan.Served context (after calls).1 (after calls).2 second [given] := by
  have bound := served_call .nextBindings _ (served_call .openBindings _ served_new)
  have passed := served_call .close _ (served_call .next _ (served_call .openPass _ bound))
  have destroyed := served_call .destroy _ (served_call .nextBindings _ passed)
  exact destroyed

/-- The engine after the row was read for the first time. -/
def read : Engine :=
  ((Engine.inJournal (given.row.read 0)).run (after calls).2).2

/-- The tree has the second binding and is destroyed; the row has the value of the first one, as
often as it is read. -/
theorem value_of_first_binding :
    plan.Served context (after calls).1 (after calls).2 second [given] ∧
      plan.bindings (after calls).1 = [second, second] ∧
      plan.phase (after calls).1 = .destroyed ∧
      ((given.row.read 0).run (after calls).2.journal).1 = .ok (.boolean true) ∧
      ((given.row.read 0).run read.journal).1 = .ok (.boolean true) := by
  have among : given ∈ [given] := List.mem_singleton.mpr rfl
  obtain ⟨-, -, delivered⟩ := served_throughout.one_binding
  obtain ⟨-, -, evaluates⟩ := delivered given among
  obtain ⟨-, -, redelivered⟩ := (served_throughout.read among 0).one_binding
  obtain ⟨-, -, again⟩ := redelivered given among
  exact ⟨served_throughout, rfl, rfl, evaluates 0 _ rfl, again 0 _ rfl⟩

end Deferred

end QueryExec
