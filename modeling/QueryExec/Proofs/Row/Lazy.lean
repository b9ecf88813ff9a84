import QueryExec.Proofs.Census.Enrolment
import QueryExec.Proofs.Row.Eager

/-!
Lazy rows against rows that are evaluated at once. A journal remembers the columns that were
computed, and every read of a projected row, on whatever level and after whatever other reads, has
the outcome of the evaluated row. What a read leaves behind is told by the reads that it takes: each
success fills its cell, nothing else is touched, and what is counted are the reads that found their
cell empty.
-/

namespace QueryExec

open QueryExec.Action

namespace Cells

variable {source : Type} {read : source → Cells → List Reading}

theorem after_nil (filled : Cells) : filled.after [] = filled := by
  funext cell
  exact Bool.or_false _

theorem after_append (filled : Cells) (log further : List Reading) :
    filled.after (log ++ further) = (filled.after log).after further := by
  funext cell
  unfold after
  rw [List.any_append, Bool.or_assoc]

theorem in_turn_append (first second : List source) (filled : Cells) :
    inTurn read (first ++ second) filled =
      inTurn read first filled ++ inTurn read second (filled.after (inTurn read first filled)) := by
  induction first generalizing filled with
  | nil => rw [List.nil_append, inTurn, List.nil_append, after_nil]
  | cons next rest induction =>
      rw [List.cons_append, inTurn, inTurn, induction, after_append, List.append_assoc]

theorem in_turn_singleton (only : source) (filled : Cells) :
    inTurn read [only] filled = read only filled := by
  rw [inTurn, inTurn, List.append_nil]

/-- What holds of all reads that each source takes holds of all in turn. -/
theorem forall_in_turn {holds : Reading → Prop} {sources : List source}
    (each : ∀ one ∈ sources, ∀ filled, ∀ reading ∈ read one filled, holds reading)
    (filled : Cells) : ∀ reading ∈ inTurn read sources filled, holds reading := by
  induction sources generalizing filled with
  | nil => exact List.forall_mem_nil _
  | cons first rest induction =>
      obtain ⟨own, others⟩ := List.forall_mem_cons.mp each
      exact List.forall_mem_append.mpr ⟨own filled, induction others _⟩

/-- A read that a source takes in any case is among all in turn. -/
theorem mem_in_turn {sources : List source} {one : source} {reading : Reading}
    (among : one ∈ sources) (taken : ∀ filled, reading ∈ read one filled) (filled : Cells) :
    reading ∈ inTurn read sources filled := by
  induction among generalizing filled with
  | head rest => exact List.mem_append_left _ (taken filled)
  | tail first _ induction => exact List.mem_append_right _ (induction _)

/-- The reads that find their cell empty. -/
def misses : Cells → List Reading → List Reading
  | _, [] => []
  | filled, reading :: rest =>
      if filled reading.cell then misses filled rest
      else reading :: misses (filled.after [reading]) rest

theorem misses_empty {filled : Cells} {reading : Reading} (empty : filled reading.cell = false) :
    filled.misses [reading] = [reading] := by
  rw [misses, empty, if_neg Bool.false_ne_true, misses]

theorem misses_known {filled : Cells} {reading : Reading} (known : filled reading.cell = true) :
    filled.misses [reading] = [] := by
  rw [misses, known, if_pos rfl, misses]

/-- A read whose cell holds a value does not change what is filled. -/
theorem after_known {filled : Cells} {reading : Reading} (known : filled reading.cell = true) :
    filled.after [reading] = filled := by
  funext cell
  unfold after
  by_cases same : reading.cell = cell
  · rw [← same, known, Bool.true_or]
  · simp [same]

theorem after_succeeded {filled : Cells} {reading : Reading}
    (succeeds : reading.succeeds = true) :
    filled.after [reading] = fun cell => filled cell || reading.cell == cell := by
  funext cell
  simp [after, succeeds]

/-- A read that fails fills nothing. -/
theorem after_failed {filled : Cells} {reading : Reading} (fails : reading.succeeds = false) :
    filled.after [reading] = filled := by
  funext cell
  simp [after, fails]

/-- None of the reads fills the cell of another one. -/
theorem after_apart {filled : Cells} {log : List Reading} {cell : Nat × Nat}
    (empty : filled cell = false) (apart : ∀ reading ∈ log, reading.cell ≠ cell) :
    filled.after log cell = false := by
  unfold after
  rw [empty, Bool.false_or, List.any_eq_false]
  intro reading among
  simp [apart reading among]

theorem misses_append (filled : Cells) (log further : List Reading) :
    filled.misses (log ++ further) =
      filled.misses log ++ (filled.after log).misses further := by
  induction log generalizing filled with
  | nil => rw [List.nil_append, after_nil, misses, List.nil_append]
  | cons reading rest induction =>
      have split := after_append filled [reading] rest
      rw [List.singleton_append] at split
      rw [List.cons_append, misses, misses, split]
      cases known : filled reading.cell with
      | true => rw [if_pos rfl, if_pos rfl, induction, after_known known]
      | false =>
          rw [if_neg Bool.false_ne_true, if_neg Bool.false_ne_true, induction, List.cons_append]

end Cells

/-- The context counts an evaluation of this column. -/
def Reading.countsIn (context : Context) (reading : Reading) : Bool :=
  match reading.row with
  | .stored _ _ _ => false
  | .projected _ _ _ own _ _ => own.settings.tapsEnabled && own.id == context.id

namespace Journal

/-- The cells that hold a value. -/
def filled (journal : Journal) : Cells :=
  fun cell => (journal.remembered? cell.1 cell.2).isSome

/-- How many evaluations of columns the context counted. -/
def evaluations (journal : Journal) (context : Context) : Nat :=
  ((journal.of context).taps.get "project.evaluate").count

/-- The second journal is what the reads made of the first one. -/
structure Reaches (census : Census) (journal : Journal) (log : List Reading)
    (after : Journal) : Prop where
  faithful : after.Faithful census
  filled : after.filled = journal.filled.after log
  counted : ∀ context, after.evaluations context =
    journal.evaluations context + (journal.filled.misses log).countP (·.countsIn context)

variable {census : Census} {journal between after : Journal} {log further : List Reading}

theorem Reaches.self (faithful : journal.Faithful census) :
    journal.Reaches census [] journal where
  faithful := faithful
  filled := (journal.filled.after_nil).symm
  counted := fun _ => rfl

theorem Reaches.trans (first : journal.Reaches census log between)
    (second : between.Reaches census further after) :
    journal.Reaches census (log ++ further) after where
  faithful := second.faithful
  filled := by rw [second.filled, first.filled, Cells.after_append]
  counted := fun context => by
    rw [second.counted, first.counted, first.filled, Cells.misses_append, List.countP_append,
      Nat.add_assoc]

theorem evaluations_tap (journal : Journal) (own context : Context) :
    (journal.tap own "project.evaluate").evaluations context =
      journal.evaluations context +
        if own.settings.tapsEnabled && own.id == context.id then 1 else 0 := by
  unfold tap
  cases enabled : own.settings.tapsEnabled with
  | false => rfl
  | true =>
      rw [if_pos rfl, evaluations, of_change]
      by_cases same : own.id = context.id
      · simp [same, Taps.get_record_same, evaluations]
      · simp [same, evaluations]

theorem evaluations_warn (journal : Journal) (own context : Context) (message : String) :
    (journal.warn own message).evaluations context = journal.evaluations context := by
  rw [warn, evaluations, of_change]
  split
  · split <;> rfl
  · rfl

theorem filled_tap (journal : Journal) (own : Context) (name : String) :
    (journal.tap own name).filled = journal.filled := by
  unfold tap
  split <;> rfl

theorem Faithful.tap (faithful : journal.Faithful census) (own : Context) (name : String) :
    (journal.tap own name).Faithful census := by
  unfold Journal.tap
  split <;> exact faithful

end Journal

/-- The step has this outcome and takes these reads, in every faithful journal. -/
def Logs {result : Type} (census : Census) (action : Action Journal result)
    (outcome : Except Interrupt result) (log : Cells → List Reading) : Prop :=
  ∀ journal, journal.Faithful census → (action.run journal).1 = outcome ∧
    journal.Reaches census (log journal.filled) (action.run journal).2

section Rules

variable {result other : Type} {census : Census}

theorem logs_pure (value : result) :
    Logs census (pure value : Action Journal result) (.ok value) fun _ => [] :=
  fun _ faithful => ⟨rfl, Journal.Reaches.self faithful⟩

/-- The reads of the second step come after those of the first one, if there is a second step. -/
def followed (outcome : Except Interrupt other) (log : Cells → List Reading)
    (further : other → Cells → List Reading) : Cells → List Reading :=
  fun filled =>
    log filled ++
      match outcome with
      | .ok value => further value (filled.after (log filled))
      | .error _ => []

theorem logs_bind {action : Action Journal other} {next : other → Action Journal result}
    {outcome : Except Interrupt other} {last : other → Except Interrupt result}
    {log : Cells → List Reading} {further : other → Cells → List Reading}
    (first : Logs census action outcome log)
    (second : ∀ value, Logs census (next value) (last value) (further value)) :
    Logs census (action >>= next) (outcome >>= last) (followed outcome log further) := by
  intro journal faithful
  obtain ⟨same, reached⟩ := first journal faithful
  rw [run_bind]
  revert same reached
  rcases action.run journal with ⟨interrupt | value, between⟩
  · rintro rfl reached
    refine ⟨rfl, ?_⟩
    unfold followed
    rw [List.append_nil]
    exact reached
  · rintro rfl reached
    obtain ⟨ended, further⟩ := second value between reached.faithful
    refine ⟨ended, ?_⟩
    rw [reached.filled] at further
    exact reached.trans further

/-- Without further reads the first step has them all. -/
theorem followed_by_none (outcome : Except Interrupt other) (log : Cells → List Reading) :
    followed outcome log (fun _ _ => []) = log := by
  funext filled
  unfold followed
  cases outcome <;> exact List.append_nil _

theorem logs_at_column {action : Action Journal result} {outcome : Except Interrupt result}
    {log : Cells → List Reading} (logs : Logs census action outcome log) (column : Nat) :
    Logs census (action.atColumn column) (outcome.mapError (·.atColumn column)) log := by
  intro journal faithful
  obtain ⟨same, reached⟩ := logs journal faithful
  rw [run_at_column]
  revert same reached
  rcases action.run journal with ⟨⟨error | _⟩ | value, after⟩ <;> rintro rfl reached <;>
    exact ⟨rfl, reached⟩

/-- The step has one outcome, whatever the journal, and takes no reads. -/
def Unread (census : Census) (action : Action Journal result) : Prop :=
  ∃ outcome, Yields (fun _ => True) action outcome ∧ Logs census action outcome fun _ => []

/-- What is done with the value of a step takes no further reads. -/
theorem unread_after {evaluated read : Action Journal other} {log : Cells → List Reading}
    {next : other → Action Journal result}
    (first : ∃ outcome, Yields (fun _ => True) evaluated outcome ∧ Logs census read outcome log)
    (unread : ∀ value, Unread census (next value)) :
    ∃ outcome, Yields (fun _ => True) (evaluated >>= next) outcome ∧
      Logs census (read >>= next) outcome log := by
  obtain ⟨outcome, yields, logs⟩ := first
  have last := fun value => (unread value).choose_spec
  have together := logs_bind logs fun value => (last value).2
  rw [followed_by_none] at together
  exact ⟨_, yields_bind yields fun value => (last value).1, together⟩

theorem unread_compositional (census : Census) :
    StepRelation.Compositional fun first _ => Unread census first where
  pure := fun value => ⟨_, yields_pure value, logs_pure value⟩
  fail := fun error _ => ⟨_, yields_fail error, fun _ faithful => ⟨rfl, .self faithful⟩⟩
  warn := by
    intro context message
    refine ⟨_, yields_modify fun _ _ => trivial, fun journal faithful => ⟨rfl, ?_⟩⟩
    exact ⟨faithful, (journal.filled.after_nil).symm, fun other =>
      journal.evaluations_warn context other message⟩
  bind := unread_after

end Rules

/-- An outer row is read lazily as it is evaluated, or neither way. -/
inductive Bindings.OuterLogs (census : Census) (bindings : Bindings) (index : Nat) : Prop
  | unbound (lazy : bindings.readOuter index = none) (eager : bindings.eagerOuter index = none)
      (unread : ∀ field, bindings.outerReadings index field = fun _ => [])
  | bound {read : Nat → Action Journal Datum} {evaluated : Nat → Except Interrupt Datum}
      (lazy : bindings.readOuter index = some read)
      (eager : bindings.eagerOuter index = some evaluated)
      (logs : ∀ field,
        Logs census (read field) (evaluated field) (bindings.outerReadings index field))

/-- What is to be known of an outer row is known of the row that is bound. -/
theorem Bindings.outer_logs_of_rows {census : Census} {bindings : Bindings} {index : Nat}
    (rows : ∀ row, bindings.outerRow? index = some row → ∀ field,
      Logs census (row.read field) (row.eager field) (row.readings field)) :
    bindings.OuterLogs census index := by
  have lazy := bindings.read_outer_eq index
  have eager := bindings.eager_outer_eq index
  have readings (field : Nat) := funext fun filled => bindings.outer_readings_eq index field filled
  cases found : bindings.outerRow? index with
  | none =>
      rw [found] at lazy eager
      simp only [found] at readings
      exact .unbound lazy eager readings
  | some row =>
      rw [found] at lazy eager
      simp only [found] at readings
      refine .bound lazy eager fun field => ?_
      rw [readings]
      exact rows row found field

section Expressions

variable {census : Census} {base : Row} {bindings : Bindings}

theorem readings_binary (own : Context) (op : BinaryOp) (left right : Expr) :
    (Expr.binary op left right).readings base own bindings =
      followed (left.value (base.evaluated own bindings)) (left.readings base own bindings)
        fun _ => right.readings base own bindings := by
  funext filled
  unfold Expr.readings followed
  rw [Expr.accesses, Cells.in_turn_append]
  cases left.value (base.evaluated own bindings) <;> rfl

theorem readings_single {own : Context} {expression : Expr} {access : Access}
    (only : expression.accesses (base.evaluated own bindings) = [access]) :
    expression.readings base own bindings = access.readings base bindings := by
  funext filled
  unfold Expr.readings
  rw [only, Cells.in_turn_singleton]

/-- An expression over a row that is read lazily has the value that it has over the evaluated row,
and takes the reads of what it accesses: one case for each form of expression. -/
theorem Expr.logs_eval (own : Context)
    (columns : ∀ index, Logs census (base.read index) (base.eager index) (base.readings index))
    (outers : ∀ index, bindings.OuterLogs census index) (expression : Expr) :
    Yields (fun _ => True) (expression.eval (base.evaluated own bindings))
        (expression.value (base.evaluated own bindings)) ∧
      Logs census (expression.eval (base.scope own bindings))
        (expression.value (base.evaluated own bindings))
        (expression.readings base own bindings) := by
  have parts := unread_compositional census
  -- it is enough to have some outcome, since the value is the outcome from the empty journal
  suffices some : ∃ outcome,
      Yields (fun _ => True) (expression.eval (base.evaluated own bindings)) outcome ∧
        Logs census (expression.eval (base.scope own bindings)) outcome
          (expression.readings base own bindings) by
    obtain ⟨outcome, yields, logs⟩ := some
    obtain rfl : expression.value (base.evaluated own bindings) = outcome := (yields {} trivial).1
    exact ⟨yields, logs⟩
  induction expression with
  | literal value => exact ⟨_, yields_pure value, logs_pure value⟩
  | column index type =>
      refine ⟨base.eager index, yields_of_outcome _, ?_⟩
      rw [readings_single rfl]
      exact columns index
  | parameter index type => exact parts.of_option _ rfl _
  | outer binding field type =>
      rw [readings_single rfl]
      unfold Expr.eval Row.scope Row.evaluated Scope.evaluated Access.readings
      dsimp only
      cases outers binding with
      | unbound lazy eager unread =>
          rw [lazy, eager, unread]
          exact parts.fail _ rfl
      | bound lazy eager logs =>
          rw [lazy, eager]
          exact ⟨_, yields_of_outcome _, logs field⟩
  | binary op left right leftLogs rightLogs =>
      obtain ⟨first, leftYields, leftLogs⟩ := leftLogs
      obtain ⟨second, rightYields, rightLogs⟩ := rightLogs
      have applied := fun one other => (parts.of_value (op.apply one other)).choose_spec
      refine ⟨_, yields_bind leftYields fun one => yields_bind rightYields fun other =>
        (applied one other).1, ?_⟩
      have together := logs_bind leftLogs fun one => logs_bind rightLogs fun other =>
        (applied one other).2
      have value : left.value (base.evaluated own bindings) = first := (leftYields {} trivial).1
      rw [readings_binary, value]
      simp only [followed_by_none] at together
      exact together
  | unary op operand induction =>
      exact unread_after induction fun value => parts.apply_unary own op value
  | cast operand target induction =>
      exact unread_after induction fun value => parts.cast own value target.kind
  | nullTest operand negated induction =>
      exact unread_after induction fun value => parts.pure (Datum.boolean (value.isNull != negated))

end Expressions

/-- The read is of a listed projected row that is no larger than this. -/
structure Reading.Below (census : Census) (size : Nat) (reading : Reading) : Prop where
  known : census reading.row.id = some reading.row
  listed : reading.row.Listed census
  bounded : sizeOf reading.row ≤ size

section Nested

variable {census : Census}

theorem Reading.Below.within {size larger : Nat} {reading : Reading}
    (below : reading.Below census size) (within : size ≤ larger) : reading.Below census larger :=
  ⟨below.known, below.listed, Nat.le_trans below.bounded within⟩

theorem Bindings.outer_row_smaller {bindings : Bindings} {index : Nat} {row : Row}
    (found : bindings.outerRow? index = some row) : sizeOf row ≤ sizeOf bindings := by
  refine @Bindings.outer_row_holds (fun part => sizeOf part ≤ sizeOf bindings)
    (fun part => sizeOf part ≤ sizeOf bindings) ?nested ?parameter ?outer index row bindings
    (Nat.le_refl _) found
  case nested =>
    intro id parent
    simp only [Bindings.nested.sizeOf_spec]
    omega
  case parameter =>
    intro index value rest
    simp only [Bindings.parameter.sizeOf_spec]
    omega
  case outer =>
    intro index row rest
    simp only [Bindings.outer.sizeOf_spec]
    omega

theorem Expr.readings_below {base : Row} {bindings : Bindings} (own : Context)
    (columns : ∀ index filled, ∀ reading ∈ base.readings index filled,
      reading.Below census (sizeOf base))
    (outers : ∀ index row, bindings.outerRow? index = some row → ∀ field filled,
      ∀ reading ∈ row.readings field filled, reading.Below census (sizeOf row))
    (expression : Expr) (filled : Cells) :
    ∀ reading ∈ expression.readings base own bindings filled,
      reading.Below census (sizeOf base + sizeOf bindings) := by
  refine Cells.forall_in_turn (fun access _ filled reading among => ?_) filled
  cases access with
  | column index => exact (columns index filled reading among).within (Nat.le_add_right _ _)
  | outer binding field =>
      change reading ∈ bindings.outerReadings binding field filled at among
      rw [Bindings.outer_readings_eq] at among
      cases found : bindings.outerRow? binding with
      | none =>
          rw [found] at among
          cases among
      | some row =>
          rw [found] at among
          have smaller := Bindings.outer_row_smaller found
          exact (outers binding row found field filled reading among).within (by omega)

/-- All reads that a read takes are of rows that it can reach: by induction on the rows that are
read. -/
theorem Row.readings_below (row : Row) (listed : row.Listed census) (column : Nat)
    (filled : Cells) :
    ∀ reading ∈ row.readings column filled, reading.Below census (sizeOf row) := by
  induction row using Row.induction generalizing column filled with
  | stored id type values =>
      unfold Row.readings
      exact List.forall_mem_nil _
  | projected id type base context bindings columns ofBase ofRows =>
      have own : Reading.Below census (sizeOf (Row.projected id type base context bindings columns))
          ⟨.projected id type base context bindings columns, column⟩ :=
        ⟨listed.1, listed, Nat.le_refl _⟩
      obtain ⟨_, below, bound⟩ := listed
      cases found : columns[column]? with
      | none =>
          rw [Row.readings_missing found]
          exact List.forall_mem_nil _
      | some expression =>
          rw [Row.readings_found found]
          split
          · exact List.forall_mem_singleton.mpr own
          · refine List.forall_mem_append.mpr ⟨?_, List.forall_mem_singleton.mpr own⟩
            intro reading among
            have outers (index : Nat) (row : Row) (outer : bindings.outerRow? index = some row) :=
              ofRows index row outer (bindings.listed_outer_row bound outer)
            refine (Expr.readings_below context (ofBase below) outers expression filled reading
              among).within ?_
            simp only [Row.projected.sizeOf_spec]
            omega

section Reading

variable {id column : Nat} {type : RowType} {base : Row} {own : Context} {bindings : Bindings}
  {columns : List Expr} {expression : Expr} {journal between : Journal}

theorem Journal.Faithful.remember {row : Row} {value : Datum} (faithful : journal.Faithful census)
    (known : census id = some row) (means : row.meaning column = .ok value) :
    (journal.remember id column value).Faithful census := by
  obtain ⟨context, uncancelled⟩ := journal.some_context_uncancelled
  have sound : journal.Sound context census := ⟨uncancelled, faithful⟩
  exact (sound.remember known means).faithful

theorem Journal.filled_remember (journal : Journal) (id column : Nat) (value : Datum) :
    (journal.remember id column value).filled =
      fun cell => journal.filled cell || (id, column) == cell := by
  funext ⟨other, field⟩
  unfold filled remember remembered?
  by_cases same : (other, field) = (id, column)
  · cases same
    simp
  · have apart : ((id, column) == (other, field)) = false := beq_false_of_ne (Ne.symm same)
    rw [Table.get_set_other _ _ _ _ same, apart, Bool.or_false]

/-- The evaluation of a column counts once, beside those of the reads that it takes. -/
theorem Journal.Reaches.counted_read {nested : List Reading} {reading : Reading}
    (reached : (journal.tap own "project.evaluate").Reaches census nested between)
    (owned : ∀ context, reading.countsIn context =
      (own.settings.tapsEnabled && own.id == context.id))
    (empty : journal.filled.after nested reading.cell = false) (context : Context) :
    between.evaluations context = journal.evaluations context +
      (journal.filled.misses (nested ++ [reading])).countP (·.countsIn context) := by
  rw [reached.counted, journal.evaluations_tap, journal.filled_tap, Cells.misses_append,
    List.countP_append, Cells.misses_empty empty, List.countP_singleton, owned]
  omega

/-- What an expression reads over a row and under a binding is not the row that it is a column
of. -/
theorem expression_reads_apart
    (listed : (Row.projected id type base own bindings columns).Listed census)
    (expression : Expr) (filled : Cells) :
    ∀ reading ∈ expression.readings base own bindings filled, reading.cell ≠ (id, column) := by
  intro reading among same
  have outers (index : Nat) (row : Row) (found : bindings.outerRow? index = some row) :=
    row.readings_below (bindings.listed_outer_row listed.2.2 found)
  obtain ⟨known, -, bounded⟩ := Expr.readings_below own (base.readings_below listed.2.1) outers
    expression filled reading among
  rw [show reading.row.id = id from congrArg Prod.fst same, listed.1] at known
  have whole := congrArg sizeOf (Option.some.inj known)
  rw [Row.projected.sizeOf_spec] at whole
  omega

/-- A column is read as it is evaluated, if its expression is. -/
theorem logs_read_projected
    (listed : (Row.projected id type base own bindings columns).Listed census)
    (found : columns[column]? = some expression)
    (evaluates : Logs census (expression.eval (base.scope own bindings))
      (expression.value (base.evaluated own bindings)) (expression.readings base own bindings)) :
    Logs census ((Row.projected id type base own bindings columns).read column)
      ((Row.projected id type base own bindings columns).eager column)
      ((Row.projected id type base own bindings columns).readings column) := by
  have computes := logs_at_column evaluates column
  rw [← Row.eager_found found] at computes
  rw [read_projected found]
  have means : (Row.projected id type base own bindings columns).meaning column =
      (Row.projected id type base own bindings columns).eager column := by
    obtain ⟨same, -⟩ := computes _ ((Journal.faithful_empty).tap own "project.evaluate")
    rw [Row.meaning, read_projected found, read_once_new rfl, ← same]
    rcases (Action.atColumn column (expression.eval (base.scope own bindings))).run
      (Journal.tap {} own "project.evaluate") with ⟨_ | _, _⟩ <;> rfl
  intro journal faithful
  rw [Row.readings_found found]
  cases remembered : journal.remembered? id column with
  | some value =>
      obtain ⟨row, known, meaning⟩ := faithful id column value remembered
      obtain rfl := Option.some.inj (listed.1.symm.trans known)
      have filled : journal.filled (id, column) = true := by rw [Journal.filled, remembered]; rfl
      rw [if_pos filled, read_once_known remembered]
      refine ⟨meaning.symm.trans means, faithful, (Cells.after_known filled).symm, fun context => ?_⟩
      rw [Cells.misses_known filled]
      rfl
  | none =>
      have empty : journal.filled (id, column) = false := by rw [Journal.filled, remembered]; rfl
      have apart := Cells.after_apart empty (expression_reads_apart listed expression journal.filled)
      obtain ⟨same, reached⟩ := computes _ (faithful.tap own "project.evaluate")
      rw [if_neg (by rw [empty]; exact Bool.false_ne_true), read_once_new remembered]
      rw [journal.filled_tap] at reached
      revert same reached
      rcases (Action.atColumn column (expression.eval (base.scope own bindings))).run
        (journal.tap own "project.evaluate") with ⟨interrupt | value, between⟩
      · intro same reached
        refine ⟨same, reached.faithful, ?_, reached.counted_read (fun _ => rfl) apart⟩
        have fails : Reading.succeeds ⟨.projected id type base own bindings columns, column⟩ =
            false := by rw [Reading.succeeds, Reading.outcome, ← same]; rfl
        rw [reached.filled, journal.filled_tap, Cells.after_append, Cells.after_failed fails]
      · intro same reached
        refine ⟨same, reached.faithful.remember listed.1 (means.trans same.symm), ?_,
          reached.counted_read (fun _ => rfl) apart⟩
        have succeeds : Reading.succeeds ⟨.projected id type base own bindings columns, column⟩ =
            true := by rw [Reading.succeeds, Reading.outcome, ← same]; rfl
        rw [Journal.filled_remember, reached.filled, journal.filled_tap, Cells.after_append,
          Cells.after_succeeded succeeds]
        rfl

end Reading

/-- Every read of a listed row has the outcome of the evaluated row and takes the reads that it is
said to take: by induction on the rows that are read. -/
theorem Row.logs_read (row : Row) (listed : row.Listed census) (column : Nat) :
    Logs census (row.read column) (row.eager column) (row.readings column) := by
  induction row using Row.induction generalizing column with
  | stored id type values =>
      intro journal faithful
      obtain ⟨same, after⟩ := yields_index (· = journal) values column journal rfl
      rw [read_stored, same, after]
      unfold Row.eager Row.readings
      exact ⟨rfl, .self faithful⟩
  | projected id type base own bindings columns ofBase ofRows =>
      cases found : columns[column]? with
      | none =>
          intro journal faithful
          rw [read_outside found, Row.eager_missing found, Row.readings_missing found]
          exact ⟨rfl, .self faithful⟩
      | some expression =>
          refine logs_read_projected listed found (expression.logs_eval own ?_ ?_).2
          · exact ofBase listed.2.1
          · exact fun index => Bindings.outer_logs_of_rows fun row outer =>
              ofRows index row outer (bindings.listed_outer_row listed.2.2 outer)

theorem Bindings.outer_logs (bindings : Bindings) (listed : bindings.Listed census) (index : Nat) :
    bindings.OuterLogs census index :=
  Bindings.outer_logs_of_rows fun row found =>
    row.logs_read (bindings.listed_outer_row listed found)

end Nested

end QueryExec
