import QueryExec.Proofs.Reference
import QueryExec.Proofs.Tandem.Plans

/-!
The two cast error modes. An execution in which failed casts are warnings goes along with the one
in which they are fatal until a cast fails; then the strict one stops with an error and the lenient
one has a warning, which it keeps. So the mode shows exactly where a cast fails.
-/

namespace QueryExec

open QueryExec.Action QueryExec.Regime

/-- The same context, except that failed casts are fatal. -/
def Context.strict (context : Context) : Context :=
  { context with settings := { context.settings with castErrorsFatal := true } }

/-- The outer rows of a binding have their values. -/
def Bindings.Materialised : Bindings → Prop
  | .root _ => True
  | .nested _ parent => parent.Materialised
  | .parameter _ _ rest => rest.Materialised
  | .outer _ row rest => row.isStored = true ∧ rest.Materialised

/-- Rows that stand for each other in the two modes: they differ in the context under which their
columns are computed. -/
inductive Row.Moded (context : Context) : Row → Row → Prop
  | stored (id : Nat) (type : RowType) (values : List Datum) :
      Moded context (.stored id type values) (.stored id type values)
  | projected {id : Nat} {type : RowType} {base other : Row} {bindings : Bindings}
      {columns : List Expr} (below : Moded context base other)
      (bound : bindings.Materialised) :
      Moded context (.projected id type base context bindings columns)
        (.projected id type other context.strict bindings columns)

section Operators

theorem Arithmetic.on_whole_error_plain {op : Arithmetic} {width : Width} {left right : Int}
    {cause : ValueError} (failed : op.onWhole width left right = .error cause) :
    (Interrupt.failed (.value none cause)).isCast = false := by
  unfold Arithmetic.onWhole at failed
  cases op <;> dsimp only at failed
  case div | mod =>
    split at failed
    · cases failed
      rfl
    · split at failed <;> cases failed
      rfl
  all_goals
    split at failed <;> cases failed
    rfl

theorem Arithmetic.on_floating_error_plain {op : Arithmetic} {precision : Precision}
    {left right : Floating .binary64} {cause : ValueError}
    (failed : op.onFloating precision left right = .error cause) :
    (Interrupt.failed (.value none cause)).isCast = false := by
  unfold Arithmetic.onFloating at failed
  cases op <;> dsimp only at failed
  case div | mod =>
    split at failed
    · cases failed
      rfl
    · split at failed
      · cases failed
        rfl
      · cases precision <;> cases failed
  all_goals
    split at failed
    · cases failed
      rfl
    · cases precision <;> cases failed

theorem Arithmetic.apply_error_plain {op : Arithmetic} {left right : Datum} {cause : ValueError}
    (failed : op.apply left right = .error cause) :
    (Interrupt.failed (.value none cause)).isCast = false := by
  unfold Arithmetic.apply at failed
  split at failed
  · exact on_whole_error_plain failed
  · split at failed
    · exact on_floating_error_plain failed
    · cases failed
      rfl

theorem Comparison.apply_error_plain {op : Comparison} {left right : Datum} {cause : ValueError}
    (failed : op.apply left right = .error cause) :
    (Interrupt.failed (.value none cause)).isCast = false := by
  unfold Comparison.apply at failed
  split at failed <;> cases failed
  rfl

theorem Datum.truth_error_plain {value : Datum} {cause : ValueError}
    (failed : value.truth? = .error cause) :
    (Interrupt.failed (.value none cause)).isCast = false := by
  unfold Datum.truth? at failed
  split at failed <;> cases failed
  rfl

/-- Operators on values do not convert them. -/
theorem BinaryOp.apply_error_plain {op : BinaryOp} {left right : Datum} {cause : ValueError}
    (failed : op.apply left right = .error cause) :
    (Interrupt.failed (.value none cause)).isCast = false := by
  cases op with
  | arithmetic op =>
      simp only [BinaryOp.apply] at failed
      split at failed
      · cases failed
      · exact Arithmetic.apply_error_plain failed
  | comparison op =>
      simp only [BinaryOp.apply] at failed
      split at failed
      · cases failed
      · exact Comparison.apply_error_plain failed
  | connective op =>
      unfold BinaryOp.apply at failed
      cases first : left.truth? with
      | error other =>
          rw [first] at failed
          cases failed
          exact Datum.truth_error_plain first
      | ok known =>
          cases second : right.truth? with
          | error other =>
              rw [first, second] at failed
              cases failed
              exact Datum.truth_error_plain second
          | ok other =>
              rw [first, second] at failed
              cases failed

theorem Datum.negate_error_plain {value : Datum} {cause : ValueError}
    (failed : value.negate = .error cause) :
    (Interrupt.failed (.value none cause)).isCast = false := by
  unfold Datum.negate at failed
  split at failed
  · cases failed
  · cases failed
  · split at failed <;> cases failed
    rfl
  · cases failed
    rfl

theorem Datum.invert_error_plain {value : Datum} {cause : ValueError}
    (failed : value.invert = .error cause) :
    (Interrupt.failed (.value none cause)).isCast = false := by
  unfold Datum.invert at failed
  cases truth : value.truth? with
  | error other =>
      rw [truth] at failed
      cases failed
      exact truth_error_plain truth
  | ok known =>
      rw [truth] at failed
      cases failed

end Operators

theorem Row.moded_of_stored {row : Row} (stored : row.isStored = true) (context : Context) :
    row.Moded context row := by
  cases row with
  | stored id type values => exact .stored id type values
  | projected id type base own bindings columns => cases stored

namespace Context

variable {context : Context}

/-- The lenient run beside the strict one: no warning while they are together, some warning once the
strict one has stopped. -/
def modes (context : Context) (leaves : Store → Except QueryError (List Row)) : Regime where
  World := Unit
  Within := fun _ _ => True
  calm := fun interrupt => interrupt.isCast = false
  parts := True
  first := context
  second := context.strict
  journal := fun _ company journal =>
    company = .together ↔ (journal.of context).warnings = []
  rest := fun _ engine =>
    ∀ rows, leaves engine.store = .ok rows → ∀ row ∈ rows, row.isStored = true
  rows := fun _ => Row.Moded context
  bound := fun _ bindings => bindings.Materialised
  value := fun _ _ _ => True
  made := fun _ _ => True

variable {leaves : Store → Except QueryError (List Row)} {parts : Prop}

theorem catalog_strict (context : Context) : context.strict.catalog = context.catalog :=
  rfl

theorem reads_of_value {result : Type} {outcome : Except ValueError result}
    (plain : ∀ cause, outcome = .error cause →
      (Interrupt.failed (.value none cause)).isCast = false) :
    (context.modes leaves).Reads () parts (ofValue outcome) (ofValue outcome) Eq := by
  cases outcome with
  | ok value => exact reads_pure rfl
  | error cause => exact reads_fail (plain cause rfl)

theorem reads_tap (name : String) :
    (context.modes leaves).Reads () parts (context.tap name) (context.strict.tap name)
      fun _ _ => True := by
  refine reads_modify fun company journal held => ?_
  change company = .together ↔ ((journal.tap context name).of context).warnings = []
  rw [Journal.warnings_tap]
  exact held

theorem reads_check_cancelled :
    (context.modes leaves).Reads () parts context.checkCancelled context.strict.checkCancelled
      fun _ _ => True := by
  apply reads_look
  intro journal
  change (context.modes leaves).Reads () parts
    (if (journal.of context).cancelled then fail .cancelled else pure ())
    (if (journal.of context).cancelled then fail .cancelled else pure ()) fun _ _ => True
  split
  · exact reads_fail rfl
  · exact reads_pure trivial

section Recovering

variable (lenient : context.settings.castErrorsFatal = false)
  (keeps : 1 ≤ context.settings.maxWarnings)

include lenient keeps

omit lenient in
/-- A warning is kept where there was none, and where there were some there still are. -/
theorem warnings_present (journal : Journal) (message : String) :
    ((journal.warn context message).of context).warnings ≠ [] := by
  rw [Journal.warnings_warn]
  split
  next => simp
  next full =>
    intro empty
    rw [empty] at full
    simp only [List.length_nil] at full
    omega

/-- Where a cast fails the strict run stops and the lenient one has a warning. -/
theorem reads_recover (cause : CastError) :
    (context.modes leaves).Reads () True (context.recover cause) (context.strict.recover cause)
      fun _ _ => True := by
  have warns : context.recover cause = context.warn cause.message := by
    unfold recover
    rw [if_neg (by simp [lenient])]
  have stops : context.strict.recover cause = fail (.cast cause) :=
    if_pos rfl
  intro company left right held
  rw [warns, stops]
  refine tandem_part trivial rfl ⟨(), right, ⟨nofun, ?_⟩, trivial⟩
  change Company.alone = .together ↔
    ((left.warn context cause.message).of context).warnings = []
  simp [warnings_present keeps]

theorem reads_cast (value : Datum) (target : Kind) :
    (context.modes leaves).Reads () True (context.cast value target)
      (context.strict.cast value target) Eq := by
  unfold cast
  rw [catalog_strict]
  cases context.catalog.convert value target with
  | ok converted => exact reads_pure rfl
  | error cause =>
      exact reads_bind (reads_recover lenient keeps cause) fun _ _ _ => reads_pure rfl

theorem reads_bit_pattern (value : Datum) :
    (context.modes leaves).Reads () True (context.bitPattern value)
      (context.strict.bitPattern value) Eq := by
  have ofInteger (value : Datum) : (context.modes leaves).Reads () True
      (context.patternOfInteger value) (context.strict.patternOfInteger value) Eq := by
    unfold patternOfInteger
    rw [catalog_strict]
    rcases context.catalog.convert value .bigint with cause | converted
    · exact reads_bind (reads_recover lenient keeps cause) fun _ _ _ => reads_pure rfl
    · cases converted with
      | whole width number => cases width <;> exact reads_pure rfl
      | _ => exact reads_pure rfl
  unfold bitPattern
  split
  · exact reads_pure rfl
  all_goals exact ofInteger _

theorem reads_apply_unary (op : UnaryOp) (value : Datum) :
    (context.modes leaves).Reads () True (context.applyUnary op value)
      (context.strict.applyUnary op value) Eq := by
  cases op with
  | neg => exact reads_of_value fun cause failed => Datum.negate_error_plain failed
  | not => exact reads_of_value fun cause failed => Datum.invert_error_plain failed
  | complement =>
      unfold applyUnary
      dsimp only
      split
      · exact reads_pure rfl
      · refine reads_bind (reads_bit_pattern lenient keeps value) ?_
        rintro pattern _ rfl
        exact reads_pure rfl
  | popCount =>
      unfold applyUnary
      dsimp only
      split
      · exact reads_pure rfl
      · refine reads_bind (reads_bit_pattern lenient keeps value) ?_
        rintro pattern _ rfl
        exact reads_pure rfl

/-- Conversions are the only place where the mode is consulted: by induction on the expression. -/
theorem reads_eval {left right : Row} {bindings : Bindings}
    (columns : ∀ index,
      (context.modes leaves).Reads () True (left.read index) (right.read index) Eq)
    (fields : ∀ binding read, bindings.readOuter binding = some read → ∀ field,
      (context.modes leaves).Reads () True (read field) (read field) Eq)
    (expression : Expr) :
    (context.modes leaves).Reads () True (expression.eval (left.scope context bindings))
      (expression.eval (right.scope context.strict bindings)) Eq := by
  induction expression with
  | literal value => exact reads_pure rfl
  | column index type => exact columns index
  | parameter index type =>
      unfold Expr.eval Row.scope
      dsimp only
      cases bindings.parameter? index with
      | some value => exact reads_pure rfl
      | none => exact reads_fail rfl
  | outer binding field type =>
      unfold Expr.eval Row.scope
      dsimp only
      cases found : bindings.readOuter binding with
      | some read => exact fields binding read found field
      | none => exact reads_fail rfl
  | binary op left right evaluatesLeft evaluatesRight =>
      refine reads_bind evaluatesLeft ?_
      rintro first _ rfl
      refine reads_bind evaluatesRight ?_
      rintro second _ rfl
      exact reads_of_value fun cause failed => BinaryOp.apply_error_plain failed
  | unary op operand induction =>
      refine reads_bind induction ?_
      rintro value _ rfl
      exact reads_apply_unary lenient keeps op value
  | cast operand target induction =>
      refine reads_bind induction ?_
      rintro value _ rfl
      exact reads_cast lenient keeps value target.kind
  | nullTest operand negated induction =>
      refine reads_bind induction ?_
      rintro value _ rfl
      exact reads_pure rfl

omit lenient keeps in
theorem reads_stored (id : Nat) (type : RowType) (values : List Datum) (column : Nat) :
    (context.modes leaves).Reads () parts ((Row.stored id type values).read column)
      ((Row.stored id type values).read column) Eq := by
  rw [read_stored]
  exact reads_imp (reads_index rfl values column) fun _ _ => And.left

omit lenient keeps in
/-- The mode does not matter to a row that has its values. -/
theorem reads_outer (bindings : Bindings) (bound : bindings.Materialised) (binding : Nat)
    (read : Nat → Action Journal Datum) (found : bindings.readOuter binding = some read)
    (field : Nat) : (context.modes leaves).Reads () parts (read field) (read field) Eq := by
  obtain ⟨row, present, rfl⟩ := Bindings.read_outer_row found
  have stored : row.isStored = true :=
    Bindings.outer_row_holds (fun held => held) (fun held => held) (fun held => held) bindings
      bound present
  cases row with
  | stored id type values => exact reads_stored id type values field
  | projected id type base own below columns => cases stored

/-- A column that was computed is remembered in both modes; otherwise it is computed in both: by
induction on the rows below. -/
theorem reads_read {left right : Row} (moded : left.Moded context right) (column : Nat) :
    (context.modes leaves).Reads () True (left.read column) (right.read column) Eq := by
  induction moded generalizing column with
  | stored id type values => exact reads_stored id type values column
  | @projected id type base other bindings columns below bound induction =>
      cases found : columns[column]? with
      | none =>
          rw [read_outside found, read_outside found]
          exact fun _ _ _ held => tandem_throw rfl held
      | some expression =>
          rw [read_projected found, read_projected found]
          apply reads_look
          intro journal
          split
          next value known => exact reads_pure rfl
          next =>
            refine reads_bind (reads_tap _) fun _ _ _ => ?_
            have evaluates := reads_eval lenient keeps induction (reads_outer bindings bound)
              expression
            refine reads_bind (reads_at_column column ?_ evaluates) ?_
            · intro error calm
              cases error with
              | cast cause => cases calm
              | value scope cause => cases scope <;> cases cause <;> first | rfl | cases calm
              | _ => rfl
            · rintro value _ rfl
              exact reads_bind (reads_modify fun _ _ held => held) fun _ _ _ => reads_pure rfl

end Recovering

/-- Rows of the two modes are made without more ado. -/
theorem pairs_make_moded {make making : Nat → Row}
    (moded : ∀ id, (make id).Moded context (making id)) :
    (context.modes leaves).Pairs (context.modes leaves).Engines () parts
      (return make (← Engine.freshId)) (return making (← Engine.freshId))
      (context.modes leaves).rows :=
  pairs_make fun engine rest => ⟨(), trivial, fun _ _ held => held, rest, moded engine.nextId⟩

section Plans

variable (lenient : context.settings.castErrorsFatal = false)
  (keeps : 1 ≤ context.settings.maxWarnings)

include lenient keeps

theorem modes_lawful : (context.modes leaves).Lawful where
  refl := fun _ => trivial
  trans := fun _ _ => trivial
  calm := fun _ plain => plain
  catalog := rfl
  rows_later := fun _ moded => moded
  rows_type := fun moded => by cases moded <;> rfl
  bound_later := fun _ bound => bound
  bound_empty := fun _ => trivial
  rest_journal := fun _ stored => stored
  rest_noted := fun _ stored => stored
  new_row := fun _ type values _ => pairs_make_moded fun id => .stored id type values
  tap := fun _ => reads_tap
  check := fun _ => reads_check_cancelled
  read := fun column moded =>
    reads_imp (reads_read lenient keeps moded column) fun _ _ same => ⟨same, trivial⟩

/-- Every plan runs in both modes: by induction on the plan. -/
theorem modes_admits (plan : Plan) :
    (context.modes fun store => plan.leafRows store).Admits plan := by
  have evaluates (leaves : Store → Except QueryError (List Row)) (predicate : Expr)
      (left right : Row) (bindings : Bindings) (moded : left.Moded context right)
      (bound : bindings.Materialised) :
      (context.modes leaves).Reads () True (predicate.eval (left.scope context bindings))
        (predicate.eval (right.scope context.strict bindings)) Eq :=
    reads_eval lenient keeps (reads_read lenient keeps moded) (reads_outer bindings bound) predicate
  induction plan with
  | values slice type rows => exact .values
  | table name type =>
      refine .table fun _ engine table stored found row member => ?_
      have listed : (Plan.table name type).leafRows engine.store = .ok table.rows := by
        unfold Plan.leafRows
        rw [found]
        rfl
      exact Row.moded_of_stored (stored table.rows listed row member) context
  | filter input predicate induction =>
      exact .filter induction fun _ left right bindings moded _ bound =>
        evaluates _ predicate left right bindings moded bound
  | project input type columns induction =>
      exact .project induction fun _ left right bindings moded _ bound =>
        pairs_make_moded fun _ => .projected moded bound
  | aggregate input type keys aggregates induction =>
      exact .aggregate induction (fun _ => True) (fun _ => True)
        { value := fun _ _ _ => trivial
          key := fun _ => trivial
          reset := fun _ => trivial
          takes := fun _ _ _ => trivial
          result := fun _ _ => trivial
          empty := fun _ _ => trivial } fun _ _ => trivial
  | limit input offset limit? induction => exact .limit induction

end Plans

end Context

/-- The rows that a plan brings along are the rows of its leaf. -/
theorem Plan.supply_listed {plan : Plan} (store : Store) {row : Row} (member : row ∈ plan.supply) :
    ∃ rows, plan.leafRows store = .ok rows ∧ row ∈ rows := by
  induction plan with
  | values slice type rows => exact ⟨rows, rfl, member⟩
  | table name type => cases member
  | filter input predicate induction => exact induction member
  | project input type columns induction => exact induction member
  | aggregate input type keys aggregates induction => exact induction member
  | limit input offset limit? induction => exact induction member

/-- What the outcome of a lenient run says about that of the strict one, and the other way round. -/
structure Context.Agrees {result : Type} (context : Context)
    (lenient strict : Except Interrupt result × Engine) : Prop where
  /-- A strict run that succeeds answers what the lenient one does, which had nothing to warn of. -/
  succeeds : ∀ value, strict.1 = .ok value →
    lenient.1 = .ok value ∧ (lenient.2.journal.of context).warnings = []
  /-- A lenient run without a warning ends as the strict one. -/
  silent : (lenient.2.journal.of context).warnings = [] → strict.1 = lenient.1
  /-- A failed cast does not stop the lenient run. -/
  uncast : ∀ interrupt, lenient.1 = .error interrupt → interrupt.isCast = false

namespace Plan

variable {context : Context} {engine : Engine} {plan : Plan}

/-- The runs are together without a warning, or the strict one has failed beside a warning. -/
theorem agrees_of_pairs {result : Type} {leaves : Store → Except QueryError (List Row)}
    {lenient strict : Action Engine result}
    (pairs : (context.modes leaves).Pairs (context.modes leaves).Engines () True lenient strict
      fun _ => Eq)
    (quiet : (engine.journal.of context).warnings = [])
    (stored : (context.modes leaves).rest () engine) :
    context.Agrees (lenient.run engine) (strict.run engine) := by
  have start : (context.modes leaves).Engines () .together engine engine :=
    ⟨fun _ => rfl, iff_of_true rfl quiet, stored⟩
  have ended := pairs .together engine engine start
  unfold Ends Tandem at ended
  revert ended
  rcases lenient.run engine with ⟨interrupt | value, after⟩ <;>
    rcases strict.run engine with ⟨same | partner, last⟩
  · rintro (⟨rfl, calm, _, _, halted⟩ | ⟨_, _, calm, _, _, _, halted⟩)
    · have silent : (after.journal.of context).warnings = [] :=
        halted.elim (fun engines => engines.2.1.mp rfl) fun outside => outside.2.mp rfl
      exact ⟨nofun, fun _ => rfl, by rintro _ ⟨⟩; exact calm⟩
    · have warned : (after.journal.of context).warnings ≠ [] := fun silent =>
        nomatch halted.elim (fun engines => engines.2.1.mpr silent) fun outside =>
          outside.2.mpr silent
      exact ⟨nofun, fun silent => absurd silent warned, by rintro _ ⟨⟩; exact calm⟩
  · rintro (impossible | ⟨_, ⟨_, impossible⟩, _⟩)
    · exact impossible.elim
    · cases impossible
  · rintro (impossible | ⟨_, _, _, _, _, _, engines, rfl⟩)
    · exact impossible.elim
    · have warned : (after.journal.of context).warnings ≠ [] := fun silent =>
        nomatch engines.2.1.mpr silent
      exact ⟨nofun, fun silent => absurd silent warned, nofun⟩
  · rintro (⟨_, _, engines, rfl⟩ | ⟨_, ⟨_, impossible⟩, _⟩)
    · exact ⟨by rintro _ ⟨⟩; exact ⟨rfl, engines.2.1.mp rfl⟩, fun _ => rfl, nofun⟩
    · cases impossible

/-- Whether failed casts are fatal only matters to runs in which a cast fails: a plan over rows
that have their values, run for one binding or for several, ends in both modes alike where it
leaves no warning, and where the strict run succeeds it leaves none. -/
theorem modes_agree (lenient : context.settings.castErrorsFatal = false)
    (keeps : 1 ≤ context.settings.maxWarnings)
    (quiet : (engine.journal.of context).warnings = [])
    (materialised : ∀ rows, plan.leafRows engine.store = .ok rows →
      ∀ row ∈ rows, row.isStored = true) :
    (∀ bindings : Bindings, bindings.Materialised →
      context.Agrees ((plan.execute context bindings).run engine)
        ((plan.execute context.strict bindings).run engine)) ∧
    ∀ all : List Bindings, (∀ bindings ∈ all, bindings.Materialised) →
      context.Agrees ((plan.executeEach context all).run engine)
        ((plan.executeEach context.strict all).run engine) := by
  have lawful : (context.modes fun store => plan.leafRows store).Lawful :=
    Context.modes_lawful lenient keeps
  have admits := Context.modes_admits lenient keeps plan
  have supplied : ∀ row ∈ plan.supply, row.Moded context row := by
    intro row member
    obtain ⟨rows, listed, inside⟩ := plan.supply_listed engine.store member
    exact Row.moded_of_stored (materialised rows listed row inside) context
  exact ⟨fun bindings bound => agrees_of_pairs
      (pairs_execute lawful admits supplied bound) quiet materialised,
    fun all bound => agrees_of_pairs
      (pairs_execute_each lawful admits supplied bound) quiet materialised⟩

end Plan

/-! Texts are cast to numbers, of which one is no numeral. -/

namespace Texts

def type : RowType :=
  ⟨0, [.notNull .text]⟩

def rows : List Row :=
  [.stored 1 type [.text "7"], .stored 2 type [.text "x"]]

def numbers : Plan :=
  .project (.values 0 type rows) ⟨1, [⟨.integer, true⟩]⟩
    [.cast (.column 0 (.notNull .text)) ⟨.integer, true⟩]

def engine : Engine :=
  { nextId := 3, nextTypeId := 2 }

def context : Context :=
  ⟨1, .standard, {}⟩

def seven : Datum :=
  .whole .integer ⟨7, by decide, by decide⟩

theorem rows_stored (listed : List Row) (given : numbers.leafRows engine.store = .ok listed) :
    ∀ row ∈ listed, row.isStored = true := by
  cases given
  exact List.forall_mem_cons.mpr ⟨rfl, List.forall_mem_cons.mpr ⟨rfl, nofun⟩⟩

/-- The text that is no numeral stops the strict run and is a warning of the lenient one. -/
theorem numeral_missed :
    ((numbers.execute context .empty).run engine).1.toOption = some [[seven], [.null]] ∧
    ((((numbers.execute context .empty).run engine).2.journal.of context).warnings) =
      ["invalid input syntax for type integer: \"x\""] ∧
    ((numbers.execute context.strict .empty).run engine).1.toOption = none ∧
    context.Agrees ((numbers.execute context .empty).run engine)
      ((numbers.execute context.strict .empty).run engine) := by
  refine ⟨by decide +kernel, by decide +kernel, by decide +kernel, ?_⟩
  exact (Plan.modes_agree rfl (by decide) rfl rows_stored).1 .empty trivial

end Texts

end QueryExec
