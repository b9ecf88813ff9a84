import QueryExec.Proofs.Action.Lockstep
import QueryExec.Proofs.Expr.Finiteness
import QueryExec.Proofs.Row.Lazy

/-!
What evaluation depends on. An expression sees of its scope the columns, parameters and outer fields
that it mentions, and nothing else: scopes that agree on them give the same outcome, warnings
included. A constant expression mentions nothing, so it evaluates alike in all scopes of a context, and
fails neither for want of a row or a value nor for how its scope is put together.
-/

namespace QueryExec

open QueryExec.Action

/-- From related journals both steps have the same outcome and leave related journals. -/
def InStepFrom (related : Journal → Journal → Prop) : StepRelation :=
  fun first second => ∀ left right, related left right → InStep related left right first second

/-- A warning in both journals leaves them related. -/
def Journal.WarnedAlike (related : Journal → Journal → Prop) : Prop :=
  ∀ (context : Context) (message : String) (left right : Journal), related left right →
    related (left.warn context message) (right.warn context message)

theorem in_step_compositional {related : Journal → Journal → Prop}
    (warned : Journal.WarnedAlike related) :
    StepRelation.Compositional (InStepFrom related) where
  pure := fun _ _ _ held => ⟨rfl, held⟩
  fail := fun _ _ _ _ held => ⟨rfl, held⟩
  warn := fun context message left right held => ⟨rfl, warned context message left right held⟩
  bind := fun first second left right held => in_step_bind (first left right held) second

/-- Steps with one outcome each are in step between journals in which they have it. -/
theorem in_step_of_yields {result : Type} {good good' : Journal → Prop}
    {first second : Action Journal result} {outcome : Except Interrupt result}
    (yields : Yields good first outcome) (yields' : Yields good' second outcome) :
    InStepFrom (fun left right => good left ∧ good' right) first second := by
  intro left right held
  obtain ⟨same, kept⟩ := yields left held.1
  obtain ⟨same', kept'⟩ := yields' right held.2
  exact ⟨same.trans same'.symm, kept, kept'⟩

section Failures

/-- Failures of an operator on its operands. -/
def ValueError.isOfOperator : ValueError → Bool
  | divisionByZero => true
  | overflow _ => true
  | typeMismatch _ _ => true
  | unboundParameter _ => false
  | cast _ => false

/-- Failures of operators and of conversions, which no scope is to blame for. -/
def Interrupt.isOfEvaluation : Interrupt → Bool
  | .failed (.value _ cause) => cause.isOfOperator
  | .failed (.cast _) => true
  | _ => false

variable {left right value : Datum} {cause : ValueError}

namespace Arithmetic

variable {op : Arithmetic}

theorem on_whole_fails {width : Width} {first second : Int}
    (failed : op.onWhole width first second = .error cause) : cause.isOfOperator = true := by
  rcases on_whole_error_iff.mp failed with ⟨rfl, -⟩ | ⟨rfl, -⟩ <;> rfl

theorem on_floating_fails {precision : Precision} {first second : Floating .binary64}
    (failed : op.onFloating precision first second = .error cause) :
    cause.isOfOperator = true := by
  rw [on_floating_checked] at failed
  split at failed
  · cases failed
    rfl
  · split at failed <;> cases failed
    rfl

theorem apply_fails (failed : op.apply left right = .error cause) : cause.isOfOperator = true := by
  unfold apply at failed
  split at failed
  · exact on_whole_fails failed
  · split at failed
    · exact on_floating_fails failed
    · cases failed
      rfl

end Arithmetic

theorem Comparison.apply_fails {op : Comparison} (failed : op.apply left right = .error cause) :
    cause.isOfOperator = true := by
  unfold apply at failed
  split at failed <;> cases failed
  rfl

theorem Datum.truth_fails (failed : value.truth? = .error cause) : cause.isOfOperator = true := by
  unfold truth? at failed
  split at failed <;> cases failed
  rfl

theorem BinaryOp.apply_fails {op : BinaryOp} (failed : op.apply left right = .error cause) :
    cause.isOfOperator = true := by
  unfold apply at failed
  split at failed
  next op =>
    cases ofLeft : left.truth? with
    | error own =>
        rw [ofLeft] at failed
        cases failed
        exact Datum.truth_fails ofLeft
    | ok first =>
        cases ofRight : right.truth? with
        | error own =>
            rw [ofLeft, ofRight] at failed
            cases failed
            exact Datum.truth_fails ofRight
        | ok second =>
            rw [ofLeft, ofRight] at failed
            cases failed
  next op =>
    split at failed
    · cases failed
    · exact Arithmetic.apply_fails failed
  next op =>
    split at failed
    · cases failed
    · exact Comparison.apply_fails failed

theorem Datum.negate_fails (failed : value.negate = .error cause) : cause.isOfOperator = true := by
  unfold negate at failed
  split at failed
  · cases failed
  · cases failed
  · split at failed <;> cases failed
    rfl
  · cases failed
    rfl

theorem Datum.invert_fails (failed : value.invert = .error cause) : cause.isOfOperator = true := by
  cases ofTruth : value.truth? with
  | error own =>
      rw [invert, ofTruth] at failed
      cases failed
      exact truth_fails ofTruth
  | ok truth =>
      rw [invert, ofTruth] at failed
      cases failed

end Failures

section Constants

/-- The step fails for reasons of evaluation only. -/
def FailsInEvaluation {result : Type} (action : Action Journal result) : Prop :=
  ∀ start, EndsIn start action (fun _ _ => True) fun interrupt _ => interrupt.isOfEvaluation = true

variable {result other : Type}

theorem fails_pure (value : result) : FailsInEvaluation (pure value) :=
  fun _ => agree_pure value trivial

theorem fails_bind {action : Action Journal other} {next : other → Action Journal result}
    (first : FailsInEvaluation action) (second : ∀ value, FailsInEvaluation (next value)) :
    FailsInEvaluation (action >>= next) :=
  fun start => agree_bind (first start) fun value reached _ => second value reached

theorem fails_of_value {outcome : Except ValueError result}
    (fails : ∀ cause, outcome = .error cause → cause.isOfOperator = true) :
    FailsInEvaluation (ofValue outcome) := by
  cases outcome with
  | ok value => exact fails_pure value
  | error cause => exact fun _ => agree_fail _ (fails cause rfl)

theorem recover_fails (context : Context) (cause : CastError) :
    FailsInEvaluation (context.recover cause) := by
  unfold Context.recover
  split
  · exact fun _ => agree_fail _ rfl
  · exact fun _ => ⟨rfl, trivial⟩

theorem cast_fails (context : Context) (value : Datum) (target : Kind) :
    FailsInEvaluation (context.cast value target) := by
  unfold Context.cast
  split
  · exact fails_pure _
  · exact fails_bind (recover_fails context _) fun _ => fails_pure _

theorem bit_pattern_fails (context : Context) (value : Datum) :
    FailsInEvaluation (context.bitPattern value) := by
  have converted (value : Datum) : FailsInEvaluation (context.patternOfInteger value) := by
    unfold Context.patternOfInteger
    split
    · exact fails_pure _
    · exact fails_pure _
    · exact fails_bind (recover_fails context _) fun _ => fails_pure _
  unfold Context.bitPattern
  split
  · exact fails_pure _
  all_goals exact converted _

theorem apply_unary_fails (context : Context) (op : UnaryOp) (value : Datum) :
    FailsInEvaluation (context.applyUnary op value) := by
  cases op with
  | neg => exact fails_of_value fun _ => Datum.negate_fails
  | not => exact fails_of_value fun _ => Datum.invert_fails
  | complement =>
      simp only [Context.applyUnary]
      split
      · exact fails_pure _
      · exact fails_bind (bit_pattern_fails context value) fun _ => fails_pure _
  | popCount =>
      simp only [Context.applyUnary]
      split
      · exact fails_pure _
      · exact fails_bind (bit_pattern_fails context value) fun _ => fails_pure _

namespace Expr

/-- A constant expression mentions nothing. -/
theorem constant_iff {expression : Expr} :
    expression.isConstant = true ↔ expression.mentions = [] := by
  induction expression with
  | binary op left right ofLeft ofRight =>
      simp only [isConstant, mentions, Bool.and_eq_true, List.append_eq_nil_iff, ofLeft, ofRight]
  | unary op operand induction => exact induction
  | cast operand target induction => exact induction
  | nullTest operand negated induction => exact induction
  | _ => simp [isConstant, mentions]

/-- By induction on the expression, of which no form that reads the scope is constant. -/
theorem constant_fails {expression : Expr} (constant : expression.isConstant = true)
    (scope : Scope) : FailsInEvaluation (expression.eval scope) := by
  induction expression with
  | literal value => exact fails_pure value
  | column index type => cases constant
  | parameter index type => cases constant
  | outer binding field type => cases constant
  | binary op left right ofLeft ofRight =>
      obtain ⟨constLeft, constRight⟩ := Bool.and_eq_true_iff.mp constant
      exact fails_bind (ofLeft constLeft) fun _ => fails_bind (ofRight constRight) fun _ =>
        fails_of_value fun _ => BinaryOp.apply_fails
  | unary op operand induction =>
      exact fails_bind (induction constant) fun value => apply_unary_fails scope.context op value
  | cast operand target induction =>
      exact fails_bind (induction constant) fun value => cast_fails scope.context value target.kind
  | nullTest operand negated induction =>
      exact fails_bind (induction constant) fun _ => fails_pure _

end Expr

end Constants

/-- What an expression sees of a row, or of none, under a binding. -/
def Scope.over (context : Context) (row? : Option Row) (bindings : Bindings) : Scope where
  context
  column := match row? with
    | some row => row.read
    | none => Scope.noRow
  parameter? := bindings.parameter?
  outer? := bindings.readOuter

/-- What a mention refers to over a row and under a binding: a value, why there is none, or nothing at
all. -/
def Mention.sight (row? : Option Row) (bindings : Bindings) :
    Mention → Option (Except Interrupt Datum)
  | .column index => row?.map (·.eager index)
  | .parameter index => (bindings.parameter? index).map .ok
  | .outer binding field => (bindings.eagerOuter binding).map (· field)

section Sights

variable {context : Context} {census census' : Census}

/-- A step that logs its reads has its outcome in all faithful journals. -/
theorem yields_of_logs {result : Type} {action : Action Journal result}
    {outcome : Except Interrupt result} {log : Cells → List Reading}
    (logs : Logs census action outcome log) : Yields (Journal.Faithful census) action outcome :=
  fun journal faithful => ⟨(logs journal faithful).1, (logs journal faithful).2.faithful⟩

/-- Journals that are faithful to the rows of their scopes. -/
abbrev BothFaithful (census census' : Census) (left right : Journal) : Prop :=
  left.Faithful census ∧ right.Faithful census'

theorem faithful_warned : Journal.WarnedAlike (BothFaithful census census') :=
  fun _ _ _ _ held => held

variable {row? row'? : Option Row} {bindings bindings' : Bindings}

/-- Where a mention refers to the same value it is read in step, whatever was read before. -/
theorem agree_of_sight (listed : ∀ row ∈ row?, row.Listed census) (bound : bindings.Listed census)
    (listed' : ∀ row ∈ row'?, row.Listed census') (bound' : bindings'.Listed census')
    {mention : Mention} (same : mention.sight row? bindings = mention.sight row'? bindings') :
    (Scope.over context row? bindings).AgreeOn (InStepFrom (BothFaithful census census'))
      (Scope.over context row'? bindings') mention := by
  cases mention with
  | column index =>
      cases row? <;> cases row'? <;> try cases same; done
      · exact in_step_of_yields (yields_fail _) (yields_fail _)
      · rename_i row row'
        have values : row.eager index = row'.eager index := Option.some.inj same
        have reads := yields_of_logs (row.logs_read (listed row rfl) index)
        rw [values] at reads
        exact in_step_of_yields reads (yields_of_logs (row'.logs_read (listed' row' rfl) index))
  | parameter index => exact Option.map_injective (fun _ _ => Except.ok.inj) same
  | outer binding field =>
      change FieldsAlike _ field (bindings.readOuter binding) (bindings'.readOuter binding)
      change (bindings.eagerOuter binding).map (· field) =
        (bindings'.eagerOuter binding).map (· field) at same
      obtain ⟨lazy, eager, -⟩ | ⟨lazy, eager, logs⟩ :=
          Bindings.outer_logs bindings bound binding <;>
        obtain ⟨lazy', eager', -⟩ | ⟨lazy', eager', logs'⟩ :=
          Bindings.outer_logs bindings' bound' binding <;>
        rw [eager, eager'] at same <;> rw [lazy, lazy']
      · exact .unbound
      · cases same
      · cases same
      · have values := Option.some.inj same
        dsimp only at values
        have reads := yields_of_logs (logs field)
        rw [values] at reads
        exact .bound (in_step_of_yields reads (yields_of_logs (logs' field)))

end Sights

namespace Expr

/-- Evaluation sees nothing of its scope but what the expression mentions. A constant expression runs
alike in all scopes of a context, warnings included, and never fails for what is not there. Any
expression runs in step in two scopes that read in step what it mentions. And where it mentions the
same values in both, whatever rows and bindings they are taken from, it has the same value or the same
failure, whatever was read before. -/
theorem sees_what_it_mentions (expression : Expr) :
    (expression.isConstant = true → ∀ left right : Scope, left.context = right.context →
      ∀ start : Journal,
        (expression.eval left).run start = (expression.eval right).run start ∧
        (∀ column index, ((expression.eval left).run start).1 ≠
          .error (.failed (.value column (.unboundParameter index)))) ∧
        (∀ cause, ((expression.eval left).run start).1 ≠ .error (.failed (.configuration cause))) ∧
        ((expression.eval left).run start).1 ≠ .error .indexOutOfRange) ∧
    (∀ left right : Scope, left.context = right.context → ∀ related, Journal.WarnedAlike related →
      (∀ mention ∈ expression.mentions, left.AgreeOn (InStepFrom related) right mention) →
      ∀ start start', related start start' →
        InStep related start start' (expression.eval left) (expression.eval right)) ∧
    ∀ (context : Context) (census census' : Census) (row? row'? : Option Row)
      (bindings bindings' : Bindings), (∀ row ∈ row?, row.Listed census) →
      bindings.Listed census → (∀ row ∈ row'?, row.Listed census') → bindings'.Listed census' →
      (∀ mention ∈ expression.mentions,
        mention.sight row? bindings = mention.sight row'? bindings') →
      ∀ start start' : Journal, start.Faithful census → start'.Faithful census' →
        ((expression.eval (.over context row? bindings)).run start).1 =
          ((expression.eval (.over context row'? bindings')).run start').1 := by
  refine ⟨fun constant left right context start => ⟨?_, ?_⟩,
    fun left right context related warned agree =>
      (in_step_compositional warned).eval_of_mentions context expression agree, ?_⟩
  · have equal : StepRelation.Compositional fun first second => first = second :=
      { pure := fun _ => rfl, fail := fun _ _ => rfl, warn := fun _ _ => rfl,
        bind := fun first second => by rw [first, funext second] }
    have none : expression.mentions = [] := constant_iff.mp constant
    rw [equal.eval_of_mentions context expression (by simp [none])]
  · have fails := constant_fails constant left start
    refine ⟨fun column index unbound => ?_, fun cause unbound => ?_, fun unbound => ?_⟩ <;>
      cases interrupt_of_ends fails unbound
  · intro context census census' row? row'? bindings bindings' listed bound listed' bound' same
      start start' faithful faithful'
    have contexts : (Scope.over context row? bindings).context =
        (Scope.over context row'? bindings').context := rfl
    have inStep := (in_step_compositional faithful_warned).eval_of_mentions contexts expression
      fun mention among => agree_of_sight listed bound listed' bound' (same mention among)
    exact (inStep start start' ⟨faithful, faithful'⟩).1

end Expr

/-! A stored row under a binding, and another row with the same first column under a binding that is
nested under the first one. -/

namespace Elsewhere

def context : Context :=
  ⟨0, .standard, {}⟩

def eleven : Datum :=
  .whole .integer ⟨11, by decide, by decide⟩

def twenty : Datum :=
  .whole .integer ⟨20, by decide, by decide⟩

def stored : Row :=
  .stored 1 ⟨0, [.notNull .integer, .notNull .text]⟩ [eleven, .text "x"]

def bindings : Bindings :=
  .parameter 1 twenty (.root 3)

def inner : Bindings :=
  .parameter 0 eleven (.nested 4 bindings)

def projected : Row :=
  .projected 2 ⟨1, [.notNull .integer]⟩ stored context inner [.parameter 0 (.notNull .integer)]

def census : Census :=
  fun id => if id = 2 then some projected else none

/-- The first column and the second parameter. -/
def sum : Expr :=
  .binary (.arithmetic .add) (.column 0 (.notNull .integer)) (.parameter 1 (.notNull .integer))

def unreadable : Expr :=
  .cast (.literal (.text "x")) ⟨.integer, true⟩

/-- The sum is the same, although its column is computed by another row and was read before, and the
text is refused without a row as it is with one. -/
theorem sum_elsewhere :
    ((sum.eval (.over context (some projected) inner)).run (({} : Journal).remember 2 0 eleven)).1 =
        .ok (.whole .integer ⟨31, by decide, by decide⟩) ∧
      (unreadable.eval (.over context none inner)).run {} =
        (unreadable.eval (.over context (some stored) bindings)).run {} := by
  have listed : projected.Listed census := ⟨rfl, trivial, trivial⟩
  have faithful : (({} : Journal).remember 2 0 eleven).Faithful census :=
    Journal.faithful_empty.remember (rfl : census 2 = some projected) rfl
  have sights : ∀ mention ∈ sum.mentions,
      mention.sight (some projected) inner = mention.sight (some stored) bindings := by
    refine List.forall_mem_cons.mpr ⟨rfl, List.forall_mem_singleton.mpr rfl⟩
  have values := (Expr.sees_what_it_mentions sum).2.2 context census census (some projected)
    (some stored) inner bindings (by rintro _ ⟨⟩; exact listed) trivial (by rintro _ ⟨⟩; trivial)
    trivial sights _ {} faithful Journal.faithful_empty
  have texts := (Expr.sees_what_it_mentions unreadable).1 rfl (.over context none inner)
    (.over context (some stored) bindings) rfl {}
  exact ⟨values.trans rfl, texts.1⟩

end Elsewhere

end QueryExec
