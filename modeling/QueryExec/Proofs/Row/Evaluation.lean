import QueryExec.Row
import QueryExec.Proofs.Action.Agreement

/-!
What holds of evaluation because it holds of its parts. A relation between steps is compositional
when it survives putting steps together; expressions that are evaluated over related scopes are
then related, whatever the relation says. Rows are taken apart by what their columns can read: the
row below and the rows that are bound around it.
-/

namespace QueryExec

open QueryExec.Action

/-- The columns of an outer row are those of the row that is bound. -/
theorem Bindings.read_outer_eq (index : Nat) : (bindings : Bindings) →
    bindings.readOuter index = (bindings.outerRow? index).map Row.read
  | .root _ => rfl
  | .nested _ parent => read_outer_eq index parent
  | .parameter _ _ rest => read_outer_eq index rest
  | .outer bound row rest => by
      unfold Bindings.readOuter Bindings.outerRow?
      split
      · rfl
      · exact read_outer_eq index rest

theorem Bindings.read_outer_row {bindings : Bindings} {index : Nat}
    {read : Nat → Action Journal Datum} (found : bindings.readOuter index = some read) :
    ∃ row, bindings.outerRow? index = some row ∧ row.read = read := by
  rwa [Bindings.read_outer_eq, Option.map_eq_some_iff] at found

/-- What passes from a binding to the one that it extends, and holds of the rows that it adds, holds
of every outer row that is found. -/
theorem Bindings.outer_row_holds {good : Bindings → Prop} {holds : Row → Prop}
    (nested : ∀ {id parent}, good (.nested id parent) → good parent)
    (parameter : ∀ {index value rest}, good (.parameter index value rest) → good rest)
    (outer : ∀ {index row rest}, good (.outer index row rest) → holds row ∧ good rest)
    {index : Nat} {row : Row} : (bindings : Bindings) → good bindings →
    bindings.outerRow? index = some row → holds row
  | .root _, _, found => by cases found
  | .nested _ parent, held, found =>
      outer_row_holds nested parameter outer parent (nested held) found
  | .parameter _ _ rest, held, found =>
      outer_row_holds nested parameter outer rest (parameter held) found
  | .outer bound own rest, held, found => by
      unfold Bindings.outerRow? at found
      split at found
      · cases found
        exact (outer held).1
      · exact outer_row_holds nested parameter outer rest (outer held).2 found

/-- Induction on what the columns of a row can read: a projected row reads the row below it and the
rows that are bound where it was made. -/
theorem Row.induction {holds : Row → Prop}
    (stored : ∀ id type values, holds (.stored id type values))
    (projected : ∀ id type base context bindings columns, holds base →
      (∀ index row, bindings.outerRow? index = some row → holds row) →
        holds (.projected id type base context bindings columns)) (row : Row) : holds row := by
  refine @Row.rec holds
    (fun bindings => ∀ index row, bindings.outerRow? index = some row → holds row)
    stored projected ?root ?nested ?parameter ?outer row
  case root => exact fun _ _ _ => nofun
  case nested => exact fun _ _ ofParent => ofParent
  case parameter => exact fun _ _ _ ofRest => ofRest
  case outer =>
    intro bound own rest ofOwn ofRest index row found
    unfold Bindings.outerRow? at found
    split at found
    · cases found
      exact ofOwn
    · exact ofRest index row found

/-- A relation between steps on the journal, for every type of answer. -/
abbrev StepRelation : Type 1 :=
  {result : Type} → Action Journal result → Action Journal result → Prop

/-- The failures of evaluation are about a value. -/
def QueryError.isAboutValue : QueryError → Bool
  | .value _ _ => true
  | .cast _ => true
  | _ => false

/-- The relation holds of the steps that evaluation is made of and of what is made of them. -/
structure StepRelation.Compositional (alike : StepRelation) : Prop where
  pure : ∀ {result : Type} (value : result), alike (pure value) (pure value)
  fail : ∀ {result : Type} (error : QueryError), error.isAboutValue = true →
    alike (fail error : Action Journal result) (fail error)
  warn : ∀ (context : Context) (message : String),
    alike (context.warn message) (context.warn message)
  bind : ∀ {result other : Type} {first second : Action Journal other}
    {leftNext rightNext : other → Action Journal result}, alike first second →
      (∀ value, alike (leftNext value) (rightNext value)) →
      alike (first >>= leftNext) (second >>= rightNext)

/-- What an expression can refer to in its scope. -/
inductive Mention
  | column (index : Nat)
  | parameter (index : Nat)
  | outer (binding field : Nat)

/-- Everything that an expression refers to, in the order of its text. -/
def Expr.mentions : Expr → List Mention
  | literal _ => []
  | column index _ => [.column index]
  | parameter index _ => [.parameter index]
  | outer binding field _ => [.outer binding field]
  | binary _ left right => left.mentions ++ right.mentions
  | unary _ operand => operand.mentions
  | cast operand _ => operand.mentions
  | nullTest operand _ => operand.mentions

/-- Two outer rows of which a field is read by related steps, or none on either side. -/
inductive FieldsAlike (alike : StepRelation) (field : Nat) :
    Option (Nat → Action Journal Datum) → Option (Nat → Action Journal Datum) → Prop
  | unbound : FieldsAlike alike field none none
  | bound {left right : Nat → Action Journal Datum} (related : alike (left field) (right field)) :
      FieldsAlike alike field (some left) (some right)

/-- What is referred to is read by related steps in both scopes, and is the same parameter. -/
def Scope.AgreeOn (alike : StepRelation) (left right : Scope) : Mention → Prop
  | .column index => alike (left.column index) (right.column index)
  | .parameter index => left.parameter? index = right.parameter? index
  | .outer binding field => FieldsAlike alike field (left.outer? binding) (right.outer? binding)

/-- Two scopes that differ only in how columns are read. -/
structure Scope.Alike (alike : StepRelation) (left right : Scope) : Prop where
  context : left.context = right.context
  parameter : left.parameter? = right.parameter?
  outer : left.outer? = right.outer?
  column : ∀ index, alike (left.column index) (right.column index)
  field : ∀ binding read, right.outer? binding = some read →
    ∀ field, alike (read field) (read field)

/-- Such scopes agree on everything that can be mentioned. -/
theorem Scope.Alike.agree_on {alike : StepRelation} {left right : Scope}
    (scopes : left.Alike alike right) (mention : Mention) : left.AgreeOn alike right mention := by
  cases mention with
  | column index => exact scopes.column index
  | parameter index => exact congrFun scopes.parameter index
  | outer binding field =>
      change FieldsAlike alike field (left.outer? binding) (right.outer? binding)
      rw [scopes.outer]
      cases found : right.outer? binding with
      | none => exact .unbound
      | some read => exact .bound (scopes.field binding read found field)

namespace StepRelation.Compositional

variable {alike : StepRelation} (parts : alike.Compositional)

include parts

theorem of_value {result : Type} (value : Except ValueError result) :
    alike (ofValue value : Action Journal result) (ofValue value) := by
  cases value with
  | ok value => exact parts.pure value
  | error cause => exact parts.fail _ rfl

theorem of_option {result : Type} (error : QueryError) (about : error.isAboutValue = true)
    (value : Option result) :
    alike (ofOption error value : Action Journal result) (ofOption error value) := by
  cases value with
  | some value => exact parts.pure value
  | none => exact parts.fail error about

theorem recover (context : Context) (cause : CastError) :
    alike (context.recover cause) (context.recover cause) := by
  unfold Context.recover
  split
  · exact parts.fail _ rfl
  · exact parts.warn context _

theorem cast (context : Context) (value : Datum) (target : Kind) :
    alike (context.cast value target) (context.cast value target) := by
  unfold Context.cast
  split
  · exact parts.pure _
  · exact parts.bind (parts.recover context _) fun _ => parts.pure _

theorem pattern_of_integer (context : Context) (value : Datum) :
    alike (context.patternOfInteger value) (context.patternOfInteger value) := by
  unfold Context.patternOfInteger
  split
  · exact parts.pure _
  · exact parts.pure _
  · exact parts.bind (parts.recover context _) fun _ => parts.pure _

theorem bit_pattern (context : Context) (value : Datum) :
    alike (context.bitPattern value) (context.bitPattern value) := by
  unfold Context.bitPattern
  split
  · exact parts.pure _
  all_goals exact parts.pattern_of_integer context _

theorem apply_unary (context : Context) (op : UnaryOp) (value : Datum) :
    alike (context.applyUnary op value) (context.applyUnary op value) := by
  cases op with
  | neg => exact parts.of_value _
  | not => exact parts.of_value _
  | complement =>
      simp only [Context.applyUnary]
      split
      · exact parts.pure _
      · exact parts.bind (parts.bit_pattern context value) fun _ => parts.pure _
  | popCount =>
      simp only [Context.applyUnary]
      split
      · exact parts.pure _
      · exact parts.bind (parts.bit_pattern context value) fun _ => parts.pure _

/-- Evaluation in two scopes is related if they agree on what is mentioned: one case for each form of
expression. -/
theorem eval_of_mentions {left right : Scope} (context : left.context = right.context)
    (expression : Expr) (agree : ∀ mention ∈ expression.mentions, left.AgreeOn alike right mention) :
    alike (expression.eval left) (expression.eval right) := by
  induction expression with
  | literal value => exact parts.pure value
  | column index type => exact agree _ List.mem_cons_self
  | parameter index type =>
      have same : left.parameter? index = right.parameter? index := agree _ List.mem_cons_self
      unfold Expr.eval
      rw [same]
      exact parts.of_option _ rfl _
  | outer binding field type =>
      have fields : FieldsAlike alike field (left.outer? binding) (right.outer? binding) :=
        agree _ List.mem_cons_self
      unfold Expr.eval
      revert fields
      generalize left.outer? binding = leftRow
      generalize right.outer? binding = rightRow
      rintro (_ | related)
      · exact parts.fail _ rfl
      · exact related
  | binary op first second firstAlike secondAlike =>
      obtain ⟨ofFirst, ofSecond⟩ := List.forall_mem_append.mp agree
      exact parts.bind (firstAlike ofFirst) fun _ =>
        parts.bind (secondAlike ofSecond) fun _ => parts.of_value _
  | unary op operand induction =>
      apply parts.bind (induction agree)
      intro value
      rw [context]
      exact parts.apply_unary right.context op value
  | cast operand target induction =>
      apply parts.bind (induction agree)
      intro value
      rw [context]
      exact parts.cast right.context value target.kind
  | nullTest operand negated induction =>
      exact parts.bind (induction agree) fun _ => parts.pure _

/-- Evaluation over related scopes is related. -/
theorem eval {left right : Scope} (scopes : left.Alike alike right) (expression : Expr) :
    alike (expression.eval left) (expression.eval right) :=
  parts.eval_of_mentions scopes.context expression fun mention _ => scopes.agree_on mention

end StepRelation.Compositional

end QueryExec
