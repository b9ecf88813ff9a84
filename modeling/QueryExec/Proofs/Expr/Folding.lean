import QueryExec.Proofs.Expr.Coercion
import QueryExec.Proofs.Row.Evaluation

/-!
What is done to an expression before execution cannot be seen when it is evaluated. A composed
operator has its operands brought to their common type, and its literals converted and combined, as
far as that succeeds. Evaluated in a context with the same catalog it answers, fails and warns like
the operator of which nothing was done early: the one whose operands are converted each time that
they are evaluated.
-/

namespace QueryExec

open QueryExec.Action

namespace Expr

/-- The expression under a conversion that is made whenever it is evaluated, unless its type is of
the kind already. -/
def under (target : ColumnType) (expression : Expr) : Expr :=
  if expression.kind? = some target.kind then expression else cast expression target

/-- The operator with everything left to its evaluation. -/
def deferred (catalog : Catalog) (op : BinaryOp) (left right : Expr) : Expr :=
  match meeting? catalog op left right with
  | some common => binary op (left.under common) (right.under common)
  | none => binary op left right

theorem under_other {target : ColumnType} {expression : Expr} {type : ColumnType}
    (typed : expression.type? = some type) (other : type.kind ≠ target.kind) :
    expression.under target = cast expression target := by
  simp [under, kind?, typed, other]

section Evaluation

variable {scope : Scope}

/-- Two literals that were combined are what the operator gives on them. -/
theorem combine_eval (op : BinaryOp) (left right : Expr) :
    (combine op left right).eval scope = (binary op left right).eval scope := by
  rcases combine_cases op left right with kept | ⟨one, other, value, rfl, rfl, applied, combined⟩
  · rw [kept]
  · rw [combined]
    simp only [eval, pure_bind, applied, ofValue]

theorem binary_congr (op : BinaryOp) {left right left' right' : Expr}
    (lefts : left.eval scope = left'.eval scope) (rights : right.eval scope = right'.eval scope) :
    (binary op left right).eval scope = (binary op left' right').eval scope := by
  simp only [eval, lefts, rights]

variable {catalog : Catalog} (same : scope.context.catalog = catalog)

include same

/-- A coerced operand evaluates to what it does under its conversion: a literal that was converted
in place is what the conversion would have given. -/
theorem coerce_eval {expression : Expr} {type target : ColumnType}
    (typed : expression.type? = some type) :
    (expression.coerce catalog target).eval scope = (expression.under target).eval scope := by
  rcases coerce_cases catalog target typed with ⟨own, kept⟩ |
    ⟨other, ⟨value, converted, rfl, made, folded⟩ | kept⟩
  · simp [kept, under, kind?, typed, own]
  · have atRunTime : scope.context.cast value target.kind = pure converted := by
      simp only [Context.cast, same, made]
    rw [folded, under_other typed other]
    simp only [eval, pure_bind, atRunTime]
  · rw [kept, under_other typed other]

/-- The coerced operands, put under the operator uncombined, are those that are converted when they
are evaluated. -/
theorem coerce_both_eval {op : BinaryOp} {left right first second : Expr}
    (coerced : coerceBoth catalog op left right = .ok (first, second)) :
    (binary op first second).eval scope = (deferred catalog op left right).eval scope := by
  rcases coerce_both_cases coerced with ⟨alike, rfl, rfl⟩ |
    ⟨leftType, rightType, common, differ, chosen, rfl, rfl⟩
  · simp only [deferred, (coerce_both_alike alike).1]
  · simp only [deferred, differ.meeting, chosen]
    exact binary_congr op (coerce_eval same differ.left) (coerce_eval same differ.right)

/-- Composing does not change what an operator evaluates to: from every journal it gives the same
value or stops for the same reason, and leaves the same journal, so the same warnings, as the
operator with everything left to its evaluation. -/
theorem compose_evaluates_as_deferred {op : BinaryOp} {left right composed : Expr}
    (built : compose catalog op left right = .ok composed) (start : Journal) :
    (composed.eval scope).run start = ((deferred catalog op left right).eval scope).run start := by
  obtain ⟨first, second, coerced, rfl⟩ := coerced_of_composed built
  rw [combine_eval, coerce_both_eval same coerced]

end Evaluation

end Expr

/-! A text that is a numeral is added to a number of a row. -/

namespace Sum

def price : Expr :=
  .column 0 (.notNull .integer)

def numeral : Expr :=
  .literal (.text "42")

def amount : Datum :=
  .whole .integer ⟨58, by decide, by decide⟩

def scope : Scope :=
  (Row.stored 1 ⟨0, [.notNull .integer]⟩ [amount]).scope ⟨1, .standard, {}⟩ .empty

def early : Expr :=
  .binary (.arithmetic .add) (.literal (.whole .integer ⟨42, by decide, by decide⟩)) price

def late : Expr :=
  .binary (.arithmetic .add) (.cast numeral (.notNull .integer)) price

/-- A numeral is a number before execution, and is the one that it is cast to in execution. -/
theorem numeral_converted_early :
    Expr.compose .standard (.arithmetic .add) numeral price = .ok early ∧
      Expr.deferred .standard (.arithmetic .add) numeral price = late ∧
      ((early.eval scope).run {}).1 = .ok (.whole .integer ⟨100, by decide, by decide⟩) ∧
      (early.eval scope).run {} = (late.eval scope).run {} := by
  have built : Expr.compose .standard (.arithmetic .add) numeral price = .ok early := rfl
  have unfolded : Expr.deferred .standard (.arithmetic .add) numeral price = late := rfl
  have standard : scope.context.catalog = .standard := rfl
  have same := Expr.compose_evaluates_as_deferred standard built {}
  rw [unfolded] at same
  exact ⟨built, unfolded, rfl, same⟩

end Sum

end QueryExec
