import QueryExec.Expr.Compose

/-!
What composing does with its operands. Operands of one kind stay as they are, and operands of
different kinds are brought to the common type of the two: literals by converting them, as far as
that succeeds, and all else by casts.
-/

namespace QueryExec

namespace Expr

/-- The type that the operands of an operator are brought to. Connectives take their operands as
they are, and so do operators of which the operands have one kind or either has no type. -/
def meeting? (catalog : Catalog) (op : BinaryOp) (left right : Expr) : Option ColumnType :=
  match op.isConnective, left.type?, right.type? with
  | false, some first, some second =>
      if first.kind = second.kind then none
      else catalog.commonType? (left.operand first) (right.operand second)
  | _, _, _ => none

/-- The kind of the static type. -/
def kind? (expression : Expr) : Option Kind :=
  expression.type?.map ColumnType.kind

@[simp]
theorem operand_type (expression : Expr) (type : ColumnType) :
    (expression.operand type).type = type := by
  cases expression <;> rfl

/-- Operands of different kinds of an operator that is no connective. -/
structure Differ (op : BinaryOp) (left right : Expr) (first second : ColumnType) : Prop where
  coerced : op.isConnective = false
  left : left.type? = some first
  right : right.type? = some second
  kinds : first.kind ≠ second.kind

section Coercion

variable {catalog : Catalog} {op : BinaryOp} {left right first second : Expr}
  {leftType rightType : ColumnType}

theorem Differ.meeting (differ : Differ op left right leftType rightType) :
    meeting? catalog op left right =
      catalog.commonType? (left.operand leftType) (right.operand rightType) := by
  simp [meeting?, differ.coerced, differ.left, differ.right, differ.kinds]

theorem Differ.coerce_both {common : ColumnType} (differ : Differ op left right leftType rightType)
    (chosen : catalog.commonType? (left.operand leftType) (right.operand rightType) = some common) :
    coerceBoth catalog op left right =
      .ok (left.coerce catalog common, right.coerce catalog common) := by
  simp [coerceBoth, differ.coerced, differ.left, differ.right, differ.kinds, chosen]

theorem Differ.coerce_both_refused (differ : Differ op left right leftType rightType)
    (refused : catalog.commonType? (left.operand leftType) (right.operand rightType) = none) :
    coerceBoth catalog op left right =
      .error (.configuration (.noCommonType leftType op.symbol rightType)) := by
  simp [coerceBoth, differ.coerced, differ.left, differ.right, differ.kinds, refused]

/-- Operands that do not differ in kind are left as they are. -/
theorem coerce_both_alike (alike : ∀ leftType rightType, ¬ Differ op left right leftType rightType) :
    meeting? catalog op left right = none ∧
      coerceBoth catalog op left right = .ok (left, right) := by
  unfold meeting? coerceBoth
  cases typedLeft : left.type? with
  | none => simp
  | some leftType =>
      cases typedRight : right.type? with
      | none => simp
      | some rightType =>
          cases connective : op.isConnective with
          | true => simp
          | false =>
              by_cases same : leftType.kind = rightType.kind
              · simp [same]
              · exact absurd ⟨connective, typedLeft, typedRight, same⟩ (alike leftType rightType)

/-- What becomes of the operands: they do not differ and stay, they are brought together, or they
stand apart and nothing is composed of them. -/
inductive Brought (catalog : Catalog) (op : BinaryOp) (left right : Expr) :
    Except QueryError (Expr × Expr) → Prop
  | alike (alike : ∀ leftType rightType, ¬ Differ op left right leftType rightType) :
      Brought catalog op left right (.ok (left, right))
  | together {leftType rightType common : ColumnType}
      (differ : Differ op left right leftType rightType)
      (chosen : catalog.commonType? (left.operand leftType) (right.operand rightType) =
        some common) :
      Brought catalog op left right (.ok (left.coerce catalog common, right.coerce catalog common))
  | apart {leftType rightType : ColumnType} (differ : Differ op left right leftType rightType)
      (refused : catalog.commonType? (left.operand leftType) (right.operand rightType) = none) :
      Brought catalog op left right
        (.error (.configuration (.noCommonType leftType op.symbol rightType)))

theorem coerce_both_brought (catalog : Catalog) (op : BinaryOp) (left right : Expr) :
    Brought catalog op left right (coerceBoth catalog op left right) := by
  by_cases differing : ∃ leftType rightType, Differ op left right leftType rightType
  · obtain ⟨leftType, rightType, differ⟩ := differing
    cases chosen : catalog.commonType? (left.operand leftType) (right.operand rightType) with
    | some common =>
        rw [differ.coerce_both chosen]
        exact .together differ chosen
    | none =>
        rw [differ.coerce_both_refused chosen]
        exact .apart differ chosen
  · have alike : ∀ leftType rightType, ¬ Differ op left right leftType rightType := by
      simpa using differing
    rw [(coerce_both_alike alike).2]
    exact .alike alike

/-- Either the operands do not differ and stay, or both are coerced to the type they meet in. -/
theorem coerce_both_cases (coerced : coerceBoth catalog op left right = .ok (first, second)) :
    ((∀ leftType rightType, ¬ Differ op left right leftType rightType) ∧
        first = left ∧ second = right) ∨
      ∃ leftType rightType common, Differ op left right leftType rightType ∧
        catalog.commonType? (left.operand leftType) (right.operand rightType) = some common ∧
        first = left.coerce catalog common ∧ second = right.coerce catalog common := by
  have brought := coerce_both_brought catalog op left right
  rw [coerced] at brought
  cases brought with
  | alike alike => exact .inl ⟨alike, rfl, rfl⟩
  | together differ chosen => exact .inr ⟨_, _, _, differ, chosen, rfl, rfl⟩

/-- Only operands without a common type are refused. -/
theorem coerce_both_error_iff {error : QueryError} :
    coerceBoth catalog op left right = .error error ↔
      ∃ leftType rightType, Differ op left right leftType rightType ∧
        catalog.commonType? (left.operand leftType) (right.operand rightType) = none ∧
        error = .configuration (.noCommonType leftType op.symbol rightType) := by
  constructor
  · intro failed
    have brought := coerce_both_brought catalog op left right
    rw [failed] at brought
    cases brought with
    | apart differ refused => exact ⟨_, _, differ, refused, rfl⟩
  · rintro ⟨leftType, rightType, differ, refused, rfl⟩
    exact differ.coerce_both_refused refused

/-- What is converted in place is a literal, and the conversion succeeds. -/
theorem folded_literal {expression folded : Expr} {source target : Kind}
    (found : expression.folded? catalog source target = some folded) :
    ∃ value converted, expression = literal value ∧
      catalog.convert value target = .ok converted ∧ folded = literal converted := by
  unfold folded? at found
  split at found
  next value conversion _ =>
    split at found
    next =>
      split at found
      next converted made =>
        cases found
        exact ⟨value, converted, rfl, made, rfl⟩
      next => cases found
    next => cases found
  next => cases found

/-- A typed operand keeps the kind that it is brought to, or it is a literal that was converted, or
it is cast. -/
theorem coerce_cases (catalog : Catalog) (target : ColumnType) {expression : Expr}
    {type : ColumnType} (typed : expression.type? = some type) :
    (type.kind = target.kind ∧ expression.coerce catalog target = expression) ∨
      type.kind ≠ target.kind ∧
        ((∃ value converted, expression = literal value ∧
            catalog.convert value target.kind = .ok converted ∧
            expression.coerce catalog target = literal converted) ∨
          expression.coerce catalog target = cast expression target) := by
  unfold coerce
  by_cases own : type.kind = target.kind
  · simp [typed, own]
  · cases folded : expression.folded? catalog type.kind target.kind with
    | none => simp [typed, own, folded]
    | some converted =>
        obtain ⟨value, result, rfl, made, rfl⟩ := folded_literal folded
        simp [typed, own, folded, made]

/-- What is combined stays the operator, or is what the operator gives on two literals. -/
theorem combine_cases (op : BinaryOp) (first second : Expr) :
    combine op first second = binary op first second ∨
      ∃ one other value, first = literal one ∧ second = literal other ∧
        op.apply one other = .ok value ∧ combine op first second = literal value := by
  unfold combine
  split
  next one other =>
    split
    next value applied => exact .inr ⟨one, other, value, rfl, rfl, applied, rfl⟩
    next => exact .inl rfl
  next => exact .inl rfl

/-- Composing fails only where the operands are refused. -/
theorem compose_error {error : QueryError} :
    compose catalog op left right = .error error ↔ coerceBoth catalog op left right = .error error := by
  unfold compose
  cases coerceBoth catalog op left right <;> simp [bind, Except.bind]

theorem composed_of_coerced (coerced : coerceBoth catalog op left right = .ok (first, second)) :
    compose catalog op left right = .ok (combine op first second) := by
  unfold compose
  rw [coerced]
  rfl

/-- What composing gives is the combination of the coerced operands. -/
theorem coerced_of_composed {composed : Expr}
    (built : compose catalog op left right = .ok composed) :
    ∃ first second, coerceBoth catalog op left right = .ok (first, second) ∧
      composed = combine op first second := by
  unfold compose at built
  cases coerced : coerceBoth catalog op left right with
  | error error =>
      rw [coerced] at built
      cases built
  | ok operands =>
      rw [coerced] at built
      cases built
      exact ⟨operands.1, operands.2, rfl, rfl⟩

end Coercion

end Expr

end QueryExec
