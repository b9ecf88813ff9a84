import QueryExec.Plan
import QueryExec.Proofs.Expr.Folding
import QueryExec.Proofs.Types.Nullability

/-!
Composing keeps the kind of a type. What is combined before execution has the kind that the operator
has over its coerced operands, except that a NULL is no longer known to be of any kind. Two literals
of which at least one is NULL may come to that, and a projection then refuses the column.
-/

namespace QueryExec

namespace BinaryOp

/-- Only NULL makes NULL. -/
theorem null_of_apply {op : BinaryOp} {one other : Datum} (applied : op.apply one other = .ok .null) :
    one = .null ∨ other = .null := by
  by_cases first : one = .null
  · simp [first]
  · by_cases second : other = .null
    · simp [second]
    · exact absurd rfl (apply_present first second applied)

end BinaryOp

namespace Expr

variable {op : BinaryOp} {left right first second : Expr}

theorem literal_typed_iff {value : Datum} : (∃ type, (literal value).type? = some type) ↔
    value ≠ .null := by
  cases value <;> simp [type?, Datum.kind?]

/-- The standard conversions bring every typed operand to the kind that they are asked for. -/
theorem coerce_kind {expression : Expr} {type : ColumnType} (target : ColumnType)
    (typed : expression.type? = some type) :
    (expression.coerce .standard target).kind? = some target.kind := by
  rcases coerce_cases .standard target typed with ⟨own, kept⟩ |
    ⟨_, ⟨value, converted, rfl, made, folded⟩ | kept⟩
  · simp [kept, kind?, typed, own]
  · have present : value ≠ .null := literal_typed_iff.mp ⟨type, typed⟩
    have ofKind : converted.kind? = some target.kind := by
      simpa [present] using Catalog.standard_converts made
    simp [folded, kind?, type?, ofKind, ColumnType.notNull]
  · simp [kept, kind?, type?]

/-- An operand that is brought to another kind is no NULL. -/
theorem coerce_typed {expression : Expr} {type : ColumnType} (target : ColumnType)
    (typed : expression.type? = some type) :
    expression.coerce .standard target ≠ literal .null := by
  intro null
  have kept := coerce_kind target typed
  rw [null] at kept
  cases kept

theorem combine_literals {one other value : Datum} (applied : op.apply one other = .ok value) :
    combine op (literal one) (literal other) = literal value := by
  simp [combine, applied]

/-- What is combined has the kind of the operator, unless it is NULL. -/
theorem combine_type {type : ColumnType} (typed : (binary op first second).type? = some type)
    (present : combine op first second ≠ literal .null) :
    ∃ own, (combine op first second).type? = some own ∧ own.kind = type.kind := by
  rcases combine_cases op first second with kept | ⟨one, other, value, rfl, rfl, applied, combined⟩
  · rw [kept]
    exact ⟨type, typed, rfl⟩
  · have valuePresent : value ≠ .null := by
      rintro rfl
      exact present combined
    have suits := binary_suits (literal_suits one) (literal_suits other) applied
    rw [typed] at suits
    have ofKind : value.kind? = some type.kind := suits.kind_of_present valuePresent
    rw [combined]
    exact ⟨.notNull type.kind, by simp [type?, ofKind], rfl⟩

/-- A literal beside a NULL is not brought to another kind. -/
theorem coerce_both_null {catalog : Catalog} {one other : Datum}
    (null : one = .null ∨ other = .null) :
    coerceBoth catalog op (literal one) (literal other) = .ok (literal one, literal other) := by
  apply (coerce_both_alike ?_).2
  intro leftType rightType differ
  rcases null with rfl | rfl
  · cases differ.left
  · cases differ.right

/-- Composing comes to NULL where the operator does on two literals that include a NULL. -/
theorem composed_null_iff {composed : Expr}
    (built : compose .standard op left right = .ok composed) :
    composed = literal .null ↔ ∃ one other, left = literal one ∧ right = literal other ∧
      (one = .null ∨ other = .null) ∧ op.apply one other = .ok .null := by
  obtain ⟨first, second, coerced, rfl⟩ := coerced_of_composed built
  constructor
  · intro null
    rcases combine_cases op first second with kept | ⟨one, other, value, rfl, rfl, applied, combined⟩
    · rw [kept] at null
      cases null
    · rw [combined] at null
      cases null
      have includes := BinaryOp.null_of_apply applied
      rcases coerce_both_cases coerced with ⟨_, ofLeft, ofRight⟩ |
        ⟨leftType, rightType, common, differ, _, ofLeft, ofRight⟩
      · exact ⟨one, other, ofLeft.symm, ofRight.symm, includes, applied⟩
      · rcases includes with rfl | rfl
        · exact absurd ofLeft.symm (coerce_typed common differ.left)
        · exact absurd ofRight.symm (coerce_typed common differ.right)
  · rintro ⟨one, other, rfl, rfl, includes, applied⟩
    rw [coerce_both_null includes] at coerced
    cases coerced
    exact combine_literals applied

end Expr

namespace Plan

/-- A projection has types if all its columns have. -/
theorem projection_types_iff {index : Nat} {columns : List Expr} :
    (∃ types, projectionTypes index columns = .ok types) ↔
      ∀ column ∈ columns, ∃ type, column.type? = some type := by
  induction columns generalizing index with
  | nil => simp [projectionTypes]
  | cons column rest induction =>
      rw [List.forall_mem_cons, ← @induction (index + 1)]
      cases typed : column.type? with
      | none => simp [projectionTypes, typed]
      | some type =>
          simp only [projectionTypes, typed]
          cases projectionTypes (index + 1) rest <;> simp [bind, Except.bind]

/-- A projection of these columns can be planned. -/
def Projectable (input : Plan) (engine : Engine) (columns : List Expr) : Prop :=
  ∃ plan, ((input.projected columns).run engine).1 = .ok plan

theorem projectable_iff {input : Plan} {engine : Engine} {columns : List Expr} :
    input.Projectable engine columns ↔ ∀ column ∈ columns, ∃ type, column.type? = some type := by
  rw [← @projection_types_iff 0, Projectable, projected]
  cases types : projectionTypes 0 columns with
  | error error =>
      constructor
      · rintro ⟨plan, planned⟩
        cases planned
      · rintro ⟨types, typed⟩
        cases typed
  | ok own => exact ⟨fun _ => ⟨own, rfl⟩, fun _ => ⟨_, rfl⟩⟩

end Plan

/-- Composing keeps the kind that the operator has over its coerced operands, unless it comes to a
NULL. It does where the operands are literals that include a NULL and the operator gives NULL on
them, and only then does a projection refuse what was composed although it takes the operator. -/
theorem Expr.compose_keeps_kind {op : BinaryOp} {left right composed : Expr}
    (built : compose .standard op left right = .ok composed) :
    ∃ first second, coerceBoth .standard op left right = .ok (first, second) ∧
      (∀ type, (binary op first second).type? = some type → composed ≠ literal .null →
        ∃ own, composed.type? = some own ∧ own.kind = type.kind) ∧
      (composed = literal .null ↔ ∃ one other, left = literal one ∧ right = literal other ∧
        (one = .null ∨ other = .null) ∧ op.apply one other = .ok .null) ∧
      ∀ (input : Plan) (engine : Engine) (before after : List Expr),
        input.Projectable engine (before ++ binary op first second :: after) →
          (input.Projectable engine (before ++ composed :: after) ↔ composed ≠ literal .null) := by
  have null := composed_null_iff built
  obtain ⟨first, second, coerced, rfl⟩ := coerced_of_composed built
  have keeps : ∀ type, (binary op first second).type? = some type →
      combine op first second ≠ literal .null →
      ∃ own, (combine op first second).type? = some own ∧ own.kind = type.kind :=
    fun type => combine_type
  refine ⟨first, second, coerced, keeps, null, ?_⟩
  intro input engine before after planned
  rw [Plan.projectable_iff] at planned ⊢
  obtain ⟨type, typed⟩ := planned (binary op first second) (by simp)
  constructor
  · intro typedAll comes
    obtain ⟨own, ofNull⟩ := typedAll (combine op first second) (by simp)
    rw [comes] at ofNull
    cases ofNull
  · intro present column member
    rcases List.mem_append.mp member with among | among
    · exact planned column (by simp [among])
    · rcases List.mem_cons.mp among with rfl | among
      · obtain ⟨own, ofOwn, _⟩ := keeps type typed present
        exact ⟨own, ofOwn⟩
      · exact planned column (by simp [among])

/-! A whole number is compared with NULL, and with a text. -/

namespace Guess

def one : Expr :=
  .literal (.whole .integer ⟨1, by decide, by decide⟩)

def numeral : Expr :=
  .literal (.text "1")

def nothing : Expr :=
  .literal .null

def input : Plan :=
  .values 0 ⟨0, [.notNull .integer]⟩ []

/-- A number and its numeral are compared before execution, and the truth value that this gives can
be projected as the comparison could. -/
theorem numeral_combined :
    Expr.compose .standard (.comparison .eq) one numeral = .ok (.literal (.boolean true)) ∧
      input.Projectable {} [.literal (.boolean true)] := by
  have built : Expr.compose .standard (.comparison .eq) one numeral =
      .ok (.literal (.boolean true)) := rfl
  obtain ⟨first, second, coerced, -, -, projects⟩ := Expr.compose_keeps_kind built
  have planned : input.Projectable {} ([] ++ .binary (.comparison .eq) first second :: []) := by
    cases coerced
    exact ⟨_, rfl⟩
  exact ⟨built, (projects input {} [] [] planned).mpr nofun⟩

/-- The comparison of a number with NULL is boolean, what it is composed to has no type, and a
projection takes the one and refuses the other. -/
theorem comparison_with_null :
    Expr.compose .standard (.comparison .eq) one nothing = .ok nothing ∧
      Expr.coerceBoth .standard (.comparison .eq) one nothing = .ok (one, nothing) ∧
      (Expr.binary (.comparison .eq) one nothing).type? = some ⟨.boolean, true⟩ ∧
      nothing.type? = none ∧
      input.Projectable {} [.binary (.comparison .eq) one nothing] ∧
      ¬ input.Projectable {} [nothing] := by
  refine ⟨rfl, rfl, rfl, rfl, ⟨_, rfl⟩, ?_⟩
  rintro ⟨plan, planned⟩
  cases planned

end Guess

end QueryExec
