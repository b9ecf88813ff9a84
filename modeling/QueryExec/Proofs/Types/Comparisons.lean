import QueryExec.Proofs.Row.Equality
import QueryExec.Proofs.Types.Composition

/-!
Comparisons that are composed are settled before execution. Either the operands have types of
different kinds and no conversion leads from one to the other, and composing fails; or whatever
values the coerced operands take, they are of one kind or NULL, and comparing them gives a truth
value or NULL.
-/

namespace QueryExec

open QueryExec.Action

/-- Values of one kind compare. -/
theorem Datum.order_of_kind {one other : Datum} {kind : Kind} (ofOne : one.kind? = some kind)
    (ofOther : other.kind? = some kind) : ∃ ordering, one.order? other = some ordering := by
  cases one with
  | null => cases ofOne
  | boolean first =>
      cases ofOne
      cases other <;> cases ofOther
      exact ⟨_, rfl⟩
  | whole width first =>
      cases ofOne
      cases other <;> cases ofOther
      exact ⟨_, rfl⟩
  | floating precision first =>
      cases ofOne
      cases other <;> cases ofOther
      cases precision <;> exact ⟨_, rfl⟩
  | text first =>
      cases ofOne
      cases other <;> cases ofOther
      exact ⟨_, rfl⟩
  | bytes first =>
      cases ofOne
      cases other <;> cases ofOther
      exact ⟨_, rfl⟩

theorem Datum.Fits.null_or_boolean {value : Datum} (fits : value.Fits .boolean) :
    value = .null ∨ ∃ truth, value = .boolean truth := by
  cases value <;> simp [Datum.Fits, Datum.kind?] at fits ⊢

/-- What suits types of one kind, or no type, compares. -/
theorem Comparison.settles (op : Comparison) {leftType? rightType? : Option ColumnType}
    {one other : Datum}
    (alike : ∀ leftType rightType, leftType? = some leftType → rightType? = some rightType →
      leftType.kind = rightType.kind)
    (suitsOne : one.Suits leftType?) (suitsOther : other.Suits rightType?) :
    ∃ value, (BinaryOp.comparison op).apply one other = .ok value ∧ value.Fits .boolean := by
  by_cases null : one = .null ∨ other = .null
  · have missing : (one.isNull || other.isNull) = true := by
      simpa [Datum.is_null_iff] using null
    exact ⟨.null, by simp [BinaryOp.apply, missing], .inl rfl⟩
  · obtain ⟨presentOne, presentOther⟩ := not_or.mp null
    obtain ⟨leftType, typedLeft, ofOne⟩ := suitsOne.typed presentOne
    obtain ⟨rightType, typedRight, ofOther⟩ := suitsOther.typed presentOther
    rw [← alike leftType rightType typedLeft typedRight] at ofOther
    obtain ⟨ordering, compares⟩ := Datum.order_of_kind ofOne ofOther
    have present : (one.isNull || other.isNull) = false := by
      simpa [← Datum.is_null_iff] using null
    exact ⟨.boolean (op.holds ordering), by simp [BinaryOp.apply, present, apply, compares],
      .inr rfl⟩

/-- Operands of different kinds have no common type if neither converts to the other's kind. -/
theorem Catalog.common_type_none_iff {catalog : Catalog} {left right : Operand}
    (kinds : left.type.kind ≠ right.type.kind) :
    catalog.commonType? left right = none ↔
      catalog.find? left.type.kind right.type.kind = none ∧
        catalog.find? right.type.kind left.type.kind = none := by
  simp only [commonType?, targetType?, kinds, kinds.symm, if_false, Option.map_eq_none_iff]
  cases catalog.find? left.type.kind right.type.kind with
  | none => simp
  | some toRight =>
      cases catalog.find? right.type.kind left.type.kind with
      | none => simp
      | some toLeft => by_cases weaker : left.type.kind.strength ≤ right.type.kind.strength <;>
          simp [weaker]

namespace Expr

variable {op : BinaryOp} {left right first second : Expr}

/-- Coerced operands that both have types have types of one kind. -/
theorem coerced_alike (compared : op.isConnective = false)
    (coerced : coerceBoth .standard op left right = .ok (first, second))
    {leftType rightType : ColumnType} (typedLeft : first.type? = some leftType)
    (typedRight : second.type? = some rightType) : leftType.kind = rightType.kind := by
  rcases coerce_both_cases coerced with ⟨alike, rfl, rfl⟩ |
    ⟨ownLeft, ownRight, common, differ, _, rfl, rfl⟩
  · by_contra kinds
    exact alike leftType rightType ⟨compared, typedLeft, typedRight, kinds⟩
  · have toCommon := coerce_kind common differ.left
    have toCommon' := coerce_kind common differ.right
    simp only [kind?, typedLeft, typedRight, Option.map_some, Option.some.injEq] at toCommon toCommon'
    rw [toCommon, toCommon']

theorem coerce_declared {catalog : Catalog} {good : Journal → Prop}
    {honours : ColumnType → Datum → Prop} {scope : Scope} {expression : Expr}
    (target : ColumnType) (declared : expression.Declared good honours scope) :
    (expression.coerce catalog target).Declared good honours scope := by
  cases typed : expression.type? with
  | none => simpa [coerce, typed] using declared
  | some type =>
      rcases coerce_cases catalog target typed with ⟨_, kept⟩ |
        ⟨_, ⟨value, converted, _, _, folded⟩ | cast⟩
      · simpa [kept] using declared
      · simp [folded, Declared]
      · simpa [cast, Declared] using declared

theorem coerce_both_declared {catalog : Catalog} {good : Journal → Prop}
    {honours : ColumnType → Datum → Prop} {scope : Scope}
    (declaredLeft : left.Declared good honours scope)
    (declaredRight : right.Declared good honours scope)
    (coerced : coerceBoth catalog op left right = .ok (first, second)) :
    first.Declared good honours scope ∧ second.Declared good honours scope := by
  rcases coerce_both_cases coerced with ⟨_, rfl, rfl⟩ |
    ⟨leftType, rightType, common, differ, _, rfl, rfl⟩
  · exact ⟨declaredLeft, declaredRight⟩
  · exact ⟨coerce_declared common declaredLeft, coerce_declared common declaredRight⟩

/-- Operands that differ in kind are refused if neither converts to the kind of the other. -/
theorem Differ.refused_iff {catalog : Catalog} {leftType rightType : ColumnType}
    (differ : Differ op left right leftType rightType) :
    catalog.commonType? (left.operand leftType) (right.operand rightType) = none ↔
      catalog.find? leftType.kind rightType.kind = none ∧
        catalog.find? rightType.kind leftType.kind = none := by
  have kinds : (left.operand leftType).type.kind ≠ (right.operand rightType).type.kind := by
    simpa using differ.kinds
  rw [Catalog.common_type_none_iff kinds, operand_type, operand_type]

/-- A comparison of coerced operands that have values is settled: by what suits their types. -/
theorem comparison_evaluates {op : Comparison} {good : Journal → Prop} {scope : Scope}
    (tolerant : Journal.Tolerant good) (standard : scope.context.catalog = .standard)
    (alike : ∀ leftType rightType, first.type? = some leftType → second.type? = some rightType →
      leftType.kind = rightType.kind)
    (declaredFirst : first.Declared good (fun type value => value.Fits type.kind) scope)
    (declaredSecond : second.Declared good (fun type value => value.Fits type.kind) scope)
    {start middle after : Journal} {one other : Datum} (kept : good start)
    (ofFirst : (first.eval scope).run start = (.ok one, middle))
    (ofSecond : (second.eval scope).run middle = (.ok other, after)) :
    ∃ value, ((binary (.comparison op) first second).eval scope).run start = (.ok value, after) ∧
      value.Fits .boolean := by
  have answersFirst := eval_suits tolerant standard declaredFirst
  have answersSecond := eval_suits tolerant standard declaredSecond
  have suitsOne : one.Suits first.type? := answer_holds answersFirst kept (by rw [ofFirst])
  have keptMiddle : good middle := by
    have reached := answers_keep answersFirst kept
    rwa [ofFirst] at reached
  have suitsOther : other.Suits second.type? :=
    answer_holds answersSecond keptMiddle (by rw [ofSecond])
  obtain ⟨value, applied, fits⟩ := op.settles alike suitsOne suitsOther
  have evaluates : ((binary (.comparison op) first second).eval scope).run start =
      (.ok value, after) := by
    simp only [eval, run_bind, ofFirst, ofSecond, applied]
    rfl
  exact ⟨value, evaluates, fits⟩

/-- Comparisons are settled when they are composed. What is composed gives a truth value or NULL
wherever its coerced operands give values, as long as what the operands read is of the kinds that
their references declare. Composing fails exactly for operands of types of different kinds of which
neither converts to the other, and it is a misconfiguration that names both types. -/
theorem compose_settles_comparison (op : Comparison) (left right : Expr) :
    (∀ composed, compose .standard (.comparison op) left right = .ok composed →
      ∃ first second, coerceBoth .standard (.comparison op) left right = .ok (first, second) ∧
        ∀ (good : Journal → Prop) (scope : Scope), Journal.Tolerant good →
          scope.context.catalog = .standard →
          left.Declared good (fun type value => value.Fits type.kind) scope →
          right.Declared good (fun type value => value.Fits type.kind) scope →
          ∀ (start middle after : Journal) (one other : Datum), good start →
            (first.eval scope).run start = (.ok one, middle) →
            (second.eval scope).run middle = (.ok other, after) →
            ∃ value, (composed.eval scope).run start = (.ok value, after) ∧
              (value = .null ∨ ∃ truth, value = .boolean truth)) ∧
      ∀ error, compose .standard (.comparison op) left right = .error error ↔
        ∃ leftType rightType, left.type? = some leftType ∧ right.type? = some rightType ∧
          leftType.kind ≠ rightType.kind ∧
          Catalog.standard.find? leftType.kind rightType.kind = none ∧
          Catalog.standard.find? rightType.kind leftType.kind = none ∧
          error = .configuration
            (.noCommonType leftType (BinaryOp.comparison op).symbol rightType) := by
  constructor
  · intro composed built
    obtain ⟨first, second, coerced, rfl⟩ := coerced_of_composed built
    refine ⟨first, second, coerced, ?_⟩
    intro good scope tolerant standard declaredLeft declaredRight start middle after one other kept
      ofFirst ofSecond
    have declared := coerce_both_declared declaredLeft declaredRight coerced
    have alike : ∀ leftType rightType, first.type? = some leftType →
        second.type? = some rightType → leftType.kind = rightType.kind :=
      fun leftType rightType => coerced_alike rfl coerced
    obtain ⟨value, evaluates, fits⟩ := comparison_evaluates tolerant standard alike
      declared.1 declared.2 kept ofFirst ofSecond
    rw [combine_eval]
    exact ⟨value, evaluates, fits.null_or_boolean⟩
  · intro error
    rw [compose_error, coerce_both_error_iff]
    constructor
    · rintro ⟨leftType, rightType, differ, refused, reason⟩
      have missing := differ.refused_iff.mp refused
      exact ⟨leftType, rightType, differ.left, differ.right, differ.kinds, missing.1, missing.2,
        reason⟩
    · rintro ⟨leftType, rightType, typedLeft, typedRight, kinds, toRight, toLeft, reason⟩
      have differ : Differ (.comparison op) left right leftType rightType :=
        ⟨rfl, typedLeft, typedRight, kinds⟩
      exact ⟨leftType, rightType, differ, differ.refused_iff.mpr ⟨toRight, toLeft⟩, reason⟩

end Expr

/-! A number of a row is compared with a text and with bytes. -/

namespace Mixed

def text : Expr :=
  .column 0 (.notNull .text)

def bytes : Expr :=
  .column 0 (.notNull .bytes)

def number : Expr :=
  .column 1 (.notNull .integer)

/-- A text and a number are compared as numbers, and bytes are not compared with a number. -/
theorem comparison_settled :
    Expr.compose .standard (.comparison .eq) text number = .ok comparison ∧
      (∃ value, (comparison.eval (scope false "5")).run {} = (.ok value, {}) ∧
        (value = .null ∨ ∃ truth, value = .boolean truth)) ∧
      Expr.compose .standard (.comparison .eq) bytes number =
        .error (.configuration (.noCommonType (.notNull .bytes) "=" (.notNull .integer))) := by
  have built : Expr.compose .standard (.comparison .eq) text number = .ok comparison := rfl
  have ofText : text.Declared anyJournal (fun type value => value.Fits type.kind)
      (scope false "5") := column_answers false "5" 0 rfl (.inr rfl)
  have ofNumber : number.Declared anyJournal (fun type value => value.Fits type.kind)
      (scope false "5") := column_answers false "5" 1 rfl (.inr rfl)
  have compared := Expr.compose_settles_comparison .eq text number
  obtain ⟨first, second, coerced, settles⟩ := compared.1 comparison built
  cases coerced
  have settled := settles anyJournal (scope false "5") (fun _ _ _ _ => trivial) rfl ofText ofNumber
    {} {} {} five five trivial rfl rfl
  have refused := (Expr.compose_settles_comparison .eq bytes number).2
  exact ⟨built, settled, (refused _).mpr ⟨_, _, rfl, rfl, nofun, rfl, rfl, rfl⟩⟩

end Mixed

end QueryExec
