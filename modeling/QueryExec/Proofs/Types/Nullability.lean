import QueryExec.Expr.Blueprint
import QueryExec.Proofs.Expr.Coercion
import QueryExec.Proofs.Row.Meaning
import QueryExec.Proofs.Types.Expressions

/-!
When a type that excludes NULL keeps its word. The types of operators follow their operands, and the
common type of two operands is nullable when either is. NULL comes in where a conversion to a type
that excludes it fails and is recovered, or where a nullable operand was coerced to such a type;
otherwise an expression of such a type never has the value NULL.
-/

namespace QueryExec

open QueryExec.Action

/-- NULL or a value of the kind of the type, and not NULL where the type excludes it. -/
def ColumnType.Admits (type : ColumnType) (value : Datum) : Prop :=
  value.Fits type.kind ∧ (type.nullable = false → value ≠ .null)

namespace Expr

/-- No conversion is towards a type that excludes NULL from what may be NULL. -/
def Sheltered : Expr → Prop
  | literal _ => True
  | column _ _ => True
  | parameter _ _ => True
  | outer _ _ _ => True
  | binary _ left right => left.Sheltered ∧ right.Sheltered
  | unary _ operand => operand.Sheltered
  | cast operand target =>
      operand.Sheltered ∧ (nullableType operand.type? = true → target.nullable = true)
  | nullTest operand _ => operand.Sheltered

/-- Every conversion towards a type that excludes NULL succeeds on the values that it meets. -/
def Converts (good : Journal → Prop) (scope : Scope) : Expr → Prop
  | literal _ => True
  | column _ _ => True
  | parameter _ _ => True
  | outer _ _ _ => True
  | binary _ left right => left.Converts good scope ∧ right.Converts good scope
  | unary _ operand => operand.Converts good scope
  | cast operand target =>
      operand.Converts good scope ∧
        (target.nullable = false → Answers good (operand.eval scope) fun value =>
          ∃ converted, scope.context.catalog.convert value target.kind = .ok converted)
  | nullTest operand _ => operand.Converts good scope

/-- Whatever the type excludes is absent. -/
def Present (type? : Option ColumnType) (value : Datum) : Prop :=
  nullableType type? = false → value ≠ .null

end Expr

theorem Datum.present_of_kind {value : Datum} {kind : Kind} (ofKind : value.kind? = some kind) :
    value ≠ .null := by
  rintro rfl
  cases ofKind

section Operators

variable {first second value : Datum}

theorem Connective.combine_known (op : Connective) (left right : Bool) :
    ∃ truth, op.combine (some left) (some right) = some truth := by
  cases op <;> cases left <;> cases right <;> exact ⟨_, rfl⟩

theorem Datum.truth_known {truth : Option Bool} (known : value.truth? = .ok truth)
    (present : value ≠ .null) : ∃ answer, truth = some answer := by
  cases value with
  | null => exact absurd rfl present
  | boolean answer =>
      cases known
      exact ⟨answer, rfl⟩
  | whole _ _ => cases known
  | floating _ _ => cases known
  | text _ => cases known
  | bytes _ => cases known

/-- Operators on values that are not NULL give no NULL. -/
theorem BinaryOp.apply_present {op : BinaryOp} (presentLeft : first ≠ .null)
    (presentRight : second ≠ .null) (applied : op.apply first second = .ok value) :
    value ≠ .null := by
  have neither : ¬ (first.isNull || second.isNull) = true := by
    simp only [Bool.or_eq_true, Datum.is_null_iff, not_or]
    exact ⟨presentLeft, presentRight⟩
  cases op with
  | arithmetic op =>
      simp only [BinaryOp.apply] at applied
      rw [if_neg neither] at applied
      obtain ⟨left, ofLeft⟩ := Option.ne_none_iff_exists'.mp
        fun none => presentLeft (Datum.kind_none_iff.mp none)
      obtain ⟨right, ofRight⟩ := Option.ne_none_iff_exists'.mp
        fun none => presentRight (Datum.kind_none_iff.mp none)
      obtain ⟨kind, _, ofKind⟩ := Arithmetic.apply_kind ofLeft ofRight applied
      exact Datum.present_of_kind ofKind
  | comparison op =>
      simp only [BinaryOp.apply] at applied
      rw [if_neg neither] at applied
      exact Datum.present_of_kind (Comparison.apply_kind applied)
  | connective op =>
      simp only [BinaryOp.apply] at applied
      obtain ⟨left, leftTruth, applied⟩ := ok_of_bind applied
      obtain ⟨right, rightTruth, applied⟩ := ok_of_bind applied
      obtain ⟨one, rfl⟩ := Datum.truth_known leftTruth presentLeft
      obtain ⟨other, rfl⟩ := Datum.truth_known rightTruth presentRight
      obtain ⟨truth, combined⟩ := op.combine_known one other
      cases applied
      rw [combined]
      exact Datum.present_of_kind rfl

theorem Datum.invert_present (present : first ≠ .null) (inverted : first.invert = .ok value) :
    value ≠ .null := by
  obtain ⟨truth, known, inverted⟩ := ok_of_bind inverted
  obtain ⟨answer, rfl⟩ := Datum.truth_known known present
  cases inverted
  exact Datum.present_of_kind rfl

theorem Datum.negate_present (present : first ≠ .null) (negated : first.negate = .ok value) :
    value ≠ .null := by
  rintro rfl
  exact present (Datum.kind_none_iff.mp (Datum.negate_kind negated).symm)

end Operators

namespace Expr

/-- Both operands of an operator that excludes NULL exclude it. -/
theorem operands_exclude {op : BinaryOp} {left right : Expr}
    (excluded : nullableType (binary op left right).type? = false) :
    nullableType left.type? = false ∧ nullableType right.type? = false := by
  cases op with
  | comparison op => simpa [type?, nullableType] using excluded
  | connective op => simpa [type?, nullableType] using excluded
  | arithmetic op =>
      cases typedLeft : left.type? with
      | none =>
          cases typedRight : right.type? <;>
            simp [type?, typedLeft, typedRight, nullableType] at excluded
      | some first =>
          cases typedRight : right.type? with
          | none => simp [type?, typedLeft, typedRight, nullableType] at excluded
          | some second =>
              cases known : first.kind.arithmetic? second.kind with
              | none => simp [type?, typedLeft, typedRight, known, nullableType] at excluded
              | some kind =>
                  simpa [type?, typedLeft, typedRight, known, nullableType] using excluded

variable {good : Journal → Prop} {scope : Scope}

theorem unary_present (tolerant : Journal.Tolerant good) (context : Context) (op : UnaryOp)
    {operand : Expr} {value : Datum} (present : Present operand.type? value) :
    Answers good (context.applyUnary op value) (Present (unary op operand).type?) := by
  cases op with
  | neg =>
      exact answers_of_value fun _ made excluded => Datum.negate_present (present excluded) made
  | not =>
      exact answers_of_value fun _ made excluded => Datum.invert_present (present excluded) made
  | complement =>
      exact on_bits_answers tolerant context value Whole.complement
        (fun null excluded => absurd null (present excluded))
        fun _ _ _ => Datum.present_of_kind rfl
  | popCount =>
      exact on_bits_answers tolerant context value Whole.popCount
        (fun null excluded => absurd null (present excluded))
        fun _ _ _ => Datum.present_of_kind rfl

/-- A cast to a type that excludes NULL keeps a value that it converts, and any value where no
failure is recovered. -/
theorem cast_present (tolerant : Journal.Tolerant good) {context : Context}
    (standard : context.catalog = .standard) {operand : Expr} {target : ColumnType} {value : Datum}
    (met : target.nullable = false → value ≠ .null ∧ (context.settings.castErrorsFatal = true ∨
      ∃ converted, context.catalog.convert value target.kind = .ok converted)) :
    Answers good (context.cast value target.kind) (Present (cast operand target).type?) := by
  refine cast_answers tolerant context value target.kind ?_ ?_
  · intro converted made excluded
    rw [standard] at made
    rcases Catalog.standard_converts made with ⟨null, _⟩ | ⟨_, ofKind⟩
    · exact absurd null (met excluded).1
    · exact Datum.present_of_kind ofKind
  · intro cause failed lenient excluded
    rcases (met excluded).2 with fatal | ⟨converted, made⟩
    · rw [lenient] at fatal
      cases fatal
    · rw [failed] at made
      cases made

/-- An expression of a type that excludes NULL has no such value: by induction on the expression. -/
theorem eval_present (tolerant : Journal.Tolerant good)
    (standard : scope.context.catalog = .standard) {expression : Expr}
    (sheltered : expression.Sheltered)
    (converts : scope.context.settings.castErrorsFatal = true ∨ expression.Converts good scope)
    (declared : expression.Declared good ColumnType.Admits scope) :
    Answers good (expression.eval scope) (Present expression.type?) := by
  induction expression with
  | literal value =>
      apply answers_pure
      rintro excluded rfl
      cases excluded
  | column index type => exact answers_imp declared fun _ admits => admits.2
  | parameter index type => exact answers_of_option fun value found => (declared value found).2
  | outer binding field type =>
      unfold eval
      split
      next read found => exact answers_imp (declared read found) fun _ admits => admits.2
      next => exact answers_fail _
  | binary op left right leftPresent rightPresent =>
      refine answers_bind (leftPresent sheltered.1 (converts.imp_right And.left) declared.1)
        fun first presentLeft => ?_
      refine answers_bind (rightPresent sheltered.2 (converts.imp_right And.right) declared.2)
        fun second presentRight => ?_
      refine answers_of_value fun value applied excluded => ?_
      obtain ⟨excludedLeft, excludedRight⟩ := operands_exclude excluded
      exact BinaryOp.apply_present (presentLeft excludedLeft) (presentRight excludedRight) applied
  | unary op operand induction =>
      exact answers_bind (induction sheltered converts declared) fun value present =>
        unary_present tolerant scope.context op present
  | cast operand target induction =>
      have present := induction sheltered.1 (converts.imp_right And.left) declared
      -- The operand converts or else the mode is fatal, so no failure is recovered.
      have meets : Answers good (operand.eval scope) fun value => target.nullable = false →
          value ≠ .null ∧ (scope.context.settings.castErrorsFatal = true ∨
            ∃ converted, scope.context.catalog.convert value target.kind = .ok converted) := by
        cases nullable : target.nullable with
        | true => exact answers_imp present fun _ _ impossible => by cases impossible
        | false =>
            have excluded : nullableType operand.type? = false := by
              by_contra admitted
              rw [sheltered.2 (by simpa using admitted)] at nullable
              cases nullable
            rcases converts with fatal | ⟨_, succeeds⟩
            · exact answers_imp present fun _ present _ => ⟨present excluded, .inl fatal⟩
            · exact answers_imp (answers_both present (succeeds nullable)) fun _ both _ =>
                ⟨both.1 excluded, .inr both.2⟩
      exact answers_bind meets fun value met => cast_present tolerant standard met
  | nullTest operand negated induction =>
      exact answers_bind (induction sheltered converts declared) fun value _ =>
        answers_pure fun _ => Datum.present_of_kind rfl

end Expr

namespace Blueprint

/-- The only conversions are those that composing and coercing insert. -/
def Castless : Blueprint → Prop
  | literal _ => True
  | column _ _ => True
  | parameter _ _ => True
  | outer _ _ _ => True
  | binary _ left right => left.Castless ∧ right.Castless
  | unary _ operand => operand.Castless
  | cast _ _ => False
  | nullTest operand _ => operand.Castless
  | composed _ left right => left.Castless ∧ right.Castless
  | coerced operand _ => operand.Castless

/-- Operands are coerced to types that are nullable if their own are. -/
def Widening (catalog : Catalog) : Blueprint → Prop
  | literal _ => True
  | column _ _ => True
  | parameter _ _ => True
  | outer _ _ _ => True
  | binary _ left right => left.Widening catalog ∧ right.Widening catalog
  | unary _ operand => operand.Widening catalog
  | cast operand _ => operand.Widening catalog
  | nullTest operand _ => operand.Widening catalog
  | composed _ left right => left.Widening catalog ∧ right.Widening catalog
  | coerced operand target => operand.Widening catalog ∧
      ∀ built type, operand.build catalog = .ok built → built.type? = some type →
        type.nullable = true → target.nullable = true

end Blueprint

section Building

variable {catalog : Catalog}

theorem Expr.coerce_sheltered {expression : Expr} {target : ColumnType}
    (sheltered : expression.Sheltered)
    (widens : ∀ type, expression.type? = some type → type.nullable = true →
      target.nullable = true) : (expression.coerce catalog target).Sheltered := by
  cases typed : expression.type? with
  | none => simpa [coerce, typed] using sheltered
  | some type =>
      rcases coerce_cases catalog target typed with ⟨_, kept⟩ |
        ⟨_, ⟨value, converted, _, _, folded⟩ | cast⟩
      · simpa [kept] using sheltered
      · simp [folded, Sheltered]
      · have admits : nullableType expression.type? = true → target.nullable = true := by
          simpa [typed, nullableType] using widens type typed
        simpa [cast, Sheltered] using And.intro sheltered admits

/-- The common type of two operands is nullable when either may be NULL. -/
theorem Catalog.common_nullable {left right : Operand} {common : ColumnType}
    (chosen : catalog.commonType? left right = some common) :
    common.nullable = (left.nullable || right.nullable) := by
  unfold Catalog.commonType? at chosen
  dsimp only at chosen
  split at chosen
  · cases chosen
    rfl
  · obtain ⟨type, _, rfl⟩ := Option.map_eq_some_iff.mp chosen
    rfl

/-- An expression of a nullable type is a nullable operand: no literal but NULL is, and that has no
type. -/
theorem Expr.operand_nullable {expression : Expr} {type : ColumnType}
    (typed : expression.type? = some type) (nullable : type.nullable = true) :
    (expression.operand type).nullable = true := by
  cases expression with
  | literal value =>
      obtain ⟨kind, _, rfl⟩ := Option.map_eq_some_iff.mp typed
      cases nullable
  | column _ _ => exact nullable
  | parameter _ _ => exact nullable
  | outer _ _ _ => exact nullable
  | binary _ _ _ => exact nullable
  | unary _ _ => exact nullable
  | cast _ _ => exact nullable
  | nullTest _ _ => exact nullable

theorem Expr.coerce_both_sheltered {op : BinaryOp} {left right first second : Expr}
    (shelteredLeft : left.Sheltered) (shelteredRight : right.Sheltered)
    (coerced : coerceBoth catalog op left right = .ok (first, second)) :
    first.Sheltered ∧ second.Sheltered := by
  rcases coerce_both_cases coerced with ⟨_, rfl, rfl⟩ |
    ⟨leftType, rightType, common, differ, chosen, rfl, rfl⟩
  · exact ⟨shelteredLeft, shelteredRight⟩
  · have nullable := Catalog.common_nullable chosen
    constructor
    · apply coerce_sheltered shelteredLeft
      intro type typed admitted
      have same : leftType = type := by simpa [differ.left] using typed
      rw [nullable, same, operand_nullable typed admitted, Bool.true_or]
    · apply coerce_sheltered shelteredRight
      intro type typed admitted
      have same : rightType = type := by simpa [differ.right] using typed
      rw [nullable, same, operand_nullable typed admitted, Bool.or_true]

theorem Expr.combine_sheltered (op : BinaryOp) {left right : Expr}
    (shelteredLeft : left.Sheltered) (shelteredRight : right.Sheltered) :
    (combine op left right).Sheltered := by
  rcases combine_cases op left right with kept | ⟨_, _, value, _, _, _, combined⟩
  · rw [kept]
    exact ⟨shelteredLeft, shelteredRight⟩
  · simp [combined, Sheltered]

/-- What composing and coercing insert shelters from NULL: by induction on the blueprint. -/
theorem Blueprint.build_sheltered {blueprint : Blueprint} {expression : Expr}
    (castless : blueprint.Castless) (widening : blueprint.Widening catalog)
    (built : blueprint.build catalog = .ok expression) : expression.Sheltered := by
  induction blueprint generalizing expression with
  | literal value =>
      cases built
      trivial
  | column index type =>
      cases built
      trivial
  | parameter index type =>
      cases built
      trivial
  | outer binding field type =>
      cases built
      trivial
  | binary op left right leftSheltered rightSheltered =>
      obtain ⟨first, builtLeft, built⟩ := ok_of_bind built
      obtain ⟨second, builtRight, built⟩ := ok_of_bind built
      cases built
      exact ⟨leftSheltered castless.1 widening.1 builtLeft,
        rightSheltered castless.2 widening.2 builtRight⟩
  | unary op operand induction =>
      obtain ⟨inner, builtInner, built⟩ := ok_of_bind built
      have sheltered : inner.Sheltered := induction castless widening builtInner
      cases built
      exact sheltered
  | cast operand target induction => exact castless.elim
  | nullTest operand negated induction =>
      obtain ⟨inner, builtInner, built⟩ := ok_of_bind built
      have sheltered : inner.Sheltered := induction castless widening builtInner
      cases built
      exact sheltered
  | composed op left right leftSheltered rightSheltered =>
      obtain ⟨first, builtLeft, built⟩ := ok_of_bind built
      obtain ⟨second, builtRight, built⟩ := ok_of_bind built
      obtain ⟨⟨coercedFirst, coercedSecond⟩, coerced, built⟩ := ok_of_bind built
      cases built
      obtain ⟨one, other⟩ := Expr.coerce_both_sheltered
        (leftSheltered castless.1 widening.1 builtLeft)
        (rightSheltered castless.2 widening.2 builtRight) coerced
      exact Expr.combine_sheltered op one other
  | coerced operand target induction =>
      obtain ⟨inner, builtInner, built⟩ := ok_of_bind built
      cases built
      exact Expr.coerce_sheltered (induction castless widening.1 builtInner) fun type typed =>
        widening.2 inner type builtInner typed

end Building

/-- Where the only conversions are inserted by composing and coercing, and operands are coerced to
types that are nullable if their own are, an expression of a type that excludes NULL does not
evaluate to NULL when cast errors are fatal; otherwise it does not unless a conversion to such a
type fails. -/
theorem Blueprint.not_null_respected {blueprint : Blueprint} {expression : Expr}
    (castless : blueprint.Castless) (widening : blueprint.Widening .standard)
    (built : blueprint.build .standard = .ok expression) {type : ColumnType}
    (typed : expression.type? = some type) (excluded : type.nullable = false)
    {good : Journal → Prop} (tolerant : Journal.Tolerant good) {scope : Scope}
    (standard : scope.context.catalog = .standard)
    (declared : expression.Declared good ColumnType.Admits scope)
    (converts : scope.context.settings.castErrorsFatal = true ∨ expression.Converts good scope)
    {journal : Journal} (holds : good journal) :
    ((expression.eval scope).run journal).1 ≠ .ok .null := by
  intro evaluated
  have answers := expression.eval_present tolerant standard
    (build_sheltered castless widening built) converts declared journal holds
  have present : Expr.Present expression.type? .null :=
    answer_of_ends (agree_weaken answers (fun _ _ ends => ends.2) fun _ _ _ => trivial) evaluated
  rw [typed] at present
  exact present excluded rfl

/-! A text is compared with a number, and a number of which nothing is known is coerced. -/

namespace Mixed

def type : RowType :=
  ⟨0, [.notNull .text, .notNull .integer, ⟨.integer, true⟩]⟩

def five : Datum :=
  .whole .integer ⟨5, by decide, by decide⟩

def scope (fatal : Bool) (text : String) : Scope :=
  (Row.stored 1 type [.text text, five, .null]).scope
    ⟨1, .standard, { castErrorsFatal := fatal }⟩ .empty

def compared : Blueprint :=
  .composed (.comparison .eq) (.column 0 (.notNull .text)) (.column 1 (.notNull .integer))

def comparison : Expr :=
  .binary (.comparison .eq) (.cast (.column 0 (.notNull .text)) (.notNull .integer))
    (.column 1 (.notNull .integer))

def coerced : Blueprint :=
  .coerced (.column 2 ⟨.integer, true⟩) (.notNull .bigint)

def coercion : Expr :=
  .cast (.column 2 ⟨.integer, true⟩) (.notNull .bigint)

def anyJournal : Journal → Prop :=
  fun _ => True

theorem column_answers (fatal : Bool) (text : String) (column : Nat) {value : Datum}
    (found : [.text text, five, .null][column]? = some value) {holds : Datum → Prop}
    (held : holds value) : Answers anyJournal ((scope fatal text).column column) holds := by
  change Answers anyJournal ((Row.stored 1 type _).read column) holds
  rw [read_stored]
  unfold index
  rw [found]
  exact answers_pure held

theorem comparison_declared (fatal : Bool) (text : String) :
    comparison.Declared anyJournal ColumnType.Admits (scope fatal text) :=
  ⟨column_answers fatal text 0 rfl ⟨.inr rfl, fun _ => Datum.present_of_kind rfl⟩,
    column_answers fatal text 1 rfl ⟨.inr rfl, fun _ => Datum.present_of_kind rfl⟩⟩

theorem coercion_declared (fatal : Bool) (text : String) :
    coercion.Declared anyJournal ColumnType.Admits (scope fatal text) :=
  column_answers fatal text 2 rfl ⟨.inl rfl, fun impossible => by cases impossible⟩

/-- A text that is a numeral converts, so its comparison with a number is not NULL. -/
theorem numeral_compared :
    compared.build .standard = .ok comparison ∧
    ((comparison.eval (scope false "5")).run {}).1 = .ok (.boolean true) ∧
    ((comparison.eval (scope false "5")).run {}).1 ≠ .ok .null := by
  have built : compared.build .standard = .ok comparison := rfl
  have converts : comparison.Converts anyJournal (scope false "5") :=
    ⟨⟨trivial, fun _ => column_answers false "5" 0 rfl ⟨five, rfl⟩⟩, trivial⟩
  have castless : compared.Castless := ⟨trivial, trivial⟩
  have widening : compared.Widening .standard := ⟨trivial, trivial⟩
  exact ⟨built, rfl, Blueprint.not_null_respected castless widening built rfl rfl
    (fun _ _ _ _ => trivial) rfl (comparison_declared false "5") (.inr converts) trivial⟩

/-- A number of which nothing is known may be coerced to a type that excludes NULL, and a text that
is no numeral is NULL once its conversion is recovered. -/
theorem excluded_null_evaluated :
    (coerced.Castless ∧ coerced.build .standard = .ok coercion ∧
      coercion.type? = some (.notNull .bigint) ∧ ∀ fatal,
        coercion.Declared anyJournal ColumnType.Admits (scope fatal "x") ∧
        ((coercion.eval (scope fatal "x")).run {}).1 = .ok .null) ∧
    compared.Castless ∧ compared.build .standard = .ok comparison ∧
      comparison.type? = some (.notNull .boolean) ∧
      comparison.Declared anyJournal ColumnType.Admits (scope false "x") ∧
      ((comparison.eval (scope false "x")).run {}).1 = .ok .null := by
  refine ⟨⟨trivial, rfl, rfl, fun fatal => ⟨coercion_declared fatal "x", ?_⟩⟩,
    ⟨trivial, trivial⟩, rfl, rfl, comparison_declared false "x", rfl⟩
  cases fatal <;> rfl

end Mixed

end QueryExec
