import QueryExec.Proofs.Expr.Folding
import QueryExec.Proofs.Row.Equality
import QueryExec.Proofs.Types.Expressions

/-!
Whole numbers under their common type. Operators are exact on whole numbers of all widths, so
bringing operands to a common width first is not noticed as long as their numbers fit that width and
an arithmetic result has the width that it has without. Numbers of the widths that are known of
their expressions do, apart from a negative number beside an operand of the unsigned width.
-/

namespace QueryExec

open QueryExec.Action

/-- NULL or a whole number of any width. -/
def Datum.Counts (value : Datum) : Prop :=
  ∀ kind, value.kind? = some kind → kind.isWhole = true

/-- NULL or a number that is not below zero. -/
def Datum.NonNegative (value : Datum) : Prop :=
  ∀ number, value.whole? = some number → 0 ≤ number

/-- Untyped or of the type of whole numbers of some width. -/
def Expr.Counts (expression : Expr) : Prop :=
  ∀ kind, expression.kind? = some kind → kind.isWhole = true

theorem Datum.Counts.null_or_whole {value : Datum} (counts : value.Counts) :
    value = .null ∨ ∃ (width : Width) (number : Whole width), value = .whole width number := by
  cases value with
  | null => exact .inl rfl
  | whole width number => exact .inr ⟨width, number, rfl⟩
  | boolean _ => simpa [Kind.isWhole] using counts _ rfl
  | floating _ _ => simpa [Kind.isWhole] using counts _ rfl
  | text _ => simpa [Kind.isWhole] using counts _ rfl
  | bytes _ => simpa [Kind.isWhole] using counts _ rfl

namespace Width

theorem stronger_comm (first second : Width) : first.stronger second = second.stronger first := by
  cases first <;> cases second <;> rfl

theorem stronger_self (width : Width) : width.stronger width = width := by
  cases width <;> rfl

/-- A whole number fits the stronger of its own width and another one, unless it is negative and
the other width is the unsigned one. -/
theorem fits_stronger {own : Width} (other : Width) (number : Whole own)
    (unsigned : other = .ubigint → 0 ≤ number.value) :
    (own.stronger other).lowest ≤ number.value ∧ number.value ≤ (own.stronger other).highest := by
  have low := number.lowest_le
  have high := number.le_highest
  cases own <;> cases other <;>
    simp [stronger, Kind.strength, lowest, highest] at low high unsigned ⊢ <;> omega

end Width

/-- NULL for NULL, and for a whole number the same number in a width that depends on its own. -/
inductive Datum.Resized (resize : Width → Width) : Datum → Datum → Prop
  | null : Resized resize .null .null
  | whole {width : Width} (number : Whole width) (resized : Whole (resize width))
      (same : resized.value = number.value) :
      Resized resize (.whole width number) (.whole (resize width) resized)

namespace BinaryOp

variable {width width' : Width}

theorem arithmetic_whole (op : Arithmetic) (one : Whole width) (other : Whole width') :
    (arithmetic op).apply (.whole width one) (.whole width' other) =
      op.onWhole (width.stronger width') one.value other.value :=
  rfl

theorem comparison_whole (op : Comparison) (one : Whole width) (other : Whole width') :
    (comparison op).apply (.whole width one) (.whole width' other) =
      .ok (.boolean (op.holds (compare one.value other.value))) :=
  rfl

theorem apply_null_left {op : BinaryOp} (coerced : op.isConnective = false) (right : Datum) :
    op.apply .null right = .ok .null := by
  cases op with
  | arithmetic op => simp [apply, Datum.isNull]
  | comparison op => simp [apply, Datum.isNull]
  | connective op => cases coerced

theorem apply_null_right {op : BinaryOp} (coerced : op.isConnective = false) (left : Datum) :
    op.apply left .null = .ok .null := by
  cases op with
  | arithmetic op => simp [apply, Datum.isNull]
  | comparison op => simp [apply, Datum.isNull]
  | connective op => cases coerced

/-- An operator that is no connective gives the same on the same numbers in other widths, as long as
an arithmetic result keeps its width. -/
theorem apply_resized {op : BinaryOp} (coerced : op.isConnective = false)
    {resizeLeft resizeRight : Width → Width} {first second first' second' : Datum}
    (lefts : first.Resized resizeLeft first') (rights : second.Resized resizeRight second')
    (strength : ∀ arithmetic leftWidth rightWidth, op = .arithmetic arithmetic →
      first.kind? = some (.whole leftWidth) → second.kind? = some (.whole rightWidth) →
      (resizeLeft leftWidth).stronger (resizeRight rightWidth) = leftWidth.stronger rightWidth) :
    op.apply first' second' = op.apply first second := by
  cases lefts with
  | null => rw [apply_null_left coerced, apply_null_left coerced]
  | whole number resized same =>
      cases rights with
      | null => rw [apply_null_right coerced, apply_null_right coerced]
      | whole number' resized' same' =>
          cases op with
          | arithmetic op =>
              rw [arithmetic_whole, arithmetic_whole, strength op _ _ rfl rfl rfl, same, same']
          | comparison op => rw [comparison_whole, comparison_whole, same, same']
          | connective op => cases coerced

end BinaryOp

/-- A whole number is cast to every width that it fits. -/
theorem Context.cast_whole {context : Context} (standard : context.catalog = .standard)
    {width target : Width} {number : Whole width} {resized : Whole target}
    (same : resized.value = number.value) :
    context.cast (.whole width number) (.whole target) = pure (.whole target resized) := by
  have converted : Catalog.standard.convert (.whole width number) (.whole target) =
      .ok (.whole target resized) := by
    by_cases own : width = target
    · subst own
      have equal : resized = number := Whole.same_value same
      rw [equal]
      exact Catalog.convert_fitting _ (.inr rfl)
    · have other : Kind.whole width ≠ .whole target := by simpa using own
      have fitted : Datum.ofWhole? target number.value = some (.whole target resized) := by
        rw [← same, Datum.ofWhole?, Whole.of_int_value]
        rfl
      apply (Catalog.standard_convert_iff rfl other).mpr
      constructor
      · simp [Conversion.isStandard, own, Kind.isNumeric, Kind.isWhole]
      · simp [Conversion.convert, Datum.isNull, Datum.kind?, own, Conversion.toWhole,
          Conversion.fit, fitted]
  simp only [Context.cast, standard, converted]

namespace Expr

/-- The width in which an operator meets the whole numbers of an operand that is brought to a
common type. -/
def metWidth (common? : Option ColumnType) (expression : Expr) (width : Width) : Width :=
  match common?.map ColumnType.kind with
  | some (.whole common) => if expression.kind? = some (.whole common) then width else common
  | _ => width

/-- NULL or a whole number that fits the width in which the operator meets it. -/
structure Carried (common? : Option ColumnType) (expression : Expr) (value : Datum) : Prop where
  counts : value.Counts
  fits : ∀ (width : Width) (number : Whole width), value = .whole width number →
    (expression.metWidth common? width).lowest ≤ number.value ∧
      number.value ≤ (expression.metWidth common? width).highest

/-- An arithmetic result has the width that it has without the common type. -/
def SameStrength (op : BinaryOp) (common? : Option ColumnType) (left right : Expr)
    (first second : Datum) : Prop :=
  ∀ arithmetic leftWidth rightWidth, op = .arithmetic arithmetic →
    first.kind? = some (.whole leftWidth) → second.kind? = some (.whole rightWidth) →
    (left.metWidth common? leftWidth).stronger (right.metWidth common? rightWidth) =
      leftWidth.stronger rightWidth

/-- The operands, evaluated one after the other, give such values, as far as they give values. -/
def Operands (scope : Scope) (left right : Expr) (start : Journal) (leftHolds : Datum → Prop)
    (bothHold : Datum → Datum → Prop) : Prop :=
  EndsIn start (left.eval scope)
    (fun first middle => leftHolds first ∧
      EndsIn middle (right.eval scope) (fun second _ => bothHold first second) fun _ _ => True)
    fun _ _ => True

section Carrying

variable {expression : Expr} {common : ColumnType} {target : Width} {value : Datum} {scope : Scope}

theorem met_width_own (width : Width) (whole : common.kind = .whole target)
    (own : expression.kind? = some common.kind) :
    expression.metWidth (some common) width = width := by
  simp [metWidth, own, whole]

theorem met_width_other (width : Width) (whole : common.kind = .whole target)
    (other : expression.kind? ≠ some common.kind) :
    expression.metWidth (some common) width = target := by
  simp_all [metWidth]

/-- A carried value under a common type is met as the same number in the met width. -/
theorem Carried.cast_eq {context : Context} (standard : context.catalog = .standard)
    (whole : common.kind = .whole target) (other : expression.kind? ≠ some common.kind)
    (carried : Carried (some common) expression value) :
    ∃ met, context.cast value common.kind = pure met ∧
      value.Resized (expression.metWidth (some common)) met := by
  rcases carried.counts.null_or_whole with rfl | ⟨width, number, rfl⟩
  · exact ⟨.null, rfl, .null⟩
  · have fits := carried.fits width number rfl
    have met : expression.metWidth (some common) width = target := met_width_other width whole other
    let resized : Whole (expression.metWidth (some common) width) :=
      ⟨number.value, fits.1, fits.2⟩
    refine ⟨.whole _ resized, ?_, .whole number resized rfl⟩
    rw [whole, ← met]
    exact Context.cast_whole standard rfl

theorem Carried.own_eq (whole : common.kind = .whole target)
    (own : expression.kind? = some common.kind) (carried : Carried (some common) expression value) :
    value.Resized (expression.metWidth (some common)) value := by
  have same : expression.metWidth (some common) = id :=
    funext fun width => met_width_own width whole own
  rw [same]
  rcases carried.counts.null_or_whole with rfl | ⟨width, number, rfl⟩
  · exact .null
  · exact @Datum.Resized.whole id width number number rfl

/-- An operand under the common type goes on as the operand alone does, where what follows does not
tell a value from the same number in the met width. -/
theorem under_agrees (standard : scope.context.catalog = .standard)
    (whole : common.kind = .whole target) {result : Type}
    {next next' : Datum → Action Journal result} {start : Journal} {holds : Datum → Journal → Prop}
    (ends : EndsIn start (expression.eval scope)
      (fun value after => Carried (some common) expression value ∧ holds value after)
      fun _ _ => True)
    (continues : ∀ value met after, holds value after →
      value.Resized (expression.metWidth (some common)) met →
      AgreeFrom after (next met) (next' value) (fun _ _ => True) fun _ _ => True) :
    AgreeFrom start ((expression.under common).eval scope >>= next)
      (expression.eval scope >>= next') (fun _ _ => True) fun _ _ => True := by
  by_cases own : expression.kind? = some common.kind
  · rw [under, if_pos own]
    exact agree_bind ends fun value after held =>
      continues value value after held.2 (held.1.own_eq whole own)
  · have unfolded : ((expression.under common).eval scope >>= next) =
        expression.eval scope >>= fun value =>
          scope.context.cast value common.kind >>= next := by
      rw [under, if_neg own, eval, bind_assoc]
    rw [unfolded]
    refine agree_bind ends fun value after held => ?_
    obtain ⟨met, made, resized⟩ := held.1.cast_eq standard whole own
    rw [made, pure_bind]
    exact continues value met after held.2 resized

end Carrying

theorem Counts.whole {expression : Expr} {type : ColumnType} (counts : expression.Counts)
    (typed : expression.type? = some type) : ∃ width, type.kind = .whole width := by
  have isWhole : type.kind.isWhole = true := counts type.kind (by simp [kind?, typed])
  cases kind : type.kind <;> simp_all [Kind.isWhole]

variable {op : BinaryOp} {left right : Expr} {scope : Scope}

/-- Operands of different widths meet in the stronger one. -/
theorem meeting_wholes (coerced : op.isConnective = false) {leftWidth rightWidth : Width}
    (ofLeft : left.kind? = some (.whole leftWidth)) (ofRight : right.kind? = some (.whole rightWidth))
    (different : leftWidth ≠ rightWidth) :
    ∃ common, meeting? .standard op left right = some common ∧
      common.kind = .whole (leftWidth.stronger rightWidth) := by
  obtain ⟨leftType, typedLeft, leftKind⟩ := Option.map_eq_some_iff.mp ofLeft
  obtain ⟨rightType, typedRight, rightKind⟩ := Option.map_eq_some_iff.mp ofRight
  have differ : Differ op left right leftType rightType :=
    ⟨coerced, typedLeft, typedRight, by simpa [leftKind, rightKind] using different⟩
  have converts : ∀ {source target : Width}, source ≠ target →
      Catalog.standard.find? (.whole source) (.whole target) =
        some { source := .whole source, target := .whole target
               apply := Conversion.convert (.whole target) } := by
    intro source target other
    rw [Catalog.standard_find]
    simp [Conversion.standard?, Conversion.isStandard, other, Kind.isNumeric, Kind.isWhole]
  rw [differ.meeting]
  simp only [Catalog.commonType?, Catalog.targetType?, operand_type, leftKind, rightKind,
    converts different, converts different.symm, Kind.whole.injEq, different, different.symm,
    if_false, Option.map_some]
  by_cases weaker : (Kind.whole leftWidth).strength ≤ (Kind.whole rightWidth).strength
  · refine ⟨_, by rw [if_pos weaker]; rfl, ?_⟩
    rw [Width.stronger_comm]
    simp [Width.stronger, weaker, ColumnType.withNullable]
  · have stronger : (Kind.whole rightWidth).strength ≤ (Kind.whole leftWidth).strength := by omega
    refine ⟨_, by rw [if_neg weaker]; rfl, ?_⟩
    simp [Width.stronger, stronger, ColumnType.withNullable]

section Declared

variable {expression : Expr} {common : ColumnType} {own other : Width} {value : Datum}

theorem width_of_suits {width : Width} (ofOwn : expression.kind? = some (.whole own))
    (suits : value.Suits expression.type?) (ofValue : value.kind? = some (.whole width)) :
    width = own := by
  have present : value ≠ .null := by
    rintro rfl
    cases ofValue
  obtain ⟨type, typed, ofType⟩ := suits.typed present
  have kinds : type.kind = .whole own := by simpa [kind?, typed] using ofOwn
  rw [ofValue, kinds] at ofType
  simpa using ofType

/-- Numbers of the width of their expression are met in the common width, whether they are cast or
have it already. -/
theorem met_width_declared (ofOwn : expression.kind? = some (.whole own))
    (whole : common.kind = .whole (own.stronger other)) :
    expression.metWidth (some common) own = own.stronger other := by
  by_cases already : expression.kind? = some common.kind
  · have same : own = own.stronger other := by simpa [ofOwn, whole] using already
    rw [met_width_own own whole already]
    exact same
  · exact met_width_other own whole already

theorem carried_of_suits (ofOwn : expression.kind? = some (.whole own))
    (whole : common.kind = .whole (own.stronger other)) (suits : value.Suits expression.type?)
    (unsigned : other = .ubigint → value.NonNegative) :
    Carried (some common) expression value where
  counts := by
    intro kind ofKind
    have present : value ≠ .null := by
      rintro rfl
      cases ofKind
    obtain ⟨type, typed, ofType⟩ := suits.typed present
    have kinds : type.kind = .whole own := by simpa [kind?, typed] using ofOwn
    have same : kind = .whole own := by simpa [ofKind, kinds] using ofType
    rw [same]
    rfl
  fits := by
    intro width number value_eq
    have same : width = own := width_of_suits ofOwn suits (by rw [value_eq]; rfl)
    subst same
    rw [met_width_declared ofOwn whole]
    exact Width.fits_stronger other number fun isUnsigned =>
      unsigned isUnsigned number.value (by rw [value_eq]; rfl)

end Declared

/-- An operator gives on what its operands under a common type evaluate to what it gives on what
they evaluate to alone. -/
theorem wholes_agree (coerced : op.isConnective = false)
    (standard : scope.context.catalog = .standard) {common : ColumnType} {target : Width}
    (whole : common.kind = .whole target) {start : Journal}
    (operands : Operands scope left right start (Carried (some common) left) fun first second =>
      Carried (some common) right second ∧ SameStrength op (some common) left right first second) :
    AgreeFrom start ((binary op (left.under common) (right.under common)).eval scope)
      ((binary op left right).eval scope) (fun _ _ => True) fun _ _ => True := by
  refine under_agrees standard whole operands ?_
  intro first first' middle held resized
  refine under_agrees standard whole held ?_
  intro second second' after strength resized'
  rw [BinaryOp.apply_resized coerced resized resized' strength]
  exact agree_anyhow _ _

/-- Operands of which nothing but their static types is known are carried, unless a negative number
stands beside an operand of the unsigned width. -/
theorem operands_carried {leftWidth rightWidth : Width} {common : ColumnType}
    (ofLeft : left.kind? = some (.whole leftWidth)) (ofRight : right.kind? = some (.whole rightWidth))
    (whole : common.kind = .whole (leftWidth.stronger rightWidth)) {start : Journal}
    (declared : Operands scope left right start
      (fun first => first.Suits left.type? ∧
        (right.kind? = some .ubigint → first.NonNegative))
      fun _ second => second.Suits right.type? ∧
        (left.kind? = some .ubigint → second.NonNegative)) :
    Operands scope left right start (Carried (some common) left) fun first second =>
      Carried (some common) right second ∧
        SameStrength op (some common) left right first second := by
  have wholeRight : common.kind = .whole (rightWidth.stronger leftWidth) := by
    rw [whole, Width.stronger_comm]
  refine agree_weaken declared ?_ fun _ _ => id
  rintro first middle ⟨⟨suitsLeft, unsignedLeft⟩, rest⟩
  have carriedLeft : Carried (some common) left first :=
    carried_of_suits ofLeft whole suitsLeft fun isUnsigned =>
      unsignedLeft (by rw [ofRight, isUnsigned])
  refine ⟨carriedLeft, agree_weaken rest ?_ fun _ _ => id⟩
  rintro second after ⟨suitsRight, unsignedRight⟩
  refine ⟨carried_of_suits ofRight wholeRight suitsRight fun isUnsigned =>
    unsignedRight (by rw [ofLeft, isUnsigned]), ?_⟩
  intro arithmetic width width' _ ofFirst ofSecond
  rw [width_of_suits ofLeft suitsLeft ofFirst, width_of_suits ofRight suitsRight ofSecond,
    met_width_declared ofLeft whole, met_width_declared ofRight wholeRight,
    Width.stronger_comm rightWidth, Width.stronger_self]

/-- Bringing whole numbers to a common type is not noticed. An arithmetic or comparison operator on
operands of whole-number types, or untyped ones, can be composed, and what is composed evaluates to
what the plain operator does, with the same failures and warnings and whether failed casts are fatal
or not, where the numbers fit the widths in which they are met and these make the same arithmetic
width as their own. So it does where the operands evaluate to values of their static types, unless a
negative number is met beside an operand of the unsigned width. -/
theorem compose_keeps_whole_operands (coerced : op.isConnective = false) (leftCounts : left.Counts)
    (rightCounts : right.Counts) :
    ∃ composed, compose .standard op left right = .ok composed ∧
      ∀ (scope : Scope) (start : Journal), scope.context.catalog = .standard →
        (Operands scope left right start (Carried (meeting? .standard op left right) left)
            (fun first second => Carried (meeting? .standard op left right) right second ∧
              SameStrength op (meeting? .standard op left right) left right first second) ∨
          Operands scope left right start
            (fun first => first.Suits left.type? ∧
              (right.kind? = some .ubigint → first.NonNegative))
            fun _ second => second.Suits right.type? ∧
              (left.kind? = some .ubigint → second.NonNegative)) →
        (composed.eval scope).run start = ((binary op left right).eval scope).run start := by
  by_cases differing : ∃ leftType rightType, Differ op left right leftType rightType
  · obtain ⟨leftType, rightType, differ⟩ := differing
    obtain ⟨leftWidth, leftKind⟩ := leftCounts.whole differ.left
    obtain ⟨rightWidth, rightKind⟩ := rightCounts.whole differ.right
    have ofLeft : left.kind? = some (.whole leftWidth) := by simp [kind?, differ.left, leftKind]
    have ofRight : right.kind? = some (.whole rightWidth) := by
      simp [kind?, differ.right, rightKind]
    have different : leftWidth ≠ rightWidth := by
      simpa [leftKind, rightKind] using differ.kinds
    obtain ⟨common, meets, whole⟩ := meeting_wholes coerced ofLeft ofRight different
    have chosen := differ.meeting.symm.trans meets
    have built := composed_of_coerced (differ.coerce_both chosen)
    refine ⟨_, built, ?_⟩
    intro scope start standard operands
    rw [meets] at operands
    have carried := operands.elim id (operands_carried ofLeft ofRight whole)
    rw [compose_evaluates_as_deferred standard built start, deferred, meets]
    exact (wholes_agree coerced standard whole carried).1
  · have alike : ∀ leftType rightType, ¬ Differ op left right leftType rightType := by
      simpa using differing
    refine ⟨_, composed_of_coerced (coerce_both_alike alike).2, ?_⟩
    intro scope start _ _
    rw [combine_eval]

end Expr

/-! A balance below zero, an unsigned credit, a fee, and two small numbers of which one is declared
as wider than it is. -/

namespace Account

def balance : Expr :=
  .column 0 (.notNull .bigint)

def credit : Expr :=
  .column 1 (.notNull .ubigint)

def fee : Expr :=
  .column 2 (.notNull .bigint)

def total : Expr :=
  .column 3 (.notNull .integer)

def part : Expr :=
  .column 4 (.notNull .smallint)

def type : RowType :=
  ⟨0, [.notNull .bigint, .notNull .ubigint, .notNull .bigint, .notNull .integer,
    .notNull .smallint]⟩

def debt : Datum :=
  .whole .bigint ⟨-1, by decide, by decide⟩

def values : List Datum :=
  [debt, .whole .ubigint ⟨5, by decide, by decide⟩, .whole .bigint ⟨7, by decide, by decide⟩,
    .whole .smallint ⟨30000, by decide, by decide⟩, .whole .smallint ⟨10000, by decide, by decide⟩]

def scope (fatal : Bool) : Scope :=
  (Row.stored 1 type values).scope ⟨1, .standard, { castErrorsFatal := fatal }⟩ .empty

/-- The outcome from a journal of nothing. -/
def outcome (expression : Expr) (fatal : Bool) : Except Interrupt Datum :=
  ((expression.eval (scope fatal)).run {}).1

def owed : Expr :=
  .binary (.arithmetic .sub) credit (.cast fee (.notNull .ubigint))

def covered : Expr :=
  .binary (.comparison .lt) (.cast balance (.notNull .ubigint)) credit

def sum : Expr :=
  .binary (.arithmetic .add) total (.cast part (.notNull .integer))

theorem counts_of_kind {expression : Expr} {width : Width}
    (ofKind : expression.kind? = some (.whole width)) : expression.Counts := by
  intro kind isKind
  rw [ofKind] at isKind
  cases isKind
  rfl

/-- A credit less a greater fee is out of the unsigned range, whether the fee is cast or not. -/
theorem fee_beyond_credit :
    Expr.compose .standard (.arithmetic .sub) credit fee = .ok owed ∧
      (owed.eval (scope true)).run {} =
        ((Expr.binary (.arithmetic .sub) credit fee).eval (scope true)).run {} ∧
      outcome owed true = .error (.failed (.value none (.overflow .ubigint))) := by
  have built : Expr.compose .standard (.arithmetic .sub) credit fee = .ok owed := rfl
  have coerced : (BinaryOp.arithmetic .sub).isConnective = false := rfl
  obtain ⟨composed, made, same⟩ := Expr.compose_keeps_whole_operands coerced
    (counts_of_kind (rfl : credit.kind? = some (.whole .ubigint)))
    (counts_of_kind (rfl : fee.kind? = some (.whole .bigint)))
  cases built.symm.trans made
  refine ⟨built, same (scope true) {} rfl (.inr ?_), rfl⟩
  refine ⟨rfl, ⟨.inr rfl, fun impossible => by cases impossible⟩, rfl, .inr rfl, ?_⟩
  rintro _ _ ⟨⟩
  decide

/-- A balance below zero is less than every credit, but it is no unsigned number, so its comparison
with a credit fails or is unknown once it is composed. Two small numbers of which one is declared as
wider have a sum that is too large for them and not for the declared width. -/
theorem negative_beside_unsigned :
    (∀ fatal, outcome balance fatal = .ok debt ∧
      outcome credit fatal = .ok (.whole .ubigint ⟨5, by decide, by decide⟩) ∧
      outcome (.binary (.comparison .lt) balance credit) fatal = .ok (.boolean true)) ∧
    Expr.compose .standard (.comparison .lt) balance credit = .ok covered ∧
    outcome covered true = .error (.failed (.cast (Conversion.outOfRange debt .ubigint))) ∧
    outcome covered false = .ok .null ∧
    (∀ fatal, outcome total fatal = .ok (.whole .smallint ⟨30000, by decide, by decide⟩) ∧
      outcome part fatal = .ok (.whole .smallint ⟨10000, by decide, by decide⟩) ∧
      outcome (.binary (.arithmetic .add) total part) fatal =
        .error (.failed (.value none (.overflow .smallint)))) ∧
    Expr.compose .standard (.arithmetic .add) total part = .ok sum ∧
    ∀ fatal, outcome sum fatal = .ok (.whole .integer ⟨40000, by decide, by decide⟩) := by
  refine ⟨fun fatal => ?_, rfl, rfl, rfl, fun fatal => ?_, rfl, fun fatal => ?_⟩
  · cases fatal <;> exact ⟨rfl, rfl, rfl⟩
  · cases fatal <;> exact ⟨rfl, rfl, rfl⟩
  · cases fatal <;> rfl

end Account

end QueryExec
