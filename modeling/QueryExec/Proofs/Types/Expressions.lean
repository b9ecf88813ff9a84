import QueryExec.Proofs.Action.Invariant
import QueryExec.Proofs.Types.Operators
import QueryExec.Expr.Evaluate

/-!
Static types tell the kinds of values. If what an expression reads is of the kinds that its
references declare, its value is NULL or of the kind of its static type, and an expression without
a type has the value NULL. This holds in both cast error modes, since a failed conversion gives
NULL or no value at all.
-/

namespace QueryExec

namespace Action

variable {state result other : Type} {good : state → Prop} {holds : result → Prop}

/-- From good states the step ends in good states, and what it answers is such. -/
def Answers (good : state → Prop) (action : Action state result) (holds : result → Prop) : Prop :=
  ∀ start, good start → EndsIn start action (fun value after => good after ∧ holds value)
    fun _ after => good after

theorem answers_pure {value : result} (held : holds value) : Answers good (pure value) holds :=
  fun _ kept => agree_pure value ⟨kept, held⟩

theorem answers_fail (error : QueryError) : Answers good (fail error) holds :=
  fun _ kept => agree_fail error kept

theorem answers_bind {middle : other → Prop} {action : Action state other}
    {next : other → Action state result} (first : Answers good action middle)
    (second : ∀ value, middle value → Answers good (next value) holds) :
    Answers good (action >>= next) holds :=
  fun start kept => agree_bind (first start kept) fun value after ends =>
    second value ends.2 after ends.1

theorem answers_imp {weaker : result → Prop} {action : Action state result}
    (answers : Answers good action holds) (implies : ∀ value, holds value → weaker value) :
    Answers good action weaker :=
  fun start kept => agree_weaken (answers start kept)
    (fun value _ ends => ⟨ends.1, implies value ends.2⟩) fun _ _ => id

theorem answers_both {also : result → Prop} {action : Action state result}
    (answers : Answers good action holds) (others : Answers good action also) :
    Answers good action fun value => holds value ∧ also value :=
  fun start kept => agree_weaken (agree_both (answers start kept) (others start kept))
    (fun _ _ ends => ⟨ends.1.1, ends.1.2, ends.2.2⟩) fun _ _ ends => ends.1

theorem answers_of_keeps {action : Action state result} (keeps : Keeps good action) :
    Answers good action fun _ => True :=
  fun start kept => agree_weaken (keeps start kept) (fun _ _ after => ⟨after, trivial⟩)
    fun _ _ => id

theorem answers_of_value {outcome : Except ValueError result}
    (held : ∀ value, outcome = .ok value → holds value) :
    Answers good (ofValue outcome) holds := by
  cases outcome with
  | ok value => exact answers_pure (held value rfl)
  | error cause => exact answers_fail _

theorem answers_of_option {error : QueryError} {found : Option result}
    (held : ∀ value, found = some value → holds value) :
    Answers good (ofOption error found) holds := by
  cases found with
  | some value => exact answers_pure (held value rfl)
  | none => exact answers_fail _

/-- An answer that is given from a good state is such. -/
theorem answer_holds {action : Action state result} {start : state} {value : result}
    (answers : Answers good action holds) (kept : good start)
    (answered : (action.run start).1 = .ok value) : holds value := by
  have ends : EndsIn start action (fun value _ => holds value) fun _ _ => True :=
    agree_weaken (answers start kept) (fun _ _ ends => ends.2) fun _ _ _ => trivial
  exact answer_of_ends ends answered

/-- Whatever comes of it, an action from a good state ends in a good one. -/
theorem answers_keep {action : Action state result} {start : state}
    (answers : Answers good action holds) (kept : good start) : good (action.run start).2 :=
  reaches_of_ends (agree_weaken (answers start kept) (fun _ _ ends => ends.1) fun _ _ => id)

theorem answers_at_column {action : Action state result} (answers : Answers good action holds)
    (column : Nat) : Answers good (action.atColumn column) holds := by
  intro start kept
  refine ⟨rfl, ?_⟩
  have meets := (answers start kept).2
  rw [run_at_column]
  revert meets
  rcases action.run start with ⟨⟨_ | _⟩ | _, after⟩ <;> exact id

end Action

open QueryExec.Action

/-- The value is as the static type says: NULL or of its kind, and NULL without a type. -/
def Datum.Suits (type? : Option ColumnType) (value : Datum) : Prop :=
  match type? with
  | some type => value.Fits type.kind
  | none => value = .null

theorem Datum.null_suits (type? : Option ColumnType) : Datum.null.Suits type? := by
  cases type? with
  | none => exact rfl
  | some type => exact .inl rfl

/-- A value that is not NULL has a type and is of its kind. -/
theorem Datum.Suits.typed {type? : Option ColumnType} {value : Datum} (suits : value.Suits type?)
    (present : value ≠ .null) : ∃ type, type? = some type ∧ value.kind? = some type.kind := by
  cases type? with
  | none => exact absurd suits present
  | some type => exact ⟨type, rfl, suits.kind_of_present present⟩

/-- What the columns, parameters and outer fields of an expression give honours the types that they
are declared with. -/
def Expr.Declared (good : Journal → Prop) (honours : ColumnType → Datum → Prop) (scope : Scope) :
    Expr → Prop
  | literal _ => True
  | column index type => Answers good (scope.column index) (honours type)
  | parameter index type => ∀ value, scope.parameter? index = some value → honours type value
  | outer binding field type =>
      ∀ read, scope.outer? binding = some read → Answers good (read field) (honours type)
  | binary _ left right => left.Declared good honours scope ∧ right.Declared good honours scope
  | unary _ operand => operand.Declared good honours scope
  | cast operand _ => operand.Declared good honours scope
  | nullTest operand _ => operand.Declared good honours scope

/-- Warnings leave a good journal good. -/
def Journal.Tolerant (good : Journal → Prop) : Prop :=
  ∀ (context : Context) (message : String) (journal : Journal),
    good journal → good (journal.warn context message)

section Evaluation

variable {good : Journal → Prop} (tolerant : Journal.Tolerant good)

include tolerant

theorem keeps_recover (context : Context) (cause : CastError) :
    Keeps good (context.recover cause) := by
  unfold Context.recover
  split
  · exact keeps_fail _
  · exact keeps_modify fun journal => tolerant context _ journal

/-- What a cast answers is what the conversion gives, or NULL where it fails. -/
theorem cast_answers (context : Context) (value : Datum) (target : Kind) {holds : Datum → Prop}
    (converts : ∀ converted, context.catalog.convert value target = .ok converted → holds converted)
    (recovers : ∀ cause, context.catalog.convert value target = .error cause →
      context.settings.castErrorsFatal = false → holds .null) :
    Answers good (context.cast value target) holds := by
  unfold Context.cast
  split
  next converted made => exact answers_pure (converts converted made)
  next cause failed =>
    cases fatal : context.settings.castErrorsFatal with
    | false =>
        exact answers_bind (answers_of_keeps (keeps_recover tolerant context cause)) fun _ _ =>
          answers_pure (recovers cause failed fatal)
    | true =>
        have stops : Answers good (context.recover cause) fun _ => False := by
          unfold Context.recover
          rw [if_pos fatal]
          exact answers_fail _
        exact answers_bind stops fun _ => False.elim

theorem bit_pattern_answers (context : Context) (value : Datum) :
    Answers good (context.bitPattern value) fun _ => True := by
  have ofInteger (value : Datum) : Keeps good (context.patternOfInteger value) := by
    unfold Context.patternOfInteger
    split
    · exact keeps_pure _
    · exact keeps_pure _
    · exact keeps_bind (keeps_recover tolerant context _) fun _ => keeps_pure _
  apply answers_of_keeps
  unfold Context.bitPattern
  split
  · exact keeps_pure _
  all_goals exact ofInteger _

/-- Both bit operators give NULL for NULL and else a whole number of their width. -/
theorem on_bits_answers (context : Context) {width : Width} (value : Datum)
    (operate : Whole .ubigint → Whole width) {holds : Datum → Prop}
    (ofNull : value = .null → holds .null)
    (ofBits : value ≠ .null → ∀ bits, holds (.whole width (operate bits))) :
    Answers good (if value.isNull then pure .null
      else return .whole width (operate (← context.bitPattern value))) holds := by
  split
  next null => exact answers_pure (ofNull (Datum.is_null_iff.mp null))
  next present =>
    exact answers_bind (bit_pattern_answers tolerant context value) fun bits _ =>
      answers_pure (ofBits (fun null => present (Datum.is_null_iff.mpr null)) bits)

theorem unary_suits (context : Context) (op : UnaryOp) {operand : Expr} {value : Datum}
    (suits : value.Suits operand.type?) :
    Answers good (context.applyUnary op value) (Datum.Suits (Expr.unary op operand).type?) := by
  cases op with
  | neg =>
      refine answers_of_value fun negated made => ?_
      change negated.Suits operand.type?
      by_cases null : value = .null
      · subst null
        cases made
        exact suits
      · obtain ⟨type, typed, ofKind⟩ := suits.typed null
        rw [typed]
        exact .inr ((Datum.negate_kind made).trans ofKind)
  | not => exact answers_of_value fun _ made => Datum.invert_fits made
  | complement =>
      exact on_bits_answers tolerant context value Whole.complement (fun _ => Datum.null_suits _)
        fun _ _ => .inr rfl
  | popCount =>
      exact on_bits_answers tolerant context value Whole.popCount (fun _ => Datum.null_suits _)
        fun _ _ => .inr rfl

end Evaluation

/-- The static kind of an arithmetic expression is the kind that its operands make at run time. -/
theorem arithmetic_suits {op : Arithmetic} {left right : Expr} {first second value : Datum}
    (suitsLeft : first.Suits left.type?) (suitsRight : second.Suits right.type?)
    (applied : (BinaryOp.arithmetic op).apply first second = .ok value) :
    value.Suits (Expr.binary (.arithmetic op) left right).type? := by
  simp only [BinaryOp.apply] at applied
  split at applied
  next =>
    cases applied
    exact Datum.null_suits _
  next present =>
    simp only [Bool.or_eq_true, Datum.is_null_iff, not_or] at present
    obtain ⟨leftType, typedLeft, ofLeft⟩ := suitsLeft.typed present.1
    obtain ⟨rightType, typedRight, ofRight⟩ := suitsRight.typed present.2
    obtain ⟨kind, known, ofKind⟩ := Arithmetic.apply_kind ofLeft ofRight applied
    unfold Expr.type?
    rw [typedLeft, typedRight]
    dsimp only
    rw [known]
    exact .inr ofKind

theorem binary_suits {op : BinaryOp} {left right : Expr} {first second value : Datum}
    (suitsLeft : first.Suits left.type?) (suitsRight : second.Suits right.type?)
    (applied : op.apply first second = .ok value) :
    value.Suits (Expr.binary op left right).type? := by
  cases op with
  | arithmetic op => exact arithmetic_suits suitsLeft suitsRight applied
  | comparison op =>
      simp only [BinaryOp.apply] at applied
      split at applied
      · cases applied
        exact .inl rfl
      · exact .inr (Comparison.apply_kind applied)
  | connective op => exact Connective.apply_fits applied

theorem Expr.literal_suits (value : Datum) : value.Suits (literal value).type? := by
  cases value <;> first | exact .inr rfl | exact rfl

/-- The value of an expression suits its static type: by induction on the expression. -/
theorem Expr.eval_suits {good : Journal → Prop} (tolerant : Journal.Tolerant good) {scope : Scope}
    (standard : scope.context.catalog = .standard) {expression : Expr}
    (declared : expression.Declared good (fun type value => value.Fits type.kind) scope) :
    Answers good (expression.eval scope) (Datum.Suits expression.type?) := by
  induction expression with
  | literal value => exact answers_pure (literal_suits value)
  | column index type => exact declared
  | parameter index type => exact answers_of_option declared
  | outer binding field type =>
      unfold eval
      split
      next read found => exact declared read found
      next => exact answers_fail _
  | binary op left right leftSuits rightSuits =>
      refine answers_bind (leftSuits declared.1) fun first suitsLeft => ?_
      refine answers_bind (rightSuits declared.2) fun second suitsRight => ?_
      exact answers_of_value fun value applied => binary_suits suitsLeft suitsRight applied
  | unary op operand induction =>
      exact answers_bind (induction declared) fun value suits =>
        unary_suits tolerant scope.context op suits
  | cast operand target induction =>
      refine answers_bind (induction declared) fun value _ => ?_
      refine cast_answers tolerant scope.context value target.kind (fun converted made => ?_)
        fun _ _ _ => .inl rfl
      rw [standard] at made
      exact Catalog.standard_fits made
  | nullTest operand negated induction =>
      exact answers_bind (induction declared) fun value _ => answers_pure (.inr rfl)

end QueryExec
