import QueryExec.Proofs.Types.Plans

/-!
Reading rows within their columns. Where every row has a value or an expression for each column of
its type, and every reference is to a column that is there, reading and evaluating fail for reasons
that lie in the values only. What is remembered of rows has no part in it, so nothing is asked of
journals.
-/

namespace QueryExec

open QueryExec.Action

/-- Neither a read outside of a row nor a complaint about how a plan is put together. -/
def Interrupt.isOrderly : Interrupt → Bool
  | .failed (.configuration _) => false
  | .failed _ => true
  | .indexOutOfRange => false

namespace Action

variable {state result other : Type} {good before between after halts : state → Prop}
  {holds : result → Prop}

/-- From states before the step it ends in states after it with such an answer, or it stops in
states where it halts, for an orderly reason. -/
def Proceeds (before after halts : state → Prop) (action : Action state result)
    (holds : result → Prop) : Prop :=
  ∀ start, before start → EndsIn start action (fun value last => after last ∧ holds value)
    fun interrupt last => halts last ∧ interrupt.isOrderly = true

/-- The step keeps states good, however it ends. -/
abbrev Behaves (good : state → Prop) (action : Action state result) (holds : result → Prop) :
    Prop :=
  Proceeds good good good action holds

/-- The step stops for orderly reasons only, from whatever state. -/
abbrev Orderly (action : Action state result) : Prop :=
  Behaves (fun _ => True) action fun _ => True

theorem proceeds_pure {value : result} (held : holds value) :
    Proceeds good good halts (pure value) holds :=
  fun _ kept => agree_pure value ⟨kept, held⟩

theorem proceeds_fail {error : QueryError}
    (orderly : (Interrupt.failed error).isOrderly = true) :
    Proceeds good after good (fail error) holds :=
  fun _ kept => agree_fail error ⟨kept, orderly⟩

theorem proceeds_bind {middle : other → Prop} {action : Action state other}
    {next : other → Action state result} (first : Proceeds before between halts action middle)
    (second : ∀ value, middle value → Proceeds between after halts (next value) holds) :
    Proceeds before after halts (action >>= next) holds :=
  fun start kept => agree_bind (first start kept) fun value reached ends =>
    second value ends.2 reached ends.1

theorem proceeds_imp {earlier later stopped : state → Prop} {stronger : result → Prop}
    {action : Action state result} (proceeds : Proceeds earlier later stopped action stronger)
    (starts : ∀ start, before start → earlier start) (ends : ∀ last, later last → after last)
    (stops : ∀ last, stopped last → halts last) (implies : ∀ value, stronger value → holds value) :
    Proceeds before after halts action holds :=
  fun start kept => agree_weaken (proceeds start (starts start kept))
    (fun value last held => ⟨ends last held.1, implies value held.2⟩)
    fun _ last held => ⟨stops last held.1, held.2⟩

theorem behaves_imp {stronger : result → Prop} {action : Action state result}
    (behaves : Behaves good action stronger) (implies : ∀ value, stronger value → holds value) :
    Behaves good action holds :=
  proceeds_imp behaves (fun _ => id) (fun _ => id) (fun _ => id) implies

theorem proceeds_modify {step : state → state}
    (keeps : ∀ start, before start → after (step start)) :
    Proceeds before after halts (modify step) fun _ => True :=
  fun start kept => ⟨rfl, keeps start kept, trivial⟩

theorem proceeds_get {next : state → Action state result}
    (proceeds : ∀ seen, before seen → Proceeds before after halts (next seen) holds) :
    Proceeds before after halts (get >>= next) holds :=
  fun start kept => proceeds start kept start kept

theorem behaves_index {items : List result} {position : Nat} (inside : position < items.length) :
    Behaves good (index items position) fun _ => True := by
  unfold index
  rw [List.getElem?_eq_getElem inside]
  exact proceeds_pure trivial

theorem behaves_of_value (outcome : Except ValueError result) :
    Behaves good (ofValue outcome) fun _ => True := by
  cases outcome with
  | ok value => exact proceeds_pure trivial
  | error cause => exact proceeds_fail rfl

/-- The outcome is such a value or an orderly error. -/
def Told (holds : result → Prop) : Except QueryError result → Prop
  | .ok value => holds value
  | .error error => (Interrupt.failed error).isOrderly = true

theorem behaves_of_except {outcome : Except QueryError result} (told : Told holds outcome) :
    Behaves good (ofExcept outcome) holds := by
  cases outcome with
  | ok value => exact proceeds_pure told
  | error error => exact proceeds_fail told

theorem at_column_orderly (error : QueryError) (column : Nat) :
    (Interrupt.failed (error.atColumn column)).isOrderly = (Interrupt.failed error).isOrderly := by
  cases error <;> rfl

theorem behaves_at_column {action : Action state result} (behaves : Behaves good action holds)
    (column : Nat) : Behaves good (action.atColumn column) holds := by
  intro start kept
  have meets := (behaves start kept).2
  refine ⟨rfl, ?_⟩
  rw [run_at_column]
  revert meets
  rcases action.run start with ⟨⟨error | _⟩ | value, last⟩
  · exact fun ends => ⟨ends.1, (at_column_orderly error column).trans ends.2⟩
  · exact id
  · exact id

/-- Steps for each member of a list answer a list. -/
theorem behaves_map {item : Type} {step : item → Action state result} {each : item → result → Prop}
    {items : List item} (behaves : ∀ member ∈ items, Behaves good (step member) (each member)) :
    Behaves good (items.mapM step) (List.Forall₂ each items) := by
  induction items with
  | nil => exact proceeds_pure .nil
  | cons first rest induction =>
      obtain ⟨own, others⟩ := List.forall_mem_cons.mp behaves
      rw [List.mapM_cons]
      refine proceeds_bind own fun value held => ?_
      refine proceeds_bind (induction others) fun values all => ?_
      exact proceeds_pure (.cons held all)

/-- A query error becomes an answer. -/
theorem proceeds_attempt {action : Action state result}
    (proceeds : Proceeds before after after action holds) :
    Proceeds before after halts action.attempt (Told holds) := by
  intro start kept
  refine agree_attempt (agree_weaken (proceeds start kept) (fun _ _ => id) ?_)
  rintro (error | _) last ends
  · exact ends
  · cases ends.2

/-- A step that is cleaned up after stops where its cleanup leaves it. -/
theorem proceeds_on_failure {raw : state → Prop} {cleanup : Action state Unit}
    {action : Action state result} (proceeds : Proceeds before after raw action holds)
    (cleans : Proceeds raw halts halts cleanup fun _ => True) :
    Proceeds before after halts (onFailure cleanup action) holds := by
  intro start kept
  refine agree_on_failure (agree_weaken (proceeds start kept) (fun _ _ => id) ?_)
  rintro (error | _) last ⟨reached, orderly⟩
  · refine agree_weaken (cleans last reached) (fun _ _ ends => ⟨ends.1, orderly⟩) ?_
    rintro (other | _) final ends
    · exact ⟨ends.1, orderly⟩
    · cases ends.2
  · cases orderly

end Action

namespace Expr

/-- The columns that are referred to are among the first `width`. -/
def Within (width : Nat) : Expr → Prop
  | literal _ => True
  | column index _ => index < width
  | parameter _ _ => True
  | outer _ _ _ => True
  | binary _ left right => left.Within width ∧ right.Within width
  | unary _ operand => operand.Within width
  | cast operand _ => operand.Within width
  | nullTest operand _ => operand.Within width

/-- The fields of outer rows that are referred to are fields of every row that is bound at their
index. -/
def Reaches (bindings : Bindings) : Expr → Prop
  | literal _ => True
  | column _ _ => True
  | parameter _ _ => True
  | outer binding field _ =>
      ∀ row, bindings.outerRow? binding = some row → field < row.type.width
  | binary _ left right => left.Reaches bindings ∧ right.Reaches bindings
  | unary _ operand => operand.Reaches bindings
  | cast operand _ => operand.Reaches bindings
  | nullTest operand _ => operand.Reaches bindings

/-- Where nothing is bound every field is reached. -/
theorem reaches_empty (expression : Expr) : expression.Reaches .empty := by
  induction expression with
  | literal value => exact trivial
  | column index type => exact trivial
  | parameter index type => exact trivial
  | outer binding field type => exact nofun
  | binary op left right ofLeft ofRight => exact ⟨ofLeft, ofRight⟩
  | unary op operand induction => exact induction
  | cast operand target induction => exact induction
  | nullTest operand negated induction => exact induction

end Expr

mutual

/-- The row has a value or an expression for each column of its type, and so have all rows that it
reads; expressions refer to columns that are there. -/
def Row.Shaped (dictionary : Dictionary) : Row → Prop
  | .stored _ type values => type.Registered dictionary ∧ values.length = type.width
  | .projected _ type base _ bindings columns =>
      type.Registered dictionary ∧ columns.length = type.width ∧
        (∀ column ∈ columns, column.Within base.type.width ∧ column.Reaches bindings) ∧
        base.Shaped dictionary ∧ bindings.Shaped dictionary

def Bindings.Shaped (dictionary : Dictionary) : Bindings → Prop
  | .root _ => True
  | .nested _ parent => parent.Shaped dictionary
  | .parameter _ _ rest => rest.Shaped dictionary
  | .outer _ row rest => row.Shaped dictionary ∧ rest.Shaped dictionary

end

theorem Row.Shaped.registered {dictionary : Dictionary} {row : Row}
    (shaped : row.Shaped dictionary) : row.type.Registered dictionary := by
  cases row <;> exact shaped.1

/-- Rows of one type have columns at the same places. -/
theorem Row.Shaped.width_eq {dictionary : Dictionary} {row : Row} {type : RowType}
    (shaped : row.Shaped dictionary) (registered : type.Registered dictionary)
    (own : row.type.same type = true) : row.type.width = type.width :=
  congrArg List.length (RowType.columns_eq_of_same shaped.registered registered own)

section Evaluation

variable {good : Journal → Prop}

theorem changes_orderly (step : Journal → Journal) : Orderly (modify step) :=
  proceeds_modify fun _ _ => trivial

theorem recover_orderly (context : Context) (cause : CastError) :
    Orderly (context.recover cause) := by
  unfold Context.recover
  split
  · exact proceeds_fail rfl
  · exact changes_orderly _

theorem cast_orderly (context : Context) (value : Datum) (target : Kind) :
    Orderly (context.cast value target) := by
  unfold Context.cast
  split
  · exact proceeds_pure trivial
  · exact proceeds_bind (recover_orderly context _) fun _ _ => proceeds_pure trivial

theorem pattern_of_integer_orderly (context : Context) (value : Datum) :
    Orderly (context.patternOfInteger value) := by
  unfold Context.patternOfInteger
  split
  · exact proceeds_pure trivial
  · exact proceeds_pure trivial
  · exact proceeds_bind (recover_orderly context _) fun _ _ => proceeds_pure trivial

theorem bit_pattern_orderly (context : Context) (value : Datum) :
    Orderly (context.bitPattern value) := by
  unfold Context.bitPattern
  split
  · exact proceeds_pure trivial
  all_goals exact pattern_of_integer_orderly context _

theorem apply_unary_orderly (context : Context) (op : UnaryOp) (value : Datum) :
    Orderly (context.applyUnary op value) := by
  have bits (make : Whole .ubigint → Datum) :
      Orderly (if value.isNull then pure .null
        else return make (← context.bitPattern value)) := by
    split
    · exact proceeds_pure trivial
    · exact proceeds_bind (bit_pattern_orderly context value) fun _ _ => proceeds_pure trivial
  cases op with
  | neg => exact behaves_of_value _
  | not => exact behaves_of_value _
  | complement => exact bits fun pattern => .whole .ubigint pattern.complement
  | popCount => exact bits fun pattern => .whole .bigint pattern.popCount

/-- An expression is evaluated orderly where the columns and fields that it refers to are read
orderly: one case for each form of expression. -/
theorem Expr.eval_orderly {row : Row} {bindings : Bindings} (context : Context)
    (columns : ∀ index, index < row.type.width → Orderly (row.read index))
    (fields : ∀ binding outer, bindings.outerRow? binding = some outer →
      ∀ field, field < outer.type.width → Orderly (outer.read field))
    {expression : Expr} (within : expression.Within row.type.width)
    (reaches : expression.Reaches bindings) :
    Orderly (expression.eval (row.scope context bindings)) := by
  induction expression with
  | literal value => exact proceeds_pure trivial
  | column index type => exact columns index within
  | parameter index type =>
      unfold Expr.eval ofOption
      split
      · exact proceeds_pure trivial
      · exact proceeds_fail rfl
  | outer binding field type =>
      unfold Expr.eval
      split
      next read found =>
        obtain ⟨outer, bound, rfl⟩ := Bindings.read_outer_row found
        exact fields binding outer bound field (reaches outer bound)
      next => exact proceeds_fail rfl
  | binary op left right ofLeft ofRight =>
      exact proceeds_bind (ofLeft within.1 reaches.1) fun _ _ =>
        proceeds_bind (ofRight within.2 reaches.2) fun _ _ => behaves_of_value _
  | unary op operand induction =>
      exact proceeds_bind (induction within reaches) fun value _ =>
        apply_unary_orderly context op value
  | cast operand target induction =>
      exact proceeds_bind (induction within reaches) fun value _ =>
        cast_orderly context value _
  | nullTest operand negated induction =>
      exact proceeds_bind (induction within reaches) fun _ _ => proceeds_pure trivial

end Evaluation

section Reading

variable {dictionary : Dictionary}

/-- The rows that are bound in a well-formed binding are well-formed. -/
theorem Bindings.Shaped.outer_row {bindings : Bindings} {index : Nat} {row : Row}
    (shaped : bindings.Shaped dictionary) (found : bindings.outerRow? index = some row) :
    row.Shaped dictionary :=
  Bindings.outer_row_holds (fun held => held) (fun held => held) (fun held => held) bindings
    shaped found

/-- A column that is there is read orderly: by induction on the rows that are read. -/
theorem Row.read_orderly (row : Row) (shaped : row.Shaped dictionary) (column : Nat)
    (inside : column < row.type.width) : Orderly (row.read column) := by
  induction row using Row.induction generalizing column with
  | stored id type values =>
      rw [read_stored]
      exact behaves_index (shaped.2.symm ▸ inside)
  | projected id type base own bindings columns ofBase ofRows =>
      obtain ⟨_, long, refers, below, bound⟩ := shaped
      have present : column < columns.length := long.symm ▸ inside
      have found := List.getElem?_eq_getElem present
      rw [read_projected found]
      have fields (binding : Nat) (row : Row) (outer : bindings.outerRow? binding = some row) :=
        ofRows binding row outer (bound.outer_row outer)
      have evaluates : Orderly (columns[column].eval (base.scope own bindings)) :=
        Expr.eval_orderly own (ofBase below) fields
          (refers _ (List.getElem_mem present)).1 (refers _ (List.getElem_mem present)).2
      have taps : Orderly (own.tap "project.evaluate") := changes_orderly _
      have remembers (value : Datum) :
          Orderly (modify fun journal => Journal.remember journal id column value) :=
        changes_orderly _
      refine proceeds_get fun journal _ => ?_
      split
      · exact proceeds_pure trivial
      · refine proceeds_bind taps fun _ _ => ?_
        refine proceeds_bind (behaves_at_column evaluates column) fun value _ => ?_
        exact proceeds_bind (remembers value) fun _ _ => proceeds_pure trivial

variable {row : Row} {bindings : Bindings}

/-- The first columns of a row are read orderly, and give one value each. -/
theorem Row.read_columns_orderly (shaped : row.Shaped dictionary) {count : Nat}
    (inside : count ≤ row.type.width) :
    Behaves (fun _ => True) ((List.range count).mapM row.read) fun values =>
      values.length = count := by
  have reads : Behaves (fun _ => True) ((List.range count).mapM row.read)
      (List.Forall₂ (fun _ _ => True) (List.range count)) :=
    behaves_map fun column member =>
      row.read_orderly shaped column (Nat.lt_of_lt_of_le (List.mem_range.mp member) inside)
  exact behaves_imp reads fun values all => by rw [← all.length_eq, List.length_range]

theorem Row.eval_orderly (shaped : row.Shaped dictionary) (bound : bindings.Shaped dictionary)
    (context : Context) {expression : Expr} (within : expression.Within row.type.width)
    (reaches : expression.Reaches bindings) :
    Orderly (expression.eval (row.scope context bindings)) :=
  Expr.eval_orderly context (row.read_orderly shaped)
    (fun _ outer found => outer.read_orderly (bound.outer_row found)) within reaches

end Reading

end QueryExec
