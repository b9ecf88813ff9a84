import QueryExec.Proofs.Census.Engine
import QueryExec.Proofs.Tandem.Plans
import QueryExec.Proofs.Types.Aggregates
import QueryExec.Proofs.Types.Expressions

/-!
Static types of whole plans. Where the rows of the leaf have values of the kinds that their types
declare, and references are declared with the kinds of what they refer to, every row that a plan
emits has values of the kinds that its own type declares, whenever its columns are read and
whatever calls the cursor has got.
-/

namespace QueryExec

open QueryExec.Action QueryExec.Regime

/-- The columns of row types by their numbers. -/
abbrev Dictionary : Type := UInt32 → List ColumnType

/-- The type is the one that its number stands for. -/
def RowType.Registered (dictionary : Dictionary) (type : RowType) : Prop :=
  type.columns = dictionary type.id

theorem RowType.columns_eq_of_same {dictionary : Dictionary} {left right : RowType}
    (registered : left.Registered dictionary) (other : right.Registered dictionary)
    (same : left.same right = true) : left.columns = right.columns := by
  have numbers : left.id = right.id := beq_iff_eq.mp same
  rw [registered, other, numbers]

/-- A column that has a value has NULL or a value of the kind that its type declares. -/
def Row.Conforms (row : Row) : Prop :=
  ∀ (index : Nat) (column : ColumnType) (value : Datum), row.type.columns[index]? = some column →
    row.meaning index = .ok value → value.Fits column.kind

/-- A row that can be read in journals that are faithful to the census, with values of the kinds
that its type declares. -/
structure Row.Trusted (dictionary : Dictionary) (census : Census) (row : Row) : Prop where
  listed : row.Listed census
  registered : row.type.Registered dictionary
  conforms : row.Conforms

namespace Expr

/-- Columns are declared with the kinds that they have in rows with such columns. -/
def Reads (columns : List ColumnType) : Expr → Prop
  | literal _ => True
  | column index type => ∃ own, columns[index]? = some own ∧ own.kind = type.kind
  | parameter _ _ => True
  | outer _ _ _ => True
  | binary _ left right => left.Reads columns ∧ right.Reads columns
  | unary _ operand => operand.Reads columns
  | cast operand _ => operand.Reads columns
  | nullTest operand _ => operand.Reads columns

/-- Parameters and outer fields are declared with the kinds that they have under a binding. -/
def Receives (bindings : Bindings) : Expr → Prop
  | literal _ => True
  | column _ _ => True
  | parameter index type =>
      ∀ value, bindings.parameter? index = some value → value.Fits type.kind
  | outer binding field type =>
      ∀ row, bindings.outerRow? binding = some row → ∀ value, row.meaning field = .ok value →
        value.Fits type.kind
  | binary _ left right => left.Receives bindings ∧ right.Receives bindings
  | unary _ operand => operand.Receives bindings
  | cast operand _ => operand.Receives bindings
  | nullTest operand _ => operand.Receives bindings

/-- Where nothing is bound nothing is received. -/
theorem receives_empty (expression : Expr) : expression.Receives .empty := by
  induction expression with
  | literal value => exact trivial
  | column index type => exact trivial
  | parameter index type => exact fun value found => by cases found
  | outer binding field type => exact fun row found => by cases found
  | binary op left right ofLeft ofRight => exact ⟨ofLeft, ofRight⟩
  | unary op operand induction => exact induction
  | cast operand target induction => exact induction
  | nullTest operand negated induction => exact induction

end Expr

namespace Plan

/-- The names of the tables that a plan scans. -/
def tables : Plan → List String
  | values _ _ _ => []
  | table name _ => [name]
  | filter input _ => input.tables
  | project input _ _ => input.tables
  | aggregate input _ _ _ => input.tables
  | limit input _ _ => input.tables

/-- The types of a plan are those that it was built with, and its expressions declare the columns
of their input with the kinds that these have. -/
def Typed (dictionary : Dictionary) : Plan → Prop
  | values _ type _ => type.Registered dictionary
  | table _ type => type.Registered dictionary
  | filter input predicate => input.Typed dictionary ∧ predicate.Reads input.rowType.columns
  | project input type columns =>
      input.Typed dictionary ∧ type.Registered dictionary ∧
        projectionTypes 0 columns = .ok type.columns ∧
        ∀ column ∈ columns, column.Reads input.rowType.columns
  | aggregate input type keys aggregates =>
      input.Typed dictionary ∧ type.Registered dictionary ∧
        groupedTypes input.rowType.columns keys aggregates = .ok type.columns
  | limit input _ _ => input.Typed dictionary

/-- Under a binding the expressions of a plan receive what they declare. -/
def Receives (bindings : Bindings) : Plan → Prop
  | values _ _ _ => True
  | table _ _ => True
  | filter input predicate => input.Receives bindings ∧ predicate.Receives bindings
  | project input _ columns =>
      input.Receives bindings ∧ ∀ column ∈ columns, column.Receives bindings
  | aggregate input _ _ _ => input.Receives bindings
  | limit input _ _ => input.Receives bindings

theorem receives_empty (plan : Plan) : plan.Receives .empty := by
  induction plan with
  | values slice type rows => exact trivial
  | table name type => exact trivial
  | filter input predicate induction => exact ⟨induction, predicate.receives_empty⟩
  | project input type columns induction =>
      exact ⟨induction, fun column _ => column.receives_empty⟩
  | aggregate input type keys aggregates induction => exact induction
  | limit input offset limit? induction => exact induction

theorem Typed.registered {dictionary : Dictionary} {plan : Plan} (typed : plan.Typed dictionary) :
    plan.rowType.Registered dictionary := by
  induction plan with
  | values slice type rows => exact typed
  | table name type => exact typed
  | filter input predicate induction => exact induction typed.1
  | project input type columns induction => exact typed.2.1
  | aggregate input type keys aggregates induction => exact typed.2.1
  | limit input offset limit? induction => exact induction typed

section Building

variable {dictionary : Dictionary} {input plan : Plan} {engine after : Engine}
  (typed : input.Typed dictionary)

include typed

theorem filtered_typed {predicate : Expr} (reads : predicate.Reads input.rowType.columns)
    (built : input.filtered predicate = .ok plan) : plan.Typed dictionary := by
  obtain ⟨rfl, _⟩ := filtered_made built
  exact ⟨typed, reads⟩

/-- What building a projection checks makes it a typed plan, once its type is registered. -/
theorem projected_typed {columns : List Expr}
    (reads : ∀ column ∈ columns, column.Reads input.rowType.columns)
    (built : (input.projected columns).run engine = (.ok plan, after))
    (registered : plan.rowType.Registered dictionary) : plan.Typed dictionary := by
  obtain ⟨type, rfl, types⟩ := projected_made built
  exact ⟨typed, registered, types, reads⟩

/-- What building an aggregation checks makes it a typed plan, once its type is registered. -/
theorem aggregated_typed {keys : Nat} {aggregates : List Aggregate}
    (built : (input.aggregated keys aggregates).run engine = (.ok plan, after))
    (registered : plan.rowType.Registered dictionary) : plan.Typed dictionary := by
  obtain ⟨type, rfl, types⟩ := aggregated_made built
  exact ⟨typed, registered, types⟩

end Building

/-- The column at an index has the type of the expression there. -/
theorem projection_type_at {start : Nat} {columns : List Expr} {types : List ColumnType}
    (typed : projectionTypes start columns = .ok types) {index : Nat} {column : Expr}
    {type : ColumnType} (found : columns[index]? = some column)
    (declared : types[index]? = some type) : column.type? = some type := by
  induction columns generalizing start types index with
  | nil => exact absurd (List.getElem?_nil.symm.trans found) nofun
  | cons first rest induction =>
      unfold projectionTypes at typed
      split at typed
      next own ofFirst =>
        obtain ⟨others, typedRest, made⟩ := ok_of_bind typed
        cases made
        cases index with
        | zero =>
            cases found
            cases declared
            exact ofFirst
        | succ index => exact induction typedRest found declared
      next => cases typed

end Plan

section Reading

variable {census : Census} {row : Row} {bindings : Bindings}

/-- In a faithful journal a column has its meaning. -/
theorem read_answers (listed : row.Listed census) (index : Nat) :
    Answers (Journal.Faithful census) (row.read index) fun value =>
      row.meaning index = .ok value := by
  intro journal faithful
  obtain ⟨same, kept⟩ := yields_faithful (fun _ => row.read_yields listed index) journal faithful
  refine ⟨rfl, ?_⟩
  revert same kept
  rcases (row.read index).run journal with ⟨interrupt | value, after⟩
  · exact fun _ kept => kept
  · exact fun same kept => ⟨kept, same.symm⟩

/-- What an expression reads of a row that conforms and receives under a binding is as it
declares. -/
theorem declared_in_row (listed : row.Listed census) (conforms : row.Conforms)
    (bound : bindings.Listed census) (context : Context) {expression : Expr}
    (reads : expression.Reads row.type.columns) (receives : expression.Receives bindings) :
    expression.Declared (Journal.Faithful census) (fun type value => value.Fits type.kind)
      (row.scope context bindings) := by
  induction expression with
  | literal value => exact trivial
  | column index type =>
      obtain ⟨own, found, ofKind⟩ := reads
      refine answers_imp (read_answers listed index) fun value means => ?_
      change value.Fits type.kind
      rw [← ofKind]
      exact conforms index own value found means
  | parameter index type => exact receives
  | outer binding field type =>
      intro read found
      obtain ⟨other, present, rfl⟩ := Bindings.read_outer_row found
      exact answers_imp (read_answers (bindings.listed_outer_row bound present) field)
        (receives other present)
  | binary op left right ofLeft ofRight =>
      exact ⟨ofLeft reads.1 receives.1, ofRight reads.2 receives.2⟩
  | unary op operand induction => exact induction reads receives
  | cast operand target induction => exact induction reads receives
  | nullTest operand negated induction => exact induction reads receives

theorem faithful_tolerant (census : Census) : Journal.Tolerant (Journal.Faithful census) :=
  fun _ _ _ faithful => faithful

/-- A projection conforms to the types of its expressions. -/
theorem projected_conforms {context : Context} (standard : context.catalog = .standard)
    (listed : row.Listed census) (conforms : row.Conforms) (bound : bindings.Listed census)
    {columns : List Expr} (reads : ∀ column ∈ columns, column.Reads row.type.columns)
    (receives : ∀ column ∈ columns, column.Receives bindings) {id : Nat} {type : RowType}
    (typed : Plan.projectionTypes 0 columns = .ok type.columns) :
    (Row.projected id type row context bindings columns).Conforms := by
  intro index own value declared means
  change type.columns[index]? = some own at declared
  unfold Row.meaning at means
  cases found : columns[index]? with
  | none =>
      rw [read_outside found] at means
      cases means
  | some expression =>
      have member := List.mem_of_getElem? found
      have suits := Expr.eval_suits (faithful_tolerant census) standard
        (declared_in_row listed conforms bound context (reads expression member)
          (receives expression member))
      rw [Plan.projection_type_at typed found declared] at suits
      rw [read_projected found, read_once_new rfl] at means
      have ends := (answers_at_column suits index _
        (Journal.sound_empty.tap context "project.evaluate" : Journal.Sound context _ _).faithful).2
      revert means ends
      rcases ((expression.eval (row.scope context bindings)).atColumn index).run
        (Journal.tap {} context "project.evaluate") with ⟨interrupt | other, reached⟩
      · exact nofun
      · rintro ⟨⟩ ends
        exact ends.2

end Reading

theorem Row.Trusted.later {dictionary : Dictionary} {census later : Census} {row : Row}
    (trusted : row.Trusted dictionary census) (within : census.Within later) :
    row.Trusted dictionary later :=
  { trusted with listed := Row.Listed.later within row trusted.listed }

theorem RowType.holds_single {number : UInt32} {column : ColumnType} {value : Datum}
    (fits : value.Fits column.kind) : RowType.Holds ⟨number, [column]⟩ [value] := by
  rintro (_ | place) own other declared found
  · cases declared
    cases found
    exact fits
  · cases declared

/-- A row of values that its type declares conforms. -/
theorem Row.conforms_of_values (id : Nat) {type : RowType} {values : List Datum}
    (held : type.Holds values) : (Row.stored id type values).Conforms := by
  intro place column value declared means
  refine held place column value declared ?_
  unfold Row.meaning at means
  rw [read_stored] at means
  unfold index at means
  revert means
  cases values[place]? with
  | none => exact nofun
  | some other =>
      rintro ⟨⟩
      rfl

/-- A row of values that its type declares may be trusted. -/
theorem Row.trusted_of_values {dictionary : Dictionary} (census : Census) (id : Nat)
    {type : RowType} {values : List Datum} (registered : type.Registered dictionary)
    (held : type.Holds values) : (Row.stored id type values).Trusted dictionary census where
  listed := trivial
  registered := registered
  conforms := Row.conforms_of_values id held

namespace Context

/-- The runs are one run, which makes rows that may be trusted. -/
def typing (context : Context) (dictionary : Dictionary) (names : List String)
    (receives : Bindings → Prop) : Regime where
  World := Census
  Within := Census.Within
  calm := fun _ => True
  parts := False
  first := context
  second := context
  journal := fun census _ journal => journal.Faithful census
  rest := fun census engine =>
    (∀ id, engine.nextId ≤ id → census id = none) ∧
      ∀ name ∈ names, ∀ table, engine.store.table name = .ok table →
        ∀ row ∈ table.rows, row.Trusted dictionary census
  rows := fun census left right => left = right ∧ left.Trusted dictionary census
  bound := fun census bindings => bindings.Listed census ∧ receives bindings
  value := fun type index value =>
    ∀ column, type.columns[index]? = some column → value.Fits column.kind
  made := fun type values => type.Registered dictionary ∧ type.Holds values

variable {context : Context} {dictionary : Dictionary} {names : List String}
  {receives : Bindings → Prop} {census : Census} {result : Type}

/-- What one run answers, two equal runs answer alike. -/
theorem reads_of_answers {action : Action Journal result} {holds : result → Prop}
    (answers : Answers (Journal.Faithful census) action holds) :
    (context.typing dictionary names receives).Reads census False action action
      fun value partner => value = partner ∧ holds value := by
  intro company left right held
  have ends := (answers left held.2).2
  cases company with
  | together =>
      obtain rfl := held.1 rfl
      refine .inl ?_
      unfold EndTogether
      revert ends
      rcases action.run left with ⟨interrupt | value, after⟩
      · exact fun kept => ⟨rfl, trivial, fun _ => rfl, kept⟩
      · exact fun kept => ⟨⟨fun _ => rfl, kept.1⟩, rfl, kept.2⟩
  | alone =>
      unfold Tandem EndsAlone
      revert ends
      rcases action.run left with ⟨interrupt | value, after⟩
      · exact fun kept => ⟨trivial, after, nofun, kept⟩
      · exact fun kept => ⟨value, after, ⟨nofun, kept.1⟩, rfl, kept.2⟩

theorem reads_of_keeps {action : Action Journal result}
    (keeps : Keeps (Journal.Faithful census) action) :
    (context.typing dictionary names receives).Reads census False action action
      fun value partner => value = partner :=
  reads_imp (reads_of_answers (answers_of_keeps keeps)) fun _ _ => And.left

/-- A row may be added that is trusted with what is then in the census. -/
theorem pairs_make_trusted {make : Nat → Row} {parts : Prop}
    (makes : ∀ id, census id = none → ∃ later, census.Within later ∧
      (∀ other, id < other → census other = none → later other = none) ∧
      (make id).Trusted dictionary later) :
    (context.typing dictionary names receives).Pairs
      (context.typing dictionary names receives).Engines census parts
      (return make (← Engine.freshId)) (return make (← Engine.freshId))
      (context.typing dictionary names receives).rows := by
  apply pairs_make
  rintro engine ⟨fresh, stored⟩
  obtain ⟨later, within, others, trusted⟩ := makes engine.nextId (fresh _ (Nat.le_refl _))
  refine ⟨later, within, fun _ journal faithful => faithful.later within, ⟨?_, ?_⟩, rfl, trusted⟩
  · exact fun id above => others id above (fresh id (Nat.le_of_succ_le above))
  · exact fun name scanned table found row member =>
      (stored name scanned table found row member).later within

theorem pairs_project (standard : context.catalog = .standard) {input type : RowType} {base : Row}
    {bindings : Bindings} {columns : List Expr} (trusted : base.Trusted dictionary census)
    (inputRegistered : input.Registered dictionary) (own : base.type.same input = true)
    (bound : bindings.Listed census) (registered : type.Registered dictionary)
    (typed : Plan.projectionTypes 0 columns = .ok type.columns)
    (reads : ∀ column ∈ columns, column.Reads input.columns)
    (obtains : ∀ column ∈ columns, column.Receives bindings) :
    (context.typing dictionary names receives).Pairs
      (context.typing dictionary names receives).Engines census False
      (Engine.newProjection type base context bindings columns)
      (Engine.newProjection type base context bindings columns)
      (context.typing dictionary names receives).rows := by
  rw [← RowType.columns_eq_of_same trusted.registered inputRegistered own] at reads
  refine pairs_make_trusted fun id new => ?_
  let made := Row.projected id type base context bindings columns
  have within : census.Within (census.with id made) := Census.within_with new made
  refine ⟨census.with id made, within, ?_, ?_⟩
  · intro other above absent
    have different : other ≠ id := by omega
    simpa [Census.with, different] using absent
  · exact
      { listed := ⟨if_pos rfl, Row.Listed.later within base trusted.listed,
          Bindings.Listed.later within bindings bound⟩
        registered := registered
        conforms := projected_conforms standard trusted.listed trusted.conforms bound reads
          obtains typed }

theorem typing_lawful (receivesNothing : receives .empty) :
    (context.typing dictionary names receives).Lawful where
  refl := Census.within_refl
  trans := fun first second => first.trans second
  calm := fun _ _ => trivial
  catalog := rfl
  rows_later := fun within rows => ⟨rows.1, rows.2.later within⟩
  rows_type := fun rows => congrArg Row.type rows.1
  bound_later := fun within bound => ⟨bound.1.later within, bound.2⟩
  bound_empty := fun _ => ⟨trivial, receivesNothing⟩
  rest_journal := fun _ rest => rest
  rest_noted := fun _ rest => rest
  new_row := fun census type values made =>
    pairs_make_trusted fun id _ => ⟨census, census.within_refl, fun _ _ absent => absent,
      Row.trusted_of_values census id made.1 made.2⟩
  tap := fun _ name => reads_imp (reads_of_keeps (keeps_tap _ name)) fun _ _ _ => trivial
  check := fun _ => reads_imp (reads_of_keeps (keeps_check_cancelled _)) fun _ _ _ => trivial
  read := by
    rintro census left _ index ⟨rfl, trusted⟩
    exact reads_of_answers (answers_imp (read_answers trusted.listed index)
      fun value means column declared => trusted.conforms index column value declared means)

/-- Groups of trusted rows add up to trusted rows. -/
theorem typing_groups {plan : GroupingPlan} {aggregates : List Aggregate}
    (inputRegistered : plan.inputType.Registered dictionary)
    (registered : plan.outputType.Registered dictionary)
    (built : Plan.groupedTypes plan.inputType.columns plan.keys aggregates =
      .ok plan.outputType.columns) :
    Grouping.Groups (context.typing dictionary names receives) plan (Grouping.Keyed plan)
      (Grouping.Gathering plan) where
  value := by
    rintro census left _ index value ⟨rfl, trusted⟩ own fits column declared
    rw [← RowType.columns_eq_of_same trusted.registered inputRegistered own] at declared
    exact fits column declared
  key := Grouping.keyed_of_columns built
  reset := Grouping.gathering_reset
  takes := Grouping.gathering_input
  result := fun keyed gathering => ⟨registered,
    Grouping.results_hold keyed gathering Accumulator.result fun gathers => gathers.result⟩
  empty := by
    intro accumulators keyless gathering
    have keyed : Grouping.Keyed plan [] := ⟨keyless.symm, fun _ _ _ _ found => by cases found⟩
    exact ⟨registered, Grouping.results_hold keyed gathering Accumulator.emptyResult
      fun gathers => Accumulator.empty_result_fits gathers⟩

/-- A typed plan makes trusted rows of trusted rows: by induction on the plan. -/
theorem typing_admits (standard : context.catalog = .standard) {plan : Plan}
    (typed : plan.Typed dictionary) (scanned : plan.tables ⊆ names)
    (obtains : ∀ bindings, receives bindings → plan.Receives bindings) :
    (context.typing dictionary names receives).Admits plan := by
  induction plan with
  | values slice type rows => exact .values
  | table name type =>
      exact .table fun census engine table rest found row member =>
        ⟨rfl, rest.2 name (scanned List.mem_cons_self) table found row member⟩
  | filter input predicate induction =>
      refine .filter (induction typed.1 scanned fun bindings given => (obtains bindings given).1) ?_
      rintro census left _ bindings ⟨rfl, trusted⟩ own ⟨bound, given⟩
      exact reads_of_keeps (keeps_eval trusted.listed bound context predicate)
  | project input type columns induction =>
      refine .project
        (induction typed.1 scanned fun bindings given => (obtains bindings given).1) ?_
      rintro census left _ bindings ⟨rfl, trusted⟩ own ⟨bound, given⟩
      exact pairs_project standard trusted typed.1.registered own bound typed.2.1 typed.2.2.1
        typed.2.2.2 (obtains bindings given).2
  | aggregate input type keys aggregates induction =>
      exact .aggregate (induction typed.1 scanned obtains)
        (Grouping.Keyed ⟨input.rowType, type, keys⟩)
        (Grouping.Gathering ⟨input.rowType, type, keys⟩)
        (typing_groups typed.1.registered typed.2.1 typed.2.2)
        fun accumulators ready => Grouping.gathering_of_start typed.2.2 ready
  | limit input offset limit? induction => exact .limit (induction typed scanned obtains)

end Context

end QueryExec
