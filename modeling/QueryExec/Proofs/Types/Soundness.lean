import QueryExec.Proofs.Types.Plans

/-!
Static types are sound. A course is what may happen to an engine in which cursors of typed plans
run: they are started, called in any order and left, and in between anything else may happen that
leaves the rows that are known as they are. Whatever row is known in the end, be it given or
emitted, its columns have values of the kinds that its type declares.
-/

namespace QueryExec

open QueryExec.Action QueryExec.Regime

/-- The rows that have a part in what happens: those that may be trusted, and those that are only
bound and need not be as their types declare. -/
structure Roster where
  known : List Row
  lent : List Row

/-- Further rows join. -/
def Roster.joined (roster : Roster) (known lent : List Row) : Roster :=
  ⟨known ++ roster.known, lent ++ roster.lent⟩

/-- The census covers the engine, and the rows that are known or stored in the tables of such names
may be trusted. -/
structure Engine.Trusted (dictionary : Dictionary) (names : List String) (roster : Roster)
    (census : Census) (engine : Engine) : Prop where
  faithful : engine.journal.Faithful census
  fresh : ∀ id, engine.nextId ≤ id → census id = none
  stored : ∀ name ∈ names, ∀ table, engine.store.table name = .ok table →
    ∀ row ∈ table.rows, row.Trusted dictionary census
  known : ∀ row ∈ roster.known, row.Trusted dictionary census
  lent : ∀ row ∈ roster.lent, row.Listed census

/-- After a step the grown roster may be trusted wherever the roster could be before. -/
def Engine.Continues (dictionary : Dictionary) (names : List String) (roster grown : Roster)
    (engine after : Engine) : Prop :=
  ∀ census, engine.Trusted dictionary names roster census →
    ∃ later, census.Within later ∧ after.Trusted dictionary names grown later

/-- The outer rows of a binding are in the roster. -/
def Bindings.Among (roster : Roster) : Bindings → Prop
  | .root _ => True
  | .nested _ parent => parent.Among roster
  | .parameter _ _ rest => rest.Among roster
  | .outer _ row rest => (row ∈ roster.known ∨ row ∈ roster.lent) ∧ rest.Among roster

namespace Plan

/-- A cursor of a plan that runs in a context. -/
structure Live where
  plan : Plan
  context : Context
  cursor : plan.Cursor

namespace Live

/-- How a call ends. -/
def ran (live : Live) (call : CursorCall) (engine : Engine) :
    Except Interrupt CursorAnswer × live.plan.Cursor × Engine :=
  ((live.plan.protocol live.context).perform call).run (live.cursor, engine)

/-- The row that a call emits. -/
def emitted (live : Live) (call : CursorCall) (engine : Engine) : List Row :=
  match (live.ran call engine).1 with
  | .ok (CursorAnswer.row (some row)) => [row]
  | _ => []

/-- The cursor after a call. -/
def moved (live : Live) (call : CursorCall) (engine : Engine) : Live where
  plan := live.plan
  context := live.context
  cursor := (live.ran call engine).2.1

/-- The cursor and the engine after a call. -/
def step (call : CursorCall) (pair : Live × Engine) : Live × Engine :=
  (pair.1.moved call pair.2, (pair.1.ran call pair.2).2.2)

end Live

end Plan

/-- What can happen, with the rows on the roster and the cursors that run: cursors of typed plans
under the standard conversions are started over known rows and called, and anything else in which
the rows of the roster may still be trusted. A cursor that read outside of a row is not called
again. -/
inductive Course (dictionary : Dictionary) (names : List String) :
    Roster → List Plan.Live → Engine → Prop
  | begin {roster : Roster} {census : Census} {engine : Engine}
      (trusted : engine.Trusted dictionary names roster census) :
      Course dictionary names roster [] engine
  | meanwhile {roster : Roster} {known lent : List Row} {live : List Plan.Live}
      {engine after : Engine} (earlier : Course dictionary names roster live engine)
      (continues : engine.Continues dictionary names roster (roster.joined known lent) after) :
      Course dictionary names (roster.joined known lent) live after
  | start {roster : Roster} {live : List Plan.Live} {engine : Engine}
      (earlier : Course dictionary names roster live engine) {plan : Plan} {context : Context}
      (typed : plan.Typed dictionary) (standard : context.catalog = .standard)
      (scanned : plan.tables ⊆ names) (supplied : plan.supply ⊆ roster.known)
      {source : BindingSource}
      (bound : source.All fun bindings => bindings.Among roster ∧ plan.Receives bindings)
      {cursor : plan.Cursor} (started : plan.start engine.store source = .ok cursor) :
      Course dictionary names roster (⟨plan, context, cursor⟩ :: live) engine
  | call {roster : Roster} {before after : List Plan.Live} {one : Plan.Live} {engine : Engine}
      (earlier : Course dictionary names roster (before ++ one :: after) engine)
      (call : CursorCall) (inside : (one.ran call engine).1 ≠ .error .indexOutOfRange) :
      Course dictionary names (roster.joined (one.emitted call engine) [])
        (before ++ one.moved call engine :: after) (one.ran call engine).2.2

/-- A call of the only cursor. -/
theorem Course.step {dictionary : Dictionary} {names : List String} {roster : Roster}
    {pair : Plan.Live × Engine} (course : Course dictionary names roster [pair.1] pair.2)
    (call : CursorCall) (inside : (pair.1.ran call pair.2).1 ≠ .error .indexOutOfRange) :
    Course dictionary names (roster.joined (pair.1.emitted call pair.2) [])
      [(Plan.Live.step call pair).1] (Plan.Live.step call pair).2 :=
  @Course.call dictionary names roster [] [] pair.1 pair.2 course call inside

section Courses

variable {dictionary : Dictionary} {names : List String} {roster : Roster} {census : Census}
  {engine : Engine}

theorem Bindings.listed_among (trusted : engine.Trusted dictionary names roster census) :
    (bindings : Bindings) → bindings.Among roster → bindings.Listed census
  | .root _, _ => trivial
  | .nested _ parent, among => listed_among trusted parent among
  | .parameter _ _ rest, among => listed_among trusted rest among
  | .outer _ row rest, among =>
      ⟨among.1.elim (fun known => (trusted.known row known).listed) (trusted.lent row),
        listed_among trusted rest among.2⟩

/-- Reading a column of a known row leaves what is known. -/
theorem Engine.continues_read {row : Row} (member : row ∈ roster.known) (index : Nat) :
    engine.Continues dictionary names roster (roster.joined [] [])
      ((Engine.inJournal (row.read index)).run engine).2 := by
  intro census trusted
  have kept := (keeps_read (trusted.known row member).listed index engine.journal
    trusted.faithful).2
  refine ⟨census, census.within_refl, ?_⟩
  have faithful : ((row.read index).run engine.journal).2.Faithful census := by
    revert kept
    rcases (row.read index).run engine.journal with ⟨_ | _, after⟩ <;> exact id
  exact { trusted with faithful }

/-- The cursor keeps rows and bindings that may be trusted. -/
def Plan.Live.Kept (dictionary : Dictionary) (names : List String) (census : Census)
    (live : Plan.Live) : Prop :=
  ∃ related, Regime.Paired
      (live.context.typing dictionary names fun bindings => live.plan.Receives bindings)
      (live.plan.protocol live.context) (live.plan.protocol live.context) related ∧
    related census live.cursor live.cursor

theorem Plan.Live.Kept.later {later : Census} {live : Plan.Live}
    (kept : live.Kept dictionary names census) (within : census.Within later) :
    live.Kept dictionary names later := by
  obtain ⟨related, paired, held⟩ := kept
  exact ⟨related, paired, paired.lasting _ _ _ _ within held⟩

/-- A call keeps the cursor and the roster, and the row that it emits may be trusted. -/
theorem Plan.Live.call_kept {one : Plan.Live} (kept : one.Kept dictionary names census)
    (trusted : engine.Trusted dictionary names roster census) {call : CursorCall}
    (inside : (one.ran call engine).1 ≠ .error .indexOutOfRange) :
    ∃ later, census.Within later ∧ (one.moved call engine).Kept dictionary names later ∧
      (one.ran call engine).2.2.Trusted dictionary names
        (roster.joined (one.emitted call engine) []) later := by
  obtain ⟨related, paired, held⟩ := kept
  have lawful :
      (one.context.typing dictionary names fun bindings => one.plan.Receives bindings).Lawful :=
    Context.typing_lawful one.plan.receives_empty
  have ended := pairs_perform lawful paired call .together (one.cursor, engine)
    (one.cursor, engine) ⟨held, fun _ => rfl, trusted.faithful, trusted.fresh, trusted.stored⟩
  unfold Ends Tandem EndTogether at ended
  have alone := ended.resolve_right fun apart => apart.1
  have known (later : Census) (within : census.Within later) :
      ∀ row ∈ roster.known, row.Trusted dictionary later :=
    fun row member => (trusted.known row member).later within
  have lent (later : Census) (within : census.Within later) :
      ∀ row ∈ roster.lent, row.Listed later :=
    fun row member => Row.Listed.later within row (trusted.lent row member)
  unfold moved emitted
  unfold ran at inside ⊢
  revert inside alone
  rcases ((one.plan.protocol one.context).perform call).run (one.cursor, engine) with
    ⟨interrupt | answer, cursor, reached⟩
  · rintro inside ⟨_, _, later, within, ⟨held, _, faithful, fresh, stored⟩ | ⟨outside, _⟩⟩
    · exact ⟨later, within, ⟨related, paired, held⟩, faithful, fresh, stored,
        known later within, lent later within⟩
    · exact absurd (congrArg Except.error outside) inside
  · rintro _ ⟨later, within, ⟨held, _, faithful, fresh, stored⟩, answered⟩
    refine ⟨later, within, ⟨related, paired, held⟩, faithful, fresh, stored, ?_,
      lent later within⟩
    rcases answer with _ | ⟨_ | own⟩ | _
    · exact known later within
    · exact known later within
    · cases answered with
      | some rows => exact List.forall_mem_cons.mpr ⟨rows.2, known later within⟩
    · exact known later within

/-- A new cursor of a typed plan over known rows keeps rows and bindings that may be trusted. -/
theorem Plan.Live.start_kept {plan : Plan} {context : Context} (typed : plan.Typed dictionary)
    (standard : context.catalog = .standard)
    (trusted : engine.Trusted dictionary names roster census) (scanned : plan.tables ⊆ names)
    (supplied : plan.supply ⊆ roster.known) {source : BindingSource}
    (bound : source.All fun bindings => bindings.Among roster ∧ plan.Receives bindings)
    {cursor : plan.Cursor} (started : plan.start engine.store source = .ok cursor) :
    Plan.Live.Kept dictionary names census ⟨plan, context, cursor⟩ := by
  have lawful :
      (context.typing dictionary names fun bindings => plan.Receives bindings).Lawful :=
    Context.typing_lawful plan.receives_empty
  obtain ⟨related, paired, starts⟩ := Plan.paired lawful
    (Context.typing_admits standard typed scanned fun _ => id)
  refine ⟨related, paired, starts census engine.store source cursor started ?_ ?_⟩
  · exact fun row member => ⟨rfl, trusted.known row (supplied member)⟩
  · exact bound.imp fun bindings held => ⟨bindings.listed_among trusted held.1, held.2⟩

/-- Whatever happens, some census covers the engine, and the roster and the cursors may be trusted:
by induction on the course. -/
theorem Course.trusted {live : List Plan.Live}
    (course : Course dictionary names roster live engine) :
    ∃ census, engine.Trusted dictionary names roster census ∧
      ∀ one ∈ live, one.Kept dictionary names census := by
  induction course with
  | begin trusted => exact ⟨_, trusted, nofun⟩
  | meanwhile earlier continues induction =>
      obtain ⟨census, trusted, kept⟩ := induction
      obtain ⟨later, within, after⟩ := continues census trusted
      exact ⟨later, after, fun one member => (kept one member).later within⟩
  | start earlier typed standard scanned supplied bound started induction =>
      obtain ⟨census, trusted, kept⟩ := induction
      exact ⟨census, trusted, List.forall_mem_cons.mpr
        ⟨Plan.Live.start_kept typed standard trusted scanned supplied bound started, kept⟩⟩
  | call earlier call inside induction =>
      obtain ⟨census, trusted, kept⟩ := induction
      obtain ⟨before, own⟩ := List.forall_mem_append.mp kept
      obtain ⟨own, others⟩ := List.forall_mem_cons.mp own
      obtain ⟨later, within, moved, reached⟩ := Plan.Live.call_kept own trusted inside
      refine ⟨later, reached, List.forall_mem_append.mpr ⟨?_, List.forall_mem_cons.mpr ⟨moved, ?_⟩⟩⟩
      · exact fun one member => (before one member).later within
      · exact fun one member => (others one member).later within

end Courses

/-- Static types are sound. In every course the columns of the known rows, which are all that were
emitted, have NULL or values of the kinds that the row types declare, where they have values.
Numbers of row types repeat in the long run: the dictionary says that those at hand stand for one
type each. An expression whose references are declared with the kinds of what they give has NULL or
a value of its static kind, and NULL without a static type. -/
theorem static_types_sound :
    (∀ {dictionary : Dictionary} {names : List String} {roster : Roster} {live : List Plan.Live}
      {engine : Engine}, Course dictionary names roster live engine →
      ∀ row ∈ roster.known, ∀ index column value, row.type.columns[index]? = some column →
        ((row.read index).run engine.journal).1 = .ok value → value.Fits column.kind) ∧
    ∀ {good : Journal → Prop} {scope : Scope} {expression : Expr}, Journal.Tolerant good →
      scope.context.catalog = .standard →
      expression.Declared good (fun type value => value.Fits type.kind) scope →
      ∀ journal, good journal → ∀ value, ((expression.eval scope).run journal).1 = .ok value →
        value.Suits expression.type? := by
  constructor
  · intro dictionary names roster live engine course row member index column value declared read
    obtain ⟨census, trusted, _⟩ := course.trusted
    have own := trusted.known row member
    have means := answer_holds (read_answers own.listed index) trusted.faithful read
    exact own.conforms index column value declared means
  · intro good scope expression tolerant standard declared journal holds value evaluated
    exact answer_holds (Expr.eval_suits tolerant standard declared) holds evaluated

/-! The greatest of the numbers up to a bound, of those that are written as texts. -/

namespace Greatest

def texts : RowType :=
  ⟨0, [.notNull .text]⟩

def numbers : RowType :=
  ⟨1, [⟨.integer, true⟩]⟩

def greatest : RowType :=
  ⟨2, [⟨.integer, true⟩]⟩

def dictionary : Dictionary :=
  fun number => if number = 0 then texts.columns else numbers.columns

def rows : List Row :=
  [.stored 1 texts [.text "8"], .stored 2 texts [.text "x"], .stored 3 texts [.text "12"]]

/-- A row with a number where its type declares a text. -/
def most : Row :=
  .stored 4 texts [.whole .integer ⟨9, by decide, by decide⟩]

def numeral : Expr :=
  .cast (.column 0 (.notNull .text)) ⟨.integer, true⟩

def atMost : Expr :=
  .binary (.comparison .le) (.column 0 ⟨.integer, true⟩) (.outer 0 0 ⟨.integer, true⟩)

def leaf : Plan :=
  .values 0 texts rows

def converted : Plan :=
  .project leaf numbers [numeral]

def plan : Plan :=
  .aggregate (.filter converted atMost) greatest 0 [⟨.max, none⟩]

def engine : Engine :=
  { nextId := 5, nextTypeId := 3 }

def context : Context :=
  ⟨1, .standard, {}⟩

def bindings : Bindings :=
  .outer 0 most .empty

def eight : Datum :=
  .whole .integer ⟨8, by decide, by decide⟩

/-- The plan is built operator by operator. -/
theorem typed : plan.Typed dictionary := by
  have first : (leaf.projected [numeral]).run ({} : Engine) =
      (.ok converted, { nextTypeId := 2 }) := rfl
  have second : converted.filtered atMost = .ok (.filter converted atMost) := rfl
  have third : ((Plan.filter converted atMost).aggregated 0 [⟨.max, none⟩]).run
      ({ nextTypeId := 2 } : Engine) = (.ok plan, { nextTypeId := 3 }) := rfl
  have ofTexts : leaf.Typed dictionary := rfl
  have reads : numeral.Reads texts.columns := ⟨.notNull .text, rfl, rfl⟩
  have ofNumbers : converted.Typed dictionary :=
    Plan.projected_typed ofTexts (List.forall_mem_singleton.mpr reads) first rfl
  have sees : atMost.Reads numbers.columns := ⟨⟨⟨.integer, true⟩, rfl, rfl⟩, trivial⟩
  exact Plan.aggregated_typed (Plan.filtered_typed ofNumbers sees second) third rfl

/-- What counts is the value of the bound row, not what its type declares. -/
theorem plan_receives : plan.Receives bindings := by
  have own : atMost.Receives bindings := by
    refine ⟨trivial, ?_⟩
    rintro _ ⟨⟩ value means
    cases means
    exact .inr rfl
  exact ⟨⟨trivial, List.forall_mem_singleton.mpr trivial⟩, own⟩

theorem rows_trusted : engine.Trusted dictionary [] ⟨rows, [most]⟩ fun _ => none where
  faithful := Journal.faithful_empty
  fresh := fun _ _ => rfl
  stored := nofun
  known := by
    have own (id : Nat) (text : String) :
        (Row.stored id texts [.text text]).Trusted dictionary fun _ => none :=
      Row.trusted_of_values _ id rfl (RowType.holds_single (.inr rfl))
    exact List.forall_mem_cons.mpr ⟨own 1 "8", List.forall_mem_cons.mpr
      ⟨own 2 "x", List.forall_mem_singleton.mpr (own 3 "12")⟩⟩
  lent := List.forall_mem_singleton.mpr trivial

def cursor : plan.Cursor :=
  let projection : Project.State Scan := { own := (), input := { source := .ofOne bindings } }
  let filter : Filter.State (Project.State Scan) := { own := (), input := projection }
  ({ own := { accumulators := [.extremum .gt .null] }, input := filter } :
    Grouping.State (Filter.State (Project.State Scan)))

def fresh : Plan.Live × Engine :=
  (⟨plan, context, cursor⟩, engine)

def opened : Plan.Live × Engine :=
  Plan.Live.step .openPass (Plan.Live.step .nextBindings (Plan.Live.step .openBindings fresh))

def answered : Plan.Live × Engine :=
  Plan.Live.step .next opened

/-- The rows that the first call for a row emits. -/
def given : List Row :=
  opened.1.emitted .next opened.2

/-- What succeeds has not read outside of a row. -/
theorem inside_of_success {outcome : Except Interrupt CursorAnswer}
    (succeeds : outcome.toOption.isSome = true) : outcome ≠ .error .indexOutOfRange := by
  rintro rfl
  cases succeeds

theorem course_answered : ∃ roster,
    Course dictionary [] roster [answered.1] answered.2 ∧ given ⊆ roster.known := by
  have bound : (BindingSource.ofOne bindings).All fun bindings =>
      bindings.Among ⟨rows, [most]⟩ ∧ plan.Receives bindings :=
    ⟨⟨.inr List.mem_cons_self, trivial⟩, plan_receives⟩
  have started : Course dictionary [] ⟨rows, [most]⟩ [fresh.1] fresh.2 :=
    .start (.begin rows_trusted) typed rfl nofun (List.Subset.refl rows) bound rfl
  have first := started.step .openBindings (inside_of_success (by decide +kernel))
  have second := first.step .nextBindings (inside_of_success (by decide +kernel))
  have third := second.step .openPass (inside_of_success (by decide +kernel))
  have fourth := third.step .next (inside_of_success (by decide +kernel))
  exact ⟨_, fourth, List.subset_append_left _ _⟩

def scope : Scope :=
  ⟨context, Scope.noRow, fun _ => none, fun _ => none⟩

def unreadable : Expr :=
  .cast (.literal (.text "x")) ⟨.integer, true⟩

theorem ok_of_some {value : Datum} {outcome : Except Interrupt Datum}
    (found : outcome.toOption = some value) : outcome = .ok value := by
  cases outcome with
  | error interrupt => cases found
  | ok other =>
      cases found
      rfl

/-- The engine after the first column of a row was read. -/
def afterRead (row : Row) : Engine :=
  ((Engine.inJournal (row.read 0)).run answered.2).2

/-- The greatest number is emitted under a type of numbers and stays what it is when it is read
again, and a text that is no numeral is NULL as a number. -/
theorem eight_emitted :
    (∃ row ∈ given, row.type = greatest ∧
      ((row.read 0).run (afterRead row).journal).1 = .ok eight ∧ eight.Fits .integer) ∧
    ((unreadable.eval scope).run {}).1 = .ok .null ∧ Datum.null.Suits unreadable.type? := by
  have emitted : ∃ row ∈ given, row.type = greatest ∧
      ((row.read 0).run (afterRead row).journal).1.toOption = some eight := by
    decide +kernel
  have evaluated : ((unreadable.eval scope).run {}).1 = .ok .null :=
    ok_of_some (by decide +kernel)
  obtain ⟨row, member, type, read⟩ := emitted
  have declared : row.type.columns[0]? = some ⟨.integer, true⟩ := by
    rw [type]
    rfl
  obtain ⟨roster, answered, known⟩ := course_answered
  have course := answered.meanwhile (Engine.continues_read (known member) 0)
  have nothing : unreadable.Declared (fun _ => True) (fun type value => value.Fits type.kind)
      scope := trivial
  exact ⟨⟨row, member, type, ok_of_some read,
      static_types_sound.1 course row (List.mem_append_right [] (known member)) 0 _ eight declared
        (ok_of_some read)⟩,
    evaluated, static_types_sound.2 (fun _ _ _ _ => trivial) rfl nothing {} trivial _ evaluated⟩

end Greatest

/-! Values of other kinds than declared, over leaf rows as their types declare: under a type whose
number is that of another again, in a row of a cursor that is called on after it read outside of a
bound row, and of a bound row that is not as its type declares. -/

namespace Mistyped

def flag : RowType :=
  ⟨1, [⟨.boolean, true⟩]⟩

def word : RowType :=
  ⟨2, [⟨.text, true⟩]⟩

/-- The type of the copies, made when the numbers had all been given and began anew. -/
def again : RowType :=
  ⟨2, [⟨.boolean, true⟩]⟩

def least : RowType :=
  ⟨3, [⟨.boolean, true⟩]⟩

def flagOf : Expr :=
  .column 0 ⟨.boolean, true⟩

/-- A leaf with a row of another type than its own. -/
def mixed : Plan :=
  .values 0 flag [.stored 1 word [.text "x"]]

def copied : Plan :=
  .project mixed again [flagOf]

def plan : Plan :=
  .aggregate copied least 0 [⟨.min, none⟩]

def engine : Engine :=
  { nextId := 4, nextTypeId := 2 }

def context : Context :=
  ⟨0, .standard, {}⟩

theorem words_conform : ∀ row ∈ plan.supply, row.Conforms :=
  List.forall_mem_singleton.mpr (Row.conforms_of_values 1 (RowType.holds_single (.inr rfl)))

/-- Its one column refers to a second column of a row that has one. -/
def stray : Row :=
  .projected 3 word (.stored 2 flag [.boolean true]) context .empty [.column 1 ⟨.text, true⟩]

def bindings : Bindings :=
  .outer 0 stray .empty

def fieldOf : Expr :=
  .outer 0 0 ⟨.text, true⟩

def leaf : Plan :=
  .values 0 flag [.stored 1 flag [.boolean true]]

def paired : RowType :=
  ⟨4, [⟨.text, true⟩, ⟨.boolean, true⟩]⟩

def counted : RowType :=
  ⟨5, [⟨.text, true⟩, .notNull .bigint]⟩

def grouped : Plan :=
  .aggregate (.project leaf paired [fieldOf, flagOf]) counted 1 [⟨.count, none⟩]

def dictionary : Dictionary :=
  fun number => if number = 1 then flag.columns else if number = 4 then paired.columns
    else counted.columns

theorem grouped_typed : grouped.Typed dictionary := by
  have flags : leaf.Typed dictionary := rfl
  have reads : ∀ column ∈ [fieldOf, flagOf], column.Reads flag.columns :=
    List.forall_mem_cons.mpr ⟨trivial, List.forall_mem_singleton.mpr ⟨_, rfl, rfl⟩⟩
  exact ⟨⟨flags, rfl, rfl, reads⟩, rfl, rfl⟩

theorem flags_conform : ∀ row ∈ leaf.supply, row.Conforms :=
  List.forall_mem_singleton.mpr (Row.conforms_of_values 1 (RowType.holds_single (.inr rfl)))

/-- The column of the bound row has no value. -/
theorem grouped_receives : grouped.Receives bindings := by
  have field : fieldOf.Receives bindings := by
    rintro _ ⟨⟩ _ ⟨⟩
  exact ⟨trivial, List.forall_mem_cons.mpr ⟨field, List.forall_mem_singleton.mpr trivial⟩⟩

def cursor : grouped.Cursor :=
  let projection : Project.State Scan := { own := (), input := { source := .ofOne bindings } }
  ({ own := { accumulators := [.count 0] }, input := projection } :
    Grouping.State (Project.State Scan))

def opened : Plan.Live × Engine :=
  Plan.Live.step .openPass (Plan.Live.step .nextBindings (Plan.Live.step .openBindings
    (⟨grouped, context, cursor⟩, { engine with nextTypeId := 6 })))

def stopped : Plan.Live × Engine :=
  Plan.Live.step .next opened

def zero : Datum :=
  .whole .bigint ⟨0, by decide, by decide⟩

/-- The key of the group was not read when the group is given. -/
theorem count_emitted : ∃ row ∈ stopped.1.emitted .next stopped.2, row.type = counted ∧
    ((row.read 0).run {}).1 = .ok zero := by
  have emitted : ∃ row ∈ stopped.1.emitted .next stopped.2, row.type = counted ∧
      ((row.read 0).run {}).1.toOption = some zero := by
    decide +kernel
  obtain ⟨row, member, type, read⟩ := emitted
  exact ⟨row, member, type, Greatest.ok_of_some read⟩

/-- A number under the type of the texts. -/
def lent : Row :=
  .stored 3 word [zero]

def passed : Plan :=
  .project leaf ⟨6, [⟨.text, true⟩]⟩ [fieldOf]

/-- Plans over leaf rows that conform, with all references declared as what they refer to: the first
gives a text as the least of the truth values, the second a count as the text that it groups by. The
third refers to a bound row as the type of that row declares it, and gives the number in it as a
text. -/
theorem other_kinds_emitted :
    ((mixed.projected [flagOf]).run engine = (.ok copied, { engine with nextTypeId := 3 }) ∧
      (copied.aggregated 0 [⟨.min, none⟩]).run { engine with nextTypeId := 3 } =
        (.ok plan, { engine with nextTypeId := 4 }) ∧
      (∀ row ∈ plan.supply, row.Conforms) ∧ flagOf.Reads flag.columns ∧
      plan.rowType.columns = [⟨.boolean, true⟩] ∧
      ((plan.execute context .empty).run engine).1 = .ok [[.text "x"]] ∧
      ¬(Datum.text "x").Fits .boolean) ∧
    (grouped.Typed dictionary ∧ (∀ row ∈ grouped.supply, row.Conforms) ∧
      grouped.Receives bindings ∧ grouped.start engine.store (.ofOne bindings) = .ok cursor ∧
      (opened.1.ran .next opened.2).1.map (fun _ => ()) = .error .indexOutOfRange ∧
      counted.columns[0]? = some ⟨.text, true⟩ ∧
      ∃ row ∈ stopped.1.emitted .next stopped.2, row.type = counted ∧
        ((row.read 0).run {}).1 = .ok zero) ∧
    ((leaf.projected [fieldOf]).run { engine with nextTypeId := 6 } =
        (.ok passed, { engine with nextTypeId := 7 }) ∧
      (∀ row ∈ passed.supply, row.Conforms) ∧ lent.type.columns[0]? = some ⟨.text, true⟩ ∧
      passed.rowType.columns = [⟨.text, true⟩] ∧
      ((passed.execute context (.outer 0 lent .empty)).run engine).1 = .ok [[zero]]) ∧
    ¬zero.Fits .text := by
  have executed : ((plan.execute context .empty).run engine).1 = .ok [[.text "x"]] := by
    decide +kernel
  have panicked :
      (opened.1.ran .next opened.2).1.map (fun _ => ()) = .error .indexOutOfRange := by
    decide +kernel
  have handed : ((passed.execute context (.outer 0 lent .empty)).run engine).1 =
      .ok [[zero]] := by
    decide +kernel
  refine ⟨⟨rfl, rfl, words_conform, ⟨_, rfl, rfl⟩, rfl, executed, ?_⟩,
    ⟨grouped_typed, flags_conform, grouped_receives, rfl, panicked, rfl, count_emitted⟩,
    ⟨rfl, flags_conform, rfl, rfl, handed⟩, ?_⟩
  · simp [Datum.Fits, Datum.kind?]
  · simp [zero, Datum.Fits, Datum.kind?]

end Mistyped

end QueryExec
