import QueryExec.Proofs.Action.Outcome
import QueryExec.Proofs.Journal
import QueryExec.Proofs.Row.Evaluation

/-!
What rows mean whatever was computed before. The columns of a projected row are remembered by the
identity of the row, so a journal answers truly only if no two rows share an identity. A census
says which row has which identity; in a journal that agrees with a census, reading a row of the
census gives what reading it for the first time would give.
-/

namespace QueryExec

open QueryExec.Action

/-- Which projected row an identity belongs to. -/
abbrev Census : Type := Nat → Option Row

mutual

/-- The projected rows that can be read through a row are in the census. -/
def Row.Listed (census : Census) : Row → Prop
  | .stored _ _ _ => True
  | .projected id type base context bindings columns =>
      census id = some (.projected id type base context bindings columns) ∧
        base.Listed census ∧ bindings.Listed census

/-- The projected rows that can be read through a binding are in the census. -/
def Bindings.Listed (census : Census) : Bindings → Prop
  | .root _ => True
  | .nested _ parent => parent.Listed census
  | .parameter _ _ rest => rest.Listed census
  | .outer _ row rest => row.Listed census ∧ rest.Listed census

end

/-- A later census knows every row of an earlier one. -/
def Census.Within (earlier later : Census) : Prop :=
  ∀ id row, earlier id = some row → later id = some row

theorem Census.within_refl (census : Census) : census.Within census :=
  fun _ _ => id

theorem Census.Within.trans {first second third : Census} (begin : first.Within second)
    (continued : second.Within third) : first.Within third :=
  fun id row known => continued id row (begin id row known)

/-- The census after a row was made under a new identity. -/
def Census.with (census : Census) (id : Nat) (row : Row) : Census :=
  fun other => if other = id then some row else census other

theorem Census.within_with {census : Census} {id : Nat} (new : census id = none) (row : Row) :
    census.Within (census.with id row) := by
  intro other known listed
  by_cases same : other = id
  · rw [same, new] at listed
    cases listed
  · simpa [Census.with, same] using listed

/-- After the identity that was used, the later ones are still unused. -/
theorem Census.fresh_with {census : Census} {next : Nat}
    (fresh : ∀ id, next ≤ id → census id = none) (row : Row) :
    ∀ id, next + 1 ≤ id → census.with next row id = none := by
  intro id later
  have different : id ≠ next := by omega
  simpa [Census.with, different] using fresh id (Nat.le_of_succ_le later)

mutual

theorem Row.Listed.later {earlier later : Census} (within : earlier.Within later) :
    (row : Row) → row.Listed earlier → row.Listed later
  | .stored _ _ _, _ => trivial
  | .projected _ _ base _ bindings _, listed =>
      ⟨within _ _ listed.1, Row.Listed.later within base listed.2.1,
        Bindings.Listed.later within bindings listed.2.2⟩

theorem Bindings.Listed.later {earlier later : Census} (within : earlier.Within later) :
    (bindings : Bindings) → bindings.Listed earlier → bindings.Listed later
  | .root _, _ => trivial
  | .nested _ parent, listed => Bindings.Listed.later within parent listed
  | .parameter _ _ rest, listed => Bindings.Listed.later within rest listed
  | .outer _ row rest, listed =>
      ⟨Row.Listed.later within row listed.1, Bindings.Listed.later within rest listed.2⟩

end

theorem Bindings.listed_outer_row {census : Census} {index : Nat} {row : Row}
    (bindings : Bindings) (listed : bindings.Listed census)
    (found : bindings.outerRow? index = some row) : row.Listed census :=
  Bindings.outer_row_holds (fun held => held) (fun held => held) (fun held => held) bindings
    listed found

/-- The value or failure of a column that nothing was computed of before. -/
def Row.meaning (row : Row) (column : Nat) : Except Interrupt Datum :=
  ((row.read column).run {}).1

namespace Journal

/-- What is remembered under an identity is the meaning of the row that has it. -/
def Faithful (census : Census) (journal : Journal) : Prop :=
  ∀ id column value, journal.remembered? id column = some value →
    ∃ row, census id = some row ∧ row.meaning column = .ok value

/-- The context is not cancelled, and what is remembered is faithful. -/
structure Sound (context : Context) (census : Census) (journal : Journal) : Prop where
  uncancelled : (journal.of context).cancelled = false
  faithful : journal.Faithful census

variable {context : Context} {census : Census} {journal : Journal}

theorem faithful_empty : Faithful census {} :=
  fun _ _ _ impossible => by cases impossible

theorem sound_empty : Sound context census {} where
  uncancelled := rfl
  faithful := faithful_empty

theorem Faithful.later {census' : Census} (faithful : journal.Faithful census)
    (within : census.Within census') : journal.Faithful census' := by
  intro id column value remembered
  obtain ⟨row, known, means⟩ := faithful id column value remembered
  exact ⟨row, within id row known, means⟩

theorem Sound.later {census' : Census} (sound : journal.Sound context census)
    (within : census.Within census') : journal.Sound context census' :=
  ⟨sound.uncancelled, sound.faithful.later within⟩

theorem Sound.change (sound : journal.Sound context census) (changed : Context)
    {step : Diagnostics → Diagnostics}
    (keeps : ∀ before, (step before).cancelled = before.cancelled) :
    (journal.change changed step).Sound context census :=
  ⟨(cancelled_change journal context changed keeps).trans sound.uncancelled, sound.faithful⟩

theorem Sound.warn (sound : journal.Sound context census) (warned : Context) (message : String) :
    (journal.warn warned message).Sound context census :=
  sound.change warned fun before => by split <;> rfl

theorem Sound.tap (sound : journal.Sound context census) (tapped : Context) (name : String) :
    (journal.tap tapped name).Sound context census := by
  unfold Journal.tap
  split
  · exact sound.change tapped fun _ => rfl
  · exact sound

theorem Sound.remember (sound : journal.Sound context census) {id column : Nat} {row : Row}
    {value : Datum} (known : census id = some row) (means : row.meaning column = .ok value) :
    (journal.remember id column value).Sound context census where
  uncancelled := sound.uncancelled
  faithful := by
    intro other field stored remembered
    by_cases same : (other, field) = (id, column)
    · obtain ⟨rfl, rfl⟩ := Prod.mk.inj same
      have found : (journal.remember other field value).remembered? other field = some value :=
        Table.get_set_same _ _ _
      rw [found] at remembered
      cases remembered
      exact ⟨row, known, means⟩
    · have untouched : (journal.remember id column value).remembered? other field =
          journal.remembered? other field := Table.get_set_other _ _ _ _ same
      rw [untouched] at remembered
      exact sound.faithful other field stored remembered

end Journal

section Reading

variable {context : Context} {census : Census}

/-- Steps that have one outcome in all sound journals are put together of such steps. -/
theorem same_outcome_compositional (context : Context) (census : Census) :
    StepRelation.Compositional (SameOutcome (Journal.Sound context census)) where
  pure := fun value => ⟨.ok value, yields_pure value, yields_pure value⟩
  fail := fun error _ => ⟨.error (.failed error), yields_fail error, yields_fail error⟩
  warn := fun warned message => by
    have warns : Yields (Journal.Sound context census) (warned.warn message) (.ok ()) :=
      yields_modify fun _ sound => sound.warn warned message
    exact ⟨.ok (), warns, warns⟩
  bind := same_outcome_bind

/-- What reading a column of a projected row does once its expression is found. -/
def readOnce (own : Context) (id column : Nat) (compute : Action Journal Datum) :
    Action Journal Datum := do
  match (← get).remembered? id column with
  | some value => pure value
  | none => do
      own.tap "project.evaluate"
      let value ← compute
      modify fun journal => journal.remember id column value
      pure value

theorem read_once_known {own : Context} {id column : Nat} {compute : Action Journal Datum}
    {journal : Journal} {value : Datum} (remembered : journal.remembered? id column = some value) :
    (readOnce own id column compute).run journal = (.ok value, journal) := by
  unfold readOnce
  rw [run_bind]
  change (match journal.remembered? id column with
    | some value => _
    | none => _ : Action Journal Datum).run journal = _
  rw [remembered]
  rfl

theorem read_once_new {own : Context} {id column : Nat} {compute : Action Journal Datum}
    {journal : Journal} (missing : journal.remembered? id column = none) :
    (readOnce own id column compute).run journal =
      match compute.run (journal.tap own "project.evaluate") with
      | (.ok value, reached) => (.ok value, reached.remember id column value)
      | (.error interrupt, reached) => (.error interrupt, reached) := by
  unfold readOnce
  rw [run_bind]
  change (match journal.remembered? id column with
    | some value => _
    | none => _ : Action Journal Datum).run journal = _
  rw [missing]
  dsimp only
  rw [run_bind]
  change (compute >>= fun value => _ : Action Journal Datum).run
    (journal.tap own "project.evaluate") = _
  rw [run_bind]
  rcases compute.run (journal.tap own "project.evaluate") with ⟨interrupt | value, reached⟩ <;> rfl

/-- The first time the outcome is that of the computation. -/
theorem read_once_first (context : Context) {own : Context} {id column : Nat}
    {compute : Action Journal Datum} {outcome : Except Interrupt Datum}
    (computes : Yields (Journal.Sound context census) compute outcome) :
    ((readOnce own id column compute).run {}).1 = outcome := by
  obtain ⟨same, _⟩ := computes _ (Journal.sound_empty.tap own "project.evaluate")
  rw [read_once_new rfl]
  revert same
  rcases compute.run (Journal.tap {} own "project.evaluate") with ⟨_ | _, _⟩ <;>
    exact fun same => same

/-- Every other time it is the same, since what is remembered is what the row means. -/
theorem read_once_yields {id : Nat} {row : Row} (known : census id = some row) {column : Nat}
    (own : Context) {compute : Action Journal Datum} {outcome : Except Interrupt Datum}
    (means : row.meaning column = outcome)
    (computes : Yields (Journal.Sound context census) compute outcome) :
    Yields (Journal.Sound context census) (readOnce own id column compute) outcome := by
  intro journal sound
  cases remembered : journal.remembered? id column with
  | some value =>
      obtain ⟨other, same, meaning⟩ := sound.faithful id column value remembered
      rw [known] at same
      cases same
      rw [read_once_known remembered]
      exact ⟨meaning.symm.trans means, sound⟩
  | none =>
      obtain ⟨same, after⟩ := computes _ (sound.tap own "project.evaluate")
      rw [read_once_new remembered]
      revert same after
      rcases compute.run (journal.tap own "project.evaluate") with ⟨interrupt | value, reached⟩
      · intro alike after
        subst alike
        exact ⟨rfl, after⟩
      · intro alike after
        subst alike
        exact ⟨rfl, after.remember known means⟩

theorem read_projected {id : Nat} {type : RowType} {base : Row} {own : Context}
    {bindings : Bindings} {columns : List Expr} {column : Nat} {expression : Expr}
    (found : columns[column]? = some expression) :
    (Row.projected id type base own bindings columns).read column =
      readOnce own id column ((expression.eval (base.scope own bindings)).atColumn column) := by
  conv => lhs; unfold Row.read index
  rw [found]
  rfl

theorem read_outside {id : Nat} {type : RowType} {base : Row} {own : Context}
    {bindings : Bindings} {columns : List Expr} {column : Nat} (missing : columns[column]? = none) :
    (Row.projected id type base own bindings columns).read column =
      (throw .indexOutOfRange : Action Journal Datum) := by
  unfold Row.read index
  rw [missing]
  rfl

theorem read_stored (id : Nat) (type : RowType) (values : List Datum) (column : Nat) :
    (Row.stored id type values).read column = index values column := by
  unfold Row.read
  rfl

/-- Reading a listed row gives its meaning whatever was computed before: by induction on the rows
that are read. -/
theorem Row.read_yields (row : Row) (listed : row.Listed census) (column : Nat) :
    Yields (Journal.Sound context census) (row.read column) (row.meaning column) := by
  induction row using Row.induction generalizing column with
  | stored id type values =>
      have yields := yields_index (Journal.Sound context census) values column
      unfold Row.meaning
      rw [read_stored, (yields {} Journal.sound_empty).1]
      exact yields
  | projected id type base own bindings columns ofBase ofRows =>
      obtain ⟨known, below, bound⟩ := listed
      cases found : columns[column]? with
      | none =>
          unfold Row.meaning
          rw [read_outside found]
          exact fun _ sound => ⟨rfl, sound⟩
      | some expression =>
          have scopes : (base.scope own bindings).Alike (SameOutcome (Journal.Sound context census))
              (base.scope own bindings) :=
            { context := rfl
              parameter := rfl
              outer := rfl
              column := fun index => ⟨_, ofBase below index, ofBase below index⟩
              field := by
                intro index read found field
                obtain ⟨row, outer, rfl⟩ := Bindings.read_outer_row found
                have yields := ofRows index row outer (bindings.listed_outer_row bound outer) field
                exact ⟨_, yields, yields⟩ }
          obtain ⟨outcome, evaluates, _⟩ :=
            (same_outcome_compositional context census).eval scopes expression
          have computes := yields_at_column evaluates column
          have means : (Row.projected id type base own bindings columns).meaning column =
              outcome.mapError (·.atColumn column) := by
            unfold Row.meaning
            rw [read_projected found]
            exact read_once_first context computes
          rw [means, read_projected found]
          exact read_once_yields known own means computes

theorem Bindings.read_outer_settled {bindings : Bindings} (listed : bindings.Listed census)
    {index : Nat} {read : Nat → Action Journal Datum} (found : bindings.readOuter index = some read)
    (field : Nat) : SameOutcome (Journal.Sound context census) (read field) (read field) := by
  obtain ⟨row, outer, rfl⟩ := Bindings.read_outer_row found
  have settled := bindings.listed_outer_row listed outer
  exact ⟨_, row.read_yields settled field, row.read_yields settled field⟩

end Reading

/-- What can be seen of a row: its type, and of every column its value or its failure. -/
structure View where
  type : RowType
  column : Nat → Except Interrupt Datum

namespace View

/-- What an expression sees of a view under a binding. -/
def scope (view : View) (context : Context) (bindings : Bindings) : Scope where
  context := context
  column := fun index => ofOutcome (view.column index)
  parameter? := bindings.parameter?
  outer? := bindings.readOuter

/-- The value of an expression over a view, computed for the first time. -/
def eval (view : View) (context : Context) (bindings : Bindings) (expression : Expr) :
    Except Interrupt Datum :=
  ((expression.eval (view.scope context bindings)).run {}).1

/-- The values of all columns, or the first failure among them. -/
def values (view : View) : Except Interrupt (List Datum) :=
  (List.range view.type.width).mapM view.column

/-- The view of a row that was stored with these values. -/
def ofValues (type : RowType) (values : List Datum) : View where
  type := type
  column := entry values

/-- The view of a row with expressions over the row that is viewed. -/
def projected (view : View) (type : RowType) (context : Context) (bindings : Bindings)
    (columns : List Expr) : View where
  type := type
  column := fun column =>
    match columns[column]? with
    | some expression => (view.eval context bindings expression).mapError (·.atColumn column)
    | none => .error .indexOutOfRange

end View

def Row.view (row : Row) : View :=
  ⟨row.type, row.meaning⟩

namespace View

variable {view : View} {column : Nat}

/-- These are the values of the columns from `column` on. -/
def ShowsFrom (view : View) (column : Nat) : List Datum → Prop
  | [] => True
  | value :: values => view.column column = .ok value ∧ view.ShowsFrom (column + 1) values

theorem shows_append {first second : List Datum} :
    view.ShowsFrom column (first ++ second) ↔
      view.ShowsFrom column first ∧ view.ShowsFrom (column + first.length) second := by
  induction first generalizing column with
  | nil => simp [ShowsFrom]
  | cons value first induction =>
      have next : column + (first.length + 1) = column + 1 + first.length := by omega
      simp only [List.cons_append, ShowsFrom, induction, List.length_cons, next, and_assoc]

theorem shows_iff {values : List Datum} :
    view.ShowsFrom column values ↔ ∀ (place : Nat) (value : Datum),
      values[place]? = some value → view.column (column + place) = .ok value := by
  induction values generalizing column with
  | nil => simp [ShowsFrom]
  | cons first values induction =>
      have next : ∀ place, column + (place + 1) = column + 1 + place := by omega
      constructor
      · rintro ⟨read, shown⟩ (_ | place) value present
        · cases present
          exact read
        · rw [next]
          exact induction.mp shown place value present
      · intro shown
        refine ⟨shown 0 first rfl, induction.mpr fun place value present => ?_⟩
        rw [← next]
        exact shown (place + 1) value present

/-- Reading so many columns gives the values that are there. -/
theorem read_columns_iff {count : Nat} {values : List Datum} :
    (List.range' column count).mapM view.column = .ok values ↔
      values.length = count ∧ view.ShowsFrom column values := by
  induction count generalizing column values with
  | zero =>
      cases values with
      | nil => simp [ShowsFrom, pure, Except.pure]
      | cons => simp [pure, Except.pure]
  | succ count induction =>
      rw [List.range'_succ, List.mapM_cons]
      constructor
      · intro read
        obtain ⟨value, first, read⟩ := ok_of_bind read
        obtain ⟨others, rest, same⟩ := ok_of_bind read
        cases same
        obtain ⟨long, shown⟩ := induction.mp rest
        exact ⟨congrArg (· + 1) long, first, shown⟩
      · rintro ⟨long, shown⟩
        cases values with
        | nil => cases long
        | cons value values =>
            rw [shown.1]
            change (List.range' (column + 1) count).mapM view.column >>= _ = _
            rw [induction.mpr ⟨Nat.succ.inj long, shown.2⟩]
            rfl

end View

section Views

variable {context own : Context} {census : Census} {row : Row} {bindings : Bindings}

theorem view_stored (id : Nat) (type : RowType) (values : List Datum) :
    (Row.stored id type values).view = View.ofValues type values := by
  have meanings : (Row.stored id type values).meaning = (View.ofValues type values).column := by
    funext column
    have yields := yields_index (fun _ : Journal => True) values column
    unfold Row.meaning
    rw [read_stored]
    exact (yields {} trivial).1
  exact congrArg (View.mk type) meanings

/-- A stored row has the values that it was stored with. -/
theorem stored_values (id : Nat) {type : RowType} {values : List Datum}
    (width : values.length = type.width) :
    (Row.stored id type values).view.values = .ok values := by
  rw [view_stored]
  unfold View.values
  rw [List.range_eq_range']
  refine View.read_columns_iff.mpr ⟨width, View.shows_iff.mpr ?_⟩
  intro place value present
  rw [Nat.zero_add]
  unfold View.ofValues entry
  dsimp only
  rw [present]

/-- An expression over a listed row has the value that it has over the view of the row. -/
theorem eval_yields (listed : row.Listed census) (bound : bindings.Listed census) (own : Context)
    (expression : Expr) :
    Yields (Journal.Sound context census) (expression.eval (row.scope own bindings))
      (row.view.eval own bindings expression) := by
  have scopes : (row.scope own bindings).Alike (SameOutcome (Journal.Sound context census))
      (row.view.scope own bindings) :=
    { context := rfl
      parameter := rfl
      outer := rfl
      column := fun index => ⟨_, Row.read_yields row listed index, yields_of_outcome _⟩
      field := fun _ _ found => Bindings.read_outer_settled bound found }
  exact ((same_outcome_compositional context census).eval scopes expression).left_yields
    Journal.sound_empty

theorem view_projected {id : Nat} {type : RowType} {columns : List Expr}
    (listed : row.Listed census) (bound : bindings.Listed census) :
    (Row.projected id type row own bindings columns).view =
      row.view.projected type own bindings columns := by
  have meanings : (Row.projected id type row own bindings columns).meaning =
      (row.view.projected type own bindings columns).column := by
    funext column
    unfold Row.meaning View.projected
    cases found : columns[column]? with
    | none =>
        rw [read_outside found]
        simp only [found]
        rfl
    | some expression =>
        rw [read_projected found]
        simp only [found]
        exact read_once_first own
          (yields_at_column (eval_yields listed bound own expression) column)
  exact congrArg (View.mk type) meanings

theorem read_all_yields (listed : row.Listed census) :
    Yields (Journal.Sound context census) row.readAll row.view.values :=
  yields_map _ (row.read_yields listed)

end Views

end QueryExec
