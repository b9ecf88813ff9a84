import Mathlib.Data.Finset.Card
import Mathlib.Data.Finset.Dedup
import QueryExec.Proofs.Row.Lazy

/-!
Towers of projected rows that are read lazily, in any order. Each read answers what evaluating the
whole tower would give, a value that was computed once stays and is given again, and a failure leaves
its cell empty. The evaluations that are counted are the failed reads and the first successful ones,
those that one row makes of the row below included.
-/

namespace QueryExec

open QueryExec.Action

namespace Reading

/-- Reads made one after another, whatever fails: their outcomes and the journal that is left. -/
def run : List Reading → Journal → List (Except Interrupt Datum) × Journal
  | [], journal => ([], journal)
  | reading :: rest, journal =>
      let (outcome, after) := (reading.row.read reading.column).run journal
      let (others, last) := run rest after
      (outcome :: others, last)

/-- All reads of projected columns that these reads take, on all levels, themselves included. -/
def taken (reads : List Reading) (journal : Journal) : List Reading :=
  Cells.inTurn (fun reading => reading.row.readings reading.column) reads journal.filled

/-- How many of the reads fail, of those that the context counts. -/
def failures (context : Context) (log : List Reading) : Nat :=
  log.countP fun reading => reading.countsIn context && !reading.succeeds

/-- The cells that these reads are the first to fill, of those that the context counts. -/
def firsts (context : Context) (filled : Cells) (log : List Reading) : Finset (Nat × Nat) :=
  {cell ∈ ((log.filter fun reading => reading.countsIn context && reading.succeeds).map
    Reading.cell).toFinset | filled cell = false}

end Reading

/-- Whether the row computes its columns. -/
def Row.isProjected : Row → Bool
  | .stored _ _ _ => false
  | .projected _ _ _ _ _ _ => true

section Counting

variable {context : Context} {filled : Cells} {reading : Reading} {log : List Reading}

theorem Reading.failures_cons (context : Context) (reading : Reading) (log : List Reading) :
    failures context (reading :: log) =
      failures context log + if reading.countsIn context && !reading.succeeds then 1 else 0 :=
  List.countP_cons

theorem Reading.mem_firsts {cell : Nat × Nat} :
    cell ∈ firsts context filled log ↔
      (∃ reading ∈ log, reading.countsIn context = true ∧ reading.succeeds = true ∧
        reading.cell = cell) ∧ filled cell = false := by
  simp only [firsts, Finset.mem_filter, List.mem_toFinset, List.mem_map, List.mem_filter,
    Bool.and_eq_true, and_assoc]

/-- A read that is not counted, fails or finds a value is the first for no cell. -/
theorem Reading.firsts_skip
    (other : (reading.countsIn context && reading.succeeds) = false ∨ filled reading.cell = true) :
    firsts context filled (reading :: log) = firsts context filled log := by
  ext cell
  simp only [mem_firsts, List.mem_cons]
  constructor
  · rintro ⟨⟨found, rfl | among, counts, succeeds, rfl⟩, empty⟩
    · simp [counts, succeeds, empty] at other
    · exact ⟨⟨found, among, counts, succeeds, rfl⟩, empty⟩
  · rintro ⟨⟨found, among, held⟩, empty⟩
    exact ⟨⟨found, .inr among, held⟩, empty⟩

/-- A counted success in an empty cell is the first for it, and later ones are not. -/
theorem Reading.firsts_new (counts : reading.countsIn context = true)
    (succeeds : reading.succeeds = true) (empty : filled reading.cell = false) :
    (firsts context filled (reading :: log)).card =
      (firsts context (filled.after [reading]) log).card + 1 := by
  have apart : reading.cell ∉ firsts context (filled.after [reading]) log := by
    rw [mem_firsts, Cells.after_succeeded succeeds]
    simp
  rw [← Finset.card_insert_of_notMem apart]
  refine congrArg Finset.card ?_
  ext cell
  simp only [mem_firsts, List.mem_cons, Finset.mem_insert, Cells.after_succeeded succeeds]
  constructor
  · rintro ⟨⟨found, rfl | among, held⟩, vacant⟩
    · exact .inl held.2.2.symm
    · by_cases same : reading.cell = cell
      · exact .inl same.symm
      · exact .inr ⟨⟨found, among, held⟩, by simp [vacant, same]⟩
  · rintro (rfl | ⟨⟨found, among, held⟩, vacant⟩)
    · exact ⟨⟨reading, .inl rfl, counts, succeeds, rfl⟩, empty⟩
    · exact ⟨⟨found, .inr among, held⟩, (Bool.or_eq_false_iff.mp vacant).1⟩

/-- Without a counted read of the cell it does not matter whether it is filled. -/
theorem Reading.firsts_after (succeeds : reading.succeeds = true)
    (none : ∀ other ∈ log, other.countsIn context = true → other.cell ≠ reading.cell) :
    firsts context (filled.after [reading]) log = firsts context filled log := by
  ext cell
  simp only [mem_firsts, Cells.after_succeeded succeeds]
  refine and_congr_right fun ⟨found, among, counts, _, same⟩ => ?_
  have apart : (reading.cell == cell) = false := by
    rw [← same]
    exact beq_false_of_ne (Ne.symm (none found among counts))
  rw [apart, Bool.or_false]

/-- A read that finds its cell empty fails, or is the first one to succeed. -/
theorem Cells.misses_count
    (alike : ∀ reading ∈ log, ∀ other ∈ log, reading.cell = other.cell → reading = other)
    (known : ∀ reading ∈ log, filled reading.cell = true → reading.succeeds = true) :
    (filled.misses log).countP (·.countsIn context) =
      Reading.failures context log + (Reading.firsts context filled log).card := by
  induction log generalizing filled with
  | nil => rfl
  | cons reading rest induction =>
      obtain ⟨first, later⟩ := List.forall_mem_cons.mp known
      have further : ∀ reading ∈ rest, ∀ other ∈ rest, reading.cell = other.cell →
          reading = other := fun one among other also =>
        alike one (List.mem_cons_of_mem _ among) other (List.mem_cons_of_mem _ also)
      rw [misses, Reading.failures_cons]
      cases found : filled reading.cell with
      | true =>
          rw [if_pos rfl, Reading.firsts_skip (.inr found), first found, induction further later]
          simp
      | false =>
          rw [if_neg Bool.false_ne_true, List.countP_cons]
          cases succeeds : reading.succeeds with
          | false =>
              rw [after_failed succeeds, Reading.firsts_skip (.inl (by simp [succeeds])),
                induction further later]
              simp
              omega
          | true =>
              have filling : ∀ other ∈ rest, filled.after [reading] other.cell = true →
                  other.succeeds = true := by
                intro other among holds
                rw [after_succeeded succeeds] at holds
                rcases Bool.or_eq_true_iff.mp holds with held | same
                · exact later other among held
                · rw [← alike reading List.mem_cons_self other (List.mem_cons_of_mem _ among)
                    (eq_of_beq same)]
                  exact succeeds
              rw [induction further filling]
              cases counts : reading.countsIn context with
              | true =>
                  rw [Reading.firsts_new counts succeeds found]
                  simp
                  omega
              | false =>
                  rw [Reading.firsts_skip (.inl (by simp [counts])),
                    Reading.firsts_after succeeds fun other among otherCounts same => ?_]
                  · simp
                  · rw [← alike reading List.mem_cons_self other (List.mem_cons_of_mem _ among)
                      same.symm, counts] at otherCounts
                    cases otherCounts

end Counting

section Towers

variable {census : Census} {row : Row} {journal after : Journal} {reads log : List Reading}
  {reading : Reading}

/-- The rows of a tower are listed if the topmost is. -/
theorem Row.tower_listed (listed : row.Listed census) : ∀ level ∈ row.tower, level.Listed census := by
  fun_induction Row.tower row with
  | case1 id type values => exact List.forall_mem_singleton.mpr trivial
  | case2 id type base context bindings columns induction =>
      exact List.forall_mem_cons.mpr ⟨listed, induction listed.2.1⟩

theorem Row.known_of_listed (listed : row.Listed census) (projected : row.isProjected = true) :
    census row.id = some row := by
  cases row with
  | stored id type values => cases projected
  | projected id type base context bindings columns => exact listed.1

theorem Row.meaning_eq_eager (listed : row.Listed census) (column : Nat) :
    row.meaning column = row.eager column :=
  (row.logs_read listed column {} Journal.faithful_empty).1

namespace Reading

/-- The reads answer like the evaluated rows, and leave what they are said to leave: by induction
on the reads, each of which starts from what the earlier ones left. -/
theorem run_reaches (listed : ∀ reading ∈ reads, reading.row.Listed census)
    (faithful : journal.Faithful census) :
    (run reads journal).1 = reads.map outcome ∧
      journal.Reaches census (taken reads journal) (run reads journal).2 := by
  induction reads generalizing journal with
  | nil => exact ⟨rfl, .self faithful⟩
  | cons reading rest induction =>
      obtain ⟨own, others⟩ := List.forall_mem_cons.mp listed
      obtain ⟨same, reached⟩ := reading.row.logs_read own reading.column journal faithful
      obtain ⟨alike, further⟩ := induction others reached.faithful
      refine ⟨congrArg₂ List.cons same alike, ?_⟩
      have taking : taken (reading :: rest) journal =
          reading.row.readings reading.column journal.filled ++
            taken rest ((reading.row.read reading.column).run journal).2 := by
        rw [taken, taken, Cells.inTurn, reached.filled]
      rw [taking]
      exact reached.trans further

/-- All reads that are taken are of listed projected rows. -/
theorem taken_listed (listed : ∀ reading ∈ reads, reading.row.Listed census) :
    ∀ reading ∈ taken reads journal,
      census reading.row.id = some reading.row ∧ reading.row.Listed census :=
  Cells.forall_in_turn (fun reading among filled nested taken =>
    have below := Row.readings_below reading.row (listed reading among) reading.column filled nested
      taken
    ⟨below.known, below.listed⟩) journal.filled

/-- Reads of rows of the census that fill the same cell are the same. -/
theorem eq_of_cell {other : Reading} (known : census reading.row.id = some reading.row)
    (also : census other.row.id = some other.row) (same : reading.cell = other.cell) :
    reading = other := by
  obtain ⟨row, column⟩ := reading
  obtain ⟨partner, field⟩ := other
  obtain ⟨identity, rfl⟩ := Prod.mk.inj same
  rw [identity] at known
  exact congrArg (Reading.mk · column) (Option.some.inj (known.symm.trans also))

/-- The row of a cell that was read means what the read answers. -/
theorem means_of_cell {id column : Nat}
    (known : census reading.row.id = some reading.row ∧ reading.row.Listed census)
    (same : reading.cell = (id, column)) :
    census id = some reading.row ∧ reading.row.meaning column = reading.outcome := by
  obtain ⟨row, field⟩ := reading
  cases same
  exact ⟨known.1, Row.meaning_eq_eager known.2 field⟩

/-- The cell of a read that succeeded holds a value. -/
theorem filled_of_taken {value : Datum} (reached : journal.Reaches census log after)
    (among : reading ∈ log) (succeeds : reading.outcome = .ok value) :
    after.filled reading.cell = true := by
  rw [reached.filled]
  refine Bool.or_eq_true_iff.mpr (.inr (List.any_eq_true.mpr ⟨reading, among, ?_⟩))
  rw [Reading.succeeds, succeeds, beq_self_eq_true]
  rfl

end Reading

namespace Journal

variable {id column : Nat} {value : Datum}

/-- A cell that is filled holds what its row means. -/
theorem Faithful.value_of_filled (faithful : journal.Faithful census)
    (filled : journal.filled (id, column) = true) (known : census id = some row)
    (means : row.meaning column = .ok value) : journal.remembered? id column = some value := by
  obtain ⟨other, remembered⟩ := Option.isSome_iff_exists.mp filled
  obtain ⟨same, listed, meaning⟩ := faithful id column other remembered
  obtain rfl := Option.some.inj (known.symm.trans listed)
  rw [remembered, Except.ok.inj (meaning.symm.trans means)]

/-- Cells keep their values, and others are filled by successes alone. -/
theorem Reaches.remembered_iff (reached : journal.Reaches census log after)
    (faithful : journal.Faithful census)
    (known : ∀ reading ∈ log,
      census reading.row.id = some reading.row ∧ reading.row.Listed census) :
    after.remembered? id column = some value ↔
      journal.remembered? id column = some value ∨
        ∃ reading ∈ log, reading.cell = (id, column) ∧ reading.outcome = .ok value := by
  have filling := congrFun reached.filled (id, column)
  constructor
  · intro remembered
    obtain ⟨row, listed, means⟩ := reached.faithful id column value remembered
    have filled : after.filled (id, column) = true := Option.isSome_iff_exists.mpr ⟨_, remembered⟩
    rw [filling] at filled
    rcases Bool.or_eq_true_iff.mp filled with before | added
    · exact .inl (faithful.value_of_filled before listed means)
    · obtain ⟨reading, among, succeeds, same⟩ := by
        simpa only [List.any_eq_true, Bool.and_eq_true, beq_iff_eq] using added
      obtain ⟨its, outcome⟩ := Reading.means_of_cell (known reading among) same
      obtain rfl := Option.some.inj (listed.symm.trans its)
      exact .inr ⟨reading, among, same, outcome.symm.trans means⟩
  · rintro (remembered | ⟨reading, among, same, succeeds⟩)
    · obtain ⟨row, listed, means⟩ := faithful id column value remembered
      have filled : journal.filled (id, column) = true := Option.isSome_iff_exists.mpr ⟨_, remembered⟩
      refine reached.faithful.value_of_filled (filling.trans ?_) listed means
      rw [Cells.after, filled, Bool.true_or]
    · obtain ⟨its, outcome⟩ := Reading.means_of_cell (known reading among) same
      have filled := Reading.filled_of_taken reached among succeeds
      rw [same] at filled
      exact reached.faithful.value_of_filled filled its (outcome.trans succeeds)

end Journal

namespace Reading

/-- Nothing is remembered for a listed column that fails. -/
theorem nothing_remembered (faithful : after.Faithful census)
    (known : census reading.row.id = some reading.row ∧ reading.row.Listed census)
    (fails : reading.succeeds = false) :
    after.remembered? reading.row.id reading.column = none := by
  cases remembered : after.remembered? reading.row.id reading.column with
  | none => rfl
  | some value =>
      obtain ⟨row, listed, means⟩ := faithful _ _ _ remembered
      obtain ⟨its, outcome⟩ := means_of_cell known rfl
      obtain rfl := Option.some.inj (listed.symm.trans its)
      rw [succeeds, ← outcome, means] at fails
      cases fails

/-- A column that was read is read again without a step. -/
theorem read_again {value : Datum} (listed : reading.row.Listed census)
    (faithful : after.Faithful census)
    (filled : reading.row.isProjected = true → after.filled reading.cell = true)
    (succeeds : reading.outcome = .ok value) :
    (reading.row.read reading.column).run after = (.ok value, after) := by
  obtain ⟨row, column⟩ := reading
  cases row with
  | stored id type values =>
      obtain ⟨same, last⟩ := yields_index (· = after) values column after rfl
      rw [outcome, Row.eager] at succeeds
      rw [read_stored, ← succeeds]
      exact Prod.ext same last
  | projected id type base own bindings columns =>
      cases found : columns[column]? with
      | none =>
          rw [outcome, Row.eager_missing found] at succeeds
          cases succeeds
      | some expression =>
          have means := (Row.meaning_eq_eager listed column).trans succeeds
          have remembered : after.remembered? id column = some value :=
            faithful.value_of_filled (filled rfl) listed.1 means
          rw [read_projected found, read_once_known remembered]

/-- A read of a projected column that succeeds is among the reads that it takes. -/
theorem mem_readings {value : Datum} (projected : reading.row.isProjected = true)
    (succeeds : reading.outcome = .ok value) (filled : Cells) :
    reading ∈ reading.row.readings reading.column filled := by
  obtain ⟨row, column⟩ := reading
  cases row with
  | stored id type values => cases projected
  | projected id type base own bindings columns =>
      cases found : columns[column]? with
      | none =>
          rw [outcome, Row.eager_missing found] at succeeds
          cases succeeds
      | some expression =>
          rw [Row.readings_found found]
          split
          · exact List.mem_singleton.mpr rfl
          · exact List.mem_append_right _ (List.mem_singleton.mpr rfl)

/-- What lazy reads have to show that are made one after another from a journal. -/
structure LikeEager (reads : List Reading) (journal : Journal) : Prop where
  /-- Every read answers what the evaluated row has in that column. -/
  answers : (run reads journal).1 = reads.map outcome
  /-- A failure carries the index of the column that was read. -/
  tagged : ∀ reading ∈ reads, ∀ error, reading.outcome = .error (.failed error) →
    ∃ cause, error = .value (some reading.column) cause
  /-- Remembered values stay as they are, and only successful reads add to them. -/
  remembered : ∀ id column value, (run reads journal).2.remembered? id column = some value ↔
    journal.remembered? id column = some value ∨
      ∃ reading ∈ taken reads journal, reading.cell = (id, column) ∧ reading.outcome = .ok value
  /-- What succeeded on any level is given again, and nothing is evaluated for it. -/
  again : ∀ reading ∈ reads ++ taken reads journal, ∀ value, reading.outcome = .ok value →
    (reading.row.read reading.column).run (run reads journal).2 = (.ok value, (run reads journal).2)
  /-- What failed on any level is not remembered. -/
  failed : ∀ reading ∈ reads ++ taken reads journal, reading.row.isProjected = true →
    reading.succeeds = false →
    (run reads journal).2.remembered? reading.row.id reading.column = none
  /-- Counted are the failed reads and the first successful ones on all levels. -/
  counted : ∀ context, (run reads journal).2.evaluations context =
    journal.evaluations context + failures context (taken reads journal) +
      (firsts context journal.filled (taken reads journal)).card

end Reading

/-- Lazy is like eager: reads on the rows of a tower, in any order and from any journal that knows
its rows, answer like the evaluated tower, evaluate each column at most once with success, and
count every evaluation that they make. -/
theorem Row.tower_read_like_eager (listed : row.Listed census)
    (faithful : journal.Faithful census) (among : ∀ reading ∈ reads, reading.row ∈ row.tower) :
    Reading.LikeEager reads journal := by
  have known : ∀ reading ∈ reads, reading.row.Listed census :=
    fun reading member => Row.tower_listed listed reading.row (among reading member)
  have taking : ∀ reading ∈ Reading.taken reads journal,
      census reading.row.id = some reading.row ∧ reading.row.Listed census :=
    Reading.taken_listed known
  obtain ⟨answers, reached⟩ := Reading.run_reaches known faithful
  refine ⟨answers, fun reading _ _ => Reading.failure_tagged, ?_, ?_, ?_, ?_⟩
  · exact fun id column value => reached.remembered_iff faithful taking
  · intro reading member value succeeds
    rcases List.mem_append.mp member with asked | nested
    · refine Reading.read_again (known reading asked) reached.faithful (fun projected => ?_) succeeds
      refine Reading.filled_of_taken reached ?_ succeeds
      exact Cells.mem_in_turn asked (Reading.mem_readings projected succeeds) _
    · exact Reading.read_again (taking reading nested).2 reached.faithful
        (fun _ => Reading.filled_of_taken reached nested succeeds) succeeds
  · intro reading member projected fails
    refine Reading.nothing_remembered reached.faithful ?_ fails
    rcases List.mem_append.mp member with asked | nested
    · exact ⟨Row.known_of_listed (known reading asked) projected, known reading asked⟩
    · exact taking reading nested
  · intro context
    rw [reached.counted, Cells.misses_count, Nat.add_assoc]
    · intro reading member other also same
      exact Reading.eq_of_cell (taking reading member).1 (taking other also).1 same
    · intro reading member filled
      refine Bool.of_not_eq_false fun fails => ?_
      have none := Reading.nothing_remembered faithful (taking reading member) fails
      rw [Journal.filled, Reading.cell, none] at filled
      cases filled

end Towers

/-! Two projections over a row with a zero. The upper one adds what the lower one doubles and what
it divides, so its sum fails where the lower one fails. -/

namespace Quotients

def type : RowType :=
  ⟨0, [.notNull .integer, .notNull .integer]⟩

def context : Context :=
  ⟨1, .empty, { tapsEnabled := true }⟩

def number (value : Int) (low : -2147483648 ≤ value) (high : value ≤ 2147483647) : Datum :=
  .whole .integer ⟨value, low, high⟩

def column (index : Nat) : Expr :=
  .column index (.notNull .integer)

def stored : Row :=
  .stored 1 type [number 12 (by decide) (by decide), number 0 (by decide) (by decide)]

def lower : Row :=
  .projected 2 type stored context .empty
    [.binary (.arithmetic .add) (column 0) (column 0),
      .binary (.arithmetic .div) (column 0) (column 1)]

def upper : Row :=
  .projected 3 type lower context .empty
    [column 0, .binary (.arithmetic .add) (column 0) (column 1)]

def census : Census :=
  fun id => if id = 2 then some lower else if id = 3 then some upper else none

def reads : List Reading :=
  [⟨upper, 1⟩, ⟨upper, 0⟩, ⟨lower, 1⟩, ⟨upper, 0⟩]

theorem upper_listed : upper.Listed census :=
  ⟨rfl, ⟨rfl, trivial, trivial⟩, trivial⟩

theorem reads_among : ∀ reading ∈ reads, reading.row ∈ upper.tower := by
  simp [reads, upper, lower, Row.tower]

/-- The quotient is evaluated twice without success, the sum once, and the two other columns once
each. -/
theorem five_evaluations :
    upper.Listed census ∧
      (Reading.run reads {}).1 =
        [.error (.failed (.value (some 1) .divisionByZero)),
          .ok (number 24 (by decide) (by decide)),
          .error (.failed (.value (some 1) .divisionByZero)),
          .ok (number 24 (by decide) (by decide))] ∧
      (Reading.run reads {}).2.evaluations context = 5 := by
  have like := Row.tower_read_like_eager upper_listed Journal.faithful_empty reads_among
  exact ⟨upper_listed, like.answers.trans (by decide), (like.counted context).trans (by decide)⟩

end Quotients

end QueryExec
