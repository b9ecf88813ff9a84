import QueryExec.Cursor.Tree
import QueryExec.Proofs.Action.Agreement

/-!
Row types by their numbers. Types that are made one after another have consecutive numbers, in
words that wrap: two of them are the same type exactly when their places differ by a multiple of
`2 ^ 32`. Being the same type is also exactly what the operators and scans of a table go by: they
tell rows of two types apart if the types are not the same, and only then.
-/

namespace QueryExec

open QueryExec.Action

namespace RowType

/-- Row types made one after another, from a first number up to the number that is next. -/
inductive Consecutive : UInt32 → List RowType → UInt32 → Prop
  | none (number : UInt32) : Consecutive number [] number
  | more {number last : UInt32} {type : RowType} {rest : List RowType} (own : type.id = number)
      (others : Consecutive (number + 1) rest last) : Consecutive number (type :: rest) last

namespace Consecutive

variable {first last next : UInt32} {types others : List RowType}

theorem one {type : RowType} (own : type.id = first) (following : last = first + 1) :
    Consecutive first [type] last :=
  following ▸ .more own (.none _)

theorem append (begun : Consecutive first types last) (continued : Consecutive last others next) :
    Consecutive first (types ++ others) next := by
  induction begun with
  | none number => exact continued
  | more own _ induction => exact .more own (induction continued)

theorem number_at (consecutive : Consecutive first types last) {place : Nat} {type : RowType}
    (found : types[place]? = some type) : type.id = first + UInt32.ofNat place := by
  induction consecutive generalizing place with
  | none number => cases found
  | @more number last head rest own _ induction =>
      cases place with
      | zero =>
          obtain rfl : head = type := Option.some.inj found
          exact own.trans (UInt32.add_zero number).symm
      | succ place =>
          rw [induction found, UInt32.ofNat_add, UInt32.add_comm (UInt32.ofNat place),
            ← UInt32.add_assoc]
          rfl

/-- Numbers are words: places that are a multiple of `2 ^ 32` apart have one number. -/
theorem same_iff (consecutive : Consecutive first types last) {place other : Nat}
    {left right : RowType} (at_left : types[place]? = some left)
    (at_right : types[other]? = some right) :
    left.same right = true ↔ place % UInt32.size = other % UInt32.size := by
  rw [RowType.same, beq_iff_eq, consecutive.number_at at_left, consecutive.number_at at_right,
    UInt32.add_right_inj, ← UInt32.toNat_inj, UInt32.toNat_ofNat', UInt32.toNat_ofNat']

end Consecutive

end RowType

/-- Where a row type is compared with another: the operators that let rows of other types through,
and the scan of a stored table. -/
inductive TypeTest
  | filter
  | project
  | grouping
  | scan

/-- The test never takes what is of type `other` for what is of type `type`: an operator over rows
of `type` lets a row of `other` through untouched, and a table of `other` is not scanned as one of
`type`. -/
def TypeTest.TellsApart (type other : RowType) : TypeTest → Prop
  | filter =>
      ∀ {input : Type} (context : Context) (predicate : Expr) (inner : Protocol input)
        (bound : Nat) (start : Filter.State input × Engine) {after : Filter.State input × Engine}
        {row : Row},
        row.type = other → (Node.pull inner).run start = (.ok (some row), after) →
        (Filter.search context type predicate inner (bound + 1)).run start =
          (.ok (some row), after)
  | project =>
      ∀ {input : Type} (context : Context) (output : RowType) (columns : List Expr)
        (inner : Protocol input) (start : Project.State input × Engine)
        {ready after : Project.State input × Engine} {row : Row},
        row.type = other → (Node.checkCancelled context).run start = (.ok (), ready) →
        (Node.pull inner).run ready = (.ok (some row), after) →
        (Project.advance context type output columns inner).run start = (.ok (some row), after)
  | grouping =>
      ∀ {input : Type} (context : Context) (output : RowType) (keys : Nat) (inner : Protocol input)
        (bound : Nat) (start : Grouping.State input × Engine)
        {after : Grouping.State input × Engine} {row : Row},
        row.type = other → (Grouping.takeRow inner).run start = (.ok (some row), after) →
        (Grouping.collect context ⟨type, output, keys⟩ inner (bound + 1)).run start =
          (.ok (some row), after)
  | scan =>
      ∀ (store : Store) (name : String) {table : StoredTable},
        table.type = other → store.table name = .ok table →
        store.checkScan name type =
          .error (.storage (.scanTypeMismatch name other.describe type.describe))

namespace TypeTest

variable {type other : RowType}

theorem tells_apart (different : other.same type = false) (test : TypeTest) :
    test.TellsApart type other := by
  cases test with
  | filter =>
      rintro input context predicate inner bound start after row rfl pulled
      unfold Filter.search
      rw [run_bind, pulled]
      simp only [different, Bool.not_false, if_true]
      rfl
  | project =>
      rintro input context output columns inner start ready after row rfl checked pulled
      unfold Project.advance
      rw [run_bind, checked]
      simp only
      rw [run_bind, pulled]
      simp only [different, Bool.not_false, if_true]
      rfl
  | grouping =>
      rintro input context output keys inner bound start after row rfl taken
      unfold Grouping.collect
      rw [run_bind, taken]
      simp only [different, Bool.not_false, if_true]
      rfl
  | scan =>
      rintro store name table rfl found
      unfold Store.checkScan
      rw [found]
      change (if _ then _ else _) = _
      rw [if_neg (by simp [different])]

/-- A leaf in the midst of a pass, with one row of `other` left to give. -/
def lastRow (other : RowType) : Scan :=
  { phase := .running, source := .ofOne .empty, pending := [.stored 1 other []] }

def anyContext : Context :=
  { id := 1, catalog := .empty, settings := {} }

def leaf : Protocol Scan :=
  Scan.protocol anyContext (pure [])

/-- What is taken for a row of the type is dropped by a filter that accepts nothing, wrapped by a
projection and absorbed by an aggregation, and its table is scanned. -/
theorem not_tells_apart (same : other.same type = true) (test : TypeTest) :
    ¬ test.TellsApart type other := by
  intro apart
  cases test with
  | filter =>
      let start : Filter.State Scan × Engine := ({ own := (), input := lastRow other }, {})
      have passed := apart anyContext (.literal (.boolean false)) leaf 0 start rfl rfl
      unfold Filter.search at passed
      rw [run_bind, show (Node.pull leaf).run start = (.ok (some (.stored 1 other [])), _) from rfl]
        at passed
      simp only [Row.type, same] at passed
      cases passed
  | project =>
      let start : Project.State Scan × Engine := ({ own := (), input := lastRow other }, {})
      have passed := apart anyContext other [] leaf start rfl rfl rfl
      unfold Project.advance at passed
      rw [run_bind, show (Node.checkCancelled anyContext).run start = (.ok (), _) from rfl]
        at passed
      simp only at passed
      rw [run_bind, show (Node.pull leaf).run _ = (.ok (some (.stored 1 other [])), _) from rfl]
        at passed
      simp only [Row.type, same] at passed
      cases passed
  | grouping =>
      let start : Grouping.State Scan × Engine :=
        ({ own := { accumulators := [] }, input := lastRow other }, {})
      have passed := apart anyContext other 0 leaf 0 start rfl rfl
      unfold Grouping.collect at passed
      rw [run_bind,
        show (Grouping.takeRow leaf).run start = (.ok (some (.stored 1 other [])), _) from rfl]
        at passed
      simp only [Row.type, same] at passed
      cases passed
  | scan =>
      have refused := apart { tables := { entries := [("t", { type := other })] } } "t" rfl rfl
      change (if other.same type then _ else _) = _ at refused
      rw [if_pos same] at refused
      cases refused

theorem tells_apart_iff (test : TypeTest) :
    test.TellsApart type other ↔ other.same type = false := by
  refine ⟨fun apart => ?_, fun different => tells_apart different test⟩
  cases same : other.same type with
  | false => rfl
  | true => exact (not_tells_apart same test apart).elim

end TypeTest

end QueryExec
