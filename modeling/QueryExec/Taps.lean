import QueryExec.Table

/-!
Named counters of calls and elapsed microseconds.
-/

namespace QueryExec

structure TapStats where
  count : Nat := 0
  micros : Nat := 0
deriving DecidableEq, Repr

structure Taps where
  stats : Table String TapStats := {}

namespace Taps

def get (taps : Taps) (name : String) : TapStats :=
  (taps.stats.get? name).getD {}

def record (taps : Taps) (name : String) (micros : Nat) : Taps :=
  let before := taps.get name
  ⟨taps.stats.set name ⟨before.count + 1, before.micros + micros⟩⟩

/-- Every counter that was recorded, sorted by name. -/
def report (taps : Taps) : List (String × TapStats) :=
  taps.stats.entries.mergeSort fun left right => left.1 ≤ right.1

theorem get_record_same (taps : Taps) (name : String) (micros : Nat) :
    (taps.record name micros).get name =
      ⟨(taps.get name).count + 1, (taps.get name).micros + micros⟩ := by
  simp [record, get]

theorem get_record_other (taps : Taps) (name other : String) (micros : Nat)
    (different : other ≠ name) : (taps.record name micros).get other = taps.get other := by
  simp [record, get, Table.get_set_other _ _ _ _ different]

end Taps

end QueryExec
