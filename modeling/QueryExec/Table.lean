/-!
Finite tables from keys to values, kept as lists of pairs with at most one pair per key as
long as they are built by `set` and `erase`. A new key goes to the end, so the order of the
entries is the order of first insertion.
-/

namespace QueryExec

structure Table (key value : Type) where
  entries : List (key × value) := []

namespace Table

variable {key value : Type} [DecidableEq key]

def lookup (wanted : key) : List (key × value) → Option value
  | [] => none
  | (name, item) :: rest => if name = wanted then some item else lookup wanted rest

def get? (table : Table key value) (wanted : key) : Option value :=
  lookup wanted table.entries

def place (wanted : key) (item : value) : List (key × value) → List (key × value)
  | [] => [(wanted, item)]
  | (name, old) :: rest =>
      if name = wanted then (wanted, item) :: rest else (name, old) :: place wanted item rest

/-- Replaces the value of a known key in its place. -/
def set (table : Table key value) (wanted : key) (item : value) : Table key value :=
  ⟨place wanted item table.entries⟩

def erase (table : Table key value) (wanted : key) : Table key value :=
  ⟨table.entries.filter fun entry => entry.1 ≠ wanted⟩

def contains (table : Table key value) (wanted : key) : Bool :=
  (table.get? wanted).isSome

def keys (table : Table key value) : List key :=
  table.entries.map Prod.fst

def values (table : Table key value) : List value :=
  table.entries.map Prod.snd

theorem lookup_place_same (wanted : key) (item : value) (entries : List (key × value)) :
    lookup wanted (place wanted item entries) = some item := by
  induction entries with
  | nil => simp [place, lookup]
  | cons entry rest induction =>
      by_cases same : entry.1 = wanted
      · simp [place, lookup, same]
      · simp [place, lookup, same, induction]

theorem lookup_place_other (wanted other : key) (item : value) (entries : List (key × value))
    (different : other ≠ wanted) :
    lookup other (place wanted item entries) = lookup other entries := by
  induction entries with
  | nil => simp [place, lookup, different.symm]
  | cons entry rest induction =>
      by_cases same : entry.1 = wanted
      · simp [place, lookup, same, different.symm]
      · simp [place, lookup, same, induction]

@[simp]
theorem get_set_same (table : Table key value) (wanted : key) (item : value) :
    (table.set wanted item).get? wanted = some item :=
  lookup_place_same wanted item table.entries

theorem get_set_other (table : Table key value) (wanted other : key) (item : value)
    (different : other ≠ wanted) :
    (table.set wanted item).get? other = table.get? other :=
  lookup_place_other wanted other item table.entries different

@[simp]
theorem get_erase_same (table : Table key value) (wanted : key) :
    (table.erase wanted).get? wanted = none := by
  rcases table with ⟨entries⟩
  simp only [get?, erase]
  induction entries with
  | nil => rfl
  | cons entry rest induction =>
      by_cases same : entry.1 = wanted
      · simpa [same] using induction
      · simpa [List.filter, lookup, same] using induction

theorem get_erase_other (table : Table key value) (wanted other : key)
    (different : other ≠ wanted) :
    (table.erase wanted).get? other = table.get? other := by
  rcases table with ⟨entries⟩
  simp only [get?, erase]
  induction entries with
  | nil => rfl
  | cons entry rest induction =>
      by_cases same : entry.1 = wanted
      · simpa [List.filter, lookup, same, different.symm] using induction
      · by_cases found : entry.1 = other
        · simp [lookup, found, different]
        · simpa [List.filter, lookup, same, found] using induction

end Table

end QueryExec
