import Mathlib.Algebra.Group.Nat.Defs
import Mathlib.Algebra.Ring.Int.Defs
import Mathlib.Data.List.Induction
import QueryExec.Proofs.Accumulator
import QueryExec.Proofs.Row.Comparison

/-!
Grouping without an order of rows: for every key that occurs, what the aggregate functions say
about all rows that have it. Partial results are grouped in the same way, where counts are added
instead of counted; this gives the same if every partial result says what it should about its part
of a group.
-/

namespace QueryExec

open Datum

/-- What an aggregate function says about a group, without a bound on numbers. -/
inductive Total
  | count (number : Int)
  | sum (total? : Option Int)
  | extreme (value? : Option Datum)
deriving DecidableEq

/-- The values other than NULL. -/
def known (values : List Datum) : List Datum :=
  values.filter fun value => !value.isNull

/-- The sum of the whole numbers among the values, if there are any. -/
def sumOf (values : List Datum) : Option Int :=
  match values.filterMap Datum.whole? with
  | [] => none
  | number :: rest => some (number + rest.sum)

/-- The first value that no other compares to as `keep`. -/
def extremeOf (keep : Ordering) (values : List Datum) : Option Datum :=
  values.find? fun value => values.all fun other => other.order? value != some keep

/-- The aggregate functions whose results for parts of a group tell the result for the group. -/
inductive Combinable
  | count
  | sum
  | min
  | max
deriving DecidableEq

namespace Combinable

def aggregate : Combinable → Aggregate
  | count => ⟨.count, none⟩
  | sum => ⟨.sum, none⟩
  | min => ⟨.min, none⟩
  | max => ⟨.max, none⟩

/-- What is said about the values of a group. -/
def total (function : Combinable) (values : List Datum) : Total :=
  match function with
  | count => .count (known values).length
  | sum => .sum (sumOf values)
  | min => .extreme (extremeOf .lt (known values))
  | max => .extreme (extremeOf .gt (known values))

/-- What is said about a group when these are the results for its parts. -/
def combined (function : Combinable) (partials : List Datum) : Total :=
  match function with
  | count => .count (partials.filterMap Datum.whole?).sum
  | sum => .sum (sumOf partials)
  | min => .extreme (extremeOf .lt (known partials))
  | max => .extreme (extremeOf .gt (known partials))

end Combinable

section Grouping

variable {key : Type} (same : key → key → Bool)

/-- The first of each class of equal keys. -/
def firsts (keys : List key) : List key :=
  keys.foldl (fun found next => if found.any (same · next) then found else found ++ [next]) []

/-- No other key stands between two equal ones. -/
def Contiguous (keys : List key) : Prop :=
  ∀ {before between after : Nat} {first middle last : key}, before ≤ between → between ≤ after →
    keys[before]? = some first → keys[between]? = some middle → keys[after]? = some last →
      same first last = true → same first middle = true

end Grouping

section Tables

variable (same : List Datum → List Datum → Bool) (keys : Nat)

/-- The keys of a table of rows whose first columns are the key. Without key columns there is one
group, also of no rows. -/
def groupKeys (table : List (List Datum)) : List (List Datum) :=
  if keys = 0 then [[]] else firsts same (table.map (·.take keys))

/-- The column of a function, which comes behind the key. -/
def columnOf (place : Nat) (table : List (List Datum)) : List Datum :=
  table.map fun row => (row[keys + place]?).getD .null

/-- Each key with what the functions say about the rows that have it. -/
def grouped (tell : Combinable → List Datum → Total) (functions : List Combinable)
    (table : List (List Datum)) : List (List Datum × List Total) :=
  (groupKeys same keys table).map fun key =>
    let group := table.filter fun row => same key (row.take keys)
    (key, functions.zipIdx.map fun (function, place) => tell function (columnOf keys place group))

/-- The rows of a table grouped by their keys. -/
def groupBy (functions : List Combinable) (table : List (List Datum)) :
    List (List Datum × List Total) :=
  grouped same keys Combinable.total functions table

/-- Partial results grouped by their keys. -/
def recombined (functions : List Combinable) (partials : List (List Datum)) :
    List (List Datum × List Total) :=
  grouped same keys Combinable.combined functions partials

end Tables

section Extremes

variable {inside : Datum → Prop} {keep : Ordering} {values : List Datum}
  {best first second third value : Datum}

/-- None of the values beats this one, which is one of them. -/
def Best (keep : Ordering) (values : List Datum) (best : Datum) : Prop :=
  best ∈ values ∧ ∀ value ∈ values, value.order? best ≠ some keep

variable (ranked : Ranked inside) (strict : keep ≠ .eq)

include ranked strict

theorem beats_trans (holdsFirst : inside first) (holdsSecond : inside second)
    (holdsThird : inside third) (better : first.order? second = some keep)
    (good : second.order? third = some keep) : first.order? third = some keep := by
  cases keep with
  | eq => exact absurd rfl strict
  | lt => exact ranked.trans holdsFirst holdsSecond holdsThird better good
  | gt =>
      have swapped : ∀ {left right : Datum}, inside left → inside right →
          (left.order? right = some .gt ↔ right.order? left = some .lt) := by
        intro left right holdsLeft holdsRight
        obtain ⟨ordering, one, other⟩ := ranked.total holdsLeft holdsRight
        rw [one, other]
        cases ordering <;> simp
      rw [swapped holdsFirst holdsSecond] at better
      rw [swapped holdsSecond holdsThird] at good
      rw [swapped holdsFirst holdsThird]
      exact ranked.trans holdsThird holdsSecond holdsFirst good better

/-- Of two values one beats the other, or they are one. -/
theorem beats_or_same (holdsFirst : inside first) (holdsSecond : inside second) :
    first.order? second = some keep ∨ second.order? first = some keep ∨ first = second := by
  obtain ⟨ordering, one, other⟩ := ranked.total holdsFirst holdsSecond
  cases ordering with
  | eq => exact .inr (.inr (ranked.same holdsFirst holdsSecond one))
  | lt =>
      cases keep with
      | eq => exact absurd rfl strict
      | lt => exact .inl one
      | gt => exact .inr (.inl other)
  | gt =>
      cases keep with
      | eq => exact absurd rfl strict
      | lt => exact .inr (.inl other)
      | gt => exact .inl one

/-- What does not beat one value does not beat a value that this one does not beat. -/
theorem not_beaten_trans (holdsFirst : inside first) (holdsSecond : inside second)
    (holdsThird : inside third) (weak : first.order? second ≠ some keep)
    (still : second.order? third ≠ some keep) : first.order? third ≠ some keep := by
  intro beats
  rcases beats_or_same ranked strict holdsFirst holdsSecond with better | worse | same
  · exact weak better
  · exact still (beats_trans ranked strict holdsSecond holdsFirst holdsThird worse beats)
  · exact still (same ▸ beats)

theorem not_self_beaten (holds : inside value) : value.order? value ≠ some keep := by
  intro beats
  obtain ⟨ordering, one, other⟩ := ranked.total holds holds
  rw [one] at beats other
  cases ordering <;> cases other
  exact strict (Option.some.inj beats).symm

/-- A value that beats the best so far is the best, and else the best so far stays so. -/
theorem best_append (holds : ∀ member ∈ values, inside member) (holdsValue : inside value)
    (isBest : Best keep values best) :
    Best keep (values ++ [value]) (if value.order? best = some keep then value else best) := by
  obtain ⟨member, unbeaten⟩ := isBest
  split
  next beats =>
    refine ⟨by simp, ?_⟩
    intro other among
    rcases List.mem_append.mp among with old | new
    · intro better
      exact unbeaten other old
        (beats_trans ranked strict (holds other old) holdsValue (holds best member) better beats)
    · rw [List.mem_singleton.mp new]
      exact not_self_beaten ranked strict holdsValue
  next weak =>
    refine ⟨List.mem_append_left _ member, ?_⟩
    intro other among
    rcases List.mem_append.mp among with old | new
    · exact unbeaten other old
    · rw [List.mem_singleton.mp new]
      exact weak

/-- Several values have a best one: by induction from the end of the list. -/
theorem best_exists (holds : ∀ member ∈ values, inside member) (some : values ≠ []) :
    ∃ best, Best keep values best := by
  induction values using List.reverseRecOn with
  | nil => exact absurd rfl some
  | append_singleton values value induction =>
      have holdsValue : inside value := holds value (by simp)
      have others : ∀ member ∈ values, inside member :=
        fun member among => holds member (List.mem_append_left _ among)
      by_cases empty : values = []
      · subst empty
        refine ⟨value, by simp, ?_⟩
        intro other among
        rw [List.mem_singleton.mp among]
        exact not_self_beaten ranked strict holdsValue
      · obtain ⟨best, isBest⟩ := induction others empty
        exact ⟨_, best_append ranked strict others holdsValue isBest⟩

/-- The best value is unique, so it is the one that is looked for. -/
theorem extreme_of_best (holds : ∀ member ∈ values, inside member)
    (isBest : Best keep values best) : extremeOf keep values = some best := by
  obtain ⟨member, unbeaten⟩ := isBest
  have accepted : (values.all fun other => other.order? best != some keep) = true :=
    List.all_eq_true.mpr fun other among => by simpa using unbeaten other among
  cases found : extremeOf keep values with
  | none => exact absurd accepted (List.find?_eq_none.mp found best member)
  | some value =>
      have among : value ∈ values := List.mem_of_find?_eq_some found
      have passes : (values.all fun other => other.order? value != some keep) = true :=
        List.find?_some (p := fun value => values.all fun other =>
          other.order? value != some keep) found
      have unbeatenToo := List.all_eq_true.mp passes best member
      rcases beats_or_same ranked strict (holds value among) (holds best member) with
        better | worse | same
      · exact absurd better (unbeaten value among)
      · simp [worse] at unbeatenToo
      · rw [same]

end Extremes

section Known

variable {values : List Datum} {value : Datum}

@[simp]
theorem known_append (first second : List Datum) :
    known (first ++ second) = known first ++ known second :=
  List.filter_append ..

@[simp]
theorem known_null : known [.null] = [] :=
  rfl

theorem known_value (present : value.isNull = false) : known [value] = [value] := by
  simp [known, present]

theorem known_inside {kind : Kind} (fits : ∀ value ∈ values, value.Fits kind) :
    ∀ value ∈ known values, value.kind? = some kind := by
  intro value among
  obtain ⟨member, present⟩ := List.mem_filter.mp among
  rcases fits value member with rfl | ofKind
  · cases present
  · exact ofKind

end Known

section Sums

/-- What follows from the sums of the parts is the sum of the whole. -/
theorem sum_of_append (first second : List Datum) :
    sumOf (first ++ second) =
      match sumOf first, sumOf second with
      | some one, some other => some (one + other)
      | some one, none => some one
      | none, other => other := by
  unfold sumOf
  rw [List.filterMap_append]
  cases first.filterMap Datum.whole? with
  | nil => cases second.filterMap Datum.whole? <;> rfl
  | cons number rest =>
      cases second.filterMap Datum.whole? with
      | nil => simp
      | cons other others => simp [Int.add_assoc]

theorem sum_of_snoc {value : Datum} {number : Int} (values : List Datum)
    (whole : value.whole? = some number) :
    sumOf (values ++ [value]) = some ((sumOf values).getD 0 + number) := by
  have single : sumOf [value] = some number := by simp [sumOf, whole]
  rw [sum_of_append, single]
  cases sumOf values <;> simp

theorem sum_of_snoc_null (values : List Datum) : sumOf (values ++ [.null]) = sumOf values := by
  rw [sum_of_append]
  cases sumOf values <;> rfl

end Sums

namespace Combinable

/-- The accumulator of a new group. -/
def fresh : Combinable → Accumulator
  | count => .count 0
  | sum => .sum .nothing
  | min => .extremum .lt .null
  | max => .extremum .gt .null

theorem start_aggregate (function : Combinable) :
    function.aggregate.start = .ok function.fresh := by
  cases function <;> rfl

/-- A least or greatest value so far: NULL if there was none. -/
def Leading (keep : Ordering) (values : List Datum) (current : Datum) : Prop :=
  (values = [] ∧ current = .null) ∨ Best keep values current

/-- The accumulator knows the values that it has taken. -/
def Knows (function : Combinable) (values : List Datum) (accumulator : Accumulator) : Prop :=
  match function with
  | count => accumulator = .count (known values).length
  | sum => (accumulator = .sum .nothing ∧ sumOf values = none) ∨
      ∃ total, accumulator = .sum (.whole total) ∧ sumOf values = some total.value
  | min => ∃ current, accumulator = .extremum .lt current ∧ Leading .lt (known values) current
  | max => ∃ current, accumulator = .extremum .gt current ∧ Leading .gt (known values) current

/-- The result says what it should about a part of a group. -/
def Expresses (function : Combinable) (values : List Datum) (result : Datum) : Prop :=
  match function with
  | count => result.whole? = some ((known values).length : Int)
  | sum => result.whole? = sumOf values
  | min => Leading .lt (known values) result
  | max => Leading .gt (known values) result

theorem knows_fresh (function : Combinable) : function.Knows [] function.fresh := by
  cases function with
  | count => rfl
  | sum => exact .inl ⟨rfl, rfl⟩
  | min => exact ⟨.null, rfl, .inl ⟨rfl, rfl⟩⟩
  | max => exact ⟨.null, rfl, .inl ⟨rfl, rfl⟩⟩

section Steps

variable {kind : Kind} (exact : kind.isFloating = false) {values : List Datum}
  {value : Datum} {accumulator next : Accumulator}

include exact

/-- A value that is added to an exact sum is a whole number, and the sum stays exact. -/
theorem whole_of_added (fits : value.Fits kind) (present : value.isNull = false)
    {total next : RunningSum} (added : total.input value = .ok next) :
    ∃ number fitting, value.whole? = some number ∧ fitting.value = number ∧
      total.addWhole fitting = .ok next := by
  cases value with
  | whole width number =>
      unfold RunningSum.input at added
      dsimp only at added
      split at added
      next fitting found =>
        exact ⟨number.value, fitting, rfl, ((Whole.of_int_some_iff _ _).mp found).symm, added⟩
      next => cases added
  | floating precision number =>
      rcases fits with impossible | ofKind
      · cases impossible
      · cases ofKind
        cases exact
  | null => cases present
  | _ => cases added

omit exact in
theorem leads_first (keep : Ordering) (isNone : known values = []) (present : value.isNull = false)
    (itself : value.order? value ≠ some keep) : Leading keep (known (values ++ [value])) value := by
  rw [known_append, isNone, known_value present]
  refine .inr ⟨by simp, ?_⟩
  intro other among
  rw [List.mem_singleton.mp among]
  exact itself

/-- A present value is taken as the best so far when it beats the best so far. -/
theorem leads_next {keep : Ordering} (strict : keep ≠ .eq)
    (fits : ∀ member ∈ values, member.Fits kind) (fitsValue : value.Fits kind)
    (present : value.isNull = false) {current : Datum}
    (leads : Leading keep (known values) current)
    (taken : (Accumulator.extremum keep current).input value = .ok next) :
    ∃ leading, next = .extremum keep leading ∧
      Leading keep (known (values ++ [value])) leading := by
  have ranked := ranked_of_kind exact
  have ofKind : value.kind? = some kind := by
    rcases fitsValue with rfl | ofKind
    · cases present
    · exact ofKind
  have itself := not_self_beaten ranked strict ofKind
  rcases leads with ⟨isNone, rfl⟩ | isBest
  · rw [Accumulator.input_first present] at taken
    cases taken
    exact ⟨value, rfl, leads_first keep isNone present itself⟩
  · have inside := known_inside fits
    have ofKindToo := inside current isBest.1
    have better := best_append ranked strict inside ofKind isBest
    obtain ⟨ordering, compared, _⟩ := ranked.total ofKind ofKindToo
    have chosen : next = .extremum keep
        (if value.order? current = some keep then value else current) := by
      rw [Accumulator.input_further present (not_null_of_kind ofKindToo), compared] at taken
      cases taken
      simp [compared]
    refine ⟨_, chosen, .inr ?_⟩
    rw [known_append, known_value present]
    exact better

omit exact in
/-- A value that is NULL adds nothing to what is known. -/
theorem knows_null {function : Combinable} (knows : function.Knows values accumulator) :
    function.Knows (values ++ [.null]) accumulator := by
  cases function with
  | sum =>
      unfold Knows
      rw [sum_of_snoc_null]
      exact knows
  | _ => simpa [Knows] using knows

/-- A sum that takes a present value knows the sum with it. -/
theorem sum_knows_input (fitsValue : value.Fits kind) (present : value.isNull = false)
    (knows : sum.Knows values accumulator) (taken : accumulator.input value = .ok next) :
    sum.Knows (values ++ [value]) next := by
  rcases knows with ⟨rfl, isNone⟩ | ⟨total, rfl, isSum⟩
  · obtain ⟨later, added, rfl⟩ := Accumulator.sum_of_input present taken
    obtain ⟨number, fitting, whole, same, added⟩ := whole_of_added exact fitsValue present added
    cases added
    refine .inr ⟨fitting, rfl, ?_⟩
    rw [sum_of_snoc values whole, isNone, same]
    simp
  · obtain ⟨later, added, rfl⟩ := Accumulator.sum_of_input present taken
    obtain ⟨number, fitting, whole, same, added⟩ := whole_of_added exact fitsValue present added
    unfold RunningSum.addWhole at added
    dsimp only at added
    split at added <;> cases added
    next sum found =>
      refine .inr ⟨sum, rfl, ?_⟩
      rw [sum_of_snoc values whole, isSum, ← (Whole.of_int_some_iff _ _).mp found, same]
      rfl

/-- An accumulator that takes one more value knows one more value. -/
theorem knows_input {function : Combinable} (fits : ∀ member ∈ values, member.Fits kind)
    (fitsValue : value.Fits kind) (knows : function.Knows values accumulator)
    (taken : accumulator.input value = .ok next) : function.Knows (values ++ [value]) next := by
  cases missing : value.isNull with
  | true =>
      rw [Accumulator.input_null missing] at taken
      cases taken
      obtain rfl : value = .null := is_null_iff.mp missing
      exact knows_null knows
  | false =>
      cases function with
      | count =>
          obtain rfl : accumulator = .count (known values).length := knows
          rw [Accumulator.input_count missing] at taken
          cases taken
          simp [Knows, known_value missing]
      | sum => exact sum_knows_input exact fitsValue missing knows taken
      | min =>
          obtain ⟨current, rfl, leads⟩ := knows
          exact leads_next exact (by decide) fits fitsValue missing leads taken
      | max =>
          obtain ⟨current, rfl, leads⟩ := knows
          exact leads_next exact (by decide) fits fitsValue missing leads taken

end Steps

/-- Counts that a bigint holds are told exactly. -/
theorem expresses_result {function : Combinable} {values : List Datum} {accumulator : Accumulator}
    (knows : function.Knows values accumulator) (countable : values.length < 2 ^ 63) :
    function.Expresses values accumulator.result := by
  cases function with
  | count =>
      cases (show accumulator = .count (known values).length from knows)
      have fewer : (known values).length ≤ values.length := List.length_filter_le ..
      have exact : (Whole.wrapSigned (known values).length).value = (known values).length := by
        unfold Whole.wrapSigned
        dsimp only
        apply Int.bmod_eq_of_le_mul_two <;> omega
      simp only [Expresses, Accumulator.result, Datum.whole?, exact]
  | sum =>
      rcases knows with ⟨rfl, isNone⟩ | ⟨total, rfl, isSum⟩
      · exact isNone.symm
      · exact isSum.symm
  | min =>
      obtain ⟨current, rfl, leads⟩ := knows
      exact leads
  | max =>
      obtain ⟨current, rfl, leads⟩ := knows
      exact leads

section Parts

variable {parts : List (List Datum)} {partials : List Datum}

theorem counts_add (expressed : List.Forall₂ (Expresses count) parts partials) :
    (partials.filterMap Datum.whole?).sum = ((known parts.flatten).length : Int) := by
  induction expressed with
  | nil => rfl
  | cons counted _ induction =>
      rw [List.filterMap_cons, show Datum.whole? _ = some _ from counted, List.sum_cons, induction]
      simp

theorem sums_add (expressed : List.Forall₂ (Expresses sum) parts partials) :
    sumOf partials = sumOf parts.flatten := by
  induction expressed with
  | nil => rfl
  | @cons part result parts results summed _ induction =>
      have single : sumOf [result] = sumOf part := by
        rw [← show result.whole? = sumOf part from summed]
        unfold sumOf
        cases whole : result.whole? <;> simp [whole]
      rw [List.flatten_cons, sum_of_append, ← List.singleton_append, sum_of_append, single,
        induction]

section Leaders

variable {kind : Kind} (exact : kind.isFloating = false) {keep : Ordering} (strict : keep ≠ .eq)
  (fits : ∀ part ∈ parts, ∀ value ∈ part, value.Fits kind)

/-- The leading values of the parts are values of the whole, and none of the whole beats all. -/
theorem leaders_cover
    (leads : List.Forall₂ (fun part => Leading keep (known part)) parts partials) :
    (∀ result ∈ known partials, result ∈ known parts.flatten) ∧
      ∀ value ∈ known parts.flatten, ∃ result ∈ known partials,
        value.order? result ≠ some keep := by
  induction leads with
  | nil => exact ⟨fun _ among => among, fun _ among => by cases among⟩
  | @cons part result parts results leading _ induction =>
      obtain ⟨among, covered⟩ := induction
      rw [List.flatten_cons, ← List.singleton_append, known_append, known_append]
      rcases leading with ⟨isNone, rfl⟩ | isBest
      · rw [isNone]
        exact ⟨among, covered⟩
      · have present : result.isNull = false := by
          simpa using (List.mem_filter.mp isBest.1).2
        rw [known_value present]
        refine ⟨?_, ?_⟩
        · intro one member
          rcases List.mem_append.mp member with own | other
          · rw [List.mem_singleton.mp own]
            exact List.mem_append_left _ isBest.1
          · exact List.mem_append_right _ (among one other)
        · intro value member
          rcases List.mem_append.mp member with own | other
          · exact ⟨result, List.mem_append_left _ (List.mem_singleton_self _), isBest.2 value own⟩
          · obtain ⟨later, found, weak⟩ := covered value other
            exact ⟨later, List.mem_append_right _ found, weak⟩

include exact strict fits

/-- The leading value of the leading values of the parts is that of the whole. -/
theorem leaders_lead (leads : List.Forall₂ (fun part => Leading keep (known part)) parts partials) :
    extremeOf keep (known partials) = extremeOf keep (known parts.flatten) := by
  have ranked := ranked_of_kind exact
  obtain ⟨among, covered⟩ := leaders_cover leads
  have inside : ∀ value ∈ known parts.flatten, value.kind? = some kind := by
    apply known_inside
    intro value member
    obtain ⟨part, isPart, member⟩ := List.mem_flatten.mp member
    exact fits part isPart value member
  have insideToo : ∀ result ∈ known partials, result.kind? = some kind :=
    fun result member => inside result (among result member)
  by_cases empty : known partials = []
  · have none : known parts.flatten = [] := by
      rw [List.eq_nil_iff_forall_not_mem]
      intro value member
      obtain ⟨result, found, _⟩ := covered value member
      rw [empty] at found
      cases found
    rw [empty, none]
  · obtain ⟨best, isBest⟩ := best_exists ranked strict insideToo empty
    have overall : Best keep (known parts.flatten) best := by
      refine ⟨among best isBest.1, ?_⟩
      intro value member
      obtain ⟨result, found, weak⟩ := covered value member
      exact not_beaten_trans ranked strict (inside value member) (insideToo result found)
        (insideToo best isBest.1) weak (isBest.2 result found)
    rw [extreme_of_best ranked strict insideToo isBest,
      extreme_of_best ranked strict inside overall]

end Leaders

/-- What follows from the results for the parts is what is said about the whole. -/
theorem combined_eq {kind : Kind} (exact : kind.isFloating = false) {function : Combinable}
    (fits : ∀ part ∈ parts, ∀ value ∈ part, value.Fits kind)
    (expressed : List.Forall₂ function.Expresses parts partials) :
    function.combined partials = function.total parts.flatten := by
  cases function with
  | count => exact congrArg Total.count (counts_add expressed)
  | sum => exact congrArg Total.sum (sums_add expressed)
  | min => exact congrArg Total.extreme (leaders_lead exact (by decide) fits expressed)
  | max => exact congrArg Total.extreme (leaders_lead exact (by decide) fits expressed)

end Parts

end Combinable

end QueryExec
