import QueryExec.Proofs.GroupBy
import QueryExec.Proofs.Types.Operators

/-!
Aggregators under any sequence of calls. Whatever was taken, given out, reset or refused before, a
result is what the aggregate function says of the values that were taken since the last result or
reset, and a value that was refused is as if it had never been offered. Of sums and extremes with
floating-point numbers among them nothing is said.
-/

namespace QueryExec

namespace Datum

/-- Not a floating-point number. -/
def Exact (value : Datum) : Prop :=
  ∀ precision number, value ≠ .floating precision number

/-- How two exact values compare: as what is inside them, whole numbers whatever their widths. -/
inductive Compared : Datum → Datum → Ordering → Prop
  | boolean (left right : Bool) : Compared (.boolean left) (.boolean right) (compare left right)
  | whole {first second : Width} (left : Whole first) (right : Whole second) :
      Compared (.whole first left) (.whole second right) (compare left.value right.value)
  | text (left right : String) : Compared (.text left) (.text right) (compare left right)
  | bytes (left right : List UInt8) :
      Compared (.bytes left) (.bytes right) (compareOfLessAndEq left right)

section Comparing

variable {first second third value : Datum} {ordering later : Ordering}

theorem Compared.order (compared : Compared first second ordering) :
    first.order? second = some ordering := by
  cases compared <;> rfl

theorem Compared.present (compared : Compared first second ordering) : first.isNull = false := by
  cases compared <;> rfl

theorem compared_of_order (exactFirst : first.Exact) (exactSecond : second.Exact)
    (ordered : first.order? second = some ordering) : Compared first second ordering := by
  cases first with
  | null => cases second <;> cases ordered
  | floating precision number => exact absurd rfl (exactFirst precision number)
  | boolean left =>
      cases second <;> cases ordered
      exact .boolean ..
  | whole width left =>
      cases second with
      | floating precision number => exact absurd rfl (exactSecond precision number)
      | whole other right =>
          cases ordered
          exact .whole ..
      | _ => cases ordered
  | text left =>
      cases second <;> cases ordered
      exact .text ..
  | bytes left =>
      cases second <;> cases ordered
      exact .bytes ..

theorem compared_self (exactValue : value.Exact) (present : value.isNull = false) :
    Compared value value .eq := by
  have same {member : Type} (compares : member → member → Ordering) [Std.ReflCmp compares]
      (inside : member) : compares inside inside = .eq := Std.ReflCmp.compare_self
  cases value with
  | null => cases present
  | floating precision number => exact absurd rfl (exactValue precision number)
  | boolean inside => exact same compare inside ▸ .boolean inside inside
  | whole width inside =>
      exact same compare inside.value ▸ .whole inside inside
  | text inside => exact same compare inside ▸ .text inside inside
  | bytes inside =>
      exact same (fun left right : List UInt8 => compareOfLessAndEq left right) inside ▸
        .bytes inside inside

theorem Compared.swap (compared : Compared first second ordering) :
    Compared second first ordering.swap := by
  have swapped {member : Type} (compares : member → member → Ordering) [Std.OrientedCmp compares]
      (left right : member) : compares right left = (compares left right).swap :=
    Std.OrientedCmp.eq_swap
  cases compared with
  | boolean left right => exact swapped compare left right ▸ .boolean right left
  | whole left right =>
      exact swapped compare left.value right.value ▸ .whole right left
  | text left right => exact swapped compare left right ▸ .text right left
  | bytes left right =>
      exact swapped (fun left right : List UInt8 => compareOfLessAndEq left right)
        left right ▸ .bytes right left

/-- What compares in one way to a second value compares so to all that are equal to the second or
compare to it in this way. -/
theorem Compared.trans (compared : Compared first second ordering)
    (further : Compared second third later) (along : later = ordering ∨ later = .eq) :
    Compared first third ordering := by
  have chained {member : Type} (compares : member → member → Ordering) [Std.TransCmp compares]
      {left middle right : member}
      (along : compares middle right = compares left middle ∨ compares middle right = .eq) :
      compares left right = compares left middle := by
    rcases along with same | equal
    · cases ordered : compares left middle with
      | lt => exact Std.TransCmp.lt_trans ordered (same.trans ordered)
      | eq => exact Std.TransCmp.eq_trans ordered (same.trans ordered)
      | gt => exact Std.TransCmp.gt_trans ordered (same.trans ordered)
    · exact (Std.TransCmp.congr_right equal).symm
  cases compared with
  | boolean left middle =>
      cases further with
      | boolean _ right => exact chained compare along ▸ .boolean left right
  | whole left middle =>
      cases further with
      | whole _ right => exact chained compare along ▸ .whole left right
  | text left middle =>
      cases further with
      | text _ right => exact chained compare along ▸ .text left right
  | bytes left middle =>
      cases further with
      | bytes _ right =>
          exact chained (fun left right : List UInt8 => compareOfLessAndEq left right)
            along ▸ .bytes left right

end Comparing

end Datum

section Foremost

open Datum

variable {keep : Ordering} {values : List Datum} {best value : Datum}

/-- The first of the values that no other beats: it beats the earlier ones, and beats or equals the
later ones. -/
def Foremost (keep : Ordering) (values : List Datum) (best : Datum) : Prop :=
  ∃ earlier later, values = earlier ++ best :: later ∧ Compared best best .eq ∧
    (∀ value ∈ earlier, Compared best value keep) ∧
    ∀ value ∈ later, Compared best value keep ∨ Compared best value .eq

theorem Foremost.mem (foremost : Foremost keep values best) : best ∈ values := by
  obtain ⟨earlier, later, rfl, -⟩ := foremost
  simp

/-- It beats or equals every value. -/
theorem Foremost.compares (foremost : Foremost keep values best) :
    ∀ value ∈ values, Compared best value keep ∨ Compared best value .eq := by
  obtain ⟨earlier, later, rfl, self, before, after⟩ := foremost
  intro value among
  rcases List.mem_append.mp among with early | late
  · exact .inl (before value early)
  · rcases List.mem_cons.mp late with rfl | late
    · exact .inr self
    · exact after value late

theorem foremost_single (exactValue : value.Exact) (present : value.isNull = false) :
    Foremost keep [value] value :=
  ⟨[], [], rfl, compared_self exactValue present, List.forall_mem_nil _, List.forall_mem_nil _⟩

/-- A value that beats the foremost so far is the foremost, and else the foremost so far stays. -/
theorem Foremost.append {ordering : Ordering} (strict : keep ≠ .eq)
    (foremost : Foremost keep values best) (self : Compared value value .eq)
    (compared : Compared value best ordering) :
    Foremost keep (values ++ [value]) (if ordering = keep then value else best) := by
  split
  next beats =>
    subst beats
    refine ⟨values, [], rfl, self, fun other among => ?_, List.forall_mem_nil _⟩
    rcases foremost.compares other among with worse | equal
    · exact compared.trans worse (.inl rfl)
    · exact compared.trans equal (.inr rfl)
  next weak =>
    have stays : Compared best value keep ∨ Compared best value .eq := by
      have swapped := compared.swap
      cases ordering with
      | eq => exact .inr swapped
      | lt =>
          cases keep with
          | lt => exact absurd rfl weak
          | eq => exact absurd rfl strict
          | gt => exact .inl swapped
      | gt =>
          cases keep with
          | gt => exact absurd rfl weak
          | eq => exact absurd rfl strict
          | lt => exact .inl swapped
    obtain ⟨earlier, later, rfl, own, before, after⟩ := foremost
    refine ⟨earlier, later ++ [value], by simp, own, before, ?_⟩
    intro other among
    rcases List.mem_append.mp among with old | new
    · exact after other old
    · rw [List.mem_singleton.mp new]
      exact stays

/-- So it is the one that is looked for. -/
theorem Foremost.extreme (strict : keep ≠ .eq) (foremost : Foremost keep values best) :
    extremeOf keep values = some best := by
  have unbeaten : (values.all fun other => other.order? best != some keep) = true := by
    apply List.all_eq_true.mpr
    intro other among
    have swapped : other.order? best = some keep.swap ∨ other.order? best = some .eq :=
      (foremost.compares other among).imp (·.swap.order) (·.swap.order)
    cases keep with
    | eq => exact absurd rfl strict
    | lt => rcases swapped with same | same <;> rw [same] <;> rfl
    | gt => rcases swapped with same | same <;> rw [same] <;> rfl
  have member := foremost.mem
  obtain ⟨earlier, later, rfl, -, before, -⟩ := foremost
  apply List.find?_eq_some_iff_append.mpr
  refine ⟨unbeaten, earlier, later, rfl, fun other among => ?_⟩
  rw [Bool.not_eq_true', List.all_eq_false]
  exact ⟨best, member, by rw [(before other among).order]; simp⟩

end Foremost

namespace Accumulator

/-- A call on an aggregator. -/
inductive Command
  | input (value : Datum)
  | output
  | reset
deriving DecidableEq

def Command.isInput : Command → Bool
  | input _ => true
  | output | reset => false

/-- What a call answers. -/
inductive Response
  | done
  | refused (cause : ValueError)
  | result (value : Datum)
deriving DecidableEq

/-- One call. A result is given out and the next one starts afresh. -/
def obey (accumulator : Accumulator) : Command → Response × Accumulator
  | .input value =>
      match accumulator.input value with
      | .ok next => (.done, next)
      | .error cause => (.refused cause, accumulator)
  | .output => (.result accumulator.result, accumulator.reset)
  | .reset => (.done, accumulator.reset)

theorem obey_taken {accumulator next : Accumulator} {value : Datum}
    (input : accumulator.input value = .ok next) :
    accumulator.obey (.input value) = (.done, next) := by
  simp only [obey, input]

theorem obey_refused {accumulator : Accumulator} {value : Datum} {cause : ValueError}
    (input : accumulator.input value = .error cause) :
    accumulator.obey (.input value) = (.refused cause, accumulator) := by
  simp only [obey, input]

/-- The calls of a sequence with their answers. -/
def dialogue (accumulator : Accumulator) : List Command → List (Command × Response)
  | [] => []
  | command :: rest =>
      (command, (accumulator.obey command).1) :: (accumulator.obey command).2.dialogue rest

theorem dialogue_commands (accumulator : Accumulator) (commands : List Command) :
    (accumulator.dialogue commands).map Prod.fst = commands := by
  induction commands generalizing accumulator with
  | nil => rfl
  | cons command rest induction => exact congrArg (command :: ·) (induction _)

/-- What refuses a value stays as it was. -/
theorem obey_stays {accumulator : Accumulator} {command : Command} {cause : ValueError}
    (refused : (accumulator.obey command).1 = .refused cause) :
    (accumulator.obey command).2 = accumulator := by
  cases command with
  | output => cases refused
  | reset => cases refused
  | input value =>
      cases input : accumulator.input value with
      | ok next =>
          rw [obey_taken input] at refused
          cases refused
      | error cause => rw [obey_refused input]

/-- The values other than NULL that were taken since the last result or reset, after one more
call. -/
def taken (values : List Datum) : Command × Response → List Datum
  | (.input value, .done) => values ++ known [value]
  | (.input _, _) => values
  | (.output, _) => []
  | (.reset, _) => []

theorem taken_length (values : List Datum) (command : Command) (response : Response) :
    (taken values (command, response)).length ≤
      values.length + if command.isInput then 1 else 0 := by
  cases command with
  | output => exact Nat.zero_le _
  | reset => exact Nat.zero_le _
  | input value =>
      have most : (known [value]).length ≤ 1 := List.length_filter_le _ _
      cases response with
      | done =>
          simp only [taken, List.length_append, Command.isInput, if_true]
          omega
      | refused cause => exact Nat.le_add_right _ _
      | result value => exact Nat.le_add_right _ _

end Accumulator

namespace Aggregate

/-- The text between the parts of a concatenation. -/
def separator (aggregate : Aggregate) : String :=
  match aggregate.option? with
  | some (.text separator) => separator
  | _ => ","

/-- The values among which something is said of the function: no floating-point numbers where it
adds or compares them. -/
def Covers (aggregate : Aggregate) (values : List Datum) : Prop :=
  match aggregate.function with
  | .sum | .min | .max => ∀ value ∈ values, value.Exact
  | .count | .groupConcat => True

/-- What the function says of values: their number, their exact sum, the first that is extremal, or
their texts in a row. -/
def Tells (aggregate : Aggregate) (values : List Datum) (result : Datum) : Prop :=
  match aggregate.function with
  | .count => ∃ number : Whole .bigint, number.value = values.length ∧
      result = .whole .bigint number
  | .sum =>
      match sumOf values with
      | none => result = .null
      | some sum => ∃ total : Whole .bigint, total.value = sum ∧ result = .whole .bigint total
  | .min => result = (extremeOf .lt values).getD .null
  | .max => result = (extremeOf .gt values).getD .null
  | .groupConcat =>
      result = if values = [] then .null
        else .text (aggregate.separator.intercalate (values.map Datum.toText))

/-- The function refuses one more value: a sum what is no number, or what is beyond bigint itself or
with the sum, and an extreme what does not compare with the extreme so far. -/
def Refuses (aggregate : Aggregate) (values : List Datum) (value : Datum) : Prop :=
  match aggregate.function with
  | .count | .groupConcat => False
  | .sum =>
      match value with
      | .whole _ number =>
          Whole.ofInt? .bigint number.value = none ∨
            Whole.ofInt? .bigint ((sumOf values).getD 0 + number.value) = none
      | .floating _ _ => False
      | _ => True
  | .min => ∃ least, extremeOf .lt values = some least ∧ value.order? least = none
  | .max => ∃ greatest, extremeOf .gt values = some greatest ∧ value.order? greatest = none

/-- How the function answers when these values were taken. NULL is always taken, and changes
nothing. -/
def Answers (aggregate : Aggregate) (values : List Datum) :
    Accumulator.Command → Accumulator.Response → Prop
  | .input value, response =>
      (response = .done ∨ ∃ cause, response = .refused cause) ∧
        (value.isNull = true → response = .done) ∧
        (value.isNull = false → aggregate.Covers values →
          ((∃ cause, response = .refused cause) ↔ aggregate.Refuses values value))
  | .output, response => ∃ result, response = .result result ∧
      (aggregate.Covers values → aggregate.Tells values result)
  | .reset, response => response = .done

end Aggregate

section Inputs

variable {keep : Ordering} {values : List Datum} {value current : Datum}

/-- The first extreme of the values, or NULL if there are none. -/
def Leads (keep : Ordering) (values : List Datum) (current : Datum) : Prop :=
  (values = [] ∧ current = .null) ∨ Foremost keep values current

theorem Foremost.present (foremost : Foremost keep values current) : current.isNull = false := by
  obtain ⟨_, _, _, self, _⟩ := foremost
  exact self.present

theorem Leads.extreme (strict : keep ≠ .eq) (leads : Leads keep values current) :
    current = (extremeOf keep values).getD .null := by
  rcases leads with ⟨rfl, rfl⟩ | foremost
  · rfl
  · rw [foremost.extreme strict]
    rfl

/-- One more value is compared with the extreme so far, if there is one. -/
theorem Leads.input (strict : keep ≠ .eq) (present : value.isNull = false)
    (leads : Leads keep values current) :
    match (Accumulator.extremum keep current).input value with
    | .ok next => ((∀ member ∈ values ++ [value], member.Exact) →
          ∃ leading, next = .extremum keep leading ∧ Leads keep (values ++ [value]) leading) ∧
        ¬∃ best, extremeOf keep values = some best ∧ value.order? best = none
    | .error _ => ∃ best, extremeOf keep values = some best ∧ value.order? best = none := by
  rcases leads with ⟨rfl, rfl⟩ | foremost
  · rw [Accumulator.input_first present]
    refine ⟨fun covered => ⟨value, rfl, .inr (foremost_single (covered value (by simp)) present)⟩, ?_⟩
    rintro ⟨best, found, _⟩
    cases found
  · have found := foremost.extreme strict
    rw [Accumulator.input_further present foremost.present]
    cases ordered : value.order? current with
    | none => exact ⟨current, found, ordered⟩
    | some ordering =>
        refine ⟨fun covered => ⟨_, rfl, .inr ?_⟩, ?_⟩
        · have exactValue := covered value (by simp)
          have exactBest := covered current (List.mem_append_left _ foremost.mem)
          exact foremost.append strict (Datum.compared_self exactValue present)
            (Datum.compared_of_order exactValue exactBest ordered)
        · rintro ⟨best, same, none⟩
          rw [found] at same
          cases same
          rw [ordered] at none
          cases none

/-- The sum so far is the exact sum of whole numbers. -/
def RunningSum.Sums (values : List Datum) (total : RunningSum) : Prop :=
  (values = [] ∧ total = .nothing) ∨
    ∃ sum : Whole .bigint, total = .whole sum ∧ sumOf values = some sum.value

/-- A whole number is added, unless it or the sum is beyond bigint. -/
theorem RunningSum.Sums.input {total : RunningSum} (sums : total.Sums values) {width : Width}
    (number : Whole width) :
    match total.input (.whole width number) with
    | .ok next => next.Sums (values ++ [.whole width number]) ∧
        ¬(Whole.ofInt? .bigint number.value = none ∨
          Whole.ofInt? .bigint ((sumOf values).getD 0 + number.value) = none)
    | .error _ => Whole.ofInt? .bigint number.value = none ∨
        Whole.ofInt? .bigint ((sumOf values).getD 0 + number.value) = none := by
  unfold RunningSum.input
  dsimp only
  cases fits : Whole.ofInt? .bigint number.value with
  | none => exact .inl rfl
  | some fitting =>
      have same := (Whole.of_int_some_iff _ _).mp fits
      rcases sums with ⟨rfl, rfl⟩ | ⟨sum, rfl, known⟩
      · refine ⟨.inr ⟨fitting, rfl, ?_⟩, ?_⟩
        · simp [sumOf, Datum.whole?, same]
        · simp [sumOf, fits]
      · dsimp only [addWhole]
        rw [known, ← same]
        cases added : Whole.ofInt? .bigint (sum.value + number.value) with
        | none => exact .inr added
        | some next =>
            have total := (Whole.of_int_some_iff _ _).mp added
            refine ⟨.inr ⟨next, rfl, ?_⟩, ?_⟩
            · rw [sum_of_append, known]
              simp [sumOf, Datum.whole?, ← total]
            · simp [added]

end Inputs

namespace Aggregate

/-- The accumulator knows the values that it took since the last result or reset. -/
def Holds (aggregate : Aggregate) (values : List Datum) (accumulator : Accumulator) : Prop :=
  match aggregate.function with
  | .count => accumulator = .count values.length
  | .sum => ∃ total, accumulator = .sum total ∧ (aggregate.Covers values → total.Sums values)
  | .min => ∃ current, accumulator = .extremum .lt current ∧
      (aggregate.Covers values → Leads .lt values current)
  | .max => ∃ current, accumulator = .extremum .gt current ∧
      (aggregate.Covers values → Leads .gt values current)
  | .groupConcat => accumulator = .concat aggregate.separator (values.map Datum.toText)

/-- One more value is taken, and then the accumulator knows it too, or it is refused; each where it
should be. -/
def Takes (aggregate : Aggregate) (values : List Datum) (value : Datum) :
    Except ValueError Accumulator → Prop
  | .ok next => aggregate.Holds (values ++ [value]) next ∧
      (aggregate.Covers values → ¬aggregate.Refuses values value)
  | .error _ => aggregate.Covers values → aggregate.Refuses values value

variable {aggregate : Aggregate} {values : List Datum} {value : Datum}
  {accumulator : Accumulator}

theorem Covers.before (covers : aggregate.Covers (values ++ [value])) : aggregate.Covers values := by
  obtain ⟨function, option?⟩ := aggregate
  cases function with
  | count => trivial
  | groupConcat => trivial
  | sum | min | max => exact fun member among => covers member (List.mem_append_left _ among)

/-- An extreme takes or refuses a present value as it should. -/
theorem extremum_takes (keep : Ordering) (strict : keep ≠ .eq) (present : value.isNull = false)
    {current : Datum} (leads : (∀ member ∈ values, member.Exact) → Leads keep values current) :
    match (Accumulator.extremum keep current).input value with
    | .ok next => (∃ leading, next = .extremum keep leading ∧
          ((∀ member ∈ values ++ [value], member.Exact) →
            Leads keep (values ++ [value]) leading)) ∧
        ((∀ member ∈ values, member.Exact) →
          ¬∃ best, extremeOf keep values = some best ∧ value.order? best = none)
    | .error _ => (∀ member ∈ values, member.Exact) →
        ∃ best, extremeOf keep values = some best ∧ value.order? best = none := by
  have known := fun covers => (leads covers).input strict present
  cases taken : (Accumulator.extremum keep current).input value with
  | error cause =>
      intro covers
      have refused := known covers
      rw [taken] at refused
      exact refused
  | ok next =>
      obtain ⟨leading, rfl, -⟩ := Accumulator.extremum_of_input present taken
      rw [taken] at known
      refine ⟨⟨leading, rfl, fun covers => ?_⟩, fun covers => (known covers).2⟩
      have before := fun member among => covers member (List.mem_append_left _ among)
      obtain ⟨_, same, leads⟩ := (known before).1 covers
      cases same
      exact leads

/-- A sum takes or refuses a present value as it should. -/
theorem sum_takes {option? : Option Datum} (present : value.isNull = false) {total : RunningSum}
    (sums : (Aggregate.mk .sum option?).Covers values → total.Sums values) :
    (Aggregate.mk .sum option?).Takes values value ((total.input value).map .sum) := by
  cases value with
  | null => cases present
  | boolean _ => exact fun _ => trivial
  | text _ => exact fun _ => trivial
  | bytes _ => exact fun _ => trivial
  | floating precision number =>
      have taken : ∃ next, total.input (.floating precision number) = .ok next := by
        cases precision <;> exact ⟨_, rfl⟩
      obtain ⟨next, taken⟩ := taken
      rw [taken]
      refine ⟨⟨next, rfl, fun covers => ?_⟩, fun _ => id⟩
      exact absurd rfl (covers (.floating precision number) (by simp) precision number)
  | whole width number =>
      have known := fun covers => (sums covers).input number
      cases taken : total.input (.whole width number) with
      | error cause =>
          intro covers
          have refused := known covers
          rw [taken] at refused
          exact refused
      | ok next =>
          rw [taken] at known
          exact ⟨⟨next, rfl, fun covers => (known covers.before).1⟩, fun covers => (known covers).2⟩

/-- A present value is taken or refused as it should be: one case for each function. -/
theorem Holds.takes (holds : aggregate.Holds values accumulator) (present : value.isNull = false) :
    aggregate.Takes values value (accumulator.input value) := by
  obtain ⟨function, option?⟩ := aggregate
  cases function with
  | count =>
      obtain rfl : accumulator = .count values.length := holds
      rw [Accumulator.input_count present]
      exact ⟨congrArg Accumulator.count (by simp), fun _ => id⟩
  | sum =>
      obtain ⟨total, rfl, sums⟩ := holds
      rw [Accumulator.input_sum present]
      exact sum_takes present sums
  | min =>
      obtain ⟨current, rfl, leads⟩ := holds
      have takes := extremum_takes .lt nofun present leads
      revert takes
      cases (Accumulator.extremum .lt current).input value <;> exact id
  | max =>
      obtain ⟨current, rfl, leads⟩ := holds
      have takes := extremum_takes .gt nofun present leads
      revert takes
      cases (Accumulator.extremum .gt current).input value <;> exact id
  | groupConcat =>
      obtain rfl : accumulator = .concat _ _ := holds
      rw [Accumulator.input_concat present]
      exact ⟨congrArg (Accumulator.concat _) (by simp), fun _ => id⟩

/-- NULL changes nothing, and any other value is added or refused. -/
theorem Holds.input (holds : aggregate.Holds values accumulator) (value : Datum) :
    aggregate.Answers values (.input value) (accumulator.obey (.input value)).1 ∧
      aggregate.Holds
        (Accumulator.taken values (.input value, (accumulator.obey (.input value)).1))
        (accumulator.obey (.input value)).2 := by
  cases missing : value.isNull with
  | true =>
      rw [Accumulator.obey_taken (Accumulator.input_null missing)]
      refine ⟨⟨.inl rfl, fun _ => rfl, fun present => absurd missing (by simp [present])⟩, ?_⟩
      simpa [Accumulator.taken, known, missing] using holds
  | false =>
      have takes := holds.takes missing
      have present : value.isNull = true → False := by simp [missing]
      cases input : accumulator.input value with
      | error cause =>
          rw [input] at takes
          rw [Accumulator.obey_refused input]
          exact ⟨⟨.inr ⟨cause, rfl⟩, fun null => (present null).elim,
            fun _ covers => iff_of_true ⟨cause, rfl⟩ (takes covers)⟩, holds⟩
      | ok next =>
          rw [input] at takes
          rw [Accumulator.obey_taken input]
          refine ⟨⟨.inl rfl, fun null => (present null).elim,
            fun _ covers => iff_of_false (by simp) (takes.2 covers)⟩, ?_⟩
          simpa only [Accumulator.taken, known_value missing] using takes.1

theorem Holds.reset (holds : aggregate.Holds values accumulator) :
    aggregate.Holds [] accumulator.reset := by
  obtain ⟨function, option?⟩ := aggregate
  cases function with
  | count =>
      obtain rfl : accumulator = .count _ := holds
      rfl
  | sum =>
      obtain ⟨total, rfl, -⟩ := holds
      exact ⟨.nothing, rfl, fun _ => .inl ⟨rfl, rfl⟩⟩
  | min =>
      obtain ⟨current, rfl, -⟩ := holds
      exact ⟨.null, rfl, fun _ => .inl ⟨rfl, rfl⟩⟩
  | max =>
      obtain ⟨current, rfl, -⟩ := holds
      exact ⟨.null, rfl, fun _ => .inl ⟨rfl, rfl⟩⟩
  | groupConcat =>
      obtain rfl : accumulator = .concat _ _ := holds
      rfl

/-- The result is what the function says of the values. -/
theorem Holds.tells (holds : aggregate.Holds values accumulator)
    (few : values.length < 9223372036854775808) (covers : aggregate.Covers values) :
    aggregate.Tells values accumulator.result := by
  obtain ⟨function, option?⟩ := aggregate
  cases function with
  | count =>
      obtain rfl : accumulator = .count values.length := holds
      refine ⟨Whole.wrapSigned values.length, ?_, rfl⟩
      simp only [Whole.wrapSigned]
      exact Int.bmod_eq_of_le (by omega) (by omega)
  | sum =>
      obtain ⟨total, rfl, sums⟩ := holds
      rcases sums covers with ⟨rfl, rfl⟩ | ⟨sum, rfl, known⟩
      · exact rfl
      · unfold Tells
        dsimp only
        rw [known]
        exact ⟨sum, rfl, rfl⟩
  | min =>
      obtain ⟨current, rfl, leads⟩ := holds
      exact (leads covers).extreme (by decide)
  | max =>
      obtain ⟨current, rfl, leads⟩ := holds
      exact (leads covers).extreme (by decide)
  | groupConcat =>
      obtain rfl : accumulator = .concat _ (values.map Datum.toText) := holds
      cases values <;> rfl

/-- One call is answered as it should be, and the accumulator knows the values afterwards. -/
theorem Holds.obey (holds : aggregate.Holds values accumulator)
    (few : values.length < 9223372036854775808) (command : Accumulator.Command) :
    aggregate.Answers values command (accumulator.obey command).1 ∧
      aggregate.Holds (Accumulator.taken values (command, (accumulator.obey command).1))
        (accumulator.obey command).2 := by
  cases command with
  | input value => exact holds.input value
  | output => exact ⟨⟨_, rfl, holds.tells few⟩, holds.reset⟩
  | reset => exact ⟨rfl, holds.reset⟩

theorem holds_start (started : aggregate.start = .ok accumulator) :
    aggregate.Holds [] accumulator := by
  obtain ⟨function, option?⟩ := aggregate
  cases function with
  | groupConcat =>
      cases option? with
      | none =>
          cases started
          rfl
      | some option =>
          cases option <;> cases started
          rfl
  | count =>
      cases option? <;> cases started
      rfl
  | sum =>
      cases option? <;> cases started
      exact ⟨.nothing, rfl, fun _ => .inl ⟨rfl, rfl⟩⟩
  | min =>
      cases option? <;> cases started
      exact ⟨.null, rfl, fun _ => .inl ⟨rfl, rfl⟩⟩
  | max =>
      cases option? <;> cases started
      exact ⟨.null, rfl, fun _ => .inl ⟨rfl, rfl⟩⟩

/-- Every call of a sequence is answered from the values that were taken before it, and without a
refused one the others are answered as they are: by induction on the calls. -/
theorem Holds.dialogue (holds : aggregate.Holds values accumulator)
    {commands : List Accumulator.Command}
    (few : values.length + commands.countP Accumulator.Command.isInput < 9223372036854775808)
    {before after : List (Accumulator.Command × Accumulator.Response)}
    {command : Accumulator.Command} {response : Accumulator.Response}
    (said : accumulator.dialogue commands = before ++ (command, response) :: after) :
    aggregate.Answers (before.foldl Accumulator.taken values) command response ∧
      ∀ cause, response = .refused cause →
        accumulator.dialogue (before.map Prod.fst ++ after.map Prod.fst) = before ++ after := by
  induction commands generalizing values accumulator before with
  | nil => cases before <;> cases said
  | cons first rest induction =>
      rw [List.countP_cons] at few
      obtain ⟨answers, next⟩ := holds.obey (by omega) first
      cases before with
      | nil =>
          cases said
          refine ⟨answers, fun cause refused => ?_⟩
          rw [Accumulator.obey_stays refused, List.map_nil, List.nil_append,
            Accumulator.dialogue_commands]
          rfl
      | cons exchange before =>
          obtain ⟨rfl, later⟩ := List.cons.inj said
          have grown := Accumulator.taken_length values first (accumulator.obey first).1
          have further := induction next (by omega) later
          refine ⟨further.1, fun cause refused => ?_⟩
          exact congrArg ((first, (accumulator.obey first).1) :: ·) (further.2 cause refused)

/-- Whatever is called on a new aggregator, each call is answered from the values that were taken
since the last result or reset, and without a refused value all other calls are answered as they
are. -/
theorem answers_from_taken_values {fresh : Accumulator} (started : aggregate.start = .ok fresh)
    {commands : List Accumulator.Command}
    (few : commands.countP Accumulator.Command.isInput < 9223372036854775808)
    {before after : List (Accumulator.Command × Accumulator.Response)}
    {command : Accumulator.Command} {response : Accumulator.Response}
    (said : fresh.dialogue commands = before ++ (command, response) :: after) :
    aggregate.Answers (before.foldl Accumulator.taken []) command response ∧
      ∀ cause, response = .refused cause →
        fresh.dialogue (before.map Prod.fst ++ after.map Prod.fst) = before ++ after :=
  (holds_start started).dialogue (by simpa using few) said

end Aggregate

/-! The greatest bigint is added up with one, which is refused, with NULL and with minus one. -/

namespace Ceiling

open Accumulator

def greatest : Datum :=
  .whole .bigint ⟨9223372036854775807, by decide, by decide⟩

def below : Datum :=
  .whole .bigint ⟨9223372036854775806, by decide, by decide⟩

def one : Datum :=
  .whole .smallint ⟨1, by decide, by decide⟩

def minusOne : Datum :=
  .whole .integer ⟨-1, by decide, by decide⟩

def commands : List Command :=
  [.input greatest, .input one, .input .null, .input minusOne, .output]

def before : List (Command × Response) :=
  [(.input greatest, .done)]

def after : List (Command × Response) :=
  [(.input .null, .done), (.input minusOne, .done), (.output, .result below)]

theorem said : (Accumulator.sum .nothing).dialogue commands =
    before ++ (.input one, .refused (.overflow .bigint)) :: after := by
  decide

/-- One is refused for the sum, and the result is as without it. -/
theorem one_refused :
    (Aggregate.mk .sum none).Refuses [greatest] one ∧
      (Accumulator.sum .nothing).dialogue [.input greatest, .input .null, .input minusOne, .output] =
        before ++ after := by
  have started : Aggregate.start (.mk .sum none) = .ok (.sum .nothing) := rfl
  obtain ⟨answers, others⟩ := Aggregate.answers_from_taken_values started (by decide) said
  refine ⟨(answers.2.2 rfl ?_).mp ⟨_, rfl⟩, others _ rfl⟩
  rintro _ among _ _ rfl
  cases among with
  | tail _ impossible => cases impossible

end Ceiling

end QueryExec
