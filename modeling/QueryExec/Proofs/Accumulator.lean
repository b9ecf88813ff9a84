import QueryExec.Aggregate

/-!
What an accumulator does with a value. NULL is skipped by every one of them; any other value is
counted, added, compared or appended. Whatever is taken, a reset leads back to the same start.
-/

namespace QueryExec

theorem RunningSum.input_refused {total : RunningSum} {value : Datum} {cause : ValueError}
    (refused : total.input value = .error cause) :
    cause = .overflow .bigint ∨ ∃ expected found, cause = .typeMismatch expected found := by
  unfold RunningSum.input at refused
  split at refused
  next number =>
    split at refused
    next fitting _ =>
      unfold addWhole at refused
      split at refused
      · cases refused
      · split at refused <;> cases refused
        exact .inl rfl
      · cases refused
    next =>
      cases refused
      exact .inl rfl
  next => cases refused
  next => cases refused
  next =>
    cases refused
    exact .inr ⟨_, _, rfl⟩

namespace Accumulator

variable {accumulator next : Accumulator} {value : Datum}

theorem input_null (missing : value.isNull = true) : accumulator.input value = .ok accumulator := by
  simp [input, missing]

section Present

variable {keep : Ordering} {current : Datum} {total : RunningSum} (present : value.isNull = false)

include present

theorem input_count (seen : Nat) : (count seen).input value = .ok (count (seen + 1)) := by
  simp [input, present]

theorem input_sum (total : RunningSum) :
    (sum total).input value = (total.input value).map sum := by
  simp [input, present]

theorem input_first : (extremum keep .null).input value = .ok (extremum keep value) := by
  simp [input, present]

theorem input_further (own : current.isNull = false) :
    (extremum keep current).input value =
      match value.order? current with
      | some ordering => .ok (extremum keep (if ordering = keep then value else current))
      | none => .error (.typeMismatch current.kindName value.kindName) := by
  cases current with
  | null => cases own
  | _ => cases ordered : value.order? _ <;> simp [input, present, ordered]

theorem input_concat (separator : String) (parts : List String) :
    (concat separator parts).input value = .ok (concat separator (parts ++ [value.toText])) := by
  simp [input, present]

/-- A sum that takes a value adds it. -/
theorem sum_of_input (taken : (sum total).input value = .ok next) :
    ∃ later, total.input value = .ok later ∧ next = sum later := by
  rw [input_sum present] at taken
  cases added : total.input value with
  | error cause =>
      rw [added] at taken
      cases taken
  | ok later =>
      rw [added] at taken
      cases taken
      exact ⟨later, rfl, rfl⟩

/-- An extreme that takes a value is then this value or stays as it was. -/
theorem extremum_of_input (taken : (extremum keep current).input value = .ok next) :
    ∃ leading, next = extremum keep leading ∧ (leading = value ∨ leading = current) := by
  cases missing : current.isNull with
  | true =>
      obtain rfl : current = .null := Datum.is_null_iff.mp missing
      rw [input_first present] at taken
      cases taken
      exact ⟨value, rfl, .inl rfl⟩
  | false =>
      rw [input_further present missing] at taken
      split at taken <;> cases taken
      refine ⟨_, rfl, ?_⟩
      split
      · exact .inl rfl
      · exact .inr rfl

end Present

/-- Only a sum out of range and a value of another kind are refused. -/
theorem input_refused {cause : ValueError} (refused : accumulator.input value = .error cause) :
    cause = .overflow .bigint ∨ ∃ expected found, cause = .typeMismatch expected found := by
  cases missing : value.isNull with
  | true =>
      rw [input_null missing] at refused
      cases refused
  | false =>
      cases accumulator with
      | count seen =>
          rw [input_count missing] at refused
          cases refused
      | sum total =>
          rw [input_sum missing] at refused
          cases added : total.input value with
          | ok later =>
              rw [added] at refused
              cases refused
          | error own =>
              rw [added] at refused
              cases refused
              exact RunningSum.input_refused added
      | extremum keep current =>
          cases own : current.isNull with
          | true =>
              obtain rfl : current = .null := Datum.is_null_iff.mp own
              rw [input_first missing] at refused
              cases refused
          | false =>
              rw [input_further missing own] at refused
              split at refused <;> cases refused
              exact .inr ⟨_, _, rfl⟩
      | concat separator parts =>
          rw [input_concat missing] at refused
          cases refused

theorem reset_input (taken : accumulator.input value = .ok next) :
    next.reset = accumulator.reset := by
  cases missing : value.isNull with
  | true =>
      rw [input_null missing] at taken
      cases taken
      rfl
  | false =>
      cases accumulator with
      | count seen =>
          rw [input_count missing] at taken
          cases taken
          rfl
      | sum total =>
          obtain ⟨later, -, rfl⟩ := sum_of_input missing taken
          rfl
      | extremum keep current =>
          obtain ⟨leading, rfl, -⟩ := extremum_of_input missing taken
          rfl
      | concat separator parts =>
          rw [input_concat missing] at taken
          cases taken
          rfl

theorem reset_reset (accumulator : Accumulator) : accumulator.reset.reset = accumulator.reset := by
  cases accumulator <;> rfl

theorem empty_result_reset (accumulator : Accumulator) :
    accumulator.reset.emptyResult = accumulator.emptyResult := by
  cases accumulator <;> rfl

theorem map_reset_reset (accumulators : List Accumulator) :
    (accumulators.map reset).map reset = accumulators.map reset := by
  rw [List.map_map]
  exact List.map_congr_left fun accumulator _ => accumulator.reset_reset

theorem map_reset_empty_result (accumulators : List Accumulator) :
    (accumulators.map reset).map emptyResult = accumulators.map emptyResult := by
  rw [List.map_map]
  exact List.map_congr_left fun accumulator _ => accumulator.empty_result_reset

end Accumulator

end QueryExec
