import QueryExec.Journal

/-!
What a journal notes. A change of the diagnostics of one context is seen in that context alone. A tap
leaves cancellation and warnings as they are, and a warning is appended where there is room for it.
-/

namespace QueryExec.Journal

variable (journal : Journal) (own context : Context)

/-- The diagnostics of a context after a change of those of another. -/
theorem of_change (step : Diagnostics → Diagnostics) :
    (journal.change own step).of context =
      if own.id = context.id then step (journal.of context) else journal.of context := by
  split
  next same =>
    have alike : journal.of own = journal.of context := by rw [of, of, same]
    rw [← alike]
    simp [of, change, same]
  next other =>
    simp [of, change, Table.get_set_other _ _ _ _ (Ne.symm other)]

theorem of_change_own (step : Diagnostics → Diagnostics) :
    (journal.change context step).of context = step (journal.of context) := by
  rw [of_change, if_pos rfl]

/-- Changing the diagnostics of a context cancels none, if the change itself does not. -/
theorem cancelled_change (changed : Context) {step : Diagnostics → Diagnostics}
    (keeps : ∀ before, (step before).cancelled = before.cancelled) :
    ((journal.change changed step).of context).cancelled = (journal.of context).cancelled := by
  rw [of_change]
  split
  · exact keeps _
  · rfl

theorem cancelled_cancel : ((journal.cancel context).of context).cancelled = true := by
  rw [cancel, of_change_own]

theorem cancelled_tap (tapped : Context) (name : String) :
    ((journal.tap tapped name).of context).cancelled = (journal.of context).cancelled := by
  unfold tap
  split
  · exact journal.cancelled_change context tapped fun _ => rfl
  · rfl

theorem warnings_tap (name : String) :
    ((journal.tap context name).of context).warnings = (journal.of context).warnings := by
  unfold tap
  split
  · rw [of_change_own]
  · rfl

/-- A warning is kept until there are as many as the context may keep. -/
theorem warnings_warn (message : String) :
    ((journal.warn context message).of context).warnings =
      if (journal.of context).warnings.length < context.settings.maxWarnings then
        (journal.of context).warnings ++ [message]
      else (journal.of context).warnings := by
  rw [warn, of_change_own]
  split <;> rfl

end QueryExec.Journal
