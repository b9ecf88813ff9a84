import QueryExec.Proofs.Census.Sessions
import QueryExec.Proofs.Idle

/-!
Runs of plans. A run makes a cursor, has it make one pass for each binding that its source delivers
and destroys it. In a steady engine the outcome is what the plan denotes under these bindings, and
nothing that the cursors do on the way changes it. The engine of a session is steady whatever came
before, unless the context was cancelled or a fault is still to come.
-/

namespace QueryExec

open QueryExec.Action

namespace Plan

section Passes

variable {context : Context} {store : Store} {census : Census} {plan : Plan} {bindings : Bindings}
  {source : BindingSource} {pair : plan.Cursor × Engine}

/-- One pass after another gives the results under the pending bindings, in their order: by
induction on the bound, which exceeds their number. -/
theorem passes_within_agrees (idle : Idle context store census plan bindings source pair)
    (bound : ∀ next ∈ source.pending, Bindings.Listed census next)
    (listed : ∀ rows, plan.leafRows store = .ok rows → ∀ row ∈ rows, row.Listed census)
    (most : Nat) (enough : source.pending.length < most) :
    EndsIn pair
      ((plan.protocol context).passesWithin (fun _ => (plan.protocol context).drain) most)
      (fun results after =>
        source.pending.mapM (plan.passResult store context) = .ok results ∧
          ∃ last left, Usable plan last left after)
      fun interrupt after =>
        source.pending.mapM (plan.passResult store context) = .error interrupt ∧
          ∃ last left, Usable plan last left after := by
  induction most generalizing census bindings source pair with
  | zero => exact absurd enough (Nat.not_lt_zero _)
  | succ most induction =>
      obtain ⟨head, tail⟩ := source.pending_next
      apply agree_surely idle.next_bindings_agrees
      intro next? after ends
      obtain ⟨rfl, idle⟩ := ends
      rw [head] at idle ⊢
      cases pending : source.pending with
      | nil =>
          rw [pending] at idle
          exact agree_pure [] ⟨rfl, _, _, idle.toUsable⟩
      | cons next rest =>
          rw [pending] at idle tail bound enough
          rw [List.mapM_cons]
          have own := bound next List.mem_cons_self
          refine agree_bind (agree_weaken (idle.open_pass_agrees own listed) (fun _ _ => id) ?_) ?_
          · intro interrupt _ ends
            obtain ⟨failed, usable⟩ := ends
            change plan.passResult store context next = .error interrupt at failed
            rw [failed]
            exact ⟨rfl, _, _, usable⟩
          intro _ opened ends
          obtain ⟨usable, steady, rows, loaded, delivering⟩ := ends
          apply agree_outcome_bind (agree_weaken (usable.drain_agrees steady loaded delivering)
            (fun _ _ => id) fun _ _ ends => ⟨ends.1, _, _, ends.2⟩)
          intro values drained ends
          obtain ⟨later, within, idle⟩ := ends
          have others : ∀ other ∈ source.next.2.pending, Bindings.Listed later other := by
            rw [tail]
            exact fun other member =>
              (bound other (List.mem_cons_of_mem _ member)).later within
          have still : ∀ rows, plan.leafRows store = .ok rows → ∀ row ∈ rows, row.Listed later :=
            fun rows loaded row member => (listed rows loaded row member).later within
          have fewer : source.next.2.pending.length < most := by
            rw [tail]
            exact Nat.lt_of_succ_lt_succ enough
          have rests := induction idle others still fewer
          rw [tail] at rests
          apply agree_outcome_bind rests
          exact fun results _ usable => agree_pure _ ⟨rfl, usable⟩

/-- A whole run opens the source, and after its passes closes it. -/
theorem run_passes_agrees (idle : Idle context store census plan bindings source pair)
    (bound : ∀ next ∈ source.openAll.pending, Bindings.Listed census next)
    (listed : ∀ rows, plan.leafRows store = .ok rows → ∀ row ∈ rows, row.Listed census) :
    EndsIn pair ((plan.protocol context).runPasses fun _ => (plan.protocol context).drain)
      (fun results after =>
        source.openAll.pending.mapM (plan.passResult store context) = .ok results ∧
          ∃ last left, Usable plan last left after)
      fun interrupt after =>
        source.openAll.pending.mapM (plan.passResult store context) = .error interrupt ∧
          ∃ last left, Usable plan last left after := by
  apply agree_surely idle.open_bindings_agrees
  intro _ opened idle
  apply CursorAction.agree_state
  refine agree_bind (passes_within_agrees idle bound listed _ ?_) ?_
  · rw [passes_eq idle.carrying]
    exact Nat.lt_succ_self _
  intro results after ends
  obtain ⟨same, last, left, usable⟩ := ends
  apply agree_surely usable.close_bindings_agrees
  exact fun _ _ usable => agree_pure results ⟨same, last, _, usable⟩

/-- Destroying the cursor changes no outcome. -/
theorem then_destroy_agrees {result : Type} {run : CursorAction plan.Cursor result}
    {outcome : Except Interrupt result}
    (runs : EndsIn pair run
      (fun value after => outcome = .ok value ∧ ∃ last left, Usable plan last left after)
      fun interrupt after =>
        outcome = .error interrupt ∧ ∃ last left, Usable plan last left after) :
    EndsIn pair ((plan.protocol context).thenDestroy run) (fun value _ => outcome = .ok value)
      fun interrupt _ => outcome = .error interrupt := by
  refine agree_then (fun ran after => outcome = ran.mapError Interrupt.failed ∧
    ∃ last left, Usable plan last left after) (agree_attempt (agree_weaken runs ?_ ?_)) ?_
  · exact fun _ _ => id
  · rintro (error | _) after ⟨same, usable⟩
    · exact ⟨same, usable⟩
    · exact same
  intro ran after ends
  obtain ⟨rfl, last, left, usable⟩ := ends
  apply agree_then (fun destroyed _ => destroyed = .ok ()) (agree_attempt
    (agree_given usable.destroy_agrees fun _ _ _ => rfl))
  intro _ final alike
  subst alike
  cases ran with
  | ok value => exact agree_pure value rfl
  | error error => exact agree_fail error rfl

end Passes

section Runs

variable {context : Context} {census : Census} {engine : Engine}

theorem agree_run_from {cursor result : Type} {initial : cursor}
    {action : CursorAction cursor result} {gives : result → Engine → Prop}
    {stops : Interrupt → Engine → Prop}
    (agree : EndsIn (initial, engine) action (fun value after => gives value after.2)
      fun interrupt after => stops interrupt after.2) :
    EndsIn engine (CursorAction.runFrom initial action) gives stops :=
  ⟨rfl, agree.2⟩

theorem outcome_eq {state result : Type} {action : Action state result} {start : state}
    {outcome : Except Interrupt result}
    (ends : EndsIn start action (fun value _ => outcome = .ok value)
      fun interrupt _ => outcome = .error interrupt) : (action.run start).1 = outcome := by
  have meets := ends.2
  revert meets
  rcases action.run start with ⟨interrupt | value, after⟩ <;> exact Eq.symm

/-- A cursor can be made exactly where the plan is admitted, and is refused for the same reason. -/
theorem start_admitted (store : Store) (source : BindingSource) (plan : Plan) :
    (plan.start store source).map (fun _ => ()) = plan.admitted store := by
  induction plan with
  | values slice type rows => rfl
  | table name type =>
      unfold start admitted
      rcases store.checkScan name type with _ | _ <;> rfl
  | filter input predicate induction =>
      unfold start admitted
      rw [← induction]
      rcases input.start store source with _ | _ <;> rfl
  | project input type columns induction =>
      unfold start admitted
      rw [← induction]
      rcases input.start store source with _ | _ <;> rfl
  | aggregate input type keys aggregates induction =>
      unfold start admitted
      rw [← induction]
      rcases startAccumulators aggregates with _ | _ <;>
        rcases input.start store source with _ | _ <;> rfl
  | limit input offset limit? induction =>
      unfold start admitted
      rw [← induction]
      rcases input.start store source with _ | _ <;> rfl

/-- A new cursor is idle. -/
theorem start_idle {store : Store} {plan : Plan} {source : BindingSource} {cursor : plan.Cursor}
    {earlier : Store} (started : plan.start earlier source = .ok cursor)
    (steady : engine.Steady context store census) :
    Idle context store census plan .empty source (cursor, engine) := by
  have ⟨coherent, closed⟩ : plan.Coherent (fun _ => False) cursor ∧ plan.phase cursor = .closed :=
    start_coherent started
  have present : plan.phase cursor ≠ .destroyed := by simp [closed]
  exact ⟨⟨⟨coherent, steady.quiet⟩, present, start_carries started⟩, closed, steady⟩

variable {plan : Plan} (steady : engine.Steady context engine.store census)
  (listed : ∀ rows, plan.leafRows engine.store = .ok rows → ∀ row ∈ rows, row.Listed census)

include steady listed

/-- A run gives the results under the bindings of its source. -/
theorem run_eq (source : BindingSource)
    (bound : ∀ next ∈ source.openAll.pending, Bindings.Listed census next) :
    ((plan.run context source fun _ => (plan.protocol context).drain).run engine).1 =
      plan.references engine.store context source.openAll.pending := by
  have admission := start_admitted engine.store source plan
  refine outcome_eq (agree_then (fun read after => engine = read ∧ engine = after)
    ⟨rfl, rfl, rfl⟩ ?_)
  intro _ _ ends
  obtain ⟨rfl, rfl⟩ := ends
  refine agree_then (fun cursor after => plan.start engine.store source = .ok cursor ∧
    engine = after) (agree_of_except _ (fun _ started => ⟨started, rfl⟩) ?_) ?_
  · intro error refused
    rw [refused] at admission
    unfold references
    rw [← admission]
    rfl
  intro cursor _ ends
  obtain ⟨started, rfl⟩ := ends
  rw [started] at admission
  have passes : plan.references engine.store context source.openAll.pending =
      source.openAll.pending.mapM (plan.passResult engine.store context) := by
    unfold references
    rw [← admission]
    rfl
  rw [passes]
  exact agree_run_from (then_destroy_agrees
    (run_passes_agrees (start_idle started steady) bound listed))

omit steady listed in
/-- Whatever cursors do to make it, the result of an undisturbed execution is the reference
result. -/
theorem execute_undisturbed {bindings : Bindings}
    (undisturbed : plan.Undisturbed context bindings engine) :
    ((plan.execute context bindings).run engine).1 =
      plan.reference engine.store context bindings := by
  obtain ⟨census, steady, bound, listed⟩ := undisturbed
  have ran := run_eq steady listed (.ofOne bindings)
    fun _ member => by rw [List.mem_singleton.mp member]; exact bound
  have one : plan.references engine.store context (BindingSource.ofOne bindings).openAll.pending =
      plan.reference engine.store context bindings >>= fun rows => .ok [rows] := by
    unfold references reference
    split
    · exact List.mapM_cons.trans rfl
    · rfl
  rw [one] at ran
  unfold execute
  rw [run_bind]
  revert ran
  rcases (plan.run context (.ofOne bindings) _).run engine with ⟨interrupt | passes, after⟩ <;>
    rcases plan.reference engine.store context bindings with failure | rows <;> rintro ⟨⟩ <;> rfl

end Runs

section Coverings

variable {faulty : LeafCall → Prop} {census : Census} {engine : Engine} {plan : Plan}

/-- The rows that the leaf loads are listed: the plan brings them along, or they are stored. -/
theorem leaf_rows_listed (covered : engine.Covered faulty census) (listed : plan.Listed census)
    {rows : List Row} (loaded : plan.leafRows engine.store = .ok rows) :
    ∀ row ∈ rows, row.Listed census := by
  induction plan with
  | values slice type own =>
      cases loaded
      exact listed
  | table name type =>
      unfold leafRows Store.table at loaded
      split at loaded <;> cases loaded
      next table present =>
        have plain : table.Plain := (Table.every_get covered.tidy present).plain
        exact fun row member => Row.listed_of_stored (plain row member) census
  | filter input predicate induction => exact induction listed loaded
  | project input type columns induction => exact induction listed loaded
  | aggregate input type keys aggregates induction => exact induction listed loaded
  | limit input offset limit? induction => exact induction listed loaded

/-- Where a census covers the engine, only cancellation and faults disturb. -/
theorem undisturbed_of_covered {context : Context} {bindings : Bindings}
    (covered : engine.Covered faulty census) (listed : plan.Listed census)
    (bound : bindings.Listed census) (uncancelled : (engine.journal.of context).cancelled = false)
    (faultless : engine.FaultsWithin fun _ => False) :
    plan.Undisturbed context bindings engine :=
  ⟨census, ⟨⟨uncancelled, covered.faithful⟩, covered.fresh, faultless, rfl⟩, bound,
    fun _ loaded => leaf_rows_listed covered listed loaded⟩

end Coverings

end Plan

namespace Session

/-- A plan that the session has and a binding that it has or that binds nothing. -/
def Offers (session : Session) (plan : Plan) (bindings : Bindings) : Prop :=
  (∃ name, session.plans.get? name = some plan) ∧
    ((∃ name, session.bindings.get? name = some bindings) ∨ ∃ id, bindings = .root id)

/-- Whatever a session did before, executing one of its plans under one of its bindings gives the
reference result, if the context is not cancelled and no leaf call is to fail. -/
theorem execute_eq_reference {session : Session} (reached : session.Reached fun _ => True)
    {plan : Plan} {bindings : Bindings} (offered : session.Offers plan bindings)
    {context : Context} (uncancelled : (session.engine.journal.of context).cancelled = false)
    (faultless : session.engine.FaultsWithin fun _ => False) :
    ((plan.execute context bindings).run session.engine).1 =
      plan.reference session.engine.store context bindings := by
  obtain ⟨census, covered⟩ := reached.covered
  obtain ⟨⟨planName, hasPlan⟩, hasBindings⟩ := offered
  have listed : plan.Listed census := Table.every_get covered.names.plans hasPlan
  have bound : bindings.Listed census := by
    rcases hasBindings with ⟨name, present⟩ | ⟨id, rfl⟩
    · exact Table.every_get covered.names.bindings present
    · exact trivial
  exact Plan.execute_undisturbed
    (Plan.undisturbed_of_covered covered.engine listed bound uncancelled faultless)

end Session

/-! Counting the rows of a plan that brings along none. -/

namespace Counting

open Session

def new : Session where
  engine := { nextId := 2 }
  context := ⟨1, .empty, {}⟩
  catalog := .empty

theorem new_reached : new.Reached fun _ => True := by
  have started : Session.start {} { standard := false } none = .ok new := rfl
  exact .start started fun _ impossible => by cases impossible

/-- A session that has a plan that counts no rows. -/
def session : Session :=
  new.after [.type "flag" [.notNull .boolean],
    .plan "count" (.aggregate (.values "flag" []) 0 [⟨.count, none⟩])]

def plan : Plan :=
  .aggregate (.values 2 ⟨1, [.notNull .boolean]⟩ []) ⟨2, [.notNull .bigint]⟩ 0 [⟨.count, none⟩]

def count (rows : Int) : Datum :=
  .whole .bigint (Whole.wrapSigned rows)

/-- Where there are no rows there is no run of rows, but still a row about them. -/
theorem count_of_no_rows :
    session.Reached (fun _ => True) ∧ session.Offers plan .empty ∧
    plan.leafRows session.engine.store = .ok [] ∧
    ((plan.execute session.context .empty).run session.engine).1.toOption = some [[count 0]] ∧
    ((plan.execute session.context .empty).run session.engine).1 ≠ .ok [] := by
  have counted : ((plan.execute session.context .empty).run session.engine).1.toOption =
      some [[count 0]] := by
    decide +kernel
  refine ⟨new_reached.after _, ⟨⟨"count", rfl⟩, .inr ⟨0, rfl⟩⟩, rfl, counted, ?_⟩
  intro empty
  rw [empty] at counted
  cases counted

end Counting

/-! The totals of the readings from a floor on, for the runs of one place after another, with a note
among the readings. -/

namespace Totals

open Session Counting

def reading : RowType :=
  ⟨1, [.notNull .text, .notNull .bigint]⟩

def note : RowType :=
  ⟨2, [.notNull .text]⟩

def corrected : RowType :=
  ⟨3, [.notNull .text, .notNull .bigint]⟩

def total : RowType :=
  ⟨4, [.notNull .text, ⟨.bigint, true⟩]⟩

def session : Session :=
  new.after [.type "reading" reading.columns, .type "note" note.columns,
    .bindings "floor" none [(0, count 0)] [], .row "1" "reading" [.text "a", count 1],
    .row "2" "reading" [.text "b", count 2], .row "3" "reading" [.text "b", count (-7)],
    .row "4" "note" [.text "pause"], .row "5" "reading" [.text "b", count 4],
    .row "6" "reading" [.text "a", count 3], .row "7" "reading" [.text "c", count 5],
    .plan "totals" (.limit
      (.aggregate
        (.project
          (.filter
            (.values "reading" [.named "1", .named "2", .named "3", .named "4", .named "5",
              .named "6", .named "7"])
            (.binary (.comparison .ge) (.column 1 (.notNull .bigint))
              (.parameter 0 (.notNull .bigint))))
          [.column 0 (.notNull .text), .binary (.arithmetic .add) (.column 1 (.notNull .bigint))
            (.literal (count 1))])
        1 [⟨.sum, none⟩])
      1 (some 3))]

def leaf : Plan :=
  .values 10 reading [.stored 3 reading [.text "a", count 1],
    .stored 4 reading [.text "b", count 2], .stored 5 reading [.text "b", count (-7)],
    .stored 6 note [.text "pause"], .stored 7 reading [.text "b", count 4],
    .stored 8 reading [.text "a", count 3], .stored 9 reading [.text "c", count 5]]

def fromFloor : Expr :=
  .binary (.comparison .ge) (.column 1 (.notNull .bigint)) (.parameter 0 (.notNull .bigint))

def oneMore : Expr :=
  .binary (.arithmetic .add) (.column 1 (.notNull .bigint)) (.literal (count 1))

def plan : Plan :=
  .limit (.aggregate (.project (.filter leaf fromFloor) corrected
    [.column 0 (.notNull .text), oneMore]) total 1 [⟨.sum, none⟩]) 1 (some 3)

def floor : Bindings :=
  .parameter 0 (count 0) (.root 2)

/-- The first run is skipped and the last is not met; the note comes before the run that was open
when it passed. -/
theorem middle_runs_totalled :
    session.Reached (fun _ => True) ∧ session.Offers plan floor ∧
    ((plan.execute session.context floor).run session.engine).1 =
      .ok [[.text "pause"], [.text "b", count 8], [.text "a", count 4]] := by
  have reached : session.Reached fun _ => True := new_reached.after _
  have planned : session.plans.get? "totals" = some plan := rfl
  have bound : session.bindings.get? "floor" = some floor := rfl
  have uncancelled : (session.engine.journal.of session.context).cancelled = false := rfl
  have faultless : session.engine.FaultsWithin fun _ => False := nofun
  have offered : session.Offers plan floor := ⟨⟨"totals", planned⟩, .inl ⟨"floor", bound⟩⟩
  refine ⟨reached, offered, ?_⟩
  rw [execute_eq_reference reached offered uncancelled faultless]
  decide +kernel

end Totals

end QueryExec
