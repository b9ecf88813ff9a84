import QueryExec.Execution
import QueryExec.Proofs.Cursor.Lockstep
import QueryExec.Proofs.Cursor.Traits

/-!
Passes come to an end. Each cursor has a number of rows still to come, which never exceeds the bound
that its protocol computes; each row given lowers it, and a pass that gives no row has closed its
cursor. So the loops that pull rows never run out of turns, in whatever engine, and a cursor whose
rows were all read is closed.
-/

namespace QueryExec

open QueryExec.Action

/-- What holds when the step succeeds. -/
abbrev Ensures {state result : Type} (start : state) (action : Action state result)
    (gives : result → state → Prop) : Prop :=
  EndsIn start action gives fun _ _ => True

section Rules

variable {state cursor result : Type}

theorem ensures_nothing (start : state) (action : Action state result) :
    Ensures start action fun _ _ => True := by
  refine ⟨rfl, ?_⟩
  rcases action.run start with ⟨_ | _, _⟩ <;> exact trivial

theorem ensures_of_keeps {holds : state → Prop} {action : Action state result} {start : state}
    (keeps : Keeps holds action) (kept : holds start) :
    Ensures start action fun _ after => holds after :=
  agree_weaken (keeps start kept) (fun _ _ => id) fun _ _ _ => trivial

/-- A step that only reads the engine and writes in it leaves the cursor as it is. -/
theorem ensures_in_engine {start : cursor × Engine} (action : Action Engine result) :
    Ensures start (CursorAction.inEngine action) fun _ after => after.1 = start.1 := by
  have stays : Stays (fun cursor => cursor = start.1) (CursorAction.inEngine action) :=
    stays_in_engine action
  exact ensures_of_keeps stays rfl

theorem ensures_in_journal {start : cursor × Engine} (action : Action Journal result) :
    Ensures start (CursorAction.inJournal action) fun _ after => after.1 = start.1 :=
  ensures_in_engine _

theorem ensures_check {start : state} (call : Call) (phase : Phase) :
    Ensures start (call.check phase) fun _ after =>
      after = start ∧ call.legalIn phase = true :=
  Call.agree_check (fun legal => ⟨rfl, legal⟩) fun _ => trivial

theorem ensures_on_failure {start : state} {cleanup : Action state Unit}
    {action : Action state result} {gives : result → state → Prop}
    (ensures : Ensures start action gives) : Ensures start (onFailure cleanup action) gives := by
  refine agree_on_failure (agree_weaken ensures (fun _ _ => id) ?_)
  rintro (error | _) after _
  · refine agree_weaken (ensures_nothing after cleanup) (fun _ _ => id) ?_
    rintro (_ | _) _ _ <;> exact trivial
  · exact trivial

end Rules

/-- The answer of a pull by a cursor that had `most` rows to come: a row leaves fewer, and no row
means that the cursor has closed. -/
def Lowered {cursor : Type} (phaseOf : cursor → Phase) (toCome : cursor → Nat) (most : Nat) :
    Option Row → cursor × Engine → Prop
  | some _, after => (phaseOf after.1).isActive = true ∧ toCome after.1 < most
  | none, after => phaseOf after.1 = .closed ∧ toCome after.1 = 0

theorem Lowered.weaken {cursor : Type} {phaseOf : cursor → Phase} {toCome : cursor → Nat}
    {fewer most : Nat} {row? : Option Row} {after : cursor × Engine}
    (lowered : Lowered phaseOf toCome fewer row? after) (less : fewer ≤ most) :
    Lowered phaseOf toCome most row? after := by
  cases row? with
  | none => exact lowered
  | some row => exact ⟨lowered.1, Nat.lt_of_lt_of_le lowered.2 less⟩

structure Protocol.Dwindles {cursor : Type} (protocol : Protocol cursor)
    (toCome : cursor → Nat) : Prop where
  bounded : ∀ state, toCome state ≤ protocol.remaining state
  next : ∀ start, Ensures start protocol.next
    (Lowered protocol.phase toCome (toCome start.1))

namespace Node

variable {own input : Type} {below : input → Nat} {inner : Protocol input}
  {node : Node own input} {engine : Engine}

/-- A cursor that is not active has no rows to come. -/
def toCome (below : input → Nat) (node : Node own input) : Nat :=
  if node.phase.isActive then below node.input else 0

/-- The input answers, and nothing else of the cursor changes. -/
def Drawn (below : input → Nat) (node : Node own input) (row? : Option Row)
    (after : Node own input × Engine) : Prop :=
  ∃ reached, after.1 = { node with input := reached } ∧
    match row? with
    | some _ => below reached < below node.input
    | none => below reached ≤ below node.input

theorem finish_closes :
    Ensures (node, engine) (finish inner) fun _ after => after.1.phase = .closed := by
  apply agree_then (fun _ after => after.1.phase = .closed) (agree_set_phase .closed rfl)
  intro _ after closed
  obtain ⟨node, engine⟩ := after
  exact agree_on_input (agree_weaken (ensures_nothing _ _) (fun _ _ _ => closed) fun _ _ => id)

theorem ended_lowers (most : Nat) (toCome : Node own input → Nat)
    (idle : ∀ node, node.phase = .closed → toCome node = 0) :
    Ensures (node, engine)
      (do
        finish inner
        pure none)
      (Lowered Node.phase toCome most) := by
  apply agree_bind finish_closes
  intro _ after closed
  exact agree_pure none ⟨closed, idle after.1 closed⟩

theorem to_come_closed (node : Node own input) (closed : node.phase = .closed) :
    toCome below node = 0 := by
  simp [toCome, closed, Phase.isActive]

theorem to_come_active (active : node.phase.isActive = true) :
    toCome below node = below node.input :=
  if_pos active

section OverInput

variable (dwindles : inner.Dwindles below)

include dwindles

theorem pull_draws : Ensures (node, engine) (pull inner) (Drawn below node) := by
  apply CursorAction.agree_state
  dsimp only
  split
  · refine agree_on_input (agree_weaken (dwindles.next (node.input, engine)) ?_ fun _ _ => id)
    rintro (_ | row) after lowered
    · exact ⟨after.1, rfl, by dsimp only; rw [lowered.2]; exact Nat.zero_le _⟩
    · exact ⟨after.1, rfl, lowered.2⟩
  · exact agree_pure none ⟨node.input, rfl, Nat.le_refl _⟩

/-- A cursor dwindles if its way of making rows draws on the input for each. -/
theorem protocol_dwindles (context : Context) (tap : String)
    {advance : CursorAction (Node own input) (Option Row)}
    (advances : ∀ node engine, node.phase.isActive = true →
      Ensures (node, engine) advance fun row? after =>
        match row? with
        | some _ => below after.1.input < below node.input
        | none => after.1.phase = .closed) :
    (protocol context tap inner advance).Dwindles (toCome below) where
  bounded := by
    intro node
    unfold toCome
    split
    · exact dwindles.bounded node.input
    · exact Nat.zero_le _
  next := by
    intro start
    obtain ⟨node, engine⟩ := start
    apply agree_bind (CursorAction.agree_state (ensures_check .next node.phase))
    intro _ _ ends
    obtain ⟨rfl, active⟩ := ends
    apply agree_bind (ensures_in_journal (context.tap tap))
    intro _ after same
    obtain ⟨_, tapped⟩ := after
    cases same
    apply agree_bind (ensures_on_failure (advances node tapped active))
    rintro (_ | row) ⟨reached, after⟩ ends
    · exact agree_pure none ⟨ends, to_come_closed reached ends⟩
    · apply agree_then (fun _ last => last.1 = { reached with phase := .running })
        (agree_set_phase .running rfl)
      intro _ last same
      obtain ⟨_, last⟩ := last
      cases same
      refine agree_pure (some row) ⟨rfl, ?_⟩
      rw [to_come_active active]
      exact ends

end OverInput

end Node

section Operators

variable {input : Type} {below : input → Nat} {inner : Protocol input}
  (dwindles : inner.Dwindles below)

include dwindles

theorem Filter.search_draws (context : Context) (inputType : RowType) (predicate : Expr)
    (bound : Nat) (node : Filter.State input) (engine : Engine)
    (enough : below node.input < bound) :
    Ensures (node, engine) (Filter.search context inputType predicate inner bound) fun row? after =>
      match row? with
      | some _ => below after.1.input < below node.input
      | none => after.1.phase = .closed := by
  induction bound generalizing node engine with
  | zero => exact absurd enough (Nat.not_lt_zero _)
  | succ bound induction =>
      apply agree_bind (Node.pull_draws dwindles)
      rintro (_ | row) ⟨_, engine⟩ ⟨reached, rfl, fewer⟩
      · exact agree_bind Node.finish_closes fun _ _ closed => agree_pure none closed
      dsimp only at fewer ⊢
      split
      · exact agree_pure (some row) fewer
      · apply agree_then (fun _ after => after.1 = { node with input := reached })
        · refine CursorAction.agree_state (agree_bind (ensures_in_journal _) ?_)
          exact fun value _ same => agree_pure value.isTrue same
        intro accepted after same
        obtain ⟨_, engine⟩ := after
        cases same
        split
        · exact agree_pure (some row) fewer
        · have rest := induction { node with input := reached } engine (by dsimp only; omega)
          refine agree_weaken rest ?_ fun _ _ => id
          rintro (_ | _) after ends
          · exact ends
          · exact Nat.lt_trans ends fewer

theorem Filter.protocol_dwindles (context : Context) (inputType : RowType) (predicate : Expr) :
    (Filter.protocol context inputType predicate inner).Dwindles (Node.toCome below) := by
  apply Node.protocol_dwindles dwindles
  intro node engine _
  apply agree_bind (ensures_in_journal _)
  intro _ after same
  obtain ⟨_, engine⟩ := after
  cases same
  apply CursorAction.agree_state
  exact Filter.search_draws dwindles context inputType predicate _ node engine
    (Nat.lt_succ_of_le (dwindles.bounded node.input))

theorem Project.protocol_dwindles (context : Context) (inputType outputType : RowType)
    (columns : List Expr) :
    (Project.protocol context inputType outputType columns inner).Dwindles
      (Node.toCome below) := by
  apply Node.protocol_dwindles dwindles
  intro node engine _
  apply agree_bind (ensures_in_journal _)
  intro _ after same
  obtain ⟨_, engine⟩ := after
  cases same
  apply agree_bind (Node.pull_draws dwindles)
  rintro (_ | row) ⟨_, engine⟩ ⟨reached, rfl, fewer⟩
  · exact agree_bind Node.finish_closes fun _ _ closed => agree_pure none closed
  dsimp only at fewer ⊢
  split
  · exact agree_pure (some row) fewer
  · refine CursorAction.agree_state (agree_bind (ensures_in_engine _) ?_)
    intro made after same
    obtain ⟨_, engine⟩ := after
    cases same
    exact agree_pure (some made) fewer

theorem Limit.skip_draws (count : Nat) (node : Limit.State input) (engine : Engine) :
    Ensures (node, engine) (Limit.skip inner count) fun row? after =>
      match row? with
      | some _ => below after.1.input < below node.input
      | none => after.1.phase = .closed := by
  induction count generalizing node engine with
  | zero =>
      apply agree_bind (Node.pull_draws dwindles)
      rintro (_ | row) ⟨_, engine⟩ ⟨reached, rfl, fewer⟩
      · exact agree_bind Node.finish_closes fun _ _ closed => agree_pure none closed
      · apply agree_then (fun _ after => below after.1.input < below node.input)
          (Node.agree_change_own _ fewer)
        exact fun _ _ fewer => agree_pure (some row) fewer
  | succ count induction =>
      apply agree_bind (Node.pull_draws dwindles)
      rintro (_ | row) ⟨_, engine⟩ ⟨reached, rfl, fewer⟩
      · exact agree_bind Node.finish_closes fun _ _ closed => agree_pure none closed
      · apply agree_then (fun _ after => below after.1.input < below node.input)
          (Node.agree_change_own _ fewer)
        intro _ after fewer
        obtain ⟨after, engine⟩ := after
        refine agree_weaken (induction after engine) ?_ fun _ _ => id
        rintro (_ | _) after ends
        · exact ends
        · exact Nat.lt_trans ends fewer

theorem Limit.advance_draws (context : Context) (offset : Nat) (limit? : Option Nat)
    (node : Limit.State input) (engine : Engine) :
    Ensures (node, engine) (Limit.advance context offset limit? inner) fun row? after =>
      match row? with
      | some _ => below after.1.input < below node.input
      | none => after.1.phase = .closed := by
  apply agree_bind (ensures_in_journal _)
  intro _ after same
  obtain ⟨_, engine⟩ := after
  cases same
  apply CursorAction.agree_state
  dsimp only
  split
  · exact agree_bind Node.finish_closes fun _ _ closed => agree_pure none closed
  · exact Limit.skip_draws dwindles _ node engine

theorem Limit.protocol_dwindles (context : Context) (offset : Nat) (limit? : Option Nat) :
    (Limit.protocol context offset limit? inner).Dwindles (Node.toCome below) :=
  have base := Node.protocol_dwindles dwindles context "limit.next" fun node engine _ =>
    Limit.advance_draws dwindles context offset limit? node engine
  ⟨base.bounded, base.next⟩

namespace Grouping

omit dwindles in
/-- The rows to come over an active input: what it gives, the row that is held, the open group and,
until the last row was given, one more. -/
def toCome (below : input → Nat) (node : State input) : Nat :=
  if node.phase.isActive then
    below node.input + (if node.own.lookahead?.isSome then 1 else 0) +
      (if node.phase = .running then 1 else 0) + if node.phase = .closing then 0 else 1
  else 0

omit dwindles in
/-- A row was taken from the slot or from the input, and the slot is empty now. -/
def Taken (below : input → Nat) (node : State input) (row? : Option Row)
    (after : State input × Engine) : Prop :=
  after.1.phase = node.phase ∧ after.1.own.lookahead? = none ∧
    match row? with
    | some _ => below after.1.input <
        below node.input + if node.own.lookahead?.isSome then 1 else 0
    | none => below after.1.input ≤
        below node.input + if node.own.lookahead?.isSome then 1 else 0

theorem take_row_draws (node : State input) (engine : Engine) :
    Ensures (node, engine) (takeRow inner) (Taken below node) := by
  apply CursorAction.agree_state
  dsimp only
  cases held : node.own.lookahead? with
  | some row =>
      apply agree_then (fun _ after => Taken below node (some row) after)
        (Node.agree_change_own _ ⟨rfl, rfl, by simp [held]⟩)
      exact fun _ _ taken => agree_pure (some row) taken
  | none =>
      refine agree_weaken (Node.pull_draws dwindles) ?_ fun _ _ => id
      rintro (_ | row) ⟨_, engine⟩ ⟨reached, rfl, fewer⟩
      · exact ⟨rfl, held, by simpa [held] using fewer⟩
      · exact ⟨rfl, held, by simpa [held] using fewer⟩

omit dwindles in
theorem to_come_closed (node : State input) (closed : node.phase = .closed) :
    toCome below node = 0 := by
  simp [toCome, closed, Phase.isActive]

omit dwindles in
/-- What counts for the rows to come: the phase, the held row and the input. -/
def Situated (phase : Phase) (held? : Option Row) (reached : input) (node : State input) : Prop :=
  node.phase = phase ∧ node.own.lookahead? = held? ∧ node.input = reached

section Groups

variable {phase : Phase} {held? : Option Row} {reached : input}

omit dwindles in
/-- Until the last row was given, what comes is told by where the cursor stands. -/
theorem Situated.to_come {node : State input} (situated : Situated phase held? reached node)
    (active : phase.isActive = true) (unfinished : phase ≠ .closing) :
    toCome below node = below reached + (if held?.isSome then 1 else 0) +
      (if phase = .running then 1 else 0) + 1 := by
  obtain ⟨rfl, rfl, rfl⟩ := situated
  simp [toCome, active, unfinished]

omit dwindles in
theorem absorb_stays_situated (keys : Nat) (row : Row) :
    Stays (Situated phase held? reached) (absorb keys row) := by
  intro start situated
  obtain ⟨node, engine⟩ := start
  refine ⟨rfl, ?_⟩
  unfold Meets
  rw [absorb_run]
  dsimp only
  split <;> exact situated

omit dwindles in
theorem start_group_stays_situated (plan : GroupingPlan) (row : Row) :
    Stays (Situated phase held? reached) (startGroup plan row) :=
  keeps_bind (stays_change fun _ situated => situated) fun _ =>
    keeps_bind (stays_in_journal _) fun _ =>
      keeps_bind (stays_change fun _ situated => situated) fun _ =>
        absorb_stays_situated plan.keys row

omit dwindles in
theorem emit_group_stays_situated (plan : GroupingPlan) :
    Stays (Situated phase held? reached) (emitGroup plan) :=
  keeps_bind keeps_state fun _ =>
    keeps_bind (stays_change fun _ situated => situated) fun _ => stays_in_engine _

omit dwindles in
/-- At the end of the input an active cursor that gave no last row yet gives it or closes. -/
theorem end_of_input_lowers (plan : GroupingPlan) {node : State input} {engine : Engine}
    {most : Nat}
    (empty : node.own.lookahead? = none) (fewer : below node.input < most) :
    Ensures (node, engine) (endOfInput plan inner) (Lowered Node.phase (toCome below) most) := by
  have last : ∀ made engine after, Situated .closing none node.input after →
      Ensures (after, engine) (pure (some made)) (Lowered Node.phase (toCome below) most) := by
    intro made engine after situated
    obtain ⟨closing, empty, same⟩ := situated
    refine agree_pure (some made) ⟨by rw [closing]; rfl, ?_⟩
    simpa [toCome, closing, empty, same, Phase.isActive] using fewer
  apply CursorAction.agree_state
  dsimp only
  split
  · apply agree_then (fun _ after => Situated .closing none node.input after.1)
      (Node.agree_set_phase .closing ⟨rfl, empty, rfl⟩)
    intro _ after situated
    apply agree_bind (ensures_of_keeps (emit_group_stays_situated plan) situated)
    exact fun made after situated => last made after.2 after.1 situated
  · split
    · apply agree_then (fun _ after => Situated .closing none node.input after.1)
        (Node.agree_set_phase .closing ⟨rfl, empty, rfl⟩)
      intro _ after situated
      apply agree_bind (ensures_of_keeps (stays_in_engine _) situated)
      exact fun made after situated => last made after.2 after.1 situated
    · exact Node.ended_lowers most (toCome below) to_come_closed

omit dwindles in
/-- A row that ends the open group is held while the row of the group is given. -/
theorem give_group_lowers (plan : GroupingPlan) (row : Row) {node : State input} {engine : Engine}
    {most : Nat} (situated : Situated .running held? reached node)
    (fewer : below reached + 2 < most) :
    Ensures (node, engine) (do
      Node.changeOwn fun state => { state with lookahead? := some row }
      let output ← emitGroup plan
      Node.setPhase .opening
      pure (some output)) (Lowered Node.phase (toCome below) most) := by
  obtain ⟨running, -, same⟩ := situated
  apply agree_then (fun _ after => Situated .running (some row) reached after.1)
    (Node.agree_change_own _ ⟨running, rfl, same⟩)
  intro _ after situated
  apply agree_bind (ensures_of_keeps (emit_group_stays_situated plan) situated)
  intro output after situated
  obtain ⟨emitted, engine⟩ := after
  apply agree_then (fun _ after => Situated .opening (some row) reached after.1)
    (Node.agree_set_phase .opening ⟨rfl, situated.2⟩)
  intro _ after situated
  refine agree_pure (some output) ⟨by rw [situated.1]; rfl, ?_⟩
  rw [situated.to_come rfl nofun]
  exact fewer

end Groups

/-- Every turn of the loop takes a row, and the row that is held instead of the open group is one
more to come against one open group less. -/
theorem collect_lowers (context : Context) (plan : GroupingPlan) (bound : Nat) (node : State input)
    (engine : Engine) (active : node.phase.isActive = true) (unfinished : node.phase ≠ .closing)
    (enough : below node.input + (if node.own.lookahead?.isSome then 1 else 0) < bound) :
    Ensures (node, engine) (collect context plan inner bound)
      (Lowered Node.phase (toCome below) (toCome below node)) := by
  induction bound generalizing node engine with
  | zero => exact absurd enough (Nat.not_lt_zero _)
  | succ bound induction =>
      have here : Situated node.phase node.own.lookahead? node.input node := ⟨rfl, rfl, rfl⟩
      have total : toCome below node = _ := here.to_come active unfinished
      apply agree_bind (take_row_draws dwindles node engine)
      rintro (_ | row) ⟨taken, engine⟩ ⟨phase, empty, fewer⟩
      · exact end_of_input_lowers plan empty (by rw [total]; dsimp only at fewer ⊢; omega)
      dsimp only at phase empty fewer ⊢
      split
      · refine agree_pure (some row) ⟨by rw [phase]; exact active, ?_⟩
        have situated : Situated node.phase none taken.input taken := ⟨phase, empty, rfl⟩
        rw [situated.to_come active unfinished, total]
        simp only [Option.isSome_none, Bool.false_eq_true, if_false]
        omega
      -- with a group open and the row absorbed, the loop goes on with fewer rows to come
      have goes_on : ∀ after engine, Situated .running none taken.input after →
          Ensures (after, engine) (collect context plan inner bound)
            (Lowered Node.phase (toCome below) (toCome below node)) := by
        intro after engine situated
        have rest := induction after engine (by rw [situated.1]; rfl) (by rw [situated.1]; decide)
          (by rw [situated.2.1, situated.2.2]; simp; omega)
        refine agree_weaken rest (fun _ _ lowered => lowered.weaken ?_) fun _ _ => id
        rw [situated.to_come rfl nofun, total]
        simp only [Option.isSome_none, Bool.false_eq_true, if_false, if_true]
        omega
      apply agree_then (fun _ after => Situated node.phase none taken.input after.1)
        (Node.agree_change_own _ ⟨phase, empty, rfl⟩)
      intro _ after situated
      obtain ⟨counted, engine⟩ := after
      apply CursorAction.agree_state
      dsimp only
      split
      next running =>
        have opened : node.phase = .running := situated.1.symm.trans running
        rw [opened] at situated total
        apply CursorAction.agree_state
        apply agree_bind (ensures_of_keeps (stays_in_journal _) situated)
        intro equal after situated
        split
        · apply agree_bind (ensures_of_keeps (absorb_stays_situated plan.keys row) situated)
          exact fun _ after situated => goes_on after.1 after.2 situated
        · refine give_group_lowers plan row situated ?_
          rw [total]
          simp only [if_true]
          omega
      next idle =>
        apply agree_bind (ensures_of_keeps (start_group_stays_situated plan row) situated)
        intro _ after situated
        obtain ⟨started, engine⟩ := after
        apply agree_then (fun _ after => Situated .running none taken.input after.1)
          (Node.agree_set_phase .running ⟨rfl, situated.2.1, situated.2.2⟩)
        exact fun _ after situated => goes_on after.1 after.2 situated

theorem protocol_dwindles (context : Context) (plan : GroupingPlan) :
    (protocol context plan inner).Dwindles (toCome below) where
  bounded := by
    intro node
    have most := dwindles.bounded node.input
    change toCome below node ≤ Grouping.remaining inner node
    unfold toCome Grouping.remaining supply
    split <;> omega
  next := by
    intro start
    obtain ⟨node, engine⟩ := start
    apply agree_bind (CursorAction.agree_state (ensures_check .next node.phase))
    intro _ _ ends
    obtain ⟨rfl, active⟩ := ends
    apply agree_bind (ensures_in_journal (context.tap "aggregate.next"))
    intro _ after same
    obtain ⟨_, tapped⟩ := after
    cases same
    apply ensures_on_failure
    apply agree_bind (ensures_in_journal context.checkCancelled)
    intro _ after same
    obtain ⟨_, checked⟩ := after
    cases same
    apply CursorAction.agree_state
    split
    · exact Node.ended_lowers _ (toCome below) to_come_closed
    next unfinished =>
      refine collect_lowers dwindles context plan _ node checked active unfinished ?_
      have most := dwindles.bounded node.input
      unfold supply
      dsimp only
      omega

end Grouping

end Operators

namespace Scan

theorem next_lowers (context : Context) (scan : Scan) (engine : Engine) :
    Ensures (scan, engine) (next context)
      (Lowered Scan.phase (·.pending.length) scan.pending.length) := by
  apply agree_bind (CursorAction.agree_state (ensures_check .next scan.phase))
  intro _ _ ends
  obtain ⟨rfl, active⟩ := ends
  apply agree_bind (ensures_on_failure (ensures_in_journal context.checkCancelled))
  intro _ after same
  obtain ⟨_, checked⟩ := after
  cases same
  apply agree_bind (ensures_in_journal (context.tap "scan.next"))
  intro _ after same
  obtain ⟨_, tapped⟩ := after
  cases same
  apply CursorAction.agree_state
  dsimp only
  cases pending : scan.pending with
  | nil =>
      apply agree_then (fun _ after => after.1 = { scan with phase := .closed })
        (CursorAction.agree_change _ rfl)
      intro _ after same
      obtain ⟨_, engine⟩ := after
      cases same
      exact agree_pure none ⟨rfl, by simp [pending]⟩
  | cons row rest =>
      apply agree_then (fun _ after => after.1 = { scan with pending := rest, phase := .running })
        (CursorAction.agree_change _ rfl)
      intro _ after same
      obtain ⟨_, engine⟩ := after
      cases same
      exact agree_pure (some row) ⟨rfl, Nat.lt_succ_self rest.length⟩

theorem protocol_dwindles (context : Context) (load : Action Engine (List Row)) :
    (protocol context load).Dwindles (·.pending.length) where
  bounded := fun _ => Nat.le_refl _
  next := fun start => next_lowers context start.1 start.2

theorem probed_dwindles (context : Context) (load : Action Engine (List Row)) :
    (probed (protocol context load)).Dwindles (·.pending.length) where
  bounded := fun _ => Nat.le_refl _
  next := fun start => instead_of_agrees start.2.faults_within_any
    (next_lowers context start.1 (start.2.noted .next)) fun _ => trivial

end Scan

namespace Plan

/-- The rows that a cursor tree can still give in a pass. -/
def toCome : (plan : Plan) → plan.Cursor → Nat
  | values _ _ _ => fun scan : Scan => scan.pending.length
  | table _ _ => fun scan : Scan => scan.pending.length
  | filter input _ => Node.toCome input.toCome
  | project input _ _ => Node.toCome input.toCome
  | aggregate input _ _ _ => Grouping.toCome input.toCome
  | limit input _ _ => Node.toCome input.toCome

theorem protocol_dwindles (context : Context) (plan : Plan) :
    (plan.protocol context).Dwindles plan.toCome := by
  induction plan with
  | values slice type rows => exact Scan.protocol_dwindles context (pure rows)
  | table name type => exact Scan.probed_dwindles context (Scan.loadTable name)
  | filter input predicate induction =>
      exact Filter.protocol_dwindles induction context input.rowType predicate
  | project input type columns induction =>
      exact Project.protocol_dwindles induction context input.rowType type columns
  | aggregate input type keys aggregates induction =>
      exact Grouping.protocol_dwindles induction context ⟨input.rowType, type, keys⟩
  | limit input offset limit? induction =>
      exact Limit.protocol_dwindles induction context offset limit?

end Plan

/-- Reading every row of an active cursor closes it, keeps what reading and pulling keep and stops
as they do: by induction on a bound of the rows to come. -/
theorem Protocol.Dwindles.drain_ends {cursor : Type} {protocol : Protocol cursor}
    {toCome : cursor → Nat} (dwindles : protocol.Dwindles toCome) {keeps : cursor × Engine → Prop}
    {gives : Row → Prop} {stops : Interrupt → cursor × Engine → Prop}
    (reads : ∀ {row pair}, gives row → keeps pair →
      EndsIn pair (CursorAction.inJournal row.readAll) (fun _ after => keeps after) stops)
    (pulls : ∀ {pair}, keeps pair → (protocol.phase pair.1).isActive = true →
      EndsIn pair protocol.next (fun row? after => keeps after ∧ ∀ row ∈ row?, gives row) stops)
    {start : cursor × Engine} (active : (protocol.phase start.1).isActive = true)
    (kept : keeps start) :
    EndsIn start protocol.drain (fun _ after => protocol.phase after.1 = .closed ∧ keeps after)
      stops := by
  have within : ∀ bound start, toCome start.1 < bound → keeps start →
      (protocol.phase start.1).isActive = true →
      EndsIn start (protocol.drainWithin bound)
        (fun _ after => protocol.phase after.1 = .closed ∧ keeps after) stops := by
    intro bound
    induction bound with
    | zero => exact fun _ enough => absurd enough (Nat.not_lt_zero _)
    | succ bound induction =>
        intro start enough kept active
        apply agree_bind (agree_weaken (agree_both (dwindles.next start) (pulls kept active))
          (fun _ _ => id) fun _ _ ends => ends.2)
        rintro (_ | row) ⟨reached, engine⟩ ⟨lowered, kept, given⟩
        · exact agree_pure [] ⟨lowered.1, kept⟩
        apply agree_bind (agree_weaken (agree_both (ensures_in_journal row.readAll)
          (reads (given row rfl) kept)) (fun _ _ => id) fun _ _ ends => ends.2)
        intro values after ends
        obtain ⟨_, engine⟩ := after
        obtain ⟨same, kept⟩ := ends
        cases same
        apply agree_bind (induction (reached, engine)
          (Nat.lt_of_lt_of_le lowered.2 (Nat.le_of_lt_succ enough)) kept lowered.1)
        exact fun rest _ ends => agree_pure (values :: rest) ends
  exact CursorAction.agree_state
    (within _ start (Nat.lt_succ_of_le (dwindles.bounded start.1)) kept active)

/-- The same of an invariant alone. -/
theorem Protocol.Dwindles.drain_closes {cursor : Type} {protocol : Protocol cursor}
    {toCome : cursor → Nat} (dwindles : protocol.Dwindles toCome) {keeps : cursor × Engine → Prop}
    (reads : ∀ action : Action Journal (List Datum), Keeps keeps (CursorAction.inJournal action))
    (pulls : ∀ {pair}, keeps pair → (protocol.phase pair.1).isActive = true →
      EndsIn pair protocol.next (fun _ after => keeps after) fun _ after => keeps after)
    {start : cursor × Engine} (active : (protocol.phase start.1).isActive = true)
    (kept : keeps start) :
    EndsIn start protocol.drain (fun _ after => protocol.phase after.1 = .closed ∧ keeps after)
      fun _ after => keeps after :=
  dwindles.drain_ends (fun {row pair} (_ : True) kept => reads row.readAll pair kept)
    (fun kept active => agree_weaken (pulls kept active)
      (fun _ _ kept => ⟨kept, fun _ _ => trivial⟩) fun _ _ => id) active kept

end QueryExec
