import Mathlib.Data.List.Infix
import QueryExec.Proofs.Cursor.Delivery
import QueryExec.Proofs.Tallying

/-!
The window that a limit leaves of the rows of its input. In a pass over any input that gives rows and
then ends or fails, the rows before the offset are dropped, at most so many of the others are given,
and the input is not asked for more than these. Once the limit is reached the next call closes the
input, which is still active, and whatever the input would have come to is not met.
-/

namespace QueryExec

open QueryExec.Action

variable {input result state : Type}

/-- The engine once a call of `next` on a limit is counted. -/
def Engine.tapped (context : Context) (engine : Engine) : Engine :=
  { engine with journal := engine.journal.tap context "limit.next" }

/-- What may happen to the engine between two calls on an input. -/
structure Engine.Meanwhile (context : Context) (meanwhile : Engine → Engine → Prop) : Prop where
  nothing : ∀ engine, meanwhile engine engine
  after : ∀ {first second third}, meanwhile first second → meanwhile second third →
    meanwhile first third
  tap : ∀ engine, meanwhile engine (engine.tapped context)

/-- The input gives these rows, one at each call, and at the next call it ends or fails. Meanwhile the
engine may change. -/
def Protocol.Gives (inner : Protocol input) (meanwhile : Engine → Engine → Prop)
    (ending : Option QueryError) : List Row → input → Engine → Prop
  | [], cursor, engine => (inner.phase cursor).isActive = true ∧ ∀ later, meanwhile engine later →
      match ending with
      | none => ∃ after reached, inner.next.run (cursor, later) = (.ok none, after, reached) ∧
          inner.phase after = .closed
      | some error => ∃ after reached,
          inner.next.run (cursor, later) = (.error (.failed error), after, reached)
  | row :: rest, cursor, engine => (inner.phase cursor).isActive = true ∧
      ∀ later, meanwhile engine later → ∃ after reached,
        inner.next.run (cursor, later) = (.ok (some row), after, reached) ∧
          inner.Gives meanwhile ending rest after reached

section Running

variable {start : state} {action : Action state result} {gives : result → state → Prop}
  {stops : Interrupt → state → Prop}

theorem agree_of_answer {value : result} {after : state} (ran : action.run start = (.ok value, after))
    (holds : gives value after) : EndsIn start action gives stops := by
  refine ⟨rfl, ?_⟩
  rw [ran]
  exact holds

theorem agree_of_interrupt {interrupt : Interrupt} {after : state}
    (ran : action.run start = (.error interrupt, after)) (holds : stops interrupt after) :
    EndsIn start action gives stops := by
  refine ⟨rfl, ?_⟩
  rw [ran]
  exact holds

theorem given_of_answer {value : result} {after : state} (ends : EndsIn start action gives stops)
    (ran : action.run start = (.ok value, after)) : gives value after := by
  have meets := ends.2
  rw [ran] at meets
  exact meets

end Running

section Giving

variable {inner : Protocol input} {meanwhile : Engine → Engine → Prop} {ending : Option QueryError}
  {rows : List Row} {cursor : input} {engine later : Engine} {context : Context}

theorem Protocol.Gives.active (gives : inner.Gives meanwhile ending rows cursor engine) :
    (inner.phase cursor).isActive = true := by
  cases rows <;> exact gives.1

theorem Protocol.Gives.still (possible : Engine.Meanwhile context meanwhile)
    (gives : inner.Gives meanwhile ending rows cursor engine) (passes : meanwhile engine later) :
    inner.Gives meanwhile ending rows cursor later := by
  cases rows with
  | nil => exact ⟨gives.1, fun last more => gives.2 last (possible.after passes more)⟩
  | cons row rest => exact ⟨gives.1, fun last more => gives.2 last (possible.after passes more)⟩

end Giving

namespace Limit

variable {context : Context} {offset : Nat} {limit? : Option Nat} {inner : Protocol input}
  {meanwhile : Engine → Engine → Prop} {rows : List Row} {ending : Option QueryError}
  {node : State (Tallied input)} {engine : Engine}

section Pulling

variable (possible : Engine.Meanwhile context meanwhile)

include possible

theorem pull_row {row : Row}
    (gives : inner.Gives meanwhile ending (row :: rows) node.input.cursor engine) :
    EndsIn (node, engine) (Node.pull inner.tallied)
      (fun row? after => row? = some row ∧ ∃ cursor,
        after.1 = { node with input := ⟨cursor, node.input.asked + 1, node.input.closings⟩ } ∧
          inner.Gives meanwhile ending rows cursor after.2)
      fun _ _ => False := by
  obtain ⟨cursor, reached, ran, further⟩ := gives.2 engine (possible.nothing engine)
  apply CursorAction.agree_state
  dsimp only
  rw [if_pos (show (inner.tallied.phase node.input).isActive = true from gives.1)]
  refine Node.agree_on_input (Tallied.agree_next (agree_of_answer ran ?_))
  exact ⟨rfl, cursor, rfl, further⟩

theorem pull_end (gives : inner.Gives meanwhile ending [] node.input.cursor engine) :
    EndsIn (node, engine) (Node.pull inner.tallied)
      (fun row? after => row? = none ∧ ending = none ∧ ∃ cursor,
        after.1 = { node with input := ⟨cursor, node.input.asked + 1, node.input.closings⟩ } ∧
          inner.phase cursor = .closed)
      fun interrupt after => (∃ error, ending = some error ∧ interrupt = .failed error) ∧
        after.1.input.asked = node.input.asked + 1 := by
  have answers := gives.2 engine (possible.nothing engine)
  apply CursorAction.agree_state
  dsimp only
  rw [if_pos (show (inner.tallied.phase node.input).isActive = true from gives.1)]
  refine Node.agree_on_input (Tallied.agree_next ?_)
  cases ending with
  | none =>
      obtain ⟨cursor, reached, ran, closed⟩ := answers
      exact agree_of_answer ran ⟨rfl, rfl, cursor, rfl, closed⟩
  | some error =>
      obtain ⟨cursor, reached, ran⟩ := answers
      exact agree_of_interrupt ran ⟨⟨error, rfl, rfl⟩, rfl⟩

/-- What dropping so many rows and taking the next one comes to. -/
def Skipped (inner : Protocol input) (meanwhile : Engine → Engine → Prop)
    (ending : Option QueryError) (rows : List Row) (count : Nat) (node : State (Tallied input)) :
    Option Row → State (Tallied input) × Engine → Prop
  | some row, after => rows[count]? = some row ∧
      after.1.phase = node.phase ∧ after.1.own = ⟨node.own.skipped + count, node.own.emitted + 1⟩ ∧
      after.1.input.asked = node.input.asked + count + 1 ∧
      after.1.input.closings = node.input.closings ∧
      inner.Gives meanwhile ending (rows.drop (count + 1)) after.1.input.cursor after.2
  | none, after => rows.length ≤ count ∧ ending = none ∧ after.1.phase = .closed ∧
      after.1.input.asked = node.input.asked + rows.length + 1

/-- The input failed before the row was reached. -/
def Failed (ending : Option QueryError) (rows : List Row) (count : Nat)
    (node : State (Tallied input)) (interrupt : Interrupt) (after : State (Tallied input) × Engine) :
    Prop :=
  rows.length ≤ count ∧ (∃ error, ending = some error ∧ interrupt = .failed error) ∧
    after.1.input.asked = node.input.asked + rows.length + 1

/-- Where the input ends, the limit closes and gives nothing. -/
theorem end_skipped {above : Nat} (gives : inner.Gives meanwhile ending [] node.input.cursor engine)
    (next : Option Row → CursorAction (State (Tallied input)) (Option Row))
    (finishes : next none = do
      Node.finish inner.tallied
      pure none) :
    EndsIn (node, engine) (Node.pull inner.tallied >>= next)
      (Skipped inner meanwhile ending [] above node) (Failed ending [] above node) := by
  refine agree_bind (agree_weaken (pull_end possible gives) (fun _ _ => id) ?_) ?_
  · rintro interrupt after ⟨failed, asked⟩
    exact ⟨Nat.zero_le above, failed, asked⟩
  · rintro _ ⟨_, reached⟩ ⟨rfl, none, cursor, rfl, closed⟩
    rw [finishes]
    apply agree_surely (Node.finish_closes_only closed)
    rintro _ _ rfl
    exact agree_pure _ ⟨Nat.zero_le above, none, rfl, rfl⟩

/-- Where the input gives a row, the limit counts it and goes on. -/
theorem row_counted {row : Row} {next : Option Row → CursorAction (State (Tallied input)) (Option Row)}
    {count : Progress → Progress} {more : CursorAction (State (Tallied input)) (Option Row)}
    {given : Option Row → State (Tallied input) × Engine → Prop}
    {stops : Interrupt → State (Tallied input) × Engine → Prop}
    (gives : inner.Gives meanwhile ending (row :: rows) node.input.cursor engine)
    (counts : next (some row) = do
      Node.changeOwn count
      more)
    (continues : ∀ cursor reached, inner.Gives meanwhile ending rows cursor reached →
      EndsIn ({ node with
        own := count node.own
        input := ⟨cursor, node.input.asked + 1, node.input.closings⟩ }, reached) more given stops) :
    EndsIn (node, engine) (Node.pull inner.tallied >>= next) given stops := by
  refine agree_surely (pull_row possible gives) ?_
  rintro _ ⟨_, reached⟩ ⟨rfl, cursor, rfl, further⟩
  rw [counts]
  refine agree_reaching ({ node with
        own := count node.own
        input := ⟨cursor, node.input.asked + 1, node.input.closings⟩ }, reached)
    (Node.agree_change_own _ rfl) fun _ => ?_
  exact continues cursor reached further

/-- The induction is on the rows that are still to be dropped. -/
theorem skip_skips (count : Nat)
    (gives : inner.Gives meanwhile ending rows node.input.cursor engine) :
    EndsIn (node, engine) (skip inner.tallied count)
      (Skipped inner meanwhile ending rows count node) (Failed ending rows count node) := by
  induction count generalizing node engine rows with
  | zero =>
      cases rows with
      | nil => exact end_skipped possible gives _ rfl
      | cons row rest =>
          refine row_counted possible gives rfl fun cursor reached further => ?_
          exact agree_pure (some row) ⟨rfl, rfl, rfl, rfl, rfl, further⟩
  | succ count induction =>
      cases rows with
      | nil => exact end_skipped possible gives _ rfl
      | cons row rest =>
          refine row_counted possible gives rfl fun cursor reached further => ?_
          refine agree_weaken (induction further) ?_ ?_
          · rintro (_ | given) after skipped
            · obtain ⟨short, none, closed, asked⟩ := skipped
              refine ⟨Nat.succ_le_succ short, none, closed, asked.trans ?_⟩
              dsimp only [List.length_cons]
              omega
            · obtain ⟨present, phase, own, asked, closings, further⟩ := skipped
              refine ⟨present, phase, own.trans ?_, asked.trans ?_, closings, further⟩
              · rw [Progress.mk.injEq]
                exact ⟨Nat.add_right_comm .., rfl⟩
              · exact congrArg (· + 1) (Nat.add_right_comm ..)
          · rintro interrupt after ⟨short, failed, asked⟩
            refine ⟨Nat.succ_le_succ short, failed, asked.trans ?_⟩
            dsimp only [List.length_cons]
            omega

end Pulling

/-- The rows that are left once the first ones are dropped, and of these at most so many. -/
def window (offset : Nat) (limit? : Option Nat) (rows : List Row) : List Row :=
  match limit? with
  | none => rows.drop offset
  | some most => (rows.drop offset).take most

/-- Where a pass stands after it gave these rows. -/
structure Within (offset : Nat) (limit? : Option Nat) (inner : Protocol input)
    (meanwhile : Engine → Engine → Prop) (rows : List Row) (ending : Option QueryError)
    (node : State (Tallied input)) (engine : Engine) (given : List Row) : Prop where
  active : node.phase.isActive = true
  skipped : node.own.skipped = if given = [] then 0 else offset
  emitted : node.own.emitted = given.length
  asked : node.input.asked = if given = [] then 0 else offset + given.length
  closings : node.input.closings = 0
  further : inner.Gives meanwhile ending (rows.drop node.input.asked) node.input.cursor engine
  dropped : given = (rows.drop offset).take given.length
  kept : ∀ most, limit? = some most → given.length ≤ most

/-- How the next call ends when so many rows of the pass were given before. -/
inductive Answered (offset : Nat) (limit? : Option Nat) (inner : Protocol input) (rows : List Row)
    (ending : Option QueryError) (given : Nat) (node : State (Tallied input)) (engine : Engine) :
    Except Interrupt (Option Row) → State (Tallied input) → Prop
  | gave {row : Row} {after : State (Tallied input)} (room : limit? ≠ some given)
      (present : rows[offset + given]? = some row) (running : after.phase = .running)
      (asked : after.input.asked = offset + given + 1) :
      Answered offset limit? inner rows ending given node engine (.ok (some row)) after
  | filled {after : State (Tallied input)} {cursor : input} {reached : Engine}
      (full : limit? = some given)
      (shut : inner.close.run (node.input.cursor, engine) = (.ok (), cursor, reached))
      (closed : after.phase = .closed) (input : after.input = ⟨cursor, node.input.asked, 1⟩) :
      Answered offset limit? inner rows ending given node engine (.ok none) after
  | unshut {error : QueryError} {after : State (Tallied input)} {left : input × Engine}
      (full : limit? = some given)
      (shut : inner.close.run (node.input.cursor, engine) = (.error (.failed error), left))
      (closed : after.phase = .closed) (asked : after.input.asked = node.input.asked) :
      Answered offset limit? inner rows ending given node engine (.error (.failed error)) after
  | ended {after : State (Tallied input)} (room : limit? ≠ some given)
      (all : rows.length ≤ offset + given) (ends : ending = none) (closed : after.phase = .closed)
      (asked : after.input.asked = rows.length + 1) :
      Answered offset limit? inner rows ending given node engine (.ok none) after
  | failed {error : QueryError} {after : State (Tallied input)} (room : limit? ≠ some given)
      (all : rows.length ≤ offset + given) (fails : ending = some error)
      (closed : after.phase = .closed) (asked : after.input.asked = rows.length + 1) :
      Answered offset limit? inner rows ending given node engine (.error (.failed error)) after

section Advancing

variable {given : List Row}

theorem Within.asked_le (within : Within offset limit? inner meanwhile rows ending node engine given) :
    node.input.asked ≤ rows.length := by
  have asked := within.asked
  have short := congrArg List.length within.dropped
  rw [List.length_take, List.length_drop] at short
  split at asked
  next => omega
  next some =>
    have positive := List.length_pos_iff.mpr some
    omega

/-- From where the pass stands the row that is due is as far away as rows are left to be dropped. -/
theorem Within.due (within : Within offset limit? inner meanwhile rows ending node engine given) :
    node.input.asked + (offset - node.own.skipped) = offset + given.length := by
  rw [within.asked, within.skipped]
  split
  next none => rw [none, List.length_nil, Nat.sub_zero, Nat.zero_add, Nat.add_zero]
  next => omega

/-- The pass stands one row further after it gave the row that was due. -/
theorem Within.next {row : Row} {after : State (Tallied input)} {reached : Engine}
    (within : Within offset limit? inner meanwhile rows ending node engine given)
    (room : limit? ≠ some given.length) (present : rows[offset + given.length]? = some row)
    (active : after.phase.isActive = true) (own : after.own = ⟨offset, given.length + 1⟩)
    (asked : after.input.asked = offset + given.length + 1) (closings : after.input.closings = 0)
    (further : inner.Gives meanwhile ending (rows.drop (offset + given.length + 1))
      after.input.cursor reached) :
    Within offset limit? inner meanwhile rows ending after reached (given ++ [row]) where
  active := active
  skipped := by rw [own, if_neg (by simp)]
  emitted := by rw [own, List.length_append, List.length_singleton]
  asked := by rw [asked, if_neg (by simp), List.length_append, List.length_singleton, Nat.add_assoc]
  closings := closings
  further := by rwa [asked]
  dropped := by
    rw [List.length_append, List.length_singleton, List.take_add_one, ← within.dropped,
      List.getElem?_drop, present]
    rfl
  kept := by
    intro most isLimit
    have fewer := within.kept most isLimit
    have other : given.length ≠ most := fun same => room (same ▸ isLimit)
    rw [List.length_append, List.length_singleton]
    omega

/-- The limit stops here, and closed as it will be it answers so. -/
def Stops (offset : Nat) (limit? : Option Nat) (inner : Protocol input) (rows : List Row)
    (ending : Option QueryError) (given : Nat) (node : State (Tallied input)) (engine : Engine)
    (interrupt : Interrupt) (after : State (Tallied input) × Engine) : Prop :=
  ∃ error, interrupt = .failed error ∧ ∀ last : State (Tallied input), last.phase = .closed →
    last.input.asked = after.1.input.asked →
      Answered offset limit? inner rows ending given node engine (.error (.failed error)) last

/-- The row that was due is given, and the pass stands behind it. -/
def Advanced (offset : Nat) (limit? : Option Nat) (inner : Protocol input)
    (meanwhile : Engine → Engine → Prop) (rows : List Row) (ending : Option QueryError)
    (node : State (Tallied input)) (engine : Engine) (given : List Row) :
    Option Row → State (Tallied input) × Engine → Prop
  | some row, after => limit? ≠ some given.length ∧ rows[offset + given.length]? = some row ∧
      after.1.input.asked = offset + given.length + 1 ∧
      Within offset limit? inner meanwhile rows ending after.1 after.2 (given ++ [row])
  | none, after => Answered offset limit? inner rows ending given.length node engine (.ok none) after.1

/-- The limit is reached once it gave so many rows, and not before. -/
theorem Within.full_iff
    (within : Within offset limit? inner meanwhile rows ending node engine given) :
    limit?.any (· ≤ node.own.emitted) = true ↔ limit? = some given.length := by
  cases limit? with
  | none => exact iff_of_false Bool.false_ne_true (Option.some_ne_none _).symm
  | some most =>
      have fewer := within.kept most rfl
      change decide (most ≤ node.own.emitted) = true ↔ _
      rw [within.emitted, decide_eq_true_iff, Option.some.injEq]
      omega

/-- From where the pass stands, what is still to be dropped is dropped and the due row is taken. -/
theorem skip_answers (possible : Engine.Meanwhile context meanwhile)
    (room : limit? ≠ some given.length)
    (within : Within offset limit? inner meanwhile rows ending node engine given) :
    EndsIn (node, engine) (skip inner.tallied (offset - node.own.skipped))
      (Advanced offset limit? inner meanwhile rows ending node engine given)
      (Stops offset limit? inner rows ending given.length node engine) := by
  have due := within.due
  have asked := within.asked_le
  refine agree_weaken (skip_skips possible (offset - node.own.skipped) within.further) ?_ ?_
  · rintro (_ | row) after skipped
    · obtain ⟨short, none, closed, count⟩ := skipped
      rw [List.length_drop] at short count
      exact .ended room (by omega) none closed (by omega)
    · obtain ⟨present, phase, own, count, closings, further⟩ := skipped
      rw [List.getElem?_drop, due] at present
      rw [List.drop_drop, ← Nat.add_assoc, due] at further
      have dropped : node.own.skipped + (offset - node.own.skipped) = offset := by
        rw [within.skipped]
        split <;> omega
      rw [dropped, within.emitted] at own
      have next := count.trans (congrArg (· + 1) due)
      exact ⟨room, present, next, within.next room present (phase ▸ within.active) own next
        (closings.trans within.closings) further⟩
  · rintro _ after ⟨short, ⟨error, fails, rfl⟩, count⟩
    rw [List.length_drop] at short count
    exact ⟨error, rfl, fun last closed same =>
      .failed room (by omega) fails closed (by omega)⟩

variable (unbroken : ∀ cursor engine,
  (inner.close.run (cursor, engine)).1 ≠ .error .indexOutOfRange)

include unbroken

/-- A limit that is reached closes the input, which is active until then. -/
theorem finish_answers (full : limit? = some given.length)
    (within : Within offset limit? inner meanwhile rows ending node engine given) :
    EndsIn (node, engine) (Node.finish inner.tallied)
      (fun _ after => Answered offset limit? inner rows ending given.length node engine (.ok none)
        after.1)
      (Stops offset limit? inner rows ending given.length node engine) := by
  refine agree_reaching ({ node with phase := .closed }, engine)
    (Node.agree_set_phase .closed rfl) fun _ => ?_
  refine Node.agree_on_input (Protocol.agree_close_active rfl (fun _ => Tallied.agree_close ?_) ?_)
  · rcases ran : inner.close.run (node.input.cursor, engine) with ⟨(error | _) | ⟨⟩, cursor, reached⟩
    · exact agree_of_interrupt ran ⟨error, rfl, fun last closed asked => .unshut full ran closed asked⟩
    · exact absurd (congrArg Prod.fst ran) (unbroken _ _)
    · refine agree_of_answer ran (.filled full ran rfl ?_)
      dsimp only
      rw [within.closings]
  · intro idle
    have active : (inner.phase node.input.cursor).isActive = true := within.further.active
    exact absurd (active.symm.trans idle) nofun

/-- The input is closed after a failure whatever comes of it, and it is not asked again. -/
theorem abort_closes : EndsIn (node, engine) (Node.abort inner.tallied)
    (fun _ after => after.1.phase = .closed ∧ after.1.input.asked = node.input.asked)
    fun _ _ => False := by
  apply agree_then (fun _ after => after.1.input.asked = node.input.asked)
  · refine agree_attempt (Node.agree_on_input (Protocol.agree_close_active rfl
      (fun _ => Tallied.agree_close ?_) fun _ => rfl))
    rcases ran : inner.close.run (node.input.cursor, engine) with ⟨(error | _) | ⟨⟩, cursor, reached⟩
    · exact agree_of_interrupt ran rfl
    · exact absurd (congrArg Prod.fst ran) (unbroken _ _)
    · exact agree_of_answer ran rfl
  · rintro _ ⟨last, reached⟩ same
    exact Node.agree_set_phase .closed ⟨rfl, same⟩

theorem advance_answers (possible : Engine.Meanwhile context meanwhile)
    (going : (engine.journal.of context).cancelled = false)
    (within : Within offset limit? inner meanwhile rows ending node engine given) :
    EndsIn (node, engine) (advance context offset limit? inner.tallied)
      (Advanced offset limit? inner meanwhile rows ending node engine given)
      (Stops offset limit? inner rows ending given.length node engine) := by
  have checked : EndsIn (node, engine) (Node.checkCancelled context)
      (fun _ after => after = (node, engine)) fun _ _ => False := by
    refine CursorAction.agree_in_journal ⟨rfl, ?_⟩
    rw [Context.check_passes going]
    exact rfl
  refine agree_surely checked ?_
  rintro _ _ rfl
  apply CursorAction.agree_state
  dsimp only
  split
  next reached =>
    exact agree_bind (finish_answers unbroken (within.full_iff.mp reached) within)
      fun _ after answered => agree_pure none answered
  next unreached => exact skip_answers possible (within.full_iff.not.mp unreached) within

/-- One call of `next`: it answers as it should, and if it gives a row the pass goes on behind it. -/
theorem next_answers (possible : Engine.Meanwhile context meanwhile)
    (going : (engine.journal.of context).cancelled = false)
    (within : Within offset limit? inner meanwhile rows ending node engine given) :
    EndsIn (node, engine) (protocol context offset limit? inner.tallied).next
      (fun row? after =>
        Answered offset limit? inner rows ending given.length node (engine.tapped context) (.ok row?)
          after.1 ∧
        ∀ row, row? = some row →
          Within offset limit? inner meanwhile rows ending after.1 after.2 (given ++ [row]))
      fun interrupt after =>
        Answered offset limit? inner rows ending given.length node (engine.tapped context)
          (.error interrupt) after.1 := by
  refine Node.agree_past_check within.active ?_
  refine agree_reaching (node, engine.tapped context)
    (CursorAction.agree_tap context "limit.next" rfl) fun _ => ?_
  have tapped : Within offset limit? inner meanwhile rows ending node (engine.tapped context) given :=
    { within with further := within.further.still possible (possible.tap engine) }
  have uncancelled : ((engine.tapped context).journal.of context).cancelled = false :=
    (engine.journal.cancelled_tap context context "limit.next").trans going
  refine agree_bind (agree_on_failure (agree_weaken
    (advance_answers unbroken possible uncancelled tapped) (fun _ _ => id) ?_)) ?_
  · rintro _ ⟨stopped, reached⟩ ⟨error, rfl, answers⟩
    refine agree_given (abort_closes unbroken) ?_
    rintro _ after ⟨closed, asked⟩
    exact answers after.1 closed asked
  · rintro (_ | row) ⟨reached, engine⟩ advanced
    · exact agree_pure none ⟨advanced, nofun⟩
    · obtain ⟨room, present, asked, further⟩ := advanced
      refine agree_reaching ({ reached with phase := .running }, engine)
        (Node.agree_set_phase .running rfl) fun _ => ?_
      refine agree_pure (some row) ⟨.gave room present rfl asked, ?_⟩
      rintro _ ⟨⟩
      exact { further with active := rfl }

end Advancing

/-- A pass that has just begun, or that gave a row at each call of `next` so far. -/
inductive Passing (context : Context) (offset : Nat) (limit? : Option Nat) (inner : Protocol input)
    (meanwhile : Engine → Engine → Prop) (rows : List Row) (ending : Option QueryError) :
    State (Tallied input) → Engine → List Row → Prop
  | opened {cursor : State input} {engine reached : Engine} {after : State (Tallied input)}
      (opens : (protocol context offset limit? inner.tallied).openPass.run
        (cursor.tallied, engine) = (.ok (), after, reached))
      (gives : inner.Gives meanwhile ending rows after.input.cursor reached) :
      Passing context offset limit? inner meanwhile rows ending after reached []
  | gave {node after : State (Tallied input)} {engine later reached : Engine} {given : List Row}
      {row : Row} (earlier : Passing context offset limit? inner meanwhile rows ending node engine given)
      (passes : meanwhile engine later) (going : (later.journal.of context).cancelled = false)
      (gives : (protocol context offset limit? inner.tallied).next.run (node, later) =
        (.ok (some row), after, reached)) :
      Passing context offset limit? inner meanwhile rows ending after reached (given ++ [row])

/-- Opening counts afresh, whatever the cursor counted before. -/
theorem open_pass_opens (cursor : State input) (engine : Engine) :
    EndsIn (cursor.tallied, engine) (protocol context offset limit? inner.tallied).openPass
      (fun _ after => after.1.phase = .opening ∧ after.1.own = {} ∧ after.1.input.asked = 0 ∧
        after.1.input.closings = 0) fun _ _ => True := by
  apply agree_then (fun _ after => after.1.phase = .opening ∧ after.1.input.asked = 0 ∧
    after.1.input.closings = 0)
  · refine agree_reaching (cursor.tallied, engine)
      (Node.agree_check (fun _ => rfl) fun _ => trivial) fun _ => ?_
    refine agree_then (fun _ after => after.1.input.asked = 0 ∧ after.1.input.closings = 0)
      (Node.agree_on_input (Tallied.agree_forward (agree_weaken (agree_anyhow inner.openPass _)
        (fun _ _ _ => ⟨rfl, rfl⟩) fun _ _ => id))) ?_
    rintro _ ⟨opened, reached⟩ counts
    exact Node.agree_set_phase .opening ⟨rfl, counts⟩
  · rintro _ ⟨opened, reached⟩ ⟨opening, counts⟩
    exact Node.agree_change_own _ ⟨opening, rfl, counts⟩

variable {given : List Row}

section Passes

variable (possible : Engine.Meanwhile context meanwhile)
  (unbroken : ∀ cursor engine, (inner.close.run (cursor, engine)).1 ≠ .error .indexOutOfRange)
  (passing : Passing context offset limit? inner meanwhile rows ending node engine given)

include possible unbroken passing

/-- Every pass stands where it should, whatever the pass before it did. -/
theorem Passing.within :
    Within offset limit? inner meanwhile rows ending node engine given := by
  induction passing with
  | @opened cursor engine _ _ opens gives =>
      obtain ⟨opening, own, asked, closings⟩ := given_of_answer (open_pass_opens cursor engine) opens
      exact
        { active := by rw [opening]; rfl
          skipped := by rw [own]; rfl
          emitted := by rw [own]; rfl
          asked := asked
          closings := closings
          further := by rwa [asked]
          dropped := rfl
          kept := fun most _ => Nat.zero_le most }
  | gave earlier passes going gives within =>
      have still : Within offset limit? inner meanwhile rows ending _ _ _ :=
        { within with further := within.further.still possible passes }
      exact (given_of_answer (next_answers unbroken possible going still) gives).2 _ rfl

end Passes

namespace Within

variable (within : Within offset limit? inner meanwhile rows ending node engine given)

include within

theorem given_prefix : given <+: window offset limit? rows := by
  have dropped := within.dropped
  unfold window
  split
  next => exact dropped ▸ List.take_prefix _ _
  next most =>
    have fewer := within.kept most rfl
    have part : ((rows.drop offset).take most).take given.length = given := by
      rw [List.take_take, Nat.min_eq_left fewer, ← dropped]
    exact part ▸ List.take_prefix _ _

/-- Once the limit is reached or the rows are all given there is no more to give. -/
theorem given_all (finished : limit? = some given.length ∨ rows.length ≤ offset + given.length) :
    given = window offset limit? rows := by
  have dropped := within.dropped
  rcases finished with rfl | short
  · exact dropped
  · have all : (rows.drop offset).length ≤ given.length := by
      rw [List.length_drop]
      omega
    rw [List.take_of_length_le all] at dropped
    unfold window
    split
    next => exact dropped
    next most => rw [List.take_of_length_le (all.trans (within.kept most rfl)), ← dropped]

end Within

/-- A limit asks its input for no more than the rows that it drops and gives, and for none where it
gives none. -/
def most (offset limit : Nat) : Nat :=
  if limit = 0 then 0 else offset + limit

theorem Answered.asked_le {outcome : Except Interrupt (Option Row)} {after : State (Tallied input)}
    {called : Engine} (within : Within offset limit? inner meanwhile rows ending node engine given)
    (answered : Answered offset limit? inner rows ending given.length node called outcome after)
    {limit : Nat} (isLimit : limit? = some limit) : after.input.asked ≤ most offset limit := by
  have fewer := within.kept limit isLimit
  have further : limit? ≠ some given.length → given.length < limit := by
    intro room
    refine Nat.lt_of_le_of_ne fewer fun same => room ?_
    rw [isLimit, same]
  have none : node.input.asked ≤ most offset limit := by
    rw [within.asked, most]
    split
    next => exact Nat.zero_le _
    next some =>
      have positive := List.length_pos_iff.mpr some
      rw [if_neg (by omega)]
      omega
  have due : given.length < limit → offset + given.length + 1 ≤ most offset limit := by
    intro less
    rw [most, if_neg (by omega)]
    omega
  cases answered with
  | gave room _ _ asked => exact asked ▸ due (further room)
  | filled _ _ _ same => exact same ▸ none
  | unshut _ _ _ same => exact same ▸ none
  | ended room all _ _ asked => exact asked ▸ (Nat.succ_le_succ all).trans (due (further room))
  | failed room all _ _ asked => exact asked ▸ (Nat.succ_le_succ all).trans (due (further room))

/-- A limit that is closed after a call gave its window, whether it was full or the input came to its
end. -/
theorem Answered.finished {outcome : Except Interrupt (Option Row)} {after : State (Tallied input)}
    {count : Nat}
    (answered : Answered offset limit? inner rows ending count node engine outcome after)
    (closed : after.phase = .closed) : limit? = some count ∨ rows.length ≤ offset + count := by
  cases answered with
  | gave _ _ running _ => exact absurd (running.symm.trans closed) nofun
  | filled full _ _ _ => exact .inl full
  | unshut full _ _ _ => exact .inl full
  | ended _ all _ _ _ => exact .inr all
  | failed _ all _ _ _ => exact .inr all

/-- A pass of a limit over an input that gives rows and then ends or fails. So far it gave the first
rows of the window and asked the input for those before them and for these; the input is active and
was not closed. The next call gives the next row of the window, or closes the limit when the window is
given: if the limit is reached it closes the input and asks it for nothing. A limit over a counted
input answers as over the input itself. -/
theorem Passing.gives_window (possible : Engine.Meanwhile context meanwhile)
    (unbroken : ∀ cursor engine, (inner.close.run (cursor, engine)).1 ≠ .error .indexOutOfRange)
    (passing : Passing context offset limit? inner meanwhile rows ending node engine given) :
    given <+: window offset limit? rows ∧
      node.input.asked = (if given = [] then 0 else offset + given.length) ∧
      node.input.closings = 0 ∧ (inner.phase node.input.cursor).isActive = true ∧
      (∀ later, meanwhile engine later → (later.journal.of context).cancelled = false →
        ∃ outcome after reached,
          (protocol context offset limit? inner.tallied).next.run (node, later) =
            (outcome, after, reached) ∧
          Answered offset limit? inner rows ending given.length node (later.tapped context) outcome
            after ∧
          (∀ limit, limit? = some limit → after.input.asked ≤ most offset limit) ∧
          (after.phase = .closed → given = window offset limit? rows)) ∧
      ∀ call (cursor after : State (Tallied input)) (engine reached : Engine) outcome,
        ((protocol context offset limit? inner.tallied).perform call).run (cursor, engine) =
          (outcome, after, reached) →
        ((protocol context offset limit? inner).perform call).run (cursor.untallied, engine) =
          (outcome, after.untallied, reached) := by
  have within := passing.within possible unbroken
  refine ⟨within.given_prefix, within.asked, within.closings, within.further.active, ?_,
    fun call _ _ _ _ _ => perform_untallied context offset limit? inner call⟩
  intro later passes going
  have still : Within offset limit? inner meanwhile rows ending node later given :=
    { within with further := within.further.still possible passes }
  have answered := ends_of_agree
    (fun outcome after => Answered offset limit? inner rows ending given.length node
      (later.tapped context) outcome after.1)
    (agree_weaken (next_answers unbroken possible going still) (fun _ _ => And.left) fun _ _ => id)
  exact ⟨_, _, _, rfl, answered, fun limit => answered.asked_le within,
    fun closed => within.given_all (answered.finished closed)⟩

end Limit

/-! An input that fails behind its second row, under a limit of the second row. -/

namespace Hidden

structure Script where
  phase : Phase := .closed
  left : List Row

def failure : QueryError :=
  .value none .divisionByZero

/-- Gives the rows that are left and fails behind them. -/
def failing : Protocol Script where
  phase := Script.phase
  openPass := CursorAction.change fun script => { script with phase := .opening }
  next := do
    match (← CursorAction.state).left with
    | [] => Action.fail failure
    | row :: rest => do
        CursorAction.change fun script => { script with left := rest }
        pure (some row)
  close := CursorAction.change fun script => { script with phase := .closed }
  destroy := CursorAction.change fun script => { script with phase := .destroyed }
  openBindings := pure ()
  nextBindings := pure none
  closeBindings := pure ()
  cancelBindings := fun _ pair => pair
  remaining := fun script => script.left.length
  passes := fun _ => 0

def context : Context :=
  ⟨0, .standard, {}⟩

def row (id : Nat) : Row :=
  .stored id ⟨0, []⟩ []

/-- A limit that was abandoned in an earlier pass. -/
def abandoned : Limit.State Script :=
  { own := ⟨5, 7⟩, input := { left := [row 1, row 2] } }

theorem gives_two (engine : Engine) : failing.Gives (fun _ _ => True) (some failure) [row 1, row 2]
    ⟨.opening, [row 1, row 2]⟩ engine :=
  ⟨rfl, fun _ _ => ⟨_, _, rfl, rfl, fun _ _ => ⟨_, _, rfl, rfl, fun _ _ => ⟨_, _, rfl⟩⟩⟩⟩

/-- The pass that gave the second row. -/
theorem passing : ∃ node engine, Limit.Passing context 1 (some 1) failing (fun _ _ => True)
    [row 1, row 2] (some failure) node engine [row 2] := by
  refine ⟨_, _, @Limit.Passing.gave _ context 1 (some 1) failing _ _ _ _ _ _ {} _ [] (row 2)
    (@Limit.Passing.opened _ context 1 (some 1) failing _ _ _ abandoned {} _ _ rfl (gives_two _))
    trivial rfl rfl⟩

/-- The next call closes the input, which was asked for two rows, and the failure behind them is not
met. -/
theorem failure_not_met : ∃ node engine after reached,
    (Limit.protocol context 1 (some 1) failing.tallied).next.run (node, engine) =
      (.ok none, after, reached) ∧
    after.phase = .closed ∧ after.input.asked = 2 ∧ after.input.closings = 1 ∧
      after.input.cursor.phase = .closed := by
  obtain ⟨node, engine, passing⟩ := passing
  have possible : Engine.Meanwhile context fun _ _ => True :=
    ⟨fun _ => trivial, fun _ _ => trivial, fun _ => trivial⟩
  have unbroken : ∀ cursor engine,
      (failing.close.run (cursor, engine)).1 ≠ .error .indexOutOfRange :=
    fun _ _ impossible => by cases impossible
  obtain ⟨-, asked, -, -, answers, -⟩ := passing.gives_window possible unbroken
  obtain ⟨outcome, after, reached, ran, answered, -, -⟩ := answers {} trivial rfl
  refine ⟨node, {}, after, reached, ?_⟩
  cases answered with
  | gave room _ _ _ => exact absurd rfl room
  | filled _ shut closed same =>
      cases shut
      rw [same]
      exact ⟨ran, closed, asked, rfl, rfl⟩
  | unshut _ shut _ _ => cases shut
  | ended room _ _ _ _ => exact absurd rfl room
  | failed room _ _ _ _ => exact absurd rfl room

end Hidden

end QueryExec
