import QueryExec.Proofs.Cursor.Delivery
import QueryExec.Proofs.Cursor.Operators

/-!
What leaves, filters, projections and limits deliver. The loop of a filter and the loop of a limit
pull as many rows as their sequences drop, so each is followed by an induction on its bound.
-/

namespace QueryExec

open QueryExec.Action

namespace Scan

variable {context : Context} {store : Store} {census : Census} {scan : Scan} {engine : Engine}

/-- An active leaf delivers its pending rows. -/
def Delivering : Delivers Scan :=
  fun census stream scan => scan.phase.isActive = true ∧
    (∀ row ∈ scan.pending, row.Listed census) ∧ stream = ⟨scan.pending.map Row.view, none⟩

/-- What a call of `next` takes from the leaf: its first pending row, or nothing when there is
none. -/
def Taken (scan : Scan) : Option Row → Scan → Prop
  | some row, after => ∃ rest, scan.pending = row :: rest ∧
      after = { scan with pending := rest, phase := .running }
  | none, after => scan.pending = [] ∧ after = { scan with phase := .closed }

/-- In a calm engine an active leaf gives its pending rows one after another. -/
theorem next_takes {calm : Engine → Prop} (readable : Engine.Readable context census calm)
    (active : scan.phase.isActive = true) (holds : calm engine) :
    EndsIn (scan, engine) (next context)
      (fun row? after => scan.Taken row? after.1 ∧ calm after.2) fun _ _ => False := by
  refine agree_past_check active ?_
  refine agree_reaching (scan, engine)
    (agree_on_failure (agree_given (checks_calmly readable holds) fun _ _ => id)) fun _ => ?_
  apply agree_surely (taps_calmly readable holds "scan.next")
  intro _ after ends
  obtain ⟨scan, tapped⟩ := after
  obtain ⟨rfl, holds⟩ := ends
  apply CursorAction.agree_state
  dsimp only
  cases pending : scan.pending with
  | nil =>
      refine agree_reaching ({ scan with phase := .closed }, tapped)
        (CursorAction.agree_change _ rfl) fun _ => ?_
      exact agree_pure none ⟨⟨pending, rfl⟩, holds⟩
  | cons row rest =>
      refine agree_reaching ({ scan with pending := rest, phase := .running }, tapped)
        (CursorAction.agree_change _ rfl) fun _ => ?_
      exact agree_pure (some row) ⟨⟨rest, pending, rfl⟩, holds⟩

theorem next_delivers {stream : RowStream} (delivering : Delivering census stream scan)
    (steady : engine.Steady context store census) :
    EndsIn (scan, engine) (next context)
      (Delivered context store Scan.phase Delivering census stream)
      fun interrupt _ => stream = .stopped interrupt := by
  obtain ⟨active, listed, rfl⟩ := delivering
  refine agree_given (next_takes (Engine.steady_readable context store census) active steady) ?_
  rintro (_ | row) ⟨after, reached⟩ ⟨taken, steady⟩
  · obtain ⟨empty, rfl⟩ := taken
    exact ⟨census, census.within_refl, by rw [empty]; rfl, rfl, steady⟩
  · obtain ⟨rest, pending, rfl⟩ := taken
    rw [pending] at listed ⊢
    refine ⟨census, ⟨rest.map Row.view, none⟩, census.within_refl, rfl,
      listed row List.mem_cons_self, steady, rfl, ?_, rfl⟩
    exact fun member among => listed member (List.mem_cons_of_mem row among)

theorem close_delivers {stream : RowStream} (delivering : Delivering census stream scan)
    (steady : engine.Steady context store census) :
    EndsIn (scan, engine) close
      (fun _ after => after.1.phase = .closed ∧ after.2.Steady context store census)
      fun _ _ => False := by
  refine agree_weaken (close_agrees delivering.1) ?_ fun _ _ => id
  intro _ after ends
  obtain ⟨closed, _⟩ := after
  obtain ⟨rfl, _, phase⟩ := ends
  exact ⟨phase, steady⟩

theorem close_unbroken (scan : Scan) (engine : Engine) :
    EndsIn (scan, engine) close (fun _ _ => True)
      fun interrupt _ => interrupt ≠ .indexOutOfRange := by
  refine agree_then (fun _ _ => True)
    (CursorAction.agree_state (Call.agree_check (fun _ => trivial) ?_)) ?_
  · exact fun _ impossible => by cases impossible
  · intro _ after _
    obtain ⟨scan, engine⟩ := after
    exact CursorAction.agree_change abandon trivial

theorem delivering_bounded {stream : RowStream} (delivering : Delivering census stream scan) :
    stream.rows.length ≤ scan.pending.length := by
  obtain ⟨_, _, rfl⟩ := delivering
  exact Nat.le_of_eq (List.length_map Row.view)

theorem delivering_later {stream : RowStream} {later : Census} (within : census.Within later)
    (delivering : Delivering census stream scan) : Delivering later stream scan := by
  obtain ⟨active, listed, same⟩ := delivering
  exact ⟨active, fun row among => Row.Listed.later within row (listed row among), same⟩

theorem inject_fault_unbroken (call : LeafCall) (engine : Engine) :
    EndsIn engine (Engine.injectFault call) (fun _ _ => True)
      fun interrupt _ => interrupt ≠ .indexOutOfRange := by
  refine agree_then (fun _ _ => True) ⟨rfl, trivial⟩ fun read reached _ => ?_
  split
  · split
    · exact agree_fail _ fun impossible => by cases impossible
    · exact agree_pure () trivial
  · exact agree_pure () trivial

theorem protocol_produces (context : Context) (store : Store) (load : Action Engine (List Row)) :
    (protocol context load).Produces context store Delivering where
  active := fun delivering => delivering.1
  bounded := delivering_bounded
  later := delivering_later
  next := next_delivers
  close := close_delivers
  unbroken := close_unbroken

/-- Behind a probe that plans no fault the leaf delivers the same. -/
theorem probed_produces (context : Context) (store : Store) (load : Action Engine (List Row)) :
    (probed (protocol context load)).Produces context store Delivering where
  active := fun delivering => delivering.1
  bounded := delivering_bounded
  later := delivering_later
  next := fun delivering steady =>
    instead_of_agrees steady.quiet (next_delivers delivering (steady.noted .next))
      fun impossible => impossible.elim
  close := by
    intro census stream scan engine delivering steady
    refine agree_then (fun _ after => after = (scan, engine.noted .close)) ⟨rfl, rfl⟩ ?_
    intro _ _ same
    subst same
    apply agree_then (fun _ after => after.2 = engine.noted .close ∧
      after.1.phase = .closed) (agree_given (close_agrees delivering.1)
        fun _ _ ends => ⟨ends.1, ends.2.2⟩)
    intro _ after ends
    obtain ⟨closed, _⟩ := after
    obtain ⟨rfl, phase⟩ := ends
    exact CursorAction.agree_in_engine (Engine.agree_inject_fault steady.quiet
      ⟨phase, steady.noted .close⟩ fun impossible => impossible.elim)
  unbroken := by
    intro scan engine
    refine agree_then (fun _ after => after = (scan, engine.noted .close)) ⟨rfl, rfl⟩ ?_
    intro _ _ same
    subst same
    apply agree_bind (close_unbroken scan _)
    intro _ after _
    obtain ⟨closed, engine⟩ := after
    exact CursorAction.agree_in_engine (inject_fault_unbroken .close engine)

end Scan

namespace RowStream

theorem filter_rows_length (keeps : View → Except Interrupt Bool) (ending : Option Interrupt)
    (rows : List View) : (filterRows keeps ending rows).rows.length ≤ rows.length := by
  induction rows with
  | nil => exact Nat.le_refl 0
  | cons row rest induction =>
      unfold filterRows
      split
      · exact Nat.succ_le_succ induction
      · exact Nat.le_succ_of_le induction
      · exact Nat.zero_le _

theorem filtered_cons (keeps : View → Except Interrupt Bool) (row : View) (rest : RowStream) :
    (rest.cons row).filtered keeps =
      match keeps row with
      | .ok true => (rest.filtered keeps).cons row
      | .ok false => rest.filtered keeps
      | .error interrupt => stopped interrupt :=
  rfl

theorem limited_length (offset : Nat) (limit? : Option Nat) (stream : RowStream) :
    (stream.limited offset limit?).rows.length ≤ stream.rows.length := by
  cases limit? with
  | none => simp [limited]
  | some most =>
      unfold limited
      dsimp only
      split
      · simp only [List.length_take, List.length_drop]
        omega
      · simp

theorem limited_none_left (offset : Nat) (stream : RowStream) :
    stream.limited offset (some 0) = ⟨[], none⟩ := by
  unfold limited
  exact if_pos (Nat.zero_le _)

theorem limited_ended (offset : Nat) (left? : Option Nat) :
    RowStream.limited offset left? ⟨[], none⟩ = ⟨[], none⟩ := by
  cases left? with
  | none => simp [limited]
  | some most => simp [limited]

theorem limited_stopped (offset : Nat) {left? : Option Nat} (room : left? ≠ some 0)
    (interrupt : Interrupt) : (stopped interrupt).limited offset left? = stopped interrupt := by
  cases left? with
  | none => simp [limited, stopped]
  | some most =>
      have some_left : most ≠ 0 := fun none_left => room (congrArg some none_left)
      simp [limited, stopped, some_left]

theorem limited_skip (offset : Nat) (left? : Option Nat) (row : View) (rest : RowStream) :
    (rest.cons row).limited (offset + 1) left? = rest.limited offset left? :=
  rfl

theorem limited_take {left? : Option Nat} (room : left? ≠ some 0) (row : View)
    (rest : RowStream) :
    (rest.cons row).limited 0 left? = (rest.limited 0 (left?.map (· - 1))).cons row := by
  rcases left? with _ | _ | most
  · rfl
  · exact absurd rfl room
  · unfold limited cons
    simp only [List.drop_zero, List.length_cons, Option.map_some, Nat.add_sub_cancel,
      Nat.add_le_add_iff_right, List.take_succ_cons]
    split <;> rfl

end RowStream

section Operators

variable {input : Type} {context : Context} {store : Store} {inner : Protocol input}
  {delivers : Delivers input}

namespace Filter

variable {census : Census} {below : RowStream} {node : State input} {engine : Engine}
  {inputType : RowType} {predicate : Expr}

def operate (context : Context) (inputType : RowType) (predicate : Expr) (bindings : Bindings)
    (_ : Unit) (below : RowStream) : RowStream :=
  below.filtered fun view => view.passes context bindings inputType predicate

/-- A filter delivers the rows of its input that pass. -/
abbrev Delivering (context : Context) (inputType : RowType) (predicate : Expr)
    (delivers : Delivers input) : Delivers (State input) :=
  Node.Delivering (operate context inputType predicate) delivers

theorem accepts_agrees_view {row : Row} (listed : row.Listed census)
    (bound : node.bindings.Listed census) (steady : engine.Steady context store census) :
    EndsIn (node, engine) (accepts context predicate row)
      (fun accepted after =>
        (row.view.eval context node.bindings predicate).map Datum.isTrue = .ok accepted ∧
          after.1 = node ∧ after.2.Steady context store census)
      fun interrupt _ =>
        (row.view.eval context node.bindings predicate).map Datum.isTrue = .error interrupt := by
  apply CursorAction.agree_state
  refine agree_bind (agree_weaken
    (reading_agrees (eval_yields listed bound context predicate) steady) (fun _ _ => id) ?_) ?_
  · intro interrupt _ failed
    rw [failed]
    rfl
  · intro value after ends
    obtain ⟨found, same, steady⟩ := ends
    refine agree_pure value.isTrue ⟨?_, same, steady⟩
    rw [found]
    rfl

/-- The induction is on the bound, which exceeds the rows that the input still delivers. -/
theorem search_delivers (produces : inner.Produces context store delivers) (bound : Nat)
    (active : node.phase.isActive = true) (bindings : node.bindings.Listed census)
    (delivering : delivers census below node.input) (enough : below.rows.length < bound)
    (steady : engine.Steady context store census) :
    EndsIn (node, engine) (search context inputType predicate inner bound)
      (Delivered context store Node.phase (Delivering context inputType predicate delivers) census
        (operate context inputType predicate node.bindings node.own below))
      fun interrupt _ =>
        operate context inputType predicate node.bindings node.own below =
          .stopped interrupt := by
  induction bound generalizing node engine census below with
  | zero => exact absurd enough (Nat.not_lt_zero _)
  | succ bound induction =>
      refine agree_bind (agree_weaken (Node.pull_delivers produces delivering steady)
        (fun _ _ => id) ?_) ?_
      · intro interrupt _ same
        subst same
        rfl
      rintro (_ | row) ⟨_, engine⟩ ⟨pulled, rfl, delivered⟩
      · obtain ⟨later, within, rfl, ended, steady⟩ := delivered
        exact Node.ended_delivers within ended steady
      obtain ⟨later, rest, within, rfl, listed, steady, further⟩ := delivered
      have judged : operate context inputType predicate node.bindings node.own
          (rest.cons row.view) =
          match row.view.passes context node.bindings inputType predicate with
          | .ok true => (operate context inputType predicate node.bindings node.own
              rest).cons row.view
          | .ok false => operate context inputType predicate node.bindings node.own rest
          | .error interrupt => .stopped interrupt :=
        RowStream.filtered_cons _ row.view rest
      rw [judged]
      have stillBound := bindings.later within
      dsimp only
      split
      next foreign =>
        have passes : row.view.passes context node.bindings inputType predicate = .ok true := by
          unfold View.passes
          exact if_neg (show ¬row.type.same inputType = true by simpa using foreign)
        rw [passes]
        exact agree_pure (some row)
          ⟨later, _, within, rfl, listed, steady, active, stillBound, rest, further, rfl⟩
      next own =>
        have judges : row.view.passes context node.bindings inputType predicate =
            (row.view.eval context node.bindings predicate).map Datum.isTrue := by
          unfold View.passes
          exact if_pos (show row.type.same inputType = true by simpa using own)
        rw [judges]
        refine agree_bind (agree_weaken (accepts_agrees_view listed stillBound steady)
          (fun _ _ => id) ?_) ?_
        · intro interrupt _ failed
          rw [failed]
        intro accepted after ends
        obtain ⟨_, engine⟩ := after
        obtain ⟨found, rfl, steady⟩ := ends
        rw [found]
        cases accepted with
        | true =>
            exact agree_pure (some row)
              ⟨later, _, within, rfl, listed, steady, active, stillBound, rest, further, rfl⟩
        | false =>
            have shorter : rest.rows.length < bound := Nat.lt_of_succ_lt_succ enough
            refine agree_weaken (induction active stillBound further shorter steady) ?_
              fun _ _ => id
            exact fun _ _ => Delivered.earlier within

theorem protocol_produces (produces : inner.Produces context store delivers)
    (inputType : RowType) (predicate : Expr) :
    (protocol context inputType predicate inner).Produces context store
      (Delivering context inputType predicate delivers) := by
  apply Node.protocol_produces produces "filter.next"
    (fun _ _ stream => RowStream.filter_rows_length _ stream.ending stream.rows)
  intro census below node engine active bindings delivering steady
  apply agree_surely (not_cancelled_agrees steady)
  intro _ _ same
  subst same
  apply CursorAction.agree_state
  exact search_delivers produces _ active bindings delivering
    (Nat.lt_succ_of_le (produces.bounded delivering)) steady

end Filter

namespace Project

variable {census : Census} {below : RowStream} {node : State input} {engine : Engine}
  {inputType outputType : RowType} {columns : List Expr}

def operate (context : Context) (inputType outputType : RowType) (columns : List Expr)
    (bindings : Bindings) (_ : Unit) (below : RowStream) : RowStream :=
  below.mapped fun view => view.reshaped context bindings inputType outputType columns

theorem operate_cons (bindings : Bindings) (row : View) (rest : RowStream) :
    operate context inputType outputType columns bindings () (rest.cons row) =
      (operate context inputType outputType columns bindings () rest).cons
        (row.reshaped context bindings inputType outputType columns) :=
  rfl

/-- A projection delivers a row for each row of its input. -/
abbrev Delivering (context : Context) (inputType outputType : RowType) (columns : List Expr)
    (delivers : Delivers input) : Delivers (State input) :=
  Node.Delivering (operate context inputType outputType columns) delivers

theorem advance_delivers (produces : inner.Produces context store delivers)
    (active : node.phase.isActive = true) (bindings : node.bindings.Listed census)
    (delivering : delivers census below node.input)
    (steady : engine.Steady context store census) :
    EndsIn (node, engine) (advance context inputType outputType columns inner)
      (Delivered context store Node.phase
        (Delivering context inputType outputType columns delivers) census
        (operate context inputType outputType columns node.bindings node.own below))
      fun interrupt _ =>
        operate context inputType outputType columns node.bindings node.own below =
          .stopped interrupt := by
  apply agree_surely (not_cancelled_agrees steady)
  intro _ _ same
  subst same
  refine agree_bind (agree_weaken (Node.pull_delivers produces delivering steady)
    (fun _ _ => id) ?_) ?_
  · intro interrupt _ same
    subst same
    rfl
  rintro (_ | row) ⟨_, engine⟩ ⟨pulled, rfl, delivered⟩
  · obtain ⟨later, within, rfl, ended, steady⟩ := delivered
    exact Node.ended_delivers within ended steady
  obtain ⟨later, rest, within, rfl, listed, steady, further⟩ := delivered
  have stillBound := bindings.later within
  dsimp only
  split
  next foreign =>
    have kept : row.view.reshaped context node.bindings inputType outputType columns =
        row.view := by
      unfold View.reshaped
      exact if_neg (show ¬row.type.same inputType = true by simpa using foreign)
    refine agree_pure (some row) ⟨later, _, within, ?_, listed, steady, active, stillBound, rest,
      further, rfl⟩
    rw [operate_cons, kept]
  next own =>
    have made : row.view.reshaped context node.bindings inputType outputType columns =
        row.view.projected outputType context node.bindings columns := by
      unfold View.reshaped
      exact if_pos (show row.type.same inputType = true by simpa using own)
    apply CursorAction.agree_state
    apply agree_then (fun projected after =>
      projected = .projected engine.nextId outputType row context node.bindings columns ∧
        after = ({ node with input := pulled }, { engine with nextId := engine.nextId + 1 }))
    · refine CursorAction.agree_in_engine (agree_given
        (Engine.new_projection_agrees outputType row context node.bindings columns) ?_)
      intro _ _ ends
      obtain ⟨rfl, rfl⟩ := ends
      exact ⟨rfl, rfl⟩
    intro _ _ ends
    obtain ⟨rfl, rfl⟩ := ends
    -- the new row is the one row that the census did not have
    have grown := Census.within_with (steady.fresh _ (Nat.le_refl _))
      (.projected engine.nextId outputType row context node.bindings columns)
    refine agree_pure (some _) ⟨_, _, within.trans grown, ?_, ?_, steady.projected _, active,
      stillBound.later grown, rest, produces.later grown further, rfl⟩
    · rw [operate_cons, made, view_projected listed stillBound]
    · exact ⟨if_pos rfl, Row.Listed.later grown row listed, stillBound.later grown⟩

theorem protocol_produces (produces : inner.Produces context store delivers)
    (inputType outputType : RowType) (columns : List Expr) :
    (protocol context inputType outputType columns inner).Produces context store
      (Delivering context inputType outputType columns delivers) := by
  apply Node.protocol_produces produces "project.next"
  · exact fun _ _ stream => Nat.le_of_eq (List.length_map _)
  · exact fun active bindings delivering steady =>
      advance_delivers produces active bindings delivering steady

end Project

namespace Limit

variable {census : Census} {below : RowStream} {node : State input} {engine : Engine}
  {offset : Nat} {limit? : Option Nat}

def operate (offset : Nat) (limit? : Option Nat) (_ : Bindings) (progress : Progress)
    (below : RowStream) : RowStream :=
  below.limited (offset - progress.skipped) (limit?.map (· - progress.emitted))

/-- A limit delivers what is left to drop and to give of the rows of its input. -/
abbrev Delivering (offset : Nat) (limit? : Option Nat) (delivers : Delivers input) :
    Delivers (State input) :=
  Node.Delivering (operate offset limit?) delivers

theorem none_left {progress : Progress} (reached : limit?.any (· ≤ progress.emitted) = true) :
    limit?.map (· - progress.emitted) = some 0 := by
  cases limit? with
  | none => cases reached
  | some most => exact congrArg some (Nat.sub_eq_zero_of_le (by simpa using reached))

theorem room_left {progress : Progress} (room : ¬limit?.any (· ≤ progress.emitted) = true) :
    limit?.map (· - progress.emitted) ≠ some 0 := by
  cases limit? with
  | none => exact fun impossible => by cases impossible
  | some most =>
      intro nothing
      have reached : most - progress.emitted = 0 := by simpa using nothing
      exact room (by simpa using Nat.le_of_sub_eq_zero reached)

theorem counted_left (progress : Progress) :
    limit?.map (· - (progress.emitted + 1)) =
      (limit?.map (· - progress.emitted)).map (· - 1) := by
  cases limit? with
  | none => rfl
  | some most => exact congrArg some (Nat.sub_sub most progress.emitted 1).symm

/-- The induction is on the rows that are still to be dropped. -/
theorem skip_delivers (produces : inner.Produces context store delivers) (count : Nat)
    (remains : offset - node.own.skipped = count) (active : node.phase.isActive = true)
    (bindings : node.bindings.Listed census) (delivering : delivers census below node.input)
    (room : limit?.map (· - node.own.emitted) ≠ some 0)
    (steady : engine.Steady context store census) :
    EndsIn (node, engine) (skip inner count)
      (Delivered context store Node.phase (Delivering offset limit? delivers) census
        (operate offset limit? node.bindings node.own below))
      fun interrupt _ =>
        operate offset limit? node.bindings node.own below = .stopped interrupt := by
  induction count generalizing node engine census below with
  | zero =>
      refine agree_bind (agree_weaken (Node.pull_delivers produces delivering steady)
        (fun _ _ => id) ?_) ?_
      · intro interrupt _ same
        subst same
        exact RowStream.limited_stopped _ room interrupt
      rintro (_ | row) ⟨_, engine⟩ ⟨pulled, rfl, delivered⟩
      · obtain ⟨later, within, rfl, ended, steady⟩ := delivered
        rw [operate, RowStream.limited_ended]
        exact Node.ended_delivers within ended steady
      · obtain ⟨later, rest, within, rfl, listed, steady, further⟩ := delivered
        refine agree_reaching ({ node with
              input := pulled
              own := { node.own with emitted := node.own.emitted + 1 } }, engine)
          (Node.agree_change_own _ rfl) fun _ => ?_
        refine agree_pure (some row) ⟨later, _, within, ?_, listed, steady, active,
          bindings.later within, rest, further, rfl⟩
        unfold operate
        dsimp only
        rw [remains, counted_left]
        exact RowStream.limited_take room row.view rest
  | succ count induction =>
      refine agree_bind (agree_weaken (Node.pull_delivers produces delivering steady)
        (fun _ _ => id) ?_) ?_
      · intro interrupt _ same
        subst same
        exact RowStream.limited_stopped _ room interrupt
      rintro (_ | row) ⟨_, engine⟩ ⟨pulled, rfl, delivered⟩
      · obtain ⟨later, within, rfl, ended, steady⟩ := delivered
        rw [operate, RowStream.limited_ended]
        exact Node.ended_delivers within ended steady
      · obtain ⟨later, rest, within, rfl, listed, steady, further⟩ := delivered
        refine agree_reaching ({ node with
              input := pulled
              own := { node.own with skipped := node.own.skipped + 1 } }, engine)
          (Node.agree_change_own _ rfl) fun _ => ?_
        have fewer : offset - (node.own.skipped + 1) = count := by omega
        have skipped : operate offset limit? node.bindings node.own (rest.cons row.view) =
            operate offset limit? node.bindings
              { node.own with skipped := node.own.skipped + 1 } rest := by
          unfold operate
          dsimp only
          rw [remains, fewer]
          exact RowStream.limited_skip count _ row.view rest
        rw [skipped]
        refine agree_weaken (induction ?_ active (bindings.later within) further room steady) ?_
          fun _ _ => id
        · exact fewer
        · exact fun _ _ => Delivered.earlier within

theorem advance_delivers (produces : inner.Produces context store delivers)
    (active : node.phase.isActive = true) (bindings : node.bindings.Listed census)
    (delivering : delivers census below node.input)
    (steady : engine.Steady context store census) :
    EndsIn (node, engine) (advance context offset limit? inner)
      (Delivered context store Node.phase (Delivering offset limit? delivers) census
        (operate offset limit? node.bindings node.own below))
      fun interrupt _ =>
        operate offset limit? node.bindings node.own below = .stopped interrupt := by
  apply agree_surely (not_cancelled_agrees steady)
  intro _ _ same
  subst same
  apply CursorAction.agree_state
  dsimp only
  split
  next reached =>
    rw [operate, none_left reached, RowStream.limited_none_left]
    apply agree_surely (Node.finish_early produces delivering steady)
    intro _ after ends
    obtain ⟨finished, engine⟩ := after
    obtain ⟨closed, steady⟩ := ends
    exact agree_pure none ⟨census, census.within_refl, rfl, closed, steady⟩
  next room =>
    exact skip_delivers produces _ rfl active bindings delivering (room_left room) steady

theorem protocol_produces (produces : inner.Produces context store delivers) (offset : Nat)
    (limit? : Option Nat) :
    (protocol context offset limit? inner).Produces context store
      (Delivering offset limit? delivers) := by
  have base := Node.protocol_produces produces "limit.next"
    (fun _ (progress : Progress) stream => RowStream.limited_length (offset - progress.skipped)
      (limit?.map (· - progress.emitted)) stream) (advance_delivers produces)
  exact ⟨base.active, base.bounded, base.later, base.next, base.close, base.unbroken⟩

end Limit

end Operators

end QueryExec
