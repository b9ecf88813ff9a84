import QueryExec.Cursor.Tree
import QueryExec.Proofs.Census.Trees
import QueryExec.Proofs.Safety.Rows

/-!
Cursors over rows of the right shape. Every operator gives rows that are shaped when its input
does, reads only columns that are there, and is stopped by nothing but what its values, the store,
a cancellation or the phase of a cursor give reason for.
-/

namespace QueryExec

open QueryExec.Action

/-- The rows that are stored under such names are shaped. -/
def Engine.Stocked (dictionary : Dictionary) (names : List String) (engine : Engine) : Prop :=
  ∀ name ∈ names, ∀ table, engine.store.table name = .ok table →
    ∀ row ∈ table.rows, row.Shaped dictionary

/-- A cursor that is in order, in an engine that stores shaped rows. -/
def Ordered {cursor : Type} (dictionary : Dictionary) (names : List String) (fits : cursor → Prop)
    (pair : cursor × Engine) : Prop :=
  fits pair.1 ∧ pair.2.Stocked dictionary names

/-- The calls keep cursors in order, give shaped rows and admissible bindings, and stop for orderly
reasons only. -/
structure Protocol.Orderly {cursor : Type} (dictionary : Dictionary) (names : List String)
    (bound : Bindings → Prop) (fits : cursor → Prop) (protocol : Protocol cursor) : Prop where
  openPass : Behaves (Ordered dictionary names fits) protocol.openPass fun _ => True
  next : Behaves (Ordered dictionary names fits) protocol.next fun row? =>
    ∀ row ∈ row?, row.Shaped dictionary
  close : Behaves (Ordered dictionary names fits) protocol.close fun _ => True
  destroy : Behaves (Ordered dictionary names fits) protocol.destroy fun _ => True
  openBindings : Behaves (Ordered dictionary names fits) protocol.openBindings fun _ => True
  nextBindings : Behaves (Ordered dictionary names fits) protocol.nextBindings fun bindings? =>
    ∀ bindings ∈ bindings?, bound bindings
  closeBindings : Behaves (Ordered dictionary names fits) protocol.closeBindings fun _ => True

namespace Engine

variable {dictionary : Dictionary} {names : List String} {result : Type} {holds : result → Prop}

theorem behaves_in_journal {action : Action Journal result}
    (behaves : Behaves (fun _ => True) action holds) :
    Behaves (Engine.Stocked dictionary names) (inJournal action) holds := by
  intro engine stocked
  unfold inJournal
  refine agree_on_part (agree_weaken (behaves engine.journal trivial) ?_ ?_)
  · exact fun _ _ ends => ⟨stocked, ends.2⟩
  · exact fun _ _ ends => ⟨stocked, ends.2⟩

/-- A row is made under a new identity, whatever its shape. -/
theorem behaves_make {make : Nat → Row} (shaped : ∀ id, (make id).Shaped dictionary) :
    Behaves (Engine.Stocked dictionary names) (return make (← freshId)) fun row =>
      row.Shaped dictionary :=
  fun engine stocked => ⟨rfl, stocked, shaped engine.nextId⟩

theorem behaves_note (call : LeafCall) :
    Behaves (Engine.Stocked dictionary names) (note call) fun _ => True :=
  proceeds_modify fun _ stocked => stocked

theorem behaves_inject_fault (call : LeafCall) :
    Behaves (Engine.Stocked dictionary names) (injectFault call) fun _ => True := by
  refine proceeds_get fun engine _ => ?_
  split
  · split
    · exact proceeds_fail rfl
    · exact proceeds_pure trivial
  · exact proceeds_pure trivial

theorem behaves_load_table {name : String} (scanned : name ∈ names) :
    Behaves (Engine.Stocked dictionary names) (Scan.loadTable name) fun rows =>
      ∀ row ∈ rows, row.Shaped dictionary := by
  have finds : Behaves (Engine.Stocked dictionary names) (storedTable name) fun table =>
      ∀ row ∈ table.rows, row.Shaped dictionary := by
    refine proceeds_get fun engine stocked => behaves_of_except ?_
    cases found : engine.store.table name with
    | ok table => exact stocked name scanned table found
    | error error =>
        unfold Store.table at found
        split at found <;> cases found
        rfl
  exact proceeds_bind finds fun table shaped => proceeds_pure shaped

end Engine

section Cursors

variable {cursor result : Type} {dictionary : Dictionary} {names : List String}
  {bound : Bindings → Prop} {fits earlier later stopped : cursor → Prop} {holds : result → Prop}

theorem proceeds_look {next : cursor → CursorAction cursor result}
    (proceeds : ∀ seen, earlier seen → Proceeds (Ordered dictionary names earlier)
      (Ordered dictionary names later) (Ordered dictionary names stopped) (next seen) holds) :
    Proceeds (Ordered dictionary names earlier) (Ordered dictionary names later)
      (Ordered dictionary names stopped) (CursorAction.state >>= next) holds :=
  fun start kept => proceeds start.1 kept.1 start kept

theorem proceeds_change {step : cursor → cursor} {halts : cursor × Engine → Prop}
    (keeps : ∀ state, earlier state → later (step state)) :
    Proceeds (Ordered dictionary names earlier) (Ordered dictionary names later) halts
      (CursorAction.change step) fun _ => True :=
  proceeds_modify fun _ kept => ⟨keeps _ kept.1, kept.2⟩

theorem behaves_in_engine {action : Action Engine result}
    (behaves : Behaves (Engine.Stocked dictionary names) action holds) :
    Behaves (Ordered dictionary names fits) (CursorAction.inEngine action) holds :=
  fun start kept => CursorAction.agree_in_engine (agree_weaken (behaves start.2 kept.2)
    (fun _ _ ends => ⟨⟨kept.1, ends.1⟩, ends.2⟩) fun _ _ ends => ⟨⟨kept.1, ends.1⟩, ends.2⟩)

theorem behaves_reading {action : Action Journal result}
    (behaves : Behaves (fun _ => True) action holds) :
    Behaves (Ordered dictionary names fits) (CursorAction.inJournal action) holds :=
  behaves_in_engine (Engine.behaves_in_journal behaves)

theorem tap_orderly (context : Context) (name : String) : Action.Orderly (context.tap name) :=
  changes_orderly _

theorem check_cancelled_orderly (context : Context) : Action.Orderly context.checkCancelled := by
  refine proceeds_get fun journal _ => ?_
  split
  · exact proceeds_fail rfl
  · exact proceeds_pure trivial

theorem behaves_phase_check {state : Type} {good : state → Prop} (call : Call) (phase : Phase) :
    Behaves good (call.check phase) fun _ => True := by
  unfold Call.check
  split
  · exact proceeds_pure trivial
  · exact proceeds_fail rfl

variable {protocol : Protocol cursor} (orderly : protocol.Orderly dictionary names bound fits)

include orderly

theorem behaves_close_active :
    Behaves (Ordered dictionary names fits) protocol.closeActive fun _ => True := by
  refine proceeds_look fun state _ => ?_
  split
  · exact orderly.close
  · exact proceeds_pure trivial

theorem behaves_destroy_once :
    Behaves (Ordered dictionary names fits) protocol.destroyOnce fun _ => True := by
  refine proceeds_look fun state _ => ?_
  split
  · exact proceeds_pure trivial
  · exact orderly.destroy

end Cursors

namespace Node

variable {own input result : Type} {dictionary : Dictionary} {names : List String}
  {bound : Bindings → Prop}
  {suits loose : Phase → own → Prop} {below : input → Prop} {holds : result → Prop}

/-- The binding is admissible, what the operator keeps suits the phase, and the input is in
order. -/
structure InOrder (bound : Bindings → Prop) (suits : Phase → own → Prop) (below : input → Prop)
    (node : Node own input) : Prop where
  bindings : bound node.bindings
  own : suits node.phase node.own
  input : below node.input

/-- Nodes in order, in engines that store shaped rows. -/
abbrev Good (dictionary : Dictionary) (names : List String) (bound : Bindings → Prop)
    (suits : Phase → own → Prop) (below : input → Prop) (pair : Node own input × Engine) : Prop :=
  Ordered dictionary names (InOrder bound suits below) pair

theorem good_weaken {pair : Node own input × Engine}
    (good : Good dictionary names bound suits below pair)
    (implies : ∀ phase state, suits phase state → loose phase state) :
    Good dictionary names bound loose below pair :=
  ⟨{ good.1 with own := implies _ _ good.1.own }, good.2⟩

theorem proceeds_set_phase {halts : Node own input × Engine → Prop} (phase : Phase)
    (suit : ∀ earlier state, loose earlier state → suits phase state) :
    Proceeds (Good dictionary names bound loose below) (Good dictionary names bound suits below)
      halts (setPhase phase) fun _ => True :=
  proceeds_change fun _ held => { held with own := suit _ _ held.own }

theorem proceeds_change_own {halts : Node own input × Engine → Prop} (step : own → own)
    (suit : ∀ phase state, loose phase state → suits phase (step state)) :
    Proceeds (Good dictionary names bound loose below) (Good dictionary names bound suits below)
      halts (changeOwn step) fun _ => True :=
  proceeds_change fun _ held => { held with own := suit _ _ held.own }

theorem behaves_check (call : Call) :
    Behaves (Good dictionary names bound suits below) (check call) fun _ => True :=
  proceeds_look fun node _ => behaves_phase_check call node.phase

theorem behaves_on_input {action : CursorAction input result}
    (behaves : Behaves (Ordered dictionary names below) action holds) :
    Behaves (Good dictionary names bound suits below) (onInput action) holds := by
  rintro ⟨node, engine⟩ ⟨held, stocked⟩
  refine agree_on_input (agree_weaken (behaves (node.input, engine) ⟨held.input, stocked⟩) ?_ ?_)
  · exact fun _ _ ends => ⟨⟨{ held with input := ends.1.1 }, ends.1.2⟩, ends.2⟩
  · exact fun _ _ ends => ⟨⟨{ held with input := ends.1.1 }, ends.1.2⟩, ends.2⟩

section OverInput

variable {inner : Protocol input} (orderly : inner.Orderly dictionary names bound below)

include orderly

theorem behaves_pull :
    Behaves (Good dictionary names bound suits below) (pull inner) fun row? =>
      ∀ row ∈ row?, row.Shaped dictionary := by
  refine proceeds_look fun node _ => ?_
  split
  · exact behaves_on_input orderly.next
  · exact proceeds_pure nofun

/-- Closing suits whatever the operator keeps. -/
theorem proceeds_finish (closes : ∀ phase state, loose phase state → suits .closed state) :
    Proceeds (Good dictionary names bound loose below) (Good dictionary names bound suits below)
      (Good dictionary names bound suits below) (finish inner) fun _ => True :=
  proceeds_bind (proceeds_set_phase .closed closes) fun _ _ =>
    behaves_on_input (behaves_close_active orderly)

theorem proceeds_ended (closes : ∀ phase state, loose phase state → suits .closed state) :
    Proceeds (Good dictionary names bound loose below) (Good dictionary names bound suits below)
      (Good dictionary names bound suits below)
      (do
        finish inner
        pure (none : Option Row))
      fun row? => ∀ row ∈ row?, row.Shaped dictionary :=
  proceeds_bind (proceeds_finish orderly closes) fun _ _ => proceeds_pure nofun

theorem proceeds_abort (closes : ∀ phase state, loose phase state → suits .closed state) :
    Proceeds (Good dictionary names bound loose below) (Good dictionary names bound suits below)
      (Good dictionary names bound suits below) (abort inner) fun _ => True :=
  proceeds_bind (proceeds_attempt (behaves_on_input (behaves_close_active orderly))) fun _ _ =>
    proceeds_set_phase .closed closes

theorem behaves_close (closes : ∀ phase state, suits phase state → suits .closed state) :
    Behaves (Good dictionary names bound suits below) (close inner) fun _ => True :=
  proceeds_bind (behaves_check .close) fun _ _ => proceeds_finish orderly closes

theorem proceeds_open_pass (opens : ∀ phase state, suits phase state → loose .opening state) :
    Proceeds (Good dictionary names bound suits below) (Good dictionary names bound loose below)
      (Good dictionary names bound suits below) (openPass inner) fun _ => True :=
  proceeds_bind (behaves_check .openPass) fun _ _ =>
    proceeds_bind (behaves_on_input orderly.openPass) fun _ _ => proceeds_set_phase .opening opens

/-- What is destroyed was destroyed before, or is now whatever else fails. -/
theorem proceeds_destroy (closes : ∀ phase state, loose phase state → loose .closed state)
    (ends : ∀ phase state, loose phase state → suits .destroyed state) :
    Proceeds (Good dictionary names bound loose below) (Good dictionary names bound suits below)
      (Good dictionary names bound suits below) (destroy inner) fun _ => True := by
  have rest (closed : Except QueryError Unit) (told : Told (fun _ => True) closed) :
      Proceeds (Good dictionary names bound loose below) (Good dictionary names bound suits below)
        (Good dictionary names bound suits below)
        (do
          let destroyed ← (onInput inner.destroyOnce).attempt
          setPhase .destroyed
          Action.ofExcept closed
          Action.ofExcept destroyed)
        fun _ => True := by
    refine proceeds_bind (proceeds_attempt (behaves_on_input (behaves_destroy_once orderly))) ?_
    intro destroyed also
    refine proceeds_bind (proceeds_set_phase .destroyed ends) fun _ _ => ?_
    exact proceeds_bind (behaves_of_except told) fun _ _ => behaves_of_except also
  rintro ⟨node, engine⟩ ⟨held, stocked⟩
  refine agree_then (fun _ after => after = (node, engine)) (agree_check (fun _ => rfl) ?_) ?_
  · intro illegal
    have destroyed : node.phase = .destroyed := by simpa [Call.legalIn] using illegal
    refine ⟨⟨{ held with own := ?_ }, stocked⟩, rfl⟩
    rw [destroyed]
    exact ends _ _ held.own
  · rintro _ _ rfl
    apply CursorAction.agree_state
    dsimp only
    split
    · exact proceeds_bind (proceeds_attempt (proceeds_finish orderly closes)) rest (node, engine)
        ⟨held, stocked⟩
    · exact rest (.ok ()) trivial (node, engine) ⟨held, stocked⟩

theorem behaves_open_bindings :
    Behaves (Good dictionary names bound suits below) (openBindings inner) fun _ => True :=
  proceeds_bind (behaves_check .openBindings) fun _ _ => behaves_on_input orderly.openBindings

theorem behaves_close_bindings :
    Behaves (Good dictionary names bound suits below) (closeBindings inner) fun _ => True :=
  proceeds_bind (behaves_check .closeBindings) fun _ _ => behaves_on_input orderly.closeBindings

theorem behaves_next_bindings :
    Behaves (Good dictionary names bound suits below) (nextBindings inner) fun bindings? =>
      ∀ bindings ∈ bindings?, bound bindings := by
  refine proceeds_bind (behaves_check .nextBindings) fun _ _ => ?_
  refine proceeds_bind (behaves_on_input orderly.nextBindings) fun bindings? admitted => ?_
  refine proceeds_bind (proceeds_change fun node held => { held with bindings := ?_ })
    fun _ _ => proceeds_pure admitted
  cases bindings? with
  | none => exact held.bindings
  | some bindings => exact admitted bindings rfl

/-- An operator that keeps nothing of shape is orderly as far as its way of making rows is. -/
theorem protocol_orderly {advance : CursorAction (Node own input) (Option Row)}
    (advances : Behaves (Good dictionary names bound (fun _ _ => True) below) advance fun row? =>
      ∀ row ∈ row?, row.Shaped dictionary) (context : Context) (tap : String) :
    (protocol context tap inner advance).Orderly dictionary names bound
      (InOrder bound (fun _ _ => True) below) where
  openPass := proceeds_open_pass orderly fun _ _ _ => trivial
  next := by
    refine proceeds_bind (behaves_check .next) fun _ _ => ?_
    refine proceeds_bind (behaves_reading (tap_orderly context tap)) fun _ _ => ?_
    refine proceeds_bind (proceeds_on_failure advances
      (proceeds_abort orderly fun _ _ _ => trivial)) fun row? shaped => ?_
    cases row? with
    | none => exact proceeds_pure nofun
    | some row =>
        exact proceeds_bind (proceeds_set_phase .running fun _ _ _ => trivial) fun _ _ =>
          proceeds_pure shaped
  close := behaves_close orderly fun _ _ _ => trivial
  destroy := proceeds_destroy orderly (fun _ _ _ => trivial) fun _ _ _ => trivial
  openBindings := behaves_open_bindings orderly
  nextBindings := behaves_next_bindings orderly
  closeBindings := behaves_close_bindings orderly

end OverInput

end Node

section Operators

variable {input : Type} {dictionary : Dictionary} {names : List String}
  {bound : Bindings → Prop} {below : input → Prop} {inner : Protocol input}
  (orderly : inner.Orderly dictionary names bound below)
  (shapes : ∀ bindings, bound bindings → bindings.Shaped dictionary) {inputType : RowType}
  (registered : inputType.Registered dictionary)

include orderly shapes registered

theorem Filter.protocol_orderly {predicate : Expr} (within : predicate.Within inputType.width)
    (reaches : ∀ bindings, bound bindings → predicate.Reaches bindings) (context : Context) :
    (Filter.protocol context inputType predicate inner).Orderly dictionary names bound
      (Node.InOrder bound (fun _ _ => True) below) := by
  have accepts {row : Row} (shaped : row.Shaped dictionary)
      (own : row.type.same inputType = true) :
      Behaves (Node.Good dictionary names bound (fun _ _ => True) below)
        (Filter.accepts context predicate row) fun _ => True := by
    refine proceeds_look fun node held => ?_
    rw [← shaped.width_eq registered own] at within
    exact proceeds_bind (behaves_reading (row.eval_orderly shaped (shapes _ held.bindings) context
      within (reaches _ held.bindings))) fun _ _ => proceeds_pure trivial
  have searches (bound' : Nat) :
      Behaves (Node.Good dictionary names bound (fun _ _ => True) below)
        (Filter.search context inputType predicate inner bound') fun row? =>
          ∀ row ∈ row?, row.Shaped dictionary := by
    induction bound' with
    | zero => exact proceeds_pure nofun
    | succ bound' induction =>
        refine proceeds_bind (Node.behaves_pull orderly) fun row? shaped => ?_
        cases row? with
        | none => exact Node.proceeds_ended orderly fun _ _ _ => trivial
        | some row =>
            dsimp only
            split
            · exact proceeds_pure shaped
            next own =>
              have judges := accepts (shaped row rfl) (by simpa using own)
              refine proceeds_bind judges fun accepted _ => ?_
              split
              · exact proceeds_pure shaped
              · exact induction
  apply Node.protocol_orderly orderly
  refine proceeds_bind (behaves_reading (check_cancelled_orderly context)) fun _ _ => ?_
  exact proceeds_look fun node _ => searches _

theorem Project.protocol_orderly {outputType : RowType} {columns : List Expr}
    (typed : outputType.Registered dictionary) (long : columns.length = outputType.width)
    (within : ∀ column ∈ columns, column.Within inputType.width)
    (reaches : ∀ bindings, bound bindings → ∀ column ∈ columns, column.Reaches bindings)
    (context : Context) :
    (Project.protocol context inputType outputType columns inner).Orderly dictionary names bound
      (Node.InOrder bound (fun _ _ => True) below) := by
  apply Node.protocol_orderly orderly
  refine proceeds_bind (behaves_reading (check_cancelled_orderly context)) fun _ _ => ?_
  refine proceeds_bind (Node.behaves_pull orderly) fun row? shaped => ?_
  cases row? with
  | none => exact Node.proceeds_ended orderly fun _ _ _ => trivial
  | some row =>
      dsimp only
      split
      · exact proceeds_pure shaped
      next own =>
        have own : row.type.same inputType = true := by simpa using own
        refine proceeds_look fun node held => ?_
        rw [← (shaped row rfl).width_eq registered own] at within
        have makes : Behaves (Engine.Stocked dictionary names)
            (Engine.newProjection outputType row context node.bindings columns) fun made =>
              made.Shaped dictionary :=
          Engine.behaves_make fun id =>
            ⟨typed, long, fun column member =>
              ⟨within column member, reaches _ held.bindings column member⟩, shaped row rfl,
              shapes _ held.bindings⟩
        refine proceeds_bind (behaves_in_engine makes) fun made ofShape => ?_
        exact proceeds_pure fun _ same => by
          cases same
          exact ofShape

omit shapes registered in
theorem Limit.protocol_orderly (offset : Nat) (limit? : Option Nat) (context : Context) :
    (Limit.protocol context offset limit? inner).Orderly dictionary names bound
      (Node.InOrder bound (fun _ _ => True) below) := by
  have counts (step : Limit.Progress → Limit.Progress) :
      Behaves (Node.Good dictionary names bound (fun _ _ => True) below) (Node.changeOwn step)
        fun _ => True :=
    Node.proceeds_change_own step fun _ _ _ => trivial
  have skips (count : Nat) :
      Behaves (Node.Good dictionary names bound (fun _ _ => True) below) (Limit.skip inner count)
        fun row? => ∀ row ∈ row?, row.Shaped dictionary := by
    induction count with
    | zero =>
        refine proceeds_bind (Node.behaves_pull orderly) fun row? shaped => ?_
        cases row? with
        | none => exact Node.proceeds_ended orderly fun _ _ _ => trivial
        | some row => exact proceeds_bind (counts _) fun _ _ => proceeds_pure shaped
    | succ count induction =>
        refine proceeds_bind (Node.behaves_pull orderly) fun row? shaped => ?_
        cases row? with
        | none => exact Node.proceeds_ended orderly fun _ _ _ => trivial
        | some row => exact proceeds_bind (counts _) fun _ _ => induction
  have advances : Behaves (Node.Good dictionary names bound (fun _ _ => True) below)
      (Limit.advance context offset limit? inner) fun row? =>
        ∀ row ∈ row?, row.Shaped dictionary := by
    refine proceeds_bind (behaves_reading (check_cancelled_orderly context)) fun _ _ => ?_
    refine proceeds_look fun node _ => ?_
    dsimp only
    split
    · exact Node.proceeds_ended orderly fun _ _ _ => trivial
    · exact skips _
  have base := Node.protocol_orderly orderly advances context "limit.next"
  exact { base with openPass := proceeds_bind base.openPass fun _ _ => counts _ }

end Operators

namespace Scan

variable {dictionary : Dictionary} {names : List String} {bound : Bindings → Prop}

/-- The rows to give are shaped and the bindings to deliver are admissible. -/
structure InOrder (dictionary : Dictionary) (bound : Bindings → Prop) (scan : Scan) : Prop where
  pending : ∀ row ∈ scan.pending, row.Shaped dictionary
  source : scan.source.All bound

theorem behaves_check (call : Call) :
    Behaves (Ordered dictionary names (InOrder dictionary bound)) (check call) fun _ => True :=
  proceeds_look fun scan _ => behaves_phase_check call scan.phase

theorem behaves_change {call : Call} {step : Scan → Scan}
    (keeps : ∀ scan, InOrder dictionary bound scan → InOrder dictionary bound (step scan)) :
    Behaves (Ordered dictionary names (InOrder dictionary bound))
      (do
        check call
        CursorAction.change step) fun _ => True :=
  proceeds_bind (behaves_check call) fun _ _ => proceeds_change keeps

theorem protocol_orderly {load : Action Engine (List Row)}
    (loads : Behaves (Engine.Stocked dictionary names) load fun rows =>
      ∀ row ∈ rows, row.Shaped dictionary) (context : Context) :
    (protocol context load).Orderly dictionary names bound (InOrder dictionary bound) where
  openPass := by
    refine proceeds_bind (behaves_check .openPass) fun _ _ => ?_
    refine proceeds_bind (behaves_reading (tap_orderly context "scan.open")) fun _ _ => ?_
    refine proceeds_bind (behaves_in_engine loads) fun rows shaped => ?_
    exact proceeds_change fun _ held => { held with pending := shaped }
  next := by
    refine proceeds_bind (behaves_check .next) fun _ _ => ?_
    refine proceeds_bind (proceeds_on_failure
      (behaves_reading (check_cancelled_orderly context))
      (proceeds_change fun _ held => { held with pending := nofun })) fun _ _ => ?_
    refine proceeds_bind (behaves_reading (tap_orderly context "scan.next")) fun _ _ => ?_
    refine proceeds_look fun scan held => ?_
    have shaped := held.pending
    revert shaped
    cases scan.pending with
    | nil =>
        intro _
        exact proceeds_bind (proceeds_change fun _ held => { held with }) fun _ _ =>
          proceeds_pure nofun
    | cons row rest =>
        intro shaped
        obtain ⟨own, others⟩ := List.forall_mem_cons.mp shaped
        refine proceeds_bind (proceeds_change fun _ held => { held with pending := others })
          fun _ _ => proceeds_pure fun _ same => ?_
        cases same
        exact own
  close := behaves_change fun _ held => { held with pending := nofun }
  destroy := behaves_change fun _ held => { held with pending := nofun }
  openBindings := behaves_change fun _ held =>
    { held with source := BindingSource.all_open_all held.source }
  nextBindings := by
    refine proceeds_bind (behaves_check .nextBindings) fun _ _ => proceeds_look fun scan held => ?_
    obtain ⟨delivered, rest⟩ := BindingSource.all_next held.source
    exact proceeds_bind (proceeds_change fun _ held => { held with source := rest }) fun _ _ =>
      proceeds_pure delivered
  closeBindings := behaves_change fun _ held =>
    { held with source := BindingSource.all_close held.source }

theorem behaves_instead_of {result : Type} {holds : result → Prop} (call : LeafCall)
    {action : CursorAction Scan result}
    (behaves : Behaves (Ordered dictionary names (InOrder dictionary bound)) action holds) :
    Behaves (Ordered dictionary names (InOrder dictionary bound)) (insteadOf call action) holds :=
  proceeds_bind (behaves_in_engine (Engine.behaves_note call)) fun _ _ =>
    proceeds_bind (behaves_in_engine (Engine.behaves_inject_fault call)) fun _ _ => behaves

theorem behaves_after (call : LeafCall) {action : CursorAction Scan Unit}
    (behaves : Behaves (Ordered dictionary names (InOrder dictionary bound)) action fun _ => True) :
    Behaves (Ordered dictionary names (InOrder dictionary bound)) (after call action)
      fun _ => True :=
  proceeds_bind (behaves_in_engine (Engine.behaves_note call)) fun _ _ =>
    proceeds_bind behaves fun _ _ => behaves_in_engine (Engine.behaves_inject_fault call)

theorem probed_orderly {inner : Protocol Scan}
    (orderly : inner.Orderly dictionary names bound (InOrder dictionary bound)) :
    (probed inner).Orderly dictionary names bound (InOrder dictionary bound) where
  openPass := behaves_instead_of .openPass orderly.openPass
  next := behaves_instead_of .next orderly.next
  close := behaves_after .close orderly.close
  destroy := behaves_after .destroy orderly.destroy
  openBindings := behaves_instead_of .openBindings orderly.openBindings
  nextBindings := behaves_instead_of .nextBindings orderly.nextBindings
  closeBindings := behaves_instead_of .closeBindings orderly.closeBindings

end Scan

end QueryExec
