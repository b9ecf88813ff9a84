import QueryExec.Proofs.Sharing.Sessions

/-!
Every command of a session keeps to the registry. A binding gets its identity before it is put
together, so its entry is made when all that it binds is known; a call on a cursor leaves a cursor
that stands beside itself again.
-/

namespace QueryExec

open QueryExec.Action QueryExec.Correspondence

namespace Bindings

variable {world : Registry} {row : Row}

theorem id_without_parameter : (bindings : Bindings) → (index : Nat) →
    (bindings.withoutParameter index).id = bindings.id
  | .root _, _ => rfl
  | .nested _ _, _ => rfl
  | .parameter _ _ rest, index => by
      unfold withoutParameter
      split <;> exact id_without_parameter rest index
  | .outer _ _ rest, index => id_without_parameter rest index

theorem parts_without_parameter : (bindings : Bindings) → (index : Nat) →
    (bindings.withoutParameter index).ownRows = bindings.ownRows ∧
      (bindings.withoutParameter index).parent? = bindings.parent?
  | .root _, _ => ⟨rfl, rfl⟩
  | .nested _ _, _ => ⟨rfl, rfl⟩
  | .parameter _ _ rest, index => by
      unfold withoutParameter
      split <;> exact parts_without_parameter rest index
  | .outer _ row rest, index =>
      have others := parts_without_parameter rest index
      ⟨congrArg (row :: ·) others.1, others.2⟩

theorem id_without_outer : (bindings : Bindings) → (index : Nat) →
    (bindings.withoutOuter index).id = bindings.id
  | .root _, _ => rfl
  | .nested _ _, _ => rfl
  | .parameter _ _ rest, index => id_without_outer rest index
  | .outer _ _ rest, index => by
      unfold withoutOuter
      split <;> exact id_without_outer rest index

theorem parts_without_outer : (bindings : Bindings) → (index : Nat) →
    (bindings.withoutOuter index).ownRows ⊆ bindings.ownRows ∧
      (bindings.withoutOuter index).parent? = bindings.parent?
  | .root _, _ => ⟨List.Subset.refl _, rfl⟩
  | .nested _ _, _ => ⟨List.Subset.refl _, rfl⟩
  | .parameter _ _ rest, index => parts_without_outer rest index
  | .outer _ row rest, index => by
      have others := parts_without_outer rest index
      unfold withoutOuter
      split
      · exact ⟨List.subset_cons_of_subset _ others.1, others.2⟩
      · exact ⟨List.cons_subset_cons _ others.1, others.2⟩

/-- A binding that is being put together: it has its identity, and all it claims has entries. -/
structure Draft (world : Registry) (id : Nat) (bindings : Bindings) : Prop where
  own : bindings.id = id
  rows : ∀ row ∈ bindings.ownRows, world.Has (.row row)
  parent : ∀ above ∈ bindings.parent?, world.Has (.bindings above)

variable {id : Nat} {bindings : Bindings}

theorem draft_root (world : Registry) (id : Nat) : (root id).Draft world id where
  own := rfl
  rows := fun _ none => (List.not_mem_nil none).elim
  parent := fun _ none => (Option.not_mem_none _ none).elim

theorem draft_nested (id : Nat) (has : world.Has (.bindings bindings)) :
    (nested id bindings).Draft world id where
  own := rfl
  rows := fun _ none => (List.not_mem_nil none).elim
  parent := fun _ same => Option.mem_some_iff.mp same ▸ has

theorem Draft.bind_parameter (draft : bindings.Draft world id) (index : Nat) (value : Datum) :
    (bindings.bindParameter index value).Draft world id :=
  have parts := parts_without_parameter bindings index
  { own := (id_without_parameter bindings index).trans draft.own
    rows := fun row among => draft.rows row (parts.1 ▸ among)
    parent := fun above among => draft.parent above (parts.2 ▸ among) }

theorem Draft.bind_outer (draft : bindings.Draft world id) (index : Nat)
    (has : world.Has (.row row)) : (bindings.bindOuter index row).Draft world id :=
  have parts := parts_without_outer bindings index
  { own := (id_without_outer bindings index).trans draft.own
    rows := List.forall_mem_cons.mpr ⟨has, fun row among => draft.rows row (parts.1 among)⟩
    parent := fun above among => draft.parent above (parts.2 ▸ among) }

theorem Draft.bind_parameters (parameters : List (Nat × Datum)) (draft : bindings.Draft world id) :
    (parameters.foldl (fun before bound => before.bindParameter bound.1 bound.2)
      bindings).Draft world id := by
  induction parameters generalizing bindings with
  | nil => exact draft
  | cons first rest induction => exact induction (draft.bind_parameter first.1 first.2)

/-- The entry of a draft under the next identity. -/
theorem Draft.has_issue (draft : bindings.Draft world world.next) :
    (world.issue (some (.bindings bindings)) none).Has (.bindings bindings) := by
  refine Registry.has_issue draft.own fun part among => ?_
  rcases List.mem_append.mp among with own | above
  · obtain ⟨row, bound, rfl⟩ := List.mem_map.mp own
    exact draft.rows row bound
  · obtain ⟨parent, bound, rfl⟩ := List.mem_map.mp above
    exact draft.parent parent (Option.mem_toList.mp bound)

end Bindings

/-- A step that leaves a state covered by some later registry, however it ends. -/
theorem registers_of_ends {state result : Type} {covers : Registry → state → Prop}
    {world : Registry} {action : Action state result}
    (ends : ∀ start, covers world start →
      EndsIn start action (fun _ after => ∃ later, world ≤ later ∧ covers later after)
        fun _ after => ∃ later, world ≤ later ∧ covers later after) :
    Registers covers world action fun _ _ => True := by
  rintro start _ ⟨rfl, held⟩
  have meets := (ends start held).2
  revert meets
  rcases action.run start with ⟨interrupt | value, after⟩
  · rintro ⟨later, grown, reached⟩
    exact ⟨rfl, later, grown, rfl, reached⟩
  · rintro ⟨later, grown, reached⟩
    exact ⟨later, grown, ⟨rfl, reached⟩, rfl, trivial⟩

namespace Session

variable {world : Registry} {result : Type} {gives : Registry → result → Prop}

/-- Looking up a name changes nothing. -/
theorem ends_named {object : Type} {table : Session → Table String object} {session : Session}
    {suits : object → Prop} (all : (table session).Every suits) (name : String) :
    EndsIn session (named table name) (fun value after => after = session ∧ suits value)
      fun _ after => after = session := by
  have found : EndsIn session (ofOption (.configuration (.unknownName name))
      ((table session).get? name)) (fun value after => after = session ∧ suits value)
      fun _ after => after = session := by
    cases known : (table session).get? name with
    | none => exact agree_fail _ rfl
    | some value => exact agree_pure value ⟨rfl, Table.every_get all known⟩
  exact found

section Bindings

variable {session : Session} {id : Nat}

/-- Binding rows by their names changes nothing either: by induction on the names. -/
theorem ends_bind_rows (rows : List (Nat × String))
    (named : session.rows.Every fun row => world.Has (.row row)) {bindings : Bindings}
    (draft : bindings.Draft world id) :
    EndsIn session (rows.foldlM (fun before bound => do
        pure (before.bindOuter bound.1 (← rowNamed bound.2))) bindings)
      (fun bindings after => after = session ∧ bindings.Draft world id)
      fun _ after => after = session := by
  induction rows generalizing bindings with
  | nil => exact agree_pure bindings ⟨rfl, draft⟩
  | cons first rest induction =>
      rw [List.foldlM_cons]
      have one : EndsIn session (do pure (bindings.bindOuter first.1 (← rowNamed first.2)))
          (fun bindings after => after = session ∧ bindings.Draft world id)
          fun _ after => after = session := by
        refine agree_bind (ends_named named first.2) ?_
        rintro row _ ⟨rfl, has⟩
        exact agree_pure _ ⟨rfl, draft.bind_outer first.1 has⟩
      refine agree_bind one ?_
      rintro bindings _ ⟨rfl, draft⟩
      exact induction draft

/-- The session after an identity was given out. -/
def issued (session : Session) : Session :=
  { session with engine := { session.engine with nextId := session.engine.nextId + 1 } }

theorem Registered.issued (registered : session.Registered world) (one? : Option Claimable) :
    session.issued.Registered (world.issue one? none) :=
  registered.grow Registry.le_issue registered.engine.issue

theorem Registered.issued_later (registered : session.Registered world) :
    ∃ later, world ≤ later ∧ session.issued.Registered later :=
  ⟨_, Registry.le_issue, registered.issued none⟩

/-- The rest of the command once the level of the binding is known. -/
theorem ends_bind_level (name : String) (parameters : List (Nat × Datum))
    (rows : List (Nat × String)) (registered : session.Registered world) {level : Bindings}
    (draft : level.Draft world world.next) :
    EndsIn session.issued
      (do
        let withParameters := parameters.foldl (fun before bound =>
          before.bindParameter bound.1 bound.2) level
        let bindings ← rows.foldlM (fun before bound => do
          pure (before.bindOuter bound.1 (← rowNamed bound.2))) withParameters
        modify fun session => { session with bindings := session.bindings.set name bindings }
        pure Reply.done)
      (fun _ after => ∃ later, world ≤ later ∧ after.Registered later)
      fun _ after => ∃ later, world ≤ later ∧ after.Registered later := by
  have named : session.issued.rows.Every fun row => world.Has (.row row) := registered.rows
  refine agree_then (fun bindings after => after = session.issued ∧ bindings.Draft world world.next)
    (agree_weaken (ends_bind_rows rows named (draft.bind_parameters parameters))
      (fun _ _ => id) ?_) ?_
  · rintro _ _ rfl
    exact registered.issued_later
  · rintro bindings _ ⟨rfl, draft⟩
    have registered := registered.issued (some (.bindings bindings))
    refine ⟨rfl, world.issue (some (.bindings bindings)) none, Registry.le_issue, ?_⟩
    exact { registered with
      bindings := Table.every_set registered.bindings name draft.has_issue }

end Bindings

theorem registers_new_bindings (name : String) (parent? : Option String)
    (parameters : List (Nat × Datum)) (rows : List (Nat × String)) :
    Registers Registered world (newBindings name parent? parameters rows) fun _ _ => True := by
  refine registers_of_ends fun session registered => ?_
  refine agree_then (fun id after => id = world.next ∧ after = session.issued)
    ⟨rfl, registered.engine.next, rfl⟩ ?_
  rintro _ _ ⟨rfl, rfl⟩
  cases parent? with
  | none => exact ends_bind_level name parameters rows registered (Bindings.draft_root world _)
  | some parent =>
      have named : session.issued.bindings.Every fun above => world.Has (.bindings above) :=
        registered.bindings
      refine agree_then (fun above after => after = session.issued ∧ world.Has (.bindings above))
        (agree_weaken (ends_named named parent) (fun _ _ => id) ?_) ?_
      · rintro _ _ rfl
        exact registered.issued_later
      · rintro above _ ⟨rfl, has⟩
        exact ends_bind_level name parameters rows registered (Bindings.draft_nested _ has)

theorem registers_lookup (name : String) (index : Nat) :
    Registers Registered world (lookup name index) fun _ _ => True := by
  refine registers_bind (registers_bindings_named name) fun later bindings _ _ => ?_
  have reading : Registers Registered later
      ((bindings.outerRow? index).mapM fun row => inJournal row.readEach) fun _ _ => True := by
    cases bindings.outerRow? index with
    | none => exact registers_pure trivial
    | some row => exact registers_replying (registers_in_journal row.readEach)
  exact registers_replying reading

theorem registers_new_source (name : String) (choice : BindingsChoice) :
    Registers Registered world (newSource name choice) fun _ _ => True :=
  registers_bind (registers_source_of choice) fun _ _ _ all =>
    registers_replying (registers_modify fun _ registered =>
      { registered with sources := Table.every_set registered.sources name all })

theorem registers_delivered (bindings? : Option Bindings) :
    Registers Registered world (delivered bindings?) fun _ _ => True :=
  registers_get fun _ _ => registers_pure trivial

theorem registers_on_source (name : String) (command : SourceCommand) :
    Registers Registered world (onSource name command) fun _ _ => True := by
  have storing : ∀ later (answer : Option (Option Delivered)) (changed : BindingSource),
      (changed.All fun one => later.Has (.bindings one)) → Registers Registered later
        (do
          modify fun session => { session with sources := session.sources.set name changed }
          pure (Reply.source answer (remaining? changed))) fun _ _ => True :=
    fun _ _ _ all => registers_replying (registers_modify fun _ registered =>
      { registered with sources := Table.every_set registered.sources name all })
  refine registers_then (fun later source => source.All fun one => later.Has (.bindings one))
    (registers_named (fun _ registered => registered.sources) name) fun later source _ all => ?_
  cases command with
  | openAll => exact storing later none _ (BindingSource.all_open_all all)
  | next =>
      refine registers_bind (registers_delivered source.next.1) fun last answer grown _ => ?_
      exact storing last (some answer) _
        ((BindingSource.all_next all).2.imp fun _ has => has.later grown)
  | close => exact storing later none _ (BindingSource.all_close all)
  | cancel bindings =>
      refine registers_bind (registers_bindings_named bindings) fun last cancelled grown _ => ?_
      exact storing last none _
        (BindingSource.all_cancel (all.imp fun _ has => has.later grown) cancelled)

section Cursors

theorem registers_new_cursor (name : String) (source : PlanSource) (choice : BindingsChoice) :
    Registers Registered world (newCursor name source choice) fun _ _ => True := by
  refine registers_bind (registers_build_plan source) fun _ plan _ entered => ?_
  refine registers_bind (registers_source_of choice) fun last bindings grown bound => ?_
  refine registers_get fun session registered => ?_
  let opened (state : plan.Cursor) : Session :=
    { session with cursors := session.cursors.set name ⟨plan, session.context, state⟩ }
  refine registers_then (fun later state => (opened state).Registered later)
    (registers_of_except fun state started => ?_) fun _ _ _ registered =>
      registers_replying (registers_set registered)
  have entered := Plan.entered_lasting _ _ plan grown entered
  exact { registered with
    cursors := Table.every_set registered.cursors name
      ⟨entered, Plan.start_enters session.context started entered bound⟩ }

/-- A call on a named cursor leaves a cursor that stands beside itself. -/
theorem registers_call_cursor (name : String)
    {call : (cursor : OpenCursor) → CursorAction cursor.plan.Cursor result}
    {given : Registry → result → result → Prop}
    (calls : ∀ world (cursor : OpenCursor),
      Correspond (registered.States (cursor.plan.Beside registered)) world (call cursor)
        (call cursor) given)
    (implies : ∀ later value, given later value value → gives later value) :
    Registers Registered world (callCursor name call) gives := by
  refine registers_bind (registers_cursor_named name) fun later cursor _ known => ?_
  rintro session _ ⟨rfl, covered⟩
  have ends := calls later cursor (cursor.state, session.engine) (cursor.state, session.engine)
    ⟨known.2, rfl, covered.engine⟩
  have ran : ∀ last, later ≤ last → ∀ state engine,
      registered.States (cursor.plan.Beside registered) last (state, engine) (state, engine) →
      ({ session with
        engine
        cursors := session.cursors.set name ⟨cursor.plan, cursor.context, state⟩ } :
          Session).Registered last := by
    intro last grown state engine states
    have grew := covered.grow grown states.2.2
    exact { grew with
      cursors := Table.every_set grew.cursors name
        ⟨Plan.entered_lasting _ _ cursor.plan grown known.1, states.1⟩ }
  change EndLater _ later _
    (((call cursor).run (cursor.state, session.engine)).1, ({ session with
      engine := ((call cursor).run (cursor.state, session.engine)).2.2
      cursors := session.cursors.set name ⟨cursor.plan, cursor.context,
        ((call cursor).run (cursor.state, session.engine)).2.1⟩ } : Session))
    (((call cursor).run (cursor.state, session.engine)).1, ({ session with
      engine := ((call cursor).run (cursor.state, session.engine)).2.2
      cursors := session.cursors.set name ⟨cursor.plan, cursor.context,
        ((call cursor).run (cursor.state, session.engine)).2.1⟩ } : Session))
  revert ends
  rcases (call cursor).run (cursor.state, session.engine) with ⟨interrupt | value, state, engine⟩
  · rintro ⟨_, last, grown, states⟩
    exact ⟨rfl, last, grown, rfl, ran last grown state engine states⟩
  · rintro ⟨last, grown, states, answered⟩
    exact ⟨last, grown, ⟨rfl, ran last grown state engine states⟩, rfl,
      implies last value answered⟩

theorem registers_row_result (cursor : OpenCursor) {row : Row} (name? : Option String)
    (readColumns : Bool) (has : world.Has (.row row)) :
    Registers Registered world (rowResult cursor row name? readColumns) fun _ _ => True := by
  have reading : Registers Registered world (some <$> inJournal row.readEach) fun _ _ => True :=
    registers_replying (registers_in_journal row.readEach)
  cases name? with
  | none =>
      cases readColumns with
      | false => exact registers_pure trivial
      | true => exact registers_bind reading fun _ _ _ _ => registers_pure trivial
  | some name =>
      have naming : ∀ later, world ≤ later →
          Registers Registered later (nameRow name row) fun _ _ => True :=
        fun later grown => registers_name_row name (has.later grown)
      cases readColumns with
      | false =>
          exact registers_then (fun _ _ => True) (registers_pure trivial) fun later _ grown _ =>
            registers_bind (naming later grown) fun _ _ _ _ => registers_pure trivial
      | true =>
          exact registers_bind reading fun later _ grown _ =>
            registers_bind (naming later grown) fun _ _ _ _ => registers_pure trivial

theorem registers_cursor_result (name : String) (command : CursorCommand) :
    Registers Registered world (cursorResult name command) fun _ _ => True := by
  have protocols (cursor : OpenCursor) :=
    cursor.plan.protocols_beside (Registry.registered_lawful cursor.context)
  cases command with
  | openPass =>
      exact registers_replying (registers_call_cursor name (fun world cursor =>
        correspond_attempt ((protocols cursor).openPass world)) fun _ _ _ => trivial)
  | close =>
      exact registers_replying (registers_call_cursor name (fun world cursor =>
        correspond_attempt ((protocols cursor).close world)) fun _ _ _ => trivial)
  | destroy =>
      exact registers_replying (registers_call_cursor name (fun world cursor =>
        correspond_attempt ((protocols cursor).destroy world)) fun _ _ _ => trivial)
  | openBindings =>
      exact registers_replying (registers_call_cursor name (fun world cursor =>
        correspond_attempt ((protocols cursor).openBindings world)) fun _ _ _ => trivial)
  | closeBindings =>
      exact registers_replying (registers_call_cursor name (fun world cursor =>
        correspond_attempt ((protocols cursor).closeBindings world)) fun _ _ _ => trivial)
  | look => exact registers_pure trivial
  | cancelBindings bindings? =>
      refine registers_bind (registers_bindings_or_fresh bindings?) fun _ bindings _ _ => ?_
      exact registers_replying (registers_call_cursor name (fun world cursor =>
        correspond_modify ((protocols cursor).cancelBindings bindings)) fun _ _ => id)
  | nextBindings =>
      refine registers_bind (registers_call_cursor name (fun world cursor =>
        correspond_attempt ((protocols cursor).nextBindings world)) fun _ _ _ => trivial)
        fun _ outcome _ _ => ?_
      cases outcome with
      | ok bindings? => exact registers_replying (registers_delivered bindings?)
      | error error => exact registers_pure trivial
  | drain =>
      refine registers_bind (registers_call_cursor name (fun world cursor =>
        correspond_attempt (correspond_drain (Registry.registered_lawful cursor.context)
          (protocols cursor))) fun _ _ _ => trivial) fun _ outcome _ _ => ?_
      cases outcome with
      | ok rows => exact registers_pure trivial
      | error error => exact registers_pure trivial
  | next name? readColumns =>
      refine registers_then (fun later outcome => ∀ row, outcome = .ok (some row) →
          later.Has (.row row)) (registers_call_cursor name (fun world cursor =>
        correspond_attempt ((protocols cursor).next world)) ?_) fun _ outcome _ has => ?_
      · rintro later (error | row?) alike row same
        · cases same
        · cases same
          cases alike with
          | some rows => exact rows.2
      · rcases outcome with error | _ | row
        · exact registers_pure trivial
        · exact registers_pure trivial
        · refine registers_bind (registers_cursor_named name) fun _ cursor grown _ => ?_
          exact registers_row_result cursor name? readColumns ((has row rfl).later grown)

theorem registers_on_cursor (name : String) (command : CursorCommand) :
    Registers Registered world (onCursor name command) fun _ _ => True :=
  registers_bind (registers_cursor_result name command) fun _ _ _ _ =>
    registers_replying (registers_cursor_named name)

end Cursors

/-- Every command keeps to the registry: one case for each. -/
theorem registers_perform (command : Command) :
    Registers Registered world (perform command) fun _ _ => True := by
  cases command with
  | context settings catalog? => exact registers_new_context settings catalog?
  | cancel => exact registers_get fun session _ => registers_replying (registers_in_journal _)
  | isCancelled => exact registers_cancellation
  | warn message => exact registers_get fun session _ => registers_replying (registers_in_journal _)
  | warnings => exact registers_get fun _ _ => registers_pure trivial
  | cast value target =>
      exact registers_get fun session _ => registers_replying (registers_in_journal _)
  | taps => exact registers_get fun _ _ => registers_pure trivial
  | tapCount name => exact registers_get fun _ _ => registers_pure trivial
  | lockedRows => exact registers_get fun _ _ => registers_pure trivial
  | leafLog => exact registers_take_leaf_log
  | type name columns => exact registers_new_type name columns
  | sameType left right =>
      exact registers_bind (registers_type_named left) fun _ _ _ _ =>
        registers_replying (registers_type_named right)
  | row name type values =>
      exact registers_bind (registers_type_named type) fun _ rowType _ _ =>
        registers_name_new_row name rowType values
  | copyRow row name =>
      refine registers_bind (registers_row_named row) fun _ source _ _ => ?_
      exact registers_bind (registers_in_journal source.readAll) fun _ values _ _ =>
        registers_name_new_row name source.type values
  | projectRow name base types columns bindings? =>
      exact registers_project_row name base types columns bindings?
  | evaluated row =>
      exact registers_then (fun _ _ => True) (registers_named (fun _ _ _ _ => trivial) row)
        fun _ _ _ _ => registers_get fun _ _ => registers_pure trivial
  | acquire row name =>
      exact registers_bind (registers_row_named row) fun _ _ _ has =>
        registers_replying (registers_name_row name has)
  | release row =>
      exact registers_bind (registers_row_named row) fun _ _ _ _ =>
        registers_replying (registers_forget_row row)
  | holders row =>
      exact registers_bind (registers_row_named row) fun _ _ _ _ =>
        registers_get fun _ _ => registers_pure trivial
  | sameRow left right =>
      exact registers_bind (registers_row_named left) fun _ _ _ _ =>
        registers_replying (registers_row_named right)
  | readColumn row column =>
      exact registers_bind (registers_row_named row) fun _ _ _ _ =>
        registers_replying (registers_in_journal _)
  | readRow row =>
      exact registers_bind (registers_row_named row) fun _ _ _ _ =>
        registers_replying (registers_in_journal _)
  | describeRow row =>
      exact registers_bind (registers_row_named row) fun _ _ _ _ =>
        registers_replying (registers_in_journal _)
  | hold slot row => exact registers_hold slot row
  | slot slot => exact registers_look_at_slot slot
  | takeSlot slot name => exact registers_take_slot slot name
  | releaseSlot slot =>
      exact registers_replying (registers_set_slot slot fun _ none => by cases none)
  | createTable table type =>
      exact registers_bind (registers_type_named type) fun _ rowType _ _ =>
        registers_replying (registers_in_engine (Engine.registers_create_table table rowType))
  | insert table rows => exact registers_insert_rows table rows
  | updateRow table old new =>
      refine registers_bind (registers_row_named old) fun _ before _ _ => ?_
      exact registers_bind (registers_row_named new) fun _ after _ _ =>
        registers_replying (registers_in_engine (Engine.registers_update_row table before after))
  | deleteRow table row =>
      exact registers_bind (registers_row_named row) fun _ target _ _ =>
        registers_replying (registers_in_engine (Engine.registers_delete_row table target))
  | table table name? => exact registers_table_contents table name?
  | plan name source => exact registers_new_plan name source
  | execute source bindings? => exact registers_execution source bindings?
  | executeEach source names => exact registers_executions source names
  | update source => exact registers_update source
  | bindings name parent? parameters rows =>
      exact registers_new_bindings name parent? parameters rows
  | lookup bindings index => exact registers_lookup bindings index
  | isAncestor left right =>
      exact registers_bind (registers_bindings_named left) fun _ _ _ _ =>
        registers_replying (registers_bindings_named right)
  | newSource name choice => exact registers_new_source name choice
  | onSource source command => exact registers_on_source source command
  | cursor name source choice => exact registers_new_cursor name source choice
  | onCursor cursor command => exact registers_on_cursor cursor command

end Session

end QueryExec
