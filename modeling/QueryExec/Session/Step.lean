import QueryExec.Session.Claims
import QueryExec.Session.Reply

/-!
What each command does to a session and what it replies. A command that fails changes what it had
changed before the failure and names nothing. Cursor calls reply their failures, since the cursor
has a phase to tell afterwards.
-/

namespace QueryExec.Session

def newContext (settings : SettingsSource) (catalog? : Option CatalogSource) :
    SessionAction Reply := do
  let settings ← Action.ofExcept settings.build
  let catalog ←
    match catalog? with
    | some source => Action.ofExcept source.build
    | none => pure (← get).catalog
  let id ← inEngine Engine.freshId
  modify fun session => { session with context := { id, catalog, settings } }
  pure .done

def diagnostics (session : Session) : Diagnostics :=
  session.engine.journal.of session.context

def cancel : SessionAction Reply := do
  let context := (← get).context
  inJournal (modify fun journal => journal.cancel context)
  pure .done

def cancellation : SessionAction Reply := do
  let session ← get
  match ← (inJournal session.context.checkCancelled).attempt with
  | .ok _ => pure (.cancellation session.diagnostics.cancelled (.ok ()))
  | .error error => pure (.cancellation session.diagnostics.cancelled (.error error))

def tapCounts (session : Session) : Reply :=
  .tapCounts (session.diagnostics.taps.report.map fun entry => (entry.1, entry.2.count))

/-- The calls logged since the log was last taken. -/
def takeLeafLog : SessionAction Reply := do
  let session ← get
  match session.engine.probe? with
  | none => pure (.calls none)
  | some probe => do
      let emptied := { probe with log := [] }
      set { session with engine := { session.engine with probe? := some emptied } }
      pure (.calls (some probe.log))

def newType (name : String) (columns : List ColumnType) : SessionAction Reply := do
  let type ← inEngine (Engine.newRowType columns)
  modify fun session => { session with types := session.types.set name type }
  pure (.rowType type.describe type.width)

def compareTypes (left right : String) : SessionAction Reply := do
  let first ← typeNamed left
  let second ← typeNamed right
  pure (.typeComparison (first.same second) (first.sameShape second))

def newRow (name type : String) (values : List Datum) : SessionAction Reply := do
  let rowType ← typeNamed type
  nameRow name (← inEngine (Engine.newRow rowType values))
  pure .done

/-- A stored row with the values that a row has now. -/
def copyRow (row name : String) : SessionAction Reply := do
  let source ← rowNamed row
  let values ← inJournal source.readAll
  nameRow name (← inEngine (Engine.newRow source.type values))
  pure .done

def projectRow (name base : String) (types : List ColumnType) (columns : List Blueprint)
    (bindings? : Option String) : SessionAction Reply := do
  let below ← rowNamed base
  let expressions ← columns.mapM buildExpression
  let bindings ← bindingsOrFresh bindings?
  let type ← inEngine (Engine.newRowType types)
  let context := (← get).context
  let row ← inEngine (Engine.newProjection type below context bindings expressions)
  nameRow name row
  modify fun session => { session with projections := session.projections.set name row }
  pure .done

/-- Which columns of a projected row have been computed. -/
def evaluated (name : String) : SessionAction Reply := do
  let row ← named Session.projections name
  let journal := (← get).engine.journal
  pure (.truths ((List.range row.type.width).map fun column =>
    (journal.remembered? row.id column).isSome))

def acquire (row name : String) : SessionAction Reply := do
  nameRow name (← rowNamed row)
  pure .done

def release (row : String) : SessionAction Reply := do
  let _ ← rowNamed row
  modify fun session => { session with rows := session.rows.erase row }
  pure .done

def holders (row : String) : SessionAction Reply := do
  let target ← rowNamed row
  pure (.holders ((← get).claims.holders target))

def sameRow (left right : String) : SessionAction Reply := do
  let first ← rowNamed left
  let second ← rowNamed right
  pure (.truth (first.same second))

def readRow (name : String) : SessionAction Reply := do
  let row ← rowNamed name
  pure (.rowContents row.type.describe (← inJournal row.readEach))

def setSlot (slot : String) (content : Option Row) : SessionAction Unit :=
  modify fun session => { session with slots := session.slots.set slot content }

def slotContent (slot : String) : SessionAction (Option Row) :=
  return ((← get).slots.get? slot).getD none

/-- Moves a named handle into a slot, releasing what the slot held. -/
def hold (slot row : String) : SessionAction Reply := do
  let held ← rowNamed row
  modify fun session => { session with rows := session.rows.erase row }
  setSlot slot (some held)
  pure .done

def lookAtSlot (slot : String) : SessionAction Reply := do
  match ← slotContent slot with
  | some row => return .slotContents (some (← inJournal row.readEach))
  | none => pure (.slotContents none)

/-- Moves what a slot holds to a name. -/
def takeSlot (slot name : String) : SessionAction Reply := do
  match ← slotContent slot with
  | some row => do
      setSlot slot none
      nameRow name row
      pure (.truth true)
  | none => pure (.truth false)

def insertRows (table : String) (rows : List RowSource) : SessionAction Reply := do
  let type := (← inEngine (Engine.storedTable table)).type
  rows.forM fun source => do
    let row ← buildRow type source
    inEngine (Engine.insertRow table row)
  pure .done

def tableContents (table : String) (name? : Option String) : SessionAction Reply := do
  let stored ← inEngine (Engine.storedTable table)
  let contents ← stored.rows.mapM fun row => inJournal row.readEach
  match name? with
  | some name =>
      stored.rows.zipIdx.forM fun (row, position) =>
        nameRow (name ++ Text.writeNatural position) row
  | none => pure ()
  pure (.tableContents stored.type.describe contents)

def newPlan (name : String) (source : PlanSource) : SessionAction Reply := do
  let plan ← buildPlan source
  modify fun session => { session with plans := session.plans.set name plan }
  pure (.planFacts plan.describe plan.rowType.describe plan.inputs.length plan.outline.render
    (PlanDetail.of plan))

def execute (source : PlanSource) (bindings? : Option String) : SessionAction Reply := do
  let plan ← buildPlan source
  let bindings ← bindingsOrFresh bindings?
  let context := (← get).context
  return .rows (← inEngine (plan.execute context bindings))

def executeEach (source : PlanSource) (names : List String) : SessionAction Reply := do
  let plan ← buildPlan source
  let bindings ← names.mapM bindingsNamed
  let context := (← get).context
  return .passes (← inEngine (plan.executeEach context bindings))

def update (source : UpdateSource) : SessionAction Reply := do
  let input ← buildPlan source.input
  let selector? ← source.selector?.mapM buildExpression
  let assignments ← source.assignments.foldlM (fun before (column, blueprint) => do
    Update.assign before column (← buildExpression blueprint))
    (List.replicate source.columns none)
  let update ← Action.ofExcept (Update.build input source.table selector? assignments)
  let bindings ← bindingsOrFresh source.bindings?
  let context := (← get).context
  let counts ← (inEngine (update.run context bindings)).attempt
  pure (.update update.table update.outline.render counts)

def newBindings (name : String) (parent? : Option String) (parameters : List (Nat × Datum))
    (rows : List (Nat × String)) : SessionAction Reply := do
  let id ← inEngine Engine.freshId
  let level ←
    match parent? with
    | some parent => pure (.nested id (← bindingsNamed parent))
    | none => pure (.root id)
  let withParameters := parameters.foldl (fun before (index, value) =>
    before.bindParameter index value) level
  let bindings ← rows.foldlM (fun before (index, row) => do
    pure (before.bindOuter index (← rowNamed row))) withParameters
  modify fun session => { session with bindings := session.bindings.set name bindings }
  pure .done

def lookup (name : String) (index : Nat) : SessionAction Reply := do
  let bindings ← bindingsNamed name
  let columns? ← (bindings.outerRow? index).mapM fun row => inJournal row.readEach
  pure (.lookup bindings.depth bindings.parent?.isSome (bindings.parameter? index) columns?)

def newSource (name : String) (choice : BindingsChoice) : SessionAction Reply := do
  let source ← sourceOf choice
  modify fun session => { session with sources := session.sources.set name source }
  pure .done

def delivered (bindings? : Option Bindings) : SessionAction (Option Delivered) := do
  let session ← get
  pure (bindings?.map fun bindings => ⟨session.nameOf? bindings⟩)

/-- How many bindings of a list are pending; a single binding is not counted. -/
def remaining? : BindingSource → Option Nat
  | .single _ _ => none
  | .several _ pending => some pending.length

def onSource (name : String) (command : SourceCommand) : SessionAction Reply := do
  let source ← named Session.sources name
  let (answer, changed) ←
    match command with
    | .openAll => pure (none, source.openAll)
    | .next =>
        let (bindings?, rest) := source.next
        pure (some (← delivered bindings?), rest)
    | .close => pure (none, source.close)
    | .cancel bindings => pure (none, source.cancel (← bindingsNamed bindings))
  modify fun session => { session with sources := session.sources.set name changed }
  pure (.source answer (remaining? changed))

def newCursor (name : String) (source : PlanSource) (choice : BindingsChoice) :
    SessionAction Reply := do
  let plan ← buildPlan source
  let bindings ← sourceOf choice
  let session ← get
  let state ← Action.ofExcept (plan.start session.engine.store bindings)
  let cursor : OpenCursor := ⟨plan, session.context, state⟩
  set { session with cursors := session.cursors.set name cursor }
  pure .done

/-- Runs a call on a named cursor and keeps the state it leaves. -/
def callCursor {result : Type} (name : String)
    (call : (cursor : OpenCursor) → CursorAction cursor.plan.Cursor result) :
    SessionAction result := do
  let cursor ← named Session.cursors name
  ExceptT.mk fun session =>
    let (outcome, state, engine) := (call cursor).run (cursor.state, session.engine)
    let after : OpenCursor := ⟨cursor.plan, cursor.context, state⟩
    (outcome, { session with engine, cursors := session.cursors.set name after })

/-- The answer of a call that only succeeds or fails. -/
def answer (outcome : Except QueryError Unit) : CursorResult :=
  match outcome with
  | .ok _ => .done
  | .error error => .failed error

/-- A row that a cursor gave: it may be kept under a name, and its columns may be read. -/
def rowResult (cursor : OpenCursor) (row : Row) (name? : Option String) (readColumns : Bool) :
    SessionAction CursorResult := do
  let columns? ← if readColumns then some <$> inJournal row.readEach else pure none
  match name? with
  | some name => nameRow name row
  | none => pure ()
  pure (.row (row.type.same cursor.plan.rowType) row.type.describe columns?)

def cursorResult (name : String) (command : CursorCommand) : SessionAction CursorResult := do
  match command with
  | .openPass => answer <$> callCursor name fun cursor => cursor.protocol.openPass.attempt
  | .close => answer <$> callCursor name fun cursor => cursor.protocol.close.attempt
  | .destroy => answer <$> callCursor name fun cursor => cursor.protocol.destroy.attempt
  | .openBindings => answer <$> callCursor name fun cursor => cursor.protocol.openBindings.attempt
  | .closeBindings => answer <$> callCursor name fun cursor => cursor.protocol.closeBindings.attempt
  | .look => pure .done
  | .cancelBindings bindings? => do
      let bindings ← bindingsOrFresh bindings?
      callCursor name fun cursor => modify (cursor.protocol.cancelBindings bindings)
      pure .done
  | .nextBindings => do
      match ← callCursor name fun cursor => cursor.protocol.nextBindings.attempt with
      | .ok bindings? => return .binding (← delivered bindings?)
      | .error error => pure (.failed error)
  | .drain => do
      match ← callCursor name fun cursor => cursor.protocol.drain.attempt with
      | .ok rows => pure (.rows rows)
      | .error error => pure (.failed error)
  | .next name? readColumns => do
      match ← callCursor name fun cursor => cursor.protocol.next.attempt with
      | .ok (some row) => do
          let cursor ← named Session.cursors name
          rowResult cursor row name? readColumns
      | .ok none => pure .atEnd
      | .error error => pure (.failed error)

def onCursor (name : String) (command : CursorCommand) : SessionAction Reply := do
  let result ← cursorResult name command
  let cursor ← named Session.cursors name
  pure (.cursor result cursor.phase)

def perform : Command → SessionAction Reply
  | .context settings catalog? => newContext settings catalog?
  | .cancel => cancel
  | .isCancelled => cancellation
  | .warn message => do
      inJournal ((← get).context.warn message)
      pure .done
  | .warnings => return .texts (← get).diagnostics.warnings
  | .cast value target => return .value (← inJournal ((← get).context.cast value target))
  | .taps => return (← get).tapCounts
  | .tapCount name => return .number ((← get).diagnostics.taps.get name).count
  | .lockedRows => return .number (← get).engine.store.lockedRows
  | .leafLog => takeLeafLog
  | .type name columns => newType name columns
  | .sameType left right => compareTypes left right
  | .row name type values => newRow name type values
  | .copyRow row name => copyRow row name
  | .projectRow name base types columns bindings? => projectRow name base types columns bindings?
  | .evaluated row => evaluated row
  | .acquire row name => acquire row name
  | .release row => release row
  | .holders row => holders row
  | .sameRow left right => sameRow left right
  | .readColumn row column => do
      let source ← rowNamed row
      return .value (← inJournal (source.read column))
  | .readRow row => readRow row
  | .describeRow row => do
      let source ← rowNamed row
      return .text (← inJournal source.describe)
  | .hold slot row => hold slot row
  | .slot slot => lookAtSlot slot
  | .takeSlot slot name => takeSlot slot name
  | .releaseSlot slot => do
      setSlot slot none
      pure .done
  | .createTable table type => do
      let rowType ← typeNamed type
      inEngine (Engine.createTable table rowType)
      pure .done
  | .insert table rows => insertRows table rows
  | .updateRow table old new => do
      let before ← rowNamed old
      let after ← rowNamed new
      inEngine (Engine.updateRow table before after)
      pure .done
  | .deleteRow table row => do
      let target ← rowNamed row
      inEngine (Engine.deleteRow table target)
      pure .done
  | .table table name? => tableContents table name?
  | .plan name source => newPlan name source
  | .execute source bindings? => execute source bindings?
  | .executeEach source names => executeEach source names
  | .update source => update source
  | .bindings name parent? parameters rows => newBindings name parent? parameters rows
  | .lookup bindings index => lookup bindings index
  | .isAncestor left right => do
      let first ← bindingsNamed left
      let second ← bindingsNamed right
      pure (.truth (first.covers second))
  | .newSource name choice => newSource name choice
  | .onSource source command => onSource source command
  | .cursor name source choice => newCursor name source choice
  | .onCursor cursor command => onCursor cursor command

/-- The outcome of a command and the session after it. -/
def step (session : Session) (command : Command) : Except Interrupt Reply × Session :=
  (perform command).run session

end QueryExec.Session
