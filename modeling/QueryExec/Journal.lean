import QueryExec.Action
import QueryExec.Catalog
import QueryExec.Settings
import QueryExec.Taps

/-!
What executions leave behind while they run: for each context whether it was cancelled, its
warnings and its taps, and for each lazily computed row the columns computed so far. Elapsed
time is not measured, so contexts record zero microseconds.
-/

namespace QueryExec

/-- What all cursors of one execution share and none of them changes. -/
structure Context where
  id : Nat
  catalog : Catalog
  settings : Settings

structure Diagnostics where
  cancelled : Bool := false
  warnings : List String := []
  taps : Taps := {}

structure Journal where
  diagnostics : Table Nat Diagnostics := {}
  /-- Column values by row identity and column. -/
  computed : Table (Nat × Nat) Datum := {}

namespace Journal

def of (journal : Journal) (context : Context) : Diagnostics :=
  (journal.diagnostics.get? context.id).getD {}

def change (journal : Journal) (context : Context) (step : Diagnostics → Diagnostics) : Journal :=
  { journal with diagnostics := journal.diagnostics.set context.id (step (journal.of context)) }

def cancel (journal : Journal) (context : Context) : Journal :=
  journal.change context fun diagnostics => { diagnostics with cancelled := true }

/-- Keeps the warning unless the context has as many as it may keep. -/
def warn (journal : Journal) (context : Context) (message : String) : Journal :=
  journal.change context fun diagnostics =>
    if diagnostics.warnings.length < context.settings.maxWarnings then
      { diagnostics with warnings := diagnostics.warnings ++ [message] }
    else diagnostics

/-- Counts one call if the context has taps enabled. -/
def tap (journal : Journal) (context : Context) (name : String) : Journal :=
  if context.settings.tapsEnabled then
    journal.change context fun diagnostics =>
      { diagnostics with taps := diagnostics.taps.record name 0 }
  else journal

def remembered? (journal : Journal) (row column : Nat) : Option Datum :=
  journal.computed.get? (row, column)

def remember (journal : Journal) (row column : Nat) (value : Datum) : Journal :=
  { journal with computed := journal.computed.set (row, column) value }

end Journal

namespace Context

def warn (context : Context) (message : String) : Action Journal Unit :=
  modify fun journal => journal.warn context message

def tap (context : Context) (name : String) : Action Journal Unit :=
  modify fun journal => journal.tap context name

/-- Fails once the context has been cancelled. -/
def checkCancelled (context : Context) : Action Journal Unit := do
  if ((← get).of context).cancelled then Action.fail .cancelled

/-- A failed conversion stops the evaluation where such errors are fatal, and is a warning
elsewhere. -/
def recover (context : Context) (cause : CastError) : Action Journal Unit :=
  if context.settings.castErrorsFatal then Action.fail (.cast cause)
  else context.warn cause.message

/-- A value that does not convert becomes NULL unless such errors are fatal. -/
def cast (context : Context) (value : Datum) (target : Kind) : Action Journal Datum :=
  match context.catalog.convert value target with
  | .ok converted => pure converted
  | .error cause => do
      context.recover cause
      pure .null

end Context

end QueryExec
