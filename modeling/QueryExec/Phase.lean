/-!
Phases of a cursor and the calls that a phase can refuse.
-/

namespace QueryExec

inductive Phase
  | closed
  | opening
  | running
  | closing
  | destroyed
deriving DecidableEq, Repr

namespace Phase

/-- An active cursor has been opened and neither closed nor destroyed since. -/
def isActive : Phase → Bool
  | opening | running | closing => true
  | closed | destroyed => false

def name : Phase → String
  | closed => "CLOSED"
  | opening => "OPENING"
  | running => "RUNNING"
  | closing => "CLOSING"
  | destroyed => "DESTROYED"

end Phase

/-- What a caller asked of a cursor in the wrong phase. -/
inductive Call
  | openPass
  | next
  | close
  | destroy
  | openBindings
  | nextBindings
  | closeBindings
  | other (description : String)
deriving DecidableEq, Repr

namespace Call

def describe : Call → String
  | openPass => "open"
  | next => "fetch the next row from"
  | close => "close"
  | destroy => "destroy"
  | openBindings => "open the bindings of"
  | nextBindings => "advance the bindings of"
  | closeBindings => "close the bindings of"
  | other description => description

/-- Passes and bindings start from a closed cursor, rows come from an active one, and a
destroyed cursor accepts nothing. -/
def legalIn (call : Call) (phase : Phase) : Bool :=
  match call with
  | openPass | nextBindings => phase == .closed
  | next | close => phase.isActive
  | destroy | openBindings | closeBindings => phase != .destroyed
  | other _ => true

end Call

end QueryExec
