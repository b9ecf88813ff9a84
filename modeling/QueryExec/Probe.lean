import QueryExec.Table

/-!
A probe on the storage boundary: it logs every call on a leaf and every row lock, and makes
chosen calls fail.
-/

namespace QueryExec

inductive LeafCall
  | openPass
  | next
  | close
  | destroy
  | openBindings
  | nextBindings
  | closeBindings
  | cancelBindings
  | lock
deriving DecidableEq, Repr

namespace LeafCall

def name : LeafCall → String
  | openPass => "open"
  | next => "next"
  | close => "close"
  | destroy => "destroy"
  | openBindings => "open_bindings"
  | nextBindings => "next_bindings"
  | closeBindings => "close_bindings"
  | cancelBindings => "cancel_bindings"
  | lock => "lock"

def all : List LeafCall :=
  [openPass, next, close, destroy, openBindings, nextBindings, closeBindings, cancelBindings, lock]

def ofName? (name : String) : Option LeafCall :=
  all.find? fun call => call.name = name

end LeafCall

/-- Calls are numbered from one for each name; a number listed under its name is a fault. -/
structure Probe where
  faults : Table LeafCall (List Nat) := {}
  made : Table LeafCall Nat := {}
  log : List LeafCall := []

namespace Probe

def count (probe : Probe) (call : LeafCall) : Nat :=
  (probe.made.get? call).getD 0

def note (probe : Probe) (call : LeafCall) : Probe :=
  { probe with
    made := probe.made.set call (probe.count call + 1)
    log := probe.log ++ [call] }

/-- Whether the call that was noted last under its name must fail. -/
def mustFail (probe : Probe) (call : LeafCall) : Bool :=
  ((probe.faults.get? call).getD []).contains (probe.count call)

end Probe

end QueryExec
