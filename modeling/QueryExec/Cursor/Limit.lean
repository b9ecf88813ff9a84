import QueryExec.Cursor.Node

/-!
The limit cursor: it drops the first rows of a pass and ends the pass after a number of rows,
closing an input that has more.
-/

namespace QueryExec.Limit

variable {input : Type}

/-- The rows dropped and given since the pass began. -/
structure Progress where
  skipped : Nat := 0
  emitted : Nat := 0

abbrev State (input : Type) : Type := Node Progress input

/-- Drops so many rows and gives the next one. -/
def skip (inner : Protocol input) : Nat → CursorAction (State input) (Option Row)
  | 0 => do
      match ← Node.pull inner with
      | none => do
          Node.finish inner
          pure none
      | some row => do
          Node.changeOwn fun progress => { progress with emitted := progress.emitted + 1 }
          pure (some row)
  | count + 1 => do
      match ← Node.pull inner with
      | none => do
          Node.finish inner
          pure none
      | some _ => do
          Node.changeOwn fun progress => { progress with skipped := progress.skipped + 1 }
          skip inner count

def advance (context : Context) (offset : Nat) (limit? : Option Nat) (inner : Protocol input) :
    CursorAction (State input) (Option Row) := do
  Node.checkCancelled context
  let progress := (← CursorAction.state).own
  if limit?.any (· ≤ progress.emitted) then
    Node.finish inner
    pure none
  else skip inner (offset - progress.skipped)

def protocol (context : Context) (offset : Nat) (limit? : Option Nat) (inner : Protocol input) :
    Protocol (State input) :=
  let base := Node.protocol context "limit.next" inner (advance context offset limit? inner)
  { base with
    openPass := do
      base.openPass
      Node.changeOwn fun _ => {} }

end QueryExec.Limit
