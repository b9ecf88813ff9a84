/-!
Settings of one execution.
-/

namespace QueryExec

structure Settings where
  /-- A failed conversion ends the evaluation; otherwise it is a warning and gives NULL. -/
  castErrorsFatal : Bool := false
  tapsEnabled : Bool := false
  /-- Later warnings are dropped. -/
  maxWarnings : Nat := 64
deriving DecidableEq, Repr

end QueryExec
