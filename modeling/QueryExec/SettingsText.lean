import QueryExec.Error
import QueryExec.Settings
import QueryExec.Toml.Document

/-!
Settings as TOML text. A missing key has its default and an unknown key is ignored; a known key
must have a value of its type. Written text has all three keys.
-/

namespace QueryExec.Settings

open Toml

def truthOf (entries : Entries) (key : String) (default : Bool) : Option Bool :=
  match entries.get? key with
  | none => some default
  | some (.value (.boolean truth)) => some truth
  | some _ => none

def numberOf (entries : Entries) (key : String) (default : Nat) : Option Nat :=
  match entries.get? key with
  | none => some default
  | some (.value (.integer number)) => if 0 ≤ number then some number.toNat else none
  | some _ => none

def read? (text : String) : Option Settings := do
  let entries ← Toml.read text
  let castErrorsFatal ← truthOf entries "cast_errors_fatal" false
  let tapsEnabled ← truthOf entries "taps_enabled" false
  let maxWarnings ← numberOf entries "max_warnings" 64
  some { castErrorsFatal, tapsEnabled, maxWarnings }

def read (text : String) : Except QueryError Settings :=
  match read? text with
  | some settings => .ok settings
  | none => .error (.configuration .unreadableSettings)

def writeTruth (truth : Bool) : String :=
  if truth then "true" else "false"

/-- Text holds no number beyond 64-bit integers. -/
def write (settings : Settings) : Except QueryError String :=
  if (settings.maxWarnings : Int) ≤ Width.bigint.highest then
    .ok ("cast_errors_fatal = " ++ writeTruth settings.castErrorsFatal ++ "\n" ++
      "taps_enabled = " ++ writeTruth settings.tapsEnabled ++ "\n" ++
      "max_warnings = " ++ Text.writeNatural settings.maxWarnings ++ "\n")
  else .error (.configuration .unwritableSettings)

end QueryExec.Settings
