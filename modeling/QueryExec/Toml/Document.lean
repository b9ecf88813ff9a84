import QueryExec.Table
import QueryExec.Toml.Reader

/-!
TOML documents: how lines, headers and dotted keys build one tree of tables. A key is defined
once; a header may not reopen a table, and a dotted key may not extend a table that a header
made.
-/

namespace QueryExec.Toml

/-- A table is implicit while only longer paths mention it, and dotted when a dotted key made
it. -/
inductive Item
  | value (content : Value)
  | table (implicit dotted : Bool) (entries : List (String × Item))
  | tables (members : List (List (String × Item)))

abbrev Entries : Type := List (String × Item)

namespace Entries

def get? (entries : Entries) (key : String) : Option Item :=
  (entries.find? fun entry => entry.1 = key).map Prod.snd

def remove (entries : Entries) (key : String) : Entries :=
  entries.filter fun entry => entry.1 ≠ key

/-- Replaces the item of a key, or adds it at the end. -/
def put (entries : Entries) (key : String) (item : Item) : Entries :=
  Table.place key item entries

/-- Follows a path and changes the table at its end. Missing tables on the way are made; of a
list of tables the last one is entered. -/
def descend (dotted : Bool) (change : (isDotted : Bool) → Entries → Option Entries) :
    List String → (isDotted : Bool) → Entries → Option Entries
  | [], isDotted, entries => change isDotted entries
  | key :: path, _, entries =>
      match entries.get? key with
      | none => do
          let inner ← descend dotted change path dotted []
          some (entries.put key (.table true dotted inner))
      | some (.table implicit innerDotted inner) =>
          if dotted && !implicit then none
          else do
            let changed ← descend dotted change path innerDotted inner
            some (entries.put key (.table implicit innerDotted changed))
      | some (.tables members) =>
          match members.getLast? with
          | none => none
          | some last => do
              let changed ← descend dotted change path false last
              some (entries.put key (.tables (members.dropLast ++ [changed])))
      | some (.value _) => none

/-- Adds a key with a value that is not there yet. -/
def define (path : List String) (key : String) (content : Value) (entries : Entries) :
    Option Entries :=
  descend true (fun isDotted inner =>
    if isDotted == path.isEmpty then none
    else
      match inner.get? key with
      | none => some (inner.put key (.value content))
      | some _ => none) path false entries

/-- The keys of an inline table are defined like those of a table. -/
def ofInline (entries : List (List String × Value)) : Option Entries :=
  entries.foldlM (fun before entry => before.define entry.1.dropLast (entry.1.getLastD "") entry.2)
    []

end Entries

/-- Inline tables hold no key twice, at any depth of nesting. -/
def Value.isValid : Value → Bool
  | .array items => items.attach.all fun ⟨item, _⟩ => item.isValid
  | .inline entries =>
      (Entries.ofInline entries).isSome && entries.attach.all fun ⟨entry, _⟩ => entry.2.isValid
  | _ => true
termination_by value => sizeOf value
decreasing_by
  · rename_i member
    have smaller := List.sizeOf_lt_of_mem member
    simp only [array.sizeOf_spec]
    omega
  · rename_i member
    have smaller := List.sizeOf_lt_of_mem member
    have inside : sizeOf entry.2 < sizeOf entry := by
      rcases entry with ⟨path, content⟩
      simp only [Prod.mk.sizeOf_spec]
      omega
    simp only [inline.sizeOf_spec]
    omega

/-- The tables read so far, and the table that the lines now go into. -/
structure Draft where
  root : Entries := []
  path : List String := []
  isMember : Bool := false
  current : Entries := []

namespace Draft

/-- Puts the current table where its header says. -/
def finish (draft : Draft) : Option Entries :=
  match draft.path.getLast? with
  | none => some draft.current
  | some key =>
      Entries.descend false (fun _ parent =>
        match draft.isMember, parent.get? key with
        | true, none => some (parent.put key (.tables [draft.current]))
        | true, some (.tables members) =>
            some (parent.put key (.tables (members ++ [draft.current])))
        | false, none => some (parent.put key (.table false false draft.current))
        | false, some (.table true _ _) => some (parent.put key (.table false false draft.current))
        | _, _ => none) draft.path.dropLast false draft.root

/-- What stands under a path before its header: a table that only longer paths mention, or
nothing. -/
def opened (path : List String) : Entries → Option Entries
  | entries =>
      match path with
      | [] => none
      | [key] =>
          match entries.get? key with
          | none => some []
          | some (.table true false inner) => some inner
          | some _ => none
      | key :: rest =>
          match entries.get? key with
          | none => some []
          | some (.table _ _ inner) => opened rest inner
          | some (.tables members) => (members.getLast?).bind (opened rest)
          | some (.value _) => none

/-- A header of a single table. -/
def enter (draft : Draft) (path : List String) : Option Draft := do
  let root ← draft.finish
  let current ← opened path root
  let key ← path.getLast?
  let remaining ←
    Entries.descend false (fun _ parent => some (parent.remove key)) path.dropLast false root
  some { root := remaining, path, current }

/-- A header of one more table in a list of tables. -/
def enterMember (draft : Draft) (path : List String) : Option Draft := do
  let root ← draft.finish
  let key ← path.getLast?
  let prepared ←
    Entries.descend false (fun _ parent =>
      match parent.get? key with
      | none => some (parent.put key (.tables []))
      | some (.tables _) => some parent
      | some _ => none) path.dropLast false root
  some { root := prepared, path, isMember := true }

def define (draft : Draft) (path : List String) (content : Value) : Option Draft := do
  let key ← path.getLast?
  let current ← draft.current.define path.dropLast key content
  some { draft with current }

end Draft

open Reader

def header (draft : Draft) : Reader Draft := do
  expect '['
  if (← peek) = some '[' then
    expect '['
    let path ← dottedKey
    expectAll [']', ']']
    restOfLine
    (draft.enterMember path : Option Draft)
  else
    let path ← dottedKey
    expect ']'
    restOfLine
    (draft.enter path : Option Draft)

def keyValue (draft : Draft) : Reader Draft := do
  let path ← dottedKey
  expect '='
  spaces
  let content ← value depthLimit
  restOfLine
  if content.isValid then (draft.define path content : Option Draft) else failure

/-- Reads line after line up to the end of the text; `bound` exceeds their number. -/
def lines : (bound : Nat) → Draft → Reader Draft
  | 0, _ => failure
  | bound + 1, draft => do
      spaces
      match ← peek with
      | none => pure draft
      | some '#' => do
          comment
          endOfLine
          lines bound draft
      | some '[' => lines bound (← header draft)
      | some first =>
          if first = '\n' ∨ first = '\r' then
            lineBreak
            lines bound draft
          else lines bound (← keyValue draft)

/-- The top level of a document. A byte order mark before it is skipped. -/
def read (text : String) : Option Entries := do
  let characters :=
    match text.toList with
    | first :: rest => if first.toNat = 0xFEFF then rest else first :: rest
    | [] => []
  let (draft, _) ← (lines (characters.length + 1) {}).run characters
  draft.finish

end QueryExec.Toml
