/-!
Outlines of plans: a name, labelled attributes and the outlines of the inputs. Each level is
written two blanks further in.
-/

namespace QueryExec

namespace Outline

inductive Label
  | aggregators
  | groupingOption
  | inputType
  | outputType
  | predicate
  | projections
  | table
  | limit
  | offset
  | rowCount
  | assignments
deriving DecidableEq, Repr

def Label.name : Label → String
  | aggregators => "aggregators"
  | groupingOption => "grouping_option"
  | inputType => "input_type"
  | outputType => "output_type"
  | predicate => "predicate"
  | projections => "projections"
  | table => "table"
  | limit => "limit"
  | offset => "offset"
  | rowCount => "row_count"
  | assignments => "assignments"

def Label.all : List Label :=
  [aggregators, groupingOption, inputType, outputType, predicate, projections, table, limit,
    offset, rowCount, assignments]

def Label.ofName? (name : String) : Option Label :=
  all.find? fun label => label.name = name

end Outline

inductive Outline
  | node (name : String) (attributes : List (Outline.Label × String)) (inputs : List Outline)

namespace Outline

/-- The first attribute with a label. -/
def get? (label : Label) : Outline → Option String
  | node _ attributes _ => (attributes.find? fun labelled => labelled.1 = label).map Prod.snd

def indent (level : Nat) : String :=
  String.ofList (List.replicate (2 * level) ' ')

mutual

def renderAt (level : Nat) : Outline → String
  | node name attributes inputs =>
      indent level ++ name ++ "\n" ++
        String.join (attributes.map fun labelled =>
          indent (level + 1) ++ labelled.1.name ++ ": " ++ labelled.2 ++ "\n") ++
        renderEach (level + 1) inputs

def renderEach (level : Nat) : List Outline → String
  | [] => ""
  | input :: rest => renderAt level input ++ renderEach level rest

end

def render (outline : Outline) : String :=
  renderAt 0 outline

/-- A list in brackets. -/
def listText (items : List String) : String :=
  "[" ++ ", ".intercalate items ++ "]"

end Outline

end QueryExec
