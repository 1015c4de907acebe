import SqlPlan.Document.Basic

/-!
# YAML documents

A document is a tree of scalars, lists and mappings. A scalar keeps its text and whether it was written without
quotes; what the text stands for depends on what is read from it.
-/

namespace SqlPlan

inductive Yaml where
  | scalar (text : String) (plain : Bool)
  | list (items : List Yaml)
  | mapping (entries : List (Yaml × Yaml))

namespace Yaml

/-- What stands where nothing is written. -/
@[match_pattern] abbrev empty : Yaml := .scalar "" true

def flagOf? : String → Option Bool
  | "true" | "True" | "TRUE" => some true
  | "false" | "False" | "FALSE" => some false
  | _ => none

/-- The entries of a mapping, whose keys are scalars. -/
def textEntries? : List (Yaml × Yaml) → Option (List (String × Yaml))
  | [] => some []
  | (.scalar key _, value) :: entries => (textEntries? entries).map ((key, value) :: ·)
  | _ :: _ => none

/-- The entries of a mapping or of nothing. -/
def members? : Yaml → Option (List (String × Yaml))
  | .mapping entries => textEntries? entries
  | .empty => some []
  | _ => none

instance : Document Yaml where
  text?
    | .scalar text _ => some text
    | _ => none
  flag?
    | .scalar text true => flagOf? text
    | _ => none
  name?
    | .scalar text _ => some text
    | _ => none
  items?
    | .list items => some items
    | .empty => some []
    | _ => none
  entries? := members?
  record? doc := (members? doc).map .named

end Yaml

end SqlPlan
