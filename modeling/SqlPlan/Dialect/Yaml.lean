import SqlPlan.Dialect.Document
import SqlPlan.Dialect.Registry
import SqlPlan.Yaml.Reader

/-!
# Files of dialects

A file of dialects is a YAML document with a list of dialects under the key `dialects`. What is registered does not
depend on how a text is read: the reader of this file leaves out some of YAML, and any other one can take its place.
-/

namespace SqlPlan

/-- Reads a YAML text with a structure of given fields. -/
def Yaml.structure? {α : Type} (fields : Fields Yaml Unit α) (text : String) : Option α :=
  match (ofText? text).map (Document.asStructure fields) with
  | some (.ok a) => some a
  | _ => none

/-- Reads the dialects of a file that has no anchors, tags, directives or block scalars. -/
def Dialect.listOfYaml? (text : String) : Option (List Dialect) :=
  Yaml.structure? (.optional "dialects" [] (Document.asListOf ofDocument)) text

namespace DialectRegistry

/-- Registers the dialects of a file, and gives their names. -/
def registerYaml (text : String) : Registration (List String) := registerText Dialect.listOfYaml? text

/-- Registers the dialects of a file that may be unreadable. -/
def registerFile : Option String → Registration (List String) := registerContents Dialect.listOfYaml?

end DialectRegistry

end SqlPlan
