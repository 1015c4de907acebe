import SqlPlan.Document.Fields

/-!
# Documents

What the formats of documents have in common: texts, flags, lists, mappings and structures.
-/

namespace SqlPlan

/-- A format of documents, by the readings that it has for the basic kinds of data. -/
class Document (δ : Type) where
  text? : δ → Option String
  flag? : δ → Option Bool
  /-- The name of an alternative without contents. -/
  name? : δ → Option String
  items? : δ → Option (List δ)
  /-- The entries of a mapping from texts. -/
  entries? : δ → Option (List (String × δ))
  /-- The fields of a structure. -/
  record? : δ → Option (Record δ)

namespace Document

variable {δ ε α : Type} [Document δ]

def asText : Reader δ ε String := .ofOption text?

def asFlag : Reader δ ε Bool := .ofOption flag?

/-- An alternative without contents, by its name. -/
def asOneOf (ofName? : String → Option α) : Reader δ ε α := .ofOption fun doc => (name? doc).bind ofName?

def asListOf (read : Reader δ ε α) : Reader δ ε (List α) := fun doc =>
  match items? doc with
  | none => .error .malformed
  | some docs => Reader.all read docs

/-- The entries of a mapping whose keys are the names of alternatives. -/
def asMapOf {κ : Type} (ofName? : String → Option κ) (read : Reader δ ε α) : Reader δ ε (List (κ × α)) := fun doc =>
  match entries? doc with
  | none => .error .malformed
  | some entries =>
    Reader.all (fun (entry : String × δ) => do
      let key ← Reader.ofOption ofName? entry.1
      let value ← read entry.2
      return (key, value)) entries

def asStructure (fields : Fields δ ε α) : Reader δ ε α := fun doc =>
  match record? doc with
  | none => .error .malformed
  | some record => fields.run record

end Document

end SqlPlan
