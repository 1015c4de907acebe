import SqlPlan.DataType.Json
import SqlPlan.Node.Typing
import SqlPlan.Text.Digest
import SqlPlan.Value.Json

/-!
# Nodes in JSON documents

An operation is written as an object with its tag under the key `kind`, and read from such an object or from a list
that starts with the tag. Reading makes every node anew, so that the type of a node is never taken from a document.
-/

namespace SqlPlan

/-! ### Writing -/

namespace Op

/-- The name of an operation in documents. Families of operations share one. -/
def tag {α : Type} : Op α → String
  | .literal _ _ => "NonNullLiteral"
  | .null _ => "NullLiteral"
  | .field _ _ => "Field"
  | .cast _ _ => "Cast"
  | .binary _ _ _ => "Binary"
  | .unary _ _ => "Unary"
  | .simpleCase _ _ _ _ => "SimpleCase"
  | .searchedCase _ _ _ => "SearchedCase"
  | .truncate .date _ _ => "DateTruncate"
  | .truncate .timestamp _ _ => "TimestampTruncate"
  | .truncate .time _ _ => "TimeTruncate"
  | .dateFromYmd _ _ _ => "DateFromYMD"
  | .generate .dateNow => "DateNow"
  | .generate .timestampNow => "TimestampNow"
  | .generate .randomUuid => "RandomUUID"
  | .interval _ _ => "IntervalFromInteger"
  | .reduce _ _ _ => "Reduction"
  | .pick _ _ _ _ => "OrderedReduction"
  | .correlate _ _ _ _ => "Correlation"
  | .table _ _ => "UnboundTable"
  | .project _ _ => "Project"
  | .filter _ _ => "Filter"
  | .aggregate _ _ _ => "Aggregate"
  | .sort _ _ => "Sort"
  | .limit _ _ _ => "Limit"

/-- All tags; a document may give the place of a tag in this list instead of the tag. -/
def tags : List String :=
  ["NonNullLiteral", "NullLiteral", "Field", "Cast", "Binary", "Unary", "SimpleCase", "SearchedCase", "DateTruncate",
    "TimestampTruncate", "TimeTruncate", "DateFromYMD", "DateNow", "TimestampNow", "RandomUUID",
    "IntervalFromInteger", "Reduction", "OrderedReduction", "Correlation", "UnboundTable", "Project", "Filter",
    "Aggregate", "Sort", "Limit"]

end Op

namespace Node

mutual

def toJson : Node → Json
  | ⟨op, _, _⟩ => .object (("kind", .string op.tag) :: members op)

def members : Op Node → List (String × Json)
  | .literal value type => [("value", value.toJson), ("dtype", type.toJson)]
  | .null type => [("dtype", type.toJson)]
  | .field relation name => [("rel", toJson relation), ("name", .string name)]
  | .cast arg target => [("arg", toJson arg), ("to", target.toJson)]
  | .binary op left right => [("op", .string op.name), ("left", toJson left), ("right", toJson right)]
  | .unary op arg => [("op", .string op.name), ("arg", toJson arg)]
  | .simpleCase base conditions results default =>
    [("base", toJson base), ("cases", .array (listToJson conditions)), ("results", .array (listToJson results)),
      ("default", toJson default)]
  | .searchedCase conditions results default =>
    [("cases", .array (listToJson conditions)), ("results", .array (listToJson results)),
      ("default", toJson default)]
  | .truncate _ arg unit => [("arg", toJson arg), ("unit", unit.toJson)]
  | .dateFromYmd year month day => [("year", toJson year), ("month", toJson month), ("day", toJson day)]
  | .generate _ => []
  | .interval arg unit => [("arg", toJson arg), ("unit", unit.toJson)]
  | .reduce func arg condition =>
    ("func", .string func.name) :: ("arg", toJson arg) :: Json.ifPresent "where" (optionToJson condition)
  | .pick func arg condition order =>
    ("func", .string func.name) :: ("arg", toJson arg) ::
      (Json.ifPresent "where" (optionToJson condition) ++ Json.unlessEmpty "order_by" (keysToJson order))
  | .correlate left right mode condition =>
    ("left", toJson left) :: ("right", toJson right) :: ("how", .string mode.name) ::
      Json.ifPresent "where" (optionToJson condition)
  | .table name schema => [("name", .string name), ("schema", schema.toJson)]
  | .project parent values => [("parent", toJson parent), ("values", .array (namedToJson values))]
  | .filter parent predicates => [("parent", toJson parent), ("predicates", .array (listToJson predicates))]
  | .aggregate parent groups metrics =>
    ("parent", toJson parent) ::
      (Json.unlessEmpty "groups" (namedToJson groups) ++ [("metrics", .array (namedToJson metrics))])
  | .sort parent keys => [("parent", toJson parent), ("keys", .array (keysToJson keys))]
  | .limit parent count offset =>
    ("parent", toJson parent) ::
      (Json.ifPresent "n" (count.map fun n => .int n.toNat) ++ [("offset", .int offset.toNat)])

def listToJson : List Node → List Json
  | [] => []
  | n :: ns => toJson n :: listToJson ns

def optionToJson : Option Node → Option Json
  | none => none
  | some n => some (toJson n)

def keysToJson : List (SortKey Node) → List Json
  | [] => []
  | ⟨expr, ascending⟩ :: keys =>
    .object [("expr", toJson expr), ("ascending", .bool ascending)] :: keysToJson keys

def namedToJson : List (Named Node) → List Json
  | [] => []
  | ⟨name, value⟩ :: values => .object [("name", .string name), ("value", toJson value)] :: namedToJson values

end

/-- The text of a node, in which members stand in a fixed order. -/
def canonical (n : Node) : String := n.toJson.compact

/-- A digest of the text of a node. -/
def fingerprint (n : Node) : String := digest n.canonical

end Node

/-! ### Reading -/

def sortKeyFields {ε α : Type} (read : Reader Json ε α) : Fields Json ε (SortKey α) :=
  SortKey.mk <$> .required "expr" read <*> .optional "ascending" true Json.asBool

def namedFields {ε α : Type} (read : Reader Json ε α) : Fields Json ε (Named α) :=
  Named.mk <$> .required "name" Json.asString <*> .required "value" read

namespace Op

/-- The fields of an operation by its tag, given how to read its inputs. -/
def fields? {ε α : Type} (read : Reader Json ε α) (tag : String) : Option (Fields Json ε (Op α)) :=
  let input name : Fields Json ε α := .required name read
  let inputs name : Fields Json ε (List α) := .required name (Json.asList read)
  let type name : Fields Json ε DataType := .required name (DataType.ofJson .relaxed)
  let unit : Fields Json ε TemporalUnit := .required "unit" (TemporalUnit.ofJson .relaxed)
  let condition : Fields Json ε (Option α) := .optional "where" none (Json.asOption read)
  let keys : Reader Json ε (List (SortKey α)) := Json.asList (Json.asStructure (sortKeyFields read))
  let named : Reader Json ε (List (Named α)) := Json.asList (Json.asStructure (namedFields read))
  match tag with
  | "NonNullLiteral" => some (.literal <$> .required "value" (Value.ofJson .relaxed) <*> type "dtype")
  | "NullLiteral" => some (.null <$> type "dtype")
  | "Field" => some (.field <$> input "rel" <*> .required "name" Json.asString)
  | "Cast" => some (.cast <$> input "arg" <*> type "to")
  | "Binary" =>
    some (.binary <$> .required "op" (Json.asName .relaxed BinaryOp.ofName?) <*> input "left" <*> input "right")
  | "Unary" => some (.unary <$> .required "op" (Json.asName .relaxed UnaryOp.ofName?) <*> input "arg")
  | "SimpleCase" =>
    some (.simpleCase <$> input "base" <*> inputs "cases" <*> inputs "results" <*> input "default")
  | "SearchedCase" => some (.searchedCase <$> inputs "cases" <*> inputs "results" <*> input "default")
  | "DateTruncate" => some (.truncate .date <$> input "arg" <*> unit)
  | "TimestampTruncate" => some (.truncate .timestamp <$> input "arg" <*> unit)
  | "TimeTruncate" => some (.truncate .time <$> input "arg" <*> unit)
  | "DateFromYMD" => some (.dateFromYmd <$> input "year" <*> input "month" <*> input "day")
  | "DateNow" => some (pure (.generate .dateNow))
  | "TimestampNow" => some (pure (.generate .timestampNow))
  | "RandomUUID" => some (pure (.generate .randomUuid))
  | "IntervalFromInteger" => some (.interval <$> input "arg" <*> unit)
  | "Reduction" =>
    some (.reduce <$> .required "func" (Json.asName .relaxed Reduction.ofName?) <*> input "arg" <*> condition)
  | "OrderedReduction" =>
    some (.pick <$> .required "func" (Json.asName .relaxed Pick.ofName?) <*> input "arg" <*> condition <*>
      .optional "order_by" [] keys)
  | "Correlation" =>
    some (.correlate <$> input "left" <*> input "right" <*>
      .required "how" (Json.asName .relaxed CorrelationMode.ofName?) <*> condition)
  | "UnboundTable" =>
    some (.table <$> .required "name" Json.asString <*> .required "schema" (Schema.ofJson .relaxed))
  | "Project" => some (.project <$> input "parent" <*> .required "values" named)
  | "Filter" => some (.filter <$> input "parent" <*> inputs "predicates")
  | "Aggregate" =>
    some (.aggregate <$> input "parent" <*> .optional "groups" [] named <*> .required "metrics" named)
  | "Sort" => some (.sort <$> input "parent" <*> .required "keys" keys)
  | "Limit" =>
    some (.limit <$> input "parent" <*> .optional "n" none (Json.asOption Json.asUInt64) <*>
      .optional "offset" 0 Json.asUInt64)
  | _ => none

end Op

namespace Node

/-- Which documents are read as the tag of a node. -/
inductive Level where
  /-- The whole document: the tag is a name. -/
  | root
  /-- An input of another node: the tag may also be its place in the list of tags. -/
  | inner
deriving Repr, DecidableEq

def asTag {ε : Type} : Level → Reader Json ε String
  | _, .string tag => .ok tag
  | .inner, .int n => Reader.ofOption (fun n => if n < 0 then none else Op.tags[n.toNat]?) n
  | _, _ => .error .malformed

/-- The tag of a node and its fields. The tag is looked up ahead of all else. -/
def asTagged {ε : Type} (level : Level) : Reader Json ε (String × Record Json)
  | .object members =>
    match members.filter (·.1 == "kind") with
    | [(_, tag)] => do return (← asTag level tag, .named (members.filter (·.1 != "kind")))
    | _ => .error .malformed
  | .array (tag :: items) => do return (← asTag level tag, .positional items)
  | _ => .error .malformed

/-- Reads a node whose document is nested less than `bound` deep. -/
def ofNestedNode : Nat → Level → Reader Json NodeError Node
  | 0, _, _ => .error .malformed
  | bound + 1, level, doc => do
    let (tag, record) ← asTagged level doc
    match Op.fields? (ofNestedNode bound .inner) tag with
    | none => .error .malformed
    | some fields =>
      let op ← fields.run record
      (new? op).mapError .invalid

/-- Reads a node. -/
def ofJson : Reader Json NodeError Node := fun doc => ofNestedNode (doc.depth + 1) .root doc

/-- Reads a node from a text. Text behind the document is noticed after all faults of the document. -/
def ofText (text : String) : Except (ReadError NodeError) Node :=
  match Json.read? text with
  | none => .error .malformed
  | some (doc, rest) => do
    let n ← ofJson doc
    if Json.isBlankRest rest then .ok n else .error .malformed

end Node

end SqlPlan
