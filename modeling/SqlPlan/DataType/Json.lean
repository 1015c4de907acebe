import SqlPlan.DataType.Basic
import SqlPlan.Json.Decode

/-!
# Types in JSON documents

A type without parameters is written as its name, any other as an object with its name as the only key.
-/

namespace SqlPlan

namespace Width

def digits : Width → String
  | .w8 => "8"
  | .w16 => "16"
  | .w32 => "32"
  | .w64 => "64"

end Width

namespace TemporalUnit

def toJson (u : TemporalUnit) : Json := .string u.name

def ofJson {ε : Type} (strictness : Strictness) : Reader Json ε TemporalUnit := Json.asName strictness ofName?

end TemporalUnit

namespace Primitive

def toJson : Primitive → Json
  | .boolean => .string "Boolean"
  | .int w => .string ("Int" ++ w.digits)
  | .uint w => .string ("UInt" ++ w.digits)
  | .float32 => .string "Float32"
  | .float64 => .string "Float64"
  | .decimal precision scale =>
    .object [("Decimal", .object [("precision", .int precision.toNat), ("scale", .int scale.toNat)])]
  | .string => .string "String"
  | .binary => .string "Binary"
  | .date => .string "Date"
  | .time => .string "Time"
  | .timestamp none => .object [("Timestamp", .object [])]
  | .timestamp (some zone) => .object [("Timestamp", .object [("timezone", .string zone)])]
  | .interval unit => .object [("Interval", .object [("unit", unit.toJson)])]
  | .json => .string "Json"
  | .uuid => .string "Uuid"
  | .null => .string "Null"
  | .unknown => .string "Unknown"

/-- The types without parameters, by their names. -/
def named? : String → Option Primitive
  | "Boolean" => some .boolean
  | "Int8" => some (.int .w8)
  | "Int16" => some (.int .w16)
  | "Int32" => some (.int .w32)
  | "Int64" => some (.int .w64)
  | "UInt8" => some (.uint .w8)
  | "UInt16" => some (.uint .w16)
  | "UInt32" => some (.uint .w32)
  | "UInt64" => some (.uint .w64)
  | "Float32" => some .float32
  | "Float64" => some .float64
  | "String" => some .string
  | "Binary" => some .binary
  | "Date" => some .date
  | "Time" => some .time
  | "Json" => some .json
  | "Uuid" => some .uuid
  | "Null" => some .null
  | "Unknown" => some .unknown
  | _ => none

end Primitive

/-- A column of a struct or a table; without a word about it, it may hold nulls. -/
def Column.fields {ε τ : Type} (type : Reader Json ε τ) : Fields Json ε (Column τ) :=
  Column.mk <$> .required "name" Json.asString <*> .required "data_type" type <*>
    .optional "nullable" true Json.asBool

namespace DataType

mutual

def toJson : DataType → Json
  | .primitive p => p.toJson
  | .array item => .object [("Array", item.toJson)]
  | .struct columns => .object [("Struct", .array (columnsToJson columns))]
  | .map key value => .object [("Map", .object [("key", key.toJson), ("value", value.toJson)])]

def columnsToJson : List (Column DataType) → List Json
  | [] => []
  | ⟨name, type, nullable⟩ :: columns =>
    .object [("name", .string name), ("data_type", type.toJson), ("nullable", .bool nullable)] ::
      columnsToJson columns

end

section

variable {ε : Type}

/-- Reads the alternative `name` with its contents, given how to read the types inside. -/
def alternative (strictness : Strictness) (inner : Reader Json ε DataType) (name : String)
    (contents : Option Json) : Except (ReadError ε) DataType :=
  match name with
  | "Decimal" =>
    Json.contents strictness
      (decimal <$> .required "precision" Json.asUInt8 <*> .required "scale" Json.asUInt8) contents
  | "Timestamp" =>
    Json.contents strictness (timestamp <$> .optional "timezone" none (Json.asOption Json.asString)) contents
  | "Interval" =>
    Json.contents strictness (interval <$> .required "unit" (TemporalUnit.ofJson strictness)) contents
  | "Array" => Json.soleContents (fun doc => (inner doc).map array) contents
  | "Struct" =>
    Json.soleContents
      (fun doc => (Json.asList (Json.asStructure (Column.fields inner)) doc).map struct) contents
  | "Map" =>
    Json.contents strictness (map <$> .required "key" inner <*> .required "value" inner) contents
  | name =>
    match Primitive.named? name with
    | none => .error .malformed
    | some p => (Json.noContents strictness contents).map fun () => .primitive p

/-- Reads a type whose document is nested less than `bound` deep. -/
def ofNested (strictness : Strictness) : Nat → Reader Json ε DataType
  | 0, _ => .error .malformed
  | bound + 1, doc => do
    let (name, contents) ← Json.asChoice doc
    alternative strictness (ofNested strictness bound) name contents

/-- Reads a type. -/
def ofJson (strictness : Strictness) : Reader Json ε DataType := fun doc =>
  ofNested strictness (doc.depth + 1) doc

end

end DataType

namespace Schema

/-- The columns of a table are the only field of their own structure. -/
def toJson (schema : Schema) : Json := .object [("fields", .array (DataType.columnsToJson schema))]

def ofJson {ε : Type} (strictness : Strictness) : Reader Json ε Schema :=
  Json.asStructure (.required "fields"
    (Json.asList (Json.asStructure (Column.fields (DataType.ofJson strictness)))))

end Schema

end SqlPlan
