import SqlPlan.Json.Decode
import SqlPlan.Value.Basic

/-!
# Values in JSON documents

A value is written as its kind under the key `type` and its contents under the key `value`, or as a list of the two.
Floats that no JSON number can hold are written as their names.
-/

namespace SqlPlan.Value

def floatToJson (x : Float) : Json :=
  if x.isNaN then .string "NaN"
  else if x.isInf then .string (if isNegative x then "-Infinity" else "Infinity")
  else .float x

def tagged (kind : String) (contents : Json) : Json :=
  .object [("type", .string kind), ("value", contents)]

mutual

def toJson : Value → Json
  | .null => .object [("type", .string "Null")]
  | .boolean b => tagged "Boolean" (.bool b)
  | .int n => tagged "Int" (.int n.toInt)
  | .uint n => tagged "UInt" (.int n.toNat)
  | .float x => tagged "Float" (floatToJson x)
  | .decimal s => tagged "Decimal" (.string s)
  | .string s => tagged "String" (.string s)
  | .binary bytes => tagged "Binary" (.array (bytes.map fun b => .int b.toNat))
  | .date d => tagged "Date" (.string d.text)
  | .time t => tagged "Time" (.string t.text)
  | .timestamp t => tagged "Timestamp" (.string (t.text "T"))
  | .json s => tagged "Json" (.string s)
  | .array items => tagged "Array" (.array (itemsToJson items))

def itemsToJson : List Value → List Json
  | [] => []
  | v :: vs => toJson v :: itemsToJson vs

end

/-- The kinds of values. -/
inductive Tag where
  | null
  | boolean
  | int
  | uint
  | float
  | decimal
  | string
  | binary
  | date
  | time
  | timestamp
  | json
  | array
deriving Repr, DecidableEq

def Tag.ofName? : String → Option Tag
  | "Null" => some .null
  | "Boolean" => some .boolean
  | "Int" => some .int
  | "UInt" => some .uint
  | "Float" => some .float
  | "Decimal" => some .decimal
  | "String" => some .string
  | "Binary" => some .binary
  | "Date" => some .date
  | "Time" => some .time
  | "Timestamp" => some .timestamp
  | "Json" => some .json
  | "Array" => some .array
  | _ => none

section

variable {ε : Type}

/-- The float next to an integer of 64 bits. -/
def integerToFloat (n : Int) : Float :=
  let x := (UInt64.ofNat n.natAbs).toFloat
  if n < 0 then -x else x

/-- Reads a float from a number or the name of one. -/
def asFloat : Reader Json ε Float
  | .float x => .ok x
  | .int n => .ok (integerToFloat n)
  | .string "NaN" => .ok (0 / 0)
  | .string "Infinity" => .ok (1 / 0)
  | .string "-Infinity" => .ok (-1 / 0)
  | _ => .error .malformed

def asText {α : Type} (ofText? : String → Option α) : Reader Json ε α := fun json => do
  Reader.ofOption ofText? (← Json.asString json)

def asNull : Reader Json ε Unit
  | .null => .ok ()
  | _ => .error .malformed

/-- Reads the contents of a value of a given kind. -/
def ofContents (inner : Reader Json ε Value) (tag : Tag) (json : Json) : Except (ReadError ε) Value :=
  match tag with
  | .null => (asNull json).map fun () => .null
  | .boolean => (Json.asBool json).map .boolean
  | .int => (Json.asInt64 json).map .int
  | .uint => (Json.asUInt64 json).map .uint
  | .float => (asFloat json).map .float
  | .decimal => (Json.asString json).map .decimal
  | .string => (Json.asString json).map .string
  | .binary => (Json.asList Json.asUInt8 json).map .binary
  | .date => (asText Date.ofText? json).map .date
  | .time => (asText TimeOfDay.ofText? json).map .time
  | .timestamp => (asText Timestamp.ofText? json).map .timestamp
  | .json => (Json.asString json).map .json
  | .array => (Json.asList inner json).map .array

/-- Kind and contents of a value. -/
def taggedFields (strictness : Strictness) : Fields Json ε (Tag × Option Json) :=
  Prod.mk <$> .required "type" (Json.asName strictness Tag.ofName?) <*>
    .optional "value" none (fun json => .ok (some json))

/-- Reads a value whose document is nested less than `bound` deep. -/
def ofNestedValue (strictness : Strictness) : Nat → Reader Json ε Value
  | 0, _ => .error .malformed
  | bound + 1, doc => do
    let (tag, contents) ← Json.asStructure (taggedFields strictness) doc
    match contents, tag, doc with
    | some contents, tag, _ => ofContents (ofNestedValue strictness bound) tag contents
    | none, .null, .object _ => .ok .null
    | none, _, _ => .error .malformed

/-- Reads a value. -/
def ofJson (strictness : Strictness) : Reader Json ε Value := fun doc =>
  ofNestedValue strictness (doc.depth + 1) doc

end

end SqlPlan.Value
