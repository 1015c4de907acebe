import SqlPlan.Document.Basic
import SqlPlan.Json.Basic

/-!
# Reading values from JSON documents

A choice between named alternatives is written as the name, or as an object with the name as its only key and the
contents of the alternative as the value.
-/

namespace SqlPlan

/-- How strictly the contents of a choice are written. Inside node documents the fields of an alternative may be given
by position, and an alternative without contents may be given an empty object. -/
inductive Strictness where
  | strict
  | relaxed
deriving Repr, DecidableEq

namespace Json

variable {ε α : Type}

def asString : Reader Json ε String
  | .string text => .ok text
  | _ => .error .malformed

def asBool : Reader Json ε Bool
  | .bool b => .ok b
  | _ => .error .malformed

/-- An integer from `low` to `high`. -/
def asInteger (low high : Int) : Reader Json ε Int
  | .int n => if low ≤ n && n ≤ high then .ok n else .error .malformed
  | _ => .error .malformed

def asUInt8 : Reader Json ε UInt8 := fun json => do
  let n ← asInteger 0 255 json
  return UInt8.ofNat n.toNat

def asUInt64 : Reader Json ε UInt64 := fun json => do
  let n ← asInteger 0 (Int.pow 2 64 - 1) json
  return UInt64.ofNat n.toNat

def asInt64 : Reader Json ε Int64 := fun json => do
  let n ← asInteger (-Int.pow 2 63) (Int.pow 2 63 - 1) json
  return Int64.ofInt n

def asList (read : Reader Json ε α) : Reader Json ε (List α)
  | .array items => Reader.all read items
  | _ => .error .malformed

/-- `null` stands for nothing. -/
def asOption (read : Reader Json ε α) : Reader Json ε (Option α)
  | .null => .ok none
  | json => (read json).map some

/-- The fields of a structure, as an object or as a list. -/
def asRecord : Reader Json ε (Record Json)
  | .object members => .ok (.named members)
  | .array items => .ok (.positional items)
  | _ => .error .malformed

def asStructure (fields : Fields Json ε α) : Reader Json ε α := fun json => do
  fields.run (← asRecord json)

/-- The name of the chosen alternative, with its contents if there are any. -/
def asChoice : Reader Json ε (String × Option Json)
  | .string name => .ok (name, none)
  | .object [(name, contents)] => .ok (name, some contents)
  | _ => .error .malformed

/-- Checks that an alternative has no contents. -/
def noContents (strictness : Strictness) : Reader (Option Json) ε Unit
  | none => .ok ()
  | some .null => .ok ()
  | some (.object []) => if strictness = .relaxed then .ok () else .error .malformed
  | _ => .error .malformed

/-- The only value that an alternative holds. -/
def soleContents (read : Reader Json ε α) : Reader (Option Json) ε α
  | some json => read json
  | none => .error .malformed

/-- The fields that an alternative holds. -/
def contents (strictness : Strictness) (fields : Fields Json ε α) : Reader (Option Json) ε α
  | some (.object members) => fields.run (.named members)
  | some (.array items) => if strictness = .relaxed then fields.run (.positional items) else .error .malformed
  | _ => .error .malformed

/-- A choice between alternatives without contents. -/
def asName (strictness : Strictness) (ofName? : String → Option α) : Reader Json ε α := fun json => do
  let (name, contents) ← asChoice json
  match ofName? name with
  | none => .error .malformed
  | some a =>
    noContents strictness contents
    return a

instance : Document Json where
  text?
    | .string text => some text
    | _ => none
  flag?
    | .bool b => some b
    | _ => none
  name?
    | .string name => some name
    | .object [(name, .null)] => some name
    | _ => none
  items?
    | .array items => some items
    | _ => none
  entries?
    | .object members => some members
    | _ => none
  record?
    | .object members => some (.named members)
    | .array items => some (.positional items)
    | _ => none

end Json

end SqlPlan
