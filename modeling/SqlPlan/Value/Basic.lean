import SqlPlan.Calendar.Time
import SqlPlan.DataType.Basic
import SqlPlan.Json.Reader
import SqlPlan.Text.Escaped
import SqlPlan.Value.DecimalText

/-!
# Literal values

A value carries no type of its own; `Value.conformsTo` says which types it may stand for.
-/

namespace SqlPlan

inductive Value where
  | null
  | boolean (b : Bool)
  | int (n : Int64)
  | uint (n : UInt64)
  | float (x : Float)
  /-- The text of a decimal. -/
  | decimal (text : String)
  | string (text : String)
  | binary (bytes : List UInt8)
  | date (d : Date)
  | time (t : TimeOfDay)
  | timestamp (t : Timestamp)
  /-- The compact text of a JSON document. -/
  | json (text : String)
  | array (items : List Value)

namespace Value

def isNull : Value → Bool
  | .null => true
  | _ => false

/-- A JSON text in its canonical form. -/
def json? (text : String) : Option Value := (Json.canonical? text).map .json

/-- Whether an integer lies in the range of an integer type. -/
def inBounds (n : Int) (t : DataType) : Bool :=
  match t.integerBounds? with
  | some (least, greatest) => least ≤ n && n ≤ greatest
  | none => false

mutual

/-- Whether a value can stand for a type. -/
def conformsTo : Value → DataType → Bool
  | .null, _ => true
  | .boolean _, t => t.isBoolean
  | .int n, t => if t.isInteger then inBounds n.toInt t else t.isFloating || t.isDecimal || t.isInterval
  | .uint n, t => if t.isInteger then inBounds n.toNat t else t.isFloating || t.isDecimal
  | .float _, t => t.isFloating || t.isDecimal
  | .decimal text, .decimal precision scale => decimalFits text precision scale
  | .string _, .string | .string _, .uuid => true
  | .binary _, t => t.isBinary
  | .date _, t => t.isDate
  | .time _, t => t.isTime
  | .timestamp _, t => t.isTimestamp
  | .json text, .json => Json.canonical? text == some text
  | .array items, .array item => allConformTo items item
  | _, _ => false

def allConformTo : List Value → DataType → Bool
  | [], _ => true
  | v :: vs, t => conformsTo v t && allConformTo vs t

end

/-! ### Equality -/

/-- Equality of floats in which a NaN equals itself and the two zeros are equal. -/
def floatEq (x y : Float) : Bool := x == y || x.isNaN && y.isNaN

mutual

/-- Equality of values, with `floatEq` for floats. -/
def beq : Value → Value → Bool
  | .null, .null => true
  | .boolean a, .boolean b => a == b
  | .int m, .int n => m == n
  | .uint m, .uint n => m == n
  | .float x, .float y => floatEq x y
  | .decimal s, .decimal t => s == t
  | .string s, .string t => s == t
  | .binary s, .binary t => s == t
  | .date d, .date e => d == e
  | .time t, .time u => t == u
  | .timestamp t, .timestamp u => t == u
  | .json s, .json t => s == t
  | .array vs, .array ws => beqAll vs ws
  | _, _ => false

def beqAll : List Value → List Value → Bool
  | [], [] => true
  | v :: vs, w :: ws => beq v w && beqAll vs ws
  | _, _ => false

end

instance : BEq Value := ⟨beq⟩

/-! ### Text -/

/-- How messages show a float. -/
def floatText (x : Float) : String :=
  if x.isNaN then "NaN"
  else if x.isInf then (if isNegative x then "-inf" else "inf")
  else FloatLayout.sql.write x

mutual

/-- How messages show a value. -/
def text : Value → String
  | .null => "Null"
  | .boolean b => "Boolean(" ++ (if b then "true" else "false") ++ ")"
  | .int n => "Int(" ++ toString n.toInt ++ ")"
  | .uint n => "UInt(" ++ toString n.toNat ++ ")"
  | .float x => "Float(" ++ floatText x ++ ")"
  | .decimal s => "Decimal(" ++ escaped s ++ ")"
  | .string s => "String(" ++ escaped s ++ ")"
  | .binary bytes => "Binary([" ++ ", ".intercalate (bytes.map fun b => toString b.toNat) ++ "])"
  | .date d => "Date(" ++ d.text ++ ")"
  | .time t => "Time(" ++ t.text ++ ")"
  | .timestamp t => "Timestamp(" ++ t.text "T" ++ ")"
  | .json s => "Json(" ++ escaped s ++ ")"
  | .array items => "Array([" ++ ", ".intercalate (texts items) ++ "])"

def texts : List Value → List String
  | [] => []
  | v :: vs => text v :: texts vs

end

end Value

end SqlPlan
