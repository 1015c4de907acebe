import SqlPlan.Compiler.Handlers

/-!
# Literals

How values are spelled in SQL. Where the bare text of a value would have another type, it is cast to its own.
-/

namespace SqlPlan

/-- Every byte as two capital hexadecimal digits. -/
def hexCapitals (bytes : List UInt8) : String :=
  String.ofList (bytes.flatMap fun b => (hexPadded 2 b.toNat).map Char.toUpper)

open Sql

namespace Handlers

/-- An expression cast to a type. -/
def castTo (h : Handlers) (expr : Expr) (type : DataType) : Except CompileError Expr := do
  let name ← h.typeName type
  return .cast expr name

/-- `NULL`, cast to its type if it has one. -/
def nullLiteral (h : Handlers) (type : DataType) : Except CompileError Expr :=
  if type.isNull then .ok (.literal "NULL") else h.castTo (.literal "NULL") type

def interval (h : Handlers) (n : Int) (unit : TemporalUnit) : Except CompileError Expr :=
  match h.dialect.intervalUnits unit with
  | some keyword => .ok (.interval (.literal (toString n)) keyword)
  | none => h.dialect.refuse .nonNullLiteral (.intervalUnit unit)

/-- A number, which is cast if it stands for a float or a decimal. -/
def number (h : Handlers) (n : Int) (type : DataType) : Except CompileError Expr :=
  if type.isFloating || type.isDecimal then h.castTo (.literal (toString n)) type
  else .ok (.literal (toString n))

def floatLiteral (h : Handlers) (x : Float) (type : DataType) : Except CompileError Expr :=
  if x.isNaN then h.castTo (.literal "'NaN'") type
  else if x.isInf then h.castTo (.literal (if isNegative x then "'-Infinity'" else "'Infinity'")) type
  else if type.isDecimal then h.castTo (.literal (FloatLayout.sql.write x)) type
  else .ok (.literal (FloatLayout.sql.write x))

def timestampLiteral (h : Handlers) (t : Timestamp) : DataType → Except CompileError Expr
  | .timestamp (some zone) => h.castTo (.literal (quoteString (t.text " "))) (.timestamp (some zone))
  | _ => .ok (.literal ("TIMESTAMP '" ++ t.text " " ++ "'"))

mutual

/-- The spelling of a value that is common to all families. -/
def commonLiteral (h : Handlers) : Value → DataType → Except CompileError Expr
  | .null, type => h.nullLiteral type
  | .boolean b, _ => .ok (.literal (if b then "TRUE" else "FALSE"))
  | .int n, type =>
    match type with
    | .interval unit => interval h n.toInt unit
    | _ => number h n.toInt type
  | .uint n, type => number h n.toNat type
  | .float x, type => floatLiteral h x type
  | .decimal text, type => h.castTo (.literal (quoteString text)) type
  | .string text, type =>
    match type with
    | .uuid => h.castTo (.literal (quoteString text)) .uuid
    | _ => .ok (.literal (quoteString text))
  | .binary bytes, _ => .ok (.literal ("X'" ++ hexCapitals bytes ++ "'"))
  | .date d, type => h.castTo (.literal (quoteString d.text)) type
  | .time t, _ => .ok (.literal ("TIME '" ++ t.text ++ "'"))
  | .timestamp t, type => timestampLiteral h t type
  | .json text, type => h.castTo (.literal (quoteString text)) type
  | .array items, type =>
    match type with
    | .array item =>
      if items.isEmpty then h.castTo (.literal "ARRAY[]") (.array item)
      else do
        let texts ← elementTexts h items item
        return .literal ("ARRAY[" ++ ", ".intercalate texts ++ "]")
    | _ => h.dialect.refuseType type

/-- The texts of the elements of an array. -/
def elementTexts (h : Handlers) : List Value → DataType → Except CompileError (List String)
  | [], _ => .ok []
  | v :: vs, type => do
    let expr ← match h.ownLiteral? v type with
      | some result => result
      | none => commonLiteral h v type
    let texts ← elementTexts h vs type
    return expr.text :: texts

end

/-- The spelling of a value. -/
def literal (h : Handlers) (value : Value) (type : DataType) : Except CompileError Expr :=
  match h.ownLiteral? value type with
  | some result => result
  | none => h.commonLiteral value type

end Handlers

namespace Compiler

/-- The spelling of a value, by the rules of the compiler's family. -/
def literal (c : Compiler) : Value → DataType → Except CompileError Expr := c.handlers.literal

/-- The spelling of a value that is common to all families, with the names that types have in the compiler's own. -/
def commonLiteral (c : Compiler) : Value → DataType → Except CompileError Expr := c.handlers.commonLiteral

end Compiler

end SqlPlan
