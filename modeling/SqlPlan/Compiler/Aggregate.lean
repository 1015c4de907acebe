import SqlPlan.Compiler.Basic

/-!
# Functions and aggregates

The calls that operations become, family by family.
-/

namespace SqlPlan

/-- The name of the aggregate for a reduction. -/
def Reduction.sqlName : Reduction → String
  | .count => "COUNT"
  | .sum => "SUM"
  | .mean => "AVG"
  | .min => "MIN"
  | .max => "MAX"
  | .arbitrary => "ANY_VALUE"
  | .mode => "MODE"

/-- The operator in SQL. -/
def BinaryOp.symbol : BinaryOp → String
  | .add => "+"
  | .subtract => "-"
  | .multiply => "*"
  | .divide => "/"
  | .modulus => "%"
  | .equals => "="
  | .notEquals => "<>"
  | .less => "<"
  | .lessEqual => "<="
  | .greater => ">"
  | .greaterEqual => ">="
  | .and => "AND"
  | .or => "OR"

open Sql

/-- A plain call of a function. -/
def Sql.Expr.apply (name : String) (args : List Expr) : Expr := .call { name, args }

/-- A call of an aggregate over the rows for which a condition holds. Where there is no `FILTER`, the arguments are
null for all other rows. -/
def Dialect.aggregate (d : Dialect) (name : String) (args : List Expr) : (condition : Option Expr) → Call Expr
  | none => { name, args }
  | some condition =>
    if d.aggregateFilter then { name, args, filter := some condition }
    else { name, args := args.map fun arg => .case none [⟨condition, arg⟩] none }

/-- The key with the other direction. -/
def SortKey.reversed {α : Type} (key : SortKey α) : SortKey α := { key with ascending := !key.ascending }

namespace Compiler

/-- A reduction as a call of its aggregate. Booleans are added up as integers. -/
def plainReduction (c : Compiler) (func : Reduction) (arg : Expr) (type : DataType)
    (condition : Option Expr) : Except CompileError Expr := do
  let arg ←
    if type.isBoolean && (func == .sum || func == .mean) then do
      let name ← c.typeName (.int .w32)
      pure (Expr.cast arg name)
    else pure arg
  return .call (c.dialect.aggregate func.sqlName [arg] condition)

/-- The mode as an aggregate over an ordered group. -/
def modeOfGroup (c : Compiler) (arg : Expr) (condition : Option Expr) : Expr :=
  let call := c.dialect.aggregate "MODE" [arg] condition
  .call { call with args := [], within := call.args.map fun expr => ⟨expr, true⟩ }

/-- A reduction of values of a type, by the rules of `family`. -/
def reductionAs (c : Compiler) (family : Family) (func : Reduction) (arg : Expr) (type : DataType)
    (condition : Option Expr) : Except CompileError Expr :=
  match family, func with
  | .postgres, .mode | .risingwave, .mode => .ok (modeOfGroup c arg condition)
  | _, _ => plainReduction c func arg type condition

def reduction (c : Compiler) (func : Reduction) (arg : Expr) (type : DataType) (condition : Option Expr) :
    Except CompileError Expr :=
  c.reductionAs c.family func arg type condition

/-- A first or last value, by the rules of `family`. Without an aggregate for it, it is the first element of an
ordered array, in the reversed order for the last value. -/
def pickAs (c : Compiler) (family : Family) (func : Pick) (arg : Expr) (condition : Option Expr)
    (order : List (SortKey Expr)) : Expr :=
  let call name := c.dialect.aggregate name [arg] condition
  match family, func with
  | .ansi, .first | .duckdb, .first => .call { call "FIRST" with order }
  | .ansi, .last | .duckdb, .last => .call { call "LAST" with order }
  | .risingwave, .first => .call { call "FIRST_VALUE" with order }
  | .risingwave, .last => .call { call "LAST_VALUE" with order }
  | .postgres, .first => .subscript (.call { call "ARRAY_AGG" with order }) 1
  | .postgres, .last => .subscript (.call { call "ARRAY_AGG" with order := order.map (·.reversed) }) 1

def pick (c : Compiler) (func : Pick) (arg : Expr) (condition : Option Expr) (order : List (SortKey Expr)) : Expr :=
  c.pickAs c.family func arg condition order

/-- A correlation coefficient, which is the same by sample and by population. -/
def correlation (c : Compiler) (left right : Expr) (condition : Option Expr) : Expr :=
  .call (c.dialect.aggregate "CORR" [left, right] condition)

/-- A truncation of an operation's kind. -/
def truncation (c : Compiler) (kind : Kind) (arg : Expr) (unit : TemporalUnit) : Except CompileError Expr :=
  match c.dialect.truncateUnits unit with
  | some keyword => .ok (.apply "DATE_TRUNC" [.literal (quoteString keyword), arg])
  | none => c.dialect.refuse kind (.truncateUnit unit)

/-- An interval of as many units as an integer says: a literal for one value, and a multiple of one unit for a value
per row. -/
def intervalOf (c : Compiler) (arg : Expr) (shape : Shape) (unit : TemporalUnit) : Except CompileError Expr :=
  match c.dialect.intervalUnits unit with
  | none => c.dialect.refuse .intervalFromInteger (.intervalUnit unit)
  | some keyword =>
    match shape with
    | .scalar => .ok (.interval arg keyword)
    | .columnar => .ok (.binary arg "*" (.interval (.literal "1") keyword))
    | .tabular => .error (.invalidShape (.intervalArgument .tabular))

/-- Today's date. -/
def currentDate (c : Compiler) : Except CompileError Expr :=
  if c.dialect.nativeCurrentDate then .ok (.keyword "CURRENT_DATE")
  else do
    let name ← c.typeName .date
    return .cast (.keyword "CURRENT_TIMESTAMP") name

def randomUuid (c : Compiler) : Expr :=
  match c.family with
  | .duckdb => .apply "UUID" []
  | _ => .apply "GEN_RANDOM_UUID" []

def stringLength (c : Compiler) (arg : Expr) : Expr :=
  match c.family with
  | .duckdb => .apply "LENGTH" [arg]
  | _ => .apply "CHAR_LENGTH" [arg]

end Compiler

end SqlPlan
