import SqlPlan.Compiler.Aggregate

/-!
# Handlers

What dialects write in different ways is left to handlers: literals, types, and some of the functions. Every compiler
has handlers by the rules of its family. A compiler can also take over the handlers of another one and differ from it
in something else.
-/

namespace SqlPlan

open Sql

/-- Every byte as an escape `\xNN`. -/
def hexEscapes (bytes : List UInt8) : String :=
  String.ofList (bytes.flatMap fun b => '\\' :: 'x' :: hexPadded 2 b.toNat)

/-- The spelling that a family has of its own for a value. -/
def Compiler.ownLiteral? (c : Compiler) (value : Value) (type : DataType) : Option (Except CompileError Expr) :=
  match c.family, value with
  | .ansi, _ => none
  | .risingwave, .json text => some (.ok (.literal (quoteString text)))
  | _, .binary bytes => some do
    let name ← c.typeName type
    return .cast (.literal (quoteString (hexEscapes bytes))) name
  | _, _ => none

/-- What a compiler does where dialects differ. -/
structure Handlers where
  dialect : Dialect
  /-- The spelling of a value, if it is not the common one. -/
  ownLiteral? : Value → DataType → Option (Except CompileError Expr)
  typeName : DataType → Except CompileError String
  truncation : Kind → Expr → TemporalUnit → Except CompileError Expr
  intervalOf : Expr → Shape → TemporalUnit → Except CompileError Expr
  currentDate : Except CompileError Expr
  dateFromYmd : (year month day : Expr) → Expr
  randomUuid : Expr
  stringLength : Expr → Expr
  reduction : Reduction → Expr → DataType → Option Expr → Except CompileError Expr
  pick : Pick → Expr → Option Expr → List (SortKey Expr) → Expr
  correlation : (left right : Expr) → CorrelationMode → Option Expr → Expr

/-- The handlers of a compiler, by the rules of its family. -/
@[reducible] def Compiler.handlers (c : Compiler) : Handlers where
  dialect := c.dialect
  ownLiteral? := c.ownLiteral?
  typeName := c.typeName
  truncation := c.truncation
  intervalOf := c.intervalOf
  currentDate := c.currentDate
  dateFromYmd year month day := .apply "MAKE_DATE" [year, month, day]
  randomUuid := c.randomUuid
  stringLength := c.stringLength
  reduction := c.reduction
  pick := c.pick
  correlation left right _ condition := c.correlation left right condition

end SqlPlan
