import SqlPlan.Compiler.Error
import SqlPlan.Dialect.Basic
import SqlPlan.Sql.Printer

/-!
# Compilers

A compiler writes SQL for a dialect. Dialects that are described by data alone share one family of names and
functions; the other families have some of their own.
-/

namespace SqlPlan

namespace Dialect

def refuse {α : Type} (d : Dialect) (kind : Kind) (reason : UnsupportedReason) : Except CompileError α :=
  .error (.unsupportedOperation d.name kind reason)

def refuseType {α : Type} (d : Dialect) (type : DataType) : Except CompileError α :=
  .error (.unsupportedType d.name type)

/-- Checks that the dialect has an operation. -/
def ensureSupported (d : Dialect) (kind : Kind) : Except CompileError Unit :=
  if d.supports kind then .ok () else d.refuse kind .notAvailable

end Dialect

/-- A family of names for types and functions. -/
inductive Family where
  | ansi
  | postgres
  | duckdb
  | risingwave
deriving Repr, DecidableEq

structure Compiler where
  dialect : Dialect
  family : Family

namespace Compiler

/-- The compiler for a dialect that is described by data alone. -/
def ofDialect (dialect : Dialect) : Compiler := ⟨dialect, .ansi⟩

def base : Compiler := .ofDialect .base

def postgres : Compiler := ⟨.postgres, .postgres⟩

def duckdb : Compiler := ⟨.duckdb, .duckdb⟩

def risingwave : Compiler := ⟨.risingwave, .risingwave⟩

def builtins : List Compiler := [base, postgres, duckdb, risingwave]

def name (c : Compiler) : String := c.dialect.name

end Compiler

/-! ### Names of types -/

namespace Primitive

/-- The names in plain SQL. Unsigned integers have the names of wider signed types. -/
def ansiName? : Primitive → Option String
  | .boolean => some "BOOLEAN"
  | .int .w8 => some "TINYINT"
  | .int .w16 | .uint .w8 => some "SMALLINT"
  | .int .w32 | .uint .w16 => some "INTEGER"
  | .int .w64 | .uint .w32 => some "BIGINT"
  | .uint .w64 => some "DECIMAL(20, 0)"
  | .float32 => some "REAL"
  | .float64 => some "DOUBLE PRECISION"
  | .decimal precision scale =>
    some ("DECIMAL(" ++ toString precision.toNat ++ ", " ++ toString scale.toNat ++ ")")
  | .string => some "VARCHAR"
  | .binary => some "VARBINARY"
  | .date => some "DATE"
  | .time => some "TIME"
  | .timestamp none => some "TIMESTAMP"
  | .timestamp (some _) => some "TIMESTAMP WITH TIME ZONE"
  | .interval _ => some "INTERVAL"
  | .json => some "JSON"
  | .uuid => some "UUID"
  | .null | .unknown => none

/-- The name of a type in a family. -/
def sqlName? : Family → Primitive → Option String
  | .ansi, p => p.ansiName?
  | .postgres, .int .w8 | .risingwave, .int .w8 => some "SMALLINT"
  | .postgres, .uint .w64 | .risingwave, .uint .w64 => some "NUMERIC(20, 0)"
  | .postgres, .string | .risingwave, .string => some "TEXT"
  | .postgres, .binary | .risingwave, .binary => some "BYTEA"
  | .postgres, .timestamp (some _) | .risingwave, .timestamp (some _) => some "TIMESTAMPTZ"
  | .duckdb, .uint .w8 => some "UTINYINT"
  | .duckdb, .uint .w16 => some "USMALLINT"
  | .duckdb, .uint .w32 => some "UINTEGER"
  | .duckdb, .uint .w64 => some "UBIGINT"
  | .duckdb, .float32 => some "FLOAT"
  | .duckdb, .float64 => some "DOUBLE"
  | .duckdb, .binary => some "BLOB"
  | .duckdb, .timestamp (some _) => some "TIMESTAMPTZ"
  | _, p => p.ansiName?

end Primitive

namespace Compiler

mutual

/-- The name of a type, by the rules of `family` for the type itself and those of the compiler for its parts. -/
def typeNameAs (c : Compiler) : (family : Family) → DataType → Except CompileError String
  | family, .primitive p =>
    match p.sqlName? family with
    | some name => .ok name
    | none => c.dialect.refuseType (.primitive p)
  | _, .array item => do
    let name ← typeNameAs c c.family item
    return name ++ "[]"
  | family, .struct columns =>
    match family with
    | .ansi => do
      let texts ← columnTypes c columns
      return "ROW(" ++ ", ".intercalate texts ++ ")"
    | .duckdb => do
      let texts ← columnTypes c columns
      return "STRUCT(" ++ ", ".intercalate texts ++ ")"
    | .postgres | .risingwave => c.dialect.refuseType (.struct columns)
  | family, .map key value =>
    match family with
    | .duckdb => do
      let keyName ← typeNameAs c c.family key
      let valueName ← typeNameAs c c.family value
      return "MAP(" ++ keyName ++ ", " ++ valueName ++ ")"
    | _ => c.dialect.refuseType (.map key value)

def columnTypes (c : Compiler) : List (Column DataType) → Except CompileError (List String)
  | [] => .ok []
  | ⟨name, type, _⟩ :: columns => do
    let typeName ← typeNameAs c c.family type
    let texts ← columnTypes c columns
    return (quoteIdent name ++ " " ++ typeName) :: texts

end

/-- The name of a type. -/
def typeName (c : Compiler) (type : DataType) : Except CompileError String := c.typeNameAs c.family type

end Compiler

end SqlPlan
