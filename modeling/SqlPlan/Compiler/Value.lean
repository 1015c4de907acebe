import SqlPlan.Compiler.Literal

/-!
# Compiling values

A value becomes an expression. A compiler of values goes through the operations of a value, and leaves to its handlers
what dialects differ in. A reduction that is needed row by row has to be a statement of its own:
`ValueCompiler.scalarSubqueries` is the compiler that writes every outermost reduction as a statement over given rows
and takes over all handlers of another compiler.
-/

namespace SqlPlan

open Sql

/-- All results of a list, or the first error. -/
def collect {ε α : Type} : List (Except ε α) → Except ε (List α)
  | [] => .ok []
  | result :: results => do
    let a ← result
    let as ← collect results
    return a :: as

/-- The branches of a case. The condition of a branch is compiled ahead of its result, and both ahead of the branches
behind. -/
def Compiler.branches (conditions results : List (Except CompileError Expr)) :
    Except CompileError (List (Branch Expr)) :=
  collect (List.zipWith (fun condition result => do return ⟨← condition, ← result⟩) conditions results)

namespace Handlers

/-- A value that depends on nothing in the query. -/
def generated (h : Handlers) : Generator → Except CompileError Expr
  | .dateNow => h.currentDate
  | .timestampNow => .ok (.keyword "CURRENT_TIMESTAMP")
  | .randomUuid => .ok h.randomUuid

/-- An operation with one operand. -/
def unary (h : Handlers) (op : UnaryOp) (arg : Expr) : Expr :=
  match op with
  | .not => .not arg
  | .negate => .negate arg
  | .isNull => .isNull arg false
  | .notNull => .isNull arg true
  | .lowercase => .apply "LOWER" [arg]
  | .uppercase => .apply "UPPER" [arg]
  | .stringLength => h.stringLength arg

/-- The left operand of a quotient of integers is cast to the type of the quotient, which would be truncated
otherwise. -/
def dividend (h : Handlers) (op : BinaryOp) (left right type : DataType) (expr : Expr) :
    Except CompileError Expr :=
  if op = .divide ∧ left.isInteger ∧ right.isInteger then h.castTo expr type else .ok expr

/-- Checks that a first or last value has the order that the dialect needs. -/
def ensureOrdered (h : Handlers) (func : Pick) (order : List (SortKey Node)) : Except CompileError Unit :=
  if order.isEmpty && h.dialect.orderRequired then h.dialect.refuse func.kind (.orderRequired func) else .ok ()

/-- Checks that the dialect has a mode of correlation. -/
def ensureCorrelation (h : Handlers) (mode : CorrelationMode) : Except CompileError Unit :=
  if h.dialect.supportsCorrelation mode then .ok ()
  else
    h.dialect.refuse .correlation (.correlationModes (CorrelationMode.all.filter h.dialect.supportsCorrelation))

end Handlers

/-- A compiler of values: its handlers, and the nodes that it does not compile by their operations. -/
structure ValueCompiler extends Handlers where
  /-- What a node becomes, if that is not left to the operation. -/
  own? : Node → Option (Except CompileError Expr) := fun _ => none

namespace ValueCompiler

mutual

/-- The expression of a value. -/
def lower (k : ValueCompiler) : Node → Except CompileError Expr
  | ⟨op, type, shape⟩ =>
    match k.own? ⟨op, type, shape⟩ with
    | some result => result
    | none => do
      k.dialect.ensureSupported op.kind
      lowerOp k type op

/-- The expression of an operation with a result of type `type`. -/
def lowerOp (k : ValueCompiler) : (type : DataType) → Op Node → Except CompileError Expr
  | _, .literal value type => k.literal value type
  | _, .null type => k.nullLiteral type
  | _, .field _ name => .ok (.column name)
  | _, .cast arg target => do
    let expr ← lower k arg
    if target.isNull then return expr else k.castTo expr target
  | type, .binary op left right => do
    let leftExpr ← lower k left
    let rightExpr ← lower k right
    let leftExpr ← k.dividend op left.type right.type type leftExpr
    return .binary leftExpr op.symbol rightExpr
  | _, .unary op arg => do
    let expr ← lower k arg
    return k.unary op expr
  | _, .simpleCase base conditions results default => do
    let operand ← lower k base
    let branches ← Compiler.branches (lowerEach k conditions) (lowerEach k results)
    let default ← lower k default
    return .case (some operand) branches (some default)
  | _, .searchedCase conditions results default => do
    let branches ← Compiler.branches (lowerEach k conditions) (lowerEach k results)
    let default ← lower k default
    return .case none branches (some default)
  | _, .truncate clock arg unit => do
    let expr ← lower k arg
    k.truncation clock.kind expr unit
  | _, .dateFromYmd year month day => do
    let year ← lower k year
    let month ← lower k month
    let day ← lower k day
    return k.dateFromYmd year month day
  | _, .generate source => k.generated source
  | _, .interval arg unit => do
    let expr ← lower k arg
    k.intervalOf expr arg.shape unit
  | _, .reduce func arg condition => do
    let expr ← lower k arg
    let condition ← lowerOption k condition
    k.reduction func expr arg.type condition
  | _, .pick func arg condition order => do
    k.ensureOrdered func order
    let expr ← lower k arg
    let condition ← lowerOption k condition
    let order ← lowerKeys k order
    return k.pick func expr condition order
  | _, .correlate left right mode condition => do
    k.ensureCorrelation mode
    let left ← lower k left
    let right ← lower k right
    let condition ← lowerOption k condition
    return k.correlation left right mode condition
  | _, .table _ _ => .error (.invalidShape (.relationAsValue .unboundTable))
  | _, .project _ _ => .error (.invalidShape (.relationAsValue .project))
  | _, .filter _ _ => .error (.invalidShape (.relationAsValue .filter))
  | _, .aggregate _ _ _ => .error (.invalidShape (.relationAsValue .aggregate))
  | _, .sort _ _ => .error (.invalidShape (.relationAsValue .sort))
  | _, .limit _ _ _ => .error (.invalidShape (.relationAsValue .limit))

/-- The expressions of values, each with an error of its own. -/
def lowerEach (k : ValueCompiler) : List Node → List (Except CompileError Expr)
  | [] => []
  | n :: ns => lower k n :: lowerEach k ns

def lowerOption (k : ValueCompiler) : Option Node → Except CompileError (Option Expr)
  | none => .ok none
  | some n => do
    let expr ← lower k n
    return some expr

def lowerKeys (k : ValueCompiler) : List (SortKey Node) → Except CompileError (List (SortKey Expr))
  | [] => .ok []
  | ⟨n, ascending⟩ :: keys => do
    let expr ← lower k n
    let keys ← lowerKeys k keys
    return ⟨expr, ascending⟩ :: keys

end

/-- The compiler of values that are taken row by row. A reduction becomes a statement over the rows of `source`, and
everything else is left to the handlers of another compiler. -/
def scalarSubqueries (inner : ValueCompiler) (source : Select) : ValueCompiler where
  dialect := inner.dialect
  ownLiteral? := inner.ownLiteral?
  typeName := inner.typeName
  truncation := inner.truncation
  intervalOf := inner.intervalOf
  currentDate := inner.currentDate
  dateFromYmd := inner.dateFromYmd
  randomUuid := inner.randomUuid
  stringLength := inner.stringLength
  reduction := inner.reduction
  pick := inner.pick
  correlation := inner.correlation
  own? n :=
    if n.kind.isReduction then
      some do
        let expr ← inner.lower n
        return .subquery { source with projection := [⟨expr, none⟩] }
    else none

end ValueCompiler

namespace Compiler

/-- The compiler of values with the handlers of a compiler. -/
@[reducible] def values (c : Compiler) : ValueCompiler := { c.handlers with }

/-- The compiler of values in a scope: with the rows of a statement as the scope, reductions are statements over these
rows. -/
def valuesIn (c : Compiler) : (scope : Option Select) → ValueCompiler
  | none => c.values
  | some source => c.values.scalarSubqueries source

/-- The expression of a value in a scope. -/
def lower (c : Compiler) (scope : Option Select) : Node → Except CompileError Expr := (c.valuesIn scope).lower

/-- The expressions of values, each with an error of its own. -/
def lowerEach (c : Compiler) (scope : Option Select) : List Node → List (Except CompileError Expr) :=
  (c.valuesIn scope).lowerEach

/-- The expressions of values. -/
def lowerAll (c : Compiler) (scope : Option Select) (nodes : List Node) : Except CompileError (List Expr) :=
  collect (c.lowerEach scope nodes)

def lowerKeys (c : Compiler) (scope : Option Select) :
    List (SortKey Node) → Except CompileError (List (SortKey Expr)) := (c.valuesIn scope).lowerKeys

/-- The items of a projection. -/
def lowerNamed (c : Compiler) (scope : Option Select) :
    List (Named Node) → Except CompileError (List (Item Expr))
  | [] => .ok []
  | ⟨name, n⟩ :: values => do
    let expr ← c.lower scope n
    let items ← c.lowerNamed scope values
    return ⟨expr, some name⟩ :: items

end Compiler

end SqlPlan
