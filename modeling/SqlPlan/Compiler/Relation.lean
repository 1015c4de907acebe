import SqlPlan.Compiler.Value

/-!
# Compiling relations

A relation becomes a statement. An operation goes into the statement of its parent if the clause that it needs is
still free and has the same meaning there; otherwise that statement becomes the source of a new one.
-/

namespace SqlPlan

open Sql

namespace Node

mutual

/-- Whether a value reduces rows anywhere in it. The relation of a field is no part of the value. -/
def hasReduction : Node → Bool
  | ⟨op, _, _⟩ => opHasReduction op

def opHasReduction : Op Node → Bool
  | .reduce _ _ _ | .pick _ _ _ _ | .correlate _ _ _ _ => true
  | .cast arg _ | .unary _ arg | .truncate _ arg _ | .interval arg _ => hasReduction arg
  | .binary _ left right => hasReduction left || hasReduction right
  | .simpleCase base conditions results default =>
    hasReduction base || anyHasReduction conditions || anyHasReduction results || hasReduction default
  | .searchedCase conditions results default =>
    anyHasReduction conditions || anyHasReduction results || hasReduction default
  | .dateFromYmd year month day => hasReduction year || hasReduction month || hasReduction day
  | .literal _ _ | .null _ | .field _ _ | .generate _ | .table _ _ | .project _ _ | .filter _ _
  | .aggregate _ _ _ | .sort _ _ | .limit _ _ _ => false

def anyHasReduction : List Node → Bool
  | [] => false
  | n :: ns => hasReduction n || anyHasReduction ns

end

end Node

/-- The conjunction of a list of predicates. -/
def Sql.Expr.conjunction : List Expr → Option Expr
  | [] => none
  | e :: es => some (es.foldl (fun left right => .binary left "AND" right) e)

namespace Sql.Select

/-- The statement itself if a clause may go into it, else a statement over it. -/
def wrapUnless (free : Bool) (s : Select) : Select := if free then s else s.wrap

/-- The statement for the values of reductions over the rows of another one. -/
def scalarSource (s : Select) : Select :=
  if s.isStar && !s.isGrouped && !s.isLimited then { s with order := [] } else s.wrap

/-- Adds predicates to a statement. -/
def addSelection (s : Select) (predicates : List Expr) : Select :=
  { s with selection := Expr.conjunction (s.selection.toList ++ predicates) }

end Sql.Select

namespace Compiler

/-- The scope of reductions among values that are taken row by row. -/
def scopeFor (rowByRow : Bool) (parent : Select) : Option Select :=
  if rowByRow then some parent.scalarSource else none

/-- The statement of a relation. -/
def lowerRelation (c : Compiler) : Node → Except CompileError Select
  | ⟨.table name _, _, _⟩ => do
    c.dialect.ensureSupported .unboundTable
    return .ofTable name
  | ⟨.project parent values, _, _⟩ => do
    c.dialect.ensureSupported .project
    let select ← c.lowerRelation parent
    let reduces := values.any (·.value.hasReduction)
    let broadcast := reduces && values.any (·.value.shape != .scalar)
    let projection ← c.lowerNamed (scopeFor broadcast select) values
    -- a projection of reductions alone takes all rows of the parent together
    let reducesRows := reduces && !broadcast && (select.isLimited || select.isOrdered)
    return { select.wrapUnless (select.isStar && !select.isGrouped && !reducesRows) with projection }
  | ⟨.filter parent predicates, _, _⟩ => do
    c.dialect.ensureSupported .filter
    let select ← c.lowerRelation parent
    let predicates ← c.lowerAll (scopeFor (predicates.any (·.hasReduction)) select) predicates
    if predicates.isEmpty then return select
    else
      return (select.wrapUnless (select.isStar && !select.isGrouped && !select.isLimited)).addSelection predicates
  | ⟨.aggregate parent groups metrics, _, _⟩ => do
    c.dialect.ensureSupported .aggregate
    let select ← c.lowerRelation parent
    let groupItems ← c.lowerNamed none groups
    let metricItems ← c.lowerNamed none metrics
    let free := select.isStar && !select.isGrouped && !select.isLimited && !select.isOrdered
    return { select.wrapUnless free with
      groups := groupItems.map (·.expr)
      projection := groupItems ++ metricItems }
  | ⟨.sort parent keys, _, _⟩ => do
    c.dialect.ensureSupported .sort
    let select ← c.lowerRelation parent
    let order ← c.lowerKeys none keys
    -- a key that is no plain column may use the name of a computed one
    let plainKeys := order.all fun key => match key.expr with
      | .column _ => true
      | _ => false
    return { select.wrapUnless (!select.isLimited && (select.isStar || plainKeys)) with order }
  | ⟨.limit parent count offset, _, _⟩ => do
    c.dialect.ensureSupported .limit
    let select ← c.lowerRelation parent
    return { select.wrapUnless (!select.isLimited) with
      limit := count
      offset := if 0 < offset then some offset else none }
  | ⟨op, _, shape⟩ => do
    c.dialect.ensureSupported op.kind
    .error (.invalidShape (.valueAsRelation op.kind shape))

/-- The SQL of a node: a statement for a relation and an expression for a value. -/
def compile (c : Compiler) (n : Node) : Except CompileError Fragment :=
  if n.isRelation then (c.lowerRelation n).map .query else (c.lower none n).map .expr

end Compiler

end SqlPlan
