import Mathlib.Data.List.Sort
import SqlPlan.Sql.Basic

/-!
# The rows of a statement

A statement is read over ordered lists of rows, clause by clause: the rows of the source, those of them for which
`WHERE` is true, the groups, the projection, the order, and the part between `OFFSET` and `LIMIT`. What the database
makes of operators, functions, aggregates and literals is left open in an `Interpretation`; only `AND` has its
meaning in the logic of three values, and sorting is by a total preorder.
-/

namespace SqlPlan.Sql

/-- The values of columns, with the names of the columns. -/
abbrev Row (V : Type) : Type := List (String × V)

/-- What an aggregate sees of a row: its arguments and the keys to sort by, each with its direction. -/
structure Input (V : Type) where
  args : List V
  order : List (V × Bool)
  within : List (V × Bool)
deriving DecidableEq

/-- How a database reads the parts of an expression, with values from `V`. -/
structure Interpretation (V : Type) where
  null : V
  /-- Whether a value is true, false or neither. -/
  truth : V → Option Bool
  ofTruth : Option Bool → V
  truth_ofTruth : ∀ t, truth (ofTruth t) = t
  literal : String → V
  keyword : String → V
  cast : V → (target : String) → V
  operator : String → V → V → V
  not : V → V
  negate : V → V
  isNull : V → (negated : Bool) → V
  apply : (name : String) → List V → V
  aggregate : (name : String) → List (Input V) → V
  case : Option V → List (V × V) → Option V → V
  interval : V → (unit : String) → V
  subscript : V → Int64 → V
  /-- The order of values when rows are sorted. -/
  le : V → V → Bool
  le_total : ∀ a b, le a b = true ∨ le b a = true
  le_trans : ∀ a b c, le a b = true → le b c = true → le a c = true

/-! ### Aggregates -/

/-- The names of aggregates in all families. -/
def aggregateNames : List String :=
  ["COUNT", "SUM", "AVG", "MIN", "MAX", "ANY_VALUE", "MODE", "FIRST", "LAST", "FIRST_VALUE", "LAST_VALUE",
    "ARRAY_AGG", "CORR"]

mutual

/-- Whether an aggregate is called in an expression, outside of statements for single values. -/
def Expr.aggregates : Expr → Bool
  | .star | .column _ | .literal _ | .keyword _ | .subquery _ => false
  | .cast expr _ | .not expr | .negate expr | .isNull expr _ | .interval expr _ | .subscript expr _ => expr.aggregates
  | .binary left _ right => left.aggregates || right.aggregates
  | .call function => callAggregates function
  | .case operand branches default =>
    optionAggregates operand || branchesAggregate branches || optionAggregates default

def callAggregates : Call Expr → Bool
  | ⟨name, args, order, within, filter⟩ =>
    aggregateNames.contains name || listAggregates args || keysAggregate order || keysAggregate within ||
      optionAggregates filter

def listAggregates : List Expr → Bool
  | [] => false
  | expr :: exprs => expr.aggregates || listAggregates exprs

def optionAggregates : Option Expr → Bool
  | none => false
  | some expr => expr.aggregates

def branchesAggregate : List (Branch Expr) → Bool
  | [] => false
  | ⟨condition, result⟩ :: branches => condition.aggregates || result.aggregates || branchesAggregate branches

def keysAggregate : List (SortKey Expr) → Bool
  | [] => false
  | ⟨expr, _⟩ :: keys => expr.aggregates || keysAggregate keys

end

/-- Whether an aggregate is called in a projection. -/
def itemsAggregate (items : List (Item Expr)) : Bool := items.any (·.expr.aggregates)

/-! ### Clauses -/

/-- The rows that an expression is read over: a row of its own, and the rows that an aggregate takes together. -/
structure Context (V : Type) where
  row : Row V
  group : List (Row V)

namespace Context

variable {V : Type}

def ofRow (row : Row V) : Context V := ⟨row, [row]⟩

/-- A group is also read as its first row, for the values that all rows of the group share. -/
def ofGroup (group : List (Row V)) : Context V := ⟨group.headD [], group⟩

end Context

section

variable {V α : Type}

/-- The groups of a list, in the order of their first elements. -/
def groupsBy {κ : Type} [DecidableEq κ] (key : α → κ) (l : List α) : List (List α) :=
  (l.map key).eraseDups.map fun k => l.filter (key · = k)

/-- What the rows of a projection are read over: the groups, all rows together, or every row for itself. -/
def contexts [DecidableEq V] (grouped aggregated : Bool) (key : Row V → List V) (rows : List (Row V)) :
    List (Context V) :=
  if grouped then (groupsBy key rows).map .ofGroup
  else if aggregated then [.ofGroup rows]
  else rows.map .ofRow

/-- The part of a list behind the first `offset` elements, and at most `limit` of them. -/
def window (limit offset : Option UInt64) (l : List α) : List α :=
  let rest := l.drop (offset.elim 0 UInt64.toNat)
  limit.elim rest fun n => rest.take n.toNat

/-- The value of a key in `ORDER BY`: a bare name is that of an output column, if there is one. -/
def sortValue (expr : Expr) (value : V) (output : Row V) : V :=
  match expr with
  | .column name => (output.lookup name).getD value
  | _ => value

/-- The conjunction in the logic of three values. -/
def conj : Option Bool → Option Bool → Option Bool
  | some true, t => t
  | some false, _ => some false
  | none, some false => some false
  | none, _ => none

end

namespace Interpretation

variable {V α : Type} (I : Interpretation V)

def holds (v : V) : Bool := I.truth v == some true

def binary (op : String) (left right : V) : V :=
  if op = "AND" then I.ofTruth (conj (I.truth left) (I.truth right)) else I.operator op left right

/-- The order of values in one direction. -/
def directed (ascending : Bool) (a b : V) : Bool := if ascending then I.le a b else I.le b a

/-- Whether `a` may stand ahead of `b` by the given keys. Each key has its direction, and a later key counts where the
earlier ones are equal. -/
def precedes : List ((α → V) × Bool) → α → α → Bool
  | [], _, _ => true
  | (key, ascending) :: keys, a, b =>
    I.directed ascending (key a) (key b) && (!I.directed ascending (key b) (key a) || precedes keys a b)

/-- The list sorted by keys; elements with equal keys stay in their order. -/
def arrange (keys : List ((α → V) × Bool)) (l : List α) : List α :=
  l.insertionSort fun a b => I.precedes keys a b = true

/-- The value of a column, or null if there is no such column. -/
def column (row : Row V) (name : String) : V := (row.lookup name).getD I.null

/-- The value of a statement that stands for one: the first column of its first row. -/
def single (rows : List (Row V)) : V :=
  match rows with
  | ((_, v) :: _) :: _ => v
  | _ => I.null

end Interpretation

/-- The name of the column of an item. -/
def columnName : Expr → Option String → String
  | _, some label => label
  | .column name, none => name
  | _, none => ""

/-- The columns that an item of a projection makes of its value; the item `*` takes all columns of the row. -/
def itemColumns {V : Type} (expr : Expr) (label : Option String) (value : V) (row : Row V) : Row V :=
  match expr with
  | .star => row
  | _ => [(columnName expr label, value)]

/-! ### Expressions and statements -/

section

variable {V : Type} [DecidableEq V] (I : Interpretation V) (db : String → List (Row V))

mutual

/-- The value of an expression in a database. -/
def Expr.value : Expr → Context V → V
  | .star, _ => I.null
  | .column name, ctx => I.column ctx.row name
  | .literal text, _ => I.literal text
  | .keyword text, _ => I.keyword text
  | .cast expr target, ctx => I.cast (expr.value ctx) target
  | .binary left op right, ctx => I.binary op (left.value ctx) (right.value ctx)
  | .not expr, ctx => I.not (expr.value ctx)
  | .negate expr, ctx => I.negate (expr.value ctx)
  | .isNull expr negated, ctx => I.isNull (expr.value ctx) negated
  | .call function, ctx => callValue function ctx
  | .case operand branches default, ctx =>
    I.case (optionValue operand ctx) (branchValues branches ctx) (optionValue default ctx)
  | .interval expr unit, ctx => I.interval (expr.value ctx) unit
  | .subscript expr index, ctx => I.subscript (expr.value ctx) index
  | .subquery query, _ => I.single query.rows

/-- The value of a call. An aggregate takes the rows of the group for which its filter is true. -/
def callValue : Call Expr → Context V → V
  | ⟨name, args, order, within, filter⟩, ctx =>
    if aggregateNames.contains name then
      let rows := ctx.group.filter fun row => optionHolds filter (.ofRow row)
      I.aggregate name (rows.map fun row =>
        ⟨listValues args (.ofRow row), keyValues order (.ofRow row), keyValues within (.ofRow row)⟩)
    else I.apply name (listValues args ctx)

def listValues : List Expr → Context V → List V
  | [], _ => []
  | expr :: exprs, ctx => expr.value ctx :: listValues exprs ctx

def optionValue : Option Expr → Context V → Option V
  | none, _ => none
  | some expr, ctx => some (expr.value ctx)

/-- Whether a condition is true, if there is one. -/
def optionHolds : Option Expr → Context V → Bool
  | none, _ => true
  | some expr, ctx => I.holds (expr.value ctx)

def branchValues : List (Branch Expr) → Context V → List (V × V)
  | [], _ => []
  | ⟨condition, result⟩ :: branches, ctx => (condition.value ctx, result.value ctx) :: branchValues branches ctx

def keyValues : List (SortKey Expr) → Context V → List (V × Bool)
  | [], _ => []
  | ⟨expr, ascending⟩ :: keys, ctx => (expr.value ctx, ascending) :: keyValues keys ctx

/-- The row that a projection makes. -/
def itemsRow : List (Item Expr) → Context V → Row V
  | [], _ => []
  | ⟨expr, label⟩ :: items, ctx => itemColumns expr label (expr.value ctx) ctx.row ++ itemsRow items ctx

/-- The keys of `ORDER BY`, read from what an output row was made of and from the output row itself. -/
def orderKeys : List (SortKey Expr) → List ((Context V × Row V → V) × Bool)
  | [] => []
  | ⟨expr, ascending⟩ :: keys =>
    (fun output => sortValue expr (expr.value output.1) output.2, ascending) :: orderKeys keys

/-- The rows of a source. -/
def Source.rows : Source → List (Row V)
  | .table name => db name
  | .subquery query _ => query.rows

/-- The rows of a statement. -/
def Select.rows : Select → List (Row V)
  | ⟨projection, source, selection, groups, order, limit, offset⟩ =>
    let input := source.rows.filter fun row => optionHolds selection (.ofRow row)
    let read := contexts (!groups.isEmpty) (itemsAggregate projection)
      (fun row => listValues groups (.ofRow row)) input
    let outputs := read.map fun ctx => (ctx, itemsRow projection ctx)
    window limit offset ((I.arrange (orderKeys order) outputs).map (·.2))

end

end

end SqlPlan.Sql
