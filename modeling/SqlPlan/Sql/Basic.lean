import SqlPlan.Node.Basic

/-!
# SQL statements

The tree of a `SELECT` statement. All that differs between dialects is already decided in it: functions and types
have their final names and literals their final text.
-/

namespace SqlPlan.Sql

/-- A branch `WHEN condition THEN result`. -/
structure Branch (α : Type) where
  condition : α
  result : α

/-- A call of a function or an aggregate. -/
structure Call (α : Type) where
  name : String
  args : List α
  /-- The order inside the argument list, `F(x ORDER BY y)`. -/
  order : List (SortKey α) := []
  /-- The order behind the argument list, `F() WITHIN GROUP (ORDER BY y)`. -/
  within : List (SortKey α) := []
  /-- The rows that an aggregate takes, `FILTER (WHERE x)`. -/
  filter : Option α := none

/-- An item of a projection, with the name of its column if it gets one. -/
structure Item (α : Type) where
  expr : α
  label : Option String := none

mutual

inductive Expr where
  | star
  | column (name : String)
  /-- A literal as it stands in the statement. -/
  | literal (text : String)
  /-- A bare word such as `CURRENT_TIMESTAMP`. -/
  | keyword (text : String)
  | cast (expr : Expr) (target : String)
  | binary (left : Expr) (op : String) (right : Expr)
  | not (expr : Expr)
  | negate (expr : Expr)
  | isNull (expr : Expr) (negated : Bool)
  | call (function : Call Expr)
  | case (operand : Option Expr) (branches : List (Branch Expr)) (default : Option Expr)
  | interval (value : Expr) (unit : String)
  /-- An element of an array, counted from one. -/
  | subscript (expr : Expr) (index : Int64)
  /-- A statement for a single value. -/
  | subquery (query : Select)

/-- What a statement reads from. -/
inductive Source where
  | table (name : String)
  | subquery (query : Select) (label : String)

structure Select where
  projection : List (Item Expr)
  source : Source
  selection : Option Expr := none
  groups : List Expr := []
  order : List (SortKey Expr) := []
  limit : Option UInt64 := none
  offset : Option UInt64 := none

end

namespace Select

mutual

/-- The number of statements nested below this one in the sources. -/
def depth : Select → Nat
  | ⟨_, source, _, _, _, _, _⟩ => sourceDepth source

def sourceDepth : Source → Nat
  | .table _ => 0
  | .subquery query _ => depth query + 1

end

/-- All columns of a source. -/
def star (source : Source) : Select := { projection := [⟨.star, none⟩], source }

/-- All columns of a table. -/
def ofTable (name : String) : Select := star (.table name)

/-- All columns of another statement, which is named by its depth. -/
def wrap (inner : Select) : Select := star (.subquery inner ("t" ++ toString inner.depth))

/-- Whether the projection is just `*`. -/
def isStar (s : Select) : Bool :=
  match s.projection with
  | [⟨.star, none⟩] => true
  | _ => false

def isGrouped (s : Select) : Bool := !s.groups.isEmpty

def isLimited (s : Select) : Bool := s.limit.isSome || s.offset.isSome

def isOrdered (s : Select) : Bool := !s.order.isEmpty

end Select

/-- What a node is compiled to: a value to an expression and a relation to a statement. -/
inductive Fragment where
  | expr (expr : Expr)
  | query (query : Select)

end SqlPlan.Sql
