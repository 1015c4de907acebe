import SqlPlan.Node.Shape
import SqlPlan.Value.Basic

/-!
# Nodes

A query is a tree of nodes. An operation `Op` has its inputs in a type `α` of its own, so that an operation over
finished nodes and a node, which is an operation with the type and the shape that follow from it, are told apart.
-/

namespace SqlPlan

/-- Something with the name of an output column. -/
structure Named (α : Type) where
  name : String
  value : α

/-- A key to sort by. -/
structure SortKey (α : Type) where
  expr : α
  ascending : Bool := true

/-- An operation with inputs of type `α`. -/
inductive Op (α : Type) where
  | literal (value : Value) (type : DataType)
  | null (type : DataType)
  | field (relation : α) (name : String)
  | cast (arg : α) (target : DataType)
  | binary (op : BinaryOp) (left right : α)
  | unary (op : UnaryOp) (arg : α)
  | simpleCase (base : α) (conditions results : List α) (default : α)
  | searchedCase (conditions results : List α) (default : α)
  | truncate (clock : Clock) (arg : α) (unit : TemporalUnit)
  | dateFromYmd (year month day : α)
  | generate (source : Generator)
  | interval (arg : α) (unit : TemporalUnit)
  | reduce (func : Reduction) (arg : α) (condition : Option α)
  | pick (func : Pick) (arg : α) (condition : Option α) (order : List (SortKey α))
  | correlate (left right : α) (mode : CorrelationMode) (condition : Option α)
  | table (name : String) (schema : Schema)
  | project (parent : α) (values : List (Named α))
  | filter (parent : α) (predicates : List α)
  | aggregate (parent : α) (groups metrics : List (Named α))
  | sort (parent : α) (keys : List (SortKey α))
  | limit (parent : α) (count : Option UInt64) (offset : UInt64)

namespace Op

variable {α : Type}

def kind : Op α → Kind
  | .literal _ _ => .nonNullLiteral
  | .null _ => .nullLiteral
  | .field _ _ => .field
  | .cast _ _ => .cast
  | .binary op _ _ => op.kind
  | .unary op _ => op.kind
  | .simpleCase _ _ _ _ => .simpleCase
  | .searchedCase _ _ _ => .searchedCase
  | .truncate clock _ _ => clock.kind
  | .dateFromYmd _ _ _ => .dateFromYmd
  | .generate source => source.kind
  | .interval _ _ => .intervalFromInteger
  | .reduce func _ _ => func.kind
  | .pick func _ _ _ => func.kind
  | .correlate _ _ _ _ => .correlation
  | .table _ _ => .unboundTable
  | .project _ _ => .project
  | .filter _ _ => .filter
  | .aggregate _ _ _ => .aggregate
  | .sort _ _ => .sort
  | .limit _ _ _ => .limit

/-- The inputs in their order. -/
def children : Op α → List α
  | .literal _ _ | .null _ | .generate _ | .table _ _ => []
  | .field relation _ => [relation]
  | .cast arg _ | .unary _ arg | .truncate _ arg _ | .interval arg _ => [arg]
  | .binary _ left right => [left, right]
  | .simpleCase base conditions results default => base :: (conditions ++ results ++ [default])
  | .searchedCase conditions results default => conditions ++ results ++ [default]
  | .dateFromYmd year month day => [year, month, day]
  | .reduce _ arg condition => arg :: condition.toList
  | .pick _ arg condition order => arg :: (condition.toList ++ order.map (·.expr))
  | .correlate left right _ condition => left :: right :: condition.toList
  | .project parent values => parent :: values.map (·.value)
  | .filter parent predicates => parent :: predicates
  | .aggregate parent groups metrics => parent :: (groups ++ metrics).map (·.value)
  | .sort parent keys => parent :: keys.map (·.expr)
  | .limit parent _ _ => [parent]

end Op

/-- An operation with its type and its shape. `Node.new?` makes the nodes for which these two are right. -/
structure Node where
  op : Op Node
  type : DataType
  shape : Shape

namespace Node

def kind (n : Node) : Kind := n.op.kind

def children (n : Node) : List Node := n.op.children

def isRelation (n : Node) : Bool := n.shape == .tabular

/-- The output columns of a relation. -/
def schema? (n : Node) : Option Schema :=
  match n.type, n.shape with
  | .struct columns, .tabular => some columns
  | _, _ => none

/-! ### Equality -/

mutual

/-- Equality of nodes, with the equality of values for literals. -/
def beq : Node → Node → Bool
  | ⟨op, type, shape⟩, ⟨op', type', shape'⟩ => beqOp op op' && type == type' && shape == shape'

def beqOp : Op Node → Op Node → Bool
  | .literal v t, o => match o with
    | .literal v' t' => v == v' && t == t'
    | _ => false
  | .null t, o => match o with
    | .null t' => t == t'
    | _ => false
  | .field r n, o => match o with
    | .field r' n' => beq r r' && n == n'
    | _ => false
  | .cast a t, o => match o with
    | .cast a' t' => beq a a' && t == t'
    | _ => false
  | .binary f l r, o => match o with
    | .binary f' l' r' => f == f' && beq l l' && beq r r'
    | _ => false
  | .unary f a, o => match o with
    | .unary f' a' => f == f' && beq a a'
    | _ => false
  | .simpleCase b cs rs d, o => match o with
    | .simpleCase b' cs' rs' d' => beq b b' && beqAll cs cs' && beqAll rs rs' && beq d d'
    | _ => false
  | .searchedCase cs rs d, o => match o with
    | .searchedCase cs' rs' d' => beqAll cs cs' && beqAll rs rs' && beq d d'
    | _ => false
  | .truncate c a u, o => match o with
    | .truncate c' a' u' => c == c' && beq a a' && u == u'
    | _ => false
  | .dateFromYmd y m d, o => match o with
    | .dateFromYmd y' m' d' => beq y y' && beq m m' && beq d d'
    | _ => false
  | .generate s, o => match o with
    | .generate s' => s == s'
    | _ => false
  | .interval a u, o => match o with
    | .interval a' u' => beq a a' && u == u'
    | _ => false
  | .reduce f a w, o => match o with
    | .reduce f' a' w' => f == f' && beq a a' && beqOption w w'
    | _ => false
  | .pick f a w ks, o => match o with
    | .pick f' a' w' ks' => f == f' && beq a a' && beqOption w w' && beqKeys ks ks'
    | _ => false
  | .correlate l r m w, o => match o with
    | .correlate l' r' m' w' => beq l l' && beq r r' && m == m' && beqOption w w'
    | _ => false
  | .table n s, o => match o with
    | .table n' s' => n == n' && s == s'
    | _ => false
  | .project p vs, o => match o with
    | .project p' vs' => beq p p' && beqNamed vs vs'
    | _ => false
  | .filter p qs, o => match o with
    | .filter p' qs' => beq p p' && beqAll qs qs'
    | _ => false
  | .aggregate p gs ms, o => match o with
    | .aggregate p' gs' ms' => beq p p' && beqNamed gs gs' && beqNamed ms ms'
    | _ => false
  | .sort p ks, o => match o with
    | .sort p' ks' => beq p p' && beqKeys ks ks'
    | _ => false
  | .limit p n k, o => match o with
    | .limit p' n' k' => beq p p' && n == n' && k == k'
    | _ => false

def beqAll : List Node → List Node → Bool
  | [], [] => true
  | n :: ns, m :: ms => beq n m && beqAll ns ms
  | _, _ => false

def beqOption : Option Node → Option Node → Bool
  | none, none => true
  | some n, some m => beq n m
  | _, _ => false

def beqKeys : List (SortKey Node) → List (SortKey Node) → Bool
  | [], [] => true
  | ⟨e, a⟩ :: ks, ⟨e', a'⟩ :: ks' => beq e e' && a == a' && beqKeys ks ks'
  | _, _ => false

def beqNamed : List (Named Node) → List (Named Node) → Bool
  | [], [] => true
  | ⟨n, v⟩ :: vs, ⟨n', v'⟩ :: vs' => n == n' && beq v v' && beqNamed vs vs'
  | _, _ => false

end

instance : BEq Node := ⟨beq⟩

end Node

end SqlPlan
