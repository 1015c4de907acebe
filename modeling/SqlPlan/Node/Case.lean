import SqlPlan.Node.Typing

/-!
# Building case expressions

A `CaseBuilder` collects the branches of a case expression one after the other. Each branch is checked when it is
added, and the finished expression is checked as a whole.
-/

namespace SqlPlan

structure CaseBuilder where
  /-- The value that a simple case compares; a searched case has none. -/
  base : Option Node := none
  /-- Pairs of a condition and a result. -/
  branches : List (Node × Node) := []
  default? : Option Node := none

/-- Whether a builder has any branches yet. -/
inductive CaseState where
  | empty
  | accumulating
deriving Repr, DecidableEq

def CaseState.name : CaseState → String
  | .empty => "Empty"
  | .accumulating => "Accumulating"

namespace CaseBuilder

/-- A case in which each branch has a condition of its own. -/
def searched : CaseBuilder := {}

/-- A case in which each branch has a value to compare with `base`. -/
def simple (base : Node) : CaseBuilder := { base := some base }

def state (b : CaseBuilder) : CaseState := if b.branches.isEmpty then .empty else .accumulating

def kind (b : CaseBuilder) : Kind := if b.base.isSome then .simpleCase else .searchedCase

def refuse {α : Type} (b : CaseBuilder) (fault : SignatureFault) : Except NodeError α :=
  .error (.signature (.kind b.kind) fault)

/-- Adds a branch. -/
def when (b : CaseBuilder) (condition result : Node) : Except NodeError CaseBuilder :=
  if condition.isRelation || result.isRelation then b.refuse .relationInBranch
  else
    let extended := { b with branches := b.branches ++ [(condition, result)] }
    match b.base with
    | some base =>
      if base.type.comparable condition.type then .ok extended
      else .error (.typeMismatch .simpleCase base.type condition.type)
    | none =>
      if condition.type.isBoolean then .ok extended else b.refuse (.conditionNotBoolean condition.type)

/-- Sets the result for rows that no branch is for. -/
def otherwise (b : CaseBuilder) (result : Node) : CaseBuilder := { b with default? := some result }

/-- The default of a case without one: a null of the common type of the results. -/
def nullDefault? (results : List Node) : Except NodeError Node := do
  let type ← (unify results).mapError .ofMismatch
  let null ← Node.new? (.null .null)
  Node.new? (.cast null type)

/-- The finished case. -/
def finish (b : CaseBuilder) : Except NodeError Node := do
  if b.branches.isEmpty then b.refuse .noBranch
  else
    let conditions := b.branches.map (·.1)
    let results := b.branches.map (·.2)
    let default ← match b.default? with
      | some default => .ok default
      | none => nullDefault? results
    match b.base with
    | some base => Node.new? (.simpleCase base conditions results default)
    | none => Node.new? (.searchedCase conditions results default)

/-- Adds several branches. -/
def whenAll (b : CaseBuilder) : List (Node × Node) → Except NodeError CaseBuilder
  | [] => .ok b
  | (condition, result) :: branches => do
    let extended ← b.when condition result
    extended.whenAll branches

end CaseBuilder

namespace Node

/-- A simple case from all its parts. -/
def cases? (base : Node) (branches : List (Node × Node)) (default? : Option Node) : Except NodeError Node := do
  let builder ← (CaseBuilder.simple base).whenAll branches
  { builder with default? }.finish

/-- One of two values by a boolean condition. -/
def choose? (condition whenTrue whenFalse : Node) : Except NodeError Node := do
  let builder ← CaseBuilder.searched.when condition whenTrue
  (builder.otherwise whenFalse).finish

/-- The condition of an `ifElse?`, cast to a boolean if it is not one. -/
def asCondition? (n : Node) : Except NodeError Node :=
  if n.type.isBoolean then .ok n
  else if n.type.castable .boolean && !n.isRelation then new? (.cast n .boolean)
  else .error (.signature .ifElse (.conditionNotCastable n.type))

/-- One of two values by a condition that can be cast to a boolean. -/
def ifElse? (condition whenTrue whenFalse : Node) : Except NodeError Node := do
  choose? (← asCondition? condition) whenTrue whenFalse

end Node

end SqlPlan
