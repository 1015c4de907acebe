import SqlPlan.Node.Basic
import SqlPlan.Node.Error
import SqlPlan.Text.Repeated

/-!
# Types of operations

`Op.type?` gives the type of an operation over finished nodes, or the first reason why it has none. `Node.new?` makes
the node of an operation.
-/

namespace SqlPlan

namespace Kind

/-! ### What an operation of a kind demands of its inputs -/

def reject {α : Type} (kind : Kind) (fault : SignatureFault) : Except NodeError α :=
  .error (.signature (.kind kind) fault)

def expectValue (kind : Kind) (n : Node) : Except NodeError Unit :=
  if n.isRelation then reject kind (.relationAsValue n.kind) else .ok ()

def expectRelation (kind : Kind) (n : Node) : Except NodeError Unit :=
  if n.isRelation then .ok () else reject kind (.valueAsRelation n.type)

def expectBoolean (kind : Kind) (n : Node) : Except NodeError Unit := do
  kind.expectValue n
  if n.type.isBoolean then .ok () else reject kind (.notBoolean n.type)

def expectInput (kind : Kind) (expected : InputClass) (n : Node) : Except NodeError Unit := do
  kind.expectValue n
  if expected.accepts n.type || n.type.isNull then .ok () else reject kind (.wrongInput expected n.type)

def expectUnit (kind : Kind) (accepts : TemporalUnit → Bool) (unit : TemporalUnit) : Except NodeError Unit :=
  if accepts unit then .ok () else reject kind (.wrongUnit unit)

def expectValues (kind : Kind) : List Node → Except NodeError Unit
  | [] => .ok ()
  | n :: ns => do
    kind.expectValue n
    expectValues kind ns

def expectBooleans (kind : Kind) : List Node → Except NodeError Unit
  | [] => .ok ()
  | n :: ns => do
    kind.expectBoolean n
    expectBooleans kind ns

def expectInputs (kind : Kind) (expected : InputClass) : List Node → Except NodeError Unit
  | [] => .ok ()
  | n :: ns => do
    kind.expectInput expected n
    expectInputs kind expected ns

/-- A case has a branch, and a result for every condition. -/
def expectBranches (kind : Kind) (conditions results : List Node) : Except NodeError Unit :=
  if conditions.isEmpty then reject kind .noBranch
  else if conditions.length ≠ results.length then
    reject kind (.unevenBranches conditions.length results.length)
  else .ok ()

/-- The conditions of a simple case are values that are comparable with its base. -/
def expectComparable (kind : Kind) (base : Node) : List Node → Except NodeError Unit
  | [] => .ok ()
  | n :: ns => do
    kind.expectValue n
    if base.type.comparable n.type then expectComparable kind base ns
    else .error (.typeMismatch .simpleCase base.type n.type)

def expectDistinct (kind : Kind) (names : List String) : Except NodeError Unit :=
  match repeatedName? [] names with
  | some name => reject kind (.duplicateColumn name)
  | none => .ok ()

/-- The columns that named values make. -/
def columns (kind : Kind) (values : List (Named Node)) : Except NodeError Schema := do
  kind.expectDistinct (values.map (·.name))
  kind.expectValues (values.map (·.value))
  return values.map fun v => ⟨v.name, v.value.type, true⟩

end Kind

/-- The common type of a list of nodes. -/
def unify (nodes : List Node) : Except Mismatch DataType :=
  nodes.foldlM (fun type n => type.promote n.type) .null

/-- Two types of the operands of `and` and `or`. -/
def logicalType (op : BinaryOp) (left right : DataType) : Except NodeError DataType :=
  if !(left.isBoolean || left.isNull) then Kind.reject op.kind (.wrongOperand left)
  else if !(right.isBoolean || right.isNull) then Kind.reject op.kind (.wrongOperand right)
  else .ok .boolean

/-- The type of calculations in which an interval takes part. -/
def BinaryOp.intervalType? : BinaryOp → DataType → DataType → Option DataType
  | .add, .date, .interval _ | .subtract, .date, .interval _ => some .date
  | .add, .timestamp zone, .interval _ | .subtract, .timestamp zone, .interval _ => some (.timestamp zone)
  | .add, .interval _, .date => some .date
  | .add, .interval _, .timestamp zone => some (.timestamp zone)
  | .add, .interval u, .interval v | .subtract, .interval u, .interval v =>
    if u = v then some (.interval u) else none
  | .multiply, .interval u, t => if t.isInteger then some (.interval u) else none
  | .multiply, t, .interval u => if t.isInteger then some (.interval u) else none
  | _, _, _ => none

def arithmeticType (op : BinaryOp) (left right : DataType) : Except NodeError DataType :=
  if (left.isNumeric || left.isNull) && (right.isNumeric || right.isNull) then
    match left.promote right with
    | .error m => .error (.ofMismatch m)
    | .ok promoted => .ok (if op = .divide ∧ !promoted.isDecimal then .float64 else promoted)
  else
    match op.intervalType? left right with
    | some type => .ok type
    | none => .error (.typeMismatch (.operator op) left right)

/-- The type of an operator over operands of two types. A quotient of numbers that are not decimals is a float. -/
def BinaryOp.type? (op : BinaryOp) (left right : DataType) : Except NodeError DataType :=
  if op.isLogical then logicalType op left right
  else if op.isComparison then
    if left.comparable right then .ok .boolean else .error (.typeMismatch (.operator op) left right)
  else arithmeticType op left right

/-- The type of a reduction of values of a type. -/
def Reduction.type? : Reduction → DataType → Except NodeError DataType
  | .count, _ => .ok (.int .w64)
  | .sum, .boolean => .ok (.int .w64)
  | .sum, .int _ => .ok (.int .w64)
  | .sum, .uint _ => .ok (.uint .w64)
  | .sum, .float32 | .sum, .float64 => .ok .float64
  | .sum, .decimal _ scale => .ok (.decimal (UInt8.ofNat maxPrecision) scale)
  | .sum, t => Kind.reject .sum (.wrongInput .numeric t)
  | .mean, .decimal precision scale => .ok (.decimal precision scale)
  | .mean, t =>
    if t.isNumeric || t.isBoolean then .ok .float64 else Kind.reject .mean (.wrongInput .numeric t)
  | .min, t | .max, t | .arbitrary, t | .mode, t => .ok t

/-- The type of a case with the given results. -/
def resultType (kind : Kind) (results : List Node) : Except NodeError DataType := do
  kind.expectValues results
  (unify results).mapError .ofMismatch

namespace Op

/-- The type of an operation. -/
def type? : Op Node → Except NodeError DataType
  | .literal value type =>
    if value.isNull || !value.conformsTo type then .error (.invalidLiteral value type) else .ok type
  | .null type => .ok type
  | .field relation name => do
    Kind.expectRelation .field relation
    match relation.schema?.bind (·.find? name) with
    | some column => .ok column.type
    | none => .error (.columnNotFound name)
  | .cast arg target => do
    Kind.expectValue .cast arg
    if arg.type.castable target then .ok target else .error (.typeMismatch .cast arg.type target)
  | .binary op left right => do
    op.kind.expectValue left
    op.kind.expectValue right
    op.type? left.type right.type
  | .unary .not arg => do
    Kind.expectBoolean .not arg
    return .boolean
  | .unary .negate arg => do
    Kind.expectInput .negate .numericOrInterval arg
    return arg.type
  | .unary .isNull arg => do
    Kind.expectValue .isNull arg
    return .boolean
  | .unary .notNull arg => do
    Kind.expectValue .notNull arg
    return .boolean
  | .unary .lowercase arg => do
    Kind.expectInput .lowercase .string arg
    return .string
  | .unary .uppercase arg => do
    Kind.expectInput .uppercase .string arg
    return .string
  | .unary .stringLength arg => do
    Kind.expectInput .stringLength .string arg
    return .int .w32
  | .simpleCase base conditions results default => do
    Kind.expectBranches .simpleCase conditions results
    Kind.expectValue .simpleCase base
    Kind.expectComparable .simpleCase base conditions
    resultType .simpleCase (results ++ [default])
  | .searchedCase conditions results default => do
    Kind.expectBranches .searchedCase conditions results
    Kind.expectBooleans .searchedCase conditions
    resultType .searchedCase (results ++ [default])
  | .truncate .date arg unit => do
    Kind.expectInput .dateTruncate .date arg
    Kind.expectUnit .dateTruncate (·.isDateUnit) unit
    return .date
  | .truncate .timestamp arg _ => do
    Kind.expectInput .timestampTruncate .timestamp arg
    return arg.type
  | .truncate .time arg unit => do
    Kind.expectInput .timeTruncate .time arg
    Kind.expectUnit .timeTruncate (·.isTimeUnit) unit
    return .time
  | .dateFromYmd year month day => do
    Kind.expectInputs .dateFromYmd .integer [year, month, day]
    return .date
  | .generate .dateNow => .ok .date
  | .generate .timestampNow => .ok (.timestamp none)
  | .generate .randomUuid => .ok .uuid
  | .interval arg unit => do
    Kind.expectInput .intervalFromInteger .integer arg
    return .interval unit
  | .reduce func arg condition => do
    func.kind.expectValue arg
    func.kind.expectBooleans condition.toList
    func.type? arg.type
  | .pick func arg condition order => do
    func.kind.expectValue arg
    func.kind.expectBooleans condition.toList
    func.kind.expectValues (order.map (·.expr))
    return arg.type
  | .correlate left right _ condition => do
    Kind.expectInputs .correlation .numeric [left, right]
    Kind.expectBooleans .correlation condition.toList
    return .float64
  | .table _ schema => do
    Kind.expectDistinct .unboundTable (schema.map (·.name))
    return .struct schema
  | .project parent values => do
    Kind.expectRelation .project parent
    if values.isEmpty then Kind.reject .project .emptyProjection
    else return .struct (← Kind.columns .project values)
  | .filter parent predicates => do
    Kind.expectRelation .filter parent
    Kind.expectBooleans .filter predicates
    return parent.type
  | .aggregate parent groups metrics => do
    Kind.expectRelation .aggregate parent
    if groups.isEmpty && metrics.isEmpty then Kind.reject .aggregate .emptyAggregate
    else
      match metrics.find? fun m => !m.value.kind.isReduction with
      | some metric => Kind.reject .aggregate (.notReduction metric.name)
      | none => return .struct (← Kind.columns .aggregate (groups ++ metrics))
  | .sort parent keys => do
    Kind.expectRelation .sort parent
    Kind.expectValues .sort (keys.map (·.expr))
    return parent.type
  | .limit parent _ _ => do
    Kind.expectRelation .limit parent
    return parent.type

/-- The shape of an operation. -/
def shape (op : Op Node) : Shape := op.kind.shape (op.children.map (·.shape))

end Op

/-- The node of an operation. -/
def Node.new? (op : Op Node) : Except NodeError Node := do
  let type ← op.type?
  return ⟨op, type, op.shape⟩

end SqlPlan
