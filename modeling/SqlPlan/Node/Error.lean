import SqlPlan.DataType.Promotion
import SqlPlan.Node.Kind
import SqlPlan.Value.Basic

/-!
# Errors of nodes

Why an operation over given nodes is no node.
-/

namespace SqlPlan

/-- Where two types do not go together. -/
inductive MismatchContext where
  | promotion
  | cast
  | simpleCase
  | operator (op : BinaryOp)
deriving Repr, DecidableEq

def MismatchContext.text : MismatchContext → String
  | .promotion => "promotion"
  | .cast => "cast"
  | .simpleCase => "simple case"
  | .operator op => op.name

/-- The inputs that an operation takes. Nulls are taken along with the others. -/
inductive InputClass where
  | numericOrInterval
  | numeric
  | integer
  | string
  | date
  | timestamp
  | time
deriving Repr, DecidableEq

namespace InputClass

def text : InputClass → String
  | .numericOrInterval => "numeric or interval"
  | .numeric => "numeric"
  | .integer => "integer"
  | .string => "string"
  | .date => "date"
  | .timestamp => "timestamp"
  | .time => "time"

/-- The types of a class, apart from nulls. -/
def accepts : InputClass → DataType → Bool
  | .numericOrInterval, t => t.isNumeric || t.isInterval
  | .numeric, t => t.isNumeric
  | .integer, t => t.isInteger
  | .string, t => t.isString
  | .date, t => t.isDate
  | .timestamp, t => t.isTimestamp
  | .time, t => t.isTime

end InputClass

/-- What is wrong with the inputs of an operation. -/
inductive SignatureFault where
  | relationAsValue (kind : Kind)
  | valueAsRelation (type : DataType)
  | notBoolean (type : DataType)
  | wrongInput (expected : InputClass) (type : DataType)
  | wrongUnit (unit : TemporalUnit)
  | wrongOperand (type : DataType)
  | noBranch
  | unevenBranches (conditions results : Nat)
  | relationInBranch
  | conditionNotBoolean (type : DataType)
  | conditionNotCastable (type : DataType)
  | emptyProjection
  | emptyAggregate
  | notReduction (name : String)
  | duplicateColumn (name : String)
deriving Repr, DecidableEq

def SignatureFault.message : SignatureFault → String
  | .relationAsValue kind => "expected a value expression, got a " ++ kind.name ++ " relation"
  | .valueAsRelation type => "expected a relation, got a " ++ type.text ++ " value"
  | .notBoolean type => "expected a boolean expression, got " ++ type.text
  | .wrongInput expected type => "expected " ++ expected.text ++ " input, got " ++ type.text
  | .wrongUnit unit => "unit '" ++ unit.code ++ "' is not valid here"
  | .wrongOperand type => "expected boolean operands, got " ++ type.text
  | .noBranch => "at least one `when` clause is required"
  | .unevenBranches conditions results =>
    toString conditions ++ " conditions but " ++ toString results ++ " results"
  | .relationInBranch => "branches must be value expressions"
  | .conditionNotBoolean type => "condition must be boolean, got " ++ type.text
  | .conditionNotCastable type => "condition of type " ++ type.text ++ " cannot be used as boolean"
  | .emptyProjection => "projection is empty"
  | .emptyAggregate => "aggregate has no groups and no metrics"
  | .notReduction name => "metric '" ++ name ++ "' is not a reduction"
  | .duplicateColumn name => "duplicate column name '" ++ name ++ "'"

/-- The operation whose inputs are wrong. -/
inductive Operation where
  | kind (kind : Kind)
  | ifElse
deriving Repr, DecidableEq

def Operation.text : Operation → String
  | .kind k => k.name
  | .ifElse => "ifelse"

inductive NodeError where
  | typeMismatch (context : MismatchContext) (left right : DataType)
  | signature (operation : Operation) (fault : SignatureFault)
  | columnNotFound (name : String)
  | invalidLiteral (value : Value) (type : DataType)

namespace NodeError

def ofMismatch (m : Mismatch) : NodeError := .typeMismatch .promotion m.left m.right

def message : NodeError → String
  | .typeMismatch context left right =>
    "Type mismatch in " ++ context.text ++ ": " ++ left.text ++ " is not compatible with " ++ right.text
  | .signature operation fault =>
    "Signature validation failed for " ++ operation.text ++ ": " ++ fault.message
  | .columnNotFound name => "Column not found: " ++ name
  | .invalidLiteral value type => "Invalid literal: " ++ value.text ++ " is not a valid " ++ type.text

end NodeError

end SqlPlan
