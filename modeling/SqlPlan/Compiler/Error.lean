import SqlPlan.DataType.Basic
import SqlPlan.Node.Shape

/-!
# Errors of compilation

Why a node has no counterpart in a dialect.
-/

namespace SqlPlan

/-- Why a dialect does not support an operation. -/
inductive UnsupportedReason where
  | notAvailable
  | truncateUnit (unit : TemporalUnit)
  | intervalUnit (unit : TemporalUnit)
  | orderRequired (func : Pick)
  | correlationModes (available : List CorrelationMode)
deriving Repr, DecidableEq

/-- The reason in words, for an operation in a dialect. -/
def UnsupportedReason.message (dialect : String) (kind : Kind) : UnsupportedReason → String
  | .notAvailable => kind.name ++ " is not available in " ++ dialect
  | .truncateUnit unit => "Unsupported truncate unit " ++ unit.name
  | .intervalUnit unit => "Unsupported interval unit " ++ unit.name
  | .orderRequired func => dialect ++ " requires an `order_by` be specified in `" ++ func.word ++ "`"
  | .correlationModes available =>
    dialect ++ " only implements " ++ " and ".intercalate (available.map fun m => "`" ++ m.word ++ "`") ++
      " correlation coefficient"

/-- Where a value stands for a relation or the other way round. -/
inductive ShapeFault where
  | relationAsValue (kind : Kind)
  | valueAsRelation (kind : Kind) (shape : Shape)
  | intervalArgument (shape : Shape)
deriving Repr, DecidableEq

def ShapeFault.message : ShapeFault → String
  | .relationAsValue kind => kind.name ++ " is a relation and cannot be used as a value expression"
  | .valueAsRelation kind shape => kind.name ++ " is a " ++ shape.name ++ " value, not a relation"
  | .intervalArgument shape => "cannot convert a " ++ shape.name ++ " argument to an interval"

inductive CompileError where
  | unsupportedOperation (dialect : String) (kind : Kind) (reason : UnsupportedReason)
  | unsupportedType (dialect : String) (type : DataType)
  | invalidShape (fault : ShapeFault)
  | unknownDialect (name : String)
deriving Repr, DecidableEq

def CompileError.message : CompileError → String
  | .unsupportedOperation dialect kind reason =>
    "Operation " ++ kind.name ++ " is not supported by the " ++ dialect ++ " dialect: " ++
      reason.message dialect kind
  | .unsupportedType dialect type =>
    "Type " ++ type.text ++ " cannot be expressed in the " ++ dialect ++ " dialect"
  | .invalidShape fault => "Invalid shape: " ++ fault.message
  | .unknownDialect name => "Unknown dialect: " ++ name

end SqlPlan
