/-!
# Kinds of operations

`Kind` names every operation that a dialect may support or refuse. Operators and functions that come in families have
types of their own, each with its kind.
-/

namespace SqlPlan

inductive Kind where
  | nonNullLiteral
  | nullLiteral
  | field
  | cast
  | add
  | subtract
  | multiply
  | divide
  | modulus
  | equals
  | notEquals
  | less
  | lessEqual
  | greater
  | greaterEqual
  | and
  | or
  | not
  | negate
  | isNull
  | notNull
  | lowercase
  | uppercase
  | stringLength
  | simpleCase
  | searchedCase
  | dateTruncate
  | timestampTruncate
  | timeTruncate
  | dateFromYmd
  | dateNow
  | timestampNow
  | intervalFromInteger
  | randomUuid
  | count
  | sum
  | mean
  | min
  | max
  | arbitrary
  | mode
  | first
  | last
  | correlation
  | unboundTable
  | project
  | filter
  | aggregate
  | sort
  | limit
deriving Repr, DecidableEq

namespace Kind

/-- All kinds: leaves, scalar operations, conditionals, temporal operations, reductions, relations. -/
def all : List Kind :=
  [.nonNullLiteral, .nullLiteral, .field, .cast, .add, .subtract, .multiply, .divide, .modulus, .equals,
    .notEquals, .less, .lessEqual, .greater, .greaterEqual, .and, .or, .not, .negate, .isNull, .notNull, .lowercase,
    .uppercase, .stringLength, .simpleCase, .searchedCase, .dateTruncate, .timestampTruncate, .timeTruncate,
    .dateFromYmd, .dateNow, .timestampNow, .intervalFromInteger, .randomUuid, .count, .sum, .mean, .min, .max,
    .arbitrary, .mode, .first, .last, .correlation, .unboundTable, .project, .filter, .aggregate, .sort, .limit]

def name : Kind → String
  | .nonNullLiteral => "NonNullLiteral"
  | .nullLiteral => "NullLiteral"
  | .field => "Field"
  | .cast => "Cast"
  | .add => "Add"
  | .subtract => "Subtract"
  | .multiply => "Multiply"
  | .divide => "Divide"
  | .modulus => "Modulus"
  | .equals => "Equals"
  | .notEquals => "NotEquals"
  | .less => "Less"
  | .lessEqual => "LessEqual"
  | .greater => "Greater"
  | .greaterEqual => "GreaterEqual"
  | .and => "And"
  | .or => "Or"
  | .not => "Not"
  | .negate => "Negate"
  | .isNull => "IsNull"
  | .notNull => "NotNull"
  | .lowercase => "Lowercase"
  | .uppercase => "Uppercase"
  | .stringLength => "StringLength"
  | .simpleCase => "SimpleCase"
  | .searchedCase => "SearchedCase"
  | .dateTruncate => "DateTruncate"
  | .timestampTruncate => "TimestampTruncate"
  | .timeTruncate => "TimeTruncate"
  | .dateFromYmd => "DateFromYMD"
  | .dateNow => "DateNow"
  | .timestampNow => "TimestampNow"
  | .intervalFromInteger => "IntervalFromInteger"
  | .randomUuid => "RandomUUID"
  | .count => "Count"
  | .sum => "Sum"
  | .mean => "Mean"
  | .min => "Min"
  | .max => "Max"
  | .arbitrary => "Arbitrary"
  | .mode => "Mode"
  | .first => "First"
  | .last => "Last"
  | .correlation => "Correlation"
  | .unboundTable => "UnboundTable"
  | .project => "Project"
  | .filter => "Filter"
  | .aggregate => "Aggregate"
  | .sort => "Sort"
  | .limit => "Limit"

def ofName? (text : String) : Option Kind := all.find? (·.name == text)

/-- Operations that turn many rows into one value. -/
def isReduction : Kind → Bool
  | .count | .sum | .mean | .min | .max | .arbitrary | .mode | .first | .last | .correlation => true
  | _ => false

/-- Operations that make relations. -/
def isRelation : Kind → Bool
  | .unboundTable | .project | .filter | .aggregate | .sort | .limit => true
  | _ => false

end Kind

/-- Operators with two operands. -/
inductive BinaryOp where
  | add
  | subtract
  | multiply
  | divide
  | modulus
  | equals
  | notEquals
  | less
  | lessEqual
  | greater
  | greaterEqual
  | and
  | or
deriving Repr, DecidableEq

namespace BinaryOp

def all : List BinaryOp :=
  [.add, .subtract, .multiply, .divide, .modulus, .equals, .notEquals, .less, .lessEqual, .greater, .greaterEqual,
    .and, .or]

def kind : BinaryOp → Kind
  | .add => .add
  | .subtract => .subtract
  | .multiply => .multiply
  | .divide => .divide
  | .modulus => .modulus
  | .equals => .equals
  | .notEquals => .notEquals
  | .less => .less
  | .lessEqual => .lessEqual
  | .greater => .greater
  | .greaterEqual => .greaterEqual
  | .and => .and
  | .or => .or

def name (op : BinaryOp) : String := op.kind.name

def ofName? (text : String) : Option BinaryOp := all.find? (·.name == text)

def isArithmetic : BinaryOp → Bool
  | .add | .subtract | .multiply | .divide | .modulus => true
  | _ => false

def isComparison : BinaryOp → Bool
  | .equals | .notEquals | .less | .lessEqual | .greater | .greaterEqual => true
  | _ => false

def isLogical : BinaryOp → Bool
  | .and | .or => true
  | _ => false

end BinaryOp

/-- Operations with one operand. -/
inductive UnaryOp where
  | not
  | negate
  | isNull
  | notNull
  | lowercase
  | uppercase
  | stringLength
deriving Repr, DecidableEq

namespace UnaryOp

def all : List UnaryOp :=
  [.not, .negate, .isNull, .notNull, .lowercase, .uppercase, .stringLength]

def kind : UnaryOp → Kind
  | .not => .not
  | .negate => .negate
  | .isNull => .isNull
  | .notNull => .notNull
  | .lowercase => .lowercase
  | .uppercase => .uppercase
  | .stringLength => .stringLength

def name (op : UnaryOp) : String := op.kind.name

def ofName? (text : String) : Option UnaryOp := all.find? (·.name == text)

end UnaryOp

/-- Reductions for which the order of the rows does not matter. -/
inductive Reduction where
  | count
  | sum
  | mean
  | min
  | max
  | arbitrary
  | mode
deriving Repr, DecidableEq

namespace Reduction

def all : List Reduction :=
  [.count, .sum, .mean, .min, .max, .arbitrary, .mode]

def kind : Reduction → Kind
  | .count => .count
  | .sum => .sum
  | .mean => .mean
  | .min => .min
  | .max => .max
  | .arbitrary => .arbitrary
  | .mode => .mode

def name (op : Reduction) : String := op.kind.name

def ofName? (text : String) : Option Reduction := all.find? (·.name == text)

end Reduction

/-- Reductions that pick a row by the order of the rows. -/
inductive Pick where
  | first
  | last
deriving Repr, DecidableEq

namespace Pick

def all : List Pick :=
  [.first, .last]

def kind : Pick → Kind
  | .first => .first
  | .last => .last

def name (op : Pick) : String := op.kind.name

def ofName? (text : String) : Option Pick := all.find? (·.name == text)

/-- The name of the reduction in messages. -/
def word : Pick → String
  | .first => "first"
  | .last => "last"

end Pick

/-- How a correlation coefficient is computed. -/
inductive CorrelationMode where
  | sample
  | population
deriving Repr, DecidableEq

namespace CorrelationMode

def all : List CorrelationMode := [.sample, .population]

def name : CorrelationMode → String
  | .sample => "sample"
  | .population => "population"

/-- The name of a mode in messages, which is also read as that mode. -/
def word : CorrelationMode → String
  | .sample => "sample"
  | .population => "pop"

def ofName? (text : String) : Option CorrelationMode := all.find? fun m => m.name == text || m.word == text

end CorrelationMode

/-- What a truncation truncates. -/
inductive Clock where
  | date
  | timestamp
  | time
deriving Repr, DecidableEq

def Clock.kind : Clock → Kind
  | .date => .dateTruncate
  | .timestamp => .timestampTruncate
  | .time => .timeTruncate

/-- Values that depend on nothing in the query. -/
inductive Generator where
  | dateNow
  | timestampNow
  | randomUuid
deriving Repr, DecidableEq

def Generator.kind : Generator → Kind
  | .dateNow => .dateNow
  | .timestampNow => .timestampNow
  | .randomUuid => .randomUuid

end SqlPlan
