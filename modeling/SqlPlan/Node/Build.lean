import SqlPlan.Node.Typing

/-!
# Building nodes

Short forms of `Node.new?` for operations whose parts need a choice.
-/

namespace SqlPlan.Node

/-- A literal; a null is a null literal of its type. -/
def literal? (value : Value) (type : DataType) : Except NodeError Node :=
  if value.isNull then new? (.null type) else new? (.literal value type)

def string? (text : String) : Except NodeError Node := literal? (.string text) .string

def boolean? (b : Bool) : Except NodeError Node := literal? (.boolean b) .boolean

/-- The narrowest signed integer type for a number. -/
def integerType (n : Int64) : DataType :=
  match [Width.w8, .w16, .w32].find? fun w => (Value.int n).conformsTo (.int w) with
  | some w => .int w
  | none => .int .w64

/-- An integer literal of the narrowest signed type. -/
def integer? (n : Int64) : Except NodeError Node := literal? (.int n) (integerType n)

def float64? (x : Float) : Except NodeError Node := literal? (.float x) .float64

def date? (d : Date) : Except NodeError Node := literal? (.date d) .date

/-- What a truncation of a node truncates. -/
def clock (n : Node) : Clock :=
  match n.type with
  | .date => .date
  | .time => .time
  | _ => .timestamp

/-- The truncation of a date, a time or a timestamp. -/
def truncate? (n : Node) (unit : TemporalUnit) : Except NodeError Node := new? (.truncate n.clock n unit)

end SqlPlan.Node
