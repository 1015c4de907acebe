import SqlPlan.Node.Kind

/-!
# Shapes

A node stands for one value, for one value per row, or for a whole relation.
-/

namespace SqlPlan

inductive Shape where
  | scalar
  | columnar
  | tabular
deriving Repr, DecidableEq

namespace Shape

def all : List Shape := [.scalar, .columnar, .tabular]

def name : Shape → String
  | .scalar => "scalar"
  | .columnar => "columnar"
  | .tabular => "tabular"

def ofName? (text : String) : Option Shape := all.find? (·.name == text)

/-- The shape of a value with the given inputs: one value if every input is one value, else one per row. A relation
is read row by row. -/
def combine (inputs : List Shape) : Shape :=
  if inputs.all (· == .scalar) then .scalar else .columnar

end Shape

/-- The shape of an operation: relations are tables, reductions leave one value, and all else follows its inputs. -/
def Kind.shape (kind : Kind) (inputs : List Shape) : Shape :=
  if kind.isRelation then .tabular
  else if kind.isReduction then .scalar
  else .combine inputs

end SqlPlan
