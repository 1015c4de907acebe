import SqlPlan.DataType.Basic

/-!
# Promotion and casts

`promote` gives the common type of two types, as the operands of an operator or the branches of a case have it.
`castable` says which explicit casts there are.
-/

namespace SqlPlan

/-- Two types without a common type. -/
structure Mismatch where
  left : DataType
  right : DataType
deriving Repr, DecidableEq

/-- The greatest precision of a decimal that a promotion makes. -/
def maxPrecision : Nat := 38

/-- A decimal type with room for `integral` digits before the point, as far as the greatest precision allows. -/
def Primitive.decimalFor (integral : Nat) (scale : UInt8) : Primitive :=
  .decimal (UInt8.ofNat (min (integral + scale.toNat) maxPrecision)) scale

namespace Primitive

/-- The decimal digits that every value of an integer type fits into. -/
def integerDigits? : Primitive → Option Nat
  | .int .w8 | .uint .w8 => some 3
  | .int .w16 | .uint .w16 => some 5
  | .int .w32 | .uint .w32 => some 10
  | .int .w64 => some 19
  | .uint .w64 => some 20
  | _ => none

/-- A signed integer type for the values of a signed and an unsigned one, or a float where there is none. -/
def signedFor (signed unsigned : Width) : Primitive :=
  if unsigned.bits < signed.bits then .int signed
  else
    match unsigned.double? with
    | some w => .int w
    | none => .float64

/-- The float for the values of an integer type and a `float32`: integers of 32 bits and more need a `float64`. -/
def floatFor (w : Width) : Primitive := if 32 ≤ w.bits then .float64 else .float32

/-- The decimal for the values of a decimal type and of an integer type with `digits` digits. -/
def decimalWithInteger (precision scale : UInt8) (digits : Nat) : Primitive :=
  decimalFor (max (precision.toNat - scale.toNat) digits) scale

/-- The common type of two different primitive types. -/
def widen? : Primitive → Primitive → Option Primitive
  | .null, q => some q
  | p, .null => some p
  | .int a, .int b => some (.int (a.max b))
  | .uint a, .uint b => some (.uint (a.max b))
  | .int a, .uint b => some (signedFor a b)
  | .uint a, .int b => some (signedFor b a)
  | .int w, .float32 | .uint w, .float32 | .float32, .int w | .float32, .uint w => some (floatFor w)
  | .int _, .float64 | .uint _, .float64 | .float64, .int _ | .float64, .uint _ => some .float64
  | .float32, .float64 | .float64, .float32 => some .float64
  | .decimal _ _, .float32 | .decimal _ _, .float64 | .float32, .decimal _ _ | .float64, .decimal _ _ => some .float64
  | .decimal p₁ s₁, .decimal p₂ s₂ =>
    some (decimalFor (max (p₁.toNat - s₁.toNat) (p₂.toNat - s₂.toNat)) (max s₁ s₂))
  | .decimal p s, q => q.integerDigits?.map (decimalWithInteger p s)
  | q, .decimal p s => q.integerDigits?.map (decimalWithInteger p s)
  | .date, .timestamp zone | .timestamp zone, .date => some (.timestamp zone)
  | _, _ => none

/-- The common type of two primitive types. -/
def join? (p q : Primitive) : Option Primitive := if p = q then some p else p.widen? q

def isInteger : Primitive → Bool
  | .int _ | .uint _ => true
  | _ => false

def isNumeric : Primitive → Bool
  | .int _ | .uint _ | .float32 | .float64 | .decimal _ _ => true
  | _ => false

/-- Whether there is an explicit cast between two primitive types. -/
def castable (p q : Primitive) : Bool :=
  p == q ||
    match p, q with
    | .null, _ => true
    | p, .string => p != .unknown
    | .boolean, q => q.isInteger
    | .string, .boolean | .string, .date | .string, .time | .string, .timestamp _ => true
    | .string, .json | .string, .uuid | .string, .binary | .string, .interval _ => true
    | .date, .timestamp _ | .timestamp _, .date | .timestamp _, .time | .timestamp _, .timestamp _ => true
    | .interval _, .interval _ => true
    | .json, .boolean => true
    | p, .boolean | p, .interval _ => p.isInteger
    | .string, q | .json, q => q.isNumeric
    | p, q => p.isNumeric && q.isNumeric

end Primitive

namespace DataType

mutual

/-- The common type of two types, or the parts of them that have none. -/
def promote : DataType → DataType → Except Mismatch DataType
  | .primitive p, .primitive q =>
    match p.join? q with
    | some r => .ok (.primitive r)
    | none => .error ⟨.primitive p, .primitive q⟩
  | .null, right => .ok right
  | left, .null => .ok left
  | .array a, .array b => (promote a b).map .array
  | .map k v, .map k' v' => do
    let key ← promote k k'
    let value ← promote v v'
    return .map key value
  | .struct cs, .struct ds =>
    if cs.length = ds.length then (promoteColumns ⟨.struct cs, .struct ds⟩ cs ds).map .struct
    else .error ⟨.struct cs, .struct ds⟩
  | left, right => .error ⟨left, right⟩

/-- Promotes the columns of two structs in pairs. Columns of different names make the structs `whole` a mismatch. -/
def promoteColumns (whole : Mismatch) :
    List (Column DataType) → List (Column DataType) → Except Mismatch (List (Column DataType))
  | ⟨name, t, nullable⟩ :: cs, ⟨name', t', nullable'⟩ :: ds =>
    if name = name' then do
      let type ← promote t t'
      let columns ← promoteColumns whole cs ds
      return ⟨name, type, nullable || nullable'⟩ :: columns
    else .error whole
  | _, _ => .ok []

end

/-- Whether two types have a common type. -/
def comparable (left right : DataType) : Bool :=
  match promote left right with
  | .ok _ => true
  | .error _ => false

mutual

/-- Whether there is an explicit cast between two types. -/
def castable : DataType → DataType → Bool
  | .primitive p, .primitive q => p.castable q
  | .null, _ => true
  | _, .string => true
  | .array a, .array b => castable a b
  | .map k v, .map k' v' => castable k k' && castable v v'
  | .struct cs, .struct ds => castableColumns cs ds
  | _, _ => false

/-- Whether the columns of two structs are equally many and castable in pairs. -/
def castableColumns : List (Column DataType) → List (Column DataType) → Bool
  | [], [] => true
  | ⟨_, t, _⟩ :: cs, ⟨_, t', _⟩ :: ds => castable t t' && castableColumns cs ds
  | _, _ => false

end

end DataType

end SqlPlan
