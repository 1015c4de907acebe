import SqlPlan.DataType.Unit

/-!
# Data types

A type is primitive or is built from other types as an array, a struct or a map.
-/

namespace SqlPlan

/-- The width of an integer type. -/
inductive Width where
  | w8
  | w16
  | w32
  | w64
deriving Repr, DecidableEq

namespace Width

def bits : Width → Nat
  | .w8 => 8
  | .w16 => 16
  | .w32 => 32
  | .w64 => 64

/-- The next greater width. -/
def double? : Width → Option Width
  | .w8 => some .w16
  | .w16 => some .w32
  | .w32 => some .w64
  | .w64 => none

def max (a b : Width) : Width := if b.bits ≤ a.bits then a else b

end Width

/-- The types without parts. -/
inductive Primitive where
  | boolean
  | int (width : Width)
  | uint (width : Width)
  | float32
  | float64
  | decimal (precision scale : UInt8)
  | string
  | binary
  | date
  | time
  | timestamp (zone : Option String)
  | interval (unit : TemporalUnit)
  | json
  | uuid
  | null
  | unknown
deriving Repr, DecidableEq

/-- A named column of a struct or a table, with a type from `τ`. -/
structure Column (τ : Type) where
  name : String
  type : τ
  nullable : Bool := true
deriving Repr, DecidableEq

inductive DataType where
  | primitive (p : Primitive)
  | array (item : DataType)
  | struct (columns : List (Column DataType))
  | map (key value : DataType)
deriving Repr

/-- The columns of a table. -/
abbrev Schema : Type := List (Column DataType)

/-- The first column of a name. -/
def Schema.find? (schema : Schema) (name : String) : Option (Column DataType) :=
  List.find? (fun (c : Column DataType) => c.name == name) schema

namespace DataType

@[match_pattern] abbrev boolean : DataType := .primitive .boolean
@[match_pattern] abbrev int (width : Width) : DataType := .primitive (.int width)
@[match_pattern] abbrev uint (width : Width) : DataType := .primitive (.uint width)
@[match_pattern] abbrev float32 : DataType := .primitive .float32
@[match_pattern] abbrev float64 : DataType := .primitive .float64
@[match_pattern] abbrev decimal (precision scale : UInt8) : DataType := .primitive (.decimal precision scale)
@[match_pattern] abbrev string : DataType := .primitive .string
@[match_pattern] abbrev binary : DataType := .primitive .binary
@[match_pattern] abbrev date : DataType := .primitive .date
@[match_pattern] abbrev time : DataType := .primitive .time
@[match_pattern] abbrev timestamp (zone : Option String) : DataType := .primitive (.timestamp zone)
@[match_pattern] abbrev interval (unit : TemporalUnit) : DataType := .primitive (.interval unit)
@[match_pattern] abbrev json : DataType := .primitive .json
@[match_pattern] abbrev uuid : DataType := .primitive .uuid
@[match_pattern] abbrev null : DataType := .primitive .null
@[match_pattern] abbrev unknown : DataType := .primitive .unknown

/-! ### Equality -/

mutual

def decEq : (a b : DataType) → Decidable (a = b)
  | .primitive p, .primitive q =>
    if h : p = q then isTrue (by rw [h]) else isFalse (by simp [h])
  | .array a, .array b =>
    match decEq a b with
    | isTrue h => isTrue (by rw [h])
    | isFalse h => isFalse (by simp [h])
  | .struct cs, .struct ds =>
    match decEqColumns cs ds with
    | isTrue h => isTrue (by rw [h])
    | isFalse h => isFalse (by simp [h])
  | .map k v, .map k' v' =>
    match decEq k k', decEq v v' with
    | isTrue hk, isTrue hv => isTrue (by rw [hk, hv])
    | isFalse h, _ => isFalse (by simp [h])
    | _, isFalse h => isFalse (by simp [h])
  | .primitive _, .array _ | .primitive _, .struct _ | .primitive _, .map _ _
  | .array _, .primitive _ | .array _, .struct _ | .array _, .map _ _
  | .struct _, .primitive _ | .struct _, .array _ | .struct _, .map _ _
  | .map _ _, .primitive _ | .map _ _, .array _ | .map _ _, .struct _ => isFalse nofun

def decEqColumns : (cs ds : List (Column DataType)) → Decidable (cs = ds)
  | [], [] => isTrue rfl
  | [], _ :: _ | _ :: _, [] => isFalse nofun
  | ⟨n, t, b⟩ :: cs, ⟨n', t', b'⟩ :: ds =>
    match decEq t t', decEqColumns cs ds with
    | isTrue ht, isTrue hr =>
      if h : n = n' ∧ b = b' then isTrue (by rw [ht, hr, h.1, h.2])
      else isFalse (by simp only [List.cons.injEq, Column.mk.injEq]; exact fun e => h ⟨e.1.1, e.1.2.2⟩)
    | isFalse h, _ => isFalse (by simp [h])
    | _, isFalse h => isFalse (by simp [h])

end

instance : DecidableEq DataType := decEq

/-! ### Classes of types -/

def isBoolean : DataType → Bool
  | .boolean => true
  | _ => false

def isNull : DataType → Bool
  | .null => true
  | _ => false

def isSignedInteger : DataType → Bool
  | .int _ => true
  | _ => false

def isUnsignedInteger : DataType → Bool
  | .uint _ => true
  | _ => false

def isInteger (t : DataType) : Bool := t.isSignedInteger || t.isUnsignedInteger

def isFloating : DataType → Bool
  | .float32 | .float64 => true
  | _ => false

def isDecimal : DataType → Bool
  | .decimal _ _ => true
  | _ => false

def isNumeric (t : DataType) : Bool := t.isInteger || t.isFloating || t.isDecimal

def isString : DataType → Bool
  | .string => true
  | _ => false

def isBinary : DataType → Bool
  | .binary => true
  | _ => false

def isDate : DataType → Bool
  | .date => true
  | _ => false

def isTime : DataType → Bool
  | .time => true
  | _ => false

def isTimestamp : DataType → Bool
  | .timestamp _ => true
  | _ => false

def isTemporal (t : DataType) : Bool := t.isDate || t.isTime || t.isTimestamp

def isInterval : DataType → Bool
  | .interval _ => true
  | _ => false

def isJson : DataType → Bool
  | .json => true
  | _ => false

def isStruct : DataType → Bool
  | .struct _ => true
  | _ => false

/-! ### Integer types -/

def integerWidth? : DataType → Option Width
  | .int w => some w
  | .uint w => some w
  | _ => none

/-- The least and the greatest value of an integer type. -/
def integerBounds? : DataType → Option (Int × Int)
  | .int w => some (-Int.pow 2 (w.bits - 1), Int.pow 2 (w.bits - 1) - 1)
  | .uint w => some (0, Int.pow 2 w.bits - 1)
  | _ => none

/-! ### Text -/

end DataType

def Primitive.text : Primitive → String
  | .boolean => "boolean"
  | .int w => "int" ++ toString w.bits
  | .uint w => "uint" ++ toString w.bits
  | .float32 => "float32"
  | .float64 => "float64"
  | .decimal precision scale => "decimal(" ++ toString precision.toNat ++ ", " ++ toString scale.toNat ++ ")"
  | .string => "string"
  | .binary => "binary"
  | .date => "date"
  | .time => "time"
  | .timestamp none => "timestamp"
  | .timestamp (some zone) => "timestamp('" ++ zone ++ "')"
  | .interval unit => "interval('" ++ unit.code ++ "')"
  | .json => "json"
  | .uuid => "uuid"
  | .null => "null"
  | .unknown => "unknown"

namespace DataType

mutual

/-- How messages name a type. -/
def text : DataType → String
  | .primitive p => p.text
  | .array item => "array<" ++ item.text ++ ">"
  | .struct columns => "struct<" ++ ", ".intercalate (columnTexts columns) ++ ">"
  | .map key value => "map<" ++ key.text ++ ", " ++ value.text ++ ">"

def columnTexts : List (Column DataType) → List String
  | [] => []
  | ⟨name, type, _⟩ :: columns => (name ++ ": " ++ type.text) :: columnTexts columns

end

end DataType

end SqlPlan
