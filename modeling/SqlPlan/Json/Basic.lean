import SqlPlan.Decimal.Layout
import SqlPlan.Text.Hex

/-!
# JSON documents and their text

A document keeps the members of an object in the order in which they were written. `Json.sorted` is the document with
the members of every object ordered by key and only the last of several equal keys kept.
-/

namespace SqlPlan

/-- A JSON document. Numbers without fraction and exponent are integers when they fit into 64 bits. -/
inductive Json where
  | null
  | bool (b : Bool)
  | int (n : Int)
  | float (x : Float)
  | string (text : String)
  | array (items : List Json)
  | object (members : List (String × Json))

namespace Json

/-! ### Optional members -/

/-- A member that is left out when there is no document for it. -/
def ifPresent (key : String) : Option Json → List (String × Json)
  | none => []
  | some json => [(key, json)]

/-- A member that is left out when its list is empty. -/
def unlessEmpty (key : String) : List Json → List (String × Json)
  | [] => []
  | items => [(key, .array items)]

/-- A document, or `null` in place of one. -/
def orNull : Option Json → Json
  | none => .null
  | some json => json

/-! ### Order of members -/

/-- Puts a member into a list that is ordered by key, in place of an earlier one of the same key. -/
def insertMember (key : String) (value : Json) : List (String × Json) → List (String × Json)
  | [] => [(key, value)]
  | (k, v) :: rest =>
    if key < k then (key, value) :: (k, v) :: rest
    else if key = k then (key, value) :: rest
    else (k, v) :: insertMember key value rest

mutual

/-- The document with ordered members. -/
def sorted : Json → Json
  | .array items => .array (sortedItems items)
  | .object members => .object (sortedMembers [] members)
  | .null => .null
  | .bool b => .bool b
  | .int n => .int n
  | .float x => .float x
  | .string text => .string text

def sortedItems : List Json → List Json
  | [] => []
  | item :: items => sorted item :: sortedItems items

/-- Adds members to a list of ordered ones. -/
def sortedMembers (done : List (String × Json)) : List (String × Json) → List (String × Json)
  | [] => done
  | (key, value) :: members => sortedMembers (insertMember key (sorted value) done) members

end

/-! ### Nesting -/

mutual

/-- How deep arrays and objects are nested. -/
def depth : Json → Nat
  | .array items => depthItems items + 1
  | .object members => depthMembers members + 1
  | _ => 0

def depthItems : List Json → Nat
  | [] => 0
  | item :: items => max (depth item) (depthItems items)

def depthMembers : List (String × Json) → Nat
  | [] => 0
  | (_, value) :: members => max (depth value) (depthMembers members)

end

/-! ### Text -/

/-- How a string literal writes one character. -/
def escapedChar (c : Char) : List Char :=
  if c = '"' then ['\\', '"']
  else if c = '\\' then ['\\', '\\']
  else if c = '\n' then ['\\', 'n']
  else if c = '\r' then ['\\', 'r']
  else if c = '\t' then ['\\', 't']
  else if c.toNat = 8 then ['\\', 'b']
  else if c.toNat = 12 then ['\\', 'f']
  else if c.toNat < 32 then ['\\', 'u'] ++ hexPadded 4 c.toNat
  else [c]

/-- A string literal. -/
def literal (text : String) : String :=
  String.ofList ('"' :: (text.toList.flatMap escapedChar ++ ['"']))

mutual

/-- The document without any white space. -/
def compact : Json → String
  | .null => "null"
  | .bool true => "true"
  | .bool false => "false"
  | .int n => toString n
  | .float x => FloatLayout.json.write x
  | .string text => literal text
  | .array items => "[" ++ compactItems items ++ "]"
  | .object members => "\x7b" ++ compactMembers members ++ "\x7d"

def compactItems : List Json → String
  | [] => ""
  | [item] => compact item
  | item :: items => compact item ++ "," ++ compactItems items

def compactMembers : List (String × Json) → String
  | [] => ""
  | [(key, value)] => literal key ++ ":" ++ compact value
  | (key, value) :: members => literal key ++ ":" ++ compact value ++ "," ++ compactMembers members

end

def newLine (indent : Nat) : String :=
  String.ofList ('\n' :: List.replicate (2 * indent) ' ')

mutual

/-- The document with every item and every member on a line of its own, two blanks for each level. -/
def pretty (indent : Nat) : Json → String
  | .array [] => "[]"
  | .array (item :: items) =>
    "[" ++ newLine (indent + 1) ++ pretty (indent + 1) item ++ prettyItems (indent + 1) items ++ newLine indent ++ "]"
  | .object [] => "\x7b\x7d"
  | .object ((key, value) :: members) =>
    "\x7b" ++ newLine (indent + 1) ++ literal key ++ ": " ++ pretty (indent + 1) value ++
      prettyMembers (indent + 1) members ++ newLine indent ++ "\x7d"
  | .null => "null"
  | .bool true => "true"
  | .bool false => "false"
  | .int n => toString n
  | .float x => FloatLayout.json.write x
  | .string text => literal text

/-- The items after the first. -/
def prettyItems (indent : Nat) : List Json → String
  | [] => ""
  | item :: items => "," ++ newLine indent ++ pretty indent item ++ prettyItems indent items

/-- The members after the first. -/
def prettyMembers (indent : Nat) : List (String × Json) → String
  | [] => ""
  | (key, value) :: members =>
    "," ++ newLine indent ++ literal key ++ ": " ++ pretty indent value ++ prettyMembers indent members

end

end Json

end SqlPlan
