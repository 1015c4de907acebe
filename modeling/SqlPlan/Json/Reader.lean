import SqlPlan.Json.Number

/-!
# Reading JSON text

The text is read strictly: no comments, no trailing commas, no raw control characters in strings, no lone surrogates,
and arrays and objects nested at most 127 deep.
-/

namespace SqlPlan.Json

def isSpace (c : Char) : Bool := c = ' ' || c = '\n' || c = '\t' || c = '\r'

/-- A text without its leading white space. -/
def skipSpace (cs : List Char) : List Char := cs.dropWhile isSpace

/-! ### Strings -/

/-- Reads four hexadecimal digits. -/
def unit? : List Char → Option (Nat × List Char)
  | a :: b :: c :: d :: rest => do
    let a ← hexValue? a
    let b ← hexValue? b
    let c ← hexValue? c
    let d ← hexValue? d
    return (((a * 16 + b) * 16 + c) * 16 + d, rest)
  | _ => none

/-- Reads the digits of a `\u` escape, and those of the second one if the first is half of a pair. -/
def unicode? (cs : List Char) : Option (Char × List Char) := do
  let (u, rest) ← unit? cs
  if 0xd800 ≤ u && u < 0xdc00 then
    match rest with
    | '\\' :: 'u' :: rest =>
      let (v, rest) ← unit? rest
      if 0xdc00 ≤ v && v < 0xe000 then
        return (Char.ofNat (0x10000 + (u - 0xd800) * 0x400 + (v - 0xdc00)), rest)
      else none
    | _ => none
  else if 0xdc00 ≤ u && u < 0xe000 then none
  else return (Char.ofNat u, rest)

/-- Reads the escape behind a backslash. -/
def escape? : List Char → Option (Char × List Char)
  | '"' :: rest => some ('"', rest)
  | '\\' :: rest => some ('\\', rest)
  | '/' :: rest => some ('/', rest)
  | 'b' :: rest => some (Char.ofNat 8, rest)
  | 'f' :: rest => some (Char.ofNat 12, rest)
  | 'n' :: rest => some ('\n', rest)
  | 'r' :: rest => some ('\r', rest)
  | 't' :: rest => some ('\t', rest)
  | 'u' :: rest => unicode? rest
  | _ => none

/-- Reads the rest of a string literal after its opening quote. `read` holds the characters so far, in reverse. -/
def characters? (fuel : Nat) (read : List Char) (cs : List Char) : Option (String × List Char) :=
  match fuel, cs with
  | _, '"' :: rest => some (String.ofList read.reverse, rest)
  | fuel + 1, '\\' :: rest => do
    let (c, rest) ← escape? rest
    characters? fuel (c :: read) rest
  | fuel + 1, c :: rest => if c.toNat < 32 then none else characters? fuel (c :: read) rest
  | _, _ => none

/-- Reads a string literal after its opening quote. -/
def string? (cs : List Char) : Option (String × List Char) := characters? cs.length [] cs

/-! ### Documents -/

/-- Reads a word that stands for a fixed document. -/
def word? (word : String) (value : Json) (cs : List Char) : Option (Json × List Char) :=
  if word.toList.isPrefixOf cs then some (value, cs.drop word.length) else none

mutual

/-- Reads a document, nested at most `room` deep. Every step uses up a character, so `fuel` need not exceed the
length of the text. -/
def value? (fuel room : Nat) (cs : List Char) : Option (Json × List Char) :=
  match fuel with
  | 0 => none
  | fuel + 1 =>
    match skipSpace cs, room with
    | 'n' :: rest, _ => word? "null" .null ('n' :: rest)
    | 't' :: rest, _ => word? "true" (.bool true) ('t' :: rest)
    | 'f' :: rest, _ => word? "false" (.bool false) ('f' :: rest)
    | '"' :: rest, _ => (string? rest).map fun (text, rest) => (.string text, rest)
    | '[' :: rest, room + 1 =>
      match skipSpace rest with
      | ']' :: rest => some (.array [], rest)
      | rest => items? fuel room [] rest
    | '\x7b' :: rest, room + 1 =>
      match skipSpace rest with
      | '\x7d' :: rest => some (.object [], rest)
      | rest => members? fuel room [] rest
    | rest, _ => number? rest

/-- Reads the items of an array up to its closing bracket. -/
def items? (fuel room : Nat) (read : List Json) (cs : List Char) : Option (Json × List Char) :=
  match fuel with
  | 0 => none
  | fuel + 1 => do
    let (item, rest) ← value? fuel room cs
    match skipSpace rest with
    | ',' :: rest => items? fuel room (item :: read) rest
    | ']' :: rest => some (.array (item :: read).reverse, rest)
    | _ => none

/-- Reads the members of an object up to its closing brace. -/
def members? (fuel room : Nat) (read : List (String × Json)) (cs : List Char) :
    Option (Json × List Char) :=
  match fuel with
  | 0 => none
  | fuel + 1 =>
    match skipSpace cs with
    | '"' :: rest => do
      let (key, rest) ← string? rest
      match skipSpace rest with
      | ':' :: rest =>
        let (value, rest) ← value? fuel room rest
        match skipSpace rest with
        | ',' :: rest => members? fuel room ((key, value) :: read) rest
        | '\x7d' :: rest => some (.object ((key, value) :: read).reverse, rest)
        | _ => none
      | _ => none
    | _ => none

end

/-- How deep arrays and objects may be nested in a text. -/
def maxDepth : Nat := 127

/-- Reads a document at the start of a text and returns what follows it. -/
def read? (text : String) : Option (Json × List Char) :=
  value? (text.length + 1) maxDepth text.toList

/-- Whether nothing but white space is left of a text. -/
def isBlankRest (rest : List Char) : Bool := (skipSpace rest).isEmpty

/-- Reads a text that holds one document and nothing else. -/
def ofText? (text : String) : Option Json := do
  let (value, rest) ← read? text
  if isBlankRest rest then some value else none

/-- The compact text of a JSON text, with ordered members. -/
def canonical? (text : String) : Option String :=
  (ofText? text).map fun document => document.sorted.compact

end SqlPlan.Json
