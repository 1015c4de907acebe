/-!
# Positions in YAML text

A cursor is what is left of a text, with its place in the text. Scalars that are written over several lines are folded
into one: a single line break becomes a blank, and of several the first is dropped.
-/

namespace SqlPlan.Yaml

/-- What is left of a text and where it starts, counted from zero. -/
structure Cursor where
  rest : List Char
  index : Nat := 0
  line : Nat := 0
  column : Nat := 0

def isBlank (c : Char) : Bool := c = ' ' || c = '\t'

/-- Line breaks that are all read as `\n`. -/
def isPlainBreak (c : Char) : Bool := c = '\n' || c = '\r' || c = '\u0085'

def isBreak (c : Char) : Bool := isPlainBreak c || c = '\u2028' || c = '\u2029'

/-- Characters that may stand in a document. -/
def isPrintable (c : Char) : Bool :=
  let n := c.toNat
  c = '\t' || c = '\n' || c = '\r' || (0x20 ≤ n && n ≤ 0x7e) || n = 0x85 || (0xa0 ≤ n && n ≤ 0xfffd) || 0x10000 ≤ n

/-- Whether a text starts with a blank, a line break or its end. -/
def endsWord : List Char → Bool
  | [] => true
  | c :: _ => isBlank c || isBreak c

/-- Whether a text starts with a line break or its end. -/
def endsLine : List Char → Bool
  | [] => true
  | c :: _ => isBreak c

namespace Cursor

/-- Skips one character of a line. -/
def skip (cur : Cursor) : Cursor :=
  { cur with rest := cur.rest.drop 1, index := cur.index + 1, column := cur.column + 1 }

/-- Skips several characters of a line. -/
def skipMany (cur : Cursor) (n : Nat) : Cursor :=
  { cur with rest := cur.rest.drop n, index := cur.index + n, column := cur.column + n }

/-- Skips a line break. -/
def skipBreak (cur : Cursor) : Cursor :=
  let n := match cur.rest with
    | '\r' :: '\n' :: _ => 2
    | _ => 1
  { rest := cur.rest.drop n, index := cur.index + n, line := cur.line + 1, column := 0 }

/-- Skips a byte order mark at the start of a line, which still takes up a column. -/
def skipByteOrderMark (cur : Cursor) : Cursor :=
  if cur.column = 0 && cur.rest.head? == some '\ufeff' then cur.skip else cur

/-- Whether the cursor stands at a marker of three characters on a line of its own. -/
def isAtMarker (cur : Cursor) (c : Char) : Bool :=
  cur.column = 0 && cur.rest.take 3 == [c, c, c] && endsWord (cur.rest.drop 3)

/-- Whether the cursor stands at the start or the end of a document. -/
def isAtDocumentMarker (cur : Cursor) : Bool := cur.isAtMarker '-' || cur.isAtMarker '.'

end Cursor

/-- The blanks and line breaks between two parts of a scalar. -/
structure Gap where
  /-- The blanks ahead of the first line break, last one first. -/
  blanks : List Char := []
  /-- Whether a line was ended. -/
  folded : Bool := false
  /-- The break that ended the line, unless it was escaped. -/
  first : Option Char := none
  /-- The breaks of empty lines, last one first. -/
  more : List Char := []

namespace Gap

/-- What the gap is read as. -/
def text (g : Gap) : List Char :=
  if g.folded then
    match g.first, g.more with
    | some '\n', [] => [' ']
    | some '\n', more => more.reverse
    | first, more => first.toList ++ more.reverse
  else g.blanks.reverse

/-- The gap with one more line break. -/
def push (g : Gap) (c : Char) : Gap :=
  let c := if isPlainBreak c then '\n' else c
  if g.folded then { g with more := c :: g.more } else { g with folded := true, first := some c }

/-- Reads a gap. Behind a line break, a tab that stands ahead of column `indent` is an error. -/
def read? (indent : Int) : (fuel : Nat) → Gap → Cursor → Option (Gap × Cursor)
  | 0, _, _ => none
  | fuel + 1, g, cur =>
    match cur.rest with
    | c :: _ =>
      if isBlank c then
        if g.folded then
          if c = '\t' && cur.column < indent then none else read? indent fuel g cur.skip
        else read? indent fuel { g with blanks := c :: g.blanks } cur.skip
      else if isBreak c then read? indent fuel (g.push c) cur.skipBreak
      else some (g, cur)
    | [] => some (g, cur)

end Gap

end SqlPlan.Yaml
