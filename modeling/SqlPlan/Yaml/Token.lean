import SqlPlan.Yaml.Scalar

/-!
# YAML tokens

The text of a document is cut into tokens. Indentation becomes tokens too: a block starts where a line is indented
further and ends where a line is indented less. That a scalar is the key of a mapping shows only at the colon behind
it; it is kept as a candidate until then. Anchors, tags, directives and block scalars are not read.
-/

namespace SqlPlan.Yaml

inductive Token where
  | documentStart
  | documentEnd
  | blockSequenceStart
  | blockMappingStart
  | blockEnd
  | flowSequenceStart
  | flowSequenceEnd
  | flowMappingStart
  | flowMappingEnd
  | flowEntry
  | blockEntry
  | key
  | value
  | scalar (text : String) (plain : Bool)
deriving Repr, DecidableEq

/-- Something that may turn out to be a key. -/
structure Candidate where
  /-- The number of tokens ahead of it. -/
  place : Nat
  index : Nat
  line : Nat
  column : Nat
  /-- Whether it can be nothing else, because a block demands a key here. -/
  required : Bool

/-- The state of reading tokens. -/
structure Scan where
  cursor : Cursor
  /-- The tokens so far, last one first. -/
  tokens : List Token := []
  /-- The column of the innermost block, and those of the blocks around it. -/
  indent : Int := -1
  indents : List Int := []
  /-- Whether a key may start here. -/
  keyAllowed : Bool := true
  /-- The candidate inside the innermost brackets, and those in the brackets around. -/
  candidate : Option Candidate := none
  enclosing : List (Option Candidate) := []

namespace Scan

/-- Whether the scan is inside brackets. -/
def inFlow (s : Scan) : Bool := !s.enclosing.isEmpty

def push (s : Scan) (t : Token) : Scan := { s with tokens := t :: s.tokens }

/-- Puts a token behind the first `place` tokens. -/
def insert (s : Scan) (place : Nat) (t : Token) : Scan :=
  { s with tokens := s.tokens.insertIdx (s.tokens.length - place) t }

/-! ### Candidates -/

/-- Gives the candidate up, unless it is required. -/
def dropCandidate? (s : Scan) : Option Scan :=
  if s.candidate.any (·.required) then none else some { s with candidate := none }

/-- Makes what comes next a candidate if a key may start here. -/
def saveCandidate? (s : Scan) : Option Scan :=
  if s.keyAllowed then do
    let required := !s.inFlow && s.indent == s.cursor.column
    let s ← s.dropCandidate?
    return { s with candidate := some ⟨s.tokens.length, s.cursor.index, s.cursor.line, s.cursor.column, required⟩ }
  else some s

/-- A key is written on one line and is not longer than this. -/
def maxKeyLength : Nat := 1024

def isStale (cur : Cursor) (c : Candidate) : Bool := c.line < cur.line || c.index + maxKeyLength < cur.index

def renew? (cur : Cursor) : Option Candidate → Option (Option Candidate)
  | none => some none
  | some c => if isStale cur c then (if c.required then none else some none) else some (some c)

/-- Gives up the candidates that are too far back. -/
def renewCandidates? (s : Scan) : Option Scan := do
  let candidate ← renew? s.cursor s.candidate
  let enclosing ← s.enclosing.mapM (renew? s.cursor)
  return { s with candidate, enclosing }

/-! ### Indentation -/

/-- Opens a block at a column that lies further right than the block around it. -/
def openBlock (s : Scan) (column : Nat) (start : Token) (place : Nat) : Scan :=
  if !s.inFlow && s.indent < column then
    { s.insert place start with indent := column, indents := s.indent :: s.indents }
  else s

def closeBlocksFrom (column : Int) (s : Scan) : List Int → Scan
  | [] => s
  | outer :: rest =>
    if column < s.indent then
      closeBlocksFrom column { s.push .blockEnd with indent := outer, indents := rest } rest
    else s

/-- Closes the blocks that lie further right than a column. -/
def closeBlocks (s : Scan) (column : Int) : Scan :=
  if s.inFlow then s else closeBlocksFrom column s s.indents

/-! ### White space and comments -/

def skipComment (cur : Cursor) : Cursor :=
  match cur.rest with
  | '#' :: _ => cur.skipMany (cur.rest.takeWhile fun c => !isBreak c).length
  | _ => cur

/-- Goes on to the next token. Where a key may start, tabs are no indentation. A line may start with a byte order
mark. -/
def toToken : (fuel : Nat) → Scan → Scan
  | 0, s => s
  | fuel + 1, s =>
    let blank c := c = ' ' || (c = '\t' && (s.inFlow || !s.keyAllowed))
    let cur := s.cursor.skipByteOrderMark
    let cur := skipComment (cur.skipMany (cur.rest.takeWhile blank).length)
    match cur.rest with
    | c :: _ =>
      if isBreak c then toToken fuel { s with cursor := cur.skipBreak, keyAllowed := s.keyAllowed || !s.inFlow }
      else { s with cursor := cur }
    | [] => { s with cursor := cur }

/-! ### Tokens -/

/-- The start or the end of a document. -/
def documentMarker? (s : Scan) (t : Token) : Option Scan := do
  let s ← (s.closeBlocks (-1)).dropCandidate?
  return { s.push t with keyAllowed := false, cursor := s.cursor.skipMany 3 }

def openFlow? (s : Scan) (t : Token) : Option Scan := do
  let s ← s.saveCandidate?
  return { s.push t with
    keyAllowed := true, candidate := none, enclosing := s.candidate :: s.enclosing, cursor := s.cursor.skip }

def closeFlow? (s : Scan) (t : Token) : Option Scan := do
  let s ← s.dropCandidate?
  let (candidate, enclosing) := match s.enclosing with
    | [] => (s.candidate, [])
    | c :: cs => (c, cs)
  return { s.push t with keyAllowed := false, candidate, enclosing, cursor := s.cursor.skip }

def flowEntry? (s : Scan) : Option Scan := do
  let s ← s.dropCandidate?
  return { s.push .flowEntry with keyAllowed := true, cursor := s.cursor.skip }

def blockEntry? (s : Scan) : Option Scan := do
  if !s.inFlow && !s.keyAllowed then none
  else
    let s ← (s.openBlock s.cursor.column .blockSequenceStart s.tokens.length).dropCandidate?
    return { s.push .blockEntry with keyAllowed := true, cursor := s.cursor.skip }

/-- A key that is marked as such. -/
def markedKey? (s : Scan) : Option Scan := do
  if !s.inFlow && !s.keyAllowed then none
  else
    let s ← (s.openBlock s.cursor.column .blockMappingStart s.tokens.length).dropCandidate?
    return { s.push .key with keyAllowed := !s.inFlow, cursor := s.cursor.skip }

/-- A colon, which makes the candidate a key. -/
def value? (s : Scan) : Option Scan :=
  match s.candidate with
  | some c =>
    let s := (s.insert c.place .key).openBlock c.column .blockMappingStart c.place
    some { s.push .value with candidate := none, keyAllowed := false, cursor := s.cursor.skip }
  | none =>
    if !s.inFlow && !s.keyAllowed then none
    else
      let s := s.openBlock s.cursor.column .blockMappingStart s.tokens.length
      some { s.push .value with keyAllowed := !s.inFlow, cursor := s.cursor.skip }

def quoted? (s : Scan) (style : QuoteStyle) : Option Scan := do
  let s ← s.saveCandidate?
  let (text, cursor) ← quotedScalar? style s.cursor
  return { s.push (.scalar text false) with keyAllowed := false, cursor }

def plain? (s : Scan) : Option Scan := do
  let s ← s.saveCandidate?
  let (text, folded, cursor) ← plainScalar? s.inFlow (s.indent + 1) s.cursor
  return { s.push (.scalar text true) with keyAllowed := folded, cursor }

/-- Characters that no plain scalar starts with. -/
def isIndicator (c : Char) : Bool :=
  "-?:,[]\x7b\x7d#&*!|>'\"%@`".toList.contains c

/-- Whether a plain scalar starts with `c` ahead of `rest`. -/
def startsPlain (inFlow : Bool) (c : Char) (rest : List Char) : Bool :=
  !(isBlank c || isIndicator c) || (c = '-' && !rest.head?.any isBlank) ||
    (!inFlow && (c = '?' || c = ':') && !endsWord rest)

/-- Reads the token that starts with `c`. -/
def dispatch? (s : Scan) (c : Char) (rest : List Char) : Option Scan :=
  if s.cursor.isAtMarker '-' then s.documentMarker? .documentStart
  else if s.cursor.isAtMarker '.' then s.documentMarker? .documentEnd
  else if c = '[' then s.openFlow? .flowSequenceStart
  else if c = '\x7b' then s.openFlow? .flowMappingStart
  else if c = ']' then s.closeFlow? .flowSequenceEnd
  else if c = '\x7d' then s.closeFlow? .flowMappingEnd
  else if c = ',' then s.flowEntry?
  else if c = '-' && endsWord rest then s.blockEntry?
  else if c = '?' && (s.inFlow || endsWord rest) then s.markedKey?
  else if c = ':' && (s.inFlow || endsWord rest) then s.value?
  else if c = '\'' then s.quoted? .single
  else if c = '"' then s.quoted? .double
  else if startsPlain s.inFlow c rest then s.plain?
  else none

/-- Ends the text: all blocks are closed. -/
def finish? (s : Scan) : Option (List Token) := do
  let s ← (s.closeBlocks (-1)).dropCandidate?
  return s.tokens.reverse

/-- Reads all tokens from here on. -/
def run? : (fuel : Nat) → Scan → Option (List Token)
  | 0, _ => none
  | fuel + 1, s => do
    let s ← (s.toToken (s.cursor.rest.length + 1)).renewCandidates?
    match s.cursor.rest with
    | [] => s.finish?
    | c :: rest =>
      let s ← dispatch? (s.closeBlocks s.cursor.column) c rest
      run? fuel s

end Scan

/-- The tokens of a text. -/
def tokens? (text : String) : Option (List Token) :=
  let cs := text.toList
  if cs.all isPrintable then Scan.run? (cs.length + 1) { cursor := { rest := cs } } else none

end SqlPlan.Yaml
