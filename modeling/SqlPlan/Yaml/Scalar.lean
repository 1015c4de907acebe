import SqlPlan.Text.Hex
import SqlPlan.Yaml.Cursor

/-!
# YAML scalars

Scalars are written plainly or in single or double quotes.
-/

namespace SqlPlan.Yaml

/-! ### Plain scalars -/

/-- Characters that end a plain scalar inside brackets. -/
def isFlowIndicator (c : Char) : Bool := c = ',' || c = '[' || c = ']' || c = '\x7b' || c = '\x7d'

/-- Reads the characters of a plain scalar up to a blank or an indicator. -/
def plainPart? (inFlow : Bool) : (fuel : Nat) → List Char → Cursor → Option (List Char × Cursor)
  | 0, _, _ => none
  | fuel + 1, done, cur =>
    match cur.rest with
    | [] => some (done, cur)
    | c :: rest =>
      if isBlank c || isBreak c then some (done, cur)
      else if c = ':' then
        if endsWord rest then some (done, cur)
        else if inFlow && rest.head?.any (fun d => isFlowIndicator d || d = '?') then none
        else plainPart? inFlow fuel (c :: done) cur.skip
      else if inFlow && isFlowIndicator c then some (done, cur)
      else plainPart? inFlow fuel (c :: done) cur.skip

/-- Reads a plain scalar whose further lines start at column `indent` or behind. The result says whether the scalar
was followed by a line break. -/
def plainFrom? (inFlow : Bool) (indent : Int) :
    (fuel : Nat) → (done : List Char) → Gap → Cursor → Option (String × Bool × Cursor)
  | 0, _, _, _ => none
  | fuel + 1, done, gap, cur =>
    if cur.isAtDocumentMarker || cur.rest.head? == some '#' then
      some (String.ofList done.reverse, gap.folded, cur)
    else do
      let (part, cur) ← plainPart? inFlow (cur.rest.length + 1) [] cur
      let (done, gap) :=
        if part.isEmpty then (done, gap) else (part ++ gap.text.reverse ++ done, {})
      if cur.rest.isEmpty || !endsWord cur.rest then
        return (String.ofList done.reverse, gap.folded, cur)
      let (gap, cur) ← Gap.read? indent (cur.rest.length + 1) gap cur
      if !inFlow && cur.column < indent then return (String.ofList done.reverse, gap.folded, cur)
      plainFrom? inFlow indent fuel done gap cur

def plainScalar? (inFlow : Bool) (indent : Int) (cur : Cursor) : Option (String × Bool × Cursor) :=
  plainFrom? inFlow indent (cur.rest.length + 1) [] {} cur

/-! ### Quoted scalars -/

inductive QuoteStyle where
  | single
  | double
deriving Repr, DecidableEq

def QuoteStyle.mark : QuoteStyle → Char
  | .single => '\''
  | .double => '"'

/-- The character with a code of `n` hexadecimal digits. -/
def codePoint? (n : Nat) (cs : List Char) : Option Char := do
  let digits := cs.take n
  if digits.length < n then none
  else
    let code ← digits.foldlM (fun code c => (hexValue? c).map (code * 16 + ·)) 0
    if (0xd800 ≤ code && code ≤ 0xdfff) || 0x10ffff < code then none else some (Char.ofNat code)

/-- The character of an escape behind its backslash, and the length of the escape. -/
def escapeSequence? : List Char → Option (Char × Nat)
  | '0' :: _ => some (Char.ofNat 0, 1)
  | 'a' :: _ => some (Char.ofNat 7, 1)
  | 'b' :: _ => some (Char.ofNat 8, 1)
  | 't' :: _ | '\t' :: _ => some ('\t', 1)
  | 'n' :: _ => some ('\n', 1)
  | 'v' :: _ => some (Char.ofNat 11, 1)
  | 'f' :: _ => some (Char.ofNat 12, 1)
  | 'r' :: _ => some ('\r', 1)
  | 'e' :: _ => some (Char.ofNat 27, 1)
  | ' ' :: _ => some (' ', 1)
  | '"' :: _ => some ('"', 1)
  | '/' :: _ => some ('/', 1)
  | '\\' :: _ => some ('\\', 1)
  | 'N' :: _ => some ('\u0085', 1)
  | '_' :: _ => some ('\u00a0', 1)
  | 'L' :: _ => some ('\u2028', 1)
  | 'P' :: _ => some ('\u2029', 1)
  | 'x' :: cs => (codePoint? 2 cs).map (·, 3)
  | 'u' :: cs => (codePoint? 4 cs).map (·, 5)
  | 'U' :: cs => (codePoint? 8 cs).map (·, 9)
  | _ => none

/-- Reads the characters of a quoted scalar up to a blank or its end. An escaped line break ends the line without a
trace. -/
def quotedPart? (style : QuoteStyle) : (fuel : Nat) → List Char → Cursor → Option (List Char × Gap × Cursor)
  | 0, _, _ => none
  | fuel + 1, done, cur =>
    match cur.rest with
    | [] => some (done, {}, cur)
    | c :: rest =>
      if isBlank c || isBreak c then some (done, {}, cur)
      else if c = style.mark then
        if style = .single && rest.head? == some '\'' then
          quotedPart? style fuel ('\'' :: done) (cur.skipMany 2)
        else some (done, {}, cur)
      else if style = .double && c = '\\' then
        if !rest.isEmpty && endsLine rest then some (done, { folded := true }, cur.skip.skipBreak)
        else do
          let (d, n) ← escapeSequence? rest
          quotedPart? style fuel (d :: done) (cur.skipMany (n + 1))
      else quotedPart? style fuel (c :: done) cur.skip

/-- Reads a quoted scalar from behind its opening quote. -/
def quotedFrom? (style : QuoteStyle) :
    (fuel : Nat) → (done : List Char) → Cursor → Option (String × Cursor)
  | 0, _, _ => none
  | fuel + 1, done, cur =>
    if cur.isAtDocumentMarker || cur.rest.isEmpty then none
    else do
      let (done, gap, cur) ← quotedPart? style (cur.rest.length + 1) done cur
      if cur.rest.head? == some style.mark then
        return (String.ofList done.reverse, cur.skip)
      let (gap, cur) ← Gap.read? 0 (cur.rest.length + 1) gap cur
      quotedFrom? style fuel (gap.text.reverse ++ done) cur

def quotedScalar? (style : QuoteStyle) (cur : Cursor) : Option (String × Cursor) :=
  quotedFrom? style (cur.rest.length + 1) [] cur.skip

end SqlPlan.Yaml
