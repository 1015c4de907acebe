import SqlPlan.Text.Alphanumeric
import SqlPlan.Text.Blank

/-!
# Environment files

A file of lines `NAME=value` adds variables to an environment. Variables that are already there keep their values. A
line that cannot be read ends the reading, and the lines ahead of it still count.
-/

namespace SqlPlan

/-- The variables of an environment. -/
abbrev Environment : Type := List (String × String)

namespace Environment

def find? (env : Environment) (name : String) : Option String := (List.find? (·.1 == name) env).map (·.2)

/-- Adds a variable, unless there is one of its name. -/
def add (env : Environment) (name value : String) : Environment :=
  if (env.find? name).isSome then env else env ++ [(name, value)]

end Environment

namespace EnvironmentFile

/-! ### Lines -/

/-- What a line is in the middle of. -/
inductive LineState where
  | text
  /-- Behind a blank, where a comment may start. -/
  | blank
  | escape
  | double
  | doubleEscape
  | single
  | singleEscape
deriving Repr, DecidableEq

/-- The state behind one more character. -/
def LineState.next (c : Char) : LineState → LineState
  | .text =>
    if isBlank c && c ≠ '\n' && c ≠ '\r' then .blank
    else if c = '\\' then .escape
    else if c = '"' then .double
    else if c = '\'' then .single
    else .text
  | .blank =>
    if c = '\\' then .escape
    else if c = '"' then .double
    else if c = '\'' then .single
    else .text
  | .escape => .text
  | .double => if c = '\\' then .doubleEscape else if c = '"' then .text else .double
  | .doubleEscape => .double
  | .single => if c = '\\' then .singleEscape else if c = '\'' then .text else .single
  | .singleEscape => .single

def afterBreak (cs : List Char) : List Char := (cs.dropWhile (· ≠ '\n')).drop 1

/-- Reads a line, which goes on behind a line break inside quotes, up to a comment. The result has the line without
its break and the rest of the text; there is none if the text ends inside quotes, behind a backslash or behind a blank
where a comment may start. -/
def line? (state : LineState) (done : List Char) : List Char → Option (List Char × List Char)
  | [] =>
    if state = .text then some (done.reverse, []) else none
  | c :: cs =>
    if state = .blank && c = '#' then some (done.reverse, afterBreak cs)
    else if c = '\n' then
      match state.next c with
      | .text | .blank => some (done.reverse, cs)
      | state => line? state (c :: done) cs
    else line? (state.next c) (c :: done) cs

/-! ### Values -/

/-- What a value is in the middle of. -/
inductive ValueState where
  | plain
  | double
  | single
  /-- Behind a backslash, inside double quotes or not. -/
  | escape (quoted : Bool)
  /-- In the name of a variable, read backwards. -/
  | name (letters : List Char) (quoted : Bool)
  /-- In the name of a variable in braces. -/
  | bracedName (letters : List Char) (quoted : Bool)
  /-- Behind the value. -/
  | finished
deriving Repr, DecidableEq

def outside (quoted : Bool) : ValueState := if quoted then .double else .plain

/-- Reads a value, with `lookup` for the values of variables. -/
def value? (lookup : String → String) (done : List Char) : ValueState → List Char → Option String
  | state, [] =>
    match state with
    | .plain | .finished | .escape false => some (String.ofList done.reverse)
    | .name letters false => some (String.ofList done.reverse ++ lookup (String.ofList letters.reverse))
    | _ => none
  | state, c :: cs =>
    match state with
    | .finished =>
      if c = ' ' || c = '\t' then value? lookup done .finished cs
      else if c = '#' then some (String.ofList done.reverse)
      else none
    | .escape quoted =>
      if c = 'n' then value? lookup ('\n' :: done) (outside quoted) cs
      else if c = '\\' || c = '\'' || c = '"' || c = '$' || c = ' ' then value? lookup (c :: done) (outside quoted) cs
      else none
    | .single => if c = '\'' then value? lookup done .plain cs else value? lookup (c :: done) .single cs
    | .name letters quoted =>
      if isAlphanumeric c then value? lookup done (.name (c :: letters) quoted) cs
      else if c = '\x7b' && letters.isEmpty then value? lookup done (.bracedName [] quoted) cs
      else
        let done := (lookup (String.ofList letters.reverse)).toList.reverse ++ done
        if c = '$' then value? lookup done (.name [] quoted) cs
        else value? lookup (c :: done) (outside quoted) cs
    | .bracedName letters quoted =>
      if c = '\x7d' then
        value? lookup ((lookup (String.ofList letters.reverse)).toList.reverse ++ done) (outside quoted) cs
      else value? lookup done (.bracedName (c :: letters) quoted) cs
    | .double =>
      if c = '$' then value? lookup done (.name [] true) cs
      else if c = '"' then value? lookup done .plain cs
      else if c = '\\' then value? lookup done (.escape true) cs
      else value? lookup (c :: done) .double cs
    | .plain =>
      if c = '$' then value? lookup done (.name [] false) cs
      else if c = '\'' then value? lookup done .single cs
      else if c = '"' then value? lookup done .double cs
      else if c = '\\' then value? lookup done (.escape false) cs
      else if c = ' ' || c = '\t' then value? lookup done .finished cs
      else value? lookup (c :: done) .plain cs

/-! ### Assignments -/

def isNameStart (c : Char) : Bool := c.isAlpha || c = '_'

def isNamePart (c : Char) : Bool := c.isAlphanum || c = '_' || c = '.'

/-- Reads a name and the blanks behind it. -/
def name? (cs : List Char) : Option (String × List Char) :=
  if cs.head?.any isNameStart then
    some (String.ofList (cs.takeWhile isNamePart), skipBlanks (cs.dropWhile isNamePart))
  else none

/-- Reads `NAME =`, with an optional word `export` ahead. -/
def assigned? (cs : List Char) : Option (String × List Char) := do
  let (name, rest) ← name? cs
  match rest with
  | '=' :: rest => return (name, rest)
  | _ =>
    if name = "export" then
      match ← name? rest with
      | (name, '=' :: rest) => return (name, rest)
      | _ => none
    else none

def startsComment (cs : List Char) : Bool := cs.isEmpty || cs.head? == some '#'

def trimEnd (cs : List Char) : List Char := (skipBlanks cs.reverse).reverse

/-- Reads a line: an assignment, or nothing if the line is empty or a comment. -/
def assignment? (lookup : String → String) (line : List Char) : Option (Option (String × String)) := do
  let cs := skipBlanks (trimEnd line)
  if startsComment cs then return none
  let (name, rest) ← assigned? cs
  let rest := skipBlanks rest
  if startsComment rest then return some (name, "")
  let value ← value? lookup [] .plain rest
  return some (name, value)

/-- The lookup of variables inside values: the environment first, then the assignments so far. -/
def lookupIn (env assigned : Environment) (name : String) : String :=
  ((env.find? name).or (assigned.find? name)).getD ""

/-- Adds the variables of all lines, given those that were assigned so far. -/
def loadLines : (fuel : Nat) → (env assigned : Environment) → List Char → Environment
  | 0, env, _, _ => env
  | fuel + 1, env, assigned, cs =>
    if cs.isEmpty then env
    else if (skipBlanks (cs.takeWhile (· ≠ '\n'))).head? == some '#' then
      loadLines fuel env assigned (afterBreak cs)
    else
      match line? .text [] cs with
      | none => env
      | some (line, rest) =>
        match assignment? (lookupIn env assigned) line with
        | none => env
        | some none => loadLines fuel env assigned rest
        | some (some (name, value)) =>
          loadLines fuel (env.add name value) ((name, value) :: assigned) rest

/-- The names of variables whose values may be asked for behind a dollar sign. -/
def references : List Char → List String
  | [] => []
  | '$' :: cs =>
    String.ofList (cs.takeWhile isAlphanumeric) :: String.ofList ((cs.drop 1).takeWhile (· ≠ '\x7d')) :: references cs
  | _ :: cs => references cs

/-- All words of a file that may be names of variables. -/
def names (text : String) : List String :=
  let words := text.toList.splitBy fun a b => isNamePart a && isNamePart b
  (words.filter fun word => word.head?.any isNamePart).map String.ofList ++ references text.toList

/-- Adds the variables of a file to an environment. A byte order mark ahead of the file is skipped. -/
def load (text : String) (env : Environment) : Environment :=
  let cs := match text.toList with
    | '\ufeff' :: cs => cs
    | cs => cs
  loadLines (cs.length + 1) env [] cs

end EnvironmentFile

end SqlPlan
