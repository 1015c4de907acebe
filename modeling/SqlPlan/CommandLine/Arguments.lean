/-!
# Arguments of the command line

A command is given by its name and may have options ahead of and behind its operands. An option has at most one value
at each of two levels, ahead of the name of the command and behind it; the value behind counts.
-/

namespace SqlPlan

inductive Command where
  | compile (file : String) (dialect : Option String) (ast : Bool)
  | dialects
  | fingerprint (file : String)
deriving Repr, DecidableEq

structure Invocation where
  /-- The settings file. -/
  config : String := "quarry.yaml"
  command : Command
deriving Repr, DecidableEq

namespace Invocation

/-! ### Words -/

/-- A part of the command line. -/
inductive Part where
  | config (file : String)
  | dialect (name : String)
  | ast
  | operand (text : String)
  /-- The end of the options. -/
  | terminator
deriving Repr, DecidableEq

/-- An option that takes a value. -/
inductive Flag where
  | config
  | dialect
deriving Repr, DecidableEq

def Flag.part : Flag → String → Part
  | .config, value => .config value
  | .dialect, value => .dialect value

/-- What a single argument is. -/
inductive Word where
  /-- An option with a value, if the value is part of the argument. -/
  | flag (flag : Flag) (value : Option String)
  | ast
  | operand (text : String)
  | terminator
  | unknown
deriving Repr, DecidableEq

def longWord (cs : List Char) : Word :=
  let name := cs.takeWhile (· ≠ '=')
  let value := match cs.dropWhile (· ≠ '=') with
    | [] => none
    | _ :: value => some (String.ofList value)
  match String.ofList name, value with
  | "config", value => .flag .config value
  | "dialect", value => .flag .dialect value
  | "ast", none => .ast
  | _, _ => .unknown

def shortWord (c : Char) (cs : List Char) : Word :=
  let value := match cs with
    | [] => none
    | '=' :: value => some (String.ofList value)
    | value => some (String.ofList value)
  match c with
  | 'c' => .flag .config value
  | 'd' => .flag .dialect value
  | _ => .unknown

def Word.ofText (text : String) : Word :=
  match text.toList with
  | ['-', '-'] => .terminator
  | '-' :: '-' :: cs => longWord cs
  | '-' :: c :: cs => shortWord c cs
  | _ => .operand text

/-- Whether an argument can be the value of the option ahead of it. -/
def isValue (text : String) : Bool :=
  match Word.ofText text with
  | .operand _ => true
  | _ => false

/-- The parts of a command line. -/
def parts? : List String → Option (List Part)
  | [] => some []
  | arg :: args =>
    match Word.ofText arg with
    | .operand text => (parts? args).map (.operand text :: ·)
    | .ast => (parts? args).map (.ast :: ·)
    | .terminator => some (.terminator :: args.map .operand)
    | .unknown => none
    | .flag flag (some value) => (parts? args).map (flag.part value :: ·)
    | .flag flag none =>
      match args with
      | [] => none
      | value :: args => if isValue value then (parts? args).map (flag.part value :: ·) else none

/-! ### Commands -/

/-- What is given behind the name of a command. -/
structure Given where
  config : Option String := none
  dialect : Option String := none
  ast : Bool := false
  operands : List String := []

/-- Sets an option that is not set yet. -/
def once? {α : Type} : Option α → α → Option (Option α)
  | none, a => some (some a)
  | some _, _ => none

def given? (g : Given) : List Part → Option Given
  | [] => some g
  | .config file :: parts => do
    let config ← once? g.config file
    given? { g with config } parts
  | .dialect name :: parts => do
    let dialect ← once? g.dialect name
    given? { g with dialect } parts
  | .ast :: parts => if g.ast then none else given? { g with ast := true } parts
  | .operand text :: parts => given? { g with operands := g.operands ++ [text] } parts
  | .terminator :: parts => given? g parts

/-- The path of a file is not empty. -/
def path? (text : String) : Option String := if text.isEmpty then none else some text

/-- The command of a name with what is given behind it. -/
def command? (name : String) (g : Given) : Option Command :=
  match name, g.operands, g.dialect, g.ast with
  | "compile", [file], dialect, ast => (path? file).map fun file => .compile file dialect ast
  | "dialects", [], none, false => some .dialects
  | "fingerprint", [file], none, false => (path? file).map .fingerprint
  | _, _, _, _ => none

/-- Reads the parts behind the options that stand ahead of the command. -/
def ofParts? (config : Option String) : List Part → Option Invocation
  | .config file :: parts => do
    let config ← once? config file
    ofParts? config parts
  | .operand name :: parts => do
    let g ← given? {} parts
    let command ← command? name g
    match g.config.or config with
    | none => return { command }
    | some file => return { config := file, command }
  | _ => none

/-- Whether no option has an empty path. -/
def hasPaths (parts : List Part) : Bool := !parts.contains (.config "")

/-- Reads the arguments of a command line. -/
def ofArgs? (args : List String) : Option Invocation := do
  let parts ← parts? args
  if hasPaths parts then ofParts? none parts else none

end Invocation

end SqlPlan
