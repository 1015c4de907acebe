import SqlPlan.CommandLine.Arguments
import SqlPlan.Compiler.Registry
import SqlPlan.Node.Json
import SqlPlan.Settings.Basic
import SqlPlan.Settings.Environment
import SqlPlan.Sql.Json

/-!
# Running commands

What the program does for a command line, given how files are read. Compilers are made for any way of reading dialects
from the text of a file. Every failure is reported by one message.
-/

namespace SqlPlan

/-- How a run of the program ends. -/
inductive Outcome where
  /-- The arguments are wrong. -/
  | usage
  | failure (message : String)
  | success (output : String)
deriving Repr, DecidableEq

def Outcome.exitCode : Outcome → Nat
  | .success _ => 0
  | .failure _ => 1
  | .usage => 2

section

variable {m : Type → Type} [Monad m] (read : String → m FileContents)

/-- Reads a node from a file. -/
def Node.ofFile (path : String) : ExceptT String m Node := do
  match (← read path).text? with
  | none => throw ("reading " ++ path)
  | some text =>
    match Node.ofText text with
    | .ok n => return n
    | .error _ => throw ("parsing IR node from " ++ path)

/-- Registers the dialects of files, one file after the other. -/
def DialectRegistry.registerFiles (dialectsOf? : String → Option (List Dialect)) (r : DialectRegistry) :
    List String → ExceptT String m DialectRegistry
  | [] => pure r
  | path :: paths => do
    match (registerContents dialectsOf? (← read path).text?).run r with
    | .ok _ r => r.registerFiles dialectsOf? paths
    | .error _ _ => throw ("loading dialects from " ++ path)

/-- The built-in compilers and those for the dialects of the settings. -/
def Settings.compilers (dialectsOf? : String → Option (List Dialect)) (s : Settings) :
    ExceptT String m CompilerRegistry := do
  match (DialectRegistry.registerAll s.dialects).run .builtin with
  | .error e _ => throw e.message
  | .ok _ r =>
    let r ← r.registerFiles read dialectsOf? s.dialectFiles
    match CompilerRegistry.ofDialects r with
    | .error e => throw e.message
    | .ok compilers => return compilers

/-- The text of a fragment in a format. -/
def Sql.Fragment.printed (fragment : Sql.Fragment) : OutputFormat → String
  | .sql => fragment.text
  | .ast => fragment.toJson.pretty 0

/-- The output of a command. -/
def Command.output (s : Settings) : Command → ExceptT String m String
  | .compile file dialect ast => do
    let n ← Node.ofFile read file
    let compilers ← s.compilers read Dialect.listOfYaml?
    match compilers.compile n (dialect.getD s.compile.defaultDialect) with
    | .error e => throw e.message
    | .ok fragment => return fragment.printed (if ast then .ast else s.compile.output)
  | .dialects => do
    let compilers ← s.compilers read Dialect.listOfYaml?
    return "\n".intercalate compilers.names
  | .fingerprint file => do
    let n ← Node.ofFile read file
    return n.fingerprint

/-- The output of an invocation in an environment. -/
def Invocation.output (env : Environment) (i : Invocation) : ExceptT String m String := do
  match Settings.load (← read i.config) env.find? with
  | .error _ => throw ("loading " ++ i.config)
  | .ok settings => i.command.output read settings

/-- The file whose variables are added to the environment. -/
def environmentFile : String := ".env"

/-- Runs the program. -/
def runCommand (env : Environment) (args : List String) : m Outcome := do
  let env := match (← read environmentFile).text? with
    | some text => EnvironmentFile.load text env
    | none => env
  match Invocation.ofArgs? args with
  | none => return .usage
  | some invocation =>
    match ← (invocation.output read env).run with
    | .ok output => return .success output
    | .error message => return .failure message

end

end SqlPlan
