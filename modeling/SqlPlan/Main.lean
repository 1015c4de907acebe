import SqlPlan.CommandLine.Run

/-!
# The program

Reads files and variables, and prints what a command line asks for.
-/

namespace SqlPlan

/-- The variables that settings are taken from. -/
def settingsVariables : List String :=
  ["QUARRY_DIALECT", "QUARRY_OUTPUT", "RUST_LOG", "LOG_FORMAT", "LOG_OUTPUT", "LOG_DIR"]

def readContents (path : String) : IO FileContents := do
  try
    return .text (← IO.FS.readFile path)
  catch
    | .noFileOrDirectory _ _ _ => return .missing
    | _ => return .unreadable

/-- The values of those variables that a run can ask for. -/
def currentEnvironment : IO Environment := do
  let names := match (← readContents environmentFile).text? with
    | some text => settingsVariables ++ EnvironmentFile.names text
    | none => settingsVariables
  names.filterMapM fun name => do return (← IO.getEnv name).map (name, ·)

end SqlPlan

open SqlPlan in
def main (args : List String) : IO UInt32 := do
  let outcome ← runCommand readContents (← currentEnvironment) args
  match outcome with
  | .success output => IO.println output
  | .failure message => IO.eprintln ("Error: " ++ message)
  | .usage => IO.eprintln "usage: compile FILE [-d DIALECT] [--ast] | dialects | fingerprint FILE, with [-c CONFIG]"
  return outcome.exitCode.toUInt32
