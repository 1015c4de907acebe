import SqlPlan.Dialect.Yaml

/-!
# Settings

The settings of the command line program. They are read from a YAML file, and variables of the environment take the
place of what the file says.
-/

namespace SqlPlan

/-- What a compilation prints. -/
inductive OutputFormat where
  | sql
  /-- The SQL tree as JSON. -/
  | ast
deriving Repr, DecidableEq

namespace OutputFormat

def name : OutputFormat → String
  | .sql => "sql"
  | .ast => "ast"

def ofName? : String → Option OutputFormat
  | "sql" => some .sql
  | "ast" => some .ast
  | _ => none

end OutputFormat

structure CompileSettings where
  defaultDialect : String := "postgres"
  output : OutputFormat := .sql

structure LoggingSettings where
  level : String := "warn"
  format : String := "compact"
  output : String := "stderr"
  directory : String := "./logs"

structure Settings where
  compile : CompileSettings := {}
  logging : LoggingSettings := {}
  /-- Dialects beside the built-in ones. -/
  dialects : List Dialect := []
  /-- Files with more dialects. -/
  dialectFiles : List String := []

/-- The form of log lines; any unknown name is `compact`. -/
inductive LogFormat where
  | pretty
  | json
  | compact
deriving Repr, DecidableEq

namespace LogFormat

def ofName : String → LogFormat
  | "json" => .json
  | "pretty" => .pretty
  | _ => .compact

def name : LogFormat → String
  | .pretty => "Pretty"
  | .json => "Json"
  | .compact => "Compact"

end LogFormat

/-- Where log lines go; any unknown name is `stderr`. -/
inductive LogOutput where
  | stderr
  | file
  | both
deriving Repr, DecidableEq

namespace LogOutput

def ofName : String → LogOutput
  | "file" => .file
  | "both" => .both
  | _ => .stderr

def name : LogOutput → String
  | .stderr => "Stderr"
  | .file => "File"
  | .both => "Both"

end LogOutput

inductive SettingsError where
  /-- The file cannot be read. -/
  | unreadable
  /-- The file does not have the right form. -/
  | malformed
  | invalidValue (key value : String)
deriving Repr, DecidableEq

def SettingsError.message : SettingsError → String
  | .unreadable => "Failed to read config file"
  | .malformed => "Failed to parse YAML"
  | .invalidValue key value => "Invalid value for " ++ key ++ ": " ++ value

/-- What stands at a path. -/
inductive FileContents where
  | missing
  | unreadable
  | text (contents : String)

/-- The contents of a file that must be there. -/
def FileContents.text? : FileContents → Option String
  | .text contents => some contents
  | .missing | .unreadable => none

namespace Settings

/-! ### The file -/

section

variable {δ ε : Type} [Document δ]

def compileFields : Fields δ ε CompileSettings :=
  let defaults : CompileSettings := {}
  CompileSettings.mk <$> .optional "default_dialect" defaults.defaultDialect Document.asText <*>
    .optional "output" defaults.output (Document.asOneOf OutputFormat.ofName?)

def loggingFields : Fields δ ε LoggingSettings :=
  let defaults : LoggingSettings := {}
  LoggingSettings.mk <$> .optional "level" defaults.level Document.asText <*>
    .optional "format" defaults.format Document.asText <*>
    .optional "output" defaults.output Document.asText <*>
    .optional "directory" defaults.directory Document.asText

def fields : Fields δ ε Settings :=
  Settings.mk <$> .optional "compile" {} (Document.asStructure compileFields) <*>
    .optional "logging" {} (Document.asStructure loggingFields) <*>
    .optional "dialects" [] (Document.asListOf Dialect.ofDocument) <*>
    .optional "dialect_files" [] (Document.asListOf Document.asText)

end

/-- The settings of a file; a missing one leaves all settings as they are. -/
def ofFile : FileContents → Except SettingsError Settings
  | .missing => .ok {}
  | .unreadable => .error .unreadable
  | .text contents =>
    match Yaml.structure? fields contents with
    | some settings => .ok settings
    | none => .error .malformed

/-! ### The environment -/

/-- The settings with the variables of an environment in place of their own values. -/
def override (s : Settings) (lookup : String → Option String) : Except SettingsError Settings := do
  let output ← match lookup "QUARRY_OUTPUT" with
    | none => .ok s.compile.output
    | some text =>
      match OutputFormat.ofName? text with
      | some format => .ok format
      | none => .error (.invalidValue "output" text)
  return { s with
    compile := {
      defaultDialect := (lookup "QUARRY_DIALECT").getD s.compile.defaultDialect
      output }
    logging := {
      level := (lookup "RUST_LOG").getD s.logging.level
      format := (lookup "LOG_FORMAT").getD s.logging.format
      output := (lookup "LOG_OUTPUT").getD s.logging.output
      directory := (lookup "LOG_DIR").getD s.logging.directory } }

/-- The settings of a file in an environment. -/
def load (file : FileContents) (lookup : String → Option String) : Except SettingsError Settings := do
  let settings ← ofFile file
  settings.override lookup

/-! ### Writing -/

def toJson (s : Settings) : Json :=
  .object [
    ("compile", .object [
      ("default_dialect", .string s.compile.defaultDialect),
      ("output", .string s.compile.output.name)]),
    ("logging", .object [
      ("level", .string s.logging.level),
      ("format", .string s.logging.format),
      ("output", .string s.logging.output),
      ("directory", .string s.logging.directory)]),
    ("dialects", .array (s.dialects.map Dialect.toJson)),
    ("dialect_files", .array (s.dialectFiles.map .string))]

end Settings

end SqlPlan
