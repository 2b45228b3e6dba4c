-- SUMMARY: The settings of the program, from given values, the environment and an environment file.

import BranchTally.File.Tree
import BranchTally.Json.Display
import BranchTally.Json.Reader
import BranchTally.Schema.Scalar
import BranchTally.Settings.EnvFile
import BranchTally.Text.Case

/-! # Settings

A setting is taken from the values that are given, else from the environment, else from the file of
variables in the working directory, else it has its default. Case does not matter in names of
variables. Names that are no settings are passed over.
-/

namespace BranchTally

/-- The settings of the program. -/
structure Settings where
  host : String
  port : Int
  debug : Bool
  logLevel : String
  origins : List String
  projectRoot : List Char
  reportName : String
  linterCommand : String
  linterOutput : String
  topMismatches : Int
  reportPath : List Char

/-- Why there are no settings. -/
inductive SettingsError where
  | invalid
  | list
  | encoding
  deriving DecidableEq

namespace Settings

/-- The names of all settings. -/
def names : List String :=
  ["HOST", "PORT", "DEBUG", "LOG_LEVEL", "CORS_ORIGINS", "PROJECT_ROOT", "REPORT_FILENAME",
   "ESLINT_COMMAND", "ESLINT_OUTPUT_FILENAME", "TOP_MISMATCHES", "REPORT_PATH"]

/-- The name of the file of variables. -/
def fileName : List Char := ".env".toList

/-- The variables with their names in lower case; the last of equal names comes first. -/
def folded (known : List (List Char × Option (List Char))) : List (List Char × Option (List Char)) :=
  known.reverse.map fun v => (Text.lower v.1, v.2)

/-- Where settings come from, the variables with their names in lower case. -/
structure Sources where
  given : Json
  environment : List (List Char × Option (List Char))
  file : List (List Char × Option (List Char))

/-- The value of a variable. -/
def valueIn? (known : List (List Char × Option (List Char))) (name : String) : Option String :=
  ((known.lookup (Text.lower name.toList)).join).map String.ofList

/-- The value of a setting, before it is checked. -/
def Sources.value? (s : Sources) (name : String) : Option Json :=
  (s.given.field? name).or
    (((valueIn? s.environment name).or (valueIn? s.file name)).map .str)

/-- The list that a variable writes in JSON; `null` stands for none. -/
def listIn? (known : List (List Char × Option (List Char))) (name : String) :
    Except SettingsError (Option Json) :=
  match valueIn? known name with
  | none => .ok none
  | some s =>
    match Json.parse s.toList with
    | .ok .null => .ok none
    | .ok v => .ok (some v)
    | .error _ => .error .list

/-- The value of a setting that variables write in JSON. -/
def Sources.listValue? (s : Sources) (name : String) : Except SettingsError (Option Json) := do
  let fromEnvironment ← listIn? s.environment name
  let fromFile ← listIn? s.file name
  pure ((s.given.field? name).or (fromEnvironment.or fromFile))

/-- A setting with its check and its default. -/
def Sources.setting {α : Type} (s : Sources) (name : String) (default : α)
    (check : Json → Schema.Checked α) : Except SettingsError α :=
  match s.value? name with
  | none => .ok default
  | some v => (check v).mapError fun _ => .invalid

/-- The settings from their sources. Paths are taken from an absolute working directory. -/
def ofSources (home : List Char) (s : Sources) : Except SettingsError Settings := do
  let originValue ← s.listValue? "CORS_ORIGINS"
  let origins ←
    match originValue with
    | none => .ok ["*"]
    | some v => (Schema.listOf Schema.text v).mapError fun _ => .invalid
  let shown (v : Json) : Schema.Checked (List Char) := .ok v.display
  let rootText ← s.setting "PROJECT_ROOT" ['.'] shown
  let projectRoot := Path.resolve home rootText
  let reportName ← s.setting "REPORT_FILENAME" "ast-mismatch-report.json" Schema.text
  let reportPath ← s.setting "REPORT_PATH" none (Schema.optional Schema.text)
  pure
    { host := ← s.setting "HOST" "127.0.0.1" Schema.text
      port := ← s.setting "PORT" 8000 Schema.integer
      debug := ← s.setting "DEBUG" false Schema.boolean
      logLevel := String.ofList (Text.upper (← s.setting "LOG_LEVEL" "INFO".toList shown))
      origins, projectRoot, reportName
      linterCommand := ← s.setting "ESLINT_COMMAND" "npx eslint" Schema.text
      linterOutput := ← s.setting "ESLINT_OUTPUT_FILENAME" "complexity-report.json" Schema.text
      topMismatches := ← s.setting "TOP_MISMATCHES" 20 Schema.integer
      reportPath :=
        match reportPath with
        | some path => Path.tidy path.toList
        | none => Path.join projectRoot reportName.toList }

/-- The variables of the file in the working directory, if there is one. -/
def fileVariables (read : FileReader) (environment : List (List Char × List Char))
    (readVariables : EnvReader) : Except SettingsError (List (List Char × Option (List Char))) :=
  match read fileName with
  | .error _ => .ok []
  | .ok bytes =>
    match Content.strictText? bytes with
    | some text => .ok (readVariables environment text)
    | none => .error .encoding

/-- The settings in a working directory. -/
def load (home : List Char) (read : FileReader) (given : Json)
    (environment : List (List Char × List Char)) (readVariables : EnvReader := EnvFile.read) :
    Except SettingsError Settings := do
  let file ← fileVariables read environment readVariables
  let outside := environment.map fun e => (e.1, some e.2)
  ofSources home ⟨given, folded outside, folded file⟩

end Settings

end BranchTally
