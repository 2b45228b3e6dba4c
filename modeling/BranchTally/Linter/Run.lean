-- SUMMARY: Runs the linter with a configuration of its own and reads the results it leaves.

import BranchTally.Linter.Results
import BranchTally.Shell.Command
import BranchTally.Shell.Words
import BranchTally.Text.Quoted

/-! # Running the linter

For one run a configuration is written to the project that makes the linter report every function,
whatever its score. The linter ends with a bad status as soon as it reports anything, so its status
means nothing. The configuration is removed again, unless the command line has no words: then nothing
is started and nothing is cleaned up. The linter itself is not part of the program: what starting it does
to the files is given by a `Launcher`.
-/

namespace BranchTally.Linter

/-! ## The configuration -/

/-- The name of the configuration file. -/
def configName : String := "eslint.config.temp.js"

/-- The lines of the configuration. -/
def configLines : List String :=
  ["import js from '@eslint/js'",
   "import globals from 'globals'",
   "import reactHooks from 'eslint-plugin-react-hooks'",
   "import reactRefresh from 'eslint-plugin-react-refresh'",
   "import tseslint from 'typescript-eslint'",
   "import \x7b defineConfig, globalIgnores \x7d from 'eslint/config'",
   "",
   "export default defineConfig([",
   "  globalIgnores(['dist', 'complexity', '**/__tests__/**', '**/*.test.\x7bts,tsx\x7d', " ++
     "'**/*.spec.\x7bts,tsx\x7d']),",
   "  \x7b",
   "    files: ['**/*.\x7bts,tsx\x7d'],",
   "    extends: [",
   "      js.configs.recommended,",
   "      tseslint.configs.recommended,",
   "      reactHooks.configs.flat.recommended,",
   "      reactRefresh.configs.vite,",
   "    ],",
   "    languageOptions: \x7b",
   "      ecmaVersion: 2020,",
   "      globals: globals.browser,",
   "    \x7d,",
   "    rules: \x7b",
   "      complexity: [\"warn\", \x7b max: 0, variant: \"classic\" \x7d],",
   "    \x7d,",
   "  \x7d,",
   "  \x7b",
   "    files: ['**/*.js'],",
   "    extends: [js.configs.recommended],",
   "    languageOptions: \x7b",
   "      ecmaVersion: 2020,",
   "      globals: globals.node,",
   "    \x7d,",
   "    rules: \x7b",
   "      complexity: [\"warn\", \x7b max: 0, variant: \"classic\" \x7d],",
   "    \x7d,",
   "  \x7d,",
   "])"]

/-- The configuration: every score is above the limit. -/
def config : String := String.join (configLines.map (· ++ "\n"))

/-! ## Errors -/

/-- Why there are no results. -/
inductive Error where
  | config (fault : FileFault)
  | words (fault : WordFault)
  | launch (program : List Char) (fault : LaunchFault)
  | results (path : List Char) (error : ResultsError)

/-- A fault of the file system as the system puts it. -/
def systemText (code : Nat) (what : String) (path : List Char) : String :=
  "[Errno " ++ toString code ++ "] " ++ what ++ ": " ++ String.ofList (Text.quoted path)

/-- What the system says of a file that cannot be read. -/
def fileText (fault : FileFault) (path : List Char) : String :=
  match fault with
  | .missing => systemText 2 "No such file or directory" path
  | .directory => systemText 21 "Is a directory" path
  | .notDirectory => systemText 20 "Not a directory" path

/-- What the system says of a program that cannot be started. -/
def launchText (fault : LaunchFault) (program : List Char) : String :=
  match fault with
  | .missing => systemText 2 "No such file or directory" program
  | .denied => systemText 13 "Permission denied" program
  | .notDirectory => systemText 20 "Not a directory" program

/-- What is missing in a JSON text. -/
def faultText (fault : Json.FaultKind) : String :=
  match fault with
  | .byteOrderMark => "Unexpected UTF-8 BOM (decode using utf-8-sig)"
  | .value => "Expecting value"
  | .name => "Expecting property name enclosed in double quotes"
  | .colon => "Expecting ':' delimiter"
  | .comma => "Expecting ',' delimiter"
  | .extraData => "Extra data"
  | .controlCharacter => "Invalid control character at"
  | .unterminated => "Unterminated string starting at"
  | .escape => "Invalid \\escape"
  | .unicodeEscape => "Invalid \\uXXXX escape"

/-- The message of an error that is the linter's, and not the caller's. -/
def Error.message? : Error → Option String
  | .config _ | .words _ => none
  | .launch program fault =>
    some ("Cannot run " ++ String.ofList (Text.quoted program) ++ ": " ++ launchText fault program)
  | .results path error =>
    let file := "ESLint report " ++ String.ofList path
    match error with
    | .unreadable fault => some ("Cannot read " ++ file ++ ": " ++ fileText fault path)
    | .encoding => none
    | .malformed fault =>
      some ("Cannot read " ++ file ++ ": " ++ faultText fault.kind ++ ": line " ++ toString fault.line ++
        " column " ++ toString fault.column ++ " (char " ++ toString fault.position ++ ")")
    | .notAList => some (file ++ " is not a JSON array")

/-! ## Running -/

/-- The arguments that follow the words of the command line. -/
def arguments (configPath output : List Char) : List (List Char) :=
  [['.'], "--config".toList, configPath, "--format=json".toList, "--output-file=".toList ++ output]

/-- Starts the linter in a directory; afterwards paths begin where they did before. -/
def start (launcher : Launcher) (tree : FileTree) (root configPath output : List Char)
    (words : List (List Char)) : Except Error FileTree :=
  match words ++ arguments configPath output with
  | [] => .ok tree
  | program :: args =>
    match tree.find root with
    | .error _ => .error (.launch root .missing)
    | .ok place =>
      match launcher { tree with home := place } program args with
      | .error fault => .error (.launch program fault)
      | .ok effect => .ok { effect.tree with home := tree.home }

/-- Runs the linter in a directory and reads its results. The tree is what is left in either case. -/
def run (tree : FileTree) (root command output : List Char) (launcher : Launcher := launch) :
    FileTree × Except Error Json :=
  let configPath := Path.join root configName.toList
  match tree.write configPath config.toUTF8 with
  | .error fault => (tree, .error (.config fault))
  | .ok configured =>
    match Words.split command with
    | .error fault => (configured, .error (.words fault))
    | .ok words =>
      let clean (t : FileTree) : FileTree := (t.remove configPath).toOption.getD t
      match start launcher configured root configPath output words with
      | .error e => (clean configured, .error e)
      | .ok finished =>
        let left := clean finished
        let path := Path.join root output
        (left, (readResults left.read path).mapError (.results path))

end BranchTally.Linter
