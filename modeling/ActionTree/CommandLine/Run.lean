/-
# Runs of the command line

What a command line does, as a function of what it can see: files, variables and
the standard input.

* `World`: what a run can see.
* `Report`: what comes out of a run.
* `paths`, `readsInput`: what of the world a run looks at.
* `report`: the run.
-/
import ActionTree.CommandLine.Arguments
import ActionTree.DotEnv
import ActionTree.Example
import ActionTree.LogFilter
import ActionTree.Run.Outcome
import ActionTree.Settings.Load
import ActionTree.Settings.Standard

namespace ActionTree.CommandLine

/-- What a run can see. The standard input may be no text. -/
structure World where
  files : Files
  environment : Environment
  input : Option String

/-- What comes out of a run: the exit status, the output, in which the time in
milliseconds may occur, a complaint, and the log. -/
structure Report where
  status : Nat
  output : UInt64 → String
  complaint : Option String
  log : List LogEntry
  ansi : Bool

/-! ### Faults -/

/-- Why a command is not carried out. -/
inductive Fault where
  | nullCharacter
  | settings (error : SettingsError)
  | invalidFilter (text : String)
  | brokenFilter (text : String)
  | unreadable (path : String)
  | unreadableInput
  | notJson
  | unknownExample (name : String)
  deriving DecidableEq

/-- The complaint about a fault. -/
def Fault.message : Fault → String
  | nullCharacter => "Error: Null character in the value of a variable"
  | settings error => "Error: " ++ error.message
  | invalidFilter text => "Error: Invalid log filter '" ++ text ++ "'"
  | brokenFilter text => "Error: Broken character in log filter '" ++ text ++ "'"
  | unreadable path => "Error: Failed to read " ++ path
  | unreadableInput => "Error: Failed to read decision tree from stdin"
  | notJson => "Error: Decision tree is not valid JSON"
  | unknownExample name =>
    "Unknown example: " ++ name ++ ". Available: " ++ ", ".intercalate (Example.all.map (·.name))

/-- The status of a run with a fault. That of a run that breaks off, because what is
asked for cannot be, differs from that of a run that is refused. -/
def Fault.status : Fault → Nat
  | nullCharacter | settings .noPlace | brokenFilter _ => 101
  | _ => 1

/-- The report on a fault. -/
def Fault.report (fault : Fault) : Report :=
  ⟨fault.status, fun _ => "", some fault.message, [], false⟩

/-! ### Surroundings -/

/-- The file with variables. -/
def variablesFile : String := ".env"

/-- The variable whose log filter comes before that of the settings. -/
def filterVariable : String := "RUST_LOG"

/-- The environment after the file with variables. -/
def environment (world : World) : Except Fault Environment :=
  match world.files variablesFile with
  | .text content => match DotEnv.load? world.environment content with
    | some environment => .ok environment
    | none => .error .nullCharacter
  | _ => .ok world.environment

/-- The log filter of a variable, if it is set to one. -/
def filterOfVariable? (environment : Environment) : Except Fault (Option LogFilter) :=
  match environment.value? filterVariable with
  | none => .ok none
  | some text => match LogFilter.read text with
    | .ok filter => .ok (some filter)
    | .error .malformed => .ok none
    | .error .brokenCharacter => .error (.brokenFilter text)

/-- The log filter of the settings. -/
def filterOfSettings (settings : Settings) : Except Fault LogFilter :=
  match LogFilter.read settings.logFilter with
  | .ok filter => .ok filter
  | .error .malformed => .error (.invalidFilter settings.logFilter)
  | .error .brokenCharacter => .error (.brokenFilter settings.logFilter)

/-- The log filter in force: that of the variable if it can be read, else that of
the settings. -/
def logFilter (environment : Environment) (settings : Settings) : Except Fault LogFilter := do
  match ← filterOfVariable? environment with
  | some filter => return filter
  | none => filterOfSettings settings

/-! ### Documents -/

/-- Whether a path means the standard input: a hyphen, with nothing but dots and
slashes behind it. -/
def isInput (path : String) : Bool :=
  match path.splitOn "/" with
  | "-" :: rest => rest.all fun part => part = "" || part = "."
  | _ => false

/-- Reads the document at a path. -/
def readDocument (world : World) (path : String) : Except Fault Json := do
  let text ←
    if isInput path then match world.input with
      | some text => .ok text
      | none => .error .unreadableInput
    else match (world.files path).content? with
      | some text => .ok text
      | none => .error (.unreadable path)
  match Json.ofText? text with
  | some json => return json
  | none => throw .notJson

/-! ### Results -/

section

variable (explain : String → String)

/-- The text of a result. -/
def layOut (settings : Settings) (json : Json) : String :=
  (if settings.pretty then json.pretty else json.compact) ++ "\n"

/-- The status of a run by its verdict. -/
def statusOf (verdict : Verdict) : Nat :=
  if verdict.success then 0 else 1

/-- The report that shows a value. -/
def shown (settings : Settings) (json : Json) : Report :=
  ⟨0, fun _ => layOut settings json, none, [], settings.ansi⟩

/-- The report on a document that was run. Messages go into the log. -/
def executed (settings : Settings) (filter : LogFilter) (document : Json) : Report :=
  let (outcome, state) := (Tree.run document).run (.new (.log settings.logContext))
  let verdict := Verdict.ofOutcome explain outcome
  let log := state.log.toList.filter fun entry => filter.shows entry.event.level
  ⟨statusOf verdict, fun time => layOut settings (verdict.executionJson time), none, log,
    settings.ansi⟩

/-- The report on a document that was checked. -/
def validated (settings : Settings) (document : Json) : Report :=
  let verdict := Verdict.ofOutcome explain (Tree.check document)
  ⟨statusOf verdict, fun _ => layOut settings verdict.validationJson, none, [], settings.ansi⟩

/-- Carries out a task. -/
def carryOut (world : World) (settings : Settings) (filter : LogFilter) :
    Task → Except Fault Report
  | .execute file => do return executed explain settings filter (← readDocument world file)
  | .validate file => do return validated explain settings (← readDocument world file)
  | .examples none => return shown settings (.arr (Example.all.map Example.toJson))
  | .examples (some name) => match Example.find? name with
    | some entry => return shown settings entry.tree
    | none => throw (.unknownExample name)

/-- Does what arguments ask for. -/
def perform (world : World) (arguments : Arguments) : Except Fault Report := do
  let environment ← environment world
  let settings ← (Settings.load .standard world.files environment arguments.settingsFile
    arguments.logFilter).mapError .settings
  let filter ← logFilter environment settings
  carryOut explain world settings filter arguments.task

/-! ### Command lines -/

/-- How the command line is used. -/
def usage : String :=
  "Validate and execute JSON decision trees\n\n" ++
  "Usage: decision-tree [OPTIONS] <COMMAND>\n\n" ++
  "Commands:\n" ++
  "  execute <FILE>     Execute a decision tree\n" ++
  "  validate <FILE>    Validate a decision tree without executing it\n" ++
  "  examples [NAME]    Print the built-in example trees\n" ++
  "  help               Print this message\n\n" ++
  "Options:\n" ++
  "      --config <CONFIG>          Path to config file (overrides default search)\n" ++
  "      --log-filter <LOG_FILTER>  Log filter directive (overrides config file and env vars)\n" ++
  "  -h, --help                     Print help\n"

/-- What the words of a command line bring about. What is wrong with a text that is no
expression is told by `explain`. -/
def report (world : World) (words : List String) : Report :=
  match Request.ofWords words with
  | .help => ⟨0, fun _ => usage, none, [], false⟩
  | .misuse => ⟨2, fun _ => "", some usage, [], false⟩
  | .run arguments => match perform explain world arguments with
    | .ok report => report
    | .error fault => fault.report

end

/-! ### What a run looks at -/

/-- The document that a task is about. -/
def Task.document? : Task → Option String
  | execute file => some file
  | validate file => some file
  | examples _ => none

/-- The paths that a run may look at, besides the file with variables. -/
def paths (environment : Environment) (arguments : Arguments) : List String :=
  Settings.paths .standard (Settings.chosenPath? environment arguments.settingsFile) ++
    arguments.task.document?.toList

/-- Whether a run reads the standard input. -/
def readsInput (arguments : Arguments) : Bool :=
  arguments.task.document?.any isInput

end ActionTree.CommandLine
