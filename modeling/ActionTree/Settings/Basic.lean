/-
# Settings

* `Settings`: what can be set, with the defaults.
* `Settings.ofSetting?`: the settings that a table of values describes.
* `SettingsError`: why there are no settings, with the message.
-/
import ActionTree.Settings.Library

namespace ActionTree

/-- What can be set: which log lines are written and in what form, whether they show
the context of a message, and whether results are laid out over several lines. -/
structure Settings where
  logFilter : String
  ansi : Bool
  logContext : Bool
  pretty : Bool
  deriving DecidableEq

/-- Why there are no settings: a file is missing or cannot be read, a value is given a
place that no array has, or the values are of the wrong kind. -/
inductive SettingsError where
  | notFound (path : String)
  | unreadable (path : String)
  | unreadableDefault
  | noPlace
  | invalid
  deriving DecidableEq

/-- The message of an error. -/
def SettingsError.message : SettingsError → String
  | notFound path => "Config file not found: " ++ path
  | unreadable path => "Failed to read config file " ++ path
  | unreadableDefault => "Failed to read configuration"
  | noPlace => "No such place in an array"
  | invalid => "Invalid configuration"

namespace Settings

/-- The settings where nothing is set. -/
def default : Settings :=
  ⟨"info", true, true, true⟩

/-- A section of settings: a table of them, or their values in order. -/
structure Section where
  setting : Setting

/-- The section under a name. A missing one is empty. -/
def section? (setting : Setting) (name : String) : Option Section :=
  match setting.get? name with
  | none => some ⟨.table []⟩
  | some (.table entries) => some ⟨.table entries⟩
  | some (.array items) => some ⟨.array items⟩
  | some _ => none

/-- The value of a setting with a name and a position in its section. -/
def Section.value? (group : Section) (name : String) (position : Nat) : Option Setting :=
  (group.setting.get? name).or group.setting.items[position]?

/-- Reads a setting, or takes its default if it is missing. -/
def Section.read? {α : Type} (group : Section) (name : String) (position : Nat)
    (convert : Setting → Option α) (missing : α) : Option α :=
  match group.value? name position with
  | some value => convert value
  | none => some missing

/-- The settings that a table of values describes, with the conversions of a library.
Names that mean nothing are left alone. -/
def ofSetting? (lib : Library) (setting : Setting) : Option Settings := do
  let logging ← section? setting "logging"
  let logFilter ← logging.read? "filter" 0 lib.asText? default.logFilter
  let ansi ← logging.read? "ansi" 1 lib.asBool? default.ansi
  let execution ← section? setting "execution"
  let logContext ← execution.read? "log_context" 0 lib.asBool? default.logContext
  let output ← section? setting "output"
  let pretty ← output.read? "pretty" 0 lib.asBool? default.pretty
  return ⟨logFilter, ansi, logContext, pretty⟩

end Settings
end ActionTree
