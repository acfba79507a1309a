/-
# Where settings come from

A settings file, then the environment, each value replacing what came before under
the same name. The file is the one that is asked for, the one that a variable names
or a default file, which may be missing. Reading, merging and converting is left to a
library.

* `Settings.fileLayer`: what the settings file says.
* `Settings.layers?`: the file's values below those of the environment.
* `Settings.load`: the settings that result.
-/
import ActionTree.Settings.Basic

namespace ActionTree.Settings

/-- The variable that names a settings file. -/
def pathVariable : String := "DECISION_TREE_CONFIG_PATH"

/-- The name of a default file, without its extension. -/
def defaultFile : String := "decision-tree"

/-- The variables that set something, such as `DECISION_TREE_LOGGING__FILTER`. -/
def variableRule : VariableRule :=
  ⟨"DECISION_TREE", "_", "__", true⟩

/-- The settings file that is asked for, if any. -/
def chosenPath? (environment : Environment) (path : Option String) : Option String :=
  path.or (environment.value? pathVariable)

section

variable (lib : Library)

/-- What the settings file says: the file at a path, which must be there, or the default
file, which may be missing. -/
def fileLayer (files : Files) : Option String → Except SettingsError Layer
  | some path =>
    if files path = .absent then .error (.notFound path)
    else match lib.file files path with
      | .holds layer => .ok layer
      | .nothing | .unreadable => .error (.unreadable path)
  | none => match lib.file files defaultFile with
    | .holds layer => .ok layer
    | .nothing => .ok []
    | .unreadable => .error .unreadableDefault

/-- The values of a file below those of the environment. -/
def layers? (file : Layer) (environment : Environment) : Option Setting := do
  lib.merge? (← lib.merge? (.table []) file) (lib.assignments variableRule environment)

/-- The paths that are looked at for settings. -/
def paths (path : Option String) : List String :=
  let name := path.getD defaultFile
  name :: lib.places name

/-- The settings from a file and the environment. The path and the log filter that
are asked for come before all others, but do not hide an error. -/
def load (files : Files) (environment : Environment) (path logFilter : Option String) :
    Except SettingsError Settings := do
  let file ← fileLayer lib files (chosenPath? environment path)
  match layers? lib file environment with
  | none => .error .noPlace
  | some setting => match ofSetting? lib setting with
    | none => .error .invalid
    | some settings => .ok { settings with logFilter := logFilter.getD settings.logFilter }

end

end ActionTree.Settings
