/-
# The library for settings

Files are found and read, sources merged and values converted by a library. What it does is
left open here: what is loaded is a function of any `Library`, and `Library.standard` is the one
that the program runs with.

* `Layer`: the entries of a source, in their order.
* `VariableRule`: which variables set something, and how they are read.
* `Found`: what is found where a settings file may be.
* `Library`: the library.
-/
import ActionTree.Environment
import ActionTree.Files
import ActionTree.Settings.Value

namespace ActionTree.Settings

/-- The entries of a source: keys with their values. -/
abbrev Layer := List (String × Setting)

/-- The variables that set something: how their names begin, what stands behind the beginning
and between the names of a key, and whether their texts are parsed. -/
structure VariableRule where
  start : String
  startSeparator : String
  separator : String
  parsed : Bool
  deriving DecidableEq

/-- What is found where a settings file may be: no file, one that cannot be read, or entries. -/
inductive Found where
  | nothing
  | unreadable
  | holds (layer : Layer)

/-- A library for settings. -/
structure Library where
  /-- The paths at which a file is looked for, besides its name itself. -/
  places : String → List String
  /-- What is found under the name of a file. -/
  file : Files → String → Found
  /-- The key that the name of a variable stands for, if it sets something. -/
  key? : VariableRule → String → Option String
  /-- The value of the text of a variable. -/
  value : VariableRule → String → Setting
  /-- A name in lower case. -/
  lower : String → String
  /-- The path of a key. -/
  path : String → List Setting.Step
  /-- Gives the end of a path a value. -/
  insert? : Setting → List Setting.Step → Setting → Option Setting
  /-- Puts the entries of a source over what others have said. -/
  merge? : Setting → Layer → Option Setting
  /-- A value as a text. -/
  asText? : Setting → Option String
  /-- A value as a truth value. -/
  asBool? : Setting → Option Bool

namespace Library

variable (lib : Library)

/-- What the environment says, variable by variable. -/
def assignments (rule : VariableRule) (environment : Environment) : Layer :=
  environment.filterMap fun (name, text) =>
    (lib.key? rule name).map fun key => (key, lib.value rule text)

end Library
end ActionTree.Settings
