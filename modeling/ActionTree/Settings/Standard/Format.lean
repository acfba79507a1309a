/-
# Settings files

* `Settings.Format`: the formats of settings files, with their extensions.
* `Settings.candidates`: the files that a name may stand for.
* `Settings.found`: what is found under a name.
-/
import ActionTree.Files
import ActionTree.Json.Reader
import ActionTree.Settings.Library
import ActionTree.Settings.Standard.Yaml
import ActionTree.Settings.Toml.Reader

namespace ActionTree.Settings

/-! ### Formats -/

/-- The formats of settings files. Files in one of the other formats are known by their
extensions, but not read. -/
inductive Format where
  | json
  | toml
  | yaml
  | other
  deriving DecidableEq

/-- The extensions of settings files with their formats. -/
def extensions : List (String × Format) :=
  [("json", .json), ("toml", .toml), ("yaml", .yaml), ("yml", .yaml), ("ini", .other),
    ("ron", .other), ("json5", .other)]

/-- The format of a file by its extension. -/
def Format.ofPath? (path : String) : Option Format :=
  (Files.extension? path).bind (List.lookup · extensions)

/-- The value that a text in a format describes. -/
def Format.valueOf? (format : Format) (text : String) : Option Setting :=
  match format with
  | json => (Json.ofText? text).map Setting.ofJson
  | toml => Toml.ofText? text
  | yaml => Yaml.ofText? text
  | other => none

/-- What a text in a format says, which must be a table. -/
def Format.read (format : Format) (text : String) : Found :=
  match format.valueOf? text with
  | some (.table entries) => .holds entries
  | _ => .unreadable

/-! ### Names of files -/

/-- The parts of a path between its slashes. -/
def parts (path : String) : List (List Char) :=
  path.toList.splitOn '/'

/-- A path with an extension behind its last name. None for a path that does not end in a
name. -/
def withExtension? (path extension : String) : Option String :=
  let isName (part : List Char) : Bool := part != [] && part != ['.']
  let parts := ((parts path).reverse.dropWhile (!isName ·)).reverse
  match parts.getLast? with
  | none | some ['.', '.'] => none
  | some _ => some (String.ofList (['/'].intercalate parts) ++ "." ++ extension)

/-- The paths with an extension that a name may stand for, in the order in which they are
tried. -/
def candidates (name : String) : List String :=
  extensions.filterMap fun (extension, _) => withExtension? name extension

/-- What is found at the path of a file with a text, if its format is known. -/
def foundAt (path text : String) : Found :=
  match Format.ofPath? path with
  | some format => format.read text
  | none => .nothing

/-- What is found under a name: the file of exactly this name, else the first one with an
extension behind the name. -/
def found (files : Files) (name : String) : Found :=
  match files name with
  | .text content => foundAt name content
  | _ =>
    let texts := (candidates name).findSome? fun path =>
      (files path).content?.map fun content => foundAt path content
    texts.getD .nothing

end ActionTree.Settings
