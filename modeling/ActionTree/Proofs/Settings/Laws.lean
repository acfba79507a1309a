/-
# What the library for settings is taken to do

The results on settings hold for every library that keeps to its documentation. What they need
of it stands here, law by law, and each result names the laws that it rests on: sources are
merged deeply and key by key (`Library.Merges`), keys and the names of variables are read in
lower case, with a point or the separator between names (`Library.Names`), a value is converted
to the type of a setting by itself (`Library.Converts`), a file is looked for at certain places
(`Library.Finds`), and the text of a variable is parsed and a value displayed as the language
does it (`Library.Parses`, `Library.Displays`).

Key definitions: `Library.Merges`, `Library.Names`, `Library.Converts`, `Library.Finds`,
`Library.Parses`, `Library.Displays`.
-/
import ActionTree.Expr.Value
import ActionTree.Json.Reader
import ActionTree.Settings.Load
import ActionTree.Settings.Standard

namespace ActionTree.Settings

open Setting (Step)

/-- A key that is a single name: letters, digits and underscores. -/
def isName (text : String) : Bool :=
  !text.isEmpty && text.toList.all fun c => c.isAlphanum || c = '_'

namespace Library

variable (lib : Library)

/-- Gives the names of a table their values one after the other. -/
def insertAll? (target : Setting) (entries : Layer) : Option Setting :=
  entries.foldlM (fun target (name, value) => lib.insert? target [.name name] value) target

/-- **Later sources are merged over earlier ones, deeply and key by key**, with names in lower
case. -/
structure Merges : Prop where
  /-- The entries of a source are put over what is there one after the other, -/
  nil (target : Setting) : lib.merge? target [] = some target
  /-- each at the path of its key. -/
  cons (target : Setting) (key : String) (value : Setting) (rest : Layer) :
    lib.merge? target ((key, value) :: rest) =
      (lib.insert? target (lib.path key) value).bind (lib.merge? · rest)
  /-- A path begins with a name. -/
  path_name (key : String) : ∃ name rest, lib.path key = .name name :: rest
  /-- What is put below a name leaves a table behind, -/
  isTable {target value changed : Setting} {name : String} {rest : List Step} :
    lib.insert? target (.name name :: rest) value = some changed → changed.isTable = true
  /-- in which the other names are what they were. -/
  others {target value changed : Setting} {name key : String} {rest : List Step} :
    lib.insert? target (.name name :: rest) value = some changed → key ≠ lib.lower name →
      changed.get? key = target.get? key
  /-- A value that is no table replaces what is under the name; -/
  replaces {target value changed : Setting} {name : String} :
    lib.insert? target [.name name] value = some changed → value.isTable = false →
      changed.get? (lib.lower name) = some value
  /-- a table is merged into it, name by name. -/
  merges {target changed : Setting} {name : String} {entries : Layer} :
    lib.insert? target [.name name] (.table entries) = some changed →
      ∃ inner, lib.insertAll? ((target.get? (lib.lower name)).getD (.table [])) entries =
          some inner ∧ changed.get? (lib.lower name) = some inner
  /-- A longer path leads on from what is under its first name, -/
  descends {target value changed : Setting} {name : String} {step : Step} {rest : List Step} :
    lib.insert? target (.name name :: step :: rest) value = some changed →
      ∃ inner, lib.insert? ((target.get? (lib.lower name)).getD .null) (step :: rest) value =
          some inner ∧ changed.get? (lib.lower name) = some inner
  /-- and a place is one in an array. -/
  places {target value changed : Setting} {index : Int} {rest : List Step} :
    lib.insert? target (.place index :: rest) value = some changed → changed.isPlain = false
  /-- A path of names leads somewhere. -/
  leads {steps : List Step} (h : ∀ step ∈ steps, ∃ name, step = .name name)
    (target value : Setting) : ∃ changed, lib.insert? target steps value = some changed

/-- **Keys are names with points between them, and variables stand for keys**: their names are
read in lower case, the beginning is left out, and a separator is a point. -/
structure Names : Prop where
  single {name : String} : isName name = true → lib.path name = [.name name]
  pair {group name : String} : isName group = true → isName name = true →
    lib.path (group ++ "." ++ name) = [.name group, .name name]
  lower {name : String} : isName name = true → lib.lower name = name.toLower
  key? {name : String} : isName name = true →
    lib.key? variableRule name = variableRule.key? name
  /-- A variable has neither a table nor an array as its value. -/
  isPlain (text : String) : (lib.value variableRule text).isPlain = true

/-- **A value is converted by itself**: a text to itself, a truth value to itself, and a table
or an array to neither. -/
structure Converts : Prop where
  text (text : String) : lib.asText? (.text text) = some text
  bool (b : Bool) : lib.asBool? (.bool b) = some b
  plain_of_asText? {value : Setting} {text : String} :
    lib.asText? value = some text → value.isPlain = true
  plain_of_asBool? {value : Setting} {b : Bool} : lib.asBool? value = some b → value.isPlain = true

/-- The file of a name is at a path: at the name itself, or, if there is no text, at the only one
of its places where there is anything. -/
def IsAt (files : Files) (name path : String) : Prop :=
  path = name ∨ (files name).content? = none ∧ path ∈ lib.places name ∧
    ∀ other ∈ lib.places name, other ≠ path → files other = .absent

/-- **A file is looked for at its places**, and one with the extension `json` is read as JSON. -/
structure Finds : Prop where
  congr {files others : Files} {name : String} :
    (∀ path ∈ name :: lib.places name, others path = files path) →
      lib.file others name = lib.file files name
  nothing {files : Files} {name : String} :
    (∀ path ∈ name :: lib.places name, files path = .absent) → lib.file files name = .nothing
  json {files : Files} {name path content : String} {fields : Fields Json} :
    lib.IsAt files name path → Files.extension? path = some "json" →
      files path = .text content → Json.ofText? content = some (.obj fields) →
      lib.file files name = .holds (Setting.ofFields fields)

/-- **The text of a variable is parsed**: as a truth value in any case, else as an integer of 64
bits, else as a number, else it is the text itself. -/
structure Parses : Prop where
  value (text : String) : lib.value variableRule text = ofVariable text

/-- **A value that is wanted as a text is displayed as the language does it.** -/
structure Displays : Prop where
  bool (b : Bool) : lib.asText? (.bool b) = some (if b then "true" else "false")
  int (n : Int) : lib.asText? (.int n) = some (Value.integerText n)
  float (x : Float) : lib.asText? (.float x) = some (Setting.layout.render x)
  text (text : String) : lib.asText? (.text text) = some text

end Library
end ActionTree.Settings
