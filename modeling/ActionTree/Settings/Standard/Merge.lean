/-
# Merging tables of settings

Names are kept in lower case, so their case does not count.

* `Setting.insert`: gives a name a value. Tables are merged name by name, anything
  else is replaced.
* `Setting.insertAt?`: gives a path a value.
* `Setting.path`: the path that a text describes.
* `Setting.overlay?`: puts entries over a table, each at its path.
-/
import ActionTree.Decimal.Numeral
import ActionTree.Settings.Value

namespace ActionTree.Setting

/-! ### Tables -/

/-- The table with a value under a name. A value that is no table gives way to
one. -/
def put (setting : Setting) (name : String) (value : Setting) : Setting :=
  table (Fields.set setting.entries name.toLower value)

@[simp] theorem get?_put_self (setting : Setting) (name : String) (value : Setting) :
    (setting.put name value).get? name.toLower = some value :=
  Fields.get?_set_self _ _ _

theorem get?_put_of_ne (setting : Setting) {name key : String} (value : Setting)
    (h : key ≠ name.toLower) : (setting.put name value).get? key = setting.get? key :=
  Fields.get?_set_of_ne _ _ h

mutual

/-- Gives a name of a table a value. A table is merged into what is there, any other
value replaces it. -/
def insert (target : Setting) (name : String) (value : Setting) : Setting :=
  match value with
  | table entries =>
    target.put name (insertAll ((target.get? name.toLower).getD (table [])) entries)
  | value => target.put name value

/-- Gives the names of a table their values one after the other. -/
def insertAll (target : Setting) : List (String × Setting) → Setting
  | [] => target
  | (name, value) :: rest => insertAll (insert target name value) rest

end

/-! ### Paths -/

/-- How many items an array may have. -/
def itemLimit : Nat := 0x1000000

/-- The place that an index means in an array of so many items: one that the array
has, or one that it can grow to have. -/
def place? (size : Nat) (index : Int) : Option Nat :=
  let place := if 0 ≤ index then index else size + index
  if 0 ≤ place && place < itemLimit then some place.toNat else none

/-- The array with a value at a place, which it grows to have. -/
def putAt (target : Setting) (place : Nat) (value : Setting) : Setting :=
  let items := target.items
  array ((items ++ List.replicate (place + 1 - items.length) null).set place value)

/-- Gives a path below a table a value. What stands in its way gives way. None if an
array on the way cannot have the place that the path means. -/
def insertAt? (target : Setting) : List Step → Setting → Option Setting
  | [], value => some value
  | [.name name], value => some (target.insert name value)
  | .name name :: rest, value => do
    return target.put name (← insertAt? ((target.get? name.toLower).getD null) rest value)
  | .place index :: rest, value => do
    let place ← place? target.items.length index
    return target.putAt place (← insertAt? (target.items[place]?.getD null) rest value)

/-- The characters of names in paths. -/
def isNameChar (c : Char) : Bool :=
  c.isAlphanum || c = ' ' || c = '_' || c = '-'

/-- Takes a name off the front of a path. -/
def scanName? (text : List Char) : Option (Step × List Char) :=
  let name := text.takeWhile isNameChar
  if name.isEmpty then none else some (.name (String.ofList name), text.dropWhile isNameChar)

/-- The text without the blanks in front of or behind an index. -/
def skipBlank (text : List Char) : List Char :=
  text.dropWhile fun c => c = ' ' || c = '\t'

/-- Whether an index fits into 64 bits with a sign. -/
def isIndex (index : Int) : Bool :=
  -0x8000000000000000 ≤ index && index < 0x8000000000000000

/-- Takes an index and the closing bracket behind it off the front of a path. -/
def scanIndex? (text : List Char) : Option (Step × List Char) :=
  let (negative, text) := match skipBlank text with
    | '-' :: rest => (true, rest)
    | text => (false, text)
  let (digits, text) := Decimal.scanDigits text
  let index := Decimal.signedExponent negative digits
  match skipBlank text with
  | ']' :: rest => if digits.isEmpty || !isIndex index then none else some (.place index, rest)
  | _ => none

/-- Reads the steps behind the first one, at most so many. -/
def scanSteps? : Nat → List Char → Option (List Step)
  | _, [] => some []
  | 0, _ => none
  | fuel + 1, c :: rest => do
    let (step, rest) ← if c = '.' then scanName? rest else if c = '[' then scanIndex? rest else none
    return step :: (← scanSteps? fuel rest)

/-- The path that a text describes: names with points between them, and indexes in
brackets. A text of another form is a single name. -/
def path (text : String) : List Step :=
  let chars := text.toList
  let steps : Option (List Step) := do
    let (first, rest) ← scanName? chars
    return first :: (← scanSteps? rest.length rest)
  steps.getD [.name text]

/-- Puts entries over a table, each at its path. None if a path leads to a place that no
array has. -/
def overlay? (target : Setting) (entries : List (String × Setting)) : Option Setting :=
  entries.foldlM (fun target (key, value) => target.insertAt? (path key) value) target

end ActionTree.Setting
