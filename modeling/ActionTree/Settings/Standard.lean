/-
# The standard library for settings

* `Settings.VariableRule.key?`: the key that the name of a variable stands for.
* `Settings.Library.standard`: the library that the program runs with.
-/
import ActionTree.Settings.Standard.Format
import ActionTree.Settings.Standard.Merge
import ActionTree.Settings.Standard.Text

namespace ActionTree.Settings

/-- Puts a point in place of each separator, at most so many times. -/
def joinNames (separator : List Char) : Nat → List Char → List Char
  | 0, text => text
  | _, [] => []
  | fuel + 1, c :: rest =>
    if separator.isPrefixOf (c :: rest) then
      '.' :: joinNames separator fuel ((c :: rest).drop separator.length)
    else c :: joinNames separator fuel rest

/-- The key that the name of a variable stands for. Its case does not count, and a separator
stands for a point. -/
def VariableRule.key? (rule : VariableRule) (name : String) : Option String :=
  let start := (rule.start ++ rule.startSeparator).toLower.toList
  let name := name.toLower.toList
  if start.isPrefixOf name then
    let rest := name.drop start.length
    some (String.ofList (joinNames rule.separator.toList rest.length rest))
  else none

/-- The value of the text of a variable: the text itself, unless texts are parsed. -/
def VariableRule.value (rule : VariableRule) (text : String) : Setting :=
  if rule.parsed then ofVariable text else .text text

/-- The library that the program runs with. -/
def Library.standard : Library where
  places := candidates
  file := found
  key? := VariableRule.key?
  value := VariableRule.value
  lower := String.toLower
  path := Setting.path
  insert? := Setting.insertAt?
  merge? := Setting.overlay?
  asText? := Setting.asText?
  asBool? := Setting.asBool?

end ActionTree.Settings
