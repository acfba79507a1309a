/-
# Texts and values of settings

* `Settings.ofVariable`: the value that the text of a variable denotes.
* `Setting.asBool?`, `Setting.asText?`: a value as a truth value and as a text.
-/
import ActionTree.Decimal.Layout
import ActionTree.Decimal.Numeral
import ActionTree.Settings.Value

namespace ActionTree

/-! ### Texts as values -/

namespace Settings

/-- The integer that a text denotes, if it fits into 64 bits with a sign. -/
def integer? (text : List Char) : Option Int :=
  let (negative, digits) := Decimal.scanSign text
  if digits.isEmpty || !digits.all Char.isDigit then none
  else
    let n := Decimal.signedExponent negative digits
    if -0x8000000000000000 ≤ n && n < 0x8000000000000000 then some n else none

/-- The value that the text of a variable denotes: a truth value, a number or the
text itself. -/
def ofVariable (text : String) : Setting :=
  if text.toLower = "true" then .bool true
  else if text.toLower = "false" then .bool false
  else match integer? text.toList with
    | some n => .int n
    | none => match Decimal.ofText? text.toList with
      | some x => .float x
      | none => .text text

end Settings

/-! ### Values as texts and truth values -/

namespace Setting

/-- A number is written in its shortest digits, positionally and without a point
behind a whole number. -/
def layout : Decimal.Layout :=
  ⟨.up, none, false⟩

/-- The texts that mean true and false, in any case. -/
def boolOfText? (value : String) : Option Bool :=
  let value := value.toLower
  if value = "1" || value = "true" || value = "on" || value = "yes" then some true
  else if value = "0" || value = "false" || value = "off" || value = "no" then some false
  else none

/-- A value as a truth value. A number is true unless it is zero. -/
def asBool? : Setting → Option Bool
  | bool value => some value
  | int n => some (n != 0)
  | float x => some (x != 0.0)
  | text value => boolOfText? value
  | null => none
  | array _ => none
  | table _ => none

/-- A value as a text. -/
def asText? : Setting → Option String
  | bool true => some "true"
  | bool false => some "false"
  | int n => some ((if n < 0 then "-" else "") ++ Decimal.digitsText n.natAbs)
  | float x => some (layout.render x)
  | text value => some value
  | null => none
  | array _ => none
  | table _ => none

end Setting
end ActionTree
