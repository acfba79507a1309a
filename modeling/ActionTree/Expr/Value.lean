/-
# Values of expressions

* `Value`: the values, and `Value.ofJson`, the value of a JSON value.
* `Value.truthy`, `Value.toNumber`, `Value.display`: a value as a condition, a
  number and a text.
* `Value.beq`: equality of kind and content.
* `Value.element`, `Value.property?`, `Value.index?`: parts of a value.
-/
import ActionTree.Binary64
import ActionTree.Decimal.Layout
import ActionTree.Decimal.Numeral
import ActionTree.Expr.Basic
import ActionTree.Json.Basic
import ActionTree.Text.Blank

namespace ActionTree

/-- A value of an expression. Fields of an object ascend by name. -/
inductive Value where
  | null
  | bool (value : Bool)
  | num (value : Float)
  | str (value : String)
  | list (items : List Value)
  | obj (fields : List (String × Value))
  deriving Inhabited

namespace Value

mutual

/-- The value of a JSON value. Integers become binary64 numbers. -/
def ofJson : Json → Value
  | .null => null
  | .bool value => bool value
  | .num number => num number.toFloat
  | .str value => str value
  | .arr items => list (ofItems items)
  | .obj fields => obj (ofFields fields)

/-- The values of the items of an array. -/
def ofItems : List Json → List Value
  | [] => []
  | item :: rest => ofJson item :: ofItems rest

/-- The values of the fields of an object. -/
def ofFields : List (String × Json) → List (String × Value)
  | [] => []
  | (name, value) :: rest => (name, ofJson value) :: ofFields rest

end

theorem ofItems_eq_map (items : List Json) : ofItems items = items.map ofJson := by
  induction items with
  | nil => rfl
  | cons item rest ih => rw [ofItems, ih, List.map_cons]

theorem map_snd_ofFields (fields : Fields Json) :
    (ofFields fields).map Prod.snd = (fields.map Prod.snd).map ofJson := by
  induction fields with
  | nil => rfl
  | cons field rest ih => rw [ofFields, List.map_cons, ih, List.map_cons, List.map_cons]

/-- A field of an object is looked up before its value is taken, or after. -/
theorem get?_ofFields (fields : Fields Json) (name : String) :
    Fields.get? (ofFields fields) name = (Fields.get? fields name).map ofJson := by
  induction fields with
  | nil => rfl
  | cons field rest ih =>
    obtain ⟨other, value⟩ := field
    rw [ofFields, Fields.get?_cons, Fields.get?_cons, ih]
    split <;> rfl

/-! ### Equality -/

mutual

/-- Equality of kind and content. Numbers are compared as numbers: the two zeros
are equal and NaN differs from itself. -/
def beq : Value → Value → Bool
  | null, null => true
  | bool a, bool b => a == b
  | num a, num b => a == b
  | str a, str b => a == b
  | list a, list b => beqItems a b
  | obj a, obj b => beqFields a b
  | _, _ => false

/-- Equality of lists item by item. -/
def beqItems : List Value → List Value → Bool
  | [], [] => true
  | a :: as, b :: bs => beq a b && beqItems as bs
  | _, _ => false

/-- Equality of fields. Both sides ascend by name, so equal fields stand at equal
places. -/
def beqFields : List (String × Value) → List (String × Value) → Bool
  | [], [] => true
  | (name, a) :: as, (other, b) :: bs => name == other && beq a b && beqFields as bs
  | _, _ => false

end

instance : BEq Value := ⟨beq⟩

/-! ### Coercions -/

/-- Whether a value counts as true: all but null, false, zero, NaN and the empty
text. -/
def truthy : Value → Bool
  | null => false
  | bool value => value
  | num value => value != 0.0 && !value.isNaN
  | str value => !value.isEmpty
  | list _ => true
  | obj _ => true

/-- The number that a text denotes once the blanks around it are cut off: zero if
nothing is left, NaN if it is no numeral. -/
def numberOfText (text : String) : Float :=
  let trimmed := Text.trimBlank text.toList
  if trimmed.isEmpty then 0.0 else (Decimal.ofText? trimmed).getD Binary64.notANumber

/-- A value as a number. -/
def toNumber : Value → Float
  | null => 0.0
  | bool true => 1.0
  | bool false => 0.0
  | num value => value
  | str value => numberOfText value
  | list _ => Binary64.notANumber
  | obj _ => Binary64.notANumber

/-- A number that is no small integer is written in its shortest digits, always
positionally and without a point behind a whole number. A half goes up. -/
def layout : Decimal.Layout :=
  ⟨.up, none, false⟩

/-- The digits of an integer with its sign. -/
def integerText (n : Int) : String :=
  (if n < 0 then "-" else "") ++ Decimal.digitsText n.natAbs

/-- The text of a number. An integer below `9 · 10 ^ 15` is written as such, so a
negative zero has no sign. -/
def numberText (x : Float) : String :=
  if x.isNaN then "NaN"
  else if x.isInf then (if x < 0.0 then "-" else "") ++ "Infinity"
  else match Binary64.integer? x with
    | some n => if n.natAbs < 9000000000000000 then integerText n else layout.render x
    | none => layout.render x

/-- Whether a value is null. -/
def isNull : Value → Bool
  | null => true
  | _ => false

mutual

/-- A value as a text. -/
def display : Value → String
  | null => "null"
  | bool true => "true"
  | bool false => "false"
  | num value => numberText value
  | str value => value
  | list items => displayItems items
  | obj _ => "[object Object]"

/-- The texts of items with commas between them; a null among them is empty. -/
def displayItems : List Value → String
  | [] => ""
  | [item] => if item.isNull then "" else display item
  | item :: next :: rest =>
    (if item.isNull then "" else display item) ++ "," ++ displayItems (next :: rest)

end

/-! ### Parts -/

/-- The place in a list that a number denotes: none for a fraction, a negative
number, an infinity and NaN. -/
def place? (x : Float) : Option Nat :=
  match Binary64.integer? x with
  | some n => if 0 ≤ n then some n.toNat else none
  | none => none

/-- The item at a place, null if there is none. -/
def element (items : List Value) (x : Float) : Value :=
  ((place? x).bind (items[·]?)).getD null

/-- The character at a place as a text, null if there is none. -/
def character (text : String) (x : Float) : Value :=
  match (place? x).bind (text.toList[·]?) with
  | some c => str (String.singleton c)
  | none => null

/-- The property of that name. An object has its fields, a list its length and
its items by the texts of their places, a text its length; what is missing is
null. Null itself has no properties. -/
def property? (object : Value) (name : String) : Except ExprError Value :=
  match object with
  | null => .error (.nullAccess name)
  | obj fields => .ok ((Fields.get? fields name).getD null)
  | list items =>
    if name = "length" then .ok (num (Float.ofNat items.length))
    else .ok (((Decimal.ofText? name.toList).map (element items)).getD null)
  | str text => .ok (if name = "length" then num (Float.ofNat text.length) else null)
  | bool _ => .ok null
  | num _ => .ok null

/-- The part of a value that another value denotes. A number denotes a place of a
list or a text, any other value the property named by its text. -/
def index? : Value → Value → Except ExprError Value
  | list items, num x => .ok (element items x)
  | str text, num x => .ok (character text x)
  | object, position => object.property? position.display

end Value
end ActionTree
