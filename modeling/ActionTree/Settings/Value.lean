/-
# Values of settings

What a settings file or the environment says, before it is known which setting
it is for.

* `Setting`: the values; `Setting.ofJson` reads them from a JSON value.
* `Setting.get?`, `Setting.items`: what is in a table and in an array.
* `Setting.Step`: a step on the way to a value inside another.
-/
import ActionTree.Json.Basic

namespace ActionTree

/-- A value of a setting. -/
inductive Setting where
  | null
  | bool (value : Bool)
  | int (value : Int)
  | float (value : Float)
  | text (value : String)
  | array (items : List Setting)
  | table (entries : List (String × Setting))
  deriving Inhabited

namespace Setting

mutual

/-- The value that a JSON value denotes. An integer beyond 64 bits with a sign is a
binary64 number. -/
def ofJson : Json → Setting
  | .null => null
  | .bool value => bool value
  | .num (.int n h) => if n < 0x8000000000000000 then int n else float (Number.int n h).toFloat
  | .num (.float x _) => float x
  | .str value => text value
  | .arr items => array (ofItems items)
  | .obj fields => table (ofFields fields)

/-- The values of the items of an array. -/
def ofItems : List Json → List Setting
  | [] => []
  | item :: rest => ofJson item :: ofItems rest

/-- The values of the fields of an object. -/
def ofFields : List (String × Json) → List (String × Setting)
  | [] => []
  | (name, value) :: rest => (name, ofJson value) :: ofFields rest

end

/-! ### Tables and arrays -/

/-- The entries of a table; none for any other value. -/
def entries : Setting → List (String × Setting)
  | table entries => entries
  | _ => []

/-- The value under a name of a table. -/
def get? (setting : Setting) (name : String) : Option Setting :=
  Fields.get? setting.entries name

/-- The items of an array; none for any other value. -/
def items : Setting → List Setting
  | array items => items
  | _ => []

/-- Whether a value is a table. -/
def isTable : Setting → Bool
  | table _ => true
  | _ => false

/-- Whether a value is neither a table nor an array. -/
def isPlain : Setting → Bool
  | table _ | array _ => false
  | _ => true

/-- A step of a path: to a name of a table, or to a place in an array. A place below
zero counts from the end. -/
inductive Step where
  | name (name : String)
  | place (index : Int)
  deriving DecidableEq

end Setting
end ActionTree
