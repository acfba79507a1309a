/-
# JSON values

Values as JSON text describes them. A number written without a point and
exponent that fits 64 bits is kept as an integer, every other one as a finite
binary64 number: `3` and `3.0` are different texts, and differ as values too.

* `Number`, `Json`: the values. Fields of an object ascend by name.
* `Json.get?`: a field of an object.
* `Json.beq`: equality; numbers of one kind are compared as numbers, so the two
  zeros are equal.
* `Json.object`: the object with the given entries.
-/
import ActionTree.Fields

namespace ActionTree

/-- A JSON number. -/
inductive Number where
  | int (value : Int) (inRange : -0x8000000000000000 ≤ value ∧ value < 0x10000000000000000)
  | float (value : Float) (finite : value.isFinite = true)

namespace Number

/-- A signed 64-bit integer. -/
def ofInt64 (n : Int64) : Number :=
  .int n.toInt ⟨Int64.le_toInt n, Int.lt_trans (Int64.toInt_lt n) (by decide)⟩

/-- An unsigned 64-bit integer. -/
def ofUInt64 (n : UInt64) : Number :=
  .int n.toNat ⟨by omega, by have := n.toNat_lt; omega⟩

/-- An integer, if it fits 64 bits with or without a sign. -/
def ofInt? (n : Int) : Option Number :=
  if h : -0x8000000000000000 ≤ n ∧ n < 0x10000000000000000 then some (.int n h) else none

/-- A binary64 number, if it is finite. -/
def ofFloat? (x : Float) : Option Number :=
  if h : x.isFinite = true then some (.float x h) else none

/-- The binary64 number nearest to a number. -/
def toFloat : Number → Float
  | int n _ => Float.ofInt n
  | float x _ => x

/-- Equality of numbers of one kind; an integer equals no number of the other
kind. -/
def beq : Number → Number → Bool
  | .int a _, .int b _ => a == b
  | .float a _, .float b _ => a == b
  | _, _ => false

instance : BEq Number := ⟨beq⟩

end Number

/-- A JSON value. -/
inductive Json where
  | null
  | bool (value : Bool)
  | num (value : Number)
  | str (value : String)
  | arr (items : List Json)
  | obj (fields : List (String × Json))
  deriving Inhabited

namespace Json

mutual

/-- Equality of JSON values. -/
def beq : Json → Json → Bool
  | null, null => true
  | bool a, bool b => a == b
  | num a, num b => a == b
  | str a, str b => a == b
  | arr a, arr b => beqItems a b
  | obj a, obj b => beqFields a b
  | _, _ => false

/-- Equality of lists of JSON values. -/
def beqItems : List Json → List Json → Bool
  | [], [] => true
  | a :: as, b :: bs => beq a b && beqItems as bs
  | _, _ => false

/-- Equality of fields. Both sides ascend by name, so equal fields stand at equal
places. -/
def beqFields : List (String × Json) → List (String × Json) → Bool
  | [], [] => true
  | (name, a) :: as, (other, b) :: bs => name == other && beq a b && beqFields as bs
  | _, _ => false

end

instance : BEq Json := ⟨beq⟩

/-- Whether a value is null. -/
def isNull : Json → Bool
  | null => true
  | _ => false

/-- The field of that name: none if the value is no object. -/
def get? : Json → String → Option Json
  | obj fields, name => Fields.get? fields name
  | _, _ => none

/-- The field of that name, where a null counts as an absent field. -/
def field? (json : Json) (name : String) : Option Json :=
  match json.get? name with
  | none | some null => none
  | some value => some value

/-- The text of a string. -/
def text? : Json → Option String
  | str value => some value
  | _ => none

/-- The object with the given entries. -/
def object (entries : List (String × Json)) : Json :=
  obj (Fields.ofList entries)

/-- A string, or null if there is none. -/
def strOrNull : Option String → Json
  | some value => str value
  | none => null

/-- A signed 64-bit integer. -/
def ofInt64 (n : Int64) : Json :=
  num (.ofInt64 n)

/-- An unsigned 64-bit integer. -/
def ofUInt64 (n : UInt64) : Json :=
  num (.ofUInt64 n)

end Json
end ActionTree
