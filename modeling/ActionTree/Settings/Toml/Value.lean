/-
# Values of TOML

* `Value`: the values of a document, in which the entries of a table keep their
  order.
* `Value.toSetting?`: a value as a value of settings. A table may be another way to
  write a moment.
-/
import ActionTree.Settings.Toml.Moment
import ActionTree.Settings.Value

namespace ActionTree.Toml

/-- A value of a document. A moment is a date or a time in normal form. -/
inductive Value where
  | bool (value : Bool)
  | int (value : Int)
  | float (value : Float)
  | text (value : String)
  | moment (text : String)
  | array (items : List Value)
  | table (entries : List (String × Value))
  deriving Inhabited

namespace Value

/-- The name of the first entry of a table that stands for a moment. -/
def momentName : String := "$__toml_private_datetime"

/-- The moment that a value stands for under its reserved name: that of a text. -/
def quotedMoment? : Value → Option Setting
  | text value => (Toml.quotedMoment? value.toList).map fun text => .text (String.ofList text)
  | _ => none

mutual

/-- A value as a value of settings, where a moment is a text. What follows the first
entry of a table that stands for a moment does not count. -/
def toSetting? : Value → Option Setting
  | bool value => some (.bool value)
  | int value => some (.int value)
  | float value => some (.float value)
  | text value => some (.text value)
  | moment value => some (.text value)
  | array items => (itemSettings? items).map .array
  | table [] => some (.table [])
  | table ((name, value) :: rest) =>
    if name = momentName then value.quotedMoment?
    else do
      let first ← value.toSetting?
      return .table (Fields.ofList ((name, first) :: (← entrySettings? rest)))

/-- The items of an array as values of settings. -/
def itemSettings? : List Value → Option (List Setting)
  | [] => some []
  | item :: rest => do return (← item.toSetting?) :: (← itemSettings? rest)

/-- The entries of a table as values of settings. -/
def entrySettings? : List (String × Value) → Option (List (String × Setting))
  | [] => some []
  | (name, value) :: rest => do return (name, ← value.toSetting?) :: (← entrySettings? rest)

end

end Value
end ActionTree.Toml
