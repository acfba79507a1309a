/-
# Environment variables

* `Environment`: the variables with their values, in the order of their names.
-/
import ActionTree.Fields

namespace ActionTree

/-- Environment variables by name. -/
abbrev Environment := Fields String

namespace Environment

/-- The value of a variable. -/
def value? (environment : Environment) (name : String) : Option String :=
  Fields.get? environment name

/-- Sets a variable, unless it is set already. None if the value holds a null
character, which no variable can hold. -/
def provide? (environment : Environment) (name value : String) : Option Environment :=
  match environment.value? name with
  | some _ => some environment
  | none =>
    if value.toList.contains '\x00' then none else some (Fields.set environment name value)

end Environment
end ActionTree
