/-
# Contexts

The variables that an action and its conditions can see.

* `Context`: variables with JSON values, `Context.get?` one of them.
* `Context.withLoopCounters`: the context of one iteration of a loop.
* `Context.ofJson?`, `Context.toJson`: a context as a JSON object.
-/
import ActionTree.Json.Basic

namespace ActionTree

/-- Variables and their values. -/
structure Context where
  entries : List (String × Json)

namespace Context

/-- No variables. -/
def empty : Context := ⟨[]⟩

/-- The value of a variable. -/
def get? (context : Context) (name : String) : Option Json :=
  Fields.get? context.entries name

/-- Gives a variable a value. -/
def set (context : Context) (name : String) (value : Json) : Context :=
  ⟨Fields.set context.entries name value⟩

/-- The number of variables. -/
def size (context : Context) : Nat :=
  context.entries.length

instance : BEq Context := ⟨fun a b => Json.beqFields a.entries b.entries⟩

/-- The variable that counts the iterations of a loop from 0. -/
def loopIndex : String := "loopIndex"

/-- The variable that counts the iterations of a loop from 1. -/
def loopIteration : String := "loopIteration"

/-- The context of the iteration with the given index: both counters are set, in
place of those of an outer loop. -/
def withLoopCounters (context : Context) (index : Int64) : Context :=
  (context.set loopIndex (.ofInt64 index)).set loopIteration (.ofInt64 (index + 1))

/-- The context that a JSON object describes. -/
def ofJson? : Json → Option Context
  | .obj fields => some ⟨fields⟩
  | _ => none

/-- The JSON object that describes a context. -/
def toJson (context : Context) : Json :=
  .obj context.entries

end Context
end ActionTree
