/-
# Decision trees

A root action together with the context it runs against, and the JSON documents
that describe such trees.

* `Tree`: the trees; `Tree.wellFormed` checks the root.
* `Tree.ofJson`, `Tree.toJson`: reading and writing.
-/
import ActionTree.Error

namespace ActionTree

/-- A decision tree. -/
structure Tree where
  root : Action
  context : Context

namespace Tree

instance : BEq Tree := ⟨fun a b => a.root = b.root && a.context == b.context⟩

/-- Whether the root of a tree makes sense. -/
def wellFormed (tree : Tree) : Bool :=
  tree.root.wellFormed

/-- The context of a document: empty if it is left out or null. -/
def contextOf (json : Json) : Except Error Context :=
  match json.field? "context" with
  | none => .ok .empty
  | some value => match Context.ofJson? value with
    | some context => .ok context
    | none => .error (.malformedTree .invalidContext)

/-- The tree that a JSON value describes. A fault of the root action comes before
one of the context. -/
def ofJson (json : Json) : Except Error Tree := do
  match json.field? "rootAction" with
  | none => .error (.malformedTree .missingRoot)
  | some value =>
    let root ← (Action.ofJson value).mapError .malformedAction
    let context ← contextOf json
    return ⟨root, context⟩

/-- The JSON value that describes a tree. -/
def toJson (tree : Tree) : Json :=
  .object [("rootAction", tree.root.toJson), ("context", tree.context.toJson)]

end Tree
end ActionTree
