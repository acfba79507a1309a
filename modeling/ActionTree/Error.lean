/-
# Errors

All that can go wrong with a tree document, whether it is read, checked or run.

* `TreeError`: what is wrong with a document around its root action.
* `Error`: the errors, those of form and those of a run.
* `Error.structural`: whether the form is at fault.
-/
import ActionTree.Action.Document
import ActionTree.Expr.Basic

namespace ActionTree

/-- What is wrong with a tree document, its root action apart. -/
inductive TreeError where
  | missingRoot
  | invalidContext
  deriving DecidableEq

/-- The wording of an error. -/
def TreeError.message : TreeError → String
  | missingRoot => "invalid decision tree JSON: missing rootAction"
  | invalidContext => "invalid decision tree JSON: context must be an object"

/-- Why a document is no tree, does not make sense or is not run to its end. -/
inductive Error where
  | malformedAction (error : ActionError)
  | malformedTree (error : TreeError)
  | evaluation (expression : String) (source : ExprError)
  | invalidStructure
  | delivery (channel : Channel) (reason : String)
  | cancelled
  deriving DecidableEq

namespace Error

/-- The wording of an error. What is wrong with a text that is no expression is told by
`explain`. -/
def message (explain : String → String) : Error → String
  | malformedAction error => error.message
  | malformedTree error => error.message
  | evaluation expression source =>
    "failed to evaluate condition `" ++ expression ++ "`: " ++ source.message explain
  | invalidStructure => "Invalid decision tree structure"
  | delivery channel reason => channel.name ++ " delivery failed: " ++ reason
  | cancelled => "execution cancelled"

/-- Whether the form of a document is at fault and not its run. -/
def structural : Error → Bool
  | malformedAction _ | malformedTree _ | invalidStructure => true
  | evaluation .. | delivery .. | cancelled => false

end Error
end ActionTree
