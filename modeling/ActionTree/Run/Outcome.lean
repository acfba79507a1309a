/-
# Outcomes

Checking and running tree documents. Whatever goes wrong becomes an outcome.

* `Tree.check`, `Tree.run`: the outcome of checking and of running a document.
* `Verdict`: an outcome as it is shown.
-/
import ActionTree.Run.Execute

namespace ActionTree

namespace Tree

/-- Checks a document without running it. -/
def check (json : Json) : Except Error Unit :=
  match ofJson json with
  | .ok tree => if tree.wellFormed then .ok () else .error .invalidStructure
  | .error error => .error error

/-- Reads, checks and runs a document. The first fault ends it. -/
def attempt (json : Json) : Execution Unit := do
  let tree ← liftExcept (ofJson json)
  unless tree.wellFormed do throw .invalidStructure
  tree.execute

/-- Runs a document inside a span of its own, where a failure is reported. -/
def run (json : Json) : StateM RunState (Except Error Unit) := do
  let outer := (← get).span
  modify fun state => { state with span := some .treeRun }
  let outcome ← (attempt json).run
  match outcome with
  | .ok () => pure ()
  | .error error => modify (·.report (.runFailed error))
  modify fun state => { state with span := outer }
  return outcome

end Tree

/-- An outcome as it is shown: whether all went well, and the error if not. -/
structure Verdict where
  success : Bool
  error : Option String
  deriving DecidableEq

namespace Verdict

/-- The verdict on an outcome. What is wrong with a text that is no expression is told by
`explain`. -/
def ofOutcome (explain : String → String) : Except Error Unit → Verdict
  | .ok () => ⟨true, none⟩
  | .error error => ⟨false, some (error.message explain)⟩

/-- The field with the error, left out if there is none. -/
def errorField (verdict : Verdict) : List (String × Json) :=
  match verdict.error with
  | some error => [("error", .str error)]
  | none => []

/-- The verdict on a check. -/
def validationJson (verdict : Verdict) : Json :=
  .obj (("valid", .bool verdict.success) :: verdict.errorField)

/-- The verdict on a run that took so many milliseconds. Its fields stand in this
order. -/
def executionJson (verdict : Verdict) (milliseconds : UInt64) : Json :=
  .obj (("success", .bool verdict.success) :: ("executionTime", .ofUInt64 milliseconds) ::
    verdict.errorField)

end Verdict
end ActionTree
