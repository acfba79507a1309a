/-
# Events

What a run reports while it goes on.

* `Event`: the events.
* `Event.level`, `Event.message`, `Event.fields`: how an event is logged.
* `LogEntry`: an event with the span in which it was reported.
-/
import ActionTree.Error

namespace ActionTree

/-- How important an event is. -/
inductive Level where
  | debug
  | info
  | warn
  deriving DecidableEq

/-- The name of a level. -/
def Level.name : Level → String
  | debug => "DEBUG"
  | info => "INFO"
  | warn => "WARN"

/-- What a run reports. -/
inductive Event where
  | treeStarted (root : ActionKind) (size : Nat)
  | treeCompleted (root : ActionKind)
  | runFailed (error : Error)
  | evaluating (expression : String)
  | evaluated (expression : String) (result : Bool)
  | branchTaken (branch : Bool)
  | branchMissing (branch : Bool)
  | loopStarted (iterations : Int64)
  | loopEmpty
  | loopIteration (iteration : Int64) (iterations : Int64)
  | loopCancelled (completed : Int64) (iterations : Int64)
  | loopCompleted (iterations : Int64)
  | dispatching (message : Message)
  | sending (message : Message) (context : Option String)
  deriving DecidableEq

namespace Event

/-- The level of an event. -/
def level : Event → Level
  | treeStarted .. | treeCompleted .. | evaluated .. | loopStarted .. | loopCompleted ..
  | sending .. => .info
  | evaluating .. | branchTaken .. | branchMissing .. | loopEmpty | loopIteration ..
  | dispatching .. => .debug
  | runFailed .. | loopCancelled .. => .warn

/-- The text of an event. -/
def message : Event → String
  | treeStarted .. => "Starting decision tree execution"
  | treeCompleted .. => "Decision tree execution completed"
  | runFailed .. => "Decision tree execution failed"
  | evaluating .. => "Evaluating condition"
  | evaluated .. => "Condition evaluated"
  | branchTaken .. => "Executing branch"
  | branchMissing .. => "No action attached to branch"
  | loopStarted .. => "Starting loop"
  | loopEmpty => "Loop has no action to execute"
  | loopIteration .. => "Loop iteration"
  | loopCancelled .. => "Loop cancelled"
  | loopCompleted .. => "Loop completed"
  | dispatching (.sms ..) => "Dispatching SMS"
  | dispatching (.email ..) => "Dispatching email"
  | sending (.sms ..) _ => "Sending SMS"
  | sending (.email ..) _ => "Sending email"

/-- The label of a branch. -/
def branchLabel (branch : Bool) : Json :=
  .str (if branch then "true" else "false")

/-- A field that is left out if it has no text. -/
def textField (name : String) : Option String → List (String × Json)
  | some text => [(name, .str text)]
  | none => []

/-- The fields of an event. What is wrong with a text that is no expression is told by
`explain`. -/
def fields (explain : String → String) : Event → List (String × Json)
  | treeStarted root size =>
    [("root", .str root.tag), ("variables", .ofUInt64 (.ofNat size))]
  | treeCompleted root => [("root", .str root.tag)]
  | runFailed error =>
    [("error", .str (error.message explain)), ("structural", .bool error.structural)]
  | evaluating expression => [("expression", .str expression)]
  | evaluated expression result => [("expression", .str expression), ("result", .bool result)]
  | branchTaken branch => [("branch", branchLabel branch)]
  | branchMissing branch => [("branch", branchLabel branch)]
  | loopStarted iterations => [("iterations", .ofInt64 iterations)]
  | loopEmpty => []
  | loopIteration iteration iterations =>
    [("iteration", .ofInt64 iteration), ("iterations", .ofInt64 iterations)]
  | loopCancelled completed iterations =>
    [("completed", .ofInt64 completed), ("iterations", .ofInt64 iterations)]
  | loopCompleted iterations => [("iterations", .ofInt64 iterations)]
  | dispatching (.sms phoneNumber _) => [("phone_number", .str phoneNumber)]
  | dispatching (.email sender receiver _ _) =>
    [("sender", .str sender), ("receiver", .str receiver)]
  | sending (.sms phoneNumber text) context =>
    [("phone_number", .str phoneNumber)] ++ textField "text" text ++ textField "context" context
  | sending (.email sender receiver subject body) context =>
    [("sender", .str sender), ("receiver", .str receiver)] ++ textField "subject" subject
      ++ textField "body" body ++ textField "context" context

end Event

/-- The part of the work in which events are reported. -/
inductive Span where
  | treeRun
  deriving DecidableEq

/-- The name of a span. -/
def Span.name : Span → String
  | treeRun => "execute_decision_tree"

/-- A reported event with the innermost span around it. -/
structure LogEntry where
  event : Event
  span : Option Span

end ActionTree
