/-
# The state of a run

What a run changes: the notifier through which messages go out, whether the run
is cancelled, and the log. The state outlives an error.

* `Recorder`: a notifier that records messages, and can be told to fail or to
  cancel the run from some attempt on.
* `Notifier`: a recorder, or the log.
* `RunState`, `Execution`: the state, and computations on it that can fail.
* `Execution.emit`, `Execution.notify`: reporting an event, sending a message.
-/
import ActionTree.Json.Printer
import ActionTree.Run.Event

namespace ActionTree

/-! ### Notifiers -/

/-- A notifier that records messages. It fails once `failAfter` attempts were made,
and cancels the run during attempt number `cancelAfter`. -/
structure Recorder where
  failAfter : Option Nat
  cancelAfter : Option Nat
  attempts : Nat
  deliveries : Array Delivery

namespace Recorder

/-- A recorder that has recorded nothing. -/
def new (failAfter cancelAfter : Option Nat) : Recorder :=
  ⟨failAfter, cancelAfter, 0, #[]⟩

/-- Whether a number reaches an optional limit. -/
def reaches (n : Nat) : Option Nat → Bool
  | some limit => limit ≤ n
  | none => false

/-- Whether the next attempt fails. -/
def fails (recorder : Recorder) : Bool :=
  reaches recorder.attempts recorder.failAfter

/-- Whether the next attempt cancels the run. -/
def cancels (recorder : Recorder) : Bool :=
  reaches (recorder.attempts + 1) recorder.cancelAfter

/-- The recorder after an attempt: it counts, and is recorded unless it fails. -/
def attempt (recorder : Recorder) (delivery : Delivery) : Recorder :=
  let deliveries :=
    if recorder.fails then recorder.deliveries else recorder.deliveries.push delivery
  { recorder with attempts := recorder.attempts + 1, deliveries }

end Recorder

/-- Where messages go: into the log, with the context or without it, or to a
recorder. -/
inductive Notifier where
  | log (withContext : Bool)
  | record (recorder : Recorder)

/-- What a notifier has recorded: nothing, if messages go into the log. -/
def Notifier.recorded : Notifier → Recorder
  | log _ => .new none none
  | record recorder => recorder

/-! ### States -/

/-- The state of a run. -/
structure RunState where
  notifier : Notifier
  cancelled : Bool
  span : Option Span
  log : Array LogEntry

namespace RunState

/-- A state in which nothing has happened. -/
def new (notifier : Notifier) : RunState :=
  ⟨notifier, false, none, #[]⟩

/-- A state with a recorder. A recorder that is to cancel the run before the first
attempt has cancelled it. -/
def recording (failAfter cancelAfter : Option Nat) : RunState :=
  { new (.record (.new failAfter cancelAfter)) with
    cancelled := Recorder.reaches 0 cancelAfter }

/-- What has been recorded. -/
def recorded (state : RunState) : Recorder :=
  state.notifier.recorded

/-- The state of a cancelled run. -/
def cancel (state : RunState) : RunState :=
  { state with cancelled := true }

/-- The state with a further entry in the log. -/
def report (state : RunState) (event : Event) : RunState :=
  { state with log := state.log.push ⟨event, state.span⟩ }

/-- A summary of the state. -/
def summary (state : RunState) : String :=
  "Runtime \x7b cancelled: " ++ (if state.cancelled then "true" else "false") ++ ", .. \x7d"

end RunState

/-- A computation on the state of a run that can end it early. -/
abbrev Execution := ExceptT Error (StateM RunState)

namespace Execution

/-- Reports an event. -/
def emit (event : Event) : Execution Unit :=
  modify (·.report event)

/-- The text of a context in the log; none if it has no variables. -/
def contextText (context : Context) : Option String :=
  if context.entries.isEmpty then none else some context.toJson.compact

/-- Sends a message. -/
def notify (message : Message) (context : Context) : Execution Unit := do
  let state ← get
  match state.notifier with
  | .log withContext =>
    emit (.sending message (if withContext then contextText context else none))
  | .record recorder =>
    set { state with
      notifier := .record (recorder.attempt ⟨message, context⟩)
      cancelled := state.cancelled || recorder.cancels }
    if recorder.fails then throw (.delivery message.channel "provider unavailable")

end Execution
end ActionTree
