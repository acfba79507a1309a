/-
# Runs from changed states

Two runs are compared by a change of states that leads from one to the other. If every
step respects the change, it does not matter whether it is made in front of the step or
behind it (`Respects`), and then it does not matter for a whole run either
(`Respects.perform`). What a run does to its notifier, and how it ends, is so seen to be
independent of the log that was there before, and of the span in which it runs
(`RunState.respects_logged`).

Key definitions: `Respects`, `RunState.without`, `RunState.logged`.
Key theorems: `Respects.perform`, `respects_of_attempts`, `RunState.respects_logged`,
`Action.runFrom_logged`.
-/
import ActionTree.Proofs.Run.Steps

namespace ActionTree

open Course (takeSteps)
open Execution (runFrom contextText)

/-- A change of states goes along with a change of steps: a changed step in a changed
state ends as the step does, in the state changed behind it. -/
def Respects (change : RunState → RunState) (alter : Step → Step) : Prop :=
  ∀ step state, runFrom (alter step).perform (change state) =
    Prod.map id change (runFrom step.perform state)

/-- The course with other steps. -/
def Course.map (alter : Step → Step) (course : Course) : Course :=
  ⟨course.steps.map alter, course.fault⟩

namespace Course

variable {change : RunState → RunState} {state state' : RunState}

/-- A row takes the same way as another but for the change if its first step does, and then the
rest. -/
theorem takeSteps_cons_map {step step' : Step} {steps steps' : List Step}
    (h : runFrom step'.perform state' = Prod.map id change (runFrom step.perform state))
    (hrest : ∀ next, takeSteps steps' (change next) =
      Prod.map id change (takeSteps steps next)) :
    takeSteps (step' :: steps') state' =
      Prod.map id change (takeSteps (step :: steps) state) := by
  rcases hr : runFrom step.perform state with ⟨result, next⟩
  rw [hr] at h
  cases result with
  | ok =>
    rw [takeSteps_cons_of_ok h, takeSteps_cons_of_ok hr]
    exact hrest next
  | error error =>
    rw [takeSteps_cons_of_error h, takeSteps_cons_of_error hr]
    rfl

/-- So does a course if its steps do, and if it ends with the same fault or none. -/
theorem perform_map {course course' : Course} (hf : course'.fault = course.fault)
    (h : takeSteps course'.steps state' =
      Prod.map id change (takeSteps course.steps state)) :
    runFrom course'.perform state' = Prod.map id change (runFrom course.perform state) := by
  rcases hr : takeSteps course.steps state with ⟨result, next⟩
  rw [hr] at h
  cases result with
  | ok =>
    rw [runFrom_perform_of_ok h, runFrom_perform_of_ok hr, hf]
    rfl
  | error error =>
    rw [runFrom_perform_of_error h, runFrom_perform_of_error hr]
    rfl

end Course

/-- The state with no reports of a kind in its log. -/
def RunState.without (kind : Event → Bool) (state : RunState) : RunState :=
  { state with log := state.log.filter fun entry => !kind entry.event }

namespace RunState

variable {kind : Event → Bool} {state : RunState} {event : Event}

theorem without_report (h : kind event = false) :
    (state.report event).without kind = (state.without kind).report event := by
  simp [without, report, h]

theorem without_report_of_kind (h : kind event = true) :
    (state.report event).without kind = state.without kind := by
  simp [without, report, h]

end RunState

namespace Respects

variable {change : RunState → RunState} {alter : Step → Step}

theorem takeSteps (h : Respects change alter) (steps : List Step) (state : RunState) :
    Course.takeSteps (steps.map alter) (change state) =
      Prod.map id change (Course.takeSteps steps state) := by
  induction steps generalizing state with
  | nil => rfl
  | cons step steps ih => exact Course.takeSteps_cons_map (h step state) ih

/-- **A run respects the change** if its steps do. -/
theorem perform (h : Respects change alter) (course : Course) (state : RunState) :
    runFrom (course.map alter).perform (change state) =
      Prod.map id change (runFrom course.perform state) :=
  Course.perform_map rfl (h.takeSteps course.steps state)

end Respects

namespace Course

/-- A message that goes into the log is reported, and nothing more happens. -/
theorem runFrom_attempt_of_log {state : RunState} {withContext : Bool}
    (hn : state.notifier = .log withContext) (made : Attempt) :
    runFrom (Step.perform (.attempt made)) state =
      (.ok (), state.report (.sending made.delivery.message
        (if withContext then contextText made.delivery.context else none))) := by
  obtain ⟨notifier, cancelled, span, log⟩ := state
  obtain rfl : notifier = .log withContext := hn
  rfl

variable {change : RunState → RunState} {state : RunState}

/-- A look at the state goes along with a change that leaves it as it is whether the run is
cancelled. -/
theorem runFrom_check_map {iterations : Int64} {index : Nat}
    (hc : (change state).cancelled = state.cancelled)
    (hreport : change (state.report (.loopCancelled (.ofNat index) iterations)) =
      (change state).report (.loopCancelled (.ofNat index) iterations)) :
    runFrom (Step.perform (.check iterations index)) (change state) =
      Prod.map id change (runFrom (Step.perform (.check iterations index)) state) := by
  cases hs : state.cancelled with
  | false =>
    rw [runFrom_check_of_calm hs, runFrom_check_of_calm (hc.trans hs)]
    rfl
  | true =>
    rw [runFrom_check_of_cancelled hs, runFrom_check_of_cancelled (hc.trans hs), Prod.map, hreport]
    rfl

/-- An attempt goes along with a change of nothing but the log and the span. -/
theorem runFrom_attempt_map (made : Attempt)
    (hset : ∀ notifier cancelled, change { state with notifier, cancelled } =
      { change state with notifier, cancelled })
    (hreport : ∀ message text, change (state.report (.sending message text)) =
      (change state).report (.sending message text)) :
    runFrom (Step.perform (.attempt made)) (change state) =
      Prod.map id change (runFrom (Step.perform (.attempt made)) state) := by
  have hsame : change state =
      { change state with notifier := state.notifier, cancelled := state.cancelled } :=
    hset state.notifier state.cancelled
  have hnotifier : (change state).notifier = state.notifier := by rw [hsame]
  have hcancelled : (change state).cancelled = state.cancelled := by rw [hsame]
  cases hn : state.notifier with
  | log withContext =>
    rw [runFrom_attempt_of_log hn, runFrom_attempt_of_log (hnotifier.trans hn), Prod.map, hreport]
    rfl
  | record recorder =>
    rw [runFrom_attempt hn, runFrom_attempt (hnotifier.trans hn), hcancelled]
    exact congrArg (Prod.mk _) (hset _ _).symm

end Course

/-- A change goes along with all steps if it does with attempts and, event by event, with
reports, and if it leaves it as it is whether the run is cancelled. -/
theorem respects_of_attempts {change : RunState → RunState} {alter : Step → Step}
    (alterEvent : Event → Event) (hr : ∀ event, alter (.report event) = .report (alterEvent event))
    (hk : ∀ iterations index, alter (.check iterations index) = .check iterations index)
    (hc : ∀ state, (change state).cancelled = state.cancelled)
    (hreport : ∀ state event,
      change (state.report event) = (change state).report (alterEvent event))
    (hend : ∀ completed iterations,
      alterEvent (.loopCancelled completed iterations) = .loopCancelled completed iterations)
    (ha : ∀ made state, runFrom (alter (.attempt made)).perform (change state) =
      Prod.map id change (runFrom (Step.perform (.attempt made)) state)) :
    Respects change alter := by
  intro step state
  cases step with
  | report event =>
    rw [hr]
    exact congrArg (Prod.mk _) (hreport state event).symm
  | check iterations index =>
    rw [hk]
    refine Course.runFrom_check_map (hc state) ?_
    rw [hreport, hend]
  | attempt made => exact ha made state

/-! ### The log -/

/-- Events as they stand in the log of a span. -/
def Event.logOf (span : Option Span) (events : Array Event) : Array LogEntry :=
  events.map fun event => ⟨event, span⟩

/-- The state as it is if its entries were made in a span, behind others. -/
def RunState.logged (before : Array LogEntry) (span : Option Span) (state : RunState) :
    RunState :=
  { state with span, log := before ++ Event.logOf span (state.log.map LogEntry.event) }

namespace RunState

variable (before : Array LogEntry) (span : Option Span) (state : RunState)

theorem logged_report (event : Event) :
    (state.report event).logged before span = (state.logged before span).report event := by
  simp [logged, report, Event.logOf]

/-- **A step does not look at the log**, nor at the span. -/
theorem respects_logged : Respects (logged before span) id := by
  refine respects_of_attempts id (fun _ => rfl) (fun _ _ => rfl) (fun _ => rfl)
    (fun state event => logged_report before span state event) (fun _ _ => rfl) ?_
  intro made state
  exact Course.runFrom_attempt_map made (fun _ _ => rfl) fun _ _ =>
    logged_report before span state _

end RunState

/-- The same action can be run inside any span and behind any log. -/
theorem Action.runFrom_logged (action : Action) (context : Context) (before : Array LogEntry)
    (span : Option Span) (state : RunState) :
    runFrom (action.execute context) (state.logged before span) =
      Prod.map id (RunState.logged before span) (runFrom (action.execute context) state) := by
  have h := (RunState.respects_logged before span).perform (action.course context) state
  rwa [Course.map, List.map_id, ← execute_eq_perform] at h

end ActionTree
