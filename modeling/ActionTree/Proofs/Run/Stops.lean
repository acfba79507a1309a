/-
# Where a run breaks off

A step fails in two ways only: it looks before an iteration and finds the run cancelled,
or it makes an attempt and the recorder fails (`Course.perform_cases`). So a row of steps
is either taken as a whole, or up to one of these steps, which is then the last thing that
the run does (`Course.takeSteps_cases`). Of the steps that were taken, every attempt is
recorded and every event is in the log (`Course.eq_after_of_takeSteps_ok`).

Key definitions: `Action.ComesTo`.
Key theorems: `Course.perform_cases`, `Course.takeSteps_cases`,
`Course.eq_after_of_takeSteps_ok`, `Action.runFrom_cases`.
-/
import ActionTree.Proofs.Run.Change

namespace ActionTree

open Execution (runFrom contextText)

theorem RunState.recorded_of_record {state : RunState} {recorder : Recorder}
    (hn : state.notifier = .record recorder) : state.recorded = recorder := by
  rw [recorded, hn]
  rfl

namespace Course

variable {steps : List Step} {state final : RunState} {recorder : Recorder}

/-! ### Single steps -/

/-- What a step can do: it is taken, or it finds the run cancelled, or its attempt fails. -/
theorem perform_cases (step : Step) (state : RunState) :
    (∃ final, runFrom step.perform state = (.ok (), final)) ∨
    (∃ iterations index, step = .check iterations index ∧ state.cancelled = true ∧
      runFrom step.perform state =
        (.error .cancelled, state.report (.loopCancelled (.ofNat index) iterations))) ∨
    ∃ made recorder, step = .attempt made ∧ state.notifier = .record recorder ∧
      recorder.fails = true ∧ runFrom step.perform state =
        (.error (.delivery made.delivery.message.channel "provider unavailable"), { state with
          notifier := .record (recorder.attempt made.delivery)
          cancelled := state.cancelled || recorder.cancels }) := by
  cases step with
  | report event => exact .inl ⟨_, runFrom_report event⟩
  | check iterations index =>
    cases hc : state.cancelled with
    | false => exact .inl ⟨_, runFrom_check_of_calm hc iterations index⟩
    | true => exact .inr (.inl ⟨_, _, rfl, rfl, runFrom_check_of_cancelled hc _ _⟩)
  | attempt made =>
    cases hn : state.notifier with
    | log withContext => exact .inl ⟨_, runFrom_attempt_of_log hn made⟩
    | record recorder =>
      have hmade := runFrom_attempt hn made
      cases hf : recorder.fails with
      | false =>
        rw [hf, if_neg Bool.false_ne_true] at hmade
        exact .inl ⟨_, hmade⟩
      | true =>
        rw [hf, if_pos rfl] at hmade
        exact .inr (.inr ⟨made, recorder, rfl, rfl, hf, hmade⟩)

/-! ### Rows of steps -/

/-- A row of steps is taken as a whole or up to a step that fails. -/
theorem takeSteps_cases (steps : List Step) (state : RunState) :
    (∃ final, takeSteps steps state = (.ok (), final)) ∨
    ∃ before step after middle error final, steps = before ++ step :: after ∧
      takeSteps before state = (.ok (), middle) ∧
      runFrom step.perform middle = (.error error, final) ∧
      takeSteps steps state = (.error error, final) := by
  induction steps generalizing state with
  | nil => exact .inl ⟨state, rfl⟩
  | cons step steps ih =>
    rcases hstep : runFrom step.perform state with ⟨error | _, next⟩
    · exact .inr ⟨[], step, steps, state, error, next, rfl, rfl, hstep,
        takeSteps_cons_of_error hstep⟩
    · obtain ⟨final, hall⟩ | ⟨before, failed, after, middle, error, final, hs, hb, hf, hall⟩ :=
        ih next
      · exact .inl ⟨final, (takeSteps_cons_of_ok hstep).trans hall⟩
      · exact .inr ⟨step :: before, failed, after, middle, error, final,
          congrArg (List.cons step) hs, (takeSteps_cons_of_ok hstep).trans hb, hf,
          (takeSteps_cons_of_ok hstep).trans hall⟩

theorem takeSteps_cons_ok {step : Step} (h : takeSteps (step :: steps) state = (.ok (), final)) :
    ∃ next, runFrom step.perform state = (.ok (), next) ∧ takeSteps steps next = (.ok (), final) := by
  rcases hstep : runFrom step.perform state with ⟨error | _, next⟩
  · cases (takeSteps_cons_of_error hstep).symm.trans h
  · exact ⟨next, rfl, (takeSteps_cons_of_ok hstep).symm.trans h⟩

theorem takeSteps_append_ok {first second : List Step}
    (h : takeSteps (first ++ second) state = (.ok (), final)) :
    ∃ next, takeSteps first state = (.ok (), next) ∧ takeSteps second next = (.ok (), final) := by
  induction first generalizing state with
  | nil => exact ⟨state, rfl, h⟩
  | cons step first ih =>
    obtain ⟨between, hstep, hrest⟩ := takeSteps_cons_ok h
    obtain ⟨next, hfirst, hsecond⟩ := ih hrest
    exact ⟨next, (takeSteps_cons_of_ok hstep).trans hfirst, hsecond⟩

/-- Messages that go into the log go there to the end. -/
theorem notifier_takeSteps_of_log {withContext : Bool} (hn : state.notifier = .log withContext)
    (h : takeSteps steps state = (.ok (), final)) : final.notifier = .log withContext := by
  induction steps generalizing state with
  | nil =>
    cases h
    exact hn
  | cons step steps ih =>
    obtain ⟨next, hstep, hrest⟩ := takeSteps_cons_ok h
    refine ih ?_ hrest
    cases step with
    | report event =>
      cases (runFrom_report event).symm.trans hstep
      exact hn
    | check iterations index =>
      cases hc : state.cancelled with
      | true => cases (runFrom_check_of_cancelled hc _ _).symm.trans hstep
      | false =>
        cases (runFrom_check_of_calm hc _ _).symm.trans hstep
        exact hn
    | attempt made =>
      cases (runFrom_attempt_of_log hn made).symm.trans hstep
      exact hn

/-- Behind steps that were taken it is known what is recorded and what is in the log. -/
theorem eq_after_of_takeSteps_ok (hn : state.notifier = .record recorder)
    (h : takeSteps steps state = (.ok (), final)) :
    final = { state.after recorder steps with cancelled := final.cancelled } := by
  induction steps generalizing state recorder with
  | nil =>
    cases h
    rw [RunState.after_nil hn]
  | cons step steps ih =>
    obtain ⟨next, hstep, hrest⟩ := takeSteps_cons_ok h
    cases step with
    | report event =>
      cases (runFrom_report event).symm.trans hstep
      rw [← RunState.after_report]
      exact @ih (state.report event) recorder hn hrest
    | check iterations index =>
      cases hc : state.cancelled with
      | true => cases (runFrom_check_of_cancelled hc _ _).symm.trans hstep
      | false =>
        cases (runFrom_check_of_calm hc _ _).symm.trans hstep
        rw [RunState.after_check]
        exact ih hn hrest
    | attempt made =>
      have hmade := runFrom_attempt hn made
      cases hf : recorder.fails with
      | true =>
        rw [hf, if_pos rfl] at hmade
        cases hmade.symm.trans hstep
      | false =>
        rw [hf, if_neg Bool.false_ne_true] at hmade
        cases hmade.symm.trans hstep
        rw [← RunState.after_attempt hf]
        have hfinal := ih rfl hrest
        exact hfinal

/-- A recorder has recorded the attempts that were made. -/
theorem recorded_of_takeSteps_ok (hn : final.notifier = .record recorder)
    (h : takeSteps steps state = (.ok (), final)) :
    recorder = state.recorded.after (attemptsOf steps) := by
  cases hs : state.notifier with
  | log withContext => cases hn.symm.trans (notifier_takeSteps_of_log hs h)
  | record first =>
    rw [eq_after_of_takeSteps_ok hs h] at hn
    cases hn
    rw [RunState.recorded_of_record hs]

end Course

/-! ### Actions -/

namespace Action

/-- The run of an action that begins in a state comes to a step, in the state `middle`: all
steps in front of it are taken. -/
def ComesTo (action : Action) (context : Context) (state : RunState) (step : Step)
    (middle : RunState) : Prop :=
  ∃ before after, (action.course context).steps = before ++ step :: after ∧
    Course.takeSteps before state = (.ok (), middle)

/-- **A run takes all its steps, or it ends with the first that fails**, be it that the run
is cancelled there or that an attempt fails. -/
theorem runFrom_cases (action : Action) (context : Context) (state : RunState) :
    (∃ final, Course.takeSteps (action.course context).steps state = (.ok (), final) ∧
      runFrom (action.execute context) state =
        (Course.ending (action.course context).fault, final)) ∨
    (∃ iterations index middle, action.ComesTo context state (.check iterations index) middle ∧
      middle.cancelled = true ∧ runFrom (action.execute context) state =
        (.error .cancelled, middle.report (.loopCancelled (.ofNat index) iterations))) ∨
    ∃ made middle recorder, action.ComesTo context state (.attempt made) middle ∧
      middle.notifier = .record recorder ∧ recorder.fails = true ∧
      runFrom (action.execute context) state =
        (.error (.delivery made.delivery.message.channel "provider unavailable"), { middle with
          notifier := .record (recorder.attempt made.delivery)
          cancelled := middle.cancelled || recorder.cancels }) := by
  obtain ⟨final, hall⟩ | ⟨before, step, after, middle, error, final, hs, hb, hf, hall⟩ :=
    Course.takeSteps_cases (action.course context).steps state
  · exact .inl ⟨final, hall, action.runFrom_of_takeSteps_ok context hall⟩
  · have hrun := action.runFrom_of_takeSteps_error context hall
    have hcomes : action.ComesTo context state step middle := ⟨before, after, hs, hb⟩
    rw [hrun, ← hf]
    obtain ⟨next, hok⟩ | ⟨iterations, index, rfl, hc, hcheck⟩ |
        ⟨made, recorder, rfl, hn, hfails, hmade⟩ := Course.perform_cases step middle
    · cases hok.symm.trans hf
    · exact .inr (.inl ⟨iterations, index, middle, hcomes, hc, hcheck⟩)
    · exact .inr (.inr ⟨made, middle, recorder, hcomes, hn, hfails, hmade⟩)

end Action
end ActionTree
