/-
# Rows of steps under a recorder

What a row of steps does to a state whose notifier is a recorder. As long as no
attempt fails and no step finds the run cancelled, the whole row is taken, and the
state behind it is known (`takeSteps_ok`): every attempt is recorded and every event is
in the log. A row that fails does so at one of its attempts, and there it is cut
(`exists_attempt`).

Key definitions: `Course.takeSteps`, `Recorder.Accepts`, `Recorder.Spares`,
`RunState.after`.
Key theorems: `Course.takeSteps_ok`, `Course.runFrom_perform_of_ok`,
`Course.exists_attempt`.
-/
import ActionTree.Proofs.Run.Course

namespace ActionTree

/-! ### Running from a state -/

namespace Execution

variable {α β : Type}

/-- The result of a computation that begins in a state, and the state that it leaves. -/
def runFrom (execution : Execution α) (state : RunState) : Except Error α × RunState :=
  execution.run.run state

theorem runFrom_bind_of_ok {execution : Execution α} {next : α → Execution β}
    {state state' : RunState} {value : α} (h : runFrom execution state = (.ok value, state')) :
    runFrom (execution >>= next) state = runFrom (next value) state' := by
  unfold runFrom at h ⊢
  rw [ExceptT.run_bind, StateT.run_bind, h]
  rfl

theorem runFrom_bind_of_error {execution : Execution α} {next : α → Execution β}
    {state state' : RunState} {error : Error}
    (h : runFrom execution state = (.error error, state')) :
    runFrom (execution >>= next) state = (.error error, state') := by
  unfold runFrom at h ⊢
  rw [ExceptT.run_bind, StateT.run_bind, h]
  rfl

end Execution

open Execution (runFrom)

/-! ### Recorders -/

namespace Recorder

/-- The next so many attempts succeed. -/
def Accepts (recorder : Recorder) (count : Nat) : Prop :=
  ∀ k < count, reaches (recorder.attempts + k) recorder.failAfter = false

/-- The next so many attempts do not cancel the run. -/
def Spares (recorder : Recorder) (count : Nat) : Prop :=
  ∀ k < count, reaches (recorder.attempts + k + 1) recorder.cancelAfter = false

/-- The recorder after successful attempts. -/
def after (recorder : Recorder) (attempts : List Attempt) : Recorder :=
  { recorder with
    attempts := recorder.attempts + attempts.length
    deliveries := recorder.deliveries ++ (attempts.map Attempt.delivery).toArray }

variable {recorder : Recorder} {count : Nat}

theorem after_nil (recorder : Recorder) : recorder.after [] = recorder := by
  simp [after]

theorem fails_of_accepts (h : recorder.Accepts (count + 1)) : recorder.fails = false :=
  h 0 (Nat.succ_pos count)

theorem cancels_of_spares (h : recorder.Spares (count + 1)) : recorder.cancels = false :=
  h 0 (Nat.succ_pos count)

theorem accepts_attempt (h : recorder.Accepts (count + 1)) (delivery : Delivery) :
    (recorder.attempt delivery).Accepts count := by
  intro k hk
  have := h (k + 1) (Nat.succ_lt_succ hk)
  rwa [← Nat.add_assoc, Nat.add_right_comm] at this

theorem spares_attempt (h : recorder.Spares (count + 1)) (delivery : Delivery) :
    (recorder.attempt delivery).Spares count := by
  intro k hk
  have := h (k + 1) (Nat.succ_lt_succ hk)
  rwa [← Nat.add_assoc, Nat.add_right_comm recorder.attempts] at this

theorem accepts_of_none (hf : recorder.failAfter = none) (count : Nat) :
    recorder.Accepts count := by
  intro k _
  rw [hf]
  rfl

theorem spares_of_none (hk : recorder.cancelAfter = none) (count : Nat) :
    recorder.Spares count := by
  intro k _
  rw [hk]
  rfl

theorem after_attempt (h : recorder.fails = false) (made : Attempt) (attempts : List Attempt) :
    (recorder.attempt made.delivery).after attempts = recorder.after (made :: attempts) := by
  simp [after, attempt, h, Nat.add_assoc, Nat.add_comm 1]

theorem attempt_after {attempts : List Attempt} (h : (recorder.after attempts).fails = false)
    (made : Attempt) :
    (recorder.after attempts).attempt made.delivery = recorder.after (attempts ++ [made]) := by
  have hone := after_attempt h made []
  rw [after_nil] at hone
  rw [hone]
  simp [after, Nat.add_assoc]

end Recorder

/-! ### Steps -/

/-- The event that a step reports. -/
def Step.event? : Step → Option Event
  | report event => some event
  | _ => none

namespace Course

/-- The attempts of a row of steps. -/
def attemptsOf (steps : List Step) : List Attempt :=
  steps.filterMap Step.attempt?

/-- The events of a row of steps. -/
def eventsOf (steps : List Step) : List Event :=
  steps.filterMap Step.event?

@[simp] theorem attemptsOf_nil : attemptsOf [] = [] := rfl

@[simp] theorem attemptsOf_report (event : Event) (steps : List Step) :
    attemptsOf (.report event :: steps) = attemptsOf steps := rfl

@[simp] theorem attemptsOf_check (iterations : Int64) (index : Nat) (steps : List Step) :
    attemptsOf (.check iterations index :: steps) = attemptsOf steps := rfl

@[simp] theorem attemptsOf_attempt (made : Attempt) (steps : List Step) :
    attemptsOf (.attempt made :: steps) = made :: attemptsOf steps := rfl

@[simp] theorem attemptsOf_append (first second : List Step) :
    attemptsOf (first ++ second) = attemptsOf first ++ attemptsOf second :=
  List.filterMap_append

@[simp] theorem eventsOf_nil : eventsOf [] = [] := rfl

@[simp] theorem eventsOf_report (event : Event) (steps : List Step) :
    eventsOf (.report event :: steps) = event :: eventsOf steps := rfl

@[simp] theorem eventsOf_attempt (made : Attempt) (steps : List Step) :
    eventsOf (.attempt made :: steps) = eventsOf steps := rfl

end Course

open Course (attemptsOf eventsOf)

/-- The state behind a row of steps that is taken as a whole. -/
def RunState.after (state : RunState) (recorder : Recorder) (steps : List Step) : RunState :=
  { state with
    notifier := .record (recorder.after (attemptsOf steps))
    log := state.log ++ ((eventsOf steps).map fun event => ⟨event, state.span⟩).toArray }

namespace RunState

variable {state : RunState} {recorder : Recorder} {steps : List Step}

theorem after_nil (hn : state.notifier = .record recorder) : state.after recorder [] = state := by
  obtain ⟨notifier, cancelled, span, log⟩ := state
  obtain rfl : notifier = .record recorder := hn
  simp [after, Recorder.after_nil]

theorem after_report (event : Event) :
    (state.report event).after recorder steps = state.after recorder (.report event :: steps) := by
  simp [after, report]

theorem after_check (iterations : Int64) (index : Nat) :
    state.after recorder (.check iterations index :: steps) = state.after recorder steps := rfl

theorem after_attempt (hf : recorder.fails = false) (made : Attempt) :
    { state with notifier := .record (recorder.attempt made.delivery) }.after
        (recorder.attempt made.delivery) steps =
      state.after recorder (.attempt made :: steps) := by
  simp [after, Recorder.after_attempt hf]

end RunState

namespace Course

/-- Takes a row of steps. -/
def takeSteps (steps : List Step) (state : RunState) : Except Error Unit × RunState :=
  runFrom (steps.forM Step.perform) state

variable {steps : List Step} {state state' : RunState} {recorder : Recorder}

theorem takeSteps_cons_of_ok {step : Step} (h : runFrom step.perform state = (.ok (), state')) :
    takeSteps (step :: steps) state = takeSteps steps state' := by
  rw [takeSteps, List.forM_eq_forM, List.forM_cons, Execution.runFrom_bind_of_ok h]
  rfl

theorem takeSteps_cons_of_error {step : Step} {error : Error}
    (h : runFrom step.perform state = (.error error, state')) :
    takeSteps (step :: steps) state = (.error error, state') := by
  rw [takeSteps, List.forM_eq_forM, List.forM_cons, Execution.runFrom_bind_of_error h]

theorem takeSteps_append_of_ok {first second : List Step}
    (h : takeSteps first state = (.ok (), state')) :
    takeSteps (first ++ second) state = takeSteps second state' := by
  unfold takeSteps at h ⊢
  rw [List.forM_eq_forM] at h ⊢
  rw [List.forM_append, Execution.runFrom_bind_of_ok h]

theorem runFrom_report (event : Event) :
    runFrom (Step.perform (.report event)) state = (.ok (), state.report event) := rfl

/-- An attempt is counted, and the run goes on or not as the recorder says. -/
theorem runFrom_attempt (hn : state.notifier = .record recorder) (made : Attempt) :
    runFrom (Step.perform (.attempt made)) state =
      (if recorder.fails then
          .error (.delivery made.delivery.message.channel "provider unavailable")
        else .ok (),
        { state with
          notifier := .record (recorder.attempt made.delivery)
          cancelled := state.cancelled || recorder.cancels }) := by
  obtain ⟨notifier, cancelled, span, log⟩ := state
  obtain rfl : notifier = .record recorder := hn
  show runFrom (if recorder.fails then
    throw (.delivery made.delivery.message.channel "provider unavailable") else pure ()) _ = _
  cases recorder.fails <;> rfl

/-- Before an iteration a run goes on if it is not cancelled. -/
theorem runFrom_check_of_calm (hc : state.cancelled = false) (iterations : Int64) (index : Nat) :
    runFrom (Step.perform (.check iterations index)) state = (.ok (), state) := by
  show runFrom (if state.cancelled then _ else pure ()) state = _
  rw [hc]
  rfl

theorem runFrom_check_of_cancelled (hc : state.cancelled = true) (iterations : Int64)
    (index : Nat) :
    runFrom (Step.perform (.check iterations index)) state =
      (.error .cancelled, state.report (.loopCancelled (.ofNat index) iterations)) := by
  show runFrom (if state.cancelled then _ else pure ()) state = _
  rw [hc]
  rfl

/-- **A row of steps is taken as a whole** if no attempt fails, and no step finds the run
cancelled: it is not cancelled meanwhile, or nothing looks. -/
theorem takeSteps_ok (hn : state.notifier = .record recorder)
    (ha : recorder.Accepts (attemptsOf steps).length)
    (hc : (state.cancelled = false ∧ recorder.Spares (attemptsOf steps).length) ∨
      (state.cancelled = true ∧ ∀ step ∈ steps, step.isCheck = false)) :
    takeSteps steps state = (.ok (), state.after recorder steps) := by
  induction steps generalizing state recorder with
  | nil => rw [RunState.after_nil hn]; rfl
  | cons step steps ih =>
    cases step with
    | report event =>
      rw [takeSteps_cons_of_ok (runFrom_report event), ← RunState.after_report]
      exact ih hn ha (hc.imp_right fun h => ⟨h.1, fun step hs => h.2 step (.tail _ hs)⟩)
    | check iterations index =>
      rcases hc with hc | ⟨-, hc⟩
      · rw [takeSteps_cons_of_ok (runFrom_check_of_calm hc.1 _ _), RunState.after_check]
        exact ih hn ha (.inl hc)
      · cases hc _ (.head _)
    | attempt made =>
      have hf : recorder.fails = false := Recorder.fails_of_accepts ha
      have ha' := Recorder.accepts_attempt ha made.delivery
      have hr := runFrom_attempt hn made
      rw [hf, if_neg Bool.false_ne_true] at hr
      rw [takeSteps_cons_of_ok hr, ← RunState.after_attempt hf]
      rcases hc with ⟨hc, hs⟩ | ⟨hc, hno⟩
      · have hs' := Recorder.spares_attempt hs made.delivery
        rw [hc, Recorder.cancels_of_spares hs]
        exact ih rfl ha' (.inl ⟨rfl, hs'⟩)
      · rw [hc, Bool.true_or]
        exact ih rfl ha' (.inr ⟨rfl, fun step hs => hno step (.tail _ hs)⟩)

/-! ### Courses -/

variable {course : Course}

theorem runFrom_perform_of_ok (h : takeSteps course.steps state = (.ok (), state')) :
    runFrom course.perform state = (ending course.fault, state') := by
  rw [perform, Execution.runFrom_bind_of_ok h]
  cases course.fault <;> rfl

theorem runFrom_perform_of_error {error : Error}
    (h : takeSteps course.steps state = (.error error, state')) :
    runFrom course.perform state = (.error error, state') := by
  rw [perform, Execution.runFrom_bind_of_error h]

/-- A row of steps is cut at each of its attempts. -/
theorem exists_attempt {k : Nat} (h : k < (attemptsOf steps).length) :
    ∃ before after, steps = before ++ .attempt (attemptsOf steps)[k] :: after ∧
      attemptsOf before = (attemptsOf steps).take k := by
  induction steps generalizing k with
  | nil => cases h
  | cons step steps ih =>
    cases step with
    | report event =>
      obtain ⟨before, after, hs, hb⟩ := ih h
      exact ⟨.report event :: before, after, congrArg (List.cons _) hs, hb⟩
    | check iterations index =>
      obtain ⟨before, after, hs, hb⟩ := ih h
      exact ⟨.check iterations index :: before, after, congrArg (List.cons _) hs, hb⟩
    | attempt made =>
      cases k with
      | zero => exact ⟨[], steps, rfl, rfl⟩
      | succ k =>
        obtain ⟨before, after, hs, hb⟩ := ih (Nat.lt_of_succ_lt_succ h)
        refine ⟨.attempt made :: before, after, congrArg (List.cons _) hs, ?_⟩
        rw [attemptsOf_attempt, attemptsOf_attempt, List.take_succ_cons, hb]

end Course

/-! ### Actions -/

/-- The recorder with another script. -/
def Recorder.scripted (recorder : Recorder) (failAfter cancelAfter : Option Nat) : Recorder :=
  { recorder with failAfter, cancelAfter }

/-- The state with another script for its recorder, and the run cancelled or not. -/
def RunState.scripted (state : RunState) (failAfter cancelAfter : Option Nat)
    (cancelled : Bool) : RunState :=
  { state with notifier := .record (state.recorded.scripted failAfter cancelAfter), cancelled }

namespace Action

/-- The attempts of an action in a context, if nothing breaks the run off. -/
def attempts (action : Action) (context : Context) : List Attempt :=
  attemptsOf (action.course context).steps

variable (action : Action) (context : Context) {state state' : RunState} {recorder : Recorder}

theorem runFrom_of_takeSteps_ok
    (h : Course.takeSteps (action.course context).steps state = (.ok (), state')) :
    runFrom (action.execute context) state =
      (Course.ending (action.course context).fault, state') := by
  rw [execute_eq_perform, Course.runFrom_perform_of_ok h]

theorem runFrom_of_takeSteps_error {error : Error}
    (h : Course.takeSteps (action.course context).steps state = (.error error, state')) :
    runFrom (action.execute context) state = (.error error, state') := by
  rw [execute_eq_perform, Course.runFrom_perform_of_error h]

/-- A run that nothing breaks off makes all its attempts. -/
theorem runFrom_of_ok (hn : state.notifier = .record recorder)
    (ha : recorder.Accepts (action.attempts context).length)
    (hc : (state.cancelled = false ∧ recorder.Spares (action.attempts context).length) ∨
      (state.cancelled = true ∧ ∀ step ∈ (action.course context).steps, step.isCheck = false)) :
    runFrom (action.execute context) state =
      (Course.ending (action.course context).fault,
        state.after recorder (action.course context).steps) :=
  action.runFrom_of_takeSteps_ok context (Course.takeSteps_ok hn ha hc)

/-- So does a run under a recorder without a script. -/
theorem runFrom_calm (hn : state.notifier = .record recorder) (hc : state.cancelled = false)
    (hf : recorder.failAfter = none) (hk : recorder.cancelAfter = none) :
    runFrom (action.execute context) state =
      (Course.ending (action.course context).fault,
        state.after recorder (action.course context).steps) :=
  action.runFrom_of_ok context hn (Recorder.accepts_of_none hf _)
    (.inl ⟨hc, Recorder.spares_of_none hk _⟩)

end Action
end ActionTree
