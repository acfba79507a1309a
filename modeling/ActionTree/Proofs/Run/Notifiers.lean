/-
# Messages in the log and in a recorder

The messages of a tree can go into the log or to a recorder. As long as nothing is scripted
for the recorder, this makes no difference to the run: it takes the same steps and ends in
the same way. And the log tells of each message that the recorder records, with the
parameters of the message and, if this is wanted and there is something to tell, with the
context in which it was sent.

Key definitions: `Event.ShownAs`, `Event.Announces`, `Event.Shows`, `Event.Tell`, `Alike`.
Key theorems: `Course.told_takeSteps`, `Tree.log_tells_deliveries`.
-/
import ActionTree.Proofs.Run.Accounts
import ActionTree.Proofs.Run.Reports

namespace ActionTree

open Course (eventsOf)
open Event (logOf)
open Execution (runFrom contextText)

/-! ### How a delivery is told -/

/-- An event is shown with this level and text, and with these fields, of which those that
have no text are left out. -/
structure Event.ShownAs (event : Event) (level : Level) (message : String)
    (fields : List (String × Option String)) : Prop where
  level : event.level = level
  message : event.message = message
  fields : ∀ explain, event.fields explain =
    fields.filterMap fun field => field.2.map fun text => (field.1, Json.str text)

/-- The text of the context of a delivery, if it is to be shown and has a variable. -/
def Delivery.shownContext (withContext : Bool) (delivery : Delivery) : Option String :=
  if withContext = true ∧ delivery.context.size ≠ 0 then some delivery.context.toJson.compact
  else none

namespace Event

/-- An event tells that the message of a delivery is dispatched. -/
def Announces (event : Event) (delivery : Delivery) : Prop :=
  match delivery.message with
  | .sms phoneNumber _ =>
    event.ShownAs .debug "Dispatching SMS" [("phone_number", some phoneNumber)]
  | .email sender receiver _ _ =>
    event.ShownAs .debug "Dispatching email" [("sender", some sender), ("receiver", some receiver)]

/-- An event tells of a delivery. -/
def Shows (withContext : Bool) (event : Event) (delivery : Delivery) : Prop :=
  match delivery.message with
  | .sms phoneNumber text => event.ShownAs .info "Sending SMS"
      [("phone_number", some phoneNumber), ("text", text),
        ("context", delivery.shownContext withContext)]
  | .email sender receiver subject body => event.ShownAs .info "Sending email"
      [("sender", some sender), ("receiver", some receiver), ("subject", subject),
        ("body", body), ("context", delivery.shownContext withContext)]

/-- Whether an event tells of any delivery. -/
def isSending (event : Event) : Bool :=
  event.message = "Sending SMS" || event.message = "Sending email"

/-- A row of events tells of a row of deliveries: of each of them in turn by an event of its
own, right behind one that tells that it is dispatched, and of no others. -/
inductive Tell (withContext : Bool) : List Event → List Delivery → Prop where
  | nil : Tell withContext [] []
  | other {event : Event} {events : List Event} {sent : List Delivery} :
      event.isSending = false → Tell withContext events sent →
      Tell withContext (event :: events) sent
  | delivery {first second : Event} {delivery : Delivery} {events : List Event}
      {sent : List Delivery} : first.Announces delivery → second.Shows withContext delivery →
      Tell withContext events sent →
      Tell withContext (first :: second :: events) (delivery :: sent)

theorem announces_dispatching (delivery : Delivery) :
    (dispatching delivery.message).Announces delivery := by
  unfold Announces
  cases delivery.message with
  | sms => exact ⟨rfl, rfl, fun _ => rfl⟩
  | email => exact ⟨rfl, rfl, fun _ => rfl⟩

theorem shows_sending (withContext : Bool) (delivery : Delivery) :
    (sending delivery.message (if withContext then contextText delivery.context else none)).Shows
      withContext delivery := by
  have hcontext : (if withContext then contextText delivery.context else none) =
      delivery.shownContext withContext := by
    unfold Delivery.shownContext contextText Context.size
    cases withContext <;> cases delivery.context.entries <;> simp
  rw [hcontext]
  unfold Shows
  cases delivery.message with
  | sms phoneNumber text =>
    refine ⟨rfl, rfl, fun explain => ?_⟩
    cases text <;> cases delivery.shownContext withContext <;> rfl
  | email sender receiver subject body =>
    refine ⟨rfl, rfl, fun explain => ?_⟩
    cases subject <;> cases body <;> cases delivery.shownContext withContext <;> rfl

theorem isSending_of_ofNode {event : Event} (h : event.ofNode = true) :
    event.isSending = false := by
  cases event with
  | treeStarted | treeCompleted | runFailed | loopCancelled | sending => cases h
  | dispatching message => cases message <;> rfl
  | _ => rfl

end Event

/-! ### Two runs side by side -/

/-- Two states that differ in where the messages go: into the log, or to a recorder without a
script. -/
structure Alike (withContext : Bool) (logging recording : RunState) (recorder : Recorder) :
    Prop where
  log : logging.notifier = .log withContext
  record : recording.notifier = .record recorder
  failAfter : recorder.failAfter = none
  cancelAfter : recorder.cancelAfter = none
  cancelled : logging.cancelled = recording.cancelled

variable {withContext : Bool} {logging recording : RunState} {recorder : Recorder}

theorem Alike.report (h : Alike withContext logging recording recorder) (event : Event) :
    Alike withContext (logging.report event) (recording.report event) recorder :=
  ⟨h.log, h.record, h.failAfter, h.cancelAfter, h.cancelled⟩

/-- What two runs that begin side by side leave behind: they end in the same way, and what the
log of the first tells is what the second has recorded. -/
structure Told (withContext : Bool) (logging recording : RunState)
    (run run' : Except Error Unit × RunState) (events : List Event) (sent : List Delivery) :
    Prop where
  result : run.1 = run'.1
  log : run.2.log = logging.log ++ logOf logging.span events.toArray
  deliveries : run'.2.recorded.deliveries = recording.recorded.deliveries ++ sent.toArray
  tell : Event.Tell withContext events sent

namespace Told

variable {run run' : Except Error Unit × RunState} {events : List Event} {sent : List Delivery}

theorem nothing (withContext : Bool) (logging recording : RunState)
    (result : Except Error Unit) :
    Told withContext logging recording (result, logging) (result, recording) [] [] :=
  ⟨rfl, by simp [logOf], by simp, .nil⟩

/-- A report in front of both runs is told by the log. -/
theorem of_report {event : Event}
    (h : Told withContext (logging.report event) (recording.report event) run run' events sent)
    (he : event.isSending = false) :
    Told withContext logging recording run run' (event :: events) sent where
  result := h.result
  log := by
    rw [h.log]
    simp [RunState.report, logOf]
  deliveries := h.deliveries
  tell := .other he h.tell

end Told

namespace Course

/-- An attempt goes into the log, or is recorded, and both runs go on. -/
theorem alike_attempt (h : Alike withContext logging recording recorder) (made : Attempt) :
    ∃ next next', runFrom (Step.perform (.attempt made)) logging = (.ok (), next) ∧
      runFrom (Step.perform (.attempt made)) recording = (.ok (), next') ∧
      Alike withContext next next' (recorder.attempt made.delivery) ∧
      next = logging.report (.sending made.delivery.message
        (if withContext then contextText made.delivery.context else none)) ∧
      next'.recorded.deliveries = recording.recorded.deliveries.push made.delivery := by
  have hfails : recorder.fails = false :=
    Recorder.fails_of_accepts (Recorder.accepts_of_none h.failAfter 1)
  have hcancels : recorder.cancels = false :=
    Recorder.cancels_of_spares (Recorder.spares_of_none h.cancelAfter 1)
  have hmade := runFrom_attempt h.record made
  rw [hfails, hcancels, if_neg Bool.false_ne_true, Bool.or_false] at hmade
  refine ⟨_, _, runFrom_attempt_of_log h.log made, hmade,
    ⟨h.log, rfl, h.failAfter, h.cancelAfter, h.cancelled⟩, rfl, ?_⟩
  rw [RunState.recorded, RunState.recorded, h.record]
  show (recorder.attempt made.delivery).deliveries = _
  rw [Recorder.attempt, hfails]
  rfl

/-- **The log tells what a recorder records**, as far as a row of steps is taken. -/
theorem told_takeSteps {steps : List Step} (h : Announced steps)
    (hquiet : ∀ event ∈ eventsOf steps, event.isSending = false)
    (halike : Alike withContext logging recording recorder) :
    ∃ events sent, Told withContext logging recording (takeSteps steps logging)
      (takeSteps steps recording) events sent := by
  induction h generalizing logging recording recorder with
  | nil => exact ⟨[], [], .nothing withContext logging recording (.ok ())⟩
  | @report event steps _ _ ih =>
    obtain ⟨he, hrest⟩ := List.forall_mem_cons.1 hquiet
    obtain ⟨events, sent, htold⟩ := ih hrest (halike.report event)
    rw [takeSteps_cons_of_ok (runFrom_report event), takeSteps_cons_of_ok (runFrom_report event)]
    exact ⟨event :: events, sent, htold.of_report he⟩
  | @check iterations index steps _ ih =>
    cases hc : recording.cancelled with
    | false =>
      have hc' : logging.cancelled = false := halike.cancelled.trans hc
      rw [takeSteps_cons_of_ok (runFrom_check_of_calm hc iterations index),
        takeSteps_cons_of_ok (runFrom_check_of_calm hc' iterations index)]
      exact ih hquiet halike
    | true =>
      have hc' : logging.cancelled = true := halike.cancelled.trans hc
      rw [takeSteps_cons_of_error (runFrom_check_of_cancelled hc iterations index),
        takeSteps_cons_of_error (runFrom_check_of_cancelled hc' iterations index)]
      have hend := Told.nothing withContext
        (logging.report (.loopCancelled (.ofNat index) iterations))
        (recording.report (.loopCancelled (.ofNat index) iterations)) (.error .cancelled)
      exact ⟨_, _, hend.of_report rfl⟩
  | @attempt made steps _ ih =>
    obtain ⟨-, hrest⟩ := List.forall_mem_cons.1 hquiet
    obtain ⟨next, next', hlogging, hrecording, hnext, hlog, hdeliveries⟩ :=
      alike_attempt (halike.report (.dispatching made.delivery.message)) made
    obtain ⟨events, sent, htold⟩ := ih hrest hnext
    rw [takeSteps_cons_of_ok (runFrom_report _), takeSteps_cons_of_ok (runFrom_report _),
      takeSteps_cons_of_ok hlogging, takeSteps_cons_of_ok hrecording]
    refine ⟨_, _, htold.result, ?_, ?_, .delivery (Event.announces_dispatching made.delivery)
      (Event.shows_sending withContext made.delivery) htold.tell⟩
    · rw [htold.log, hlog]
      simp [RunState.report, logOf]
    · rw [htold.deliveries, hdeliveries]
      simp [RunState.recorded, RunState.report]

/-- So does it for a whole course. -/
theorem told_perform {course : Course} (h : Announced course.steps)
    (hquiet : ∀ event ∈ eventsOf course.steps, event.isSending = false)
    (halike : Alike withContext logging recording recorder) :
    ∃ events sent, Told withContext logging recording (runFrom course.perform logging)
      (runFrom course.perform recording) events sent := by
  obtain ⟨events, sent, htold⟩ := told_takeSteps h hquiet halike
  rcases hlogging : takeSteps course.steps logging with ⟨error | _, final⟩
  all_goals rcases hrecording : takeSteps course.steps recording with ⟨error' | _, final'⟩
  all_goals rw [hlogging, hrecording] at htold
  · rw [runFrom_perform_of_error hlogging, runFrom_perform_of_error hrecording]
    exact ⟨events, sent, htold⟩
  · cases htold.result
  · cases htold.result
  · rw [runFrom_perform_of_ok hlogging, runFrom_perform_of_ok hrecording]
    exact ⟨events, sent, rfl, htold.log, htold.deliveries, htold.tell⟩

end Course

namespace Tree

/-! ### Trees -/

theorem announced_course (tree : Tree) : Course.Announced tree.course.steps :=
  .report rfl ((tree.root.announced_course tree.context).andThen (.report rfl .nil))

/-- What goes into the log as a message is not reported by the steps of a tree. -/
theorem quiet_course (tree : Tree) :
    ∀ event ∈ eventsOf tree.course.steps, event.isSending = false := by
  intro event hm
  obtain ⟨step, hstep, he⟩ := List.mem_filterMap.1 hm
  obtain rfl | hstep := List.mem_cons.1 hstep
  · cases he
    rfl
  · obtain hroot | hend := Course.mem_andThen hstep
    · have hnodes := (tree.root.ofNodes_course tree.context).events List.prefix_rfl
      exact Event.isSending_of_ofNode (hnodes event (List.mem_filterMap.2 ⟨step, hroot, he⟩))
    · obtain rfl := List.mem_singleton.1 hend
      cases he
      rfl

/-- **The log tells what a recorder records.** A tree whose messages go into the log ends as
it does with a recorder that has no script, be the run cancelled beforehand or not. Its log
tells of the deliveries that the recorder records, one by one and in their order, each right
behind the event that it is dispatched: with the parameters of the message, where those left
out are missing, and with the context if this is wanted and the context is not empty. -/
theorem log_tells_deliveries (tree : Tree) (start : RunState) (withContext cancelled : Bool) :
    let logging := runFrom tree.execute { start with notifier := .log withContext, cancelled }
    let recording := runFrom tree.execute (start.scripted none none cancelled)
    logging.1 = recording.1 ∧
    ∃ events sent,
      logging.2.log = start.log ++ logOf start.span events.toArray ∧
      recording.2.recorded.deliveries = start.recorded.deliveries ++ sent.toArray ∧
      Event.Tell withContext events sent := by
  intro logging recording
  have halike : Alike withContext { start with notifier := .log withContext, cancelled }
      (start.scripted none none cancelled) (start.recorded.scripted none none) :=
    ⟨rfl, rfl, rfl, rfl, rfl⟩
  obtain ⟨events, sent, htold⟩ :=
    Course.told_perform tree.announced_course tree.quiet_course halike
  rw [← execute_eq_perform] at htold
  exact ⟨htold.result, events, sent, htold.log, htold.deliveries, htold.tell⟩

end Tree
end ActionTree
