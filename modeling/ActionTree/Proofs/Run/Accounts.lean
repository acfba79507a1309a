/-
# The accounts of a recorder

One recorder can serve many runs: of actions, of trees and of documents, with another
script each time. What it counts and what it records stay in step with how these runs end:
every attempt is recorded, but for one at the end of each run whose error is that of a
delivery. What was recorded once stays as it is.

The log tells the attempts of a run, since each is announced right before it is made
(`Action.announced_course`). So it is known which messages were sent and which one was lost
(`Accounts`).

Key definitions: `Course.Announced`, `Accounts`, `Accounted`, `Job`, `Round`, `History.play`.
Key theorems: `Action.announced_course`, `Action.accounted_run`, `Job.accounted_perform`,
`History.attempts_accounted`.
-/
import ActionTree.Proofs.Run.Failure
import ActionTree.Proofs.Run.Stops
import ActionTree.Proofs.Run.Verdict

namespace ActionTree

open Course (attemptsOf eventsOf)
open Execution (runFrom)

/-! ### Announcements -/

/-- The message that an event announces. -/
def Event.announced? : Event → Option Message
  | dispatching message => some message
  | _ => none

/-- The messages that are announced in a part of the log. -/
def LogEntry.announcedIn (entries : List LogEntry) : List Message :=
  entries.filterMap fun entry => entry.event.announced?

namespace Course

/-- The messages that a row of steps announces. -/
def announcedBy (steps : List Step) : List Message :=
  (eventsOf steps).filterMap Event.announced?

/-- The messages that a row of steps attempts to send. -/
def attemptedBy (steps : List Step) : List Message :=
  (attemptsOf steps).map fun made => made.delivery.message

/-- A row of steps announces each attempt right before it is made, and nothing else. -/
inductive Announced : List Step → Prop where
  | nil : Announced []
  | report {event : Event} {steps : List Step} : event.announced? = none → Announced steps →
      Announced (.report event :: steps)
  | check {iterations : Int64} {index : Nat} {steps : List Step} : Announced steps →
      Announced (.check iterations index :: steps)
  | attempt (made : Attempt) {steps : List Step} : Announced steps →
      Announced (.report (.dispatching made.delivery.message) :: .attempt made :: steps)

variable {steps first second : List Step}

theorem Announced.append (h : Announced first) (h' : Announced second) :
    Announced (first ++ second) := by
  induction h with
  | nil => exact h'
  | report he _ ih => exact .report he ih
  | check _ ih => exact .check ih
  | attempt made _ ih => exact .attempt made ih

theorem Announced.within (h : Announced steps) (turn : Turn) :
    Announced (steps.map (Step.within turn)) := by
  induction h with
  | nil => exact .nil
  | report he _ ih => exact .report he ih
  | check _ ih => exact .check ih
  | attempt made _ ih => exact .attempt ⟨made.delivery, turn :: made.turns⟩ ih

theorem Announced.andThen {first second : Course} (h : Announced first.steps)
    (h' : Announced second.steps) : Announced (first.andThen second).steps := by
  obtain ⟨steps, fault⟩ := first
  cases fault with
  | none => exact h.append h'
  | some fault => exact h

theorem announced_iterate {iterations : Int64} {body : Context → Course}
    (h : ∀ context, Announced (body context).steps) (context : Context) (remaining index : Nat) :
    Announced (iterate iterations body context remaining index).steps := by
  induction remaining generalizing index with
  | zero => exact .nil
  | succ remaining ih => exact .check (.report rfl (((h _).within _).andThen (ih (index + 1))))

/-- What was announced was attempted. -/
theorem Announced.announcedBy_eq (h : Announced steps) : announcedBy steps = attemptedBy steps := by
  induction h with
  | nil => rfl
  | @report event steps he _ ih =>
    rw [announcedBy, eventsOf_report, List.filterMap_cons_none he]
    exact ih
  | check _ ih => exact ih
  | attempt made _ ih => exact congrArg (List.cons _) ih

/-- In front of a step all that was announced was attempted, but for the attempt that the
step is. -/
theorem Announced.announcedBy_front {before after : List Step} {step : Step}
    (h : Announced (before ++ step :: after)) :
    announcedBy before = attemptedBy before ++
      (step.attempt?.map fun made => made.delivery.message).toList := by
  generalize hs : before ++ step :: after = steps at h
  induction h generalizing before with
  | nil => cases before <;> cases hs
  | @report event steps he _ ih =>
    cases before with
    | nil =>
      cases hs
      rfl
    | cons head before =>
      obtain ⟨rfl, hrest⟩ := List.cons.inj hs
      rw [announcedBy, eventsOf_report, List.filterMap_cons_none he]
      exact ih hrest
  | check _ ih =>
    cases before with
    | nil =>
      cases hs
      rfl
    | cons head before =>
      obtain ⟨rfl, hrest⟩ := List.cons.inj hs
      have hbefore := ih hrest
      exact hbefore
  | attempt made _ ih =>
    match before with
    | [] =>
      cases hs
      rfl
    | [head] =>
      cases hs
      rfl
    | head :: next :: before =>
      cases hs
      exact congrArg (List.cons _) (ih rfl)

end Course

/-- **Every attempt of a run is announced.** -/
theorem Action.announced_course (action : Action) (context : Context) :
    Course.Announced (action.course context).steps := by
  apply course_shapes (motive := fun course => Course.Announced course.steps)
  case message => exact fun message context => .attempt ⟨⟨message, context⟩, []⟩ .nil
  case unevaluated => exact fun expression source => .report rfl .nil
  case missing => exact fun expression result => .report rfl (.report rfl (.report rfl .nil))
  case empty => exact fun iterations => .report rfl (.report rfl .nil)
  case branch => exact fun expression result course h => .report rfl (.report rfl (.report rfl h))
  case loop =>
    intro iterations body context h
    have hloop : Course.Announced
        (Course.iterate iterations body context iterations.toInt.toNat 0).steps :=
      Course.announced_iterate h context _ 0
    exact .report rfl (hloop.andThen (.report rfl .nil))

/-! ### What a run adds -/

/-- What was done between two states: deliveries were recorded behind those before, and
behind them there was at most one attempt more, of a message that could not be sent. The log
tells so many attempts, of these messages in this order. -/
structure Accounts (before after : RunState) (sent : List Delivery) (lost : Option Message) :
    Prop where
  attempts : after.recorded.attempts =
    before.recorded.attempts + sent.length + lost.toList.length
  deliveries : after.recorded.deliveries = before.recorded.deliveries ++ sent.toArray
  announced : ∃ entries : List LogEntry, after.log = before.log ++ entries.toArray ∧
    LogEntry.announcedIn entries = sent.map Delivery.message ++ lost.toList

namespace Accounts

variable {before after : RunState} {sent : List Delivery} {lost : Option Message} {event : Event}

theorem refl (state : RunState) : Accounts state state [] none :=
  ⟨rfl, Array.append_empty.symm, [], Array.append_empty.symm, rfl⟩

/-- A report behind a run changes nothing, unless it announces a message. -/
theorem report (h : Accounts before after sent lost) (he : event.announced? = none) :
    Accounts before (after.report event) sent lost := by
  obtain ⟨entries, hlog, hentries⟩ := h.announced
  refine ⟨h.attempts, h.deliveries, entries ++ [⟨event, after.span⟩], ?_, ?_⟩
  · show after.log.push _ = _
    simp [hlog]
  · simpa [LogEntry.announcedIn, he] using hentries

/-- Neither does one in front of it. -/
theorem of_report (h : Accounts (before.report event) after sent lost)
    (he : event.announced? = none) : Accounts before after sent lost := by
  obtain ⟨entries, hlog, hentries⟩ := h.announced
  refine ⟨h.attempts, h.deliveries, ⟨event, before.span⟩ :: entries, ?_, ?_⟩
  · rw [hlog]
    show before.log.push _ ++ _ = _
    simp
  · simpa [LogEntry.announcedIn, he] using hentries

end Accounts

/-- The accounts between two states are in order: a message was lost exactly if a failure
to deliver on its channel is told. -/
def Accounted (before after : RunState) (failed : Option Channel) : Prop :=
  ∃ sent lost, Accounts before after sent lost ∧ lost.map Message.channel = failed

namespace Accounted

variable {before after : RunState} {failed : Option Channel} {event : Event}

theorem report (h : Accounted before after failed) (he : event.announced? = none) :
    Accounted before (after.report event) failed := by
  obtain ⟨sent, lost, haccounts, hlost⟩ := h
  exact ⟨sent, lost, haccounts.report he, hlost⟩

theorem of_report (h : Accounted (before.report event) after failed)
    (he : event.announced? = none) : Accounted before after failed := by
  obtain ⟨sent, lost, haccounts, hlost⟩ := h
  exact ⟨sent, lost, haccounts.of_report he, hlost⟩

/-- The span of a run does not matter. -/
theorem of_spans {inner : Option Span} (h : Accounted { before with span := inner } after failed)
    (outer : Option Span) : Accounted before { after with span := outer } failed := by
  obtain ⟨sent, lost, ⟨hattempts, hdeliveries, hannounced⟩, hlost⟩ := h
  exact ⟨sent, lost, ⟨hattempts, hdeliveries, hannounced⟩, hlost⟩

/-- Neither does the script. -/
theorem of_scripted {failAfter cancelAfter : Option Nat} {cancelled : Bool}
    (h : Accounted (before.scripted failAfter cancelAfter cancelled) after failed) :
    Accounted before after failed := by
  obtain ⟨sent, lost, ⟨hattempts, hdeliveries, hannounced⟩, hlost⟩ := h
  exact ⟨sent, lost, ⟨hattempts, hdeliveries, hannounced⟩, hlost⟩

end Accounted

/-- A run that breaks off behind some steps has recorded their attempts. Only one more can
have been announced: the one with which it breaks off. -/
theorem Accounts.of_takeSteps_ok {steps : List Step} {state middle final : RunState}
    {lost : Option Message} {recorder : Recorder} (hn : state.notifier = .record recorder)
    (h : Course.takeSteps steps state = (.ok (), middle))
    (hannounced : Course.announcedBy steps = Course.attemptedBy steps ++ lost.toList)
    (hlog : final.log = middle.log)
    (hrecorded : final.recorded = { middle.recorded with
      attempts := middle.recorded.attempts + lost.toList.length }) :
    Accounts state final ((attemptsOf steps).map Attempt.delivery) lost := by
  have hstate := RunState.recorded_of_record hn
  have hmiddle := Course.eq_after_of_takeSteps_ok hn h
  rw [hmiddle] at hlog hrecorded
  refine ⟨?_, ?_, (eventsOf steps).map fun event => ⟨event, state.span⟩, hlog, ?_⟩
  · rw [hrecorded, hstate, List.length_map]
    rfl
  · rw [hrecorded, hstate]
    rfl
  · rw [LogEntry.announcedIn, List.filterMap_map, List.map_map]
    exact hannounced

/-- The channel of the message that a run could not deliver, if it ended so. -/
def Error.undelivered? : Except Error Unit → Option Channel
  | .error (.delivery channel _) => some channel
  | _ => none

theorem Error.undelivered?_of_structural {error : Error} (h : error.structural = true) :
    undelivered? (.error error) = none := by
  cases error with
  | malformedAction | malformedTree | invalidStructure => rfl
  | evaluation | delivery | cancelled => cases h

variable {state : RunState} {recorder : Recorder}

/-- **The accounts of an action.** A run makes one attempt at most that fails, and this is
the last that it makes. It makes one if and only if it ends with the error of a delivery. -/
theorem Action.accounted_run (action : Action) (context : Context)
    (hn : state.notifier = .record recorder) :
    Accounted state (runFrom (action.execute context) state).2
      (Error.undelivered? (runFrom (action.execute context) state).1) := by
  have hcourse := action.announced_course context
  obtain ⟨final, hall, hrun⟩ |
      ⟨iterations, index, middle, ⟨before, after, hsteps, hbefore⟩, -, hrun⟩ |
      ⟨made, middle, recorder, ⟨before, after, hsteps, hbefore⟩, hlast, hfails, hrun⟩ :=
    action.runFrom_cases context state
  · have hannounced := hcourse.announcedBy_eq.trans (List.append_nil _).symm
    rw [hrun]
    refine ⟨_, none, .of_takeSteps_ok hn hall hannounced rfl rfl, ?_⟩
    cases (action.course context).fault <;> rfl
  · have hannounced := (hsteps ▸ hcourse).announcedBy_front
    rw [hrun]
    exact ⟨_, none, (Accounts.of_takeSteps_ok hn hbefore hannounced rfl rfl).report rfl, rfl⟩
  · have hannounced := (hsteps ▸ hcourse).announcedBy_front
    have hmiddle := RunState.recorded_of_record hlast
    rw [hrun, Recorder.attempt_of_fails hfails, ← hmiddle]
    -- The attempt that fails was announced, but it is not among those of the steps taken.
    exact ⟨_, some made.delivery.message, .of_takeSteps_ok hn hbefore hannounced rfl rfl, rfl⟩

/-- A tree adds what its root adds. -/
theorem Tree.accounted_run (tree : Tree) (hn : state.notifier = .record recorder) :
    Accounted state (runFrom tree.execute state).2
      (Error.undelivered? (runFrom tree.execute state).1) := by
  have hstarted : (state.report (.treeStarted tree.root.kind tree.context.size)).notifier =
      .record recorder := hn
  have hroot := (tree.root.accounted_run tree.context hstarted).of_report rfl
  rw [runFrom_execute]
  generalize runFrom (tree.root.execute tree.context) _ = root at hroot
  obtain ⟨error | _, after⟩ := root
  · exact hroot
  · exact hroot.report rfl

/-! ### Jobs -/

/-- A document that is refused adds nothing, and any other what its tree adds. -/
theorem Tree.accounted_attempt (json : Json) (hn : state.notifier = .record recorder) :
    Accounted state (runFrom (attempt json) state).2
      (Error.undelivered? (runFrom (attempt json) state).1) := by
  cases hc : check json with
  | error error =>
    rw [attempt_of_check_error hc, Error.undelivered?_of_structural (structural_of_check_error hc)]
    exact ⟨[], none, .refl state, rfl⟩
  | ok =>
    obtain ⟨tree, hj, hw⟩ := exists_tree_of_check_ok hc
    rw [attempt_of_wellFormed hj hw]
    exact tree.accounted_run hn

/-- What can be run. -/
inductive Job where
  | action (root : Action) (context : Context)
  | tree (whole : Tree)
  | document (json : Json)

/-- Does a job. -/
def Job.perform : Job → StateM RunState (Except Error Unit)
  | action root context => (root.execute context).run
  | tree whole => whole.execute.run
  | document json => Tree.run json

/-- **The accounts of a job.** -/
theorem Job.accounted_perform (job : Job) (hn : state.notifier = .record recorder) :
    Accounted state (job.perform.run state).2 (Error.undelivered? (job.perform.run state).1) := by
  cases job with
  | action root context => exact root.accounted_run context hn
  | tree whole => exact whole.accounted_run hn
  | document json =>
    have hopened : (Tree.opened state).notifier = .record recorder := hn
    have hattempt := Tree.accounted_attempt json hopened
    rw [perform, Tree.run_eq_closed]
    generalize runFrom (Tree.attempt json) (Tree.opened state) = attempt at hattempt
    obtain ⟨error | _, after⟩ := attempt
    · exact (hattempt.report rfl).of_spans state.span
    · exact hattempt.of_spans state.span

/-! ### Histories -/

/-- A job with the script of the recorder for it, and whether the run is cancelled from the
start. -/
structure Round where
  failAfter : Option Nat
  cancelAfter : Option Nat
  cancelled : Bool
  job : Job

/-- Does the job of a round, with what was recorded before. -/
def Round.play (round : Round) (state : RunState) : Except Error Unit × RunState :=
  round.job.perform.run (state.scripted round.failAfter round.cancelAfter round.cancelled)

/-- The accounts of a round are in order. The script has no part in them. -/
theorem Round.accounted_play (round : Round) (state : RunState) :
    Accounted state (round.play state).2 (Error.undelivered? (round.play state).1) := by
  have hn : (state.scripted round.failAfter round.cancelAfter round.cancelled).notifier =
      .record (state.recorded.scripted round.failAfter round.cancelAfter) := rfl
  exact (round.job.accounted_perform hn).of_scripted

namespace History

/-- Plays rounds with one recorder. How each of them ends is listed. -/
def play : List Round → RunState → List (Except Error Unit) × RunState
  | [], state => ([], state)
  | round :: rounds, state =>
    let (outcome, next) := round.play state
    let (outcomes, last) := play rounds next
    (outcome :: outcomes, last)

/-- How many of the rounds ended with a message that was not delivered. -/
def undelivered (outcomes : List (Except Error Unit)) : Nat :=
  outcomes.countP fun outcome => (Error.undelivered? outcome).isSome

/-- Rounds add deliveries behind those before, and so many attempts as these, and one for
each round that ends with a message that was not delivered. -/
theorem recorded_play (rounds : List Round) (state : RunState) :
    ∃ sent : List Delivery,
      (play rounds state).2.recorded.deliveries = state.recorded.deliveries ++ sent.toArray ∧
      (play rounds state).2.recorded.attempts =
        state.recorded.attempts + sent.length + undelivered (play rounds state).1 := by
  induction rounds generalizing state with
  | nil => exact ⟨[], Array.append_empty.symm, rfl⟩
  | cons round rounds ih =>
    obtain ⟨first, lost, hfirst, hlost⟩ := round.accounted_play state
    obtain ⟨others, hdeliveries, hattempts⟩ := ih (round.play state).2
    have hcount : undelivered (play (round :: rounds) state).1 =
        lost.toList.length + undelivered (play rounds (round.play state).2).1 := by
      show undelivered ((round.play state).1 :: (play rounds (round.play state).2).1) = _
      rw [undelivered, List.countP_cons, ← hlost, Nat.add_comm]
      cases lost <;> rfl
    refine ⟨first ++ others, ?_, ?_⟩
    · show (play rounds (round.play state).2).2.recorded.deliveries = _
      rw [hdeliveries, hfirst.deliveries]
      simp
    · show (play rounds (round.play state).2).2.recorded.attempts = _
      rw [hattempts, hfirst.attempts, hcount, List.length_append]
      omega

/-- Later rounds go on where the others ended. -/
theorem play_append (rounds later : List Round) (state : RunState) :
    (play (rounds ++ later) state).2 = (play later (play rounds state).2).2 := by
  induction rounds generalizing state with
  | nil => rfl
  | cons round rounds ih => exact ih (round.play state).2

/-- **The attempts are accounted for.** After any rounds with one recorder, as many attempts
are counted as deliveries are recorded and rounds ended with a message that was not
delivered. The next round makes one attempt at most that fails, and none behind it: this is
so if and only if it ends with the error of this delivery. And whatever rounds come later,
the deliveries stay as they are, in front of the new ones. -/
theorem attempts_accounted (blank : RunState) (rounds later : List Round) (round : Round) :
    let start := { blank with notifier := .record (.new none none) }
    let played := play rounds start
    let next := round.play played.2
    played.2.recorded.attempts =
      played.2.recorded.deliveries.size + undelivered played.1 ∧
    Accounted played.2 next.2 (Error.undelivered? next.1) ∧
    ∃ sent : List Delivery, (play (rounds ++ later) start).2.recorded.deliveries =
      played.2.recorded.deliveries ++ sent.toArray := by
  intro start played next
  refine ⟨?counted, round.accounted_play played.2, ?kept⟩
  case counted =>
    obtain ⟨sent, hdeliveries, hattempts⟩ := recorded_play rounds start
    have hsize : played.2.recorded.deliveries.size = sent.length := by
      rw [show played.2.recorded.deliveries = _ from hdeliveries]
      exact congrArg Array.size (Array.empty_append)
    rw [hsize, show played.2.recorded.attempts = _ from hattempts]
    exact congrArg (· + _) (Nat.zero_add sent.length)
  case kept =>
    obtain ⟨sent, hdeliveries, -⟩ := recorded_play later played.2
    rw [play_append]
    exact ⟨sent, hdeliveries⟩

end History
end ActionTree
