/-
# The trace of a run

What a run of a document reports is followed event by event, with the loops that are open:
a loop is opened where it is started and closed by one event of its own, and in between it
counts its iterations. The steps of an action keep to this (`Action.leads_course`), so a run
that succeeds leaves no loop open, and one that is cancelled breaks off in the innermost
loop, between two of its iterations.

Key definitions: `OpenLoop`, `OpenLoop.next?`, `Course.Leads`, `Action.Trace`, `Tree.Trace`.
Key theorems: `Course.leads_iterate`, `Action.leads_course`, `Action.traced_run`,
`Tree.trace_of_run`.
-/
import ActionTree.Proofs.Run.Accounts
import ActionTree.Proofs.Run.Reports

namespace ActionTree

open Course (eventsOf)
open Event (logOf)
open Execution (runFrom)

/-! ### Open loops -/

/-- A loop that was started and is not closed: how many iterations it has in all, and how
many of them were reported. -/
structure OpenLoop where
  iterations : Int64
  begun : Nat
  deriving DecidableEq

namespace OpenLoop

/-- The open loops behind an event, the innermost first; none if the event may not stand
there. The iterations of a loop are counted from 1 on, and it is completed behind the last
of them; a loop with nothing to do is closed before the first. -/
def next? : List OpenLoop → Event → Option (List OpenLoop)
  | loops, .loopStarted iterations => some (⟨iterations, 0⟩ :: loops)
  | loop :: loops, .loopEmpty => if loop.begun = 0 then some loops else none
  | loop :: loops, .loopIteration iteration iterations =>
    if iterations = loop.iterations ∧ iteration.toInt = loop.begun + 1 then
      some ({ loop with begun := loop.begun + 1 } :: loops)
    else none
  | loop :: loops, .loopCompleted iterations =>
    if iterations = loop.iterations ∧ loop.begun = iterations.toInt.toNat then some loops
    else none
  | [], .loopEmpty | [], .loopIteration .. | [], .loopCompleted .. | _, .loopCancelled .. => none
  | loops, _ => some loops

/-- The open loops behind a row of events. -/
def after? (loops : List OpenLoop) (events : List Event) : Option (List OpenLoop) :=
  events.foldlM next? loops

/-- The open loops behind a step. Where the run looks if it was cancelled, it is in front of
an iteration of the innermost loop. -/
def nextStep? (loops : List OpenLoop) : Step → Option (List OpenLoop)
  | .report event => next? loops event
  | .check iterations index =>
    if loops.head? = some ⟨iterations, index⟩ ∧ index < iterations.toInt.toNat then some loops
    else none
  | .attempt _ => some loops

/-- The open loops behind a row of steps. -/
def afterSteps? (loops : List OpenLoop) (steps : List Step) : Option (List OpenLoop) :=
  steps.foldlM nextStep? loops

variable {loops middle last : List OpenLoop} {iterations : Int64}

theorem next?_loopIteration {iteration : Int64} {begun : Nat} (h : iteration.toInt = begun + 1) :
    next? (⟨iterations, begun⟩ :: loops) (.loopIteration iteration iterations) =
      some (⟨iterations, begun + 1⟩ :: loops) :=
  if_pos ⟨rfl, h⟩

theorem next?_loopCompleted :
    next? (⟨iterations, iterations.toInt.toNat⟩ :: loops) (.loopCompleted iterations) = some loops :=
  if_pos ⟨rfl, rfl⟩

variable {first second : List Step}

theorem afterSteps?_append (h : afterSteps? loops first = some middle) :
    afterSteps? loops (first ++ second) = afterSteps? middle second := by
  unfold afterSteps? at h ⊢
  rw [List.foldlM_append, h]
  rfl

theorem exists_of_afterSteps?_append (h : afterSteps? loops (first ++ second) = some last) :
    ∃ middle, afterSteps? loops first = some middle ∧ afterSteps? middle second = some last := by
  unfold afterSteps? at h ⊢
  rw [List.foldlM_append] at h
  exact Option.bind_eq_some_iff.1 h

/-- The events of a row of steps tell its loops. -/
theorem after?_eventsOf {steps : List Step} (h : afterSteps? loops steps = some last) :
    after? loops (eventsOf steps) = some last := by
  induction steps generalizing loops with
  | nil => exact h
  | cons step steps ih =>
    obtain ⟨middle, hstep, hrest⟩ := Option.bind_eq_some_iff.1 h
    cases step with
    | report event => exact Option.bind_eq_some_iff.2 ⟨middle, hstep, ih hrest⟩
    | check iterations index =>
      obtain ⟨-, hsame⟩ := Option.ite_none_right_eq_some.1 hstep
      cases hsame
      exact ih hrest
    | attempt made =>
      cases hstep
      exact ih hrest

end OpenLoop

/-! ### The loops of a course -/

namespace Course

open OpenLoop

/-- The steps of a course keep to the open loops, and lead to those that are given unless
the course ends with a fault. -/
def Leads (course : Course) (loops loops' : List OpenLoop) : Prop :=
  ∃ last, afterSteps? loops course.steps = some last ∧ (course.fault = none → last = loops')

variable {loops middle loops' : List OpenLoop}

theorem leads_done (loops : List OpenLoop) : done.Leads loops loops :=
  ⟨loops, rfl, fun _ => rfl⟩

theorem Leads.prepend {course : Course} {steps : List Step} (h : course.Leads middle loops')
    (hs : afterSteps? loops steps = some middle) : (course.prepend steps).Leads loops loops' := by
  obtain ⟨last, hlast, hfault⟩ := h
  exact ⟨last, (afterSteps?_append hs).trans hlast, hfault⟩

theorem Leads.report {course : Course} {event : Event} (h : course.Leads middle loops')
    (he : OpenLoop.next? loops event = some middle) :
    (course.prepend [.report event]).Leads loops loops' :=
  h.prepend (Option.bind_eq_some_iff.2 ⟨middle, he, rfl⟩)

theorem Leads.check {course : Course} {iterations : Int64} {index : Nat}
    (h : course.Leads (⟨iterations, index⟩ :: loops) loops')
    (hlt : index < iterations.toInt.toNat) :
    (course.prepend [.check iterations index]).Leads (⟨iterations, index⟩ :: loops) loops' :=
  h.prepend (Option.bind_eq_some_iff.2 ⟨_, if_pos ⟨rfl, hlt⟩, rfl⟩)

theorem Leads.andThen {first second : Course} (h : first.Leads loops middle)
    (h' : second.Leads middle loops') : (first.andThen second).Leads loops loops' := by
  obtain ⟨steps, fault⟩ := first
  obtain ⟨last, hlast, hmiddle⟩ := h
  cases fault with
  | none =>
    obtain rfl := hmiddle rfl
    exact h'.prepend hlast
  | some fault => exact ⟨last, hlast, fun hnone => nomatch hnone⟩

theorem Leads.within {course : Course} (h : course.Leads loops loops') (turn : Turn) :
    (course.within turn).Leads loops loops' := by
  have hnext : ∀ loops step, nextStep? loops (step.within turn) = nextStep? loops step := by
    intro loops step
    cases step <;> rfl
  obtain ⟨last, hlast, hfault⟩ := h
  refine ⟨last, ?_, hfault⟩
  show (course.steps.map (Step.within turn)).foldlM nextStep? loops = some last
  rw [List.foldlM_map]
  simp only [hnext]
  exact hlast

/-- A loop that goes on to its end has reported all its iterations. -/
theorem leads_iterate {iterations : Int64} {body : Context → Course}
    (h : ∀ context loops, (body context).Leads loops loops) (context : Context)
    {remaining index : Nat} (hi : index + remaining = iterations.toInt.toNat) :
    (iterate iterations body context remaining index).Leads (⟨iterations, index⟩ :: loops)
      (⟨iterations, iterations.toInt.toNat⟩ :: loops) := by
  induction remaining generalizing index with
  | zero =>
    obtain rfl : index = iterations.toInt.toNat := hi
    exact leads_done _
  | succ remaining ih =>
    have hlt : index < iterations.toInt.toNat := by omega
    have hmax : iterations.toInt < 2 ^ 63 := Int64.toInt_lt iterations
    have hnumber : (Int64.ofNat (index + 1)).toInt = index + 1 :=
      Int64.toInt_ofNat_of_lt (by omega)
    have hbody := (h (context.withLoopCounters (.ofNat index))
      (⟨iterations, index + 1⟩ :: loops)).within ⟨iterations.toInt.toNat, index⟩
    have hturn := hbody.andThen (ih (by omega))
    exact (hturn.report (next?_loopIteration hnumber)).check hlt

end Course

/-- **The steps of an action close the loops that they open**, unless they end with a
fault. -/
theorem Action.leads_course (action : Action) (context : Context) (loops : List OpenLoop) :
    (action.course context).Leads loops loops := by
  revert loops
  apply course_shapes (motive := fun course => ∀ loops, course.Leads loops loops)
  case message => exact fun message context loops => ⟨loops, rfl, fun _ => rfl⟩
  case unevaluated => exact fun expression source loops => ⟨loops, rfl, fun h => nomatch h⟩
  case missing => exact fun expression result loops => ⟨loops, rfl, fun _ => rfl⟩
  case empty => exact fun iterations loops => ⟨loops, rfl, fun _ => rfl⟩
  case branch => exact fun expression result course h loops => (h loops).prepend rfl
  case loop =>
    intro iterations body context h loops
    have hloop : (Course.iterate iterations body context iterations.toInt.toNat 0).Leads
        (⟨iterations, 0⟩ :: loops) (⟨iterations, iterations.toInt.toNat⟩ :: loops) :=
      Course.leads_iterate h context (Nat.zero_add _)
    have hend : (Course.prepend [.report (.loopCompleted iterations)] .done).Leads
        (⟨iterations, iterations.toInt.toNat⟩ :: loops) loops :=
      (Course.leads_done loops).report OpenLoop.next?_loopCompleted
    exact (hloop.andThen hend).report rfl

/-! ### The events of a run -/

/-- What the events of a run tell of its loops. If it succeeds, no loop is left open. If it is
cancelled, the last event tells so, in front of an iteration of the innermost loop that is
open; otherwise there is no such event. -/
inductive Action.Trace : Except Error Unit → List Event → Prop where
  | completed {events : List Event} : (∀ event ∈ events, event.ofNode = true) →
      OpenLoop.after? [] events = some [] → Trace (.ok ()) events
  | cancelled {events : List Event} {loop : OpenLoop} {around : List OpenLoop}
      {completed : Int64} : (∀ event ∈ events, event.ofNode = true) →
      OpenLoop.after? [] events = some (loop :: around) → completed.toInt = loop.begun →
      Trace (.error .cancelled) (events ++ [.loopCancelled completed loop.iterations])
  | failed {events : List Event} {error : Error} : error ≠ .cancelled →
      (∀ event ∈ events, event.ofNode = true) → Trace (.error error) events

/-- Behind steps that were taken, their events are in the log. -/
theorem Course.log_of_takeSteps_ok {steps : List Step} {state final : RunState}
    {recorder : Recorder} (hn : state.notifier = .record recorder)
    (h : takeSteps steps state = (.ok (), final)) :
    final.log = state.log ++ logOf state.span (eventsOf steps).toArray := by
  rw [eq_after_of_takeSteps_ok hn h]
  simp [RunState.after, logOf]

/-- In front of a look whether the run was cancelled, the innermost loop that is open is the
one that looks. -/
theorem OpenLoop.exists_around_of_check {before after : List Step} {iterations : Int64}
    {index : Nat} {loops last : List OpenLoop}
    (h : afterSteps? loops (before ++ .check iterations index :: after) = some last) :
    ∃ around, after? loops (eventsOf before) = some (⟨iterations, index⟩ :: around) ∧
      index < iterations.toInt.toNat := by
  obtain ⟨middle, hbefore, hrest⟩ := exists_of_afterSteps?_append h
  obtain ⟨next, hcheck, -⟩ := Option.bind_eq_some_iff.1 hrest
  obtain ⟨⟨hhead, hlt⟩, -⟩ := Option.ite_none_right_eq_some.1 hcheck
  obtain ⟨around, rfl⟩ := List.head?_eq_some_iff.1 hhead
  exact ⟨around, after?_eventsOf hbefore, hlt⟩

/-- **The events of a run tell of its loops** as they should. -/
theorem Action.traced_run (action : Action) (context : Context) {state : RunState}
    {recorder : Recorder} (hn : state.notifier = .record recorder) :
    ∃ events : List Event,
      (runFrom (action.execute context) state).2.log =
        state.log ++ logOf state.span events.toArray ∧
      Action.Trace (runFrom (action.execute context) state).1 events := by
  have hnodes := action.ofNodes_course context
  obtain ⟨last, hloops, hclosed⟩ := action.leads_course context []
  obtain ⟨final, hall, hrun⟩ |
      ⟨iterations, index, middle, ⟨before, after, hsteps, hbefore⟩, -, hrun⟩ |
      ⟨made, middle, recorder, ⟨before, after, hsteps, hbefore⟩, -, -, hrun⟩ :=
    action.runFrom_cases context state
  · rw [hrun]
    refine ⟨eventsOf (action.course context).steps, Course.log_of_takeSteps_ok hn hall, ?_⟩
    cases hfault : (action.course context).fault with
    | none =>
      obtain rfl := hclosed hfault
      exact .completed (hnodes.events List.prefix_rfl) (OpenLoop.after?_eventsOf hloops)
    | some fault => exact .failed (fun h => by cases h) (hnodes.events List.prefix_rfl)
  · have hfront : before <+: (action.course context).steps := hsteps ▸ List.prefix_append _ _
    rw [hsteps] at hloops
    obtain ⟨around, hopen, hlt⟩ := OpenLoop.exists_around_of_check hloops
    have hmax : iterations.toInt < 2 ^ 63 := Int64.toInt_lt iterations
    have hindex : (Int64.ofNat index).toInt = index := Int64.toInt_ofNat_of_lt (by omega)
    have hlog := Course.log_of_takeSteps_ok hn hbefore
    have hspan : middle.span = state.span := by
      rw [Course.eq_after_of_takeSteps_ok hn hbefore]
      rfl
    rw [hrun]
    refine ⟨eventsOf before ++ [.loopCancelled (.ofNat index) iterations], ?_,
      @Action.Trace.cancelled _ ⟨iterations, index⟩ _ _ (hnodes.events hfront) hopen hindex⟩
    simp [RunState.report, hlog, hspan, logOf]
  · have hfront : before <+: (action.course context).steps := hsteps ▸ List.prefix_append _ _
    have hlog := Course.log_of_takeSteps_ok hn hbefore
    rw [hrun]
    exact ⟨eventsOf before, hlog, .failed (fun h => by cases h) (hnodes.events hfront)⟩

/-! ### The trace of a document -/

namespace Event

theorem logOf_inj {span : Option Span} {events events' : Array Event} :
    logOf span events = logOf span events' ↔ events = events' :=
  Array.map_inj_right fun _ _ h => congrArg LogEntry.event h

/-- Whether an event says that a message is dispatched. -/
def isDispatching (event : Event) : Bool :=
  event.message = "Dispatching SMS" || event.message = "Dispatching email"

theorem isDispatching_eq (event : Event) : event.isDispatching = event.announced?.isSome := by
  cases event with
  | dispatching message | sending message context => cases message <;> rfl
  | _ => rfl

/-- A node does not report the end of a run, nor that a loop was cancelled. -/
theorem message_of_ofNode {event : Event} (h : event.ofNode = true) :
    event.message ≠ "Decision tree execution completed" ∧
      event.message ≠ "Decision tree execution failed" ∧ event.message ≠ "Loop cancelled" := by
  cases event with
  | treeStarted | treeCompleted | runFailed | loopCancelled | sending => cases h
  | dispatching message => cases message <;> simp [message]
  | _ => simp [message]

/-- Neither does the beginning of a run. -/
theorem messages_of_nodes {events : List Event} (h : ∀ event ∈ events, event.ofNode = true)
    (root : ActionKind) (size : Nat) : ∀ event ∈ Event.treeStarted root size :: events,
      event.message ≠ "Decision tree execution completed" ∧
        event.message ≠ "Decision tree execution failed" ∧ event.message ≠ "Loop cancelled" := by
  intro event hm
  obtain rfl | hm := List.mem_cons.1 hm
  · simp [message]
  · exact message_of_ofNode (h event hm)

end Event

/-- The log tells how many attempts were made. -/
theorem Accounted.attempts_eq {before after : RunState} {failed : Option Channel}
    {span : Option Span} {events : List Event} (h : Accounted before after failed)
    (hlog : after.log = before.log ++ logOf span events.toArray) :
    after.recorded.attempts = before.recorded.attempts + events.countP Event.isDispatching := by
  obtain ⟨sent, lost, ⟨hattempts, -, entries, hentries, hannounced⟩, -⟩ := h
  have hsame : entries = events.map fun event => ⟨event, span⟩ := by
    have happend := hentries.symm.trans hlog
    rw [Array.append_right_inj] at happend
    simpa [logOf] using congrArg Array.toList happend
  have hcount : (LogEntry.announcedIn entries).length = events.countP Event.isDispatching := by
    rw [hsame, LogEntry.announcedIn, List.filterMap_map, List.length_filterMap_eq_countP]
    exact List.countP_congr fun event _ => by simp [Event.isDispatching_eq]
  rw [hattempts, ← hcount, hannounced, List.length_append, List.length_map, Nat.add_assoc]

/-- What the events of a document tell by its outcome, the last of them apart: it says that
the run is completed or that it failed, and no other event does. Behind a success no loop is
left open. A cancelled loop is the innermost that is open, it tells how many of its
iterations were reported, and only the failure of the run is told behind it. -/
structure Tree.Trace (outcome : Except Error Unit) (events : List Event) (last : Event) :
    Prop where
  completed : last.message = "Decision tree execution completed" ↔ outcome = .ok ()
  failed : last.message = "Decision tree execution failed" ↔ outcome ≠ .ok ()
  once : ∀ event ∈ events, event.message ≠ "Decision tree execution completed" ∧
    event.message ≠ "Decision tree execution failed"
  nested : outcome = .ok () → OpenLoop.after? [] events = some []
  cancelled : outcome = .error .cancelled →
    ∃ (front : List Event) (loop : OpenLoop) (around : List OpenLoop) (completed : Int64),
      events = front ++ [.loopCancelled completed loop.iterations] ∧
      (∀ event ∈ front, event.message ≠ "Loop cancelled") ∧
      OpenLoop.after? [] front = some (loop :: around) ∧ completed.toInt = loop.begun
  calm : outcome ≠ .error .cancelled →
    ∀ event ∈ events, event.message ≠ "Loop cancelled"

theorem Tree.completed_lastEvent (tree : Tree) (result : Except Error Unit) :
    (tree.lastEvent result).message = "Decision tree execution completed" ↔
      result = .ok () := by
  cases result <;> simp [lastEvent, Event.message]

theorem Tree.failed_lastEvent (tree : Tree) (result : Except Error Unit) :
    (tree.lastEvent result).message = "Decision tree execution failed" ↔
      result ≠ .ok () := by
  cases result <;> simp [lastEvent, Event.message]

namespace Tree.Trace

/-- A document that is refused reports its failure only. -/
theorem of_structural {error : Error} (h : error.structural = true) :
    Tree.Trace (.error error) [] (.runFailed error) where
  completed := by simp [Event.message]
  failed := by simp [Event.message]
  once := List.forall_mem_nil _
  nested h := nomatch h
  cancelled hc := by
    cases hc
    cases h
  calm _ := List.forall_mem_nil _

/-- A document that is run tells what its root does, between two events of its own. -/
theorem of_traced {result : Except Error Unit} {events : List Event}
    (h : Action.Trace result events) (tree : Tree) :
    Tree.Trace result (.treeStarted tree.root.kind tree.context.size :: events)
      (tree.lastEvent result) := by
  cases h with
  | completed hnodes hnested =>
    have hmessages := Event.messages_of_nodes hnodes tree.root.kind tree.context.size
    exact {
      completed := tree.completed_lastEvent _
      failed := tree.failed_lastEvent _
      once := fun event hm => ⟨(hmessages event hm).1, (hmessages event hm).2.1⟩
      nested := fun _ => hnested
      cancelled := fun hc => nomatch hc
      calm := fun _ event hm => (hmessages event hm).2.2 }
  | @cancelled front loop around completed hnodes hopen hcount =>
    have hmessages := Event.messages_of_nodes hnodes tree.root.kind tree.context.size
    have hlast : (Event.loopCancelled completed loop.iterations).message = "Loop cancelled" := rfl
    exact {
      completed := tree.completed_lastEvent _
      failed := tree.failed_lastEvent _
      once := by
        intro event hm
        obtain hfront | hend := List.mem_append.1 (List.cons_append ▸ hm)
        · exact ⟨(hmessages event hfront).1, (hmessages event hfront).2.1⟩
        · obtain rfl := List.mem_singleton.1 hend
          simp [hlast]
      nested := fun hok => nomatch hok
      cancelled := fun _ => ⟨_, loop, around, completed, rfl,
        fun event hm => (hmessages event hm).2.2, hopen, hcount⟩
      calm := fun hc => absurd rfl hc }
  | @failed events error herror hnodes =>
    have hmessages := Event.messages_of_nodes hnodes tree.root.kind tree.context.size
    exact {
      completed := tree.completed_lastEvent _
      failed := tree.failed_lastEvent _
      once := fun event hm => ⟨(hmessages event hm).1, (hmessages event hm).2.1⟩
      nested := fun hok => nomatch hok
      cancelled := by
        intro hc
        cases hc
        exact absurd rfl herror
      calm := fun _ event hm => (hmessages event hm).2.2 }

end Tree.Trace

namespace Tree

/-- What a document leaves in the log, whether it is refused or run. -/
theorem told_run (json : Json) {state : RunState} {recorder : Recorder}
    (hn : state.notifier = .record recorder) :
    ∃ events last, ((run json).run state).2.log =
        state.log ++ logOf (some .treeRun) (events ++ [last]).toArray ∧
      Tree.Trace ((run json).run state).1 events last := by
  cases hc : check json with
  | error error =>
    rw [run_eq_closed, attempt_of_check_error hc, closed]
    refine ⟨[], .runFailed error, ?_, .of_structural (structural_of_check_error hc)⟩
    simp [RunState.report, opened, logOf]
  | ok =>
    obtain ⟨tree, hj, hw⟩ := exists_tree_of_check_ok hc
    obtain ⟨reported, hlog, hrun⟩ := run_of_wellFormed hj hw state
    obtain ⟨events, hlog', htraced⟩ := tree.root.traced_run tree.context hn
    have hsame : reported = events.toArray := by
      have happend := hlog.symm.trans hlog'
      rwa [Array.append_right_inj, Event.logOf_inj] at happend
    rw [hrun, hsame]
    exact ⟨_, _, by simp, .of_traced htraced tree⟩

/-- **The trace of a document.** Whatever a document holds, from whichever state it is run and
whatever is scripted, the events that it leaves in the log tell its outcome and its loops as
a `Tree.Trace` does, and among them are as many that dispatch a message as attempts were
made. -/
theorem trace_of_run (explain : String → String) (json : Json) (state : RunState)
    (failAfter cancelAfter : Option Nat) (cancelled : Bool) :
    let start := state.scripted failAfter cancelAfter cancelled
    let outcome := ((run json).run start).1
    let final := ((run json).run start).2
    ∃ events last,
      final.log = start.log ++ logOf (some .treeRun) (events ++ [last]).toArray ∧
      Tree.Trace outcome events last ∧
      ((Verdict.ofOutcome explain outcome).success = true ↔ outcome = .ok ()) ∧
      final.recorded.attempts =
        start.recorded.attempts + (events ++ [last]).countP Event.isDispatching := by
  intro start outcome final
  have hn : start.notifier = .record (state.recorded.scripted failAfter cancelAfter) := rfl
  obtain ⟨events, last, hlog, htell⟩ := told_run json hn
  have haccounted := (Job.document json).accounted_perform hn
  exact ⟨events, last, hlog, htell, Verdict.success_iff explain outcome,
    haccounted.attempts_eq hlog⟩

end Tree
end ActionTree
