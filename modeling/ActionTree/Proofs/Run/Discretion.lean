/-
# What a log without contexts gives away

A log that leaves out the contexts of the messages shows nothing of a variable unless it is a
free variable of the root. In two contexts that agree on these and have as many variables
the same document is written to the same log, entry by entry, and ends with the same
verdict, whatever the other variables are: their values do not even show in the wording of
an error.

Key theorems: `Course.takeSteps_bare`, `Action.runFrom_congr`, `Tree.run_of_agree`,
`Tree.discreet_run`.
-/
import ActionTree.Proofs.Action.RoundTrip
import ActionTree.Proofs.Run.Noninterference
import ActionTree.Proofs.Run.Reports
import ActionTree.Proofs.Run.Stops
import ActionTree.Proofs.Run.Verdict

namespace ActionTree

open Execution (runFrom)

theorem Event.bare_of_ofNode {event : Event} (h : event.ofNode = true) : event.bare = event := by
  cases event with
  | sending => cases h
  | _ => rfl

variable {state final : RunState}

/-- Where contexts are left out, a step does the same with a context and with none. -/
theorem Step.runFrom_bare {step : Step} (h : step.ofNode = true)
    (hn : state.notifier = .log false) :
    runFrom step.bare.perform state = runFrom step.perform state := by
  cases step with
  | report event => rw [bare, Event.bare_of_ofNode h]
  | check iterations index => rfl
  | attempt made =>
    rw [bare, Course.runFrom_attempt_of_log hn, Course.runFrom_attempt_of_log hn]
    rfl

namespace Course

/-- So does a row of steps. -/
theorem takeSteps_bare {steps : List Step} (h : ∀ step ∈ steps, step.ofNode = true)
    (hn : state.notifier = .log false) :
    takeSteps (steps.map Step.bare) state = takeSteps steps state := by
  induction steps generalizing state with
  | nil => rfl
  | cons step steps ih =>
    obtain ⟨hstep, hrest⟩ := List.forall_mem_cons.1 h
    have hbare := Step.runFrom_bare hstep hn
    rcases hr : runFrom step.perform state with ⟨error | _, next⟩
    · rw [List.map_cons, takeSteps_cons_of_error hr, takeSteps_cons_of_error (hbare.trans hr)]
    · have hnext : next.notifier = .log false := by
        have hone : takeSteps [step] state = (.ok (), next) := takeSteps_cons_of_ok hr
        exact notifier_takeSteps_of_log hn hone
      rw [List.map_cons, takeSteps_cons_of_ok hr, takeSteps_cons_of_ok (hbare.trans hr)]
      exact ih hrest hnext

/-- And a course. -/
theorem runFrom_perform_bare {course : Course} (h : course.OfNodes)
    (hn : state.notifier = .log false) :
    runFrom (course.map Step.bare).perform state = runFrom course.perform state := by
  have hsteps := takeSteps_bare h hn
  rcases hr : takeSteps course.steps state with ⟨error | _, next⟩
  · rw [runFrom_perform_of_error hr, runFrom_perform_of_error (hsteps.trans hr)]
  · rw [runFrom_perform_of_ok hr, runFrom_perform_of_ok (hsteps.trans hr)]
    rfl

end Course

variable {context context' : Context}

/-- **A run without contexts in the log** leaves the same behind in two contexts that agree on
the free variables. -/
theorem Action.runFrom_congr (action : Action)
    (h : context.AgreeOn action.freeVariables context') (hn : state.notifier = .log false) :
    runFrom (action.execute context) state = runFrom (action.execute context') state := by
  calc runFrom (action.execute context) state
      = runFrom (action.course context).perform state := by rw [execute_eq_perform]
    _ = runFrom ((action.course context).map Step.bare).perform state :=
        (Course.runFrom_perform_bare (action.ofNodes_course context) hn).symm
    _ = runFrom ((action.course context').map Step.bare).perform state := by
        rw [map_bare_course action h]
    _ = runFrom (action.course context').perform state :=
        Course.runFrom_perform_bare (action.ofNodes_course context') hn
    _ = runFrom (action.execute context') state := by rw [execute_eq_perform]

namespace Tree

variable {root : Action} {json json' : Json}

/-- So does a tree, which also reports how many variables there are. -/
theorem runFrom_congr (h : context.AgreeOn root.freeVariables context')
    (hsize : context.size = context'.size) (hn : state.notifier = .log false) :
    runFrom (execute ⟨root, context⟩) state = runFrom (execute ⟨root, context'⟩) state := by
  have hstarted : (state.report (.treeStarted root.kind context'.size)).notifier = .log false := hn
  rw [runFrom_execute, runFrom_execute]
  simp only [hsize]
  rw [root.runFrom_congr h hstarted]

/-- And so do two documents that describe such trees: either is refused if the root is not
well-formed. -/
theorem run_of_agree (hj : ofJson json = .ok ⟨root, context⟩)
    (hj' : ofJson json' = .ok ⟨root, context'⟩)
    (h : context.AgreeOn root.freeVariables context') (hsize : context.size = context'.size)
    (hn : state.notifier = .log false) : (run json).run state = (run json').run state := by
  have hopened : (opened state).notifier = .log false := hn
  have hattempt : runFrom (attempt json) (opened state) =
      runFrom (attempt json') (opened state) := by
    cases hw : root.wellFormed with
    | false =>
      rw [attempt_of_ofJson_ok hj, attempt_of_ofJson_ok hj']
      simp [wellFormed, hw]
    | true =>
      rw [attempt_of_wellFormed hj hw, attempt_of_wellFormed hj' hw,
        runFrom_congr h hsize hopened]
  rw [run_eq_closed, run_eq_closed, hattempt]

/-- **A log without contexts is discreet.** Take two trees with one root, in contexts that
agree on its free variables and have as many variables. Their documents are run, in the same
state, with the same outcome and the same log, in every event and every field: none of them
depends on a variable that is not free in the root. -/
theorem discreet_run (explain : String → String) (root : Action)
    (h : context.AgreeOn root.freeVariables context')
    (hsize : context.size = context'.size) (state : RunState) :
    let start := { state with notifier := .log false }
    let ran := (run (toJson ⟨root, context⟩)).run start
    let ran' := (run (toJson ⟨root, context'⟩)).run start
    ran.1 = ran'.1 ∧ Verdict.ofOutcome explain ran.1 = Verdict.ofOutcome explain ran'.1 ∧
      ran.2.log = ran'.2.log ∧ ran.2.cancelled = ran'.2.cancelled := by
  intro start ran ran'
  have hn : start.notifier = .log false := rfl
  have hsame : ran = ran' :=
    run_of_agree (ofJson_toJson ⟨root, context⟩) (ofJson_toJson ⟨root, context'⟩) h hsize hn
  rw [hsame]
  exact ⟨rfl, rfl, rfl, rfl⟩

/-- A message that goes out while there is credit, in two contexts with different secrets. -/
theorem discreet_run_secret :
    let root := Action.loop 2 (some (.condition "loopIndex < credit"
      (some (.send (.sms "+1" none))) none))
    let context : Context := ⟨[("credit", .ofInt64 1), ("secret", .str "hush")]⟩
    let context' : Context := ⟨[("credit", .ofInt64 1), ("secret", .obj [])]⟩
    let start := { RunState.recording none none with notifier := .log false }
    context.AgreeOn root.freeVariables context' ∧ context.size = context'.size ∧
      ((run (toJson ⟨root, context⟩)).run start).2.log =
        ((run (toJson ⟨root, context'⟩)).run start).2.log := by
  intro root context context' start
  have htext : "loopIndex < credit".toList =
      ['l', 'o', 'o', 'p', 'I', 'n', 'd', 'e', 'x', ' ', '<', ' ', 'c', 'r', 'e', 'd', 'i', 't'] := by
    simp
  have hsource : ¬ maxSourceBytes < "loopIndex < credit".utf8ByteSize := by decide
  have hparse : Expr.parse "loopIndex < credit" =
      .ok (.binary .lt (.ident "loopIndex") (.ident "credit")) := by
    rw [Expr.parse, Expr.checkLimits, if_neg hsource, htext]
    rfl
  have hfree : root.freeVariables = ["credit"] := by
    simp [root, Action.freeVariables, Expr.freeVariablesOf, hparse, Expr.freeVariables,
      Context.loopIndex, Context.loopIteration]
  have h : context.AgreeOn root.freeVariables context' := by
    intro name hm
    rw [hfree, List.mem_singleton] at hm
    subst hm
    rfl
  have hsize : context.size = context'.size := rfl
  exact ⟨h, hsize, (discreet_run id root h hsize (.recording none none)).2.2.1⟩

end Tree
end ActionTree
