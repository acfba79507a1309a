/-
# Where the error of a run comes from

An error reaches the end of a run as it arose, from any depth of conditions and loops. It
is that of a condition in the tree, in a context that this condition sees; or that of the
last attempt; or the run was cancelled, and there is a loop in which this could show. In
each case nothing is done behind it.

Key definitions: `Course.EndsEvaluating`.
Key theorems: `Course.exists_turn_of_fault`, `Action.exists_condition_of_fault`,
`Action.exists_loop_of_comesTo`, `Action.error_origin`.
-/
import ActionTree.Proofs.Action.Places
import ActionTree.Proofs.Run.Spacing
import ActionTree.Proofs.Run.Failure
import ActionTree.Proofs.Run.Stops

namespace ActionTree

open Execution (runFrom notify)

/-! ### Faults -/

namespace Course

/-- The course ends with the report of a condition that is to be evaluated. -/
def EndsEvaluating (course : Course) (expression : String) : Prop :=
  course.steps.getLast? = some (.report (.evaluating expression))

theorem EndsEvaluating.prepend {course : Course} {expression : String}
    (h : course.EndsEvaluating expression) (steps : List Step) :
    (course.prepend steps).EndsEvaluating expression := by
  unfold EndsEvaluating at h ⊢
  rw [Course.prepend, List.getLast?_append, h, Option.some_or]

theorem EndsEvaluating.within {course : Course} {expression : String}
    (h : course.EndsEvaluating expression) (turn : Turn) :
    (course.within turn).EndsEvaluating expression := by
  unfold EndsEvaluating at h ⊢
  rw [Course.within, List.getLast?_map, h]
  rfl

theorem andThen_of_fault {first : Course} {fault : String × ExprError}
    (h : first.fault = some fault) (second : Course) : first.andThen second = first := by
  rw [andThen, h]

theorem fault_of_andThen {first second : Course} {fault : String × ExprError}
    (h : (first.andThen second).fault = some fault) :
    first.fault = some fault ∨ first.fault = none ∧ second.fault = some fault := by
  cases hf : first.fault with
  | none =>
    rw [andThen, hf] at h
    exact .inr ⟨rfl, h⟩
  | some other =>
    rw [andThen_of_fault hf, hf] at h
    exact .inl h

/-- A loop in which a condition cannot be evaluated ends with the iteration in which this
is so. -/
theorem exists_turn_of_fault {iterations : Int64} {body : Context → Course} {context : Context}
    {remaining index : Nat} {expression : String} {source : ExprError}
    (h : (iterate iterations body context remaining index).fault = some (expression, source)) :
    ∃ k, index ≤ k ∧ k < index + remaining ∧
      (body (context.withLoopCounters (.ofNat k))).fault = some (expression, source) ∧
      ((body (context.withLoopCounters (.ofNat k))).EndsEvaluating expression →
        (iterate iterations body context remaining index).EndsEvaluating expression) := by
  induction remaining generalizing index with
  | zero => cases h
  | succ remaining ih =>
    have hcases := fault_of_andThen h
    obtain hbody | ⟨hnone, hrest⟩ := hcases
    · refine ⟨index, Nat.le_refl index, by omega, hbody, fun hends => ?_⟩
      rw [iterate, andThen_of_fault hbody]
      exact (hends.within _).prepend _
    · obtain ⟨k, hle, hlt, hfault, hends⟩ := ih hrest
      refine ⟨k, by omega, by omega, hfault, fun hbody => ?_⟩
      rw [iterate, andThen, hnone]
      exact ((hends hbody).prepend _).prepend _

end Course

namespace Action

variable {action : Action} {context : Context} {state final : RunState}

/-- **A fault is that of a condition of the tree**, in a context that it sees, and behind
this condition the course does nothing. -/
theorem exists_condition_of_fault {expression : String} {source : ExprError}
    (h : (action.course context).fault = some (expression, source)) :
    (action.course context).EndsEvaluating expression ∧
    ∃ around onTrue onFalse seen, (condition expression onTrue onFalse).StandsIn around action ∧
      context.SeenIn around seen ∧ Expr.holds seen expression = .error source := by
  induction action using Action.induct generalizing context with
  | send message => cases h
  | condition text onTrue onFalse iht ihf =>
    unfold course at h ⊢
    cases hholds : Expr.holds context text with
    | error error =>
      rw [hholds] at h
      cases h
      exact ⟨rfl, none, onTrue, onFalse, context, .root, rfl, hholds⟩
    | ok result =>
      rw [hholds] at h
      cases result with
      | true =>
        cases onTrue with
        | none => cases h
        | some child =>
          obtain ⟨hends, around, t, f, seen, hstands, hseen⟩ := iht child rfl h
          exact ⟨(hends.prepend _).prepend _, around, t, f, seen, .onTrue hstands, hseen⟩
      | false =>
        cases onFalse with
        | none => cases h
        | some child =>
          obtain ⟨hends, around, t, f, seen, hstands, hseen⟩ := ihf child rfl h
          exact ⟨(hends.prepend _).prepend _, around, t, f, seen, .onFalse hstands, hseen⟩
  | loop iterations body ih =>
    unfold course at h ⊢
    cases body with
    | none => cases h
    | some child =>
      obtain hloop | ⟨-, hnone⟩ := Course.fault_of_andThen h
      · obtain ⟨k, -, hlt, hfault, hends⟩ := Course.exists_turn_of_fault hloop
        obtain ⟨hbody, around, t, f, seen, hstands, hseen, hholds⟩ := ih child rfl hfault
        refine ⟨?_, some (around.getD iterations), t, f, seen, .body hstands, ?_, hholds⟩
        · show (Course.prepend _ (Course.andThen _ _)).EndsEvaluating expression
          rw [Course.andThen_of_fault hloop]
          exact (hends hbody).prepend _
        · exact hseen.of_iteration (by omega)
      · cases hnone

/-- A loop that is met stands in the tree. -/
theorem exists_loop_of_meetsLoop (h : action.MeetsLoop context) :
    ∃ around iterations body, (loop iterations (some body)).StandsIn around action ∧
      1 ≤ iterations := by
  induction h with
  | @loop iterations body hle => exact ⟨none, iterations, body, .root, hle⟩
  | onTrue _ _ ih =>
    obtain ⟨around, iterations, body, hstands, hle⟩ := ih
    exact ⟨around, iterations, body, .onTrue hstands, hle⟩
  | onFalse _ _ ih =>
    obtain ⟨around, iterations, body, hstands, hle⟩ := ih
    exact ⟨around, iterations, body, .onFalse hstands, hle⟩

/-- A run that looks whether it was cancelled is in a loop. -/
theorem exists_loop_of_comesTo {iterations : Int64} {index : Nat} {middle : RunState}
    (h : action.ComesTo context state (.check iterations index) middle) :
    ∃ around iterations body, (loop iterations (some body)).StandsIn around action ∧
      1 ≤ iterations := by
  obtain ⟨before, after, hsteps, -⟩ := h
  have hlooks : Course.Looks (action.course context).steps := by
    rw [hsteps, Course.looks_append]
    exact .inr (Course.looks_check iterations index after)
  exact exists_loop_of_meetsLoop ((action.looks_course_iff context).1 hlooks)

/-- **The origin of an error.** A run ends with an error of one of three kinds. A condition
of the tree could not be evaluated in a context that it sees, and behind the report of this
condition nothing was done. Or an attempt failed, and the run leaves this error and the
state as they were after the attempt, which is counted, but not recorded. Or the run was
cancelled, in a tree with a loop that has something to do. -/
theorem error_origin {error : Error}
    (h : runFrom (action.execute context) state = (.error error, final)) :
    match error with
    | .evaluation expression source =>
      (∃ around onTrue onFalse seen, (condition expression onTrue onFalse).StandsIn around action ∧
        context.SeenIn around seen ∧ Expr.holds seen expression = .error source) ∧
      ∃ middle, action.ComesTo context state (.report (.evaluating expression)) middle ∧
        final = middle.report (.evaluating expression)
    | .delivery channel reason =>
      ∃ made middle sent, action.ComesTo context state (.attempt made) middle ∧
        runFrom (notify made.delivery.message made.delivery.context) middle =
          (.error (.delivery channel reason), final) ∧
        middle.recorded = state.recorded.after sent ∧
        final.recorded = { middle.recorded with attempts := middle.recorded.attempts + 1 }
    | .cancelled =>
      final.cancelled = true ∧ ∃ around iterations body,
        (loop iterations (some body)).StandsIn around action ∧ 1 ≤ iterations
    | .malformedAction _ | .malformedTree _ | .invalidStructure => False := by
  obtain ⟨last, hall, hrun⟩ | ⟨iterations, index, middle, hcomes, hc, hrun⟩ |
      ⟨made, middle, recorder, hcomes, hn, hfails, hrun⟩ := action.runFrom_cases context state
  · cases hfault : (action.course context).fault with
    | none =>
      rw [hfault] at hrun
      cases hrun.symm.trans h
    | some fault =>
      rw [hfault] at hrun
      cases hrun.symm.trans h
      -- All steps were taken, and the last one is the report of the condition.
      obtain ⟨hends, hcondition⟩ := exists_condition_of_fault hfault
      obtain ⟨before, hsteps⟩ := List.getLast?_eq_some_iff.1 hends
      rw [hsteps] at hall
      obtain ⟨middle, hbefore, hlast⟩ := Course.takeSteps_append_ok hall
      cases hlast
      exact ⟨hcondition, middle, ⟨before, [], hsteps, hbefore⟩, rfl⟩
  · cases hrun.symm.trans h
    exact ⟨hc, exists_loop_of_comesTo hcomes⟩
  · cases hrun.symm.trans h
    have hmade := Course.runFrom_attempt hn made
    rw [hfails, if_pos rfl] at hmade
    -- What is recorded in front of the attempt are those of the steps that were taken.
    obtain ⟨before, after, -, hbefore⟩ := id hcomes
    have hmiddle := RunState.recorded_of_record hn
    refine ⟨made, middle, Course.attemptsOf before, hcomes, hmade,
      hmiddle.trans (Course.recorded_of_takeSteps_ok hn hbefore), ?_⟩
    rw [hmiddle]
    exact Recorder.attempt_of_fails hfails made.delivery

/-- The second message of a loop fails. -/
theorem error_origin_unsent :
    let action := Action.loop 2 (some (.send (.sms "+1" none)))
    let state := RunState.recording (some 1) none
    ∃ final, runFrom (action.execute .empty) state =
        (.error (.delivery .sms "provider unavailable"), final) ∧
      ∃ made middle sent, action.ComesTo .empty state (.attempt made) middle ∧
        runFrom (notify made.delivery.message made.delivery.context) middle =
          (.error (.delivery .sms "provider unavailable"), final) ∧
        middle.recorded = state.recorded.after sent ∧
        final.recorded = { middle.recorded with attempts := middle.recorded.attempts + 1 } := by
  intro action state
  have hrun : runFrom (action.execute .empty) state = _ := Prod.ext rfl rfl
  exact ⟨_, hrun, error_origin hrun⟩

end Action

end ActionTree
