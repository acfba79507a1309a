/-
# Conditions in parts

A condition joined by "and" can be split: the first part becomes a condition whose branch is
a condition with the second. In the same way a choice between two conditions becomes a
condition with one of them in each branch. What the conditions report on the way to a branch
is then another, but nothing else is (`Action.split_condition`): the operators leave out an
operand where a condition leaves out a branch, and what cannot be evaluated is met at the
same place.

To compare the courses, the reports of decisions are left out of them (`Course.quiet`). What
is left is the course of the branch that is taken (`Action.quiet_condition`).

Key definitions: `Event.isDecision`, `RunState.withoutDecisions`, `Course.quiet`,
`Course.decided`, `Action.SplitAs`.
Key theorems: `Course.runFrom_quiet`, `Action.quiet_condition`, `Action.split_condition`.
-/
import ActionTree.Proofs.Expr.Enclosing
import ActionTree.Proofs.Run.Change

namespace ActionTree

open Course (takeSteps)
open Execution (runFrom)

/-! ### Without the reports of decisions -/

/-- The events that a condition reports on its way to a branch. -/
def Event.isDecision : Event → Bool
  | evaluating .. | evaluated .. | branchTaken .. | branchMissing .. => true
  | _ => false

/-- The state with no decisions in its log. -/
def RunState.withoutDecisions (state : RunState) : RunState :=
  { state with log := state.log.filter fun entry => !entry.event.isDecision }

/-- Whether a step reports a decision. -/
def Step.isDecision : Step → Bool
  | report event => event.isDecision
  | _ => false

/-- The course without the reports of decisions. -/
def Course.quiet (course : Course) : Course :=
  ⟨course.steps.filter fun step => !step.isDecision, course.fault⟩

namespace RunState

variable {state : RunState} {event : Event}

theorem withoutDecisions_report (h : event.isDecision = false) :
    (state.report event).withoutDecisions = state.withoutDecisions.report event :=
  without_report h

theorem withoutDecisions_report_of_decision (h : event.isDecision = true) :
    (state.report event).withoutDecisions = state.withoutDecisions :=
  without_report_of_kind h

end RunState

/-- A step that reports no decision does not look at those that were reported. -/
theorem Step.runFrom_withoutDecisions {step : Step} (h : step.isDecision = false)
    (state : RunState) :
    runFrom step.perform state.withoutDecisions =
      Prod.map id RunState.withoutDecisions (runFrom step.perform state) := by
  cases step with
  | report event => exact congrArg (Prod.mk _) (RunState.withoutDecisions_report h).symm
  | check => exact Course.runFrom_check_map rfl (RunState.withoutDecisions_report rfl)
  | attempt made =>
    exact Course.runFrom_attempt_map made (fun _ _ => rfl) fun _ _ =>
      RunState.withoutDecisions_report rfl

namespace Course

theorem takeSteps_quiet (steps : List Step) (state : RunState) :
    takeSteps (steps.filter fun step => !step.isDecision) state.withoutDecisions =
      Prod.map id RunState.withoutDecisions (takeSteps steps state) := by
  induction steps generalizing state with
  | nil => rfl
  | cons step steps ih =>
    cases hd : step.isDecision with
    | true =>
      cases step with
      | report event =>
        rw [List.filter_cons_of_neg (by simp [hd]), takeSteps_cons_of_ok (runFrom_report event),
          ← ih, RunState.withoutDecisions_report_of_decision hd]
      | check | attempt => cases hd
    | false =>
      rw [List.filter_cons_of_pos (by simp [hd])]
      exact takeSteps_cons_map (Step.runFrom_withoutDecisions hd state) ih

/-- **A run goes as its quiet course**, but for the decisions in its log. -/
theorem runFrom_quiet (course : Course) (state : RunState) :
    runFrom course.quiet.perform state.withoutDecisions =
      Prod.map id RunState.withoutDecisions (runFrom course.perform state) :=
  perform_map rfl (takeSteps_quiet course.steps state)

/-- The quiet course of a condition that has an outcome: that of the branch, if there is one,
or a fault and no steps. -/
def decided (context : Context) (onTrue onFalse : Option Action) :
    Except (String × ExprError) Bool → Course
  | .error fault => ⟨[], some fault⟩
  | .ok result => match if result then onTrue else onFalse with
    | some action => (action.course context).quiet
    | none => done

end Course

/-! ### Quiet courses of conditions -/

namespace Action

open Course (decided)
open ActionTree.Expr (verdict verdictOfBoth verdictOfChoice)

variable {context : Context} {onTrue onFalse : Option Action}

/-- **Without its reports a condition is its outcome.** -/
theorem quiet_condition (context : Context) (source : String) (onTrue onFalse : Option Action) :
    ((condition source onTrue onFalse).course context).quiet =
      decided context onTrue onFalse (verdict context source) := by
  unfold course verdict
  cases Expr.holds context source with
  | error error => rfl
  | ok result =>
    cases result with
    | false => cases onFalse <;> rfl
    | true => cases onTrue <;> rfl

/-- A condition inside the branch of another is one condition with their common outcome. -/
theorem quiet_conjoin (context : Context) (a b : String) (onTrue onFalse : Option Action) :
    ((condition a (some (condition b onTrue onFalse)) onFalse).course context).quiet =
      decided context onTrue onFalse (verdictOfBoth context a b) := by
  rw [quiet_condition, verdictOfBoth]
  cases verdict context a with
  | error fault => rfl
  | ok result =>
    cases result with
    | false => rfl
    | true => exact quiet_condition context b onTrue onFalse

theorem quiet_choose (context : Context) (c a b : String) (onTrue onFalse : Option Action) :
    ((condition c (some (condition a onTrue onFalse))
      (some (condition b onTrue onFalse))).course context).quiet =
      decided context onTrue onFalse (verdictOfChoice context c a b) := by
  rw [quiet_condition, verdictOfChoice]
  cases verdict context c with
  | error fault => rfl
  | ok result =>
    cases result with
    | false => exact quiet_condition context b onTrue onFalse
    | true => exact quiet_condition context a onTrue onFalse

/-! ### Runs -/

/-- How a run of a condition ends, as a whole and in parts: in the same way if the condition
has an outcome, and else for the same reason, once with the whole text and once with that of
the part that has no value. -/
def EndsAs (whole : String) (result result' : Except Error Unit) :
    Except (String × ExprError) Bool → Prop
  | .ok _ => result = result'
  | .error (part, source) =>
    result = .error (.evaluation whole source) ∧ result' = .error (.evaluation part source)

/-- Two runs of a condition, as a whole and in parts, come to the same: they have recorded the
same, are cancelled or not alike, and leave the same state but for the reports of decisions. -/
structure SplitAs (whole : String) (parts : Except (String × ExprError) Bool)
    (run run' : Except Error Unit × RunState) : Prop where
  recorded : run.2.recorded = run'.2.recorded
  cancelled : run.2.cancelled = run'.2.cancelled
  state : run.2.withoutDecisions = run'.2.withoutDecisions
  result : EndsAs whole run.1 run'.1 parts

/-- The reports of decisions do not matter for what is recorded, nor for a cancellation. -/
theorem SplitAs.of_withoutDecisions {whole : String} {parts : Except (String × ExprError) Bool}
    {run run' : Except Error Unit × RunState}
    (hs : run.2.withoutDecisions = run'.2.withoutDecisions)
    (hr : EndsAs whole run.1 run'.1 parts) : SplitAs whole parts run run' := by
  have hrecorded : run.2.withoutDecisions.recorded = run'.2.withoutDecisions.recorded :=
    congrArg _ hs
  have hcancelled : run.2.withoutDecisions.cancelled = run'.2.withoutDecisions.cancelled :=
    congrArg _ hs
  exact ⟨hrecorded, hcancelled, hs, hr⟩

/-- A run seen without the reports of decisions is that of the quiet course. -/
theorem runFrom_of_quiet {action : Action} {course : Course}
    (h : (action.course context).quiet = course) (state : RunState) :
    Prod.map id RunState.withoutDecisions (runFrom (action.execute context) state) =
      runFrom course.perform state.withoutDecisions := by
  calc Prod.map id RunState.withoutDecisions (runFrom (action.execute context) state)
      = Prod.map id RunState.withoutDecisions
          (runFrom (action.course context).perform state) := by rw [execute_eq_perform]
    _ = runFrom (action.course context).quiet.perform state.withoutDecisions :=
        (Course.runFrom_quiet _ state).symm
    _ = runFrom course.perform state.withoutDecisions := by rw [h]

/-- Two runs come to the same if their quiet courses differ in the text of a fault alone. -/
theorem splitAs_of_quiet {action action' : Action} {whole : String}
    {parts : Except (String × ExprError) Bool}
    (h : (action.course context).quiet =
      decided context onTrue onFalse (parts.mapError fun fault => (whole, fault.2)))
    (h' : (action'.course context).quiet = decided context onTrue onFalse parts)
    (state : RunState) :
    SplitAs whole parts (runFrom (action.execute context) state)
      (runFrom (action'.execute context) state) := by
  have hrun := runFrom_of_quiet h state
  have hrun' := runFrom_of_quiet h' state
  cases parts with
  | ok result =>
    obtain ⟨hresult, hstate⟩ := Prod.ext_iff.1 (hrun.trans hrun'.symm)
    exact .of_withoutDecisions hstate hresult
  | error fault =>
    -- A fault is met before any step, so both runs leave the state as it was.
    obtain ⟨hresult, hstate⟩ := Prod.ext_iff.1 hrun
    obtain ⟨hresult', hstate'⟩ := Prod.ext_iff.1 hrun'
    exact .of_withoutDecisions (hstate.trans hstate'.symm) ⟨hresult, hresult'⟩

/-- **A condition can be split.** If the texts of the parts can be read, and the text as a
whole does not go beyond a limit, a condition joined by "and" comes to the same as a condition
with the first part and, if it holds, one with the second; and a choice comes to the same as a
condition with the first part and one with another part in each branch. This is so in every
context, from every state and for all branches, also where there is none. -/
theorem split_condition {a b c : String} {ea eb ec : Expr} (ha : Expr.parse a = .ok ea)
    (hb : Expr.parse b = .ok eb) (hc : Expr.parse c = .ok ec) (context : Context)
    (onTrue onFalse : Option Action) (state : RunState) :
    (¬ Expr.OverLimit (Expr.conjoin a b) →
      SplitAs (Expr.conjoin a b) (verdictOfBoth context a b)
        (runFrom ((condition (Expr.conjoin a b) onTrue onFalse).execute context) state)
        (runFrom ((condition a (some (condition b onTrue onFalse)) onFalse).execute context)
          state)) ∧
    (¬ Expr.OverLimit (Expr.choose c a b) →
      SplitAs (Expr.choose c a b) (verdictOfChoice context c a b)
        (runFrom ((condition (Expr.choose c a b) onTrue onFalse).execute context) state)
        (runFrom ((condition c (some (condition a onTrue onFalse))
          (some (condition b onTrue onFalse))).execute context) state)) := by
  obtain ⟨-, hda, -⟩ := Expr.parse_eq_ok_iff.1 ha
  obtain ⟨-, hdb, -⟩ := Expr.parse_eq_ok_iff.1 hb
  obtain ⟨-, hdc, -⟩ := Expr.parse_eq_ok_iff.1 hc
  constructor
  · intro hlimit
    have hwhole := Expr.parse_of_not_overLimit hlimit (hda.conjoin hdb)
    refine splitAs_of_quiet ?_ (quiet_conjoin context a b onTrue onFalse) state
    rw [quiet_condition, Expr.verdict_of_holds (Expr.holds_conjoin ha hb hwhole context)]
  · intro hlimit
    have hwhole := Expr.parse_of_not_overLimit hlimit (hdc.choose hda hdb)
    refine splitAs_of_quiet ?_ (quiet_choose context c a b onTrue onFalse) state
    rw [quiet_condition, Expr.verdict_of_holds (Expr.holds_choose hc ha hb hwhole context)]

/-- A second part without a value: the runs fail for lack of it, each with its own text. As one
of two choices it is not looked at. -/
theorem split_condition_unresolved :
    let context : Context := ⟨[("a", .bool true)]⟩
    let branch := some (send (.sms "+1" none))
    let state := RunState.recording none none
    Expr.parse "a" = .ok (.ident "a") ∧ Expr.parse "b" = .ok (.ident "b") ∧
      ¬ Expr.OverLimit (Expr.conjoin "a" "b") ∧ ¬ Expr.OverLimit (Expr.choose "a" "a" "b") ∧
      (runFrom ((condition (Expr.conjoin "a" "b") branch none).execute context) state).1 =
        .error (.evaluation "(a) && (b)" (.unresolved "b")) ∧
      (runFrom ((condition "a" (some (condition "b" branch none)) none).execute context) state).1 =
        .error (.evaluation "b" (.unresolved "b")) ∧
      (runFrom ((condition (Expr.choose "a" "a" "b") branch none).execute context) state).1 =
        (runFrom ((condition "a" (some (condition "a" branch none))
          (some (condition "b" branch none))).execute context) state).1 := by
  intro context branch state
  have ha : Expr.parse "a" = .ok (.ident "a") := by
    rw [Expr.parse, Expr.checkLimits, if_neg (by decide), show "a".toList = ['a'] from rfl]
    rfl
  have hb : Expr.parse "b" = .ok (.ident "b") := by
    rw [Expr.parse, Expr.checkLimits, if_neg (by decide), show "b".toList = ['b'] from rfl]
    rfl
  have hboth : Expr.parse (Expr.conjoin "a" "b") =
      .ok (.binary .and (.ident "a") (.ident "b")) := by
    have htext : (Expr.conjoin "a" "b").toList =
        ['(', 'a', ')', ' ', '&', '&', ' ', '(', 'b', ')'] := by
      simp [Expr.conjoin]
    rw [Expr.parse, Expr.checkLimits, if_neg (by decide), htext]
    rfl
  have hchoice : Expr.parse (Expr.choose "a" "a" "b") =
      .ok (.ternary (.ident "a") (.ident "a") (.ident "b")) := by
    have htext : (Expr.choose "a" "a" "b").toList =
        ['(', 'a', ')', ' ', '?', ' ', '(', 'a', ')', ' ', ':', ' ', '(', 'b', ')'] := by
      simp [Expr.choose]
    rw [Expr.parse, Expr.checkLimits, if_neg (by decide), htext]
    rfl
  have hlimit : ¬ Expr.OverLimit (Expr.conjoin "a" "b") := by
    simp [Expr.OverLimit, hboth]
  have hlimit' : ¬ Expr.OverLimit (Expr.choose "a" "a" "b") := by
    simp [Expr.OverLimit, hchoice]
  have hverdict : verdict context "a" = .ok true := by
    rw [verdict, Expr.holds_of_parse_ok ha]
    rfl
  have hverdict' : verdict context "b" = .error ("b", .unresolved "b") := by
    rw [verdict, Expr.holds_of_parse_ok hb]
    rfl
  have hparts : verdictOfBoth context "a" "b" = .error ("b", .unresolved "b") := by
    rw [verdictOfBoth, hverdict, hverdict']
    rfl
  have hparts' : verdictOfChoice context "a" "a" "b" = .ok true := by
    rw [verdictOfChoice, hverdict, hverdict']
    rfl
  have hsplit := (split_condition ha hb ha context branch none state).1 hlimit
  have hsplit' := (split_condition ha hb ha context branch none state).2 hlimit'
  rw [hparts] at hsplit
  rw [hparts'] at hsplit'
  exact ⟨ha, hb, hlimit, hlimit', hsplit.result.1, hsplit.result.2, hsplit'.result⟩

end Action
end ActionTree
