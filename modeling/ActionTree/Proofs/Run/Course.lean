/-
# The course of a run

Which steps an action takes depends on its context alone, not on the state of the
run: the state only decides at which step the run breaks off. So a run is a row of
steps, fixed beforehand, that is taken until one of them fails
(`Action.execute_eq_perform`). What is to be said of a run under this or that notifier
is then said of rows of steps.

Key definitions: `Step`, `Course`, `Course.perform`, `Action.course`, `Tree.course`.
Key theorems: `Action.course_shapes`, `Action.course_induct`,
`Action.execute_eq_perform`, `Tree.execute_eq_perform`.
-/
import ActionTree.Run.Execute

namespace ActionTree

open Execution (emit notify)

/-! ### Steps -/

/-- An iteration of a loop: how many there are in all, and the index of this one. -/
structure Turn where
  iterations : Nat
  index : Nat

/-- Whether no iteration is left to start behind an iteration. -/
def Turn.last (turn : Turn) : Prop :=
  turn.iterations ≤ turn.index + 1

/-- An attempt to send a message, with the iterations in which it is made, the outermost
first. -/
structure Attempt where
  delivery : Delivery
  turns : List Turn

/-- What a run does between two decisions that its state could influence: it reports an
event, it looks before an iteration whether it was cancelled, or it sends a message. -/
inductive Step where
  | report (event : Event)
  | check (iterations : Int64) (index : Nat)
  | attempt (made : Attempt)

namespace Step

/-- Takes a step. -/
def perform : Step → Execution Unit
  | report event => emit event
  | check iterations index => do
    if (← get).cancelled then
      emit (.loopCancelled (.ofNat index) iterations)
      throw .cancelled
  | attempt made => notify made.delivery.message made.delivery.context

/-- The attempt that a step is. -/
def attempt? : Step → Option Attempt
  | attempt made => some made
  | _ => none

/-- Whether a step looks if the run was cancelled. -/
def isCheck : Step → Bool
  | check .. => true
  | _ => false

/-- The step as one inside an iteration. -/
def within (turn : Turn) : Step → Step
  | attempt ⟨delivery, turns⟩ => attempt ⟨delivery, turn :: turns⟩
  | step => step

theorem perform_within (turn : Turn) (step : Step) : (step.within turn).perform = step.perform := by
  cases step <;> rfl

end Step

/-! ### Courses -/

/-- The steps of a run, and the condition that could not be evaluated behind them, if
there is one. -/
structure Course where
  steps : List Step
  fault : Option (String × ExprError)

namespace Course

/-- No steps. -/
def done : Course := ⟨[], none⟩

/-- A course with steps put in front. -/
def prepend (steps : List Step) (course : Course) : Course :=
  ⟨steps ++ course.steps, course.fault⟩

/-- One course and then another, unless the first ends with a fault. -/
def andThen (first second : Course) : Course :=
  match first.fault with
  | none => second.prepend first.steps
  | some _ => first

theorem steps_andThen {first second : Course} (h : first.fault = none) :
    (first.andThen second).steps = first.steps ++ second.steps := by
  rw [andThen, h]
  rfl

theorem fault_andThen {first second : Course} (h : (first.andThen second).fault = none) :
    first.fault = none ∧ second.fault = none := by
  obtain ⟨steps, fault⟩ := first
  cases fault with
  | none => exact ⟨rfl, h⟩
  | some fault => cases h

theorem mem_andThen {first second : Course} {step : Step}
    (h : step ∈ (first.andThen second).steps) : step ∈ first.steps ∨ step ∈ second.steps := by
  obtain ⟨steps, fault⟩ := first
  cases fault with
  | none => exact List.mem_append.1 h
  | some fault => exact .inl h

/-- The course as one inside an iteration. -/
def within (turn : Turn) (course : Course) : Course :=
  ⟨course.steps.map (Step.within turn), course.fault⟩

/-- The error that a fault is. -/
def ending : Option (String × ExprError) → Except Error Unit
  | none => .ok ()
  | some (expression, source) => .error (.evaluation expression source)

/-- Takes the steps of a course. -/
def perform (course : Course) : Execution Unit := do
  course.steps.forM Step.perform
  liftM (ending course.fault)

/-- The course of `remaining` iterations of a loop, beginning with the one of the given
index. -/
def iterate (iterations : Int64) (body : Context → Course) (context : Context) :
    Nat → Nat → Course
  | 0, _ => done
  | remaining + 1, index =>
    prepend [.check iterations index, .report (.loopIteration (.ofNat (index + 1)) iterations)]
      (((body (context.withLoopCounters (.ofNat index))).within
        ⟨iterations.toInt.toNat, index⟩).andThen
          (iterate iterations body context remaining (index + 1)))

end Course

open Course in
/-- The course of an action in a context. -/
def Action.course : Action → Context → Course
  | .send message, context =>
    ⟨[.report (.dispatching message), .attempt ⟨⟨message, context⟩, []⟩], none⟩
  | .condition expression onTrue onFalse, context =>
    match Expr.holds context expression with
    | .error source => ⟨[.report (.evaluating expression)], some (expression, source)⟩
    | .ok result =>
      prepend [.report (.evaluating expression), .report (.evaluated expression result)]
        (if result then match onTrue with
          | some action => prepend [.report (.branchTaken true)] (action.course context)
          | none => prepend [.report (.branchMissing true)] done
        else match onFalse with
          | some action => prepend [.report (.branchTaken false)] (action.course context)
          | none => prepend [.report (.branchMissing false)] done)
  | .loop iterations body, context =>
    prepend [.report (.loopStarted iterations)]
      (match body with
        | none => prepend [.report .loopEmpty] done
        | some action =>
          (Course.iterate iterations (fun context => action.course context) context
            iterations.toInt.toNat 0).andThen (prepend [.report (.loopCompleted iterations)] done))

/-- The course of an action has one of six shapes, two of which contain other courses. What
holds of the four that do not, and is kept by a branch and by a loop, holds of the course of
every action. -/
theorem Action.course_shapes {motive : Course → Prop}
    (message : ∀ message context,
      motive ⟨[.report (.dispatching message), .attempt ⟨⟨message, context⟩, []⟩], none⟩)
    (unevaluated : ∀ expression source,
      motive ⟨[.report (.evaluating expression)], some (expression, source)⟩)
    (missing : ∀ expression result, motive ⟨[.report (.evaluating expression),
      .report (.evaluated expression result), .report (.branchMissing result)], none⟩)
    (empty : ∀ iterations, motive ⟨[.report (.loopStarted iterations), .report .loopEmpty], none⟩)
    (branch : ∀ expression result course, motive course → motive (course.prepend [
      .report (.evaluating expression), .report (.evaluated expression result),
      .report (.branchTaken result)]))
    (loop : ∀ iterations body context, (∀ context, motive (body context)) →
      motive (Course.prepend [.report (.loopStarted iterations)]
        ((Course.iterate iterations body context iterations.toInt.toNat 0).andThen
          (Course.prepend [.report (.loopCompleted iterations)] .done))))
    (action : Action) (context : Context) : motive (action.course context) := by
  induction action using Action.induct generalizing context with
  | send text => exact message text context
  | condition expression onTrue onFalse iht ihf =>
    unfold course
    cases Expr.holds context expression with
    | error source => exact unevaluated expression source
    | ok result =>
      cases result with
      | true =>
        cases onTrue with
        | none => exact missing expression true
        | some action => exact branch expression true _ (iht action rfl context)
      | false =>
        cases onFalse with
        | none => exact missing expression false
        | some action => exact branch expression false _ (ihf action rfl context)
  | loop iterations body ih =>
    unfold course
    cases body with
    | none => exact empty iterations
    | some action => exact loop iterations _ context (ih action rfl)

/-- What holds of no steps, of a fault and of an attempt, and is kept by reports and by the
iterations of a loop, holds of the course of every action. -/
theorem Action.course_induct {motive : Course → Prop} (done : motive .done)
    (fault : ∀ fault, motive ⟨[], some fault⟩)
    (attempt : ∀ delivery, motive ⟨[.attempt ⟨delivery, []⟩], none⟩)
    (report : ∀ event course, motive course → motive (course.prepend [.report event]))
    (loop : ∀ iterations body context, (∀ context, motive (body context)) →
      motive ((Course.iterate iterations body context iterations.toInt.toNat 0).andThen
        (Course.prepend [.report (.loopCompleted iterations)] .done)))
    (action : Action) (context : Context) : motive (action.course context) := by
  apply course_shapes
  case message => exact fun message context => report _ _ (attempt ⟨message, context⟩)
  case unevaluated => exact fun expression source => report _ _ (fault (expression, source))
  case missing => exact fun expression result => report _ _ (report _ _ (report _ _ done))
  case empty => exact fun iterations => report _ _ (report _ _ done)
  case branch =>
    exact fun expression result course h => report _ _ (report _ _ (report _ _ h))
  case loop => exact fun iterations body context h => report _ _ (loop iterations body context h)

/-! ### Runs follow their course -/

namespace Course

theorem perform_prepend (steps : List Step) (course : Course) :
    (course.prepend steps).perform = steps.forM Step.perform >>= fun _ => course.perform := by
  simp only [perform, prepend, List.forM_eq_forM, List.forM_append, bind_assoc]

theorem perform_steps (steps : List Step) :
    perform ⟨steps, none⟩ = steps.forM Step.perform := by
  show (steps.forM Step.perform >>= fun _ => pure ()) = _
  exact bind_pure _

theorem perform_andThen (first second : Course) :
    (first.andThen second).perform = first.perform >>= fun _ => second.perform := by
  obtain ⟨steps, fault⟩ := first
  cases fault with
  | none =>
    simp only [andThen, perform_prepend]
    simp only [perform, bind_assoc]
    rfl
  | some fault =>
    simp only [andThen, perform, bind_assoc]
    rfl

theorem perform_within (turn : Turn) (course : Course) :
    (course.within turn).perform = course.perform := by
  simp only [perform, within, List.forM_eq_forM, List.forM_map, Step.perform_within]

theorem iterate_eq_perform {iterations : Int64} {body : Context → Execution Unit}
    {course : Context → Course} (h : ∀ context, body context = (course context).perform)
    (context : Context) (remaining index : Nat) :
    Action.iterate iterations body context remaining index =
      (iterate iterations course context remaining index).perform := by
  induction remaining generalizing index with
  | zero => rfl
  | succ remaining ih =>
    rw [Action.iterate, iterate, perform_prepend, perform_andThen, perform_within, ← h, ← ih]
    simp only [List.forM_eq_forM, List.forM_cons, List.forM_nil, Step.perform, bind_assoc,
      pure_bind]
    refine bind_congr fun state => ?_
    cases state.cancelled <;> rfl

end Course

/-- **A run takes the steps of its course.** -/
theorem Action.execute_eq_perform (action : Action) (context : Context) :
    action.execute context = (action.course context).perform := by
  induction action using Action.induct generalizing context with
  | send message =>
    rw [Action.execute, Action.course, Course.perform_steps]
    simp only [List.forM_eq_forM, List.forM_cons, List.forM_nil, Step.perform, bind_pure_unit]
  | condition expression onTrue onFalse iht ihf =>
    unfold Action.execute Action.course
    cases Expr.holds context expression with
    | error source => rfl
    | ok result =>
      rw [Course.perform_prepend]
      simp only [List.forM_eq_forM, List.forM_cons, List.forM_nil, Step.perform, bind_assoc,
        pure_bind]
      refine bind_congr fun _ => bind_congr fun _ => ?_
      cases result with
      | true =>
        cases onTrue with
        | none => rfl
        | some action =>
          show _ = (Course.prepend _ _).perform
          rw [Course.perform_prepend, ← iht action rfl]
          rfl
      | false =>
        cases onFalse with
        | none => rfl
        | some action =>
          show _ = (Course.prepend _ _).perform
          rw [Course.perform_prepend, ← ihf action rfl]
          rfl
  | loop iterations body ih =>
    unfold Action.execute Action.course
    cases body with
    | none => rfl
    | some action =>
      simp only [Course.perform_prepend, Course.perform_andThen,
        Course.iterate_eq_perform (ih action rfl)]
      rfl

/-- The course of a tree: that of its root, between two reports. -/
def Tree.course (tree : Tree) : Course :=
  .prepend [.report (.treeStarted tree.root.kind tree.context.size)]
    ((tree.root.course tree.context).andThen
      (.prepend [.report (.treeCompleted tree.root.kind)] .done))

/-- So does the run of a tree. -/
theorem Tree.execute_eq_perform (tree : Tree) : tree.execute = tree.course.perform := by
  rw [course, Course.perform_prepend, Course.perform_andThen, ← Action.execute_eq_perform]
  rfl

end ActionTree
