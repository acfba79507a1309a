/-
# Runs in contexts that agree

An action does not see more of its context than its free variables: those of its
conditions, and of what is inside a loop all but the counters, which the loop sets itself.
In two contexts that agree on them it takes the same steps, except that every message is
sent along with the context (`Action.map_bare_course`). So the two runs end in the same
way, whatever their state, and leave the same behind but for these contexts.

Key definitions: `Action.freeVariables`, `Step.bare`, `RunState.bare`.
Key theorems: `RunState.respects_bare`, `Action.map_bare_course`,
`Action.noninterference`.
-/
import ActionTree.Proofs.Expr.Variables
import ActionTree.Proofs.Run.Change

namespace ActionTree

open Execution (runFrom)

/-! ### Free variables -/

/-- The variables of the context that an action can depend on. -/
def Action.freeVariables : Action → List String
  | .send _ => []
  | .condition expression onTrue onFalse =>
    Expr.freeVariablesOf expression ++
      ((match onTrue with
        | some action => action.freeVariables
        | none => []) ++
      (match onFalse with
        | some action => action.freeVariables
        | none => []))
  | .loop _ body =>
    (match body with
      | some action => action.freeVariables
      | none => []).filter fun name =>
        name ≠ Context.loopIndex ∧ name ≠ Context.loopIteration

/-- Contexts that agree on all but the counters agree inside an iteration, where the
counters are set. -/
theorem Context.AgreeOn.withLoopCounters {names : List String} {context context' : Context}
    (h : AgreeOn (names.filter fun name => name ≠ loopIndex ∧ name ≠ loopIteration)
      context context') (index : Int64) :
    AgreeOn names (context.withLoopCounters index) (context'.withLoopCounters index) := by
  intro name hm
  unfold Context.withLoopCounters
  by_cases hi : name = loopIteration
  · subst hi
    simp only [get?, set, Fields.get?_set_self]
  · simp only [get?, set, Fields.get?_set_of_ne _ _ hi]
    by_cases hx : name = loopIndex
    · subst hx
      simp only [Fields.get?_set_self]
    · simp only [Fields.get?_set_of_ne _ _ hx]
      exact h name (List.mem_filter.2 ⟨hm, decide_eq_true ⟨hx, hi⟩⟩)

/-! ### Without the contexts -/

/-- The event without the context of the message. -/
def Event.bare : Event → Event
  | sending message _ => sending message none
  | event => event

/-- The message with no context. -/
def Delivery.bare (delivery : Delivery) : Delivery :=
  { delivery with context := .empty }

/-- The recorder, with the messages only. -/
def Recorder.bare (recorder : Recorder) : Recorder :=
  { recorder with deliveries := recorder.deliveries.map Delivery.bare }

/-- The notifier, with the messages only. -/
def Notifier.bare : Notifier → Notifier
  | log _ => log false
  | record recorder => record recorder.bare

/-- The state, with no contexts along with the messages. -/
def RunState.bare (state : RunState) : RunState :=
  { state with
    notifier := state.notifier.bare
    log := state.log.map fun entry => { entry with event := entry.event.bare } }

/-- The step with no context. -/
def Step.bare : Step → Step
  | report event => report event.bare
  | check iterations index => check iterations index
  | attempt made => attempt { made with delivery := made.delivery.bare }

theorem Recorder.bare_attempt (recorder : Recorder) (delivery : Delivery) :
    (recorder.attempt delivery).bare = recorder.bare.attempt delivery.bare := by
  have hf : recorder.bare.fails = recorder.fails := rfl
  unfold attempt
  rw [hf]
  cases recorder.fails <;> simp [bare]

theorem Recorder.messages_bare (recorder : Recorder) :
    recorder.bare.deliveries.map Delivery.message = recorder.deliveries.map Delivery.message := by
  rw [bare, Array.map_map]
  rfl

theorem RunState.bare_report (state : RunState) (event : Event) :
    (state.report event).bare = state.bare.report event.bare := by
  simp [bare, report]

theorem RunState.recorded_bare (state : RunState) : state.bare.recorded = state.recorded.bare := by
  obtain ⟨notifier, cancelled, span, log⟩ := state
  cases notifier with
  | log withContext => simp [bare, recorded, Notifier.bare, Notifier.recorded, Recorder.new,
      Recorder.bare]
  | record recorder => rfl

/-- **A step does not look at the contexts** that go along with the messages. -/
theorem RunState.respects_bare : Respects bare Step.bare := by
  refine respects_of_attempts Event.bare (fun _ => rfl) (fun _ _ => rfl) (fun _ => rfl)
    bare_report (fun _ _ => rfl) ?_
  intro made state
  rw [Step.bare]
  cases hn : state.notifier with
  | log withContext =>
    have hn' : state.bare.notifier = .log false := congrArg Notifier.bare hn
    rw [Course.runFrom_attempt_of_log hn, Course.runFrom_attempt_of_log hn', Prod.map, bare_report]
    rfl
  | record recorder =>
    have hn' : state.bare.notifier = .record recorder.bare := congrArg Notifier.bare hn
    rw [Course.runFrom_attempt hn, Course.runFrom_attempt hn', Prod.map, ← Recorder.bare_attempt]
    rfl

/-! ### Courses without the contexts -/

namespace Course

variable (alter : Step → Step)

theorem map_prepend (steps : List Step) (course : Course) :
    (course.prepend steps).map alter = (course.map alter).prepend (steps.map alter) := by
  simp only [map, prepend, List.map_append]

theorem map_andThen (first second : Course) :
    (first.andThen second).map alter = (first.map alter).andThen (second.map alter) := by
  obtain ⟨steps, fault⟩ := first
  cases fault with
  | none => exact map_prepend alter steps second
  | some fault => rfl

theorem map_bare_within (turn : Turn) (course : Course) :
    (course.within turn).map Step.bare = (course.map Step.bare).within turn := by
  have hstep : Step.bare ∘ Step.within turn = Step.within turn ∘ Step.bare := by
    funext step
    cases step <;> rfl
  simp only [map, within, List.map_map, hstep]

/-- Two loops take the same steps if all their iterations do. -/
theorem map_bare_iterate {body body' : Context → Course} {context context' : Context}
    (h : ∀ index, (body (context.withLoopCounters index)).map Step.bare =
      (body' (context'.withLoopCounters index)).map Step.bare)
    (iterations : Int64) (remaining index : Nat) :
    (iterate iterations body context remaining index).map Step.bare =
      (iterate iterations body' context' remaining index).map Step.bare := by
  induction remaining generalizing index with
  | zero => rfl
  | succ remaining ih =>
    simp only [iterate, map_prepend, map_andThen, map_bare_within, h, ih]

end Course

namespace Action

variable {context context' : Context}

/-- **An action takes the same steps** in contexts that agree on its free variables. -/
theorem map_bare_course (action : Action) (h : context.AgreeOn action.freeVariables context') :
    (action.course context).map Step.bare = (action.course context').map Step.bare := by
  induction action using Action.induct generalizing context context' with
  | send message => rfl
  | condition expression onTrue onFalse iht ihf =>
    unfold freeVariables at h
    rw [Context.agreeOn_append, Context.agreeOn_append] at h
    obtain ⟨hexpression, htrue, hfalse⟩ := h
    unfold course
    rw [Expr.holds_congr hexpression]
    cases Expr.holds context' expression with
    | error source => rfl
    | ok result =>
      simp only [Course.map_prepend]
      congr 1
      cases result with
      | true =>
        cases onTrue with
        | none => rfl
        | some action =>
          show (Course.prepend _ _).map _ = (Course.prepend _ _).map _
          rw [Course.map_prepend, Course.map_prepend, iht action rfl htrue]
      | false =>
        cases onFalse with
        | none => rfl
        | some action =>
          show (Course.prepend _ _).map _ = (Course.prepend _ _).map _
          rw [Course.map_prepend, Course.map_prepend, ihf action rfl hfalse]
  | loop iterations body ih =>
    unfold course
    cases body with
    | none => rfl
    | some action =>
      unfold freeVariables at h
      simp only [Course.map_prepend, Course.map_andThen]
      rw [Course.map_bare_iterate fun index => ih action rfl (h.withLoopCounters index)]

/-- So it ends in the same way in both, and leaves the same behind. -/
theorem runFrom_bare (action : Action) (h : context.AgreeOn action.freeVariables context')
    (state : RunState) :
    Prod.map id RunState.bare (runFrom (action.execute context) state) =
      Prod.map id RunState.bare (runFrom (action.execute context') state) := by
  rw [execute_eq_perform, execute_eq_perform, ← RunState.respects_bare.perform,
    ← RunState.respects_bare.perform, map_bare_course action h]

/-- **A run depends on nothing but the free variables of its action.** In contexts that
agree on them it ends with the same result, has made as many attempts and is cancelled or
not alike, and the recorded messages are the same one by one. The states differ in nothing
but the contexts that went along with the messages, be it to a recorder or into the log. -/
theorem noninterference (action : Action) (h : context.AgreeOn action.freeVariables context')
    (state : RunState) :
    let run := runFrom (action.execute context) state
    let run' := runFrom (action.execute context') state
    run.1 = run'.1 ∧
    run.2.recorded.attempts = run'.2.recorded.attempts ∧
    run.2.cancelled = run'.2.cancelled ∧
    run.2.recorded.deliveries.map Delivery.message =
      run'.2.recorded.deliveries.map Delivery.message ∧
    run.2.bare = run'.2.bare := by
  intro run run'
  obtain ⟨hresult, hstate⟩ := Prod.ext_iff.1 (runFrom_bare action h state)
  have hcancelled : run.2.bare.cancelled = run'.2.bare.cancelled := congrArg _ hstate
  have hrecorded : run.2.recorded.bare = run'.2.recorded.bare := by
    rw [← RunState.recorded_bare, ← RunState.recorded_bare]
    exact congrArg RunState.recorded hstate
  have hattempts : run.2.recorded.bare.attempts = run'.2.recorded.bare.attempts :=
    congrArg _ hrecorded
  have hmessages : run.2.recorded.bare.deliveries.map Delivery.message =
      run'.2.recorded.bare.deliveries.map Delivery.message := by rw [hrecorded]
  rw [Recorder.messages_bare, Recorder.messages_bare] at hmessages
  exact ⟨hresult, hattempts, hcancelled, hmessages, hstate⟩

/-- A loop that compares its counter with a variable, beside another variable or not. -/
theorem noninterference_beside :
    let action := Action.loop 2 (some (.condition "loopIndex < a"
      (some (.send (.sms "+1" none))) none))
    let context : Context := ⟨[("a", .ofInt64 1)]⟩
    let context' : Context := ⟨[("a", .ofInt64 1), ("b", .null)]⟩
    context.AgreeOn action.freeVariables context' ∧
      (runFrom (action.execute context) (.recording none none)).2.recorded.attempts =
        (runFrom (action.execute context') (.recording none none)).2.recorded.attempts := by
  intro action context context'
  have htext : "loopIndex < a".toList =
      ['l', 'o', 'o', 'p', 'I', 'n', 'd', 'e', 'x', ' ', '<', ' ', 'a'] := by
    simp
  have hsize : ¬ maxSourceBytes < "loopIndex < a".utf8ByteSize := by decide
  have hparse : Expr.parse "loopIndex < a" =
      .ok (.binary .lt (.ident "loopIndex") (.ident "a")) := by
    rw [Expr.parse, Expr.checkLimits, if_neg hsize, htext]
    rfl
  have hfree : action.freeVariables = ["a"] := by
    simp [action, freeVariables, Expr.freeVariablesOf, hparse, Expr.freeVariables, Context.loopIndex,
      Context.loopIteration]
  have h : context.AgreeOn action.freeVariables context' := by
    intro name hm
    rw [hfree, List.mem_singleton] at hm
    subst hm
    rfl
  exact ⟨h, (noninterference action h _).2.1⟩

end Action
end ActionTree
