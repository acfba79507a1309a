/-
# Loops inside of loops

Loops that stand one inside the other, and around nothing else but a body, count like the
digits of a number: the body is run as often as the product of the iterations says, and what
it sees is the innermost counter, which starts anew as often as the loops around it go on.
The reports of the loops apart, the run is one row of runs of the body
(`Action.plain_nest`, `Action.runFrom_nest`); what fails in one of them ends the whole.

To compare the courses, what loops add is left out of them: their reports, and their looks
at the state, which a calm run passes (`Course.plain`).

Key definitions: `Event.ofLoop`, `RunState.withoutLoops`, `RunState.Calm`, `Course.plain`,
`Course.row`, `Action.nest`, `Action.turns`.
Key theorems: `Course.runFrom_plain`, `Action.plain_nest`, `Action.runFrom_nest`,
`Action.nested_run`.
-/
import ActionTree.Proofs.Action.Places
import ActionTree.Proofs.Run.Change

namespace ActionTree

open Course (takeSteps attemptsOf)
open Execution (runFrom)

/-! ### Without what loops add -/

/-- The events that loops report. -/
def Event.ofLoop : Event → Bool
  | loopStarted .. | loopEmpty | loopIteration .. | loopCancelled .. | loopCompleted .. => true
  | _ => false

/-- The state with no reports of loops in its log. -/
def RunState.withoutLoops (state : RunState) : RunState :=
  state.without Event.ofLoop

/-- Nothing cancels the run: it is not cancelled yet, and its notifier will not do it. -/
def RunState.Calm (state : RunState) : Prop :=
  state.cancelled = false ∧ state.recorded.cancelAfter = none

/-- What is left of a step if loops are not to be seen: no report of theirs, no look whether
the run was cancelled, and attempts that know of no iterations. -/
def Step.plain? : Step → Option Step
  | report event => if event.ofLoop then none else some (report event)
  | check .. => none
  | attempt made => some (attempt ⟨made.delivery, []⟩)

/-- The course without what loops add to it. -/
def Course.plain (course : Course) : Course :=
  ⟨course.steps.filterMap Step.plain?, course.fault⟩

namespace RunState

variable {state next : RunState} {event : Event}

theorem withoutLoops_report (h : event.ofLoop = false) :
    (state.report event).withoutLoops = state.withoutLoops.report event :=
  without_report h

theorem withoutLoops_report_of_loop (h : event.ofLoop = true) :
    (state.report event).withoutLoops = state.withoutLoops :=
  without_report_of_kind h

/-- A calm run stays calm when it makes an attempt. -/
theorem Calm.attempt (h : state.Calm) {made : Attempt} {result : Except Error Unit}
    (hr : runFrom (Step.perform (.attempt made)) state = (result, next)) : next.Calm := by
  obtain ⟨hcancelled, hscript⟩ := h
  cases hn : state.notifier with
  | log withContext =>
    rw [Course.runFrom_attempt_of_log hn] at hr
    obtain ⟨-, rfl⟩ := Prod.mk.inj hr
    exact ⟨hcancelled, hscript⟩
  | record recorder =>
    have hscript : recorder.cancelAfter = none := by
      rw [recorded, hn] at hscript
      exact hscript
    rw [Course.runFrom_attempt hn] at hr
    obtain ⟨-, rfl⟩ := Prod.mk.inj hr
    refine ⟨?_, hscript⟩
    show (state.cancelled || recorder.cancels) = false
    rw [hcancelled, Recorder.cancels, hscript]
    rfl

end RunState

namespace Course

/-- An attempt does not look at the reports of loops, nor at the iterations in which it is
made. -/
theorem runFrom_attempt_withoutLoops (made : Attempt) (state : RunState) :
    runFrom (Step.perform (.attempt ⟨made.delivery, []⟩)) state.withoutLoops =
      Prod.map id RunState.withoutLoops (runFrom (Step.perform (.attempt made)) state) :=
  runFrom_attempt_map made (fun _ _ => rfl) fun _ _ => RunState.withoutLoops_report rfl

theorem takeSteps_plain (steps : List Step) {state : RunState} (h : state.Calm) :
    takeSteps (steps.filterMap Step.plain?) state.withoutLoops =
      Prod.map id RunState.withoutLoops (takeSteps steps state) := by
  induction steps generalizing state with
  | nil => rfl
  | cons step steps ih =>
    cases step with
    | report event =>
      rw [takeSteps_cons_of_ok (runFrom_report event)]
      have hcalm : (state.report event).Calm := h
      cases he : event.ofLoop with
      | true =>
        have hdrop : Step.plain? (.report event) = none := if_pos he
        rw [List.filterMap_cons_none hdrop, ← ih hcalm, RunState.withoutLoops_report_of_loop he]
      | false =>
        have hkeep : Step.plain? (.report event) = some (.report event) := by
          simp [Step.plain?, he]
        rw [List.filterMap_cons_some hkeep, takeSteps_cons_of_ok (runFrom_report event),
          ← ih hcalm, RunState.withoutLoops_report he]
    | check iterations index =>
      rw [takeSteps_cons_of_ok (runFrom_check_of_calm h.1 iterations index), ← ih h]
      rfl
    | attempt made =>
      have hplain := runFrom_attempt_withoutLoops made state
      have hkeep : Step.plain? (.attempt made) = some (.attempt ⟨made.delivery, []⟩) := rfl
      rw [List.filterMap_cons_some hkeep]
      rcases hr : runFrom (Step.perform (.attempt made)) state with ⟨result, next⟩
      rw [hr] at hplain
      cases result with
      | ok =>
        rw [takeSteps_cons_of_ok hplain, takeSteps_cons_of_ok hr]
        exact ih (h.attempt hr)
      | error error =>
        rw [takeSteps_cons_of_error hplain, takeSteps_cons_of_error hr]
        rfl

/-- **A calm run goes as its plain course**, but for the reports of loops in its log. -/
theorem runFrom_plain (course : Course) {state : RunState} (h : state.Calm) :
    runFrom course.plain.perform state.withoutLoops =
      Prod.map id RunState.withoutLoops (runFrom course.perform state) :=
  perform_map rfl (takeSteps_plain course.steps h)

/-! ### Rows of courses -/

/-- Courses one after the other, up to the first that ends with a fault. -/
def row (courses : List Course) : Course :=
  courses.foldr andThen done

@[simp] theorem row_nil : row [] = done := rfl

@[simp] theorem row_cons (course : Course) (courses : List Course) :
    row (course :: courses) = course.andThen (row courses) := rfl

theorem andThen_done (course : Course) : course.andThen done = course := by
  obtain ⟨steps, _ | fault⟩ := course
  · simp [andThen, prepend, done]
  · rfl

theorem andThen_assoc (first second third : Course) :
    (first.andThen second).andThen third = first.andThen (second.andThen third) := by
  obtain ⟨steps, _ | fault⟩ := first
  · obtain ⟨steps', _ | fault'⟩ := second
    · simp [andThen, prepend]
    · rfl
  · rfl

theorem row_append (courses courses' : List Course) :
    row (courses ++ courses') = (row courses).andThen (row courses') := by
  induction courses with
  | nil => rfl
  | cons course courses ih => rw [List.cons_append, row_cons, row_cons, ih, andThen_assoc]

/-- A row of rows is one row. -/
theorem row_flatten (rows : List (List Course)) : row rows.flatten = row (rows.map row) := by
  induction rows with
  | nil => rfl
  | cons courses rows ih => rw [List.flatten_cons, row_append, ih, List.map_cons, row_cons]

/-- A row in which nothing fails has the steps of all courses. -/
theorem row_of_ok {courses : List Course} (h : ∀ course ∈ courses, course.fault = none) :
    row courses = ⟨courses.flatMap steps, none⟩ := by
  induction courses with
  | nil => rfl
  | cons course courses ih =>
    have hfirst : course.fault = none := h course List.mem_cons_self
    rw [row_cons, ih fun other ho => h other (List.mem_cons_of_mem course ho), andThen, hfirst]
    rfl

/-- A row ends with the first course that fails. -/
theorem row_of_fault {before after : List Course} {course : Course} {fault : String × ExprError}
    (h : ∀ other ∈ before, other.fault = none) (hf : course.fault = some fault) :
    row (before ++ course :: after) = ⟨(before ++ [course]).flatMap steps, some fault⟩ := by
  obtain ⟨steps, _⟩ := course
  obtain rfl := hf
  rw [row_append, row_of_ok h, row_cons]
  simp [andThen, prepend]

/-- To perform a row is to perform its courses one after the other. -/
theorem perform_row (courses : List Course) : (row courses).perform = courses.forM perform := by
  induction courses with
  | nil => rfl
  | cons course courses ih =>
    rw [row_cons, perform_andThen, ih, List.forM_eq_forM, List.forM_cons]

/-! ### Plain courses -/

theorem plain_prepend (steps : List Step) (course : Course) :
    (course.prepend steps).plain = course.plain.prepend (steps.filterMap Step.plain?) := by
  simp [plain, prepend]

theorem plain_andThen (first second : Course) :
    (first.andThen second).plain = first.plain.andThen second.plain := by
  obtain ⟨steps, _ | fault⟩ := first
  · exact plain_prepend steps second
  · rfl

theorem plain_within (turn : Turn) (course : Course) :
    (course.within turn).plain = course.plain := by
  have hstep : Step.plain? ∘ Step.within turn = Step.plain? := by
    funext step
    cases step <;> rfl
  simp only [plain, within, List.filterMap_map, hstep]

theorem plain_row (courses : List Course) : (row courses).plain = row (courses.map plain) := by
  induction courses with
  | nil => rfl
  | cons course courses ih => rw [row_cons, plain_andThen, ih, List.map_cons, row_cons]

/-- Without what the loop adds its iterations are a row. -/
theorem plain_iterate (iterations : Int64) (body : Context → Course) (context : Context)
    (remaining index : Nat) : (iterate iterations body context remaining index).plain =
      row ((List.range' index remaining).map fun k =>
        (body (context.withLoopCounters (.ofNat k))).plain) := by
  induction remaining generalizing index with
  | zero => rfl
  | succ remaining ih =>
    rw [iterate, plain_prepend, plain_andThen, plain_within, ih, List.range'_succ, List.map_cons,
      row_cons]
    rfl

end Course

/-! ### Nests of loops -/

namespace Action

/-- Loops one inside the other, the outermost first, around a body. -/
def nest (counts : List Int64) (body : Action) : Action :=
  counts.foldr (fun iterations action => loop iterations (some action)) body

/-- How often loops one inside the other run their body: a count that is not positive makes
it none at all. -/
def turns (counts : List Int64) : Nat :=
  counts.foldr (fun iterations total => iterations.toInt.toNat * total) 1

theorem dvd_turns (outer : List Int64) (inner : Int64) :
    inner.toInt.toNat ∣ turns (outer ++ [inner]) := by
  induction outer with
  | nil => exact ⟨1, rfl⟩
  | cons iterations outer ih => exact Nat.dvd_mul_left_of_dvd ih _

theorem plain_loop (iterations : Int64) (action : Action) (context : Context) :
    ((loop iterations (some action)).course context).plain =
      .row ((List.range iterations.toInt.toNat).map fun k =>
        (action.course (context.withLoopCounters (.ofNat k))).plain) := by
  rw [course, Course.plain_prepend, Course.plain_andThen, Course.plain_iterate,
    List.range_eq_range']
  exact Course.andThen_done _

/-- Counting to a product is counting to the second factor as often as the first says. -/
theorem map_range_mul {α : Type} (f : Nat → α) (n m : Nat) :
    (List.range (n * m)).map f =
      ((List.range n).map fun i => (List.range m).map fun j => f (i * m + j)).flatten := by
  induction n with
  | zero => simp
  | succ n ih =>
    rw [Nat.succ_mul, List.range_add, List.map_append, ih, List.range_succ, List.map_append,
      List.flatten_append]
    simp [Function.comp_def]

/-- **Without what the loops add, a nest of loops is a row of runs of its body**, each of
which sees where the innermost loop has got to. -/
theorem plain_nest (outer : List Int64) (inner : Int64) (body : Action) (context : Context) :
    ((nest (outer ++ [inner]) body).course context).plain =
      .row ((List.range (turns (outer ++ [inner]))).map fun k =>
        (body.course (context.withLoopCounters (.ofNat (k % inner.toInt.toNat)))).plain) := by
  let seen (k : Nat) : Course :=
    (body.course (context.withLoopCounters (.ofNat (k % inner.toInt.toNat)))).plain
  show _ = Course.row ((List.range (turns (outer ++ [inner]))).map seen)
  induction outer generalizing context with
  | nil =>
    have hone : turns ([] ++ [inner]) = inner.toInt.toNat := Nat.mul_one _
    rw [hone]
    refine (plain_loop inner body context).trans (congrArg Course.row (List.map_congr_left ?_))
    intro k hk
    simp only [seen, Nat.mod_eq_of_lt (List.mem_range.1 hk)]
  | cons iterations outer ih =>
    obtain ⟨q, hq⟩ := dvd_turns outer inner
    let n := iterations.toInt.toNat
    let m := turns (outer ++ [inner])
    have hperiod : ∀ i j, seen (i * m + j) = seen j := by
      intro i j
      have hmod : (i * m + j) % inner.toInt.toNat = j % inner.toInt.toNat := by
        show (i * turns (outer ++ [inner]) + j) % _ = _
        rw [hq, Nat.mul_left_comm, Nat.mul_add_mod]
      simp only [seen, hmod]
    calc ((nest (iterations :: outer ++ [inner]) body).course context).plain
        = .row ((List.range n).map fun i =>
            ((nest (outer ++ [inner]) body).course (context.withLoopCounters (.ofNat i))).plain) :=
          plain_loop iterations _ context
      _ = .row ((List.range n).map fun _ => .row ((List.range m).map seen)) := by
          -- The counters of the inner loops replace those of this one.
          simp only [ih, Context.withLoopCounters_twice, seen, m]
      _ = .row ((List.range n).map fun i =>
            (List.range m).map fun j => seen (i * m + j)).flatten := by
          rw [Course.row_flatten, List.map_map]
          simp only [hperiod, Function.comp_def]
      _ = .row ((List.range (n * m)).map seen) := by rw [map_range_mul]

/-! ### Runs -/

/-- Runs of a body one after the other follow a row of its courses. -/
theorem forM_execute (body : Action) (seen : Nat → Context) (ks : List Nat) :
    (ks.forM fun k => body.execute (seen k)) =
      (Course.row (ks.map fun k => body.course (seen k))).perform := by
  rw [Course.perform_row, List.forM_eq_forM, List.forM_eq_forM, List.forM_map]
  simp only [execute_eq_perform]

/-- **A nest of loops runs its body again and again**: the reports of the loops apart, it does
to a calm state what these runs do to it one after the other, and ends as they do, the first
failure being the last run. -/
theorem runFrom_nest (outer : List Int64) (inner : Int64) (body : Action) (context : Context)
    {state : RunState} (h : state.Calm) :
    Prod.map id RunState.withoutLoops
        (runFrom ((nest (outer ++ [inner]) body).execute context) state) =
      Prod.map id RunState.withoutLoops
        (runFrom ((List.range (turns (outer ++ [inner]))).forM fun k =>
          body.execute (context.withLoopCounters (.ofNat (k % inner.toInt.toNat)))) state) := by
  rw [forM_execute body fun k => context.withLoopCounters (.ofNat (k % inner.toInt.toNat)),
    execute_eq_perform, ← Course.runFrom_plain _ h, ← Course.runFrom_plain _ h, plain_nest,
    Course.plain_row, List.map_map]
  rfl

end Action

/-- A run under a recorder without a script ends as its course does, and delivers what the
steps of the course attempt. -/
theorem Course.runFrom_unscripted (course : Course) (start : RunState) :
    let run := runFrom course.perform (start.scripted none none false)
    run.1 = ending course.fault ∧
      run.2.recorded.deliveries.toList = start.recorded.deliveries.toList ++
        (attemptsOf course.steps).map Attempt.delivery := by
  have hn : (start.scripted none none false).notifier =
      .record (start.recorded.scripted none none) := rfl
  have hsteps : takeSteps course.steps _ = _ := takeSteps_ok hn
    (Recorder.accepts_of_none rfl _) (.inl ⟨rfl, Recorder.spares_of_none rfl _⟩)
  have hrun := runFrom_perform_of_ok hsteps
  intro run
  rw [show run = _ from hrun]
  exact ⟨rfl, Array.toList_append⟩

theorem Course.ending_eq_ok {fault : Option (String × ExprError)} :
    ending fault = .ok () ↔ fault = none := by
  cases fault with
  | none => exact iff_of_true rfl rfl
  | some fault => exact iff_of_false nofun nofun

namespace Action

/-- An action that is run by itself. -/
theorem runFrom_alone (action : Action) (context : Context) :
    let run := runFrom (action.execute context) (.recording none none)
    run.1 = Course.ending (action.course context).fault ∧
      run.2.recorded.deliveries.toList = (action.attempts context).map Attempt.delivery := by
  have hrun := (action.course context).runFrom_unscripted (.new (.record (.new none none)))
  rw [← execute_eq_perform] at hrun
  exact hrun

section

variable (body : Action) (seen : Nat → Context) (start : RunState)

/-- What a body sends in one context after the other when nothing breaks its runs off. -/
def sent (ks : List Nat) : List Delivery :=
  ks.flatMap fun k => (body.attempts (seen k)).map Attempt.delivery

theorem deliveries_flatMap (ks : List Nat) :
    (attemptsOf ((ks.map fun k => body.course (seen k)).flatMap Course.steps)).map
      Attempt.delivery = body.sent seen ks := by
  induction ks with
  | nil => rfl
  | cons k ks ih =>
    rw [List.map_cons, List.flatMap_cons, Course.attemptsOf_append, List.map_append, ih]
    rfl

/-- Runs that all succeed, one after the other. -/
theorem runFrom_forM_of_ok {ks : List Nat}
    (h : ∀ k ∈ ks, (body.course (seen k)).fault = none) :
    let run := runFrom (ks.forM fun k => body.execute (seen k)) (start.scripted none none false)
    run.1 = .ok () ∧ run.2.recorded.deliveries.toList =
      start.recorded.deliveries.toList ++ body.sent seen ks := by
  have hrow := Course.runFrom_unscripted (.row (ks.map fun k => body.course (seen k))) start
  have hall : ∀ course ∈ ks.map fun k => body.course (seen k), course.fault = none := by
    intro course hc
    obtain ⟨k, hk, rfl⟩ := List.mem_map.1 hc
    exact h k hk
  rw [forM_execute]
  rw [Course.row_of_ok hall, deliveries_flatMap] at hrow
  rw [Course.row_of_ok hall]
  exact hrow

/-- Runs of which one fails: it is the last. -/
theorem runFrom_forM_of_fault {before : List Nat} (after : List Nat) {k : Nat}
    {fault : String × ExprError} (h : ∀ j ∈ before, (body.course (seen j)).fault = none)
    (hk : (body.course (seen k)).fault = some fault) :
    let run := runFrom ((before ++ k :: after).forM fun k => body.execute (seen k))
      (start.scripted none none false)
    run.1 = Course.ending (some fault) ∧ run.2.recorded.deliveries.toList =
      start.recorded.deliveries.toList ++ body.sent seen (before ++ [k]) := by
  have hrow := Course.runFrom_unscripted
    (.row ((before ++ k :: after).map fun k => body.course (seen k))) start
  have hall : ∀ course ∈ before.map fun k => body.course (seen k), course.fault = none := by
    intro course hc
    obtain ⟨j, hj, rfl⟩ := List.mem_map.1 hc
    exact h j hj
  rw [forM_execute, ← deliveries_flatMap, List.map_append, List.map_append, List.map_cons,
    List.map_singleton, Course.row_of_fault hall hk]
  rw [List.map_append, List.map_cons, Course.row_of_fault hall hk] at hrow
  exact hrow

end

theorem range_eq_append {k total : Nat} (h : k < total) :
    ∃ after, List.range total = List.range k ++ k :: after := by
  obtain ⟨rest, rfl⟩ : ∃ rest, total = k + (rest + 1) := ⟨total - k - 1, by omega⟩
  refine ⟨(List.range rest).map fun j => k + (j + 1), ?_⟩
  rw [List.range_add, List.range_succ_eq_map, List.map_cons, List.map_map]
  rfl

/-- **Nested loops run their body once for each way to count.** Be it `d` loops one inside the
other, with any numbers of iterations, the body is run for `k = 0, 1, ..`, as many times as the
product of the numbers says, and the `k`-th time it sees the counters of the innermost loop
where this has got to; whatever the notifier does, the loops make no difference but by their
reports. A run that fails is the last. So what is delivered by a notifier that never fails is
what the runs of the body deliver, one after the other, and the result is that of the last. -/
theorem nested_run (outer : List Int64) (inner : Int64) (body : Action) (context : Context) :
    let total := turns (outer ++ [inner])
    let seen := fun k : Nat => context.withLoopCounters (.ofNat (k % inner.toInt.toNat))
    let alone := fun k => runFrom (body.execute (seen k)) (.recording none none)
    let nested := runFrom ((nest (outer ++ [inner]) body).execute context)
    let inTurn := runFrom ((List.range total).forM fun k => body.execute (seen k))
    (∀ state : RunState, state.Calm → (nested state).1 = (inTurn state).1 ∧
      (nested state).2.withoutLoops = (inTurn state).2.withoutLoops) ∧
    ∀ start : RunState,
      let run := nested (start.scripted none none false)
      ((∀ k < total, (alone k).1 = .ok ()) → run.1 = .ok () ∧
        run.2.recorded.deliveries.toList = start.recorded.deliveries.toList ++
          (List.range total).flatMap fun k => (alone k).2.recorded.deliveries.toList) ∧
      ∀ k < total, (∀ j < k, (alone j).1 = .ok ()) → ∀ error, (alone k).1 = .error error →
        run.1 = .error error ∧
        run.2.recorded.deliveries.toList = start.recorded.deliveries.toList ++
          (List.range (k + 1)).flatMap fun j => (alone j).2.recorded.deliveries.toList := by
  intro total seen alone nested inTurn
  have hnest : ∀ state : RunState, state.Calm → (nested state).1 = (inTurn state).1 ∧
      (nested state).2.withoutLoops = (inTurn state).2.withoutLoops :=
    fun _ hcalm => Prod.ext_iff.1 (runFrom_nest outer inner body context hcalm)
  refine ⟨hnest, fun start => ?_⟩
  intro run
  have hcalm : (start.scripted none none false).Calm := ⟨rfl, rfl⟩
  obtain ⟨hresult, hlog⟩ := hnest _ hcalm
  have hrecorded : run.2.recorded = (inTurn (start.scripted none none false)).2.recorded := by
    show run.2.withoutLoops.recorded = (inTurn _).2.withoutLoops.recorded
    rw [hlog]
  have halone : ∀ k, (alone k).1 = Course.ending (body.course (seen k)).fault :=
    fun k => (runFrom_alone body (seen k)).1
  have hsent : ∀ ks : List Nat,
      (ks.flatMap fun k => (alone k).2.recorded.deliveries.toList) = body.sent seen ks :=
    fun ks => congrArg ks.flatMap (funext fun k => (runFrom_alone body (seen k)).2)
  have hok : ∀ k, (alone k).1 = .ok () → (body.course (seen k)).fault = none := by
    intro k hk
    rw [halone] at hk
    exact Course.ending_eq_ok.1 hk
  refine ⟨fun hall => ?_, fun k hk hbefore error herror => ?_⟩
  · rw [hresult, hrecorded, hsent]
    exact runFrom_forM_of_ok body seen start fun k hk => hok k (hall k (List.mem_range.1 hk))
  · obtain ⟨after, hrange⟩ := range_eq_append hk
    rw [halone] at herror
    cases hf : (body.course (seen k)).fault with
    | none =>
      rw [hf] at herror
      cases herror
    | some fault =>
      have hfail := runFrom_forM_of_fault body seen start after
        (fun j hj => hok j (hbefore j (List.mem_range.1 hj))) hf
      rw [← hrange, ← hf, herror] at hfail
      rw [hresult, hrecorded, hsent, List.range_succ]
      exact hfail

/-- Two loops around a message: it goes out four times, with the counters of the inner loop. -/
theorem nested_run_two_by_two :
    let start := RunState.recording none none
    let run := runFrom ((nest [2, 2] (send (.sms "+1" none))).execute .empty) start
    run.1 = .ok () ∧ run.2.recorded.deliveries.toList = [0, 1, 0, 1].map fun index =>
      ⟨.sms "+1" none, Context.empty.withLoopCounters index⟩ :=
  ((nested_run [2] 2 (send (.sms "+1" none)) .empty).2 (.recording none none)).1 fun _ _ => rfl

end Action
end ActionTree
