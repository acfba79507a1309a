/-
# Where a course looks whether it was cancelled

A run looks whether it was cancelled before each iteration of a loop and nowhere else.
This is often enough: between two attempts, and between an attempt and a condition
that cannot be evaluated, there is always such a look (`Action.spaced_course`). And it
is no oftener than needed: behind an attempt there is one if and only if a loop around
the attempt has an iteration left to start (`Action.tracks_course`).

Key definitions: `Course.Looks`, `Course.Spaced`, `Course.Tracks`, `Action.MeetsLoop`.
Key theorems: `Action.spaced_course`, `Action.tracks_course`, `Action.looks_course_iff`,
`Action.attemptsOf_opening`.
-/
import ActionTree.Proofs.Run.Steps

namespace ActionTree

open Course (attemptsOf)

namespace Course

/-! ### Looks -/

/-- Whether a row of steps looks if the run was cancelled. -/
def Looks (steps : List Step) : Prop :=
  ∃ step ∈ steps, step.isCheck = true

@[simp] theorem looks_nil : ¬ Looks [] := by
  simp [Looks]

@[simp] theorem looks_report (event : Event) (steps : List Step) :
    Looks (.report event :: steps) ↔ Looks steps := by
  simp [Looks, Step.isCheck]

@[simp] theorem looks_attempt (made : Attempt) (steps : List Step) :
    Looks (.attempt made :: steps) ↔ Looks steps := by
  simp [Looks, Step.isCheck]

@[simp] theorem looks_check (iterations : Int64) (index : Nat) (steps : List Step) :
    Looks (.check iterations index :: steps) := by
  simp [Looks, Step.isCheck]

@[simp] theorem looks_append (first second : List Step) :
    Looks (first ++ second) ↔ Looks first ∨ Looks second := by
  simp only [Looks, List.mem_append, or_and_right, exists_or]

@[simp] theorem looks_within (turn : Turn) (steps : List Step) :
    Looks (steps.map (Step.within turn)) ↔ Looks steps := by
  have h : ∀ step : Step, (step.within turn).isCheck = step.isCheck := by
    intro step
    cases step <;> rfl
  constructor
  · rintro ⟨step, hm, hc⟩
    obtain ⟨inner, hi, rfl⟩ := List.mem_map.1 hm
    exact ⟨inner, hi, h inner ▸ hc⟩
  · rintro ⟨step, hm, hc⟩
    exact ⟨step.within turn, List.mem_map_of_mem hm, (h step).trans hc⟩

theorem isCheck_of_not_looks {steps : List Step} (h : ¬ Looks steps) :
    ∀ step ∈ steps, step.isCheck = false := by
  intro step hm
  exact Bool.eq_false_iff.2 fun hc => h ⟨step, hm, hc⟩

/-! ### Spacing -/

/-- Whether the run may send behind a step: not behind an attempt, before it looks
again. -/
def next? (ready : Bool) : Step → Option Bool
  | .report _ => some ready
  | .check .. => some true
  | .attempt _ => if ready then some false else none

/-- Whether the run may send behind a row of steps; none if one of them was not
allowed to. -/
def readyAfter? (ready : Bool) (steps : List Step) : Option Bool :=
  steps.foldlM next? ready

/-- A course that sends only when it may, and only then ends with a fault. -/
def Spaced (ready : Bool) (course : Course) : Prop :=
  ∃ ready', readyAfter? ready course.steps = some ready' ∧ (course.fault ≠ none → ready' = true)

theorem spaced_done (ready : Bool) : done.Spaced ready :=
  ⟨ready, rfl, fun h => absurd rfl h⟩

theorem Spaced.report {ready : Bool} {course : Course} (h : course.Spaced ready)
    (event : Event) : (course.prepend [.report event]).Spaced ready := h

theorem Spaced.check {course : Course} (h : course.Spaced true) (iterations : Int64)
    (index : Nat) (ready : Bool) : (course.prepend [.check iterations index]).Spaced ready := h

theorem Spaced.andThen {ready : Bool} {first second : Course} (h : first.Spaced ready)
    (h' : ∀ ready, second.Spaced ready) : (first.andThen second).Spaced ready := by
  obtain ⟨steps, fault⟩ := first
  cases fault with
  | some fault => exact h
  | none =>
    obtain ⟨middle, hm, -⟩ := h
    obtain ⟨last, hl, hf⟩ := h' middle
    refine ⟨last, ?_, hf⟩
    show (steps ++ second.steps).foldlM next? ready = some last
    rw [List.foldlM_append, show steps.foldlM next? ready = some middle from hm]
    exact hl

theorem Spaced.within {ready : Bool} {course : Course} (h : course.Spaced ready) (turn : Turn) :
    (course.within turn).Spaced ready := by
  obtain ⟨ready', hr, hf⟩ := h
  have hnext : ∀ ready step, next? ready (step.within turn) = next? ready step := by
    intro ready step
    cases step <;> rfl
  refine ⟨ready', ?_, hf⟩
  show (course.steps.map (Step.within turn)).foldlM next? ready = some ready'
  rw [List.foldlM_map]
  simp only [hnext]
  exact hr

/-- Each iteration begins with a look, so it does not matter what was before. -/
theorem spaced_iterate {iterations : Int64} {body : Context → Course}
    (h : ∀ context, (body context).Spaced true) (context : Context) (remaining index : Nat)
    (ready : Bool) : (iterate iterations body context remaining index).Spaced ready := by
  induction remaining generalizing index ready with
  | zero => exact spaced_done ready
  | succ remaining ih =>
    have hturn := ((h (context.withLoopCounters (.ofNat index))).within
      ⟨iterations.toInt.toNat, index⟩).andThen (ih (index + 1))
    exact (hturn.report _).check iterations index ready

/-- Behind an attempt of a spaced row the run may not send before it looks. -/
theorem readyAfter?_of_append {before after : List Step} {made : Attempt} {ready : Bool}
    (h : readyAfter? true (before ++ .attempt made :: after) = some ready) :
    readyAfter? false after = some ready := by
  unfold readyAfter? at h ⊢
  rw [List.foldlM_append] at h
  obtain ⟨middle, -, h⟩ := Option.bind_eq_some_iff.1 h
  cases middle with
  | false => cases h
  | true => exact h

/-! ### Turns -/

/-- Behind every attempt of a row the run looks again, in the row or further on, if and only
if an iteration around the attempt is not the last. -/
def Tracks (further : Prop) : List Step → Prop
  | [] => True
  | .report _ :: steps => Tracks further steps
  | .check .. :: steps => Tracks further steps
  | .attempt made :: steps =>
    ((Looks steps ∨ further) ↔ ∃ turn ∈ made.turns, ¬ turn.last) ∧ Tracks further steps

theorem tracks_append {further : Prop} {first second : List Step} :
    Tracks further (first ++ second) ↔ Tracks (Looks second ∨ further) first ∧
      Tracks further second := by
  induction first with
  | nil => simp [Tracks]
  | cons step first ih =>
    cases step with
    | report | check => exact ih
    | attempt made => simp only [List.cons_append, Tracks, looks_append, or_assoc, ih, and_assoc]

theorem Tracks.within {further : Prop} {steps : List Step} (h : Tracks further steps)
    (turn : Turn) : Tracks (further ∨ ¬ turn.last) (steps.map (Step.within turn)) := by
  induction steps with
  | nil => trivial
  | cons step steps ih =>
    cases step with
    | report | check => exact ih h
    | attempt made =>
      refine ⟨?_, ih h.2⟩
      show Looks (steps.map (Step.within turn)) ∨ _ ↔ ∃ t ∈ turn :: made.turns, ¬ t.last
      rw [looks_within, ← or_assoc, h.1, or_comm]
      simp only [List.mem_cons, exists_eq_or_imp]

theorem looks_iterate {iterations : Int64} {body : Context → Course} {context : Context}
    {remaining index : Nat} :
    Looks (iterate iterations body context remaining index).steps ↔ 0 < remaining := by
  cases remaining with
  | zero => simp [iterate, done]
  | succ remaining => simp [iterate, prepend]

theorem tracks_iterate {iterations : Int64} {body : Context → Course}
    (h : ∀ context, (body context).fault = none → Tracks False (body context).steps)
    (context : Context) {remaining index : Nat}
    (hi : index + remaining = iterations.toInt.toNat)
    (hf : (iterate iterations body context remaining index).fault = none) :
    Tracks False (iterate iterations body context remaining index).steps := by
  induction remaining generalizing index with
  | zero => trivial
  | succ remaining ih =>
    obtain ⟨hbody, hrest⟩ := fault_andThen hf
    have hlast : False ∨ ¬ (Turn.mk iterations.toInt.toNat index).last ↔
        Looks (iterate iterations body context remaining (index + 1)).steps ∨ False := by
      rw [looks_iterate, false_or, or_false]
      show ¬ iterations.toInt.toNat ≤ index + 1 ↔ 0 < remaining
      omega
    have hturn := (h _ hbody).within ⟨iterations.toInt.toNat, index⟩
    rw [propext hlast] at hturn
    show Tracks False (Course.andThen _ _).steps
    rw [steps_andThen hbody, tracks_append]
    exact ⟨hturn, ih (by omega) hrest⟩

/-! ### Openings -/

/-- The steps in front of the first look. -/
def opening (steps : List Step) : List Step :=
  steps.takeWhile fun step => !step.isCheck

@[simp] theorem opening_report (event : Event) (steps : List Step) :
    opening (.report event :: steps) = .report event :: opening steps := rfl

@[simp] theorem opening_attempt (made : Attempt) (steps : List Step) :
    opening (.attempt made :: steps) = .attempt made :: opening steps := rfl

@[simp] theorem opening_check (iterations : Int64) (index : Nat) (steps : List Step) :
    opening (.check iterations index :: steps) = [] := rfl

theorem opening_of_not_looks {steps : List Step} (h : ¬ Looks steps) : opening steps = steps := by
  induction steps with
  | nil => rfl
  | cons step steps ih =>
    cases step with
    | report event => rw [opening_report, ih (by simpa using h)]
    | check iterations index => exact absurd (looks_check iterations index steps) h
    | attempt made => rw [opening_attempt, ih (by simpa using h)]

/-- Where the run may not send, it looks before it does, and if it does not look, it may
still not send behind the row. -/
theorem opening_of_readyAfter? {steps : List Step} {ready : Bool}
    (h : readyAfter? false steps = some ready) :
    attemptsOf (opening steps) = [] ∧ (¬ Looks steps → ready = false) := by
  induction steps with
  | nil =>
    cases h
    exact ⟨rfl, fun _ => rfl⟩
  | cons step steps ih =>
    cases step with
    | report event => simpa using ih h
    | check iterations index =>
      exact ⟨rfl, fun hl => absurd (looks_check iterations index steps) hl⟩
    | attempt made => cases h

/-- Without a look, a row sends at most once. -/
theorem length_attemptsOf_le {steps : List Step} {ready : Bool}
    (h : readyAfter? true steps = some ready) (hl : ¬ Looks steps) :
    (attemptsOf steps).length ≤ 1 := by
  induction steps with
  | nil => exact Nat.zero_le 1
  | cons step steps ih =>
    cases step with
    | report event => exact ih h (by simpa using hl)
    | check iterations index => exact absurd (looks_check iterations index steps) hl
    | attempt made =>
      have hl' : ¬ Looks steps := by simpa using hl
      have hopening := (opening_of_readyAfter? h).1
      rw [opening_of_not_looks hl'] at hopening
      rw [attemptsOf_attempt, hopening]
      exact Nat.le_refl 1

/-- A loop looks before it sends. -/
theorem attemptsOf_opening_iterate {iterations : Int64} {body : Context → Course}
    {context : Context} {remaining index : Nat} (rest : List Step) (h : 0 < remaining) :
    attemptsOf (opening ((iterate iterations body context remaining index).steps ++ rest)) =
      [] := by
  cases remaining with
  | zero => cases h
  | succ remaining => rfl

theorem exists_steps_andThen (first second : Course) :
    ∃ rest, (first.andThen second).steps = first.steps ++ rest ∧
      (Looks rest → Looks second.steps) := by
  obtain ⟨steps, fault⟩ := first
  cases fault with
  | none => exact ⟨second.steps, rfl, id⟩
  | some fault => exact ⟨[], (List.append_nil _).symm, fun h => absurd h looks_nil⟩

/-- A loop looks if it has an iteration, and then before it sends. -/
theorem looks_loop {iterations : Int64} {body : Context → Course} {context : Context}
    {count : Nat} {event : Event} :
    let loop := (iterate iterations body context count 0).andThen (prepend [.report event] done)
    (Looks loop.steps ↔ 0 < count) ∧ (0 < count → attemptsOf (opening loop.steps) = []) := by
  intro loop
  obtain ⟨rest, hs, hr⟩ := exists_steps_andThen (iterate iterations body context count 0)
    (prepend [.report event] done)
  have hrest : ¬ Looks rest := fun h => by simpa [prepend, done] using hr h
  show (Looks (andThen _ _).steps ↔ _) ∧ (_ → attemptsOf (opening (andThen _ _).steps) = [])
  rw [hs, looks_append, looks_iterate]
  exact ⟨or_iff_left hrest, attemptsOf_opening_iterate rest⟩

end Course

namespace Action

/-! ### Courses of actions -/

/-- Between two attempts of a run, and between an attempt and a fault, there is a look. -/
theorem spaced_course (action : Action) (context : Context) :
    (action.course context).Spaced true := by
  apply course_induct (motive := Course.Spaced true)
  case done => exact Course.spaced_done true
  case fault => exact fun fault => ⟨true, rfl, fun _ => rfl⟩
  case attempt => exact fun delivery => ⟨false, rfl, fun h => absurd rfl h⟩
  case report => exact fun event course h => h.report event
  case loop =>
    intro iterations body context h
    exact (Course.spaced_iterate h context _ 0 true).andThen Course.spaced_done

/-- Behind an attempt of a run there is a look for every iteration left around it, and for
nothing else. -/
theorem tracks_course (action : Action) (context : Context)
    (hf : (action.course context).fault = none) :
    Course.Tracks False (action.course context).steps := by
  revert hf
  apply course_induct (motive := fun course =>
    course.fault = none → Course.Tracks False course.steps)
  case done => exact fun _ => trivial
  case fault => exact fun fault _ => trivial
  case attempt => exact fun delivery _ => ⟨by simp, trivial⟩
  case report => exact fun event course h => h
  case loop =>
    intro iterations body context h hf
    obtain ⟨hloop, -⟩ := Course.fault_andThen hf
    have htracks := Course.tracks_iterate h context (Nat.zero_add _) hloop
    rw [Course.steps_andThen hloop, Course.tracks_append]
    exact ⟨by simpa [Course.prepend, Course.done] using htracks, trivial⟩

/-- A run that looks at all does so before it sends. -/
theorem attemptsOf_opening (action : Action) (context : Context)
    (h : Course.Looks (action.course context).steps) :
    attemptsOf (Course.opening (action.course context).steps) = [] := by
  revert h
  apply course_induct (motive := fun course =>
    Course.Looks course.steps → attemptsOf (Course.opening course.steps) = [])
  case done => exact fun _ => rfl
  case fault => exact fun fault _ => rfl
  case attempt => exact fun delivery h => by simp at h
  case report => exact fun event course h hl => h (by simpa [Course.prepend] using hl)
  case loop =>
    exact fun iterations body context _ hl => Course.looks_loop.2 (Course.looks_loop.1.1 hl)

/-- Following the branches that the conditions choose, one meets a loop with a body and at
least one iteration. -/
inductive MeetsLoop (context : Context) : Action → Prop where
  | loop {iterations : Int64} {body : Action} : 1 ≤ iterations →
      MeetsLoop context (.loop iterations (some body))
  | onTrue {expression : String} {action : Action} {onFalse : Option Action} :
      Expr.holds context expression = .ok true → MeetsLoop context action →
      MeetsLoop context (.condition expression (some action) onFalse)
  | onFalse {expression : String} {onTrue : Option Action} {action : Action} :
      Expr.holds context expression = .ok false → MeetsLoop context action →
      MeetsLoop context (.condition expression onTrue (some action))

theorem meetsLoop_condition_iff {context : Context} {expression : String}
    {onTrue onFalse : Option Action} {result : Bool}
    (h : Expr.holds context expression = .ok result) :
    MeetsLoop context (.condition expression onTrue onFalse) ↔
      ∃ action ∈ (if result then onTrue else onFalse), MeetsLoop context action := by
  constructor
  · intro hm
    cases hm with
    | onTrue ht hm | onFalse hf hm =>
      cases h.symm.trans ‹_›
      exact ⟨_, rfl, hm⟩
  · rintro ⟨action, ha, hm⟩
    cases result with
    | true =>
      cases (show onTrue = some action from ha)
      exact .onTrue h hm
    | false =>
      cases (show onFalse = some action from ha)
      exact .onFalse h hm

theorem one_le_iff (iterations : Int64) : 1 ≤ iterations ↔ 0 < iterations.toInt.toNat := by
  rw [Int64.le_iff_toInt_le]
  show (1 : Int) ≤ iterations.toInt ↔ _
  omega

/-- A run looks if and only if it comes to such a loop. -/
theorem looks_course_iff (action : Action) (context : Context) :
    Course.Looks (action.course context).steps ↔ action.MeetsLoop context := by
  induction action using Action.induct with
  | send message => exact ⟨fun h => by simp [course] at h, fun h => by cases h⟩
  | condition expression onTrue onFalse iht ihf =>
    unfold course
    cases hholds : Expr.holds context expression with
    | error source =>
      refine ⟨fun h => by simp at h, fun h => ?_⟩
      cases h with
      | onTrue h | onFalse h => rw [hholds] at h; cases h
    | ok result =>
      rw [meetsLoop_condition_iff hholds]
      cases result with
      | true =>
        cases onTrue with
        | none => simp [Course.prepend, Course.done]
        | some action => simpa [Course.prepend] using iht action rfl
      | false =>
        cases onFalse with
        | none => simp [Course.prepend, Course.done]
        | some action => simpa [Course.prepend] using ihf action rfl
  | loop iterations body ih =>
    unfold course
    cases body with
    | none => exact ⟨fun h => by simp [Course.prepend, Course.done] at h, fun h => by cases h⟩
    | some action =>
      show Course.Looks (.report _ :: (Course.andThen _ _).steps) ↔ _
      rw [Course.looks_report, Course.looks_loop.1, ← one_le_iff]
      exact ⟨.loop, fun h => by cases h with | loop h => exact h⟩

end Action
end ActionTree
