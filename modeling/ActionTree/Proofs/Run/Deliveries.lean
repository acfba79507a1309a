/-
# What a delivery carries

A message is recorded as the leaf has it that sends it, and along with it the context that
this leaf sees: the one of the tree, but inside of loops with the counters of an iteration
of the innermost one. However a run ends, it records no other deliveries than those of its
course, in their order.

Key theorems: `Action.exists_leaf_of_attempt`, `Action.recorded_runFrom`,
`Tree.delivered_from_leaf`.
-/
import ActionTree.Proofs.Action.Places
import ActionTree.Proofs.Run.Failure
import ActionTree.Proofs.Run.Stops
import ActionTree.Proofs.Run.Verdict

namespace ActionTree

open Course (attemptsOf)
open Execution (runFrom)

/-! ### Contexts inside of loops -/

namespace Context

variable {context seen : Context} {name : String} {around : Option Int64}

theorem get?_withLoopCounters_of_ne (index : Int64) (hi : name ≠ loopIndex)
    (ht : name ≠ loopIteration) :
    (context.withLoopCounters index).get? name = context.get? name := by
  unfold withLoopCounters get? set
  rw [Fields.get?_set_of_ne _ _ ht, Fields.get?_set_of_ne _ _ hi]

theorem get?_loopIndex (context : Context) (index : Int64) :
    (context.withLoopCounters index).get? loopIndex = some (.ofInt64 index) := by
  have hne : loopIndex ≠ loopIteration := String.ne_of_lt loopIndex_lt_loopIteration
  unfold withLoopCounters get? set
  rw [Fields.get?_set_of_ne _ _ hne, Fields.get?_set_self]

theorem get?_loopIteration (context : Context) (index : Int64) :
    (context.withLoopCounters index).get? loopIteration = some (.ofInt64 (index + 1)) := by
  unfold withLoopCounters get? set
  rw [Fields.get?_set_self]

/-- The number of an iteration is one more than its index: there is no overflow, since the
index is less than the number of iterations. -/
theorem toInt_succ {index iterations : Int64} (h : index < iterations) :
    (index + 1).toInt = index.toInt + 1 := by
  have hlt : index.toInt < iterations.toInt := Int64.lt_iff_toInt_lt.1 h
  have hmax : iterations.toInt < 2 ^ 63 := Int64.toInt_lt iterations
  have hmin : -2 ^ 63 ≤ index.toInt := Int64.le_toInt index
  have hone : (1 : Int64).toInt = 1 := rfl
  rw [Int64.toInt_add, hone]
  apply Int.bmod_eq_of_le <;> omega

/-- Loops do not touch the other variables. -/
theorem SeenIn.get?_of_ne (h : context.SeenIn around seen) (hi : name ≠ loopIndex)
    (ht : name ≠ loopIteration) : seen.get? name = context.get? name := by
  cases around with
  | none => rw [show seen = context from h]
  | some iterations =>
    obtain ⟨index, -, -, rfl⟩ := h
    exact get?_withLoopCounters_of_ne index hi ht

end Context

/-! ### Attempts -/

namespace Course

variable {made : Attempt}

theorem exists_attempt_of_within {turn : Turn} {steps : List Step}
    (h : made ∈ attemptsOf (steps.map (Step.within turn))) :
    ∃ inner ∈ attemptsOf steps, inner.delivery = made.delivery := by
  induction steps with
  | nil => cases h
  | cons step steps ih =>
    cases step with
    | report event => exact ih h
    | check iterations index => exact ih h
    | attempt inner =>
      obtain rfl | h := List.mem_cons.1 h
      · exact ⟨inner, .head _, rfl⟩
      · obtain ⟨other, hm, hd⟩ := ih h
        exact ⟨other, .tail _ hm, hd⟩

theorem mem_attemptsOf_andThen {first second : Course}
    (h : made ∈ attemptsOf (first.andThen second).steps) :
    made ∈ attemptsOf first.steps ∨ made ∈ attemptsOf second.steps := by
  obtain ⟨step, hstep, hmade⟩ := List.mem_filterMap.1 h
  obtain hfirst | hsecond := mem_andThen hstep
  · exact .inl (List.mem_filterMap.2 ⟨step, hfirst, hmade⟩)
  · exact .inr (List.mem_filterMap.2 ⟨step, hsecond, hmade⟩)

/-- A message that a loop sends is sent in one of its iterations. -/
theorem exists_turn_of_attempt {iterations : Int64} {body : Context → Course} {context : Context}
    {remaining index : Nat}
    (h : made ∈ attemptsOf (iterate iterations body context remaining index).steps) :
    ∃ k < index + remaining, ∃ inner ∈ attemptsOf (body (context.withLoopCounters (.ofNat k))).steps,
      inner.delivery = made.delivery := by
  induction remaining generalizing index with
  | zero => cases h
  | succ remaining ih =>
    obtain hturn | hrest := mem_attemptsOf_andThen h
    · exact ⟨index, by omega, exists_attempt_of_within hturn⟩
    · obtain ⟨k, hk, hinner⟩ := ih hrest
      exact ⟨k, by omega, hinner⟩

/-- Behind steps that were taken, those attempts are recorded that a recorder was there
for: all of them or none. -/
theorem deliveries_of_takeSteps_ok {steps : List Step} {state final : RunState}
    (h : takeSteps steps state = (.ok (), final)) :
    ∃ made, made <+: attemptsOf steps ∧ final.recorded.deliveries =
      state.recorded.deliveries ++ (made.map Attempt.delivery).toArray := by
  cases hn : state.notifier with
  | log withContext =>
    have hfinal : final.notifier = .log withContext := notifier_takeSteps_of_log hn h
    refine ⟨[], List.nil_prefix, ?_⟩
    rw [RunState.recorded, RunState.recorded, hfinal, hn]
    rfl
  | record recorder =>
    refine ⟨attemptsOf steps, List.prefix_rfl, ?_⟩
    rw [eq_after_of_takeSteps_ok hn h, RunState.recorded_of_record hn]
    rfl

end Course

namespace Action

/-- **Every message comes from a leaf**, and goes along with a context that the leaf sees. -/
theorem exists_leaf_of_attempt {action : Action} {context : Context} {made : Attempt}
    (h : made ∈ action.attempts context) :
    ∃ around, (send made.delivery.message).StandsIn around action ∧
      context.SeenIn around made.delivery.context := by
  unfold attempts at h
  induction action using Action.induct generalizing context made with
  | send message =>
    obtain rfl := List.mem_singleton.1 h
    exact ⟨none, .root, rfl⟩
  | condition expression onTrue onFalse iht ihf =>
    unfold course at h
    cases hholds : Expr.holds context expression with
    | error source =>
      rw [hholds] at h
      cases h
    | ok result =>
      rw [hholds] at h
      cases result with
      | true =>
        cases onTrue with
        | none => cases h
        | some child =>
          obtain ⟨around, hstands, hseen⟩ := iht child rfl h
          exact ⟨around, .onTrue hstands, hseen⟩
      | false =>
        cases onFalse with
        | none => cases h
        | some child =>
          obtain ⟨around, hstands, hseen⟩ := ihf child rfl h
          exact ⟨around, .onFalse hstands, hseen⟩
  | loop iterations body ih =>
    unfold course at h
    cases body with
    | none => cases h
    | some child =>
      obtain hloop | hend := Course.mem_attemptsOf_andThen h
      · obtain ⟨k, hk, inner, hinner, hdelivery⟩ := Course.exists_turn_of_attempt hloop
        obtain ⟨around, hstands, hseen⟩ := ih child rfl hinner
        rw [hdelivery] at hstands hseen
        exact ⟨_, .body hstands, hseen.of_iteration (by omega)⟩
      · cases hend

theorem prefix_attempts {action : Action} {context : Context} {before after : List Step}
    {step : Step} (h : (action.course context).steps = before ++ step :: after) :
    attemptsOf before <+: action.attempts context := by
  rw [attempts, h, Course.attemptsOf_append]
  exact List.prefix_append _ _

/-- However a run ends, behind the deliveries that were there before it has recorded some of
its attempts, from the first on. -/
theorem recorded_runFrom (action : Action) (context : Context) (state : RunState) :
    ∃ made, made <+: action.attempts context ∧
      (runFrom (action.execute context) state).2.recorded.deliveries =
        state.recorded.deliveries ++ (made.map Attempt.delivery).toArray := by
  obtain ⟨final, hall, hrun⟩ |
      ⟨iterations, index, middle, ⟨before, after, hsteps, hbefore⟩, -, hrun⟩ |
      ⟨failed, middle, recorder, ⟨before, after, hsteps, hbefore⟩, hlast, hfails, hrun⟩ :=
    action.runFrom_cases context state
  · obtain ⟨made, hmade, hdeliveries⟩ := Course.deliveries_of_takeSteps_ok hall
    exact ⟨made, hmade, by rw [hrun, hdeliveries]⟩
  · obtain ⟨made, hmade, hdeliveries⟩ := Course.deliveries_of_takeSteps_ok hbefore
    refine ⟨made, hmade.trans (prefix_attempts hsteps), ?_⟩
    rw [hrun, ← hdeliveries]
    rfl
  · obtain ⟨made, hmade, hdeliveries⟩ := Course.deliveries_of_takeSteps_ok hbefore
    refine ⟨made, hmade.trans (prefix_attempts hsteps), ?_⟩
    rw [hrun, ← hdeliveries, RunState.recorded_of_record hlast,
      Recorder.attempt_of_fails hfails]
    rfl

end Action

namespace Tree

/-- A tree records what its root records. -/
theorem deliveries_runFrom (tree : Tree) (state : RunState) :
    ∃ made, made <+: tree.root.attempts tree.context ∧
      (runFrom tree.execute state).2.recorded.deliveries =
        state.recorded.deliveries ++ (made.map Attempt.delivery).toArray := by
  obtain ⟨made, hmade, hdeliveries⟩ := tree.root.recorded_runFrom tree.context
    (state.report (.treeStarted tree.root.kind tree.context.size))
  refine ⟨made, hmade, ?_⟩
  rw [runFrom_execute]
  generalize runFrom (tree.root.execute tree.context) _ = root at hdeliveries
  obtain ⟨error | _, after⟩ := root
  · exact hdeliveries
  · exact hdeliveries

/-- **What a delivery carries.** However a run of a tree ends, what it records behind the
deliveries before are messages of leaves of the tree. Each goes along with the context of
the tree, but for the two counters. Without a loop around the leaf these too are as in the
tree; otherwise they are the index and the number of an iteration of the innermost loop,
whatever the tree or the loops around have under their names. -/
theorem delivered_from_leaf (tree : Tree) (state : RunState) :
    let final := (runFrom tree.execute state).2
    ∃ sent : List Delivery,
      final.recorded.deliveries = state.recorded.deliveries ++ sent.toArray ∧
      ∀ delivery ∈ sent, ∃ around,
        (Action.send delivery.message).StandsIn around tree.root ∧
        (∀ name, name ≠ Context.loopIndex → name ≠ Context.loopIteration →
          delivery.context.get? name = tree.context.get? name) ∧
        match around with
        | none => delivery.context = tree.context
        | some iterations => ∃ index number : Int64,
          0 ≤ index ∧ index < iterations ∧ number.toInt = index.toInt + 1 ∧
          delivery.context.get? Context.loopIndex = some (.ofInt64 index) ∧
          delivery.context.get? Context.loopIteration = some (.ofInt64 number) := by
  intro final
  obtain ⟨made, hmade, hdeliveries⟩ := tree.deliveries_runFrom state
  refine ⟨made.map Attempt.delivery, hdeliveries, fun delivery hm => ?_⟩
  obtain ⟨attempt, hattempt, rfl⟩ := List.mem_map.1 hm
  obtain ⟨around, hstands, hseen⟩ := Action.exists_leaf_of_attempt (hmade.mem hattempt)
  refine ⟨around, hstands, fun name => hseen.get?_of_ne, ?_⟩
  cases around with
  | none => exact hseen
  | some iterations =>
    obtain ⟨index, hle, hlt, hcontext⟩ := hseen
    rw [hcontext]
    exact ⟨index, index + 1, hle, hlt, Context.toInt_succ hlt, Context.get?_loopIndex _ index,
      Context.get?_loopIteration _ index⟩

end Tree
end ActionTree
