/-
# No run blames the form

An error is structural if the form of a document is at fault. Reading and checking a document
end with no other error, and running an action ends with none of this kind: what a run throws
itself are errors of evaluation, of delivery and of cancellation, and whatever is put together
from such computations fails in no other way (`Execution.Blameless.bind`).

Key definition: `Execution.Blameless`.
Key theorems: `Action.blameless_iterate`, `Action.blameless_execute`.
-/
import ActionTree.Proofs.Run.Steps

namespace ActionTree

open Execution (emit notify runFrom)

namespace Execution

variable {α β : Type}

/-- A computation fails, if it does, with an error for which the form is not to blame. -/
def Blameless (execution : Execution α) : Prop :=
  ∀ ⦃state final : RunState⦄ ⦃error : Error⦄,
    runFrom execution state = (.error error, final) → error.structural = false

namespace Blameless

theorem pure (value : α) : Blameless (pure value) := by
  intro state final error h
  cases h

theorem throw {error : Error} (h : error.structural = false) :
    Blameless (throw error : Execution α) := by
  intro state final error' h'
  cases h'
  exact h

theorem get : Blameless get := by
  intro state final error h
  cases h

theorem set (next : RunState) : Blameless (set next) := by
  intro state final error h
  cases h

theorem emit (event : Event) : Blameless (emit event) := by
  intro state final error h
  cases h

theorem bind {execution : Execution α} {next : α → Execution β} (h : Blameless execution)
    (hn : ∀ value, Blameless (next value)) : Blameless (execution >>= next) := by
  intro state final error hrun
  rcases hfirst : runFrom execution state with ⟨error' | value, middle⟩
  · rw [runFrom_bind_of_error hfirst] at hrun
    cases hrun
    exact h hfirst
  · rw [runFrom_bind_of_ok hfirst] at hrun
    exact hn value hrun

/-- What a notifier reports is the failure of a delivery. -/
theorem notify (message : Message) (context : Context) : Blameless (notify message context) := by
  refine bind get fun state => ?_
  cases state.notifier with
  | log => exact emit _
  | record recorder =>
    refine bind (set _) fun _ => ?_
    cases recorder.fails with
    | false => exact pure ()
    | true => exact throw rfl

end Blameless
end Execution

open Execution (Blameless)

namespace Action

/-- One iteration adds an error of cancellation to those of the body; and so do all. -/
theorem blameless_iterate (iterations : Int64) {body : Context → Execution Unit}
    (h : ∀ context, Blameless (body context)) (context : Context) (remaining index : Nat) :
    Blameless (iterate iterations body context remaining index) := by
  induction remaining generalizing index with
  | zero => exact .pure ()
  | succ remaining ih =>
    have hturn : Blameless (do
        emit (.loopIteration (.ofNat (index + 1)) iterations)
        body (context.withLoopCounters (.ofNat index))
        iterate iterations body context remaining (index + 1)) :=
      .bind (.emit _) fun _ => .bind (h _) fun _ => ih (index + 1)
    refine .bind .get fun state => ?_
    cases state.cancelled with
    | false => exact hturn
    | true => exact .bind (.emit _) fun _ => .throw rfl

/-- **No run of an action blames the form.** -/
theorem blameless_execute (action : Action) (context : Context) :
    Blameless (action.execute context) := by
  induction action using Action.induct generalizing context with
  | send message =>
    unfold execute
    exact .bind (.emit _) fun _ => .notify message context
  | condition expression onTrue onFalse iht ihf =>
    unfold execute
    refine .bind (.emit _) fun _ => ?_
    cases Expr.holds context expression with
    | error source => exact .throw rfl
    | ok result =>
      refine .bind (.emit _) fun _ => ?_
      cases result with
      | true =>
        cases onTrue with
        | none => exact .emit _
        | some child => exact .bind (.emit _) fun _ => iht child rfl context
      | false =>
        cases onFalse with
        | none => exact .emit _
        | some child => exact .bind (.emit _) fun _ => ihf child rfl context
  | loop iterations body ih =>
    unfold execute
    refine .bind (.emit _) fun _ => ?_
    cases body with
    | none => exact .emit _
    | some child =>
      exact .bind (blameless_iterate iterations (ih child rfl) context _ 0) fun _ => .emit _

end Action

end ActionTree
