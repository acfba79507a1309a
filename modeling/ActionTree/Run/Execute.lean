/-
# Running actions and trees

* `Action.execute`: runs an action in a context.
* `Action.iterate`: runs the iterations of a loop.
* `Tree.execute`: runs a tree.
-/
import ActionTree.Expr.Eval
import ActionTree.Run.State
import ActionTree.Tree

namespace ActionTree

open Execution (emit notify)

/-- Runs `remaining` iterations of a loop, beginning with the one of the given
index. Each sees the counters in its context. A cancelled run ends before the
next iteration. -/
def Action.iterate (iterations : Int64) (body : Context → Execution Unit) (context : Context) :
    Nat → Nat → Execution Unit
  | 0, _ => pure ()
  | remaining + 1, index => do
    if (← get).cancelled then
      emit (.loopCancelled (.ofNat index) iterations)
      throw .cancelled
    emit (.loopIteration (.ofNat (index + 1)) iterations)
    body (context.withLoopCounters (.ofNat index))
    iterate iterations body context remaining (index + 1)

/-- Runs an action in a context. The first error ends the run. -/
def Action.execute : Action → Context → Execution Unit
  | .send message, context => do
    emit (.dispatching message)
    notify message context
  | .condition expression onTrue onFalse, context => do
    emit (.evaluating expression)
    match Expr.holds context expression with
    | .error source => throw (.evaluation expression source)
    | .ok result =>
      emit (.evaluated expression result)
      if result then match onTrue with
        | some action => do emit (.branchTaken true); action.execute context
        | none => emit (.branchMissing true)
      else match onFalse with
        | some action => do emit (.branchTaken false); action.execute context
        | none => emit (.branchMissing false)
  | .loop iterations body, context => do
    emit (.loopStarted iterations)
    match body with
    | none => emit .loopEmpty
    | some action =>
      iterate iterations (fun context => action.execute context) context iterations.toInt.toNat 0
      emit (.loopCompleted iterations)

/-- Runs a tree: its root in its context. -/
def Tree.execute (tree : Tree) : Execution Unit := do
  emit (.treeStarted tree.root.kind tree.context.size)
  tree.root.execute tree.context
  emit (.treeCompleted tree.root.kind)

end ActionTree
