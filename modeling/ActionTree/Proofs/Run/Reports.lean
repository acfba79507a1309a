/-
# What the nodes of a tree report

While an action runs, its nodes report what they do. The other events come from elsewhere:
the beginning and the end of a run from the tree, its failure from the outcome, the end of a
cancelled loop from the look before an iteration, and what goes into the log as a message
from the notifier. So what a run says of these is not mixed up with the reports of its nodes.

Key definitions: `Event.ofNode`, `Course.OfNodes`.
Key theorem: `Action.ofNodes_course`.
-/
import ActionTree.Proofs.Run.Steps

namespace ActionTree

/-- Whether an event is one that a node reports. -/
def Event.ofNode : Event → Bool
  | treeStarted .. | treeCompleted .. | runFailed .. | loopCancelled .. | sending .. => false
  | evaluating .. | evaluated .. | branchTaken .. | branchMissing .. | loopStarted ..
  | loopEmpty | loopIteration .. | loopCompleted .. | dispatching .. => true

/-- Whether a step is one of a node, as far as it is a report. -/
def Step.ofNode : Step → Bool
  | report event => event.ofNode
  | check .. | attempt _ => true

@[simp] theorem Step.ofNode_within (turn : Turn) (step : Step) :
    (step.within turn).ofNode = step.ofNode := by
  cases step <;> rfl

namespace Course

/-- No other events are reported than those of nodes. -/
def OfNodes (course : Course) : Prop :=
  ∀ step ∈ course.steps, step.ofNode = true

theorem ofNodes_done : done.OfNodes :=
  List.forall_mem_nil _

theorem OfNodes.prepend {course : Course} (h : course.OfNodes) {steps : List Step}
    (hs : ∀ step ∈ steps, step.ofNode = true) : (course.prepend steps).OfNodes :=
  List.forall_mem_append.2 ⟨hs, h⟩

theorem OfNodes.andThen {first second : Course} (h : first.OfNodes) (h' : second.OfNodes) :
    (first.andThen second).OfNodes := by
  intro step hm
  obtain hfirst | hsecond := mem_andThen hm
  · exact h step hfirst
  · exact h' step hsecond

theorem OfNodes.within {course : Course} (h : course.OfNodes) (turn : Turn) :
    (course.within turn).OfNodes := by
  intro step hm
  obtain ⟨inner, hi, rfl⟩ := List.mem_map.1 hm
  rw [Step.ofNode_within]
  exact h inner hi

theorem ofNodes_iterate {iterations : Int64} {body : Context → Course}
    (h : ∀ context, (body context).OfNodes) (context : Context) (remaining index : Nat) :
    (iterate iterations body context remaining index).OfNodes := by
  induction remaining generalizing index with
  | zero => exact ofNodes_done
  | succ remaining ih =>
    have hturn := ((h (context.withLoopCounters (.ofNat index))).within
      ⟨iterations.toInt.toNat, index⟩).andThen (ih (index + 1))
    exact hturn.prepend (by simp [Step.ofNode, Event.ofNode])

/-- The events of such a course, up to any of its steps, are those of nodes. -/
theorem OfNodes.events {course : Course} (h : course.OfNodes) {before : List Step}
    (hb : before <+: course.steps) : ∀ event ∈ eventsOf before, event.ofNode = true := by
  intro event hm
  obtain ⟨step, hs, he⟩ := List.mem_filterMap.1 hm
  have hstep := h step (hb.mem hs)
  cases step with
  | report reported =>
    cases he
    exact hstep
  | check | attempt => cases he

end Course

/-- **An action reports nothing but the events of its nodes.** -/
theorem Action.ofNodes_course (action : Action) (context : Context) :
    (action.course context).OfNodes := by
  apply course_shapes (motive := Course.OfNodes)
  case message => simp [Course.OfNodes, Step.ofNode, Event.ofNode]
  case unevaluated => simp [Course.OfNodes, Step.ofNode, Event.ofNode]
  case missing => simp [Course.OfNodes, Step.ofNode, Event.ofNode]
  case empty => simp [Course.OfNodes, Step.ofNode, Event.ofNode]
  case branch =>
    exact fun expression result course h => h.prepend (by simp [Step.ofNode, Event.ofNode])
  case loop =>
    intro iterations body context h
    have hend : (Course.prepend [.report (.loopCompleted iterations)] .done).OfNodes :=
      Course.ofNodes_done.prepend (by simp [Step.ofNode, Event.ofNode])
    have hloop : (Course.iterate iterations body context iterations.toInt.toNat 0).OfNodes :=
      Course.ofNodes_iterate h context _ 0
    exact (hloop.andThen hend).prepend (by simp [Step.ofNode, Event.ofNode])

end ActionTree
