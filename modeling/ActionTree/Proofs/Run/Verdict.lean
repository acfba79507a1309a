/-
# A document is run as it was checked

A document can be checked, and it can be run, by functions that read it each for itself.
They agree on every document. One that is refused by the check is refused by the run for
the same reason, which lies in its form, and nothing is done; one that passes is run as
its root action is in its context, and what then goes wrong is no matter of form, as no run
of an action blames it (`Action.blameless_execute`).

Key definitions: `Tree.opened`, `Tree.closed`.
Key theorems: `Tree.check_cases`, `Tree.structural_of_check_error`, `Tree.attempt_of_check_error`,
`Tree.run_of_wellFormed`, `Tree.run_follows_check`.
-/
import ActionTree.Proofs.Run.Change
import ActionTree.Proofs.Run.Form
import ActionTree.Run.Outcome

namespace ActionTree

open Event (logOf)
open Execution (runFrom)

namespace Verdict

variable (explain : String → String) (outcome : Except Error Unit)

/-- A verdict names an error if and only if it is not a success. -/
theorem error_eq_none_iff :
    (ofOutcome explain outcome).error = none ↔ (ofOutcome explain outcome).success = true := by
  cases outcome <;> simp [ofOutcome]

theorem success_iff : (ofOutcome explain outcome).success = true ↔ outcome = .ok () := by
  cases outcome <;> simp [ofOutcome]

theorem success_eq_false_iff :
    (ofOutcome explain outcome).success = false ↔ ∃ error, outcome = .error error := by
  cases outcome <;> simp [ofOutcome]

end Verdict

namespace Tree

variable {json : Json} {tree : Tree} {error : Error}

/-! ### Checking -/

theorem structural_of_contextOf_error (h : contextOf json = .error error) :
    error.structural = true := by
  unfold contextOf at h
  split at h
  · cases h
  · split at h <;> cases h
    rfl

/-- Only the form of a document is at fault if it cannot be read. -/
theorem structural_of_ofJson_error (h : ofJson json = .error error) : error.structural = true := by
  unfold ofJson at h
  split at h
  · cases h
    rfl
  · rename_i value _
    cases hroot : Action.ofJson value with
    | error fault =>
      rw [hroot] at h
      cases h
      rfl
    | ok root =>
      rw [hroot] at h
      cases hcontext : contextOf json with
      | error fault =>
        rw [hcontext] at h
        cases h
        exact structural_of_contextOf_error hcontext
      | ok context =>
        rw [hcontext] at h
        cases h

/-- What a check can find. -/
theorem check_cases (json : Json) :
    (∃ error, ofJson json = .error error ∧ check json = .error error) ∨
    ∃ tree, ofJson json = .ok tree ∧
      (tree.wellFormed = false ∧ check json = .error .invalidStructure ∨
        tree.wellFormed = true ∧ check json = .ok ()) := by
  unfold check
  cases ofJson json with
  | error error => exact .inl ⟨error, rfl, rfl⟩
  | ok tree =>
    refine .inr ⟨tree, rfl, ?_⟩
    cases hw : tree.wellFormed with
    | false => exact .inl ⟨rfl, by simp [hw]⟩
    | true => exact .inr ⟨rfl, by simp [hw]⟩

/-- Only the form of a document is checked. -/
theorem structural_of_check_error (h : check json = .error error) : error.structural = true := by
  obtain ⟨error, hj, hc⟩ | ⟨tree, -, ⟨-, hc⟩ | ⟨-, hc⟩⟩ := check_cases json
  · rw [hc] at h
    cases h
    exact structural_of_ofJson_error hj
  · rw [hc] at h
    cases h
    rfl
  · rw [hc] at h
    cases h

theorem exists_tree_of_check_ok (h : check json = .ok ()) :
    ∃ tree, ofJson json = .ok tree ∧ tree.wellFormed = true := by
  obtain ⟨error, -, hc⟩ | ⟨tree, hj, ⟨-, hc⟩ | ⟨hw, -⟩⟩ := check_cases json
  · rw [hc] at h
    cases h
  · rw [hc] at h
    cases h
  · exact ⟨tree, hj, hw⟩

/-! ### Attempts to run a document -/

theorem attempt_of_ofJson_error (h : ofJson json = .error error) :
    attempt json = throw error := by
  unfold attempt
  rw [h]
  rfl

theorem attempt_of_ofJson_ok (h : ofJson json = .ok tree) :
    attempt json = if tree.wellFormed then tree.execute else throw .invalidStructure := by
  unfold attempt
  rw [h]
  show (if tree.wellFormed then _ else _) = _
  cases tree.wellFormed <;> rfl

/-- A document that is refused by the check is refused before anything is done. -/
theorem attempt_of_check_error (h : check json = .error error) (state : RunState) :
    runFrom (attempt json) state = (.error error, state) := by
  obtain ⟨error, hj, hc⟩ | ⟨tree, hj, ⟨hw, hc⟩ | ⟨-, hc⟩⟩ := check_cases json
  · rw [hc] at h
    cases h
    rw [attempt_of_ofJson_error hj]
    rfl
  · rw [hc] at h
    cases h
    rw [attempt_of_ofJson_ok hj, hw]
    rfl
  · rw [hc] at h
    cases h

/-- A document that passes the check is run, whatever comes of it. -/
theorem attempt_of_wellFormed (hj : ofJson json = .ok tree) (hw : tree.wellFormed = true) :
    attempt json = tree.execute := by
  rw [attempt_of_ofJson_ok hj, if_pos hw]

/-! ### The span of a run -/

/-- The state inside the span of a run. -/
def opened (state : RunState) : RunState :=
  { state with span := some .treeRun }

/-- What a run leaves behind that ended in a state of its span: a failure is reported, and
the span is left for the one around it. -/
def closed (outer : Option Span) :
    Except Error Unit × RunState → Except Error Unit × RunState
  | (.ok (), state) => (.ok (), { state with span := outer })
  | (.error error, state) =>
    (.error error, { state.report (.runFailed error) with span := outer })

theorem run_eq_closed (json : Json) (state : RunState) :
    (run json).run state = closed state.span (runFrom (attempt json) (opened state)) := by
  unfold run opened runFrom
  simp only [StateT.run_bind, StateT.run_get, StateT.run_modify, pure_bind]
  generalize StateT.run (attempt json).run _ = reached
  obtain ⟨_ | _, after⟩ := reached
  · rfl
  · rfl

/-- A tree is run as its root is, between two reports; the second is left out if the root
fails. -/
theorem runFrom_execute (tree : Tree) (state : RunState) :
    runFrom tree.execute state =
      match runFrom (tree.root.execute tree.context)
        (state.report (.treeStarted tree.root.kind tree.context.size)) with
      | (.ok (), after) => (.ok (), after.report (.treeCompleted tree.root.kind))
      | (.error error, after) => (.error error, after) := by
  rcases h : runFrom (tree.root.execute tree.context)
    (state.report (.treeStarted tree.root.kind tree.context.size)) with ⟨_ | _, after⟩
  · exact (Execution.runFrom_bind_of_ok rfl).trans (Execution.runFrom_bind_of_error h)
  · exact (Execution.runFrom_bind_of_ok rfl).trans (Execution.runFrom_bind_of_ok h)

/-- The last event of a run. -/
def lastEvent (tree : Tree) : Except Error Unit → Event
  | .ok () => .treeCompleted tree.root.kind
  | .error error => .runFailed error

/-- A document that passes the check is run as its root is in its context, from the same
state, but that the log tells of more and in another span. -/
theorem run_of_wellFormed (hj : ofJson json = .ok tree) (hw : tree.wellFormed = true)
    (state : RunState) :
    let executed := runFrom (tree.root.execute tree.context) state
    ∃ events, executed.2.log = state.log ++ logOf state.span events ∧
      (run json).run state = (executed.1, { executed.2 with
        log := state.log ++ logOf (some .treeRun)
          (#[.treeStarted tree.root.kind tree.context.size] ++ events ++
            #[tree.lastEvent executed.1]) }) := by
  intro executed
  -- Both runs are seen as changes of one that begins with an empty log.
  let fresh : RunState := { state with log := #[] }
  let started := Event.treeStarted tree.root.kind tree.context.size
  have houter : state = fresh.logged state.log state.span := by
    simp [fresh, RunState.logged, logOf]
  have hinner : (opened state).report started =
      fresh.logged (state.log.push ⟨started, some .treeRun⟩) (some .treeRun) := by
    simp [fresh, opened, RunState.report, RunState.logged, logOf]
  have hrun : executed = Prod.map id (RunState.logged state.log state.span)
      (runFrom (tree.root.execute tree.context) fresh) :=
    (congrArg (runFrom _) houter).trans (tree.root.runFrom_logged _ _ _ _)
  have htree := runFrom_execute tree (opened state)
  rw [hinner, tree.root.runFrom_logged] at htree
  rw [run_eq_closed, attempt_of_wellFormed hj hw, htree, hrun]
  obtain ⟨result, after⟩ := runFrom (tree.root.execute tree.context) fresh
  refine ⟨after.log.map LogEntry.event, rfl, ?_⟩
  cases result with
  | ok =>
    simp [closed, RunState.report, RunState.logged, logOf, lastEvent, started]
  | error error =>
    simp [closed, RunState.report, RunState.logged, logOf, lastEvent, started]

/-- **A document is run as it was checked.** A document that is refused by the check is
refused by the run with the same verdict: no more is done than to report the failure, and
the form is at fault. A document that passes is run as its root is in its context, in the
same state: it succeeds if and only if the root does, and otherwise shows the error of the
root, for which the form is not to blame. An error is shown exactly where there is no
success. -/
theorem run_follows_check (explain : String → String) (json : Json) (state : RunState) :
    let checked := Verdict.ofOutcome explain (check json)
    let outcome := ((run json).run state).1
    let after := ((run json).run state).2
    let shown := Verdict.ofOutcome explain outcome
    (checked.success = false → shown = checked ∧
      ∃ error, outcome = .error error ∧ error.structural = true ∧
        after = { state with
          log := state.log.push ⟨.runFailed error, some .treeRun⟩ }) ∧
    (checked.success = true → ∃ tree, ofJson json = .ok tree ∧
      let executed := runFrom (tree.root.execute tree.context) state
      outcome = executed.1 ∧
      (shown.success = true ↔ executed.1 = .ok ()) ∧
      (∀ error, executed.1 = .error error →
        shown.error = some (error.message explain) ∧ error.structural = false) ∧
      ∃ events, executed.2.log = state.log ++ logOf state.span events ∧
        after = { executed.2 with
          log := state.log ++ logOf (some .treeRun)
            (#[.treeStarted tree.root.kind tree.context.size] ++ events ++
              #[tree.lastEvent executed.1]) }) ∧
    (checked.error = none ↔ checked.success = true) ∧
    (shown.error = none ↔ shown.success = true) := by
  intro checked outcome after shown
  refine ⟨fun hno => ?refused, fun hyes => ?passed,
    Verdict.error_eq_none_iff _ _, Verdict.error_eq_none_iff _ _⟩
  case refused =>
    obtain ⟨error, hc⟩ := (Verdict.success_eq_false_iff _ _).1 hno
    have hr : (run json).run state = (.error error, { state with
        log := state.log.push ⟨.runFailed error, some .treeRun⟩ }) := by
      rw [run_eq_closed, attempt_of_check_error hc, closed]
      rfl
    refine ⟨?_, error, congrArg Prod.fst hr, structural_of_check_error hc, congrArg Prod.snd hr⟩
    show Verdict.ofOutcome explain ((run json).run state).1 = Verdict.ofOutcome explain (check json)
    rw [hr, hc]
  case passed =>
    obtain ⟨tree, hj, hw⟩ := exists_tree_of_check_ok ((Verdict.success_iff _ _).1 hyes)
    obtain ⟨events, hlog, hr⟩ := run_of_wellFormed hj hw state
    have ho : outcome = _ := congrArg Prod.fst hr
    refine ⟨tree, hj, ho, ?_, fun error he => ⟨?_, ?_⟩, events, hlog, congrArg Prod.snd hr⟩
    · show (Verdict.ofOutcome explain outcome).success = true ↔ _
      rw [Verdict.success_iff, ho]
    · show (Verdict.ofOutcome explain outcome).error = _
      rw [ho, he]
      rfl
    · exact tree.root.blameless_execute tree.context (Prod.ext he rfl)

/-- A message without an address is refused, and the recorder is not asked to send it. One
with an address is, and if the recorder fails this is no matter of form. -/
theorem run_follows_check_addressed :
    let json (phoneNumber : String) := Json.obj [("rootAction",
      .obj [("phoneNumber", .str phoneNumber), ("type", .str "send_sms")])]
    let state := RunState.recording (some 0) none
    let error := Error.delivery .sms "provider unavailable"
    (check (json "") = .error .invalidStructure ∧
      Verdict.ofOutcome id ((run (json "")).run state).1 =
        ⟨false, some "Invalid decision tree structure"⟩ ∧
      ((run (json "")).run state).2.notifier = state.notifier) ∧
    check (json "+1") = .ok () ∧ ((run (json "+1")).run state).1 = .error error ∧
      Verdict.ofOutcome id ((run (json "+1")).run state).1 =
        ⟨false, some "sms delivery failed: provider unavailable"⟩ ∧
      error.structural = false := by
  intro json state error
  have hc : check (json "") = .error .invalidStructure := rfl
  have hc' : check (json "+1") = .ok () := rfl
  have hrun : ((run (json "+1")).run state).1 = .error error := rfl
  obtain ⟨hshown, _, -, -, hafter⟩ :=
    (run_follows_check id (json "") state).1 (by rw [hc]; rfl)
  obtain ⟨tree, -, ho, -, hfailed, -⟩ :=
    (run_follows_check id (json "+1") state).2.1 (by rw [hc']; rfl)
  obtain ⟨-, hs⟩ := hfailed error (ho.symm.trans hrun)
  refine ⟨⟨hc, ?_, by rw [hafter]⟩, hc', hrun, ?_, hs⟩
  · rw [hshown, hc]
    rfl
  · exact (congrArg (Verdict.ofOutcome id) hrun).trans (by decide)

end Tree
end ActionTree
