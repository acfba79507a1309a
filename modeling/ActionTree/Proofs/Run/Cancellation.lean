/-
# A cancelled run sends nothing more

A run that is cancelled while it sends a message sends no other one: it ends before the
next iteration of any loop, and between two messages there is always one to begin
(`Action.spaced_course`). It still succeeds if there is none to begin any more. A run
that is cancelled beforehand ends at the first loop that it comes to, and notices nothing
if it comes to none.

Key theorems: `Course.takeSteps_unready`, `Action.runFrom_cancelling`,
`Action.cancelled_run`.
-/
import ActionTree.Proofs.Run.Spacing

namespace ActionTree

open Course
open Execution (runFrom)

namespace Course

variable {steps : List Step} {state : RunState} {recorder : Recorder}

/-- A cancelled run ends where it looks, if it does not send before. -/
theorem takeSteps_of_cancelled (hc : state.cancelled = true) (hl : Looks steps)
    (ho : attemptsOf (opening steps) = []) :
    ∃ state', takeSteps steps state = (.error .cancelled, state') ∧
      state'.notifier = state.notifier := by
  induction steps generalizing state with
  | nil => exact absurd hl looks_nil
  | cons step steps ih =>
    cases step with
    | report event =>
      obtain ⟨state', hr, hn⟩ := @ih (state.report event) hc (by simpa using hl) ho
      exact ⟨state', by rw [takeSteps_cons_of_ok (runFrom_report event), hr], hn⟩
    | check iterations index =>
      exact ⟨_, takeSteps_cons_of_error (runFrom_check_of_cancelled hc _ _), rfl⟩
    | attempt made => cases ho

/-- Once the attempt that cancels the run is made, the steps behind it are taken by a
cancelled run. -/
theorem takeSteps_cancelling {before : List Step} (hn : state.notifier = .record recorder)
    (hc : state.cancelled = false) (hf : recorder.failAfter = none)
    (hk : recorder.cancelAfter = some (recorder.attempts + (attemptsOf before).length + 1))
    (made : Attempt) (after : List Step) :
    ∃ state', takeSteps (before ++ .attempt made :: after) state = takeSteps after state' ∧
      state'.cancelled = true ∧
      state'.notifier = .record (recorder.after (attemptsOf before ++ [made])) := by
  have hspares : recorder.Spares (attemptsOf before).length := by
    intro k hlt
    rw [hk]
    exact decide_eq_false (by omega)
  have hbefore := takeSteps_ok hn (Recorder.accepts_of_none hf _) (.inl ⟨hc, hspares⟩)
  have hmade : runFrom (Step.perform (.attempt made)) (state.after recorder before) = _ :=
    runFrom_attempt rfl made
  have hf' : (recorder.after (attemptsOf before)).failAfter = none := hf
  have hfails := Recorder.fails_of_accepts (Recorder.accepts_of_none hf' 1)
  have hcancels : (recorder.after (attemptsOf before)).cancels = true := by
    show Recorder.reaches _ recorder.cancelAfter = true
    rw [hk]
    exact decide_eq_true (Nat.le_refl _)
  rw [hfails, hcancels, if_neg Bool.false_ne_true] at hmade
  refine ⟨_, by rw [takeSteps_append_of_ok hbefore, takeSteps_cons_of_ok hmade], ?_, ?_⟩
  · exact Bool.or_true _
  · exact congrArg Notifier.record (Recorder.attempt_after hfails made)

/-- A cancelled run that has to look before it sends does nothing more: it ends where it
looks, or comes to its end without having sent. -/
theorem takeSteps_unready {ready : Bool} (hn : state.notifier = .record recorder)
    (hc : state.cancelled = true) (hf : recorder.failAfter = none)
    (h : readyAfter? false steps = some ready) :
    ∃ state', state'.recorded = recorder ∧
      (Looks steps → takeSteps steps state = (.error .cancelled, state')) ∧
      (¬ Looks steps → takeSteps steps state = (.ok (), state')) := by
  have hopening := (opening_of_readyAfter? h).1
  by_cases hl : Looks steps
  · obtain ⟨state', hr, hn'⟩ := takeSteps_of_cancelled hc hl hopening
    refine ⟨state', ?_, fun _ => hr, fun hl' => absurd hl hl'⟩
    rw [RunState.recorded, hn', hn]
    rfl
  · rw [opening_of_not_looks hl] at hopening
    have hr := takeSteps_ok hn (Recorder.accepts_of_none hf _)
      (.inr ⟨hc, isCheck_of_not_looks hl⟩)
    refine ⟨_, ?_, fun hl' => absurd hl' hl, fun _ => hr⟩
    show recorder.after (attemptsOf steps) = recorder
    rw [hopening, Recorder.after_nil]

end Course

namespace Action

variable (action : Action) (context : Context) {state : RunState} {recorder : Recorder}

/-- A run that is cancelled during one of its attempts makes none after it, and succeeds if
and only if it had nothing more to do. -/
theorem runFrom_cancelling {k : Nat} (hn : state.notifier = .record recorder)
    (hc : state.cancelled = false) (hf : recorder.failAfter = none)
    (hk : recorder.cancelAfter = some (recorder.attempts + k + 1))
    (h : k < (action.attempts context).length) :
    let run := runFrom (action.execute context) state
    run.2.recorded = recorder.after ((action.attempts context).take (k + 1)) ∧
    (run.1 = .ok () ∨ run.1 = .error .cancelled) ∧
    (run.1 = .ok () ↔ (action.attempts context).length = k + 1 ∧
      (action.course context).fault = none ∧
      ∀ turn ∈ (action.attempts context)[k].turns, turn.last) := by
  intro run
  obtain ⟨before, after, hsteps, hbefore⟩ := exists_attempt h
  have htake : (action.attempts context).take (k + 1) =
      attemptsOf before ++ [(action.attempts context)[k]] := by
    rw [hbefore]
    exact List.take_succ_eq_append_getElem h
  have hlen : (attemptsOf before).length = k := by
    rw [hbefore]
    exact List.length_take_of_le (Nat.le_of_lt h)
  change _ = before ++ .attempt (action.attempts context)[k] :: after at hsteps
  generalize (action.attempts context)[k] = made at htake hsteps ⊢
  obtain ⟨ready, hready, hfault⟩ := action.spaced_course context
  have htracks := action.tracks_course context
  rw [hsteps] at hready htracks
  have hready := readyAfter?_of_append hready
  obtain ⟨hopening, hend⟩ := opening_of_readyAfter? hready
  -- a look behind the attempt is one for an iteration around it that was not the last
  have hlast : (action.course context).fault = none →
      (Looks after ↔ ∃ turn ∈ made.turns, ¬ turn.last) := by
    intro hfault
    have h := (tracks_append.1 (htracks hfault)).2.1
    rwa [or_false] at h
  obtain ⟨middle, hcut, hc', hn'⟩ := takeSteps_cancelling hn hc hf (hlen ▸ hk) made after
  have hf' : (recorder.after (attemptsOf before ++ [made])).failAfter = none := hf
  obtain ⟨state', hrecorded, hstop, hgo⟩ := takeSteps_unready hn' hc' hf' hready
  rw [← hsteps] at hcut
  by_cases hl : Looks after
  · have hrun : run = (.error .cancelled, state') :=
      action.runFrom_of_takeSteps_error context (hcut.trans (hstop hl))
    rw [hrun, htake]
    refine ⟨hrecorded, .inr rfl, fun h => ?_, fun ⟨_, hfault, hturns⟩ => ?_⟩
    · cases h
    · obtain ⟨turn, hm, hnot⟩ := (hlast hfault).1 hl
      exact absurd (hturns turn hm) hnot
  · have hok : (action.course context).fault = none := by
      cases hf : (action.course context).fault with
      | none => rfl
      | some fault => exact absurd ((hfault (by simp [hf])).symm.trans (hend hl)) (by decide)
    have hnone : attemptsOf after = [] := by rwa [opening_of_not_looks hl] at hopening
    have hlength : (action.attempts context).length = k + 1 := by
      rw [attempts, hsteps, attemptsOf_append, attemptsOf_attempt, hnone, List.length_append, hlen]
      rfl
    have hrun : run = (.ok (), state') := by
      have hrun := action.runFrom_of_takeSteps_ok context (hcut.trans (hgo hl))
      rwa [hok] at hrun
    rw [hrun, htake]
    refine ⟨hrecorded, .inl rfl, fun _ => ⟨hlength, hok, fun turn hm => ?_⟩, fun _ => rfl⟩
    exact Classical.byContradiction fun hnot => hl ((hlast hok).2 ⟨turn, hm, hnot⟩)

/-- A run that is cancelled beforehand ends at the first loop. -/
theorem runFrom_of_meetsLoop (hc : state.cancelled = true) (h : action.MeetsLoop context) :
    ∃ state', runFrom (action.execute context) state = (.error .cancelled, state') ∧
      state'.notifier = state.notifier := by
  have hl := (action.looks_course_iff context).2 h
  obtain ⟨state', hr, hn⟩ := takeSteps_of_cancelled hc hl (action.attemptsOf_opening context hl)
  exact ⟨state', action.runFrom_of_takeSteps_error context hr, hn⟩

/-- Without a loop to come to, it goes on as if it was not cancelled. -/
theorem runFrom_of_not_meetsLoop (hn : state.notifier = .record recorder)
    (hc : state.cancelled = true) (hf : recorder.failAfter = none)
    (h : ¬ action.MeetsLoop context) :
    (action.attempts context).length ≤ 1 ∧
      runFrom (action.execute context) state = (ending (action.course context).fault,
        state.after recorder (action.course context).steps) := by
  have hl : ¬ Looks (action.course context).steps := by rwa [looks_course_iff]
  obtain ⟨ready, hready, -⟩ := action.spaced_course context
  exact ⟨length_attemptsOf_le hready hl, action.runFrom_of_ok context hn
    (Recorder.accepts_of_none hf _) (.inr ⟨hc, isCheck_of_not_looks hl⟩)⟩

/-- **A cancelled run sends nothing more.** Cancelled during some attempt, a run makes all
attempts up to it that it would have made, and no other; if it would have gone on sending
or failed, it ends as cancelled, and it succeeds only if no loop around that attempt has
an iteration left. Cancelled beforehand, a run ends as cancelled at the first loop that it
comes to, without an attempt, or is not affected. -/
theorem cancelled_run (start : RunState) (script : Option Nat) (count : Nat) (h : 1 ≤ count) :
    let sent := action.attempts context
    let calm := runFrom (action.execute context) (start.scripted none none false)
    let during := runFrom (action.execute context)
      (start.scripted none (some (start.recorded.attempts + count)) false)
    let before := runFrom (action.execute context) (start.scripted none script true)
    (calm.2.recorded.attempts = start.recorded.attempts + sent.length ∧
      calm.2.recorded.deliveries =
        start.recorded.deliveries ++ (sent.map Attempt.delivery).toArray) ∧
    (sent.length < count → during.1 = calm.1 ∧
      during.2 = calm.2.scripted none (some (start.recorded.attempts + count)) false) ∧
    (∀ hle : count ≤ sent.length,
      during.2.recorded.attempts = start.recorded.attempts + count ∧
      during.2.recorded.deliveries =
        start.recorded.deliveries ++ ((sent.take count).map Attempt.delivery).toArray ∧
      (during.1 = .ok () ∨ during.1 = .error .cancelled) ∧
      (count < sent.length ∨ calm.1 ≠ .ok () → during.1 = .error .cancelled) ∧
      (during.1 = .ok () ↔ sent.length = count ∧ calm.1 = .ok () ∧
        ∀ turn ∈ sent[count - 1].turns, turn.last)) ∧
    ((before.1 = .error .cancelled ∧ before.2.recorded.attempts = start.recorded.attempts ↔
        action.MeetsLoop context) ∧
      (action.MeetsLoop context → before.2.recorded.deliveries = start.recorded.deliveries) ∧
      (¬ action.MeetsLoop context → sent.length ≤ 1 ∧ before.1 = calm.1 ∧
        before.2.recorded.attempts = calm.2.recorded.attempts ∧
        before.2.recorded.deliveries = calm.2.recorded.deliveries)) := by
  intro sent calm during before
  have hcalm : calm = _ := action.runFrom_calm context rfl rfl rfl rfl
  have hending : calm.1 = .ok () ↔ (action.course context).fault = none := by
    rw [hcalm]
    cases (action.course context).fault <;> simp [ending]
  refine ⟨?_, fun hlt => ?_, fun hle => ?_, ?_⟩
  · rw [hcalm]
    exact ⟨rfl, rfl⟩
  · have hspares : (start.recorded.scripted none
        (some (start.recorded.attempts + count))).Spares sent.length := by
      intro k hk
      exact decide_eq_false (by show ¬ _ ≤ start.recorded.attempts + k + 1; omega)
    have hduring : during = _ := action.runFrom_of_ok context rfl
      (Recorder.accepts_of_none rfl _) (.inl ⟨rfl, hspares⟩)
    rw [hduring, hcalm]
    exact ⟨rfl, rfl⟩
  · obtain ⟨k, rfl⟩ : ∃ k, count = k + 1 := ⟨count - 1, by omega⟩
    have hn : (start.scripted none (some (start.recorded.attempts + (k + 1))) false).notifier =
        .record (start.recorded.scripted none _) := rfl
    obtain ⟨hrecorded, hresult, hok⟩ := action.runFrom_cancelling context hn rfl rfl rfl hle
    rw [← hending] at hok
    have hlen : (sent.take (k + 1)).length = k + 1 := List.length_take_of_le hle
    refine ⟨?_, ?_, hresult, fun hmore => ?_, hok⟩
    · show during.2.recorded.attempts = _
      rw [hrecorded, Recorder.after, hlen]
      rfl
    · show during.2.recorded.deliveries = _
      rw [hrecorded]
      rfl
    · refine hresult.resolve_left fun h => ?_
      obtain ⟨hl, hc, -⟩ := hok.1 h
      rcases hmore with hmore | hmore
      · exact absurd hmore (by rw [hl]; exact Nat.lt_irrefl _)
      · exact hmore hc
  · have hc : (start.scripted none script true).cancelled = true := rfl
    by_cases hm : action.MeetsLoop context
    · obtain ⟨state', hrun, hn⟩ := action.runFrom_of_meetsLoop context hc hm
      have hbefore : before = _ := hrun
      have hrecorded : state'.recorded = start.recorded.scripted none script := by
        rw [RunState.recorded, hn]
        rfl
      rw [hbefore, hrecorded]
      exact ⟨⟨fun _ => hm, fun _ => ⟨rfl, rfl⟩⟩, fun _ => rfl, fun h => absurd hm h⟩
    · obtain ⟨hle, hrun⟩ := action.runFrom_of_not_meetsLoop context rfl hc rfl hm
      have hbefore : before = _ := hrun
      rw [hbefore, hcalm]
      refine ⟨⟨fun h => ?_, fun h => absurd h hm⟩, fun h => absurd h hm, fun _ =>
        ⟨hle, rfl, rfl, rfl⟩⟩
      cases hf : (action.course context).fault <;> simp [ending, hf] at h

/-- A loop of two messages, cancelled during the first. -/
theorem cancelled_run_in_loop : 1 ≤ 1 ∧
    let run := runFrom ((Action.loop 2 (some (.send (.sms "+1" none)))).execute .empty)
      ((RunState.recording none none).scripted none (some (0 + 1)) false)
    run.1 = .error .cancelled ∧ run.2.recorded.attempts = 0 + 1 := by
  have h := (cancelled_run (.loop 2 (some (.send (.sms "+1" none)))) .empty
    (.recording none none) none 1 (Nat.le_refl 1)).2.2.1 (by decide)
  exact ⟨Nat.le_refl 1, h.2.2.2.1 (.inl (by decide)), h.1⟩

end Action
end ActionTree
