/-
# A failed delivery ends a run

A recorder that fails from some attempt on cuts the run off there. What was sent
before is what a run without failures sends first, in the same order and with the same
contexts, and behind the failed attempt there is none, at whichever depth of loops and
conditions it was made.

Key theorems: `Course.takeSteps_fail`, `Action.failing_run`.
-/
import ActionTree.Proofs.Run.Steps

namespace ActionTree

open Course
open Execution (runFrom)

namespace Recorder

variable {recorder : Recorder} {count limit : Nat}

theorem accepts_of_le (hf : recorder.failAfter = some limit)
    (h : count ≤ limit - recorder.attempts) : recorder.Accepts count := by
  intro k hk
  rw [hf]
  exact decide_eq_false (by omega)

/-- With no attempt left, the next one fails. -/
theorem fails_after {attempts : List Attempt} (hf : recorder.failAfter = some limit)
    (h : limit - recorder.attempts ≤ attempts.length) : (recorder.after attempts).fails = true := by
  have hle : limit ≤ recorder.attempts + attempts.length := by omega
  show reaches (recorder.attempts + attempts.length) recorder.failAfter = true
  rw [hf]
  exact decide_eq_true hle

theorem attempt_of_fails (hf : recorder.fails = true) (delivery : Delivery) :
    recorder.attempt delivery = { recorder with attempts := recorder.attempts + 1 } := by
  rw [attempt, hf, if_pos rfl]

end Recorder

/-- The first attempt that fails is counted, but not recorded, and it is the last. -/
theorem Course.takeSteps_fail {steps : List Step} {state : RunState} {recorder : Recorder}
    {limit : Nat} (hn : state.notifier = .record recorder) (hc : state.cancelled = false)
    (hf : recorder.failAfter = some limit) (hk : recorder.cancelAfter = none)
    (h : limit - recorder.attempts < (attemptsOf steps).length) :
    ∃ state', takeSteps steps state =
        (.error (.delivery (attemptsOf steps)[limit - recorder.attempts].delivery.message.channel
          "provider unavailable"), state') ∧
      state'.recorded.attempts = recorder.attempts + (limit - recorder.attempts) + 1 ∧
      state'.recorded.deliveries =
        (recorder.after ((attemptsOf steps).take (limit - recorder.attempts))).deliveries := by
  obtain ⟨before, after, hsteps, hbefore⟩ := exists_attempt h
  generalize (attemptsOf steps)[limit - recorder.attempts] = made at hsteps ⊢
  have hlen : (attemptsOf before).length = limit - recorder.attempts := by
    rw [hbefore, List.length_take_of_le (Nat.le_of_lt h)]
  -- up to that attempt the run is one without failures
  have hok : takeSteps before state = _ := takeSteps_ok hn
    (Recorder.accepts_of_le hf (Nat.le_of_eq hlen)) (.inl ⟨hc, Recorder.spares_of_none hk _⟩)
  have hfails := Recorder.fails_after hf (Nat.le_of_eq hlen.symm)
  have hmade : runFrom (Step.perform (.attempt made)) (state.after recorder before) = _ :=
    runFrom_attempt rfl made
  rw [hfails, if_pos rfl, Recorder.attempt_of_fails hfails] at hmade
  rw [← hbefore, ← hlen, hsteps, takeSteps_append_of_ok hok, takeSteps_cons_of_error hmade]
  exact ⟨_, rfl, rfl, rfl⟩

namespace Action

/-- **A failed delivery cuts a run off.** A run that has enough attempts left before they
fail is the one without failures. Any other makes one attempt more than it has left,
records those before it, and its error names the channel of the message that could not
be sent. -/
theorem failing_run (action : Action) (context : Context) (start : RunState) (limit : Nat) :
    let calm := runFrom (action.execute context) (.recording none none)
    let sent := calm.2.recorded.deliveries
    let left := limit - start.recorded.attempts
    let run := runFrom (action.execute context) (start.scripted (some limit) none false)
    (sent.size ≤ left → run.1 = calm.1 ∧
      run.2.recorded.attempts = start.recorded.attempts + sent.size ∧
      run.2.recorded.deliveries = start.recorded.deliveries ++ sent) ∧
    ∀ h : left < sent.size,
      run.1 = .error (.delivery sent[left].message.channel "provider unavailable") ∧
      run.2.recorded.attempts = start.recorded.attempts + left + 1 ∧
      run.2.recorded.deliveries = start.recorded.deliveries ++ sent.take left := by
  intro calm sent left run
  have hcalm : calm = _ := action.runFrom_calm context rfl rfl rfl rfl
  have hsent : sent = ((action.attempts context).map Attempt.delivery).toArray := by
    show calm.2.recorded.deliveries = _
    rw [hcalm]
    exact Array.empty_append
  have hsize : sent.size = (action.attempts context).length := by
    rw [hsent, List.size_toArray, List.length_map]
  constructor
  · intro hle
    have hrun : run = _ := action.runFrom_of_ok context rfl
      (Recorder.accepts_of_le rfl (hsize ▸ hle)) (.inl ⟨rfl, Recorder.spares_of_none rfl _⟩)
    rw [hrun, hcalm, hsize, hsent]
    exact ⟨rfl, rfl, rfl⟩
  · intro hlt
    have hlt' : left < (action.attempts context).length := hsize ▸ hlt
    have hmessage : sent[left] = (action.attempts context)[left].delivery := by
      simp only [hsent, List.getElem_toArray, List.getElem_map]
    have hn : (start.scripted (some limit) none false).notifier =
        .record (start.recorded.scripted (some limit) none) := rfl
    obtain ⟨state', hstop, hattempts, hdeliveries⟩ := takeSteps_fail hn rfl rfl rfl hlt'
    have hrun : run = (.error (.delivery (action.attempts context)[left].delivery.message.channel
        "provider unavailable"), state') := action.runFrom_of_takeSteps_error context hstop
    rw [hrun, hmessage, hattempts, hdeliveries]
    refine ⟨rfl, rfl, ?_⟩
    show start.recorded.deliveries ++ (((action.attempts context).take left).map _).toArray = _
    rw [hsent]
    simp

/-- A loop of two messages, of which the second fails. -/
theorem failing_run_in_loop :
    let run := runFrom ((Action.loop 2 (some (.send (.sms "+1" none)))).execute .empty)
      ((RunState.recording none none).scripted (some 1) none false)
    run.1 = .error (.delivery .sms "provider unavailable") ∧ run.2.recorded.attempts = 2 := by
  have h := (failing_run (.loop 2 (some (.send (.sms "+1" none)))) .empty
    (.recording none none) 1).2 (by decide)
  exact ⟨h.1, h.2.1⟩

end Action
end ActionTree
