import BleSpeedSensor.MainLoop

namespace BleSpeedSensor

open RunSystem

variable {m : MainLoop}

theorem run_loopInv (h : LoopInv m) (as : List LoopAction) :
    ∃ n, runHalting loopStep m as = .ok n ∧ LoopInv n := by
  induction as generalizing m with
  | nil => exact ⟨m, rfl, h⟩
  | cons a as ih =>
    obtain ⟨n, hn, hinv⟩ := h.step a
    rw [runHalting_cons, hn]
    exact ih hinv

theorem LoopInv.empty_of_asleep (h : LoopInv m) (asleep : m.pc = .asleep) :
    appSchedQueueEmpty m.path.sched = true := by
  have hpc := h.pc
  rw [asleep] at hpc
  exact h.path.queue.empty_iff.mpr hpc.2

/-- Whatever interrupts come in between, the main loop sleeps only while the queue is empty. -/
theorem no_lost_wakeup (bufWord : Nat) (as : List LoopAction) :
    ∃ s m, schedulerInit bufWord = .ok s ∧ runHalting loopStep (MainLoop.boot s) as = .ok m ∧
      (m.pc = .asleep → appSchedQueueEmpty m.path.sched = true) := by
  obtain ⟨m, hm, h⟩ := run_loopInv boot_loopInv as
  exact ⟨Sched.fresh, m, schedulerInit_ok bufWord, hm, h.empty_of_asleep⟩

def LoopPc.rank : LoopPc → Nat
  | .checking _ => 4
  | .executing => 3
  | .comparing _ => 2
  | .waiting => 1
  | .asleep => 0

def MainLoop.rank (m : MainLoop) : Nat :=
  10 * m.path.rank + (if m.interrupted then 5 else 0) + m.pc.rank

theorem MainLoop.rank_lt {n : MainLoop} (hpath : n.path = m.path)
    (hinterrupted : n.interrupted = m.interrupted) (hpc : n.pc.rank < m.pc.rank) :
    n.rank < m.rank := by
  unfold rank
  rw [hpath, hinterrupted]
  omega

theorem LoopInv.mainStep_rank (h : LoopInv m) {n : MainLoop} (step : m.mainStep = .ok n)
    (awake : m.pc ≠ .asleep) : n.rank < m.rank ∧ n.path.accepted = m.path.accepted := by
  have hpc := h.pc
  unfold MainLoop.mainStep at step
  cases hp : m.pc with
  | asleep => exact absurd hp awake
  | executing =>
    rw [hp] at step
    dsimp only at step
    split at step
    next =>
      cases step
      refine ⟨MainLoop.rank_lt rfl rfl ?_, rfl⟩
      rw [hp]
      show 2 < 3
      omega
    next hbusy =>
      obtain ⟨q, hq, rfl⟩ := ok_of_map step
      have hlt := BleSpeedSensor.mainStep_rank h.path hq (Or.inl hbusy)
      refine ⟨?_, mainStep_accepted hq⟩
      simp only [MainLoop.rank, hp]
      omega
  | comparing queueEndIndex =>
    rw [hp] at step hpc
    dsimp only at step
    split at step
    next =>
      cases step
      refine ⟨MainLoop.rank_lt rfl rfl ?_, rfl⟩
      rw [hp]
      show 1 < 2
      omega
    next =>
      cases step
      have htest : m.path.rank = 10 * m.path.waiting.length + 9 := by
        rw [EventPath.rank, hpc.1]
        rfl
      have hnext : { m.path with pc := .readStart }.rank = 10 * m.path.waiting.length + 8 := rfl
      refine ⟨?_, rfl⟩
      simp only [MainLoop.rank, hp, LoopPc.rank, htest, hnext]
      omega
  | waiting =>
    rw [hp] at step
    cases step
    unfold MainLoop.sdAppEvtWait
    split
    next hinterrupted =>
      refine ⟨?_, rfl⟩
      simp only [MainLoop.rank, hp, LoopPc.rank, hinterrupted, if_true]
      simp
    next =>
      refine ⟨MainLoop.rank_lt rfl rfl ?_, rfl⟩
      rw [hp]
      show 0 < 1
      omega
  | checking errCode =>
    rw [hp] at step
    obtain ⟨-, -, rfl⟩ := ok_of_map step
    refine ⟨MainLoop.rank_lt rfl rfl ?_, rfl⟩
    rw [hp]
    show 3 < 4
    omega

/-- Left alone, the main loop handles every event that was accepted, and only then sleeps. -/
theorem LoopInv.drains (h : LoopInv m) :
    ∃ k n, runHalting loopStep m (List.replicate k .main) = .ok n ∧ n.pc = .asleep ∧
      n.path.calls = m.path.accepted := by
  induction hr : m.rank using Nat.strongRecOn generalizing m with
  | ind r ih =>
    by_cases asleep : m.pc = .asleep
    · have hpc := h.pc
      rw [asleep] at hpc
      exact ⟨0, m, rfl, asleep, h.path.calls_of_idle hpc.1 hpc.2⟩
    · obtain ⟨u, hu, hinv⟩ := h.mainStep
      obtain ⟨hlt, haccepted⟩ := h.mainStep_rank hu asleep
      obtain ⟨k, n, run, hn, hcalls⟩ := ih u.rank (hr ▸ hlt) hinv rfl
      refine ⟨k + 1, n, ?_, hn, hcalls.trans haccepted⟩
      rw [List.replicate_succ, runHalting_cons]
      exact (congrArg (Except.bind · _) hu).trans run

end BleSpeedSensor
