import BleSpeedSensor.ConfiguredParams
import BleSpeedSensor.FreshTimer
import BleSpeedSensor.OutstandingTimeouts

namespace BleSpeedSensor

/-- A connection whose first delay may not have passed yet. -/
structure Young (s : TimeoutPath) : Prop where
  fresh : Fresh firstConnParamsUpdateDelay (s.now - s.connectedAt) s.timer
  no_timeout : Outstanding (fun _ => False) s
  count : s.cp.updateCount = 0

def Mature (s : TimeoutPath) : Prop :=
  s.connectedAt + firstConnParamsUpdateDelay.toNat ≤ s.now

/-- What runs keep in which no connection begins with something left of a timer. -/
structure TimeoutInv (s : TimeoutPath) : Prop where
  configured : Configured s.cp
  path : PathInv s.path
  stamped : s.startedFor.length = s.path.accepted.length
  timer : TimerHolds (fun _ => True) s.timer
  since : s.connectedAt ≤ s.now
  own : s.up = true → TimerHolds (· = s.connection) s.timer ∧ Outstanding (· = some s.connection) s
  age : s.up = true → Young s ∨ Mature s

theorem boot_timerHolds (updateTimeoutHandler : UInt32) :
    TimerHolds (fun _ => True) (AppTimer.boot updateTimeoutHandler) := by
  unfold AppTimer.boot appTimerCreate
  split
  · exact ⟨⟨⟨rfl, rfl, rfl⟩, by simp [appTimerInit], fun _ _ => rfl⟩,
      ⟨fun _ => trivial, fun _ _ => trivial⟩, ⟨fun _ => rfl, fun _ => rfl, fun _ => rfl, fun _ => rfl⟩⟩
  · have hfree : (List.range appTimerMaxTimers).find? (fun i => !((appTimerInit TimerNode.zero
        appTimerMaxTimers (appTimerOpQueueSize + 1)).nodes i).allocated) = some 0 := rfl
    rw [show (appTimerInit TimerNode.zero appTimerMaxTimers (appTimerOpQueueSize + 1)).nodeArraySize =
      appTimerMaxTimers from rfl, hfree]
    exact ⟨⟨⟨rfl, rfl, rfl⟩, by simp [appTimerInit, AppTimer.setNode], fun _ _ => rfl⟩,
      ⟨fun _ => trivial, fun _ _ => trivial⟩, ⟨fun _ => rfl, fun _ => rfl, fun _ => rfl, fun _ => rfl⟩⟩

theorem boot_timeoutInv (updateTimeoutHandler : UInt32) :
    TimeoutInv (TimeoutPath.boot updateTimeoutHandler) where
  configured := ⟨rfl, rfl⟩
  path := boot_pathInv
  stamped := rfl
  timer := boot_timerHolds updateTimeoutHandler
  since := Nat.le_refl 0
  own hup := by cases hup
  age hup := by cases hup

variable {s t : TimeoutPath}

theorem TimeoutInv.pass (h : TimeoutInv s) {timer : AppTimer Nat} {n : Nat}
    (hholds : ∀ P, TimerHolds P s.timer → TimerHolds P timer)
    (hfresh : ∀ age, Fresh firstConnParamsUpdateDelay age s.timer →
      Fresh firstConnParamsUpdateDelay (age + n) timer) :
    TimeoutInv { s with timer := timer, now := s.now + n } := by
  have same : SamePath s { s with timer := timer, now := s.now + n } := ⟨rfl, rfl, rfl, id⟩
  have hsince := h.since
  refine ⟨h.configured, h.path, h.stamped, hholds _ h.timer, Nat.le_add_right_of_le h.since, ?_, ?_⟩
  · intro hup
    obtain ⟨htimer, hout⟩ := h.own hup
    exact ⟨hholds _ htimer, same.outstanding hout⟩
  · intro hup
    rcases h.age hup with young | mature
    · have hage : s.now + n - s.connectedAt = s.now - s.connectedAt + n := by omega
      refine Or.inl ⟨?_, same.outstanding young.no_timeout, young.count⟩
      dsimp only
      rw [hage]
      exact hfresh _ young.fresh
    · exact Or.inr (Nat.le_add_right_of_le mature)

theorem TimeoutInv.tick (h : TimeoutInv s) (n : Nat) :
    TimeoutInv { s with timer := s.timer.tick n, now := s.now + n } :=
  h.pass (fun _ ht => ht.tick n) fun _ hf => hf.tick n

theorem TimeoutInv.swi0 (h : TimeoutInv s) (late : Nat) :
    TimeoutInv { s with timer := swi0IrqHandler s.timer late, now := s.now + late } :=
  h.pass (fun _ ht => ht.swi0 late)
    fun _ hf => hf.swi0 h.timer (by decide) late

theorem TimeoutInv.put (h : TimeoutInv s) (e : AppEvent) (connection : Option Nat)
    (he : e.handler = .appTimerEvtGet → s.up = true → connection = some s.connection ∧ Mature s) :
    TimeoutInv (s.put e connection).2 := by
  refine ⟨h.configured, put_pathInv h.path e, ?_, h.timer, h.since, ?_, ?_⟩
  · unfold TimeoutPath.put EventPath.afterPut
    dsimp only
    split
    · simp only [List.length_append, h.stamped]
      rfl
    · exact h.stamped
  · intro hup
    obtain ⟨htimer, hout⟩ := h.own hup
    exact ⟨htimer, hout.put h.stamped e connection fun ht => (he ht hup).1⟩
  · intro hup
    rcases h.age hup with young | mature
    · by_cases ht : e.handler = .appTimerEvtGet
      · exact Or.inr (he ht hup).2
      · exact Or.inl ⟨young.fresh, young.no_timeout.put h.stamped e connection fun hx => ht hx,
          young.count⟩
    · exact Or.inr mature

theorem timeoutHandlerExec_inv {nodes : List (TimerNode Nat)} (h : TimeoutInv s)
    (hnodes : ∀ node ∈ nodes, s.up = true → node.pContext = s.connection ∧ Mature s)
    (step : timeoutHandlerExec s nodes = .ok t) : TimeoutInv t := by
  induction nodes generalizing s with
  | nil =>
    cases step
    exact h
  | cons node rest ih =>
    obtain ⟨-, -, hrest⟩ := ok_of_bind step
    refine ih (h.put _ _ fun _ hup => ?_) (fun x hx => ?_) hrest
    · obtain ⟨hcontext, hmature⟩ := hnodes node List.mem_cons_self hup
      exact ⟨congrArg some hcontext, hmature⟩
    · exact hnodes x (List.mem_cons_of_mem _ hx)

theorem TimeoutInv.rtc1 (h : TimeoutInv s)
    (step : timeoutStep s .rtc1 = .ok t) : TimeoutInv t := by
  obtain ⟨htimer, -⟩ := h.timer.rtc1
  have hown : s.up = true → TimerHolds (· = s.connection) (rtc1IrqHandler s.timer).2 ∧
      ∀ node ∈ (rtc1IrqHandler s.timer).1, node.pContext = s.connection :=
    fun hup => (h.own hup).1.rtc1
  have same : SamePath s { s with timer := (rtc1IrqHandler s.timer).2 } := ⟨rfl, rfl, rfl, id⟩
  have hage : s.up = true → Young { s with timer := (rtc1IrqHandler s.timer).2 } ∧
      (rtc1IrqHandler s.timer).1 = [] ∨ Mature s := by
    intro hup
    rcases h.age hup with young | mature
    · rcases young.fresh.rtc1 h.timer.sole.node with ⟨hnil, hfresh⟩ | hpassed
      · exact Or.inl ⟨⟨hfresh, same.outstanding young.no_timeout, young.count⟩, hnil⟩
      · right
        have hsince := h.since
        unfold Mature
        omega
    · exact Or.inr mature
  have hread : TimeoutInv { s with timer := (rtc1IrqHandler s.timer).2 } := by
    refine ⟨h.configured, h.path, h.stamped, htimer, h.since, fun hup => ?_, fun hup => ?_⟩
    · exact ⟨(hown hup).1, same.outstanding (h.own hup).2⟩
    · exact (hage hup).imp (fun hy => hy.1) id
  refine timeoutHandlerExec_inv hread (fun node hmem hup => ⟨(hown hup).2 node hmem, ?_⟩) step
  rcases hage hup with ⟨-, hnil⟩ | mature
  · rw [hnil] at hmem
    cases hmem
  · exact mature

theorem updateStep_keeps {answers : Answers} {mConnHandle : ConnHandle} {connection : Nat}
    {cp : ConnParams} {timer : AppTimer Nat} {pc : UpdatePc} {r : ConnParams × AppTimer Nat × UpdatePc}
    (h : Configured cp)
    (step : updateStep (timeoutPort answers mConnHandle connection) cp timer pc = .ok r) :
    Configured r.1 ∧ r.2.1 = timer := by
  obtain ⟨hconfig, hunchanged⟩ := h
  cases pc with
  | request =>
    obtain ⟨w, hcall, rfl⟩ := ok_of_map step
    exact ⟨⟨hconfig, hunchanged⟩, (errorHandled_ok hcall).2⟩
  | disconnect =>
    obtain ⟨w, hcall, rfl⟩ := ok_of_map step
    exact ⟨⟨hconfig, hunchanged⟩, (errorHandled_ok hcall).2⟩
  | notify =>
    obtain ⟨w, hcall, rfl⟩ := ok_of_map step
    obtain ⟨-, -, hw⟩ := ok_of_map hcall
    exact ⟨⟨hconfig, hunchanged⟩, hw.symm⟩
  | checkHandle | increment | compare | resetCount | checkDisconnect | returned =>
    cases step
    exact ⟨⟨hconfig, hunchanged⟩, rfl⟩

theorem Young.not_handling (young : Young s) : ¬s.Handling := young.no_timeout.handled

theorem TimeoutInv.main (h : TimeoutInv s) {answers : Answers}
    (step : s.mainStep answers = .ok t) : TimeoutInv t := by
  unfold TimeoutPath.mainStep at step
  split at step
  next handling =>
    obtain ⟨r, hr, rfl⟩ := ok_of_map step
    obtain ⟨hconfigured, htimer⟩ := updateStep_keeps h.configured hr
    refine ⟨hconfigured, h.path, h.stamped, ?_, h.since, fun hup => ?_, fun hup => ?_⟩
    · dsimp only
      rw [htimer]
      exact h.timer
    · obtain ⟨hholds, hout⟩ := h.own hup
      dsimp only
      rw [htimer]
      exact ⟨hholds, hout.waiting, fun _ => hout.handled handling⟩
    · exact Or.inr ((h.age hup).resolve_left fun young => young.not_handling handling)
  next =>
    obtain ⟨path, hpath, rfl⟩ := ok_of_map step
    obtain ⟨q, hq, hinv⟩ := mainStep_pathInv h.path
    cases Except.ok.inj (hq.symm.trans hpath)
    refine ⟨h.configured, hinv, ?_, h.timer, h.since, fun hup => ?_, fun hup => ?_⟩
    · rw [h.stamped]
      exact congrArg List.length (mainStep_accepted hq).symm
    · obtain ⟨hholds, hout⟩ := h.own hup
      exact ⟨hholds, hout.mainStep h.path hq⟩
    · rcases h.age hup with young | mature
      · exact Or.inl ⟨young.fresh, young.no_timeout.mainStep h.path hq, young.count⟩
      · exact Or.inr mature

end BleSpeedSensor
