import BleSpeedSensor.TimerListHandler

namespace BleSpeedSensor

/-- What holds of the module between two interrupts, with the contexts of timer 0 meeting `P`. -/
structure TimerHolds {γ : Type} (P : γ → Prop) (t : AppTimer γ) : Prop where
  sole : SoleTimer t
  contexts : AllContexts P t
  rest : AtRest t

variable {γ : Type} {P : γ → Prop} {t : AppTimer γ}

/-- Two states that differ in the pending interrupts and the compare register only. -/
structure SameTimer (t u : AppTimer γ) : Prop where
  list : SameList t u
  rtc1Running : u.rtc1Running = t.rtc1Running
  counter : u.counter = t.counter
  ticksLatest : u.ticksLatest = t.ticksLatest

theorem SameTimer.holds {u : AppTimer γ} (same : SameTimer t u) (h : TimerHolds P t) :
    TimerHolds P u := by
  obtain ⟨hsole, hcontexts⟩ := same.list.sole h.sole h.contexts
  refine ⟨hsole, hcontexts, ?_⟩
  constructor
  · rw [same.list.nodes, same.rtc1Running]
    exact h.rest.rtc1Running
  · rw [same.list.nodes, same.counter]
    exact h.rest.counter
  · rw [same.list.nodes, same.ticksLatest]
    exact h.rest.ticksLatest
  · rw [same.list.nodes, same.list.ticksElapsed]
    exact h.rest.ticksElapsed

theorem AtRest.tick (rest : AtRest t) (n : Nat) : AtRest (t.tick n) := by
  by_cases hr : (t.nodes 0).isRunning = true
  · refine AtRest.of_running ?_
    rw [(t.tick_same n).nodes]
    exact hr
  · rw [AppTimer.tick_stopped (rest.rtc1Running (by simpa using hr))]
    exact rest

theorem TimerHolds.tick (h : TimerHolds P t) (n : Nat) : TimerHolds P (t.tick n) := by
  obtain ⟨hsole, hcontexts⟩ := (t.tick_same n).sole h.sole h.contexts
  exact ⟨hsole, hcontexts, h.rest.tick n⟩

theorem toNat_ofNat_mod (n : Nat) :
    (UInt32.ofNat (n % rtcCounterPeriod)).toNat = n % rtcCounterPeriod := by
  have hlt : n % rtcCounterPeriod < 16777216 := Nat.mod_lt _ (by decide)
  rw [UInt32.toNat_ofNat']
  omega

theorem AppTimer.tick_counter_le (t : AppTimer γ) (n : Nat) :
    (t.tick n).counter.toNat ≤ t.counter.toNat + n := by
  by_cases hr : t.rtc1Running = true
  · rw [t.tick_counting hr, toNat_ofNat_mod]
    exact Nat.mod_le _ _
  · have hstopped : t.tick n = t := if_neg hr
    rw [hstopped]
    omega

theorem TimerHolds.swi0 (h : TimerHolds P t) (late : Nat) : TimerHolds P (swi0IrqHandler t late) := by
  unfold swi0IrqHandler
  split
  · have same : SameTimer t { t with swi0Pending := false } := ⟨⟨rfl, rfl, rfl, rfl⟩, rfl, rfl, rfl⟩
    have hcleared := same.holds h
    obtain ⟨hsole, hcontexts⟩ := timerListHandler_sole hcleared.sole hcleared.contexts late
    exact ⟨hsole, hcontexts, timerListHandler_atRest hcleared.sole hcleared.rest late⟩
  · exact h.tick late

def checked (t : AppTimer γ) (ticksExpired : UInt32) : AppTimer γ :=
  timerListHandlerSched { t with
    rtc1Pending := false
    eventsCompare0 := false
    ticksElapsed := some ticksExpired }

theorem rtc1IrqHandler_cases (h : SoleNode t) :
    rtc1IrqHandler t = ([], t) ∨
      rtc1IrqHandler t = ([], { t with rtc1Pending := false, eventsCompare0 := false }) ∨
      ((t.nodes 0).isRunning = true ∧ rtc1IrqHandler t = ([], checked t 0)) ∨
      ((t.nodes 0).isRunning = true ∧ (t.nodes 0).ticksToExpire ≤ ticksDiffGet t.counter t.ticksLatest ∧
        rtc1IrqHandler t = ([t.nodes 0], checked t (t.nodes 0).ticksToExpire)) := by
  unfold rtc1IrqHandler
  split
  next =>
    by_cases hr : (t.nodes 0).isRunning = true
    · have hone := h.running_one hr
      by_cases hlt : ticksDiffGet t.counter t.ticksLatest < (t.nodes 0).ticksToExpire
      · refine Or.inr (Or.inr (Or.inl ⟨hr, ?_⟩))
        simp [timerTimeoutsCheck, hone, expiring, hlt, checked]
      · refine Or.inr (Or.inr (Or.inr ⟨hr, UInt32.not_lt.mp hlt, ?_⟩))
        simp [timerTimeoutsCheck, hone, expiring, hlt, checked]
    · have hnil := h.running_nil.mpr (by simpa using hr)
      refine Or.inr (Or.inl ?_)
      simp [timerTimeoutsCheck, hnil]
  next => exact Or.inl rfl

theorem TimerHolds.checked (h : TimerHolds P t) (hr : (t.nodes 0).isRunning = true) (e : UInt32) :
    TimerHolds P (checked t e) := by
  obtain ⟨⟨⟨hlist, hsingle, hmode⟩, hops, hothers⟩, ⟨hcontext, hstarts⟩, -⟩ := h
  exact ⟨⟨⟨hlist, hsingle, hmode⟩, hops, hothers⟩, ⟨hcontext, hstarts⟩, AtRest.of_running hr⟩

theorem TimerHolds.rtc1 (h : TimerHolds P t) : TimerHolds P (rtc1IrqHandler t).2 ∧
    ∀ node ∈ (rtc1IrqHandler t).1, P node.pContext := by
  rcases rtc1IrqHandler_cases h.sole.node with heq | heq | ⟨hr, heq⟩ | ⟨hr, -, heq⟩
  · rw [heq]
    exact ⟨h, by simp⟩
  · have same : SameTimer t { t with rtc1Pending := false, eventsCompare0 := false } :=
      ⟨⟨rfl, rfl, rfl, rfl⟩, rfl, rfl, rfl⟩
    rw [heq]
    exact ⟨same.holds h, by simp⟩
  · rw [heq]
    exact ⟨h.checked hr 0, by simp⟩
  · rw [heq]
    refine ⟨h.checked hr _, fun node hmem => ?_⟩
    rw [List.mem_singleton.mp hmem]
    exact h.contexts.node hr

theorem userOpSchedule_ok {user : TimerUser} {op : TimerUserOp γ}
    (h : (userOpSchedule t user op).1 = nrfSuccess) :
    (userOpSchedule t user op).2 = timerListHandlerSched (t.enqueue user op) := by
  unfold userOpSchedule at h ⊢
  split at h
  next hroom => rw [if_pos hroom]
  next => cases h

theorem appTimerStart_ok {user : TimerUser} {timerId : Nat} {timeoutTicks : UInt32} {pContext : γ}
    (hmode : (t.nodes timerId).mode = .singleShot)
    (h : (appTimerStart t user timerId timeoutTicks pContext).1 = nrfSuccess) :
    (appTimerStart t user timerId timeoutTicks pContext).2 = timerListHandlerSched
      (t.enqueue user (.start timerId ⟨t.counter, timeoutTicks, 0, pContext⟩)) := by
  have hperiodic : (if (t.nodes timerId).mode = .repeated then timeoutTicks else 0) = 0 := by
    rw [hmode]
    rfl
  unfold appTimerStart at h ⊢
  dsimp only at h ⊢
  rw [hperiodic] at h ⊢
  split at h
  next => cases h
  next hparam =>
    split at h
    next => cases h
    next hstate =>
      rw [if_neg hparam, if_neg hstate]
      exact userOpSchedule_ok h

theorem appTimerStop_ok {user : TimerUser} {timerId : Nat}
    (h : (appTimerStop t user timerId).1 = nrfSuccess) :
    (appTimerStop t user timerId).2 = timerListHandlerSched (t.enqueue user (.stop timerId)) := by
  unfold appTimerStop at h ⊢
  split at h
  next => cases h
  next hparam =>
    split at h
    next => cases h
    next hstate =>
      rw [if_neg hparam, if_neg hstate]
      exact userOpSchedule_ok h

theorem TimerHolds.enqueue (h : TimerHolds P t) {op : TimerUserOp γ} (hop : SoleOp op)
    (hcontext : ∀ params, op = .start 0 params → P params.pContext) :
    TimerHolds P (timerListHandlerSched (t.enqueue .appLow op)) := by
  obtain ⟨⟨⟨hlist, hsingle, hmode⟩, hops, hothers⟩, ⟨hnode, hstarts⟩, ⟨h1, h2, h3, h4⟩⟩ := h
  refine ⟨⟨⟨hlist, hsingle, hmode⟩, ?_, ?_⟩, ⟨hnode, ?_⟩, ⟨h1, h2, h3, h4⟩⟩
  · intro op' hmem
    rcases List.mem_append.mp hmem with hold | hnew
    · exact hops op' hold
    · rw [List.mem_singleton.mp hnew]
      exact hop
  · intro user hne
    exact (if_neg hne).trans (hothers user hne)
  · intro params hmem
    rcases List.mem_append.mp hmem with hold | hnew
    · exact hstarts params hold
    · exact hcontext params (List.mem_singleton.mp hnew).symm

theorem TimerHolds.start (h : TimerHolds P t) {timeoutTicks : UInt32} {pContext : γ}
    (hcontext : P pContext)
    (hok : (appTimerStart t .appLow 0 timeoutTicks pContext).1 = nrfSuccess) :
    TimerHolds P (appTimerStart t .appLow 0 timeoutTicks pContext).2 := by
  rw [appTimerStart_ok h.sole.node.mode hok]
  refine h.enqueue (Or.inr ⟨_, rfl, rfl⟩) fun params heq => ?_
  cases heq
  exact hcontext

theorem TimerHolds.stop (h : TimerHolds P t) (hok : (appTimerStop t .appLow 0).1 = nrfSuccess) :
    TimerHolds P (appTimerStop t .appLow 0).2 := by
  rw [appTimerStop_ok hok]
  exact h.enqueue (Or.inl rfl) fun params heq => by cases heq

end BleSpeedSensor
