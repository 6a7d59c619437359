import BleSpeedSensor.TimerRuns

namespace BleSpeedSensor

open DeltaQueue RunSystem

/-- What holds of the module between two steps of any run: RTC1 counts while a timer runs, and what
has elapsed unread is less than its period. -/
structure Clocked {γ : Type} (t : AppTimer γ) : Prop where
  queued : Queued t
  counting : t.running ≠ [] → t.rtc1Running = true
  elapsed : ∀ n, t.ticksElapsed = some n → n.toNat < 16777216

variable {γ : Type} {t u : AppTimer γ} {i timerId : Nat}

theorem Clocked.of_same (h : Clocked t) (hnodes : u.nodes = t.nodes) (hrunning : u.running = t.running)
    (hrtc : u.rtc1Running = t.rtc1Running) (helapsed : u.ticksElapsed = t.ticksElapsed) :
    Clocked u := by
  refine ⟨h.queued.of_same hnodes hrunning, ?_, ?_⟩
  · rw [hrunning, hrtc]
    exact h.counting
  · rw [helapsed]
    exact h.elapsed

theorem appTimerInit_clocked (node : TimerNode γ) (maxTimers opQueuesSize : Nat) :
    Clocked (appTimerInit node maxTimers opQueuesSize) := by
  refine ⟨⟨List.nodup_nil, fun i => ?_, Nat.zero_lt_succ _⟩, fun hne => absurd rfl hne, ?_⟩
  · exact iff_of_false Bool.false_ne_true List.not_mem_nil
  · intro n hn
    cases hn

theorem elapsed_lt (t : AppTimer γ) : t.elapsed < 16777216 := by
  unfold AppTimer.elapsed
  rw [ticksDiffGet_toNat]
  exact Nat.mod_lt _ (by decide)

theorem toNat_overdueSpan (t : AppTimer γ) :
    (UInt32.ofNat (overdueSpan t.elapsed t.queue)).toNat = overdueSpan t.elapsed t.queue := by
  have hle := overdueSpan_le t.elapsed t.queue
  have hlt := elapsed_lt t
  rw [UInt32.toNat_ofNat']
  exact Nat.mod_eq_of_lt (by omega)

theorem rtc1_clocked (h : Clocked t) : Clocked (rtc1IrqHandler t).2 := by
  by_cases hidle : t.rtc1Due = false ∨ t.running = []
  · obtain ⟨-, pending, event, heq⟩ := rtc1IrqHandler_idle hidle
    rw [heq]
    exact h.of_same rfl rfl rfl rfl
  · rw [not_or] at hidle
    rw [rtc1IrqHandler_due (by simpa using hidle.1) hidle.2]
    refine ⟨h.queued.of_same rfl rfl, h.counting, fun n hn => ?_⟩
    have hn' : UInt32.ofNat (overdueSpan t.elapsed t.queue) = n := Option.some.inj hn
    have hle := overdueSpan_le t.elapsed t.queue
    have hlt := elapsed_lt t
    rw [← hn', toNat_overdueSpan]
    omega

theorem elapsedTicksAcquire_clock (t : AppTimer γ) :
    (elapsedTicksAcquire t).2.counter = t.counter ∧
      (elapsedTicksAcquire t).2.rtc1Running = t.rtc1Running ∧
      (elapsedTicksAcquire t).2.ticksLatest.toNat % 16777216 =
        (t.ticksLatest.toNat + (t.ticksElapsed.elim 0 UInt32.toNat)) % 16777216 := by
  unfold elapsedTicksAcquire
  split
  next n hn =>
    refine ⟨rfl, rfl, ?_⟩
    dsimp only
    rw [toNat_and_maxRtcCounterVal, UInt32.toNat_add, hn, Option.elim_some]
    omega
  next hn =>
    refine ⟨rfl, rfl, ?_⟩
    dsimp only
    rw [hn, Option.elim_none, Nat.add_zero]

/-- Until the insertions, an update that leaves a timer running does not touch the clock. -/
theorem deletions_keep_clock (hne : (listDeletionsHandler (elapsedTicksAcquire t).2).2.running ≠ []) :
    OnlyList (elapsedTicksAcquire t).2 (listDeletionsHandler (elapsedTicksAcquire t).2).2 :=
  (deletions_frame (elapsedTicksAcquire t).2 (elapsedTicksAcquire t).2.ops).sameClock hne

theorem listUpdated_eq (h : Queued t) : ∃ w, OnlyList
    (listDeletionsHandler (elapsedTicksAcquire t).2).2 w ∧
      listUpdated t = { w with userOps := fun _ => [] } := by
  obtain ⟨hdeleted, -, -, -⟩ := deleted_alarm h rfl
  obtain ⟨hrestarted, honly, -⟩ :=
    handleElapsed_alarm hdeleted t.ticksLatest (elapsedTicksAcquire t).1 rfl
  obtain ⟨-, honly', -⟩ := starts_alarm hrestarted
    (handleElapsed (listDeletionsHandler (elapsedTicksAcquire t).2).2 t.ticksLatest
      (elapsedTicksAcquire t).1).2.ops
  exact ⟨_, honly.trans honly', rfl⟩

theorem listUpdated_ticksElapsed (h : Queued t) : (listUpdated t).ticksElapsed = none := by
  obtain ⟨w, honly, heq⟩ := listUpdated_eq h
  have hframe := deletions_frame (elapsedTicksAcquire t).2 (elapsedTicksAcquire t).2.ops
  rw [heq]
  exact honly.ticksElapsed.trans (hframe.ticksElapsed.trans (elapsedTicksAcquire_same t).ticksElapsed)

theorem head_ne_none_iff {xs : List Nat} : xs.head? ≠ none ↔ xs ≠ [] := by
  rw [Ne, List.head?_eq_none_iff]

/-- The compare register is left alone only where the first timer stays the one it was and nothing has
elapsed. -/
theorem timerListHandler_idle_head {late : Nat} : timerListHandler t late =
      compareRegUpdate (listUpdated t) late ∨
    timerListHandler t late = (listUpdated t).tick late ∧
      (listUpdated t).running.head? =
        (listDeletionsHandler (elapsedTicksAcquire t).2).2.running.head? ∧
      (listDeletionsHandler (elapsedTicksAcquire t).2).2.running.head? = t.running.head? ∧
      t.ticksElapsed = none := by
  unfold timerListHandler
  dsimp only
  split
  next => exact Or.inl rfl
  next hidle =>
    rw [Bool.not_eq_true, Bool.or_eq_false_iff, Bool.or_eq_false_iff] at hidle
    obtain ⟨⟨hdeleted, hnone⟩, hhead⟩ := hidle
    have hacquired : (elapsedTicksAcquire t).1 = none := Option.not_isSome_iff_eq_none.mp (by simp [hnone])
    refine Or.inr ⟨rfl, ?_, ?_, ?_⟩
    · rw [hacquired] at hhead
      unfold listUpdated
      dsimp only
      rw [hacquired]
      exact bne_eq_false_iff_eq.mp hhead
    · rw [← (elapsedTicksAcquire_same t).running]
      exact bne_eq_false_iff_eq.mp hdeleted
    · rw [← elapsedTicksAcquire_ticks]
      exact hacquired

theorem deletions_nonempty (hne : (listDeletionsHandler (elapsedTicksAcquire t).2).2.running ≠ []) :
    t.running ≠ [] := by
  intro hnil
  have hacquired := (elapsedTicksAcquire_same t).running.trans hnil
  exact hne ((deletions_frame (elapsedTicksAcquire t).2 (elapsedTicksAcquire t).2.ops).emptied hacquired)

theorem listUpdated_rtc1Running (h : Clocked t)
    (hne : (listDeletionsHandler (elapsedTicksAcquire t).2).2.running ≠ []) :
    (listUpdated t).rtc1Running = true := by
  obtain ⟨w, honly, heq⟩ := listUpdated_eq h.queued
  have hkept := (deletions_keep_clock hne).rtc1Running
  have hacquired := (elapsedTicksAcquire_clock t).2.1
  rw [heq]
  exact honly.rtc1Running.trans (hkept.trans (hacquired.trans (h.counting (deletions_nonempty hne))))

theorem timerListHandler_clocked (h : Clocked t) (late : Nat) : Clocked (timerListHandler t late) := by
  have same := timerListHandler_same t late
  refine ⟨(timerListHandler_alarm h.queued late).1, fun hne => ?_, fun n hn => ?_⟩
  · rw [same.running] at hne
    rcases timerListHandler_idle_head (t := t) with hupdate | ⟨htick, hhead, -⟩
    · obtain ⟨cc, pending, heq⟩ := compareRegUpdate_armed (t := listUpdated t) hne late
      obtain ⟨started, hstart⟩ := rtc1StartIfStopped_eq (listUpdated t)
      have hrunning : ((rtc1StartIfStopped (listUpdated t)).tick late).rtc1Running = true := by
        unfold AppTimer.tick
        rw [hstart]
        rfl
      rw [hupdate]
      exact (congrArg AppTimer.rtc1Running heq).trans hrunning
    · have hdeleted : (listDeletionsHandler (elapsedTicksAcquire t).2).2.running ≠ [] := by
        rw [← head_ne_none_iff, ← hhead, head_ne_none_iff]
        exact hne
      have hrunning := listUpdated_rtc1Running h hdeleted
      rw [htick]
      unfold AppTimer.tick
      rw [if_pos hrunning]
      exact hrunning
  · rw [same.ticksElapsed, listUpdated_ticksElapsed h.queued] at hn
    cases hn

theorem tick_clocked (h : Clocked t) (n : Nat) : Clocked (t.tick n) := by
  have same := AppTimer.tick_same t n
  refine h.of_same same.nodes same.running ?_ same.ticksElapsed
  unfold AppTimer.tick
  split <;> rfl

theorem swi0_clocked (h : Clocked t) (late : Nat) : Clocked (swi0IrqHandler t late) := by
  unfold swi0IrqHandler
  split
  · refine timerListHandler_clocked ?_ late
    exact h.of_same rfl rfl rfl rfl
  · exact tick_clocked h late

/-- What a call of an application leaves as it is. -/
structure OnlyOps (t u : AppTimer γ) : Prop where
  alarm : ∀ i, u.alarm i = t.alarm i
  running : u.running = t.running
  rtc1Running : u.rtc1Running = t.rtc1Running
  counter : u.counter = t.counter
  ticksLatest : u.ticksLatest = t.ticksLatest
  ticksElapsed : u.ticksElapsed = t.ticksElapsed
  clocked : Clocked t → Clocked u

theorem OnlyOps.refl (t : AppTimer γ) : OnlyOps t t := ⟨fun _ => rfl, rfl, rfl, rfl, rfl, rfl, id⟩

theorem OnlyOps.elapsed (h : OnlyOps t u) : u.elapsed = t.elapsed := by
  unfold AppTimer.elapsed
  rw [h.counter, h.ticksLatest]

theorem userOpSchedule_onlyOps (t : AppTimer γ) (user : TimerUser) (op : TimerUserOp γ) :
    OnlyOps t (userOpSchedule t user op).2 := by
  unfold userOpSchedule
  split
  · exact ⟨fun _ => rfl, rfl, rfl, rfl, rfl, rfl, fun h => h.of_same rfl rfl rfl rfl⟩
  · exact OnlyOps.refl t

theorem appTimerStart_onlyOps (t : AppTimer γ) (user : TimerUser) (timerId : Nat)
    (timeoutTicks : UInt32) (pContext : γ) :
    OnlyOps t (appTimerStart t user timerId timeoutTicks pContext).2 := by
  unfold appTimerStart
  split
  · exact OnlyOps.refl t
  · split
    · exact OnlyOps.refl t
    · exact userOpSchedule_onlyOps t user _

theorem appTimerStop_onlyOps (t : AppTimer γ) (user : TimerUser) (timerId : Nat) :
    OnlyOps t (appTimerStop t user timerId).2 := by
  unfold appTimerStop
  split
  · exact OnlyOps.refl t
  · split
    · exact OnlyOps.refl t
    · exact userOpSchedule_onlyOps t user _

theorem setNode_onlyOps (t : AppTimer γ) {timerId : Nat} {node : TimerNode γ}
    (hticks : node.ticksToExpire = (t.nodes timerId).ticksToExpire)
    (hrunning : node.isRunning = (t.nodes timerId).isRunning) :
    OnlyOps t (t.setNode timerId node) := by
  have hqueue := queue_setNode t timerId node hticks
  refine ⟨fun i => ?_, rfl, rfl, rfl, rfl, rfl,
    fun h => ⟨⟨h.queued.nodup, fun i => ?_, ?_⟩, h.counting, h.elapsed⟩⟩
  · unfold AppTimer.alarm
    rw [hqueue]
  · by_cases hi : i = timerId
    · subst hi
      rw [AppTimer.setNode_self, hrunning]
      exact h.queued.isRunning i
    · rw [AppTimer.setNode_ne hi]
      exact h.queued.isRunning i
  · rw [hqueue]
    exact h.queued.span

theorem appTimerCreate_onlyOps (t : AppTimer γ) (mode : AppTimerMode) (timeoutHandler : UInt32) :
    OnlyOps t (appTimerCreate t mode timeoutHandler).2.2 := by
  unfold appTimerCreate
  split
  · exact OnlyOps.refl t
  · split
    · exact setNode_onlyOps t rfl rfl
    · exact OnlyOps.refl t

theorem timerStep_clocked (h : Clocked t) (call : TimerCall γ) : Clocked (timerStep t call) := by
  cases call with
  | create mode timeoutHandler => exact (appTimerCreate_onlyOps t mode timeoutHandler).clocked h
  | start user timerId timeoutTicks pContext =>
    exact (appTimerStart_onlyOps t user timerId timeoutTicks pContext).clocked h
  | stop user timerId => exact (appTimerStop_onlyOps t user timerId).clocked h
  | stopAll user => exact (userOpSchedule_onlyOps t user .stopAll).clocked h
  | tick n => exact tick_clocked h n
  | rtc1 => exact rtc1_clocked h
  | swi0 late => exact swi0_clocked h late

theorem run_clocked (h : Clocked t) (calls : List (TimerCall γ)) :
    Clocked (runFrom timerStep t calls) := by
  induction calls generalizing t with
  | nil => exact h
  | cons call calls ih => exact ih (timerStep_clocked h call)

end BleSpeedSensor
