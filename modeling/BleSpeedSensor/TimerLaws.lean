import BleSpeedSensor.TimerStarts

namespace BleSpeedSensor

open DeltaQueue RunSystem

section Runs

variable {γ : Type}

/-- The module after any calls, ticks and interrupts. -/
def timerRun (node : TimerNode γ) (maxTimers opQueuesSize : Nat) (calls : List (TimerCall γ)) :
    AppTimer γ :=
  runFrom timerStep (appTimerInit node maxTimers opQueuesSize) calls

theorem timerRun_clocked (node : TimerNode γ) (maxTimers opQueuesSize : Nat)
    (calls : List (TimerCall γ)) : Clocked (timerRun node maxTimers opQueuesSize calls) :=
  run_clocked (appTimerInit_clocked node maxTimers opQueuesSize) calls

/-- In any run the list holds every timer marked as running once, its gaps never wrap, and RTC1
counts while it is not empty. -/
theorem timerRun_list_consistent (node : TimerNode γ) (maxTimers opQueuesSize : Nat)
    (calls : List (TimerCall γ)) :
    Queued (timerRun node maxTimers opQueuesSize calls) ∧
      ((timerRun node maxTimers opQueuesSize calls).running ≠ [] →
        (timerRun node maxTimers opQueuesSize calls).rtc1Running = true) :=
  have h := timerRun_clocked node maxTimers opQueuesSize calls
  ⟨h.queued, h.counting⟩

/-- In any run the list is as good as a table of deadlines: its update does to each timer what the
law for its row says, and the deadlines count from the tick of the clock. -/
theorem timerRun_update_law (node : TimerNode γ) (maxTimers opQueuesSize : Nat)
    (calls : List (TimerCall γ)) (late : Nat) {t : AppTimer γ}
    (ht : timerRun node maxTimers opQueuesSize calls = t) :
    (∀ timerId, (timerListHandler t late).alarm timerId =
      updatedAlarm t.updateClock (t.row timerId)) ∧
      ((timerListHandler t late).running ≠ [] →
        (timerListHandler t late).ticksLatest = t.updateClock.latest) := by
  have h : Clocked t := ht ▸ timerRun_clocked node maxTimers opQueuesSize calls
  exact ⟨(timerListHandler_alarm h.queued late).2, timerListHandler_ticksLatest h.queued⟩

def unusedNode : TimerNode Unit := ⟨false, .singleShot, 0, 0, 0, 0, false, 0, ()⟩

/-- A repeated timer is started with 100 ticks. -/
def startedRun : List (TimerCall Unit) :=
  [.create .repeated 1, .start .threadMode 0 100 (), .swi0 0]

/-- A second timer is started 20 ticks after the first, and 100 ticks later the first is due. -/
def startedTwoRun : List (TimerCall Unit) :=
  [.create .repeated 1, .create .repeated 1, .start .threadMode 0 100 (), .swi0 0, .tick 20,
    .start .appLow 1 100 (), .swi0 0, .tick 100, .rtc1]

/-- The only timer that runs is stopped and another started 20 ticks after the last update: RTC1 is
cleared, and the other is due 120 ticks after that. -/
def stoppedLastRun : List (TimerCall Unit) :=
  [.create .repeated 1, .create .repeated 1, .start .threadMode 0 100 (), .swi0 0, .tick 20,
    .stop .threadMode 0, .start .threadMode 1 100 ()]

theorem timerRun_update_law_stopped :
    (timerListHandler (timerRun unusedNode 2 4 stoppedLastRun) 0).alarm 1 = some 120 :=
  (timerRun_update_law unusedNode 2 4 stoppedLastRun 0 rfl).1 1

/-- In any run the RTC1 interrupt executes the timers that are due, once each and in the order they
are due, and hands on the ticks after which the update finds the same timers expired. -/
theorem timerRun_executes_due (node : TimerNode γ) (maxTimers opQueuesSize : Nat)
    (calls : List (TimerCall γ)) {t : AppTimer γ}
    (ht : timerRun node maxTimers opQueuesSize calls = t) :
    ∃ ids : List Nat, (rtc1IrqHandler t).1 = ids.map t.nodes ∧ ids.Nodup ∧
      (ids.Pairwise fun i j => ∀ d e, t.alarm i = some d → t.alarm j = some e → d ≤ e) ∧
      (∀ i, i ∈ ids ↔ t.rtc1Due = true ∧ ∃ d, t.alarm i = some d ∧ d ≤ t.elapsed) ∧
      (t.rtc1Due = true → t.running ≠ [] → ∃ n, (rtc1IrqHandler t).2.ticksElapsed = some n ∧
        ∀ i d, t.alarm i = some d → (i ∈ ids ↔ d ≤ n.toNat)) := by
  have h : Clocked t := ht ▸ timerRun_clocked node maxTimers opQueuesSize calls
  have hkeys : (keys t.queue).Nodup := by
    rw [keys_queue]
    exact h.queued.nodup
  refine ⟨executed t, rtc1IrqHandler_executes t, ?_, ?_, fun i => executed_iff h.queued, ?_⟩
  · rw [executed_eq]
    split
    · rw [← overdue_append_keys_advance t.elapsed t.queue, List.nodup_append] at hkeys
      exact hkeys.1
    · exact List.nodup_nil
  · rw [executed_eq]
    split
    · exact overdue_pairwise hkeys t.elapsed
    · exact List.Pairwise.nil
  · intro hdue hne
    refine ⟨UInt32.ofNat (overdueSpan t.elapsed t.queue), ?_, fun i d hd => ?_⟩
    · rw [rtc1IrqHandler_due hdue hne]
      rfl
    · rw [executed_eq, if_pos hdue, toNat_overdueSpan, ← overdue_overdueSpan, mem_overdue_iff hkeys]
      constructor
      · rintro ⟨e, he, hle⟩
        cases he.symm.trans hd
        exact hle
      · intro hle
        exact ⟨d, hd, hle⟩

/-- A timer started with 100 ticks is executed by the interrupt that finds them counted. -/
theorem timerRun_executes_due_tick : ∃ ids : List Nat,
    (rtc1IrqHandler (timerRun unusedNode 1 4 (startedRun ++ [.tick 100]))).1 =
        ids.map (timerRun unusedNode 1 4 (startedRun ++ [.tick 100])).nodes ∧
      0 ∈ ids := by
  obtain ⟨ids, hexecuted, -, -, hdue, -⟩ :=
    timerRun_executes_due unusedNode 1 4 (startedRun ++ [.tick 100]) rfl
  exact ⟨ids, hexecuted, (hdue 0).mpr ⟨by decide, 100, by decide, by decide⟩⟩

/-- Whatever the other timers do, a timer that is not stopped is not executed before its deadline,
and until then keeps it. -/
theorem timerRun_not_early (node : TimerNode γ) (maxTimers opQueuesSize : Nat)
    (calls calls' : List (TimerCall γ)) {t u : AppTimer γ} {timerId d : Nat}
    (ht : timerRun node maxTimers opQueuesSize calls = t) (halarm : t.alarm timerId = some d)
    (hread : ∀ n, t.ticksElapsed = some n → n.toNat ≤ t.elapsed) (hstop : NoStop timerId t)
    (hcalls : ∀ call ∈ calls', call.stops timerId = false)
    (hu : runFrom timerStep t calls' = u) :
    (timerId ∈ executed u → d ≤ t.elapsed + ticksOf calls') ∧
      (t.elapsed + ticksOf calls' < d → OnTime timerId d (t.elapsed + ticksOf calls') u) := by
  have h : Clocked t := ht ▸ timerRun_clocked node maxTimers opQueuesSize calls
  have hclocked : Clocked u := hu ▸ run_clocked h calls'
  have hrun := run_onTime h hstop (OnTime.start halarm hread) hcalls
  rw [hu] at hrun
  constructor
  · intro hexecuted
    rcases hrun with hdue | hkept
    · exact hdue
    · exact hkept.due_of_executed hclocked hexecuted
  · intro hearly
    exact hrun.resolve_left (Nat.not_le.mpr hearly)

theorem ticksToInsert_restart {previous n period : UInt32} {d : Nat} (hdue : d ≤ n.toNat)
    (hn : n.toNat < 16777216) (hlate : n.toNat - d < 8388608) :
    (ticksToInsert ((previous + n) &&& maxRtcCounterVal)
      ((previous + UInt32.ofNat d) &&& maxRtcCounterVal) period).toNat = d + period.toNat - n.toNat := by
  have hd : (UInt32.ofNat d).toNat = d := by
    rw [UInt32.toNat_ofNat']
    exact Nat.mod_eq_of_lt (by omega)
  have hp := period.toNat_lt
  have hforth : (ticksDiffGet ((previous + UInt32.ofNat d) &&& maxRtcCounterVal)
      ((previous + n) &&& maxRtcCounterVal)).toNat = (16777216 - (n.toNat - d)) % 16777216 := by
    rw [ticksDiffGet_toNat, toNat_and_maxRtcCounterVal, toNat_and_maxRtcCounterVal, UInt32.toNat_add,
      UInt32.toNat_add, hd]
    omega
  have hback : (ticksDiffGet ((previous + n) &&& maxRtcCounterVal)
      ((previous + UInt32.ofNat d) &&& maxRtcCounterVal)).toNat = n.toNat - d := by
    rw [ticksDiffGet_toNat, toNat_and_maxRtcCounterVal, toNat_and_maxRtcCounterVal, UInt32.toNat_add,
      UInt32.toNat_add, hd]
    omega
  have hhalf : (maxRtcCounterVal / 2).toNat = 8388607 := by decide
  unfold ticksToInsert
  split
  next hahead =>
    rw [UInt32.lt_iff_toNat_lt, hforth, hhalf] at hahead
    rw [UInt32.toNat_add, hforth]
    omega
  next =>
    dsimp only
    split
    next hmore =>
      have hlt := UInt32.lt_iff_toNat_lt.mp hmore
      rw [UInt32.toNat_sub_of_le _ _ (UInt32.le_of_lt hmore), hback]
      omega
    next hless =>
      have hle := UInt32.le_iff_toNat_le.mp (UInt32.not_lt.mp hless)
      rw [hback] at hle
      rw [UInt32.toNat_zero]
      omega

/-- A repeated timer does not drift: however late its expiry is handled, it is next due one interval
after it was due, or at once when that is past. -/
theorem timerRun_no_drift (node : TimerNode γ) (maxTimers opQueuesSize : Nat)
    (calls : List (TimerCall γ)) (late : Nat) {t : AppTimer γ} {timerId d : Nat} {n : UInt32}
    (ht : timerRun node maxTimers opQueuesSize calls = t) (halarm : t.alarm timerId = some d)
    (hread : t.ticksElapsed = some n) (hdue : d ≤ n.toNat) (hlate : n.toNat - d < 8388608)
    (hperiodic : t.periodic timerId = true) (hstop : NoStop timerId t) :
    (timerListHandler t late).alarm timerId =
        some (d + (t.nodes timerId).ticksPeriodicInterval.toNat - n.toNat) ∧
      (timerListHandler t late).ticksLatest = (t.ticksLatest + n) &&& maxRtcCounterVal := by
  have h : Clocked t := ht ▸ timerRun_clocked node maxTimers opQueuesSize calls
  obtain ⟨-, -, -, hdeleted⟩ := deleted_alarm h.queued rfl
  have hkept := hdeleted timerId
  rw [hstop.ops, if_neg Bool.false_ne_true, halarm] at hkept
  have hlatest : t.updateClock.latest = (t.ticksLatest + n) &&& maxRtcCounterVal := by
    have hclock := (deletions_keep_clock (alarm_running hkept)).ticksLatest
    rw [← deleted_ticksLatest h.queued, hclock]
    unfold elapsedTicksAcquire
    rw [hread]
  have hp : (t.nodes timerId).ticksPeriodicInterval ≠ 0 := by
    unfold AppTimer.periodic at hperiodic
    simpa using hperiodic
  have hrow : (t.row timerId).stopped = false := hstop.ops
  have hupdated : updatedAlarm t.updateClock (t.row timerId) =
      some (d + (t.nodes timerId).ticksPeriodicInterval.toNat - n.toNat) := by
    unfold updatedAlarm
    dsimp only
    rw [hrow, if_neg Bool.false_ne_true, hlatest]
    unfold AppTimer.row AppTimer.updateClock
    dsimp only
    rw [halarm, hread, Option.bind_some, elapsedAlarm, if_neg (Nat.not_lt.mpr hdue), if_pos hp,
      ticksToInsert_restart hdue (h.elapsed n hread) hlate, Option.some_or]
  have hnext := ((timerListHandler_alarm h.queued late).2 timerId).trans hupdated
  exact ⟨hnext, (timerListHandler_ticksLatest h.queued (alarm_running hnext)).trans hlatest⟩

/-- The update handles an expiry 20 ticks late: the timer is due again 80 ticks later. -/
theorem timerRun_no_drift_late :
    (timerListHandler (timerRun unusedNode 2 4 startedTwoRun) 0).alarm 0 = some 80 := by
  refine (timerRun_no_drift (d := 100) (n := 120) unusedNode 2 4 startedTwoRun 0 rfl ?_ ?_ ?_ ?_ ?_ ?_).1
  · decide
  · decide
  · decide
  · decide
  · decide
  · intro user
    cases user <;> rfl

end Runs

end BleSpeedSensor
