import BleSpeedSensor.TimerClock

namespace BleSpeedSensor

open DeltaQueue RunSystem

variable {γ : Type} {t u : AppTimer γ} {i timerId : Nat}

/-- Since some moment `now` ticks have been counted, and the timer is due `deadline` ticks after that
moment; the list has accounted for the first `passed` of them. -/
def OnTime (timerId deadline now : Nat) (t : AppTimer γ) : Prop :=
  ∃ passed, passed ≤ now ∧ passed ≤ deadline ∧ t.alarm timerId = some (deadline - passed) ∧
    t.elapsed = (now - passed) % 16777216 ∧ ∀ n, t.ticksElapsed = some n → n.toNat ≤ now - passed

def NoStop (timerId : Nat) (t : AppTimer γ) : Prop :=
  ∀ user, (t.userOps user).any (TimerUserOp.stops timerId) = false

variable {deadline now : Nat}

theorem OnlyOps.onTime (h : OnlyOps t u) (ht : OnTime timerId deadline now t) :
    OnTime timerId deadline now u := by
  unfold OnTime at ht ⊢
  rw [h.alarm, h.elapsed, h.ticksElapsed]
  exact ht

theorem NoStop.ops (h : NoStop timerId t) : t.ops.any (TimerUserOp.stops timerId) = false := by
  unfold AppTimer.ops
  rw [List.any_append, List.any_append, h, h, h]
  rfl

theorem NoStop.of_same (h : NoStop timerId t) (hops : u.userOps = t.userOps) : NoStop timerId u := by
  unfold NoStop
  rw [hops]
  exact h

theorem NoStop.schedule (h : NoStop timerId t) (user : TimerUser) {op : TimerUserOp γ}
    (hop : op.stops timerId = false) : NoStop timerId (userOpSchedule t user op).2 := by
  unfold userOpSchedule
  split
  · intro u
    change (if u = user then t.userOps u ++ [op] else t.userOps u).any _ = false
    split
    · rw [List.any_append, h u, List.any_cons, hop]
      rfl
    · exact h u
  · exact h

theorem tick_elapsed (h : t.rtc1Running = true) (n : Nat) :
    (t.tick n).elapsed = (t.elapsed + n) % 16777216 := by
  have hlatest := t.ticksLatest.toNat_lt
  unfold AppTimer.elapsed
  rw [ticksDiffGet_toNat, ticksDiffGet_toNat, AppTimer.tick_counting h, toNat_ofNat_mod,
    AppTimer.tick_ticksLatest]
  unfold rtcCounterPeriod
  omega

theorem alarm_running {d : Nat} (h : t.alarm timerId = some d) : t.running ≠ [] := by
  intro hnil
  have hmem : timerId ∈ t.running := alarm_isSome_iff.mp (by rw [h]; rfl)
  rw [hnil] at hmem
  cases hmem

theorem tick_onTime (h : Clocked t) (n : Nat) (ht : OnTime timerId deadline now t) :
    OnTime timerId deadline (now + n) (t.tick n) := by
  obtain ⟨passed, hnow, hdeadline, halarm, helapsed, hunread⟩ := ht
  have same := AppTimer.tick_same t n
  refine ⟨passed, by omega, hdeadline, ?_, ?_, ?_⟩
  · rw [same.alarm]
    exact halarm
  · rw [tick_elapsed (h.counting (alarm_running halarm)), helapsed]
    omega
  · intro m hm
    rw [same.ticksElapsed] at hm
    have := hunread m hm
    omega

theorem rtc1_onTime (ht : OnTime timerId deadline now t) :
    OnTime timerId deadline now (rtc1IrqHandler t).2 := by
  obtain ⟨passed, hnow, hdeadline, halarm, helapsed, hunread⟩ := ht
  by_cases hidle : t.rtc1Due = false ∨ t.running = []
  · obtain ⟨-, pending, event, heq⟩ := rtc1IrqHandler_idle hidle
    rw [heq]
    exact ⟨passed, hnow, hdeadline, halarm, helapsed, hunread⟩
  · rw [not_or] at hidle
    rw [rtc1IrqHandler_due (by simpa using hidle.1) hidle.2]
    refine ⟨passed, hnow, hdeadline, halarm, helapsed, fun n hn => ?_⟩
    have hn' : UInt32.ofNat (overdueSpan t.elapsed t.queue) = n := Option.some.inj hn
    have hle := overdueSpan_le t.elapsed t.queue
    have hmod := Nat.mod_le (now - passed) 16777216
    rw [← hn', toNat_overdueSpan]
    omega

theorem compareRegUpdate_elapsed (h : t.running ≠ []) (late : Nat) :
    (compareRegUpdate t late).elapsed = (t.elapsed + late) % 16777216 := by
  obtain ⟨hlatest, hcounter⟩ := compareRegUpdate_counting h late
  have hb := t.ticksLatest.toNat_lt
  unfold AppTimer.elapsed
  rw [ticksDiffGet_toNat, ticksDiffGet_toNat, hcounter, toNat_ofNat_mod, hlatest]
  unfold rtcCounterPeriod
  omega

/-- The list accounts for the ticks read, the counter goes on by those the interrupt takes. -/
theorem timerListHandler_elapsed (h : Clocked t)
    (hne : (listDeletionsHandler (elapsedTicksAcquire t).2).2.running ≠ [])
    (hne' : (listUpdated t).running ≠ []) {n now : Nat}
    (hn : t.ticksElapsed.elim 0 UInt32.toNat = n) (hle : n ≤ now) (hnow : t.elapsed = now % 16777216)
    (late : Nat) : (timerListHandler t late).elapsed = (now + late - n) % 16777216 := by
  obtain ⟨w, honly, heq⟩ := listUpdated_eq h.queued
  have hkept := deletions_keep_clock hne
  obtain ⟨hcounter, -, hlatest⟩ := elapsedTicksAcquire_clock t
  have hcounter' : (listUpdated t).counter = t.counter := by
    rw [heq]
    exact honly.counter.trans (hkept.counter.trans hcounter)
  have hlatest' : (listUpdated t).ticksLatest = (elapsedTicksAcquire t).2.ticksLatest := by
    rw [heq]
    exact honly.ticksLatest.trans hkept.ticksLatest
  have hupdated : (listUpdated t).elapsed = (now - n) % 16777216 := by
    have hb := t.ticksLatest.toNat_lt
    have hb' := (elapsedTicksAcquire t).2.ticksLatest.toNat_lt
    unfold AppTimer.elapsed at hnow ⊢
    rw [ticksDiffGet_toNat] at hnow ⊢
    rw [hcounter', hlatest']
    rw [hn] at hlatest
    omega
  have hlate : (timerListHandler t late).elapsed = ((listUpdated t).elapsed + late) % 16777216 := by
    rcases timerListHandler_cases t late with hupdate | htick
    · rw [hupdate, compareRegUpdate_elapsed hne' late]
    · rw [htick, tick_elapsed (listUpdated_rtc1Running h hne) late]
  rw [hlate, hupdated]
  omega

theorem updatedAlarm_running {d : Nat} (hstop : NoStop timerId t) (halarm : t.alarm timerId = some d) :
    t.ticksElapsed.elim 0 UInt32.toNat < d ∨ t.ticksElapsed = none →
      updatedAlarm t.updateClock (t.row timerId) = some (d - t.ticksElapsed.elim 0 UInt32.toNat) := by
  intro hlater
  have hkept : (t.row timerId).stopped = false := hstop.ops
  have hrow : (t.row timerId).alarm = some d := halarm
  have hread : t.updateClock.ticksElapsed = t.ticksElapsed := rfl
  unfold updatedAlarm
  rw [hkept, hrow, hread]
  cases hn : t.ticksElapsed with
  | none => rfl
  | some n =>
    rw [hn, Option.elim_some] at hlater
    have hlt : n.toNat < d := by simpa using hlater
    simp [elapsedAlarm, hlt]

theorem timerListHandler_onTime (h : Clocked t) (hstop : NoStop timerId t)
    (ht : OnTime timerId deadline now t) (late : Nat) :
    deadline ≤ now ∨ OnTime timerId deadline (now + late) (timerListHandler t late) := by
  obtain ⟨passed, hnow, hdeadline, halarm, helapsed, hunread⟩ := ht
  have hread : t.ticksElapsed.elim 0 UInt32.toNat ≤ now - passed := by
    cases hn : t.ticksElapsed with
    | none => exact Nat.zero_le _
    | some n => exact hunread n hn
  by_cases hlater : t.ticksElapsed.elim 0 UInt32.toNat < deadline - passed ∨ t.ticksElapsed = none
  · right
    have hupdated := updatedAlarm_running hstop halarm hlater
    obtain ⟨-, -, hlist⟩ := listUpdated_alarm h.queued
    obtain ⟨-, -, -, hdeleted⟩ := deleted_alarm h.queued rfl
    have hkept := hdeleted timerId
    rw [hstop.ops, if_neg Bool.false_ne_true, halarm] at hkept
    have hne := alarm_running hkept
    have hne' := alarm_running ((hlist timerId).trans hupdated)
    have hclock := timerListHandler_elapsed h hne hne' rfl hread helapsed late
    have hticks : t.ticksElapsed.elim 0 UInt32.toNat ≤ deadline - passed := by
      rcases hlater with hlt | hnone
      · omega
      · rw [hnone]
        exact Nat.zero_le _
    refine ⟨passed + t.ticksElapsed.elim 0 UInt32.toNat, by omega, by omega, ?_, ?_, fun n hn => ?_⟩
    · rw [(timerListHandler_alarm h.queued late).2, hupdated, Nat.sub_sub]
    · rw [hclock]
      congr 1
      omega
    · rw [(timerListHandler_same t late).ticksElapsed, listUpdated_ticksElapsed h.queued] at hn
      cases hn
  · left
    rw [not_or] at hlater
    omega

theorem swi0_onTime (h : Clocked t) (hstop : NoStop timerId t) (ht : OnTime timerId deadline now t)
    (late : Nat) :
    deadline ≤ now ∨ OnTime timerId deadline (now + late) (swi0IrqHandler t late) := by
  unfold swi0IrqHandler
  split
  · refine timerListHandler_onTime ?_ ?_ ?_ late
    · exact h.of_same rfl rfl rfl rfl
    · exact hstop
    · exact ht
  · exact Or.inr (tick_onTime h late ht)

theorem timerListHandler_noStop (t : AppTimer γ) (late : Nat) : NoStop timerId (timerListHandler t late) := by
  have same := timerListHandler_same t late
  intro user
  rw [same.userOps]
  rfl

theorem appTimerCreate_userOps (t : AppTimer γ) (mode : AppTimerMode) (timeoutHandler : UInt32) :
    (appTimerCreate t mode timeoutHandler).2.2.userOps = t.userOps := by
  unfold appTimerCreate
  split
  · rfl
  · split <;> rfl

theorem rtc1IrqHandler_userOps (t : AppTimer γ) : (rtc1IrqHandler t).2.userOps = t.userOps := by
  by_cases hidle : t.rtc1Due = false ∨ t.running = []
  · obtain ⟨-, pending, event, heq⟩ := rtc1IrqHandler_idle hidle
    rw [heq]
  · rw [not_or] at hidle
    rw [rtc1IrqHandler_due (by simpa using hidle.1) hidle.2]
    rfl

theorem timerStep_noStop (h : NoStop timerId t) {call : TimerCall γ} (hcall : call.stops timerId = false) :
    NoStop timerId (timerStep t call) := by
  cases call with
  | create mode timeoutHandler => exact h.of_same (appTimerCreate_userOps t mode timeoutHandler)
  | start user i timeoutTicks pContext =>
    change NoStop timerId (appTimerStart t user i timeoutTicks pContext).2
    unfold appTimerStart
    split
    · exact h
    · split
      · exact h
      · exact h.schedule user rfl
  | stop user i =>
    change NoStop timerId (appTimerStop t user i).2
    unfold appTimerStop
    split
    · exact h
    · split
      · exact h
      · exact h.schedule user hcall
  | stopAll user => cases hcall
  | tick n => exact h.of_same (AppTimer.tick_same t n).userOps
  | rtc1 => exact h.of_same (rtc1IrqHandler_userOps t)
  | swi0 late =>
    change NoStop timerId (swi0IrqHandler t late)
    unfold swi0IrqHandler
    split
    · exact timerListHandler_noStop _ late
    · exact h.of_same (AppTimer.tick_same t late).userOps

theorem timerStep_onTime (h : Clocked t) (hstop : NoStop timerId t) (ht : OnTime timerId deadline now t)
    (call : TimerCall γ) :
    deadline ≤ now ∨ OnTime timerId deadline (now + call.ticks) (timerStep t call) := by
  cases call with
  | create mode timeoutHandler => exact Or.inr ((appTimerCreate_onlyOps t mode timeoutHandler).onTime ht)
  | start user i timeoutTicks pContext =>
    exact Or.inr ((appTimerStart_onlyOps t user i timeoutTicks pContext).onTime ht)
  | stop user i => exact Or.inr ((appTimerStop_onlyOps t user i).onTime ht)
  | stopAll user => exact Or.inr ((userOpSchedule_onlyOps t user .stopAll).onTime ht)
  | tick n => exact Or.inr (tick_onTime h n ht)
  | rtc1 => exact Or.inr (rtc1_onTime ht)
  | swi0 late => exact swi0_onTime h hstop ht late

theorem run_onTime (h : Clocked t) (hstop : NoStop timerId t) (ht : OnTime timerId deadline now t)
    {calls : List (TimerCall γ)} (hcalls : ∀ call ∈ calls, call.stops timerId = false) :
    deadline ≤ now + ticksOf calls ∨
      OnTime timerId deadline (now + ticksOf calls) (runFrom timerStep t calls) := by
  induction calls generalizing t now with
  | nil => exact Or.inr ht
  | cons call calls ih =>
    have hsum : ticksOf (call :: calls) = call.ticks + ticksOf calls := rfl
    rw [hsum]
    rcases timerStep_onTime h hstop ht call with hdue | hkept
    · left
      omega
    · have hcall := hcalls call List.mem_cons_self
      have hrest := ih (timerStep_clocked h call) (timerStep_noStop hstop hcall) hkept
        fun c hc => hcalls c (List.mem_cons_of_mem _ hc)
      rw [Nat.add_assoc] at hrest
      exact hrest

theorem OnTime.start {d : Nat} (halarm : t.alarm timerId = some d)
    (hread : ∀ n, t.ticksElapsed = some n → n.toNat ≤ t.elapsed) :
    OnTime timerId d t.elapsed t := by
  refine ⟨0, Nat.zero_le _, Nat.zero_le _, halarm, ?_, hread⟩
  exact (Nat.mod_eq_of_lt (elapsed_lt t)).symm

theorem OnTime.due_of_executed (h : Clocked t) (ht : OnTime timerId deadline now t)
    (hexecuted : timerId ∈ executed t) : deadline ≤ now := by
  obtain ⟨passed, hnow, hdeadline, halarm, helapsed, -⟩ := ht
  obtain ⟨-, d, hd, hle⟩ := (executed_iff h.queued).mp hexecuted
  rw [halarm] at hd
  have hd' : deadline - passed = d := Option.some.inj hd
  have hmod := Nat.mod_le (now - passed) 16777216
  omega

end BleSpeedSensor
