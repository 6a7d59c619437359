import BleSpeedSensor.RunSystem
import BleSpeedSensor.TimerInterrupts
import BleSpeedSensor.TimerListUpdate

namespace BleSpeedSensor

open DeltaQueue RunSystem

def appTimerStopAll {γ : Type} (t : AppTimer γ) (user : TimerUser) : ErrCode × AppTimer γ :=
  userOpSchedule t user .stopAll

/-- What happens to the module: a call of an application at some interrupt level, RTC1 counting, or
one of the two interrupts. -/
inductive TimerCall (γ : Type)
  | create (mode : AppTimerMode) (timeoutHandler : UInt32)
  | start (user : TimerUser) (timerId : Nat) (timeoutTicks : UInt32) (pContext : γ)
  | stop (user : TimerUser) (timerId : Nat)
  | stopAll (user : TimerUser)
  | tick (n : Nat)
  | rtc1
  | swi0 (late : Nat)

variable {γ : Type}

def timerStep (t : AppTimer γ) : TimerCall γ → AppTimer γ
  | .create mode timeoutHandler => (appTimerCreate t mode timeoutHandler).2.2
  | .start user timerId timeoutTicks pContext => (appTimerStart t user timerId timeoutTicks pContext).2
  | .stop user timerId => (appTimerStop t user timerId).2
  | .stopAll user => (appTimerStopAll t user).2
  | .tick n => t.tick n
  | .rtc1 => (rtc1IrqHandler t).2
  | .swi0 late => swi0IrqHandler t late

/-- The timers whose handlers the RTC1 interrupt executes. -/
def executed (t : AppTimer γ) : List Nat :=
  if t.rtc1Running && (t.rtc1Pending || t.eventsCompare0) then
    (expiring t (ticksDiffGet t.counter t.ticksLatest) 0 t.running).1
  else []

/-- The ticks RTC1 counts during a step, if it is running. -/
def TimerCall.ticks : TimerCall γ → Nat
  | .tick n => n
  | .swi0 late => late
  | _ => 0

def TimerCall.stops (timerId : Nat) : TimerCall γ → Bool
  | .stop _ i => i == timerId
  | .stopAll _ => true
  | _ => false

def ticksOf : List (TimerCall γ) → Nat
  | [] => 0
  | call :: calls => call.ticks + ticksOf calls

variable {t u : AppTimer γ} {i timerId : Nat}

theorem ticksDiffGet_toNat (a b : UInt32) :
    (ticksDiffGet a b).toNat = (a.toNat + 4294967296 - b.toNat) % 16777216 := by
  have hb := b.toNat_lt
  unfold ticksDiffGet
  rw [UInt32.toNat_and, UInt32.toNat_sub]
  have hmask : maxRtcCounterVal.toNat = 2 ^ 24 - 1 := by decide
  rw [hmask, Nat.and_two_pow_sub_one_eq_mod]
  omega

theorem toNat_and_maxRtcCounterVal (a : UInt32) :
    (a &&& maxRtcCounterVal).toNat = a.toNat % 16777216 := by
  have hmask : maxRtcCounterVal.toNat = 2 ^ 24 - 1 := by decide
  rw [UInt32.toNat_and, hmask, Nat.and_two_pow_sub_one_eq_mod]

theorem expiring_overdue (ticksElapsed ticksExpired : UInt32) (running : List Nat) :
    (expiring t ticksElapsed ticksExpired running).1 =
        overdue ticksElapsed.toNat (queueOf t running) ∧
      (expiring t ticksElapsed ticksExpired running).2 =
        ticksExpired + UInt32.ofNat (overdueSpan ticksElapsed.toNat (queueOf t running)) := by
  induction running generalizing ticksElapsed ticksExpired with
  | nil => exact ⟨rfl, (UInt32.add_zero _).symm⟩
  | cons current rest ih =>
    rw [queueOf_cons, overdue, overdueSpan]
    unfold expiring
    dsimp only
    split
    next hlater =>
      have hlt := UInt32.lt_iff_toNat_lt.mp hlater
      rw [if_pos hlt, if_pos hlt]
      exact ⟨rfl, (UInt32.add_zero _).symm⟩
    next hdue =>
      have hle := UInt32.not_lt.mp hdue
      have hlt : ¬ticksElapsed.toNat < (t.nodes current).ticksToExpire.toNat :=
        Nat.not_lt.mpr (UInt32.le_iff_toNat_le.mp hle)
      obtain ⟨hids, hticks⟩ := ih (ticksElapsed - (t.nodes current).ticksToExpire)
        (ticksExpired + (t.nodes current).ticksToExpire)
      rw [UInt32.toNat_sub_of_le _ _ hle] at hids hticks
      rw [if_neg hlt, if_neg hlt, hids, hticks, UInt32.ofNat_add, UInt32.ofNat_toNat, UInt32.add_assoc]
      exact ⟨rfl, rfl⟩

def AppTimer.elapsed (t : AppTimer γ) : Nat := (ticksDiffGet t.counter t.ticksLatest).toNat

def AppTimer.rtc1Due (t : AppTimer γ) : Bool := t.rtc1Running && (t.rtc1Pending || t.eventsCompare0)

theorem executed_eq (t : AppTimer γ) :
    executed t = if t.rtc1Due then overdue t.elapsed t.queue else [] := by
  unfold executed AppTimer.rtc1Due
  split
  · exact (expiring_overdue _ 0 t.running).1
  · rfl

theorem rtc1IrqHandler_due (hdue : t.rtc1Due = true) (hne : t.running ≠ []) :
    rtc1IrqHandler t = ((overdue t.elapsed t.queue).map t.nodes,
      checked t (UInt32.ofNat (overdueSpan t.elapsed t.queue))) := by
  obtain ⟨hids, hticks⟩ :=
    expiring_overdue (t := { t with rtc1Pending := false, eventsCompare0 := false })
      (ticksDiffGet t.counter t.ticksLatest) 0 t.running
  have hqueue : queueOf { t with rtc1Pending := false, eventsCompare0 := false } t.running = t.queue :=
    queueOf_congr fun _ _ => rfl
  rw [hqueue] at hids hticks
  have hcond : (t.rtc1Running && (t.rtc1Pending || t.eventsCompare0)) = true := hdue
  unfold rtc1IrqHandler
  rw [if_pos hcond]
  unfold timerTimeoutsCheck
  rw [if_neg hne]
  dsimp only
  rw [hids, hticks, UInt32.zero_add]
  rfl

theorem rtc1IrqHandler_idle (h : t.rtc1Due = false ∨ t.running = []) :
    (rtc1IrqHandler t).1 = [] ∧ ∃ pending event, (rtc1IrqHandler t).2 =
      { t with rtc1Pending := pending, eventsCompare0 := event } := by
  unfold rtc1IrqHandler
  split
  next hdue =>
    have hnil : t.running = [] := by
      refine h.resolve_left fun hidle => ?_
      have hboth := hdue.symm.trans hidle
      cases hboth
    unfold timerTimeoutsCheck
    rw [if_pos hnil]
    exact ⟨rfl, false, false, rfl⟩
  next => exact ⟨rfl, t.rtc1Pending, t.eventsCompare0, rfl⟩

theorem rtc1IrqHandler_executes (t : AppTimer γ) :
    (rtc1IrqHandler t).1 = (executed t).map t.nodes := by
  rw [executed_eq]
  by_cases hdue : t.rtc1Due = true
  · rw [if_pos hdue]
    by_cases hne : t.running = []
    · have hqueue : t.queue = [] := by
        unfold AppTimer.queue
        rw [hne]
        rfl
      rw [(rtc1IrqHandler_idle (Or.inr hne)).1, hqueue]
      rfl
    · rw [rtc1IrqHandler_due hdue hne]
  · rw [if_neg hdue, (rtc1IrqHandler_idle (Or.inl (by simpa using hdue))).1]
    rfl

theorem executed_iff (h : Queued t) : i ∈ executed t ↔
    t.rtc1Due = true ∧ ∃ d, t.alarm i = some d ∧ d ≤ t.elapsed := by
  have hkeys : (keys t.queue).Nodup := by
    rw [keys_queue]
    exact h.nodup
  rw [executed_eq]
  split
  next hdue => exact (mem_overdue_iff hkeys).trans (and_iff_right hdue).symm
  next hidle => exact iff_of_false List.not_mem_nil fun hboth => hidle hboth.1

end BleSpeedSensor
