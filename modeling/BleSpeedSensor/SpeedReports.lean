import BleSpeedSensor.LpcompIrq
import BleSpeedSensor.EventPathDelivery

namespace BleSpeedSensor

open RunSystem

/-- The statics of the interrupt handler and the path its events take to the main loop. -/
structure Sensor where
  irq : LpcompState
  path : EventPath

def Sensor.boot : Sensor := ⟨LpcompState.boot, EventPath.boot⟩

inductive SensorAction
  | crossing (reads : CounterReads)
  | timerSchedule (timeoutHandler pContext : UInt32)
  | main

/-- `speedEventHandler` is the address of `speed_event_handler`. -/
def sensorStep (undef speedEventHandler : UInt32) (s : Sensor) : SensorAction → Except ErrCode Sensor
  | .crossing reads =>
    let (irq, report) := lpcompIrqHandler undef s.irq reads
    match report with
    | some v => (pathStep s.path (.speedSchedule speedEventHandler v)).map fun path => ⟨irq, path⟩
    | none => .ok ⟨irq, s.path⟩
  | .timerSchedule timeoutHandler pContext =>
    (pathStep s.path (.timerSchedule timeoutHandler pContext)).map fun path => { s with path := path }
  | .main => (pathStep s.path .main).map fun path => { s with path := path }

def AppEvent.isSpeed (e : AppEvent) : Bool := e.handler == .appSpeedSensorEvtGet

def EventPath.lastSpeed (p : EventPath) : Option UInt32 :=
  ((p.accepted.filter AppEvent.isSpeed).getLast?).map AppEvent.argument

variable {undef speedEventHandler : UInt32}

theorem sensorStep_due {s : Sensor} {reads : CounterReads} (h : s.irq.SpeedDue undef reads) :
    sensorStep undef speedEventHandler s (.crossing reads) =
      .ok ⟨⟨reads.forPrevious, s.irq.actualSpeedKmh undef reads, reads.forLastTx⟩,
        s.path.afterPut ⟨.appSpeedSensorEvtGet, speedEventHandler, s.irq.actualSpeedKmh undef reads⟩
          (appSpeedSensorEvtSchedule s.path.sched speedEventHandler
            (s.irq.actualSpeedKmh undef reads))⟩ := by
  simp only [sensorStep, lpcompIrqHandler_due h]
  rfl

theorem sensorStep_not_due {s : Sensor} {reads : CounterReads} (h : ¬s.irq.SpeedDue undef reads) :
    sensorStep undef speedEventHandler s (.crossing reads) =
      .ok { s with irq := { s.irq with previousRtc0CounterValue := reads.forPrevious } } := by
  simp only [sensorStep, lpcompIrqHandler_not_due h]

theorem sensorStep_ok {s : Sensor} (inv : PathInv s.path) (a : SensorAction) :
    ∃ t, sensorStep undef speedEventHandler s a = .ok t := by
  cases a with
  | crossing reads =>
    by_cases due : s.irq.SpeedDue undef reads
    · exact ⟨_, sensorStep_due due⟩
    · exact ⟨_, sensorStep_not_due due⟩
  | timerSchedule f c => exact ⟨_, rfl⟩
  | main =>
    obtain ⟨q, hq, _⟩ := mainStep_pathInv inv
    exact ⟨{ s with path := q }, by simp only [sensorStep, pathStep, hq]; rfl⟩

theorem sensorStep_other {s t : Sensor} {a : SensorAction} (inv : PathInv s.path)
    (ha : ∀ reads, a ≠ .crossing reads) (step : sensorStep undef speedEventHandler s a = .ok t) :
    t.irq = s.irq ∧ PathInv t.path ∧ t.path.lastSpeed = s.path.lastSpeed := by
  cases a with
  | crossing reads => exact absurd rfl (ha reads)
  | timerSchedule f c =>
    cases step
    refine ⟨rfl, put_pathInv inv _, ?_⟩
    simp only [EventPath.afterPut, EventPath.lastSpeed]
    split
    · simp [List.filter_append, AppEvent.isSpeed]
    · rfl
  | main =>
    obtain ⟨q, hq, hinv⟩ := mainStep_pathInv inv
    have hacc := mainStep_accepted hq
    simp only [sensorStep, pathStep, hq] at step
    cases step
    exact ⟨rfl, hinv, by rw [EventPath.lastSpeed, hacc]; rfl⟩

/-- A speed is remembered only if an event that carries it was accepted. -/
def RemembersAccepted (undef speedEventHandler : UInt32) (s : Sensor) (a : SensorAction) : Prop :=
  ∃ t, sensorStep undef speedEventHandler s a = .ok t ∧
    (∀ reads v, a = .crossing reads → (lpcompIrqHandler undef s.irq reads).2 = some v →
      (appSpeedSensorEvtSchedule s.path.sched speedEventHandler v).1 ≠ nrfSuccess →
        t.irq.oldSpeedKmh = s.irq.oldSpeedKmh ∧ t.irq.lastTxEvtTime = s.irq.lastTxEvtTime) ∧
    (t.irq.oldSpeedKmh ≠ s.irq.oldSpeedKmh ∨ t.irq.lastTxEvtTime ≠ s.irq.lastTxEvtTime →
      t.path.accepted = s.path.accepted ++
        [⟨.appSpeedSensorEvtGet, speedEventHandler, t.irq.oldSpeedKmh⟩]) ∧
    (t.irq.oldSpeedKmh ≠ 0 → t.path.lastSpeed = some t.irq.oldSpeedKmh)

/-- Fewer than ten accepted events are unfetched whenever a speed is due. -/
def RoomWhenDue (undef : UInt32) (s : Sensor) (a : SensorAction) : Prop :=
  ∀ reads, a = .crossing reads → s.irq.SpeedDue undef reads →
    s.path.accepted.length - s.path.fetched < 10

structure SensorInv (s : Sensor) : Prop where
  path : PathInv s.path
  remembered : s.irq.oldSpeedKmh = s.path.lastSpeed.getD 0

theorem boot_sensorInv : SensorInv Sensor.boot := ⟨boot_pathInv, rfl⟩

theorem SensorInv.lastSpeed {s : Sensor} (h : SensorInv s) (hne : s.irq.oldSpeedKmh ≠ 0) :
    s.path.lastSpeed = some s.irq.oldSpeedKmh := by
  have hr := h.remembered
  cases hl : s.path.lastSpeed with
  | none => exact absurd (hr.trans (by rw [hl]; rfl)) hne
  | some v => rw [hr, hl]; rfl

theorem lastSpeed_append_speed {p q : EventPath} {f v : UInt32}
    (h : q.accepted = p.accepted ++ [⟨.appSpeedSensorEvtGet, f, v⟩]) : q.lastSpeed = some v := by
  simp [EventPath.lastSpeed, h, List.filter_append, AppEvent.isSpeed]

theorem PathInv.accepted_of_room {p : EventPath} (h : PathInv p)
    (room : p.accepted.length - p.fetched < 10) (e : AppEvent) :
    (p.afterPut e (e.schedule p.sched)).accepted = p.accepted ++ [e] := by
  have hlen : p.waiting.length = p.accepted.length - p.fetched := List.length_drop
  rw [afterPut_accepted h.queue (by omega)]

theorem sensorStep_due_room {s : Sensor} {reads : CounterReads} (h : SensorInv s)
    (due : s.irq.SpeedDue undef reads) (room : s.path.accepted.length - s.path.fetched < 10) :
    ∃ t, sensorStep undef speedEventHandler s (.crossing reads) = .ok t ∧ PathInv t.path ∧
      t.irq.oldSpeedKmh = s.irq.actualSpeedKmh undef reads ∧
      t.path.accepted = s.path.accepted ++
        [⟨.appSpeedSensorEvtGet, speedEventHandler, t.irq.oldSpeedKmh⟩] :=
  ⟨_, sensorStep_due due, put_pathInv h.path _, rfl, h.path.accepted_of_room room _⟩

theorem SensorInv.step {s t : Sensor} {a : SensorAction} (h : SensorInv s)
    (room : RoomWhenDue undef s a) (step : sensorStep undef speedEventHandler s a = .ok t) :
    SensorInv t := by
  by_cases ha : ∃ reads, a = .crossing reads
  · obtain ⟨reads, rfl⟩ := ha
    by_cases due : s.irq.SpeedDue undef reads
    · obtain ⟨u, hu, hpath, _, hacc⟩ := sensorStep_due_room h due (room reads rfl due)
      cases Except.ok.inj (hu.symm.trans step)
      exact ⟨hpath, by rw [lastSpeed_append_speed hacc]; rfl⟩
    · rw [sensorStep_not_due due] at step
      cases step
      exact ⟨h.path, h.remembered⟩
  · obtain ⟨hirq, hpath, hlast⟩ := sensorStep_other h.path (fun reads hr => ha ⟨reads, hr⟩) step
    exact ⟨hpath, by rw [hirq, hlast]; exact h.remembered⟩

theorem not_remembers_of_refused {s : Sensor} {reads : CounterReads}
    (due : s.irq.SpeedDue undef reads)
    (refused : (appSpeedSensorEvtSchedule s.path.sched speedEventHandler
      (s.irq.actualSpeedKmh undef reads)).1 ≠ nrfSuccess) :
    ¬RemembersAccepted undef speedEventHandler s (.crossing reads) := by
  rintro ⟨t, step, kept, _⟩
  cases Except.ok.inj ((sensorStep_due due).symm.trans step)
  exact due.2 (kept reads _ rfl (lpcompIrqHandler_report.mpr ⟨due, rfl⟩) refused).1.symm

theorem remembersAccepted_iff_room {s : Sensor} (h : SensorInv s) (a : SensorAction) :
    RemembersAccepted undef speedEventHandler s a ↔ RoomWhenDue undef s a := by
  constructor
  · rintro remembers reads rfl due
    have hroom := h.path.queue.ring.room
    have hlen : s.path.waiting.length = s.path.accepted.length - s.path.fetched := List.length_drop
    refine Nat.lt_of_le_of_ne (by omega) fun full => ?_
    exact not_remembers_of_refused due ((h.path.refused_iff _).mpr full) remembers
  · intro room
    obtain ⟨t, step⟩ := sensorStep_ok h.path a
    refine ⟨t, step, ?_, ?_, fun hne => (h.step room step).lastSpeed hne⟩
    · rintro reads v rfl hv refused
      obtain ⟨due, rfl⟩ := lpcompIrqHandler_report.mp hv
      have full := (h.path.refused_iff _).mp refused
      have := room reads rfl due
      omega
    · intro changed
      by_cases ha : ∃ reads, a = .crossing reads
      · obtain ⟨reads, rfl⟩ := ha
        by_cases due : s.irq.SpeedDue undef reads
        · obtain ⟨u, hu, _, _, hacc⟩ := sensorStep_due_room h due (room reads rfl due)
          cases Except.ok.inj (hu.symm.trans step)
          exact hacc
        · rw [sensorStep_not_due due] at step
          cases step
          exact (changed.elim (fun hc => hc rfl) (fun hc => hc rfl)).elim
      · have hirq := (sensorStep_other h.path (fun reads hr => ha ⟨reads, hr⟩) step).1
        rw [hirq] at changed
        exact (changed.elim (fun hc => hc rfl) (fun hc => hc rfl)).elim

/-- No speed is remembered that was not accepted exactly as long as the queue has room for
every speed that is due. -/
theorem remembers_accepted_iff (undef speedEventHandler : UInt32) (as : List SensorAction) :
    EveryLiveStep (sensorStep undef speedEventHandler) (RemembersAccepted undef speedEventHandler)
        Sensor.boot as ↔
      EveryLiveStep (sensorStep undef speedEventHandler) (RoomWhenDue undef) Sensor.boot as :=
  everyLiveStep_congr boot_sensorInv (fun _ _ _ h room step => h.step room step)
    (fun _ a h => remembersAccepted_iff_room h a) as

theorem ten_timeouts_fill :
    ∃ t, runHalting (sensorStep 0 0) Sensor.boot (List.replicate 10 (.timerSchedule 0 0)) = .ok t ∧
      t.irq = LpcompState.boot ∧
      (appSpeedSensorEvtSchedule t.path.sched 0 12).1 = nrfErrorNoMem :=
  ⟨_, rfl, rfl, rfl⟩

/-- Ten unfetched timeouts, then a crossing at 12 km/h: the event is refused, 12 is remembered. -/
theorem refused_speed_remembered :
    ¬∀ (undef speedEventHandler : UInt32) (as : List SensorAction),
      EveryLiveStep (sensorStep undef speedEventHandler) (RemembersAccepted undef speedEventHandler)
        Sensor.boot as := by
  intro h
  obtain ⟨t, run, hirq, full⟩ := ten_timeouts_fill
  have due : t.irq.SpeedDue 0 (CounterReads.const 20000) := by
    rw [hirq]
    exact ⟨by decide +kernel, by decide +kernel⟩
  have hspeed : t.irq.actualSpeedKmh 0 (CounterReads.const 20000) = 12 := by
    rw [hirq]
    decide +kernel
  refine not_remembers_of_refused due ?_ ((h 0 0 _).last run)
  rw [hspeed, full]
  decide

end BleSpeedSensor
