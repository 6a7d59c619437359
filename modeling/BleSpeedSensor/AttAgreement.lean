import BleSpeedSensor.DeviceInvariant

namespace BleSpeedSensor

open RunSystem

variable {undef : UInt32}

/-- The value a central reads is the speed the interrupt handler remembers. -/
def SpeedDevice.AttAgrees (d : SpeedDevice) : Prop :=
  d.link.gatts.speedValue.map UInt8.toNat = [d.sensor.irq.oldSpeedKmh.toNat]

theorem DeviceInv.attAgrees_iff {d : SpeedDevice} (h : DeviceInv d) :
    d.AttAgrees ↔ d.sensor.path.lastSpeed.getD 0 = (lastDelivered d.handled).getD 0 := by
  have hsmall : (lastDelivered d.handled).getD 0 < 256 := by
    cases hl : lastDelivered d.handled with
    | none => decide
    | some v =>
      obtain ⟨x, hx, rfl⟩ := Option.map_eq_some_iff.mp hl
      exact h.handledBytes x (List.mem_filter.mp (List.mem_of_getLast? hx)).1
  rw [SpeedDevice.AttAgrees, h.value, h.sensor.remembered, List.map_singleton,
    toUInt8_toNat_of_lt hsmall]
  exact ⟨fun he => (UInt32.toNat_inj.mp (List.singleton_inj.mp he)).symm, fun he => by rw [he]⟩

theorem DeviceInv.lastHandled_of_idle {d : SpeedDevice} (h : DeviceInv d)
    (empty : appSchedQueueEmpty d.sensor.path.sched = true) (idle : d.sensor.path.pc = .test) :
    d.handled.getLast?.map Prod.fst = d.sensor.path.lastSpeed := by
  have hw := h.sensor.path.queue.empty_iff.mp empty
  have hcalls := h.sensor.path.calls_of_idle idle hw
  have hret : d.sensor.path.returned = d.sensor.path.accepted := by
    simpa [EventPath.returned, idle] using hcalls
  rw [EventPath.lastSpeed, ← List.getLast?_map, h.handled, hret,
    List.getLast?_map]

theorem lastDelivered_of_all {handled : List (UInt32 × Bool)} (h : ∀ x ∈ handled, x.2 = true) :
    lastDelivered handled = handled.getLast?.map Prod.fst := by
  rw [lastDelivered, List.filter_eq_self.mpr h]

/-- In every state of a run without refused or oversized speeds the value agrees exactly when the
speed scheduled last is the one handled last with a peer; so it does once nothing is left to
handle, as long as every speed was handled with a peer. -/
theorem att_agrees_iff {undef speedEventHandler : UInt32} {valueHandle : UInt16}
    {as : List DeviceAction} {d : SpeedDevice}
    (ok : EveryLiveStep (deviceStep undef speedEventHandler) (AcceptedByte undef)
      (SpeedDevice.boot valueHandle) as)
    (run : runHalting (deviceStep undef speedEventHandler) (SpeedDevice.boot valueHandle) as = .ok d) :
    (d.AttAgrees ↔ d.sensor.path.lastSpeed.getD 0 = (lastDelivered d.handled).getD 0) ∧
      (appSchedQueueEmpty d.sensor.path.sched = true → d.sensor.path.pc = .test →
        (∀ x ∈ d.handled, x.2 = true) → d.AttAgrees) := by
  have h := runHalting_invariant (boot_deviceInv valueHandle)
    (fun _ _ _ h ok step => h.step ok step) ok run
  refine ⟨h.attAgrees_iff, fun empty idle peer => h.attAgrees_iff.mpr ?_⟩
  rw [lastDelivered_of_all peer, h.lastHandled_of_idle empty idle]

/-- A first crossing 20000 ticks after the counter started: 12 km/h wait in the queue. -/
def firstReport : Sensor :=
  ⟨⟨20000, 12, 20000⟩, EventPath.boot.afterPut ⟨.appSpeedSensorEvtGet, 0, 12⟩
    (appSpeedSensorEvtSchedule Sched.fresh 0 12)⟩

theorem first_speedDue : Sensor.boot.irq.SpeedDue 0 (CounterReads.const 20000) ∧
    Sensor.boot.irq.actualSpeedKmh 0 (CounterReads.const 20000) = 12 :=
  ⟨⟨by decide +kernel, by decide +kernel⟩, by decide +kernel⟩

theorem deviceStep_firstReport (l : SpeedLink) :
    deviceStep 0 0 ⟨Sensor.boot, l, []⟩ (.sensor (.crossing (CounterReads.const 20000))) =
      .ok ⟨firstReport, l, []⟩ := by
  have hs : sensorStep 0 0 Sensor.boot (.crossing (CounterReads.const 20000)) = .ok firstReport := by
    rw [sensorStep_due first_speedDue.1, first_speedDue.2]
    rfl
  simp only [deviceStep, hs]
  rfl

theorem acceptedByte_other {d : SpeedDevice} {a : DeviceAction}
    (h : ∀ reads, a ≠ .sensor (.crossing reads)) : AcceptedByte undef d a :=
  fun reads ha => absurd ha (h reads)

theorem acceptedByte_firstReport (l : SpeedLink) :
    AcceptedByte 0 ⟨Sensor.boot, l, []⟩ (.sensor (.crossing (CounterReads.const 20000))) := by
  intro reads ha _
  cases ha
  refine ⟨(by decide : (0 : Nat) < 10), ?_⟩
  dsimp only
  rw [first_speedDue.2]
  decide

theorem accepted_firstReport {l : SpeedLink} {as : List DeviceAction}
    (h : ∀ a ∈ as, ∀ reads, a ≠ .sensor (.crossing reads)) :
    EveryLiveStep (deviceStep 0 0) (AcceptedByte 0) ⟨Sensor.boot, l, []⟩
      (.sensor (.crossing (CounterReads.const 20000)) :: as) :=
  everyLiveStep_cons.mpr ⟨acceptedByte_firstReport l, fun _ _ =>
    everyLiveStep_of_forall fun a ha _ => acceptedByte_other (h a ha)⟩

def untilHandled : List DeviceAction := List.replicate 9 (.sensor .main)

def connectPeer : DeviceAction := .link (.connected 0 ⟨24, 40, 0, 400⟩ 7)

/-- The speed is handled before the peer connects: the peer reads 0, the interrupt remembers 12. -/
theorem report_before_connection_lost :
    ¬∀ (undef speedEventHandler : UInt32) (valueHandle : UInt16) (as : List DeviceAction)
      (d : SpeedDevice),
      EveryLiveStep (deviceStep undef speedEventHandler) (AcceptedByte undef)
        (SpeedDevice.boot valueHandle) as →
      runHalting (deviceStep undef speedEventHandler) (SpeedDevice.boot valueHandle) as = .ok d →
      appSchedQueueEmpty d.sensor.path.sched = true → d.sensor.path.pc = .test →
      d.link.gatts.link.up = true → d.AttAgrees := by
  intro h
  have ok : EveryLiveStep (deviceStep 0 0) (AcceptedByte 0) (SpeedDevice.boot 12)
      (.sensor (.crossing (CounterReads.const 20000)) :: (untilHandled ++ [connectPeer])) :=
    accepted_firstReport fun a ha reads hr => by simp [hr, untilHandled, connectPeer] at ha
  obtain ⟨d, run, empty, idle, up, value, old⟩ :
      ∃ d, runHalting (deviceStep 0 0) ⟨firstReport, SpeedLink.boot 12, []⟩
          (untilHandled ++ [connectPeer]) = .ok d ∧
        appSchedQueueEmpty d.sensor.path.sched = true ∧ d.sensor.path.pc = .test ∧
        d.link.gatts.link.up = true ∧ d.link.gatts.speedValue = [0] ∧
        d.sensor.irq.oldSpeedKmh = 12 := ⟨_, rfl, rfl, rfl, rfl, rfl, rfl⟩
  have agrees := h 0 0 12 _ d ok ?_ empty idle up
  · rw [SpeedDevice.AttAgrees, value, old] at agrees
    exact absurd agrees (by decide)
  · rw [runHalting_cons]
    exact (congrArg (Except.bind · _) (deviceStep_firstReport _)).trans run

theorem att_agrees_iff_connected :
    ∃ d, runHalting (deviceStep 0 0) (SpeedDevice.boot 12)
        ([connectPeer, .link .sysAttrMissing] ++
          .sensor (.crossing (CounterReads.const 20000)) :: untilHandled) = .ok d ∧
      d.link.gatts.link.up = true ∧ d.sensor.irq.oldSpeedKmh = 12 ∧ d.AttAgrees := by
  obtain ⟨l, connected, d, run, empty, idle, peer, up, old⟩ :
      ∃ l, runHalting (deviceStep 0 0) (SpeedDevice.boot 12) [connectPeer, .link .sysAttrMissing] =
          .ok ⟨Sensor.boot, l, []⟩ ∧
        ∃ d, runHalting (deviceStep 0 0) ⟨firstReport, l, []⟩ untilHandled = .ok d ∧
          appSchedQueueEmpty d.sensor.path.sched = true ∧ d.sensor.path.pc = .test ∧
          d.handled = [(12, true)] ∧ d.link.gatts.link.up = true ∧
          d.sensor.irq.oldSpeedKmh = 12 := ⟨_, rfl, _, rfl, rfl, rfl, rfl, rfl, rfl⟩
  have ok : EveryLiveStep (deviceStep 0 0) (AcceptedByte 0) (SpeedDevice.boot 12)
      ([connectPeer, .link .sysAttrMissing] ++
        .sensor (.crossing (CounterReads.const 20000)) :: untilHandled) := by
    refine EveryLiveStep.append (everyLiveStep_of_forall fun a ha _ => ?_) connected
      (accepted_firstReport fun a ha reads hr => by simp [hr, untilHandled] at ha)
    exact acceptedByte_other fun reads hr => by simp [hr, connectPeer] at ha
  have reach := (runHalting_append connected _).trans ((runHalting_cons _ _ _ _).trans
    ((congrArg (Except.bind · _) (deviceStep_firstReport l)).trans run))
  exact ⟨d, reach, up, old, (att_agrees_iff ok reach).2 empty idle (by simp [peer])⟩

end BleSpeedSensor
