import BleSpeedSensor.SpeedDevice

namespace BleSpeedSensor

def lastDelivered (handled : List (UInt32 × Bool)) : Option UInt32 :=
  (handled.filter Prod.snd).getLast?.map Prod.fst

variable {undef speedEventHandler : UInt32}

/-- Every speed that is due fits a byte and finds room in the queue. -/
def AcceptedByte (undef : UInt32) (d : SpeedDevice) (a : DeviceAction) : Prop :=
  ∀ reads, a = .sensor (.crossing reads) → d.sensor.irq.SpeedDue undef reads →
    d.sensor.path.accepted.length - d.sensor.path.fetched < 10 ∧
    d.sensor.irq.actualSpeedKmh undef reads < 256

structure DeviceInv (d : SpeedDevice) : Prop where
  sensor : SensorInv d.sensor
  agree : d.link.Agree
  bytes : ∀ e ∈ d.sensor.path.accepted, e.isSpeed = true → e.argument < 256
  handled : d.handled.map Prod.fst =
    (d.sensor.path.returned.filter AppEvent.isSpeed).map AppEvent.argument
  handledBytes : ∀ x ∈ d.handled, x.1 < 256
  value : d.link.gatts.speedValue = [((lastDelivered d.handled).getD 0).toUInt8]

theorem boot_deviceInv (valueHandle : UInt16) : DeviceInv (SpeedDevice.boot valueHandle) :=
  ⟨boot_sensorInv, boot_agree valueHandle, by simp [SpeedDevice.boot, Sensor.boot, EventPath.boot],
    rfl, by simp [SpeedDevice.boot], rfl⟩

theorem sensorStep_bytes {s t : Sensor} {a : SensorAction} (h : SensorInv s)
    (ok : ∀ reads, a = .crossing reads → s.irq.SpeedDue undef reads →
      s.path.accepted.length - s.path.fetched < 10 ∧ s.irq.actualSpeedKmh undef reads < 256)
    (bytes : ∀ e ∈ s.path.accepted, e.isSpeed = true → e.argument < 256)
    (step : sensorStep undef speedEventHandler s a = .ok t) :
    ∀ e ∈ t.path.accepted, e.isSpeed = true → e.argument < 256 := by
  cases a with
  | crossing reads =>
    by_cases due : s.irq.SpeedDue undef reads
    · obtain ⟨room, small⟩ := ok reads rfl due
      obtain ⟨u, hu, _, hspeed, hacc⟩ := sensorStep_due_room h due room
      cases Except.ok.inj (hu.symm.trans step)
      rw [hacc]
      intro e he hs
      rcases List.mem_append.mp he with old | new
      · exact bytes e old hs
      · rw [List.mem_singleton.mp new, hspeed]
        exact small
    · rw [sensorStep_not_due due] at step
      cases step
      exact bytes
  | timerSchedule f c =>
    cases step
    intro e he hs
    simp only [EventPath.afterPut] at he
    split at he
    · rcases List.mem_append.mp he with old | new
      · exact bytes e old hs
      · rw [List.mem_singleton.mp new] at hs
        simp [AppEvent.isSpeed] at hs
    · exact bytes e he hs
  | main =>
    obtain ⟨q, hq, _⟩ := mainStep_pathInv h.path
    have hacc := mainStep_accepted hq
    simp only [sensorStep, pathStep, hq] at step
    cases step
    exact fun e he hs => bytes e (hacc ▸ he) hs

theorem PathInv.finishing_accepted {p : EventPath} (h : PathInv p) {a : SensorAction} {e : AppEvent}
    (he : p.finishing a = some e) : e ∈ p.accepted := by
  have hpc := h.pc
  cases a with
  | crossing _ | timerSchedule _ _ => simp [EventPath.finishing] at he
  | main =>
    cases hp : p.pc with
    | inHandler i x =>
      rw [hp] at hpc
      simp only [EventPath.finishing, hp, Option.some.injEq] at he
      have hm := List.mem_of_getLast? hpc.2.2
      rw [h.calls_eq, he] at hm
      exact List.mem_of_mem_take hm
    | test | readStart | advance _ | readSize _ | readHandler _ _ | checkSize _ _ _
    | readCallee _ _ | readArgument _ _ _ => simp [EventPath.finishing, hp] at he

theorem lastDelivered_append (handled : List (UInt32 × Bool)) (v : UInt32) (up : Bool) :
    lastDelivered (handled ++ [(v, up)]) = if up then some v else lastDelivered handled := by
  cases up <;> simp [lastDelivered, List.filter_append]

theorem handle_deviceInv {d e : SpeedDevice} {event : AppEvent} (agree : d.link.Agree)
    (bytes : event.isSpeed = true → event.argument < 256) {sensor : Sensor}
    (inv : SensorInv sensor) (hb : ∀ e ∈ sensor.path.accepted, e.isSpeed = true → e.argument < 256)
    (hret : sensor.path.returned = d.sensor.path.returned ++ [event]) (h : DeviceInv d)
    (step : SpeedDevice.handle { d with sensor := sensor } event = .ok e) : DeviceInv e := by
  unfold SpeedDevice.handle at step
  split at step
  next hs =>
    have hfatal : ¬d.link.gatts.link.HvxFatal := by
      intro fatal
      obtain ⟨c, hc⟩ := agree.speedEvent_fatal fatal event.argument
      simp only [hc] at step
      cases step
    obtain ⟨m, hm, hagree, hup, hvalue⟩ := agree.speedEvent_ok hfatal event.argument
    simp only [hm] at step
    cases step
    refine ⟨inv, hagree, hb, ?_, ?_, ?_⟩
    · rw [hret]
      simp [List.filter_append, hs, h.handled]
    · intro x hx
      rcases List.mem_append.mp hx with old | new
      · exact h.handledBytes x old
      · rw [List.mem_singleton.mp new]
        exact bytes hs
    · dsimp only
      rw [lastDelivered_append, hvalue]
      cases d.link.gatts.link.up with
      | true => rfl
      | false => exact h.value
  next hs =>
    cases step
    refine ⟨inv, agree, hb, ?_, h.handledBytes, h.value⟩
    rw [hret]
    simp [List.filter_append, hs, h.handled]

theorem DeviceInv.step {d e : SpeedDevice} {a : DeviceAction} (h : DeviceInv d)
    (ok : AcceptedByte undef d a) (step : deviceStep undef speedEventHandler d a = .ok e) :
    DeviceInv e := by
  cases a with
  | link a =>
    obtain ⟨m, hm, hagree, hvalue⟩ := h.agree.raise a
    simp only [deviceStep, hm] at step
    cases step
    exact ⟨h.sensor, hagree, h.bytes, h.handled, h.handledBytes, hvalue.trans h.value⟩
  | sensor a =>
    have hok : ∀ reads, a = .crossing reads → d.sensor.irq.SpeedDue undef reads →
        d.sensor.path.accepted.length - d.sensor.path.fetched < 10 ∧
        d.sensor.irq.actualSpeedKmh undef reads < 256 :=
      fun reads ha due => ok reads (congrArg _ ha) due
    obtain ⟨sensor, hs⟩ := sensorStep_ok h.sensor.path a
    have inv := h.sensor.step (fun reads ha due => (hok reads ha due).1) hs
    have hb := sensorStep_bytes h.sensor hok h.bytes hs
    have hret := sensorStep_returned h.sensor.path hs
    unfold deviceStep at step
    dsimp only at step
    rw [hs] at step
    dsimp only [Except.bind] at step
    cases hf : d.sensor.path.finishing a with
    | none =>
      rw [hf] at step hret
      cases step
      refine ⟨inv, h.agree, hb, ?_, h.handledBytes, h.value⟩
      rw [hret]
      simpa using h.handled
    | some event =>
      rw [hf] at step hret
      exact handle_deviceInv h.agree (h.bytes event (h.sensor.path.finishing_accepted hf)) inv hb hret
        h step

end BleSpeedSensor
