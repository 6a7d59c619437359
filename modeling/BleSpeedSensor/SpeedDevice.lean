import BleSpeedSensor.SpeedReports
import BleSpeedSensor.GattsLink

namespace BleSpeedSensor

/-- The speed sensor as a whole, with the speeds handled so far and whether a peer was connected. -/
structure SpeedDevice where
  sensor : Sensor
  link : SpeedLink
  handled : List (UInt32 × Bool)

def SpeedDevice.boot (valueHandle : UInt16) : SpeedDevice :=
  ⟨Sensor.boot, SpeedLink.boot valueHandle, []⟩

inductive DeviceAction
  | sensor (a : SensorAction)
  | link (a : LinkAction)

/-- The event whose handler runs in this step, up to its return. -/
def EventPath.finishing (p : EventPath) : SensorAction → Option AppEvent
  | .main => match p.pc with
    | .inHandler _ event => some event
    | _ => none
  | .crossing _ | .timerSchedule _ _ => none

def SpeedDevice.handle (d : SpeedDevice) (event : AppEvent) : Except ErrCode SpeedDevice :=
  if event.isSpeed then
    (d.link.speedEvent event.argument).map fun link =>
      { d with link := link, handled := d.handled ++ [(event.argument, d.link.gatts.link.up)] }
  else .ok d

def deviceStep (undef speedEventHandler : UInt32) (d : SpeedDevice) :
    DeviceAction → Except ErrCode SpeedDevice
  | .link a => (d.link.raise a).map fun link => { d with link := link }
  | .sensor a =>
    (sensorStep undef speedEventHandler d.sensor a).bind fun sensor =>
      match d.sensor.path.finishing a with
      | some event => SpeedDevice.handle { d with sensor := sensor } event
      | none => .ok { d with sensor := sensor }

def EventPath.returned (p : EventPath) : List AppEvent :=
  match p.pc with
  | .inHandler _ _ => p.calls.dropLast
  | _ => p.calls

variable {undef speedEventHandler : UInt32}

theorem mainStep_returned {p q : EventPath} (inv : PathInv p) (step : p.mainStep = .ok q) :
    q.returned = p.returned ++ (p.finishing .main).toList := by
  have hpc := inv.pc
  unfold EventPath.mainStep at step
  cases hp : p.pc with
  | test =>
    rw [hp] at step
    cases step
    cases appSchedQueueEmpty p.sched <;> simp [EventPath.returned, EventPath.finishing, hp]
  | checkSize i size handler =>
    rw [hp] at hpc step
    obtain ⟨e, _, rfl, rfl⟩ := hpc
    simp only [beq_self_eq_true] at step
    cases step
    simp [EventPath.returned, EventPath.finishing, hp]
  | inHandler i e =>
    rw [hp] at hpc step
    cases step
    simpa [EventPath.returned, EventPath.finishing, hp] using
      (List.dropLast_append_getLast? e hpc.2.2).symm
  | readStart | advance _ | readSize _ | readHandler _ _ | readCallee _ _ | readArgument _ _ _ =>
    rw [hp] at step
    cases step
    simp [EventPath.returned, EventPath.finishing, hp]

theorem sensorStep_returned {s t : Sensor} {a : SensorAction} (inv : PathInv s.path)
    (step : sensorStep undef speedEventHandler s a = .ok t) :
    t.path.returned = s.path.returned ++ (s.path.finishing a).toList := by
  cases a with
  | crossing reads =>
    by_cases due : s.irq.SpeedDue undef reads
    · rw [sensorStep_due due] at step
      cases step
      exact (List.append_nil _).symm
    · rw [sensorStep_not_due due] at step
      cases step
      exact (List.append_nil _).symm
  | timerSchedule f c =>
    cases step
    exact (List.append_nil _).symm
  | main =>
    obtain ⟨q, hq, _⟩ := mainStep_pathInv inv
    simp only [sensorStep, pathStep, hq] at step
    cases step
    exact mainStep_returned inv hq

end BleSpeedSensor
