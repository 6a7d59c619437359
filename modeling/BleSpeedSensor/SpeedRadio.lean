import BleSpeedSensor.SampleTimes
import BleSpeedSensor.SpeedDevice

namespace BleSpeedSensor

open WrapClock

/-- Every call of `sd_ble_gatts_hvx` is noted, and answered with `answer`. -/
def notingHvx (answer : ErrCode) (calls : List HvxParams) (_ : ConnHandle) (params : HvxParams) :
    ErrCode × List HvxParams :=
  (answer, calls ++ [params])

/-- What `speed_event_handler` passes to `sd_ble_gatts_hvx`. -/
def speedReports (sss : Sss) (speedData : UInt32) : List HvxParams :=
  match speedEventHandler (notingHvx nrfSuccess) sss [] speedData with
  | .ok calls => calls
  | .error _ => []

theorem speedReports_eq (sss : Sss) (speedData : UInt32) : speedReports sss speedData =
    [⟨sss.valueHandle, bleGattHvxNotification, [speedData.toUInt8]⟩] := rfl

theorem speedEventHandler_noting {answer : ErrCode} {sss : Sss} {speedData : UInt32}
    {calls : List HvxParams}
    (h : speedEventHandler (notingHvx answer) sss [] speedData = .ok calls) :
    calls = speedReports sss speedData := by
  unfold speedEventHandler at h
  dsimp only at h
  split at h
  · obtain ⟨-, -, rfl⟩ := ok_of_map h
    rfl
  · cases h
    rfl

/-- A speed event that was accepted, with the true times of the samples the speed is computed from. -/
structure ScheduledSpeed where
  previousAt : Nat
  deltaAt : Nat
  speed : UInt32
  deriving DecidableEq, Repr

/-- The sensor and its service, with the speeds scheduled and the data passed to the radio so far. -/
structure SpeedRadio where
  sensor : Sensor
  sss : Sss
  previousAt : Nat
  scheduled : List ScheduledSpeed
  passed : List (List UInt8)

def SpeedRadio.boot (valueHandle : UInt16) : SpeedRadio :=
  ⟨Sensor.boot, Sss.init valueHandle, 0, [], []⟩

/-- The SoftDevice may answer a notification with any code. -/
inductive RadioAction
  | crossing (r : ReadTimes)
  | timerSchedule (timeoutHandler pContext : UInt32)
  | ble (e : BleEvt)
  | main (answer : ErrCode)

def SpeedRadio.schedules (undef speedEventHandler : UInt32) (s : SpeedRadio) (r : ReadTimes) :
    List ScheduledSpeed :=
  match (lpcompIrqHandler undef s.sensor.irq r.reads).2 with
  | some v =>
    if (appSpeedSensorEvtSchedule s.sensor.path.sched speedEventHandler v).1 = nrfSuccess then
      [⟨s.previousAt, r.forDelta, v⟩]
    else []
  | none => []

def SpeedRadio.handle (s : SpeedRadio) (answer : ErrCode) (event : AppEvent) :
    Except ErrCode SpeedRadio :=
  if event.isSpeed then
    (BleSpeedSensor.speedEventHandler (notingHvx answer) s.sss [] event.argument).map fun calls =>
      { s with passed := s.passed ++ calls.map HvxParams.data }
  else .ok s

def radioStep (undef speedEventHandler : UInt32) (s : SpeedRadio) :
    RadioAction → Except ErrCode SpeedRadio
  | .crossing r =>
    (sensorStep undef speedEventHandler s.sensor (.crossing r.reads)).map fun sensor =>
      { s with
        sensor := sensor
        previousAt := r.forPrevious
        scheduled := s.scheduled ++ s.schedules undef speedEventHandler r }
  | .timerSchedule timeoutHandler pContext =>
    (sensorStep undef speedEventHandler s.sensor (.timerSchedule timeoutHandler pContext)).map
      fun sensor => { s with sensor := sensor }
  | .ble e => .ok { s with sss := bleSssOnBleEvt s.sss e }
  | .main answer =>
    (sensorStep undef speedEventHandler s.sensor .main).bind fun sensor =>
      match s.sensor.path.finishing .main with
      | some event => SpeedRadio.handle { s with sensor := sensor } answer event
      | none => .ok { s with sensor := sensor }

/-- The main loop handles a speed event in this step. -/
def SpeedRadio.Reports (s : SpeedRadio) (a : RadioAction) (e : AppEvent) : Prop :=
  (∃ answer, a = .main answer) ∧ s.sensor.path.finishing .main = some e ∧ e.isSpeed = true

/-- The one byte passed to the radio is the speed that was scheduled, and no other speed has been
passed as this byte. -/
def Unaltered (s : SpeedRadio) (a : RadioAction) : Prop :=
  ∀ e, s.Reports a e → ∃ x b, s.scheduled[s.passed.length]? = some x ∧
    (speedReports s.sss e.argument).map HvxParams.data = [[b]] ∧ b.toNat = x.speed.toNat ∧
    ∀ (j : Nat) (y : ScheduledSpeed), s.scheduled[j]? = some y → s.passed[j]? = some [b] →
      y.speed = x.speed

/-- The samples a speed below 256 is computed from. -/
def ScheduledSpeed.FitsByte (undef : UInt32) (x : ScheduledSpeed) : Prop :=
  954 ≤ apart (sample counterPeriod x.deltaAt) (sample counterPeriod x.previousAt) ∨
    sample counterPeriod x.deltaAt = sample counterPeriod x.previousAt ∧ undef < 256

/-- A speed is handled only if its samples are 954 ticks apart. -/
def FitsWhenHandled (undef : UInt32) (s : SpeedRadio) (a : RadioAction) : Prop :=
  ∀ e, s.Reports a e → ∀ x, s.scheduled[s.passed.length]? = some x → x.FitsByte undef

end BleSpeedSensor
