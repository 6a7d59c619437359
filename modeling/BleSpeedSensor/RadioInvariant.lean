import BleSpeedSensor.SpeedRadio

namespace BleSpeedSensor

open WrapClock

variable {undef speedEventHandler : UInt32}

/-- The interval the speed is computed from, as the interrupt handler measures it. -/
def ScheduledSpeed.interval (x : ScheduledSpeed) : UInt32 :=
  absInt (counterSample x.deltaAt - counterSample x.previousAt)

def ScheduledSpeed.Computed (undef : UInt32) (x : ScheduledSpeed) : Prop :=
  x.speed = toUint32 undef (speedKmh x.interval)

theorem ScheduledSpeed.Computed.lt_iff {x : ScheduledSpeed} (h : x.Computed undef) :
    x.speed < 256 ↔ x.FitsByte undef := by
  have hinterval : x.interval.toNat =
      apart (sample counterPeriod x.deltaAt) (sample counterPeriod x.previousAt) :=
    absInt_counterSample x.deltaAt x.previousAt
  unfold ScheduledSpeed.FitsByte
  rw [h, ← hinterval, ← apart_eq_zero_iff, ← hinterval]
  by_cases hz : x.interval = 0
  · have hundef : toUint32 undef (speedKmh x.interval) = undef := by
      rw [hz]
      rfl
    have hnat : x.interval.toNat = 0 := congrArg UInt32.toNat hz
    rw [hundef, hnat]
    exact ⟨fun hlt => Or.inr ⟨rfl, hlt⟩, fun hfits => (hfits.resolve_left (by decide)).2⟩
  · have hnat : x.interval.toNat ≠ 0 := fun hn => hz (UInt32.toNat_inj.mp hn)
    have hpos : 0 < 30518 * x.interval.toNat := by omega
    have hbyte : (256 : UInt32).toNat = 256 := rfl
    rw [UInt32.lt_iff_toNat_lt, toUint32_speedKmh hz, hbyte, Nat.div_lt_iff_lt_mul hpos]
    omega

structure RadioInv (undef : UInt32) (s : SpeedRadio) : Prop where
  path : PathInv s.sensor.path
  previous : s.sensor.irq.previousRtc0CounterValue = counterSample s.previousAt
  scheduled : (s.sensor.path.accepted.filter AppEvent.isSpeed).map AppEvent.argument =
    s.scheduled.map ScheduledSpeed.speed
  passed : s.passed.length = (s.sensor.path.returned.filter AppEvent.isSpeed).length
  computed : ∀ x ∈ s.scheduled, x.Computed undef
  bytes : ∀ (j : Nat) (d : List UInt8), s.passed[j]? = some d →
    ∃ x b, s.scheduled[j]? = some x ∧ d = [b] ∧ b.toNat = x.speed.toNat

theorem boot_radioInv (valueHandle : UInt16) : RadioInv undef (SpeedRadio.boot valueHandle) where
  path := boot_pathInv
  previous := boot_sampled.previous
  scheduled := rfl
  passed := rfl
  computed _ hx := by cases hx
  bytes _ _ hd := by cases hd

theorem PathInv.finishing_split {p : EventPath} (h : PathInv p) {e : AppEvent}
    (he : p.finishing .main = some e) : ∃ rest, p.accepted = p.returned ++ e :: rest := by
  have hpc := h.pc
  unfold EventPath.finishing at he
  cases hp : p.pc with
  | inHandler i x =>
    rw [hp] at hpc he
    cases he
    have hlast : p.calls.dropLast ++ [e] = p.calls := List.dropLast_append_getLast? e hpc.2.2
    have hreturned : p.returned = p.calls.dropLast := by rw [EventPath.returned, hp]
    refine ⟨p.accepted.drop p.calls.length, ?_⟩
    calc p.accepted = p.accepted.take p.calls.length ++ p.accepted.drop p.calls.length :=
          (List.take_append_drop _ _).symm
      _ = (p.calls.dropLast ++ [e]) ++ p.accepted.drop p.calls.length := by
          rw [← h.calls_eq, hlast]
      _ = p.returned ++ e :: p.accepted.drop p.calls.length := by
          rw [hreturned, List.append_assoc, List.singleton_append]
  | test | readStart | advance _ | readSize _ | readHandler _ _ | checkSize _ _ _
  | readCallee _ _ | readArgument _ _ _ =>
    rw [hp] at he
    cases he

variable {s t : SpeedRadio}

theorem RadioInv.handled (h : RadioInv undef s) {e : AppEvent}
    (he : s.sensor.path.finishing .main = some e) (speed : e.isSpeed = true) :
    ∃ x ∈ s.scheduled, s.scheduled[s.passed.length]? = some x ∧ x.speed = e.argument := by
  obtain ⟨rest, hsplit⟩ := h.path.finishing_split he
  have hspeeds := h.scheduled
  rw [hsplit, List.filter_append, List.filter_cons_of_pos speed, List.map_append,
    List.map_cons] at hspeeds
  have hget : (s.scheduled.map ScheduledSpeed.speed)[s.passed.length]? = some e.argument := by
    rw [← hspeeds, h.passed, List.getElem?_append_right (by simp)]
    simp
  rw [List.getElem?_map] at hget
  obtain ⟨x, hx, hspeed⟩ := Option.map_eq_some_iff.mp hget
  exact ⟨x, List.mem_of_getElem? hx, hx, hspeed⟩

theorem RadioInv.fits_iff (h : RadioInv undef s) {x : ScheduledSpeed} (hx : x ∈ s.scheduled) :
    x.FitsByte undef ↔ x.speed.toNat < 256 := by
  rw [← (h.computed x hx).lt_iff, UInt32.lt_iff_toNat_lt]
  rfl

theorem RadioInv.crossing (h : RadioInv undef s) {r : ReadTimes}
    (step : radioStep undef speedEventHandler s (.crossing r) = .ok t) : RadioInv undef t := by
  obtain ⟨sensor, hsensor, rfl⟩ := ok_of_map step
  by_cases due : s.sensor.irq.SpeedDue undef r.reads
  · have hreport := lpcompIrqHandler_report.mpr ⟨due, rfl⟩
    have hspeed : s.sensor.irq.actualSpeedKmh undef r.reads =
        toUint32 undef (speedKmh (absInt (counterSample r.forDelta - counterSample s.previousAt))) := by
      rw [← h.previous]
      rfl
    cases Except.ok.inj ((sensorStep_due due).symm.trans hsensor)
    by_cases accepted : (appSpeedSensorEvtSchedule s.sensor.path.sched speedEventHandler
        (s.sensor.irq.actualSpeedKmh undef r.reads)).1 = nrfSuccess
    · have hschedules : s.schedules undef speedEventHandler r =
          [⟨s.previousAt, r.forDelta, s.sensor.irq.actualSpeedKmh undef r.reads⟩] := by
        rw [SpeedRadio.schedules, hreport]
        exact if_pos accepted
      rw [hschedules]
      refine ⟨put_pathInv h.path _, rfl, ?_, h.passed, ?_, ?_⟩
      · simp only [EventPath.afterPut, accepted, if_true, List.filter_append, List.map_append,
          h.scheduled]
        rfl
      · intro x hx
        rcases List.mem_append.mp hx with old | new
        · exact h.computed x old
        · rw [List.mem_singleton.mp new]
          exact hspeed
      · intro j d hd
        obtain ⟨x, b, hx, hb, hbyte⟩ := h.bytes j d hd
        exact ⟨x, b, List.getElem?_append_left (List.getElem?_eq_some_iff.mp hx).1 ▸ hx, hb, hbyte⟩
    · have hschedules : s.schedules undef speedEventHandler r = [] := by
        rw [SpeedRadio.schedules, hreport]
        exact if_neg accepted
      rw [hschedules, List.append_nil]
      refine ⟨put_pathInv h.path _, rfl, ?_, h.passed, h.computed, h.bytes⟩
      simp only [EventPath.afterPut, accepted, if_false]
      exact h.scheduled
  · have hschedules : s.schedules undef speedEventHandler r = [] := by
      rw [SpeedRadio.schedules, lpcompIrqHandler_not_due due]
    cases Except.ok.inj ((sensorStep_not_due due).symm.trans hsensor)
    rw [hschedules, List.append_nil]
    exact ⟨h.path, rfl, h.scheduled, h.passed, h.computed, h.bytes⟩

theorem RadioInv.timerSchedule (h : RadioInv undef s) {f c : UInt32}
    (step : radioStep undef speedEventHandler s (.timerSchedule f c) = .ok t) : RadioInv undef t := by
  cases step
  refine ⟨put_pathInv h.path _, h.previous, ?_, h.passed, h.computed, h.bytes⟩
  rw [← h.scheduled]
  simp only [EventPath.afterPut]
  split
  · simp [List.filter_append, AppEvent.isSpeed]
  · rfl

theorem RadioInv.argument_lt (h : RadioInv undef s) {x : ScheduledSpeed} (hx : x ∈ s.scheduled)
    {e : AppEvent} (hspeed : x.speed = e.argument) (fits : x.FitsByte undef) : e.argument < 256 := by
  rw [← hspeed, UInt32.lt_iff_toNat_lt]
  exact (h.fits_iff hx).mp fits

/-- The main loop goes on and passes what it passes. -/
theorem RadioInv.goOn (h : RadioInv undef s) {q : EventPath} (hpath : PathInv q)
    (haccepted : q.accepted = s.sensor.path.accepted) {passed : List (List UInt8)}
    (hpassed : passed.length = (q.returned.filter AppEvent.isSpeed).length)
    (hbytes : ∀ (j : Nat) (d : List UInt8), passed[j]? = some d →
      ∃ x b, s.scheduled[j]? = some x ∧ d = [b] ∧ b.toNat = x.speed.toNat) :
    RadioInv undef { s with sensor := { s.sensor with path := q }, passed := passed } := by
  refine ⟨hpath, h.previous, ?_, hpassed, h.computed, hbytes⟩
  dsimp only
  rw [haccepted]
  exact h.scheduled

theorem RadioInv.main (h : RadioInv undef s) {answer : ErrCode}
    (fits : FitsWhenHandled undef s (.main answer))
    (step : radioStep undef speedEventHandler s (.main answer) = .ok t) : RadioInv undef t := by
  obtain ⟨sensor, hsensor, step⟩ := ok_of_bind step
  obtain ⟨q, hq, hpath⟩ := mainStep_pathInv h.path
  have hreturned := mainStep_returned h.path hq
  have hirq : sensor = { s.sensor with path := q } := by
    simp only [sensorStep, pathStep, hq] at hsensor
    cases hsensor
    rfl
  have haccepted := mainStep_accepted hq
  subst hirq
  cases he : s.sensor.path.finishing .main with
  | none =>
    rw [he] at step hreturned
    cases step
    refine h.goOn hpath haccepted ?_ h.bytes
    rw [hreturned]
    simpa using h.passed
  | some e =>
    rw [he] at step hreturned
    dsimp only at step
    unfold SpeedRadio.handle at step
    split at step
    next speed =>
      obtain ⟨calls, hcalls, rfl⟩ := ok_of_map step
      obtain ⟨x, hmem, hx, hspeed⟩ := h.handled he speed
      have hlt := h.argument_lt hmem hspeed (fits e ⟨⟨answer, rfl⟩, he, speed⟩ x hx)
      have hdata : calls.map HvxParams.data = [[e.argument.toUInt8]] := by
        rw [speedEventHandler_noting hcalls]
        rfl
      rw [hdata]
      refine h.goOn hpath haccepted ?_ fun j d hd => ?_
      · rw [hreturned]
        simp [List.filter_append, speed, h.passed]
      · rcases getElem?_concat_some hd with old | ⟨rfl, rfl⟩
        · exact h.bytes j d old
        · exact ⟨x, _, hx, rfl, by rw [toUInt8_toNat_of_lt hlt, hspeed]⟩
    next speed =>
      cases step
      refine h.goOn hpath haccepted ?_ h.bytes
      rw [hreturned]
      simpa [List.filter_append, speed] using h.passed

theorem RadioInv.step (h : RadioInv undef s) {a : RadioAction} (fits : FitsWhenHandled undef s a)
    (step : radioStep undef speedEventHandler s a = .ok t) : RadioInv undef t := by
  cases a with
  | crossing r => exact h.crossing step
  | timerSchedule f c => exact h.timerSchedule step
  | main answer => exact h.main fits step
  | ble e =>
    cases step
    exact ⟨h.path, h.previous, h.scheduled, h.passed, h.computed, h.bytes⟩

end BleSpeedSensor
