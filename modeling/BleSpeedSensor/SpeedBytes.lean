import BleSpeedSensor.RadioInvariant

namespace BleSpeedSensor

open RunSystem

variable {undef : UInt32} {s : SpeedRadio}

theorem RadioInv.unaltered_iff (h : RadioInv undef s) (a : RadioAction) :
    Unaltered s a ↔ FitsWhenHandled undef s a := by
  refine forall_congr' fun e => forall_congr' fun reports => ?_
  obtain ⟨x, hmem, hx, hspeed⟩ := h.handled reports.2.1 reports.2.2
  have hfits := h.fits_iff hmem
  have hdata : (speedReports s.sss e.argument).map HvxParams.data = [[e.argument.toUInt8]] := rfl
  rw [hdata]
  constructor
  · rintro ⟨y, b, hy, hb, hbyte, -⟩ z hz
    cases Option.some.inj (hx.symm.trans hy)
    cases Option.some.inj (hx.symm.trans hz)
    rw [hfits, ← hbyte]
    exact b.toNat_lt
  · intro fits
    have hlt := h.argument_lt hmem hspeed (fits x hx)
    have hbyte := toUInt8_toNat_of_lt hlt
    refine ⟨x, _, hx, rfl, by rw [hbyte, hspeed], fun j y hy hpassed => ?_⟩
    obtain ⟨z, c, hz, hc, hcz⟩ := h.bytes j _ hpassed
    cases Option.some.inj (hy.symm.trans hz)
    cases List.singleton_inj.mp hc
    rw [← UInt32.toNat_inj, ← hcz, hbyte, hspeed]

/-- Every speed reaches the radio as the byte it is exactly as long as no speed is handled that was
computed from samples less than 954 ticks apart. -/
theorem speeds_unaltered_iff (undef speedEventHandler : UInt32) (valueHandle : UInt16)
    (as : List RadioAction) :
    EveryLiveStep (radioStep undef speedEventHandler) Unaltered (SpeedRadio.boot valueHandle) as ↔
      EveryLiveStep (radioStep undef speedEventHandler) (FitsWhenHandled undef)
        (SpeedRadio.boot valueHandle) as :=
  everyLiveStep_congr (boot_radioInv valueHandle) (fun _ _ _ h fits step => h.step fits step)
    (fun _ a h => h.unaltered_iff a) as

theorem close_crossings :
    lpcompIrqHandler 0 LpcompState.boot (ReadTimes.const 16383).reads = (⟨16383, 0, 0⟩, none) ∧
      lpcompIrqHandler 0 ⟨16383, 0, 0⟩ (ReadTimes.const 16384).reads =
        (⟨16384, 244183, 16384⟩, some 244183) := by
  decide +kernel

/-- A second crossing one tick after the first, at the tick the gate opens. -/
def closeReport : SpeedRadio where
  sensor := ⟨⟨16384, 244183, 16384⟩, EventPath.boot.afterPut ⟨.appSpeedSensorEvtGet, 0, 244183⟩
    (appSpeedSensorEvtSchedule Sched.fresh 0 244183)⟩
  sss := Sss.init 12
  previousAt := 16384
  scheduled := [⟨16383, 16384, 244183⟩]
  passed := []

theorem closeReport_reached : runHalting (radioStep 0 0) (SpeedRadio.boot 12)
    [.crossing (ReadTimes.const 16383), .crossing (ReadTimes.const 16384)] = .ok closeReport := by
  obtain ⟨hfirst, hsecond⟩ := close_crossings
  have hstep : radioStep 0 0 (SpeedRadio.boot 12) (.crossing (ReadTimes.const 16383)) =
      .ok { SpeedRadio.boot 12 with
        sensor := ⟨⟨16383, 0, 0⟩, EventPath.boot⟩
        previousAt := 16383 } := by
    simp only [radioStep, sensorStep, SpeedRadio.schedules, SpeedRadio.boot, Sensor.boot, hfirst]
    rfl
  rw [runHalting_cons, hstep]
  simp only [Except.bind, runHalting_cons, radioStep, sensorStep, SpeedRadio.schedules, hsecond]
  rfl

/-- The speed of 244183 km/h is passed to the radio as 215. -/
theorem close_report_altered :
    ¬∀ (undef speedEventHandler : UInt32) (valueHandle : UInt16) (as : List RadioAction),
      EveryLiveStep (radioStep undef speedEventHandler) Unaltered (SpeedRadio.boot valueHandle)
        as := by
  intro h
  obtain ⟨s, run, finishing, scheduled, passed⟩ :
      ∃ s, runHalting (radioStep 0 0) closeReport (List.replicate 8 (.main nrfSuccess)) = .ok s ∧
        s.sensor.path.finishing .main = some ⟨.appSpeedSensorEvtGet, 0, 244183⟩ ∧
        s.scheduled = [⟨16383, 16384, 244183⟩] ∧ s.passed = [] := ⟨_, rfl, rfl, rfl, rfl⟩
  have reach := (runHalting_append closeReport_reached _).trans run
  have unaltered := (h 0 0 12 (_ ++ [.main nrfSuccess])).last reach
  obtain ⟨x, b, hx, hdata, hbyte, -⟩ := unaltered _ ⟨⟨nrfSuccess, rfl⟩, finishing, rfl⟩
  rw [scheduled, passed] at hx
  cases hx
  rw [speedReports_eq] at hdata
  cases hdata
  exact absurd hbyte (by decide)

end BleSpeedSensor
