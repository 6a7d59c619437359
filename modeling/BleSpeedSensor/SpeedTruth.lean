import BleSpeedSensor.RunSystem
import BleSpeedSensor.SampleTimes

namespace BleSpeedSensor

open RunSystem WrapClock

/-- The interrupt's state together with the true time of the crossing before. -/
structure Wheel where
  irq : LpcompState
  lastCrossing : Option Nat

def Wheel.boot : Wheel := ⟨LpcompState.boot, none⟩

def Wheel.crossing (undef : UInt32) (w : Wheel) (t : Nat) : Wheel :=
  ⟨(lpcompIrqHandler undef w.irq (counterAt t)).1, some t⟩

/-- A positive speed reported at `t` is at most the speed over the revolution that ends at `t`. -/
def TruthfulReport (undef : UInt32) (w : Wheel) (t : Nat) : Prop :=
  ∀ v, (lpcompIrqHandler undef w.irq (counterAt t)).2 = some v → 0 < v →
    ∃ t₀, w.lastCrossing = some t₀ ∧ v.toNat * 30518 * (t - t₀) ≤ 7452000000

/-- Where a positive speed is due, the counter has not wrapped since the crossing before. -/
def SamePeriodWhenDue (undef : UInt32) (w : Wheel) (t : Nat) : Prop :=
  w.irq.SpeedDue undef (counterAt t) → 0 < w.irq.actualSpeedKmh undef (counterAt t) →
    ∃ t₀, w.lastCrossing = some t₀ ∧ t / counterPeriod = t₀ / counterPeriod

/-- The handler's last sample was taken at the crossing before. -/
def Wheel.Sampled (w : Wheel) : Prop :=
  ∀ t₀, w.lastCrossing = some t₀ → w.irq.previousRtc0CounterValue = counterSample t₀

theorem Wheel.Sampled.crossing {undef : UInt32} {w : Wheel} {t : Nat} :
    (w.crossing undef t).Sampled := by
  intro t₀ h₀
  cases Option.some.inj h₀
  exact lpcompIrqHandler_previous

theorem Wheel.Sampled.deltatimeTicks {w : Wheel} {t t₀ : Nat} (h : w.Sampled)
    (h₀ : w.lastCrossing = some t₀) : (w.irq.deltatimeTicks (counterAt t)).toNat =
      apart (sample counterPeriod t) (sample counterPeriod t₀) := by
  rw [LpcompState.deltatimeTicks, h t₀ h₀]
  exact absInt_counterSample t t₀

structure WheelInv (w : Wheel) (times : List Nat) : Prop where
  increasing : times.Pairwise (· < ·)
  earlier : ∀ t₀, w.lastCrossing = some t₀ → ∀ t ∈ times, t₀ < t
  sampled : ∀ t₀, w.lastCrossing = some t₀ →
    w.irq.previousRtc0CounterValue = UInt32.ofNat (sample counterPeriod t₀)

theorem boot_wheelInv {times : List Nat} (h : times.Pairwise (· < ·)) : WheelInv Wheel.boot times :=
  ⟨h, fun _ h₀ => by simp [Wheel.boot] at h₀, fun _ h₀ => by simp [Wheel.boot] at h₀⟩

theorem WheelInv.crossing {undef : UInt32} {w : Wheel} {t : Nat} {times : List Nat}
    (h : WheelInv w (t :: times)) : WheelInv (w.crossing undef t) times := by
  obtain ⟨hlt, hinc⟩ := List.pairwise_cons.mp h.increasing
  refine ⟨hinc, fun t₀ h₀ => ?_, Wheel.Sampled.crossing⟩
  cases Option.some.inj h₀
  exact hlt

/-- A positive speed is the true one exactly when both samples are of one counter period. -/
theorem speed_truthful_iff {undef dt : UInt32} {t t₀ : Nat} (hlt : t₀ < t)
    (hdt : dt.toNat = apart (sample counterPeriod t) (sample counterPeriod t₀))
    (hpos : 0 < toUint32 undef (speedKmh dt)) :
    (toUint32 undef (speedKmh dt)).toNat * 30518 * (t - t₀) ≤ 7452000000 ↔
      t / counterPeriod = t₀ / counterPeriod := by
  have hv : 0 < (toUint32 undef (speedKmh dt)).toNat := UInt32.lt_iff_toNat_lt.mp hpos
  constructor
  · intro hle
    refine (same_or_later_period (Nat.le_of_lt hlt)).resolve_right fun later => ?_
    have hperiod := period_le_of_later_period later
    have hw : counterPeriod = 16777216 := rfl
    have hbound : 30518 * (t - t₀) ≤ 7452000000 := by
      refine Nat.le_trans ?_ hle
      rw [Nat.mul_assoc]
      exact Nat.le_mul_of_pos_left _ hv
    by_cases hz : dt = 0
    · have : dt.toNat = 0 := congrArg UInt32.toNat hz
      omega
    · rw [toUint32_speedKmh hz] at hv
      have := (Nat.div_pos_iff.mp hv).2
      omega
  · intro same
    have hd := apart_of_same_period (Nat.le_of_lt hlt) same
    have hz : dt ≠ 0 := by
      rintro rfl
      have : (0 : UInt32).toNat = 0 := rfl
      omega
    rw [toUint32_speedKmh hz, hdt, hd, Nat.mul_assoc]
    exact Nat.div_mul_le_self _ _

theorem truthful_iff_samePeriod {undef : UInt32} {w : Wheel} {t : Nat} {times : List Nat}
    (h : WheelInv w (t :: times)) : TruthfulReport undef w t ↔ SamePeriodWhenDue undef w t := by
  have agree : ∀ t₀, w.lastCrossing = some t₀ → 0 < w.irq.actualSpeedKmh undef (counterAt t) →
      ((w.irq.actualSpeedKmh undef (counterAt t)).toNat * 30518 * (t - t₀) ≤ 7452000000 ↔
        t / counterPeriod = t₀ / counterPeriod) := fun t₀ h₀ =>
    speed_truthful_iff (h.earlier t₀ h₀ t (by simp)) (Wheel.Sampled.deltatimeTicks h.sampled h₀)
  constructor
  · intro truthful due hpos
    obtain ⟨t₀, h₀, hle⟩ := truthful _ (lpcompIrqHandler_report.mpr ⟨due, rfl⟩) hpos
    exact ⟨t₀, h₀, (agree t₀ h₀ hpos).mp hle⟩
  · intro same v hv hpos
    obtain ⟨due, rfl⟩ := lpcompIrqHandler_report.mp hv
    obtain ⟨t₀, h₀, hp⟩ := same due hpos
    exact ⟨t₀, h₀, (agree t₀ h₀ hpos).mpr hp⟩

/-- The sensor reports only speeds the wheel had exactly as long as the counter does not wrap
between the two crossings of a report, the first crossing counting as a wrap. -/
theorem reports_truthful_iff (undef : UInt32) {times : List Nat} (h : times.Pairwise (· < ·)) :
    EveryStep (Wheel.crossing undef) (TruthfulReport undef) Wheel.boot times ↔
      EveryStep (Wheel.crossing undef) (SamePeriodWhenDue undef) Wheel.boot times :=
  everyStep_congr_ahead (boot_wheelInv h) (fun _ _ _ hw => hw.crossing)
    (fun _ _ _ hw => truthful_iff_samePeriod hw)

theorem slow_start_truthful :
    EveryStep (Wheel.crossing 0) (TruthfulReport 0) Wheel.boot [5000000, 5030000] :=
  (reports_truthful_iff 0 (by simp)).mpr
    ⟨fun _ hpos => absurd hpos (by decide +kernel), fun _ _ => ⟨5000000, rfl, by decide⟩, trivial⟩

theorem first_crossing_reports :
    (lpcompIrqHandler 0 Wheel.boot.irq (counterAt 20000)).2 = some 12 := by decide +kernel

/-- The first crossing 20000 ticks after the counter started is reported as 12 km/h. -/
theorem first_crossing_not_truthful :
    ¬∀ (undef : UInt32) (times : List Nat), times.Pairwise (· < ·) →
      EveryStep (Wheel.crossing undef) (TruthfulReport undef) Wheel.boot times := by
  intro h
  obtain ⟨t₀, h₀, _⟩ := (h 0 [20000] (by simp)).1 12 first_crossing_reports (by decide)
  simp [Wheel.boot] at h₀

end BleSpeedSensor
