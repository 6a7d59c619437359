import BleSpeedSensor.SpeedTruth

namespace BleSpeedSensor

open RunSystem WrapClock

/-- Less than a counter period after the crossing before, the interval measured is the true one. -/
def IntervalExact (w : Wheel) (t : Nat) : Prop :=
  ∀ t₀, w.lastCrossing = some t₀ → t₀ < t → t - t₀ < counterPeriod →
    (w.irq.deltatimeTicks (counterAt t)).toNat = t - t₀

/-- The counter does not wrap between the two crossings, unless these are half a period apart. -/
def NoWrapBetween (w : Wheel) (t : Nat) : Prop :=
  ∀ t₀, w.lastCrossing = some t₀ → t₀ < t → t - t₀ < counterPeriod →
    t / counterPeriod = t₀ / counterPeriod ∨ 2 * (t - t₀) = counterPeriod

theorem intervalExact_iff {w : Wheel} (h : w.Sampled) (t : Nat) :
    IntervalExact w t ↔ NoWrapBetween w t := by
  refine forall_congr' fun t₀ => forall_congr' fun h₀ => forall_congr' fun hlt =>
    forall_congr' fun near => ?_
  have hnear : t < t₀ + counterPeriod := by omega
  rw [h.deltatimeTicks h₀]
  exact apart_eq_elapsed_iff (Nat.le_of_lt hlt) hnear

/-- The interval between consecutive crossings is measured exactly where the counter does not wrap
between them, and by the one chance that they are half a period apart. -/
theorem intervals_exact_iff (undef : UInt32) (times : List Nat) :
    EveryStep (Wheel.crossing undef) IntervalExact Wheel.boot times ↔
      EveryStep (Wheel.crossing undef) NoWrapBetween Wheel.boot times := by
  have hboot : Wheel.boot.Sampled := fun t₀ h₀ => by cases h₀
  exact everyStep_congr hboot (fun _ _ _ => Wheel.Sampled.crossing)
    (fun _ t h => intervalExact_iff h t) times

/-- One tick, from the last value of the counter to 0, is measured as 16777215. -/
theorem wrapped_interval_not_exact :
    ¬∀ (undef : UInt32) (times : List Nat), times.Pairwise (· < ·) →
      EveryStep (Wheel.crossing undef) IntervalExact Wheel.boot times := by
  intro h
  have hexact := (h 0 [16777215, 16777216] (by simp)).2.1
  have hone := hexact 16777215 rfl (by decide) (by decide)
  have hsampled : (Wheel.boot.crossing 0 16777215).Sampled := Wheel.Sampled.crossing
  rw [hsampled.deltatimeTicks rfl] at hone
  exact absurd hone (by decide)

end BleSpeedSensor
