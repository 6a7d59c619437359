import BleSpeedSensor.RunSystem
import BleSpeedSensor.SampleTimes

namespace BleSpeedSensor

open RunSystem WrapClock

/-- One activation at the true time `t`. -/
def TimedIrq.crossing (undef : UInt32) (s : TimedIrq) (t : Nat) : TimedIrq :=
  s.activate undef (ReadTimes.const t)

/-- The gate tells whether `minTxInterval` ticks have passed since the last speed event; so speed
events are that far apart, and no changed speed waits longer. -/
structure GateExact (undef : UInt32) (s : TimedIrq) (t : Nat) : Prop where
  gate : ∀ e, t = s.lastTxAt + e → e < counterPeriod →
    (s.irq.gateOpen (counterAt t) = true ↔ minTxInterval ≤ e)
  spaced : ∀ e v, t = s.lastTxAt + e →
    (lpcompIrqHandler undef s.irq (counterAt t)).2 = some v → minTxInterval ≤ e
  prompt : ∀ e, t = s.lastTxAt + e → minTxInterval ≤ e →
    s.irq.oldSpeedKmh ≠ s.irq.actualSpeedKmh undef (counterAt t) →
    (lpcompIrqHandler undef s.irq (counterAt t)).2 = some (s.irq.actualSpeedKmh undef (counterAt t))

/-- Within a counter period of the last speed event the counter has not wrapped since then, or the
wrap is well between; later the two samples of a changed speed are not too near each other. -/
structure SamplesTell (undef : UInt32) (s : TimedIrq) (t : Nat) : Prop where
  near : ∀ e, t = s.lastTxAt + e → e < counterPeriod →
    t / counterPeriod = s.lastTxAt / counterPeriod ∨
      minTxInterval ≤ e ∧ e + minTxInterval ≤ counterPeriod
  far : ∀ e, t = s.lastTxAt + e → counterPeriod ≤ e →
    s.irq.oldSpeedKmh ≠ s.irq.actualSpeedKmh undef (counterAt t) →
    minTxInterval ≤ apart (sample counterPeriod t) (sample counterPeriod s.lastTxAt)

variable {undef : UInt32} {s : TimedIrq} {t : Nat}

theorem TimedIrq.Sampled.gate_iff_elapsed (h : s.Sampled) {e : Nat} (ht : t = s.lastTxAt + e)
    (near : e < counterPeriod) :
    (s.irq.gateOpen (counterAt t) = true ↔ minTxInterval ≤ e) ↔
      t / counterPeriod = s.lastTxAt / counterPeriod ∨
        minTxInterval ≤ e ∧ e + minTxInterval ≤ counterPeriod := by
  have hle : s.lastTxAt ≤ t := by omega
  have hnear : t < s.lastTxAt + counterPeriod := by omega
  have hsub : t - s.lastTxAt = e := by omega
  have hgate := h.gateOpen_iff (ReadTimes.const t)
  have hiff := le_apart_iff_elapsed (n := minTxInterval) hle hnear (by decide)
  rw [hsub] at hiff
  exact (iff_congr hgate Iff.rfl).trans hiff

theorem gateExact_iff (h : s.Sampled) : GateExact undef s t ↔ SamplesTell undef s t := by
  have hfar : minTxInterval ≤ counterPeriod := by decide
  constructor
  · intro exact_
    refine ⟨fun e ht near => (h.gate_iff_elapsed ht near).mp (exact_.gate e ht near),
      fun e ht far changed => ?_⟩
    have hreport := exact_.prompt e ht (Nat.le_trans hfar far) changed
    exact (h.gateOpen_iff (ReadTimes.const t)).mp (lpcompIrqHandler_report.mp hreport).1.1
  · intro tell
    have hgate : ∀ e, t = s.lastTxAt + e → e < counterPeriod →
        (s.irq.gateOpen (counterAt t) = true ↔ minTxInterval ≤ e) :=
      fun e ht near => (h.gate_iff_elapsed ht near).mpr (tell.near e ht near)
    refine ⟨hgate, fun e v ht hv => ?_, fun e ht passed changed => ?_⟩
    · obtain ⟨due, -⟩ := lpcompIrqHandler_report.mp hv
      rcases Nat.lt_or_ge e counterPeriod with near | far
      · exact (hgate e ht near).mp due.1
      · exact Nat.le_trans hfar far
    · have hopen : s.irq.gateOpen (counterAt t) = true := by
        rcases Nat.lt_or_ge e counterPeriod with near | far
        · exact (hgate e ht near).mpr passed
        · exact (h.gateOpen_iff (ReadTimes.const t)).mpr (tell.far e ht far changed)
      exact lpcompIrqHandler_report.mpr ⟨⟨hopen, changed⟩, rfl⟩

/-- The gate follows real time exactly as long as the counter does not wrap within the interval
before or after the last speed event, and a changed speed does not find a later period of the counter
within the interval around the value of that event. -/
theorem gate_exact_iff (undef : UInt32) (times : List Nat) :
    EveryStep (TimedIrq.crossing undef) (GateExact undef) TimedIrq.boot times ↔
      EveryStep (TimedIrq.crossing undef) (SamplesTell undef) TimedIrq.boot times :=
  everyStep_congr boot_sampled (fun _ t h => h.activate (ReadTimes.const t))
    (fun _ _ h => gateExact_iff h) times

/-- A speed event 7216 ticks before the counter wraps. -/
def beforeWrap : TimedIrq := ⟨⟨16770000, 12, 16770000⟩, 16770000, 16770000⟩

theorem beforeWrap_reached :
    runFrom (TimedIrq.crossing 0) TimedIrq.boot [16750000, 16770000] = beforeWrap := by
  decide +kernel

/-- The gate opens 7316 ticks after a speed event, and the next one is scheduled. -/
theorem wrapped_gate_not_exact :
    ¬∀ (undef : UInt32) (times : List Nat), times.Pairwise (· < ·) →
      EveryStep (TimedIrq.crossing undef) (GateExact undef) TimedIrq.boot times := by
  intro h
  have hrun := h 0 ([16750000, 16770000] ++ [16777316]) (by simp)
  have hlast := (everyStep_append.mp hrun).2.1
  rw [beforeWrap_reached] at hlast
  have hopen : beforeWrap.irq.gateOpen (counterAt 16777316) = true := by decide +kernel
  have hpassed := (hlast.gate 7316 rfl (by decide)).mp hopen
  exact absurd hpassed (by decide)

end BleSpeedSensor
