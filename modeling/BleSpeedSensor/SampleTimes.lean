import BleSpeedSensor.LpcompIrq

namespace BleSpeedSensor

open WrapClock

def counterPeriod : Nat := 2 ^ 24

/-- What RTC0's 24-bit counter shows at the true time `t`. -/
def counterSample (t : Nat) : UInt32 := UInt32.ofNat (sample counterPeriod t)

/-- One value for all `COUNTER` reads of an activation at the true time `t`. -/
def counterAt (t : Nat) : CounterReads := CounterReads.const (UInt32.ofNat (sample counterPeriod t))

theorem sample_lt_counterPeriod (t : Nat) : sample counterPeriod t < counterPeriod :=
  sample_lt (by decide) t

theorem counterSample_toNat (t : Nat) : (counterSample t).toNat = sample counterPeriod t := by
  have hlt := sample_lt_counterPeriod t
  exact UInt32.toNat_ofNat_of_lt' (Nat.lt_trans hlt (by decide))

theorem absInt_counterSample (t t₀ : Nat) :
    (absInt (counterSample t - counterSample t₀)).toNat =
      apart (sample counterPeriod t) (sample counterPeriod t₀) := by
  have hbound : ∀ u, (counterSample u).toNat < 2 ^ 31 := by
    intro u
    rw [counterSample_toNat]
    exact Nat.lt_trans (sample_lt_counterPeriod u) (by decide)
  rw [absInt_sub (hbound t) (hbound t₀), counterSample_toNat, counterSample_toNat]

/-- The whole number of ticks from which on `MIN_TX_INTERVAL_TICKS` is reached. -/
def minTxInterval : Nat := 16384

theorem minTxIntervalTicks_le_iff (n : Nat) :
    minTxIntervalTicks ≤ (n : ℚ) ↔ minTxInterval ≤ n := by
  have hwhole : minTxInterval = 16384 := rfl
  have hvalue : minTxIntervalTicks = 250000000 / 15259 := by
    norm_num [minTxIntervalTicks, minTxIntervalS, rtc0ResolutionS]
  rw [hvalue, div_le_iff₀ (by norm_num)]
  constructor
  · intro hle
    have hnat : 250000000 ≤ n * 15259 := by exact_mod_cast hle
    omega
  · intro hle
    have hnat : 250000000 ≤ n * 15259 := by omega
    exact_mod_cast hnat

/-- The true times of the reads of `COUNTER` in one activation, in program order. -/
structure ReadTimes where
  forDelta : Nat
  forPrevious : Nat
  forGate : Nat
  forLastTx : Nat
  deriving DecidableEq, Repr

def ReadTimes.const (t : Nat) : ReadTimes := ⟨t, t, t, t⟩

def ReadTimes.toList (r : ReadTimes) : List Nat :=
  [r.forDelta, r.forPrevious, r.forGate, r.forLastTx]

def ReadTimes.reads (r : ReadTimes) : CounterReads where
  forDelta := counterSample r.forDelta
  forPrevious := counterSample r.forPrevious
  forGate := counterSample r.forGate
  forLastTx := counterSample r.forLastTx

/-- The interrupt's state with the true times at which its two samples were read; both are 0, the
start of the counter, until there is one. -/
structure TimedIrq where
  irq : LpcompState
  previousAt : Nat
  lastTxAt : Nat
  deriving DecidableEq, Repr

def TimedIrq.boot : TimedIrq := ⟨LpcompState.boot, 0, 0⟩

def TimedIrq.activate (undef : UInt32) (s : TimedIrq) (r : ReadTimes) : TimedIrq :=
  let result := lpcompIrqHandler undef s.irq r.reads
  ⟨result.1, r.forPrevious, if result.2.isSome then r.forLastTx else s.lastTxAt⟩

structure TimedIrq.Sampled (s : TimedIrq) : Prop where
  previous : s.irq.previousRtc0CounterValue = counterSample s.previousAt
  lastTx : s.irq.lastTxEvtTime = counterSample s.lastTxAt

theorem boot_sampled : TimedIrq.boot.Sampled := ⟨by decide, by decide⟩

variable {undef : UInt32} {s : TimedIrq}

theorem TimedIrq.Sampled.activate (h : s.Sampled) (r : ReadTimes) : (s.activate undef r).Sampled := by
  refine ⟨lpcompIrqHandler_previous, ?_⟩
  unfold TimedIrq.activate
  by_cases due : s.irq.SpeedDue undef r.reads
  · rw [lpcompIrqHandler_due due]
    rfl
  · rw [lpcompIrqHandler_not_due due]
    exact h.lastTx

theorem TimedIrq.Sampled.deltatimeTicks (h : s.Sampled) (r : ReadTimes) :
    (s.irq.deltatimeTicks r.reads).toNat =
      apart (sample counterPeriod r.forDelta) (sample counterPeriod s.previousAt) := by
  rw [LpcompState.deltatimeTicks, h.previous]
  exact absInt_counterSample r.forDelta s.previousAt

theorem TimedIrq.Sampled.gateOpen_iff (h : s.Sampled) (r : ReadTimes) :
    s.irq.gateOpen r.reads = true ↔
      minTxInterval ≤ apart (sample counterPeriod r.forGate) (sample counterPeriod s.lastTxAt) := by
  have hread : r.reads.forGate = counterSample r.forGate := rfl
  rw [LpcompState.gateOpen, decide_eq_true_eq, minTxIntervalTicks_le_iff, h.lastTx, hread,
    absInt_counterSample, apart_comm]

end BleSpeedSensor
