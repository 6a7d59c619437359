import Mathlib.Data.Rat.Floor
import BleSpeedSensor.WrapClock

namespace BleSpeedSensor

open WrapClock

def tyreCircumferenceM : ℚ := 2070 / 1000
def rtc0ResolutionS : ℚ := 30518 / 1000000000
def minTxIntervalS : ℚ := 5 / 10
def minTxIntervalTicks : ℚ := minTxIntervalS / rtc0ResolutionS

/-- Floating-point values are exact; `none` is the infinity a division by zero gives. -/
def speedMs (dt : UInt32) : Option ℚ :=
  if dt = 0 then none else some (tyreCircumferenceM / (dt.toNat * rtc0ResolutionS))

def speedKmh (dt : UInt32) : Option ℚ := (speedMs dt).map (· * (36 / 10))

/-- Conversion to `uint32_t`; out of range it is undefined, and `undef` is what it happens to give. -/
def toUint32 (undef : UInt32) : Option ℚ → UInt32
  | some x => if -1 < x ∧ x < 2 ^ 32 then UInt32.ofNat x.floor.toNat else undef
  | none => undef

def absInt (x : UInt32) : UInt32 := if x < 0x80000000 then x else -x

/-- What the reads of `NRF_RTC0->COUNTER` return in one activation, in program order. -/
structure CounterReads where
  forDelta : UInt32
  forPrevious : UInt32
  forGate : UInt32
  forLastTx : UInt32
  deriving DecidableEq, Repr

def CounterReads.const (c : UInt32) : CounterReads := ⟨c, c, c, c⟩

/-- The static variables of `LPCOMP_IRQHandler`. -/
structure LpcompState where
  previousRtc0CounterValue : UInt32
  oldSpeedKmh : UInt32
  lastTxEvtTime : UInt32
  deriving DecidableEq, Repr

def LpcompState.boot : LpcompState := ⟨0, 0, 0⟩

def LpcompState.deltatimeTicks (s : LpcompState) (r : CounterReads) : UInt32 :=
  absInt (r.forDelta - s.previousRtc0CounterValue)

def LpcompState.gateOpen (s : LpcompState) (r : CounterReads) : Bool :=
  minTxIntervalTicks ≤ ((absInt (s.lastTxEvtTime - r.forGate)).toNat : ℚ)

def LpcompState.actualSpeedKmh (undef : UInt32) (s : LpcompState) (r : CounterReads) : UInt32 :=
  toUint32 undef (speedKmh (s.deltatimeTicks r))

/-- The state the interrupt leaves and the speed it calls `app_speed_sensor_evt_schedule` with. -/
def lpcompIrqHandler (undef : UInt32) (s : LpcompState) (r : CounterReads) :
    LpcompState × Option UInt32 :=
  let actualSpeedKmh := s.actualSpeedKmh undef r
  let s' := { s with previousRtc0CounterValue := r.forPrevious }
  if s.gateOpen r then
    if s.oldSpeedKmh ≠ actualSpeedKmh then
      ({ s' with oldSpeedKmh := actualSpeedKmh, lastTxEvtTime := r.forLastTx },
        some actualSpeedKmh)
    else (s', none)
  else (s', none)

/-- The activation reaches `app_speed_sensor_evt_schedule`. -/
def LpcompState.SpeedDue (undef : UInt32) (s : LpcompState) (r : CounterReads) : Prop :=
  s.gateOpen r = true ∧ s.oldSpeedKmh ≠ s.actualSpeedKmh undef r

section Handler

variable {undef : UInt32} {s : LpcompState} {r : CounterReads}

theorem lpcompIrqHandler_due (h : s.SpeedDue undef r) :
    lpcompIrqHandler undef s r =
      (⟨r.forPrevious, s.actualSpeedKmh undef r, r.forLastTx⟩, some (s.actualSpeedKmh undef r)) := by
  simp [lpcompIrqHandler, h.1, h.2]

theorem lpcompIrqHandler_not_due (h : ¬s.SpeedDue undef r) :
    lpcompIrqHandler undef s r = ({ s with previousRtc0CounterValue := r.forPrevious }, none) := by
  unfold lpcompIrqHandler
  dsimp only
  split
  next hg => rw [if_neg fun hne => h ⟨hg, hne⟩]
  next => rfl

theorem lpcompIrqHandler_report {v : UInt32} :
    (lpcompIrqHandler undef s r).2 = some v ↔ s.SpeedDue undef r ∧ v = s.actualSpeedKmh undef r := by
  by_cases h : s.SpeedDue undef r
  · rw [lpcompIrqHandler_due h]
    exact ⟨fun hv => ⟨h, (Option.some.inj hv).symm⟩, fun hv => congrArg some hv.2.symm⟩
  · rw [lpcompIrqHandler_not_due h]
    exact ⟨fun hv => by simp at hv, fun hv => absurd hv.1 h⟩

theorem lpcompIrqHandler_previous :
    (lpcompIrqHandler undef s r).1.previousRtc0CounterValue = r.forPrevious := by
  by_cases h : s.SpeedDue undef r
  · rw [lpcompIrqHandler_due h]
  · rw [lpcompIrqHandler_not_due h]

end Handler

theorem absInt_sub {a b : UInt32} (ha : a.toNat < 2 ^ 31) (hb : b.toNat < 2 ^ 31) :
    (absInt (a - b)).toNat = apart a.toNat b.toNat := by
  have hs := UInt32.toNat_sub a b
  have hn : (-(a - b)).toNat = (2 ^ 32 - (a - b).toNat) % 2 ^ 32 := UInt32.toNat_neg (a - b)
  have hc : (0x80000000 : UInt32).toNat = 2 ^ 31 := rfl
  unfold absInt apart
  split
  next h =>
    rw [UInt32.lt_iff_toNat_lt] at h
    omega
  next h =>
    rw [UInt32.lt_iff_toNat_lt] at h
    omega

theorem speedKmh_eq {dt : UInt32} (h : dt ≠ 0) :
    speedKmh dt = some (((7452000000 : ℕ) : ℚ) / ((30518 * dt.toNat : ℕ) : ℚ)) := by
  have hdt : (dt.toNat : ℚ) ≠ 0 := by
    exact_mod_cast fun hz => h (UInt32.toNat_inj.mp hz)
  simp only [speedKmh, speedMs, if_neg h, tyreCircumferenceM, rtc0ResolutionS, Option.map_some]
  congr 1
  push_cast
  field_simp
  norm_num

theorem toUint32_speedKmh {undef dt : UInt32} (h : dt ≠ 0) :
    (toUint32 undef (speedKmh dt)).toNat = 7452000000 / (30518 * dt.toNat) := by
  have hpos : 0 < dt.toNat := Nat.pos_of_ne_zero fun hz => h (UInt32.toNat_inj.mp hz)
  have hle : 7452000000 / (30518 * dt.toNat) ≤ 7452000000 / 30518 :=
    Nat.div_le_div_left (by omega) (by norm_num)
  have hfloor : Rat.floor (((7452000000 : ℕ) : ℚ) / ((30518 * dt.toNat : ℕ) : ℚ)) =
      ((7452000000 / (30518 * dt.toNat) : ℕ) : ℤ) := Rat.floor_natCast_div_natCast _ _
  have hlow : (-1 : ℚ) < ((7452000000 : ℕ) : ℚ) / ((30518 * dt.toNat : ℕ) : ℚ) :=
    lt_of_lt_of_le (by norm_num : (-1 : ℚ) < 0) (by positivity)
  have hhigh : ((7452000000 : ℕ) : ℚ) / ((30518 * dt.toNat : ℕ) : ℚ) < 2 ^ 32 := by
    rw [div_lt_iff₀ (by exact_mod_cast (by omega : 0 < 30518 * dt.toNat))]
    exact_mod_cast (by omega : 7452000000 < 2 ^ 32 * (30518 * dt.toNat))
  rw [speedKmh_eq h, toUint32, if_pos ⟨hlow, hhigh⟩, hfloor, Int.toNat_natCast,
    UInt32.toNat_ofNat_of_lt']
  exact lt_of_le_of_lt hle (by decide)

end BleSpeedSensor
