import BleSpeedSensor.RunSystem
import BleSpeedSensor.SampleTimes

namespace BleSpeedSensor

open RunSystem WrapClock

/-- The arguments of `abs` in one activation, read as `int`, and, where the gate is open, the
division and the conversion are defined. -/
structure SpeedDefined (s : TimedIrq) (r : ReadTimes) : Prop where
  delta_abs : r.reads.forDelta - s.irq.previousRtc0CounterValue ≠ 0x80000000
  gate_abs : s.irq.lastTxEvtTime - r.reads.forGate ≠ 0x80000000
  speed : s.irq.gateOpen r.reads = true → s.irq.deltatimeTicks r.reads ≠ 0 ∧
    ∃ q, speedKmh (s.irq.deltatimeTicks r.reads) = some q ∧ 0 ≤ q ∧ q < 2 ^ 32

/-- The counter has moved away from a speed event by the interval between two of them. -/
def PastInterval (t lastTxAt : Nat) : Prop :=
  minTxInterval ≤ apart (sample counterPeriod t) (sample counterPeriod lastTxAt)

/-- The activation before with the state that it found; there is none before the first. -/
abbrev LastActivation := Option (TimedIrq × ReadTimes)

def LastActivation.leaves (undef : UInt32) : LastActivation → TimedIrq
  | none => TimedIrq.boot
  | some (s, r) => s.activate undef r

def LastActivation.next (undef : UInt32) (h : LastActivation) (r : ReadTimes) : LastActivation :=
  some (h.leaves undef, r)

/-- How the gate comes to be open where the counter shows for the interval what the activation before
has kept: by then the interval is over since the speed event that one sent, or that one sent none,
because its speed was the last one sent or the gate was shut, and it is over since an earlier one. -/
inductive OpenOnRepeat (undef : UInt32) : LastActivation → ReadTimes → Prop
  | first {r : ReadTimes} (repeated : sample counterPeriod r.forDelta = 0)
      (past : minTxInterval ≤ sample counterPeriod r.forGate) : OpenOnRepeat undef none r
  | sent {s : TimedIrq} {before r : ReadTimes}
      (repeated : sample counterPeriod r.forDelta = sample counterPeriod before.forPrevious)
      (wasOpen : PastInterval before.forGate s.lastTxAt)
      (changed : s.irq.oldSpeedKmh ≠ s.irq.actualSpeedKmh undef before.reads)
      (past : PastInterval r.forGate before.forLastTx) : OpenOnRepeat undef (some (s, before)) r
  | unchanged {s : TimedIrq} {before r : ReadTimes}
      (repeated : sample counterPeriod r.forDelta = sample counterPeriod before.forPrevious)
      (wasOpen : PastInterval before.forGate s.lastTxAt)
      (same : s.irq.oldSpeedKmh = s.irq.actualSpeedKmh undef before.reads)
      (past : PastInterval r.forGate s.lastTxAt) : OpenOnRepeat undef (some (s, before)) r
  | wasShut {s : TimedIrq} {before r : ReadTimes}
      (repeated : sample counterPeriod r.forDelta = sample counterPeriod before.forPrevious)
      (wasShut : ¬PastInterval before.forGate s.lastTxAt)
      (past : PastInterval r.forGate s.lastTxAt) : OpenOnRepeat undef (some (s, before)) r

/-- The speed of the activation before was the last one sent, and not for want of an open gate. -/
def HeldBack (undef : UInt32) : LastActivation → Prop
  | none => False
  | some (s, r) => PastInterval r.forGate s.lastTxAt ∧
      s.irq.oldSpeedKmh = s.irq.actualSpeedKmh undef r.reads

/-- After a speed that was held back the counter moves. -/
def MovesAfterHeldBack (undef : UInt32) (h : LastActivation) (t : Nat) : Prop :=
  HeldBack undef h → sample counterPeriod t ≠ sample counterPeriod (h.leaves undef).previousAt

theorem counterSample_sub_ne (t t₀ : Nat) : counterSample t - counterSample t₀ ≠ 0x80000000 := by
  intro heq
  have hlt := sample_lt_counterPeriod t
  have hlt₀ := sample_lt_counterPeriod t₀
  have hperiod : counterPeriod = 16777216 := rfl
  have hnat : (counterSample t - counterSample t₀).toNat = 2147483648 := congrArg UInt32.toNat heq
  rw [UInt32.toNat_sub, counterSample_toNat, counterSample_toNat] at hnat
  omega

theorem speedKmh_defined {dt : UInt32} (h : dt ≠ 0) :
    ∃ q, speedKmh dt = some q ∧ 0 ≤ q ∧ q < 2 ^ 32 := by
  have hpos : 0 < dt.toNat := Nat.pos_of_ne_zero fun hz => h (UInt32.toNat_inj.mp hz)
  have hle : 30518 ≤ 30518 * dt.toNat := Nat.le_mul_of_pos_right 30518 hpos
  refine ⟨_, speedKmh_eq h, by positivity, ?_⟩
  rw [div_lt_iff₀ (by exact_mod_cast Nat.lt_of_lt_of_le (by decide) hle)]
  have hlt : 7452000000 < 2 ^ 32 * (30518 * dt.toNat) := by omega
  exact_mod_cast hlt

variable {s : TimedIrq} {r : ReadTimes}

theorem TimedIrq.Sampled.deltatimeTicks_eq_zero_iff (h : s.Sampled) :
    s.irq.deltatimeTicks r.reads = 0 ↔
      sample counterPeriod r.forDelta = sample counterPeriod s.previousAt := by
  rw [← apart_eq_zero_iff, ← h.deltatimeTicks r]
  exact UInt32.toNat_inj.symm

theorem speedDefined_iff (h : s.Sampled) : SpeedDefined s r ↔
    ¬(PastInterval r.forGate s.lastTxAt ∧
      sample counterPeriod r.forDelta = sample counterPeriod s.previousAt) := by
  constructor
  · rintro defined ⟨past, repeated⟩
    obtain ⟨hne, -⟩ := defined.speed ((h.gateOpen_iff r).mpr past)
    exact hne (h.deltatimeTicks_eq_zero_iff.mpr repeated)
  · intro hnot
    refine ⟨?_, ?_, fun hopen => ?_⟩
    · rw [h.previous]
      exact counterSample_sub_ne r.forDelta s.previousAt
    · rw [h.lastTx]
      exact counterSample_sub_ne s.lastTxAt r.forGate
    · have hne : s.irq.deltatimeTicks r.reads ≠ 0 := fun hz =>
        hnot ⟨(h.gateOpen_iff r).mp hopen, h.deltatimeTicks_eq_zero_iff.mp hz⟩
      exact ⟨hne, speedKmh_defined hne⟩

theorem leaves_sampled {undef : UInt32} {h : LastActivation}
    (sampled : ∀ s r, h = some (s, r) → s.Sampled) : (h.leaves undef).Sampled := by
  cases h with
  | none => exact boot_sampled
  | some last => exact (sampled last.1 last.2 rfl).activate last.2

/-- When the last speed event was sent, by an activation or before it. -/
theorem TimedIrq.Sampled.lastTxAt_activate (h : s.Sampled) (undef : UInt32) (r : ReadTimes) :
    (PastInterval r.forGate s.lastTxAt ∧ s.irq.oldSpeedKmh ≠ s.irq.actualSpeedKmh undef r.reads →
      (s.activate undef r).lastTxAt = r.forLastTx) ∧
    (¬(PastInterval r.forGate s.lastTxAt ∧ s.irq.oldSpeedKmh ≠ s.irq.actualSpeedKmh undef r.reads) →
      (s.activate undef r).lastTxAt = s.lastTxAt) := by
  have hdue : s.irq.SpeedDue undef r.reads ↔
      PastInterval r.forGate s.lastTxAt ∧ s.irq.oldSpeedKmh ≠ s.irq.actualSpeedKmh undef r.reads :=
    and_congr (h.gateOpen_iff r) Iff.rfl
  rw [← hdue]
  unfold TimedIrq.activate
  constructor
  · intro due
    rw [lpcompIrqHandler_due due]
    rfl
  · intro due
    rw [lpcompIrqHandler_not_due due]
    rfl

/-- A repeated sample behind an open gate comes about in these ways and no others. -/
theorem openOnRepeat_iff {undef : UInt32} {h : LastActivation}
    (sampled : ∀ s r, h = some (s, r) → s.Sampled) :
    PastInterval r.forGate (h.leaves undef).lastTxAt ∧
        sample counterPeriod r.forDelta = sample counterPeriod (h.leaves undef).previousAt ↔
      OpenOnRepeat undef h r := by
  cases h with
  | none =>
    have hzero : ∀ n, apart n (sample counterPeriod 0) = n := fun n => by
      show n - 0 + (0 - n) = n
      omega
    have hstart : PastInterval r.forGate (LastActivation.leaves undef none).lastTxAt ↔
        minTxInterval ≤ sample counterPeriod r.forGate := by
      show minTxInterval ≤ apart _ (sample counterPeriod 0) ↔ _
      rw [hzero]
    rw [hstart]
    constructor
    · rintro ⟨past, repeated⟩
      exact .first repeated past
    · rintro (⟨repeated, past⟩)
      exact ⟨past, repeated⟩
  | some last =>
    obtain ⟨s, before⟩ := last
    obtain ⟨hsent, hnone⟩ := (sampled s before rfl).lastTxAt_activate undef before
    have hprevious : (s.activate undef before).previousAt = before.forPrevious := rfl
    show PastInterval r.forGate (s.activate undef before).lastTxAt ∧
      _ = sample counterPeriod (s.activate undef before).previousAt ↔ _
    rw [hprevious]
    constructor
    · rintro ⟨past, repeated⟩
      by_cases wasOpen : PastInterval before.forGate s.lastTxAt
      · by_cases same : s.irq.oldSpeedKmh = s.irq.actualSpeedKmh undef before.reads
        · rw [hnone fun due => due.2 same] at past
          exact .unchanged repeated wasOpen same past
        · rw [hsent ⟨wasOpen, same⟩] at past
          exact .sent repeated wasOpen same past
      · rw [hnone fun due => wasOpen due.1] at past
        exact .wasShut repeated wasOpen past
    · intro hopen
      cases hopen with
      | sent repeated wasOpen changed past =>
        rw [hsent ⟨wasOpen, changed⟩]
        exact ⟨past, repeated⟩
      | unchanged repeated _ same past =>
        rw [hnone fun due => due.2 same]
        exact ⟨past, repeated⟩
      | wasShut repeated wasShut past =>
        rw [hnone fun due => wasShut due.1]
        exact ⟨past, repeated⟩

/-- Where the activations read one value each, only a speed that was held back leaves the gate open. -/
theorem openOnRepeat_const {undef : UInt32} {s : TimedIrq} {t₀ t : Nat} :
    OpenOnRepeat undef (some (s, ReadTimes.const t₀)) (ReadTimes.const t) ↔
      HeldBack undef (some (s, ReadTimes.const t₀)) ∧
        sample counterPeriod t = sample counterPeriod t₀ := by
  have hsame : ∀ {u}, sample counterPeriod t = sample counterPeriod t₀ →
      (PastInterval t u ↔ PastInterval t₀ u) := by
    intro u repeated
    unfold PastInterval
    rw [repeated]
  constructor
  · intro hopen
    cases hopen with
    | sent repeated _ _ past =>
      have hzero : apart (sample counterPeriod t) (sample counterPeriod t₀) = 0 :=
        apart_eq_zero_iff.mpr repeated
      have hpast : minTxInterval ≤ apart (sample counterPeriod t) (sample counterPeriod t₀) := past
      rw [hzero] at hpast
      exact absurd hpast (by decide)
    | unchanged repeated wasOpen same _ => exact ⟨⟨wasOpen, same⟩, repeated⟩
    | wasShut repeated wasShut past => exact absurd ((hsame repeated).mp past) wasShut
  · rintro ⟨⟨wasOpen, same⟩, repeated⟩
    exact .unchanged repeated wasOpen same ((hsame repeated).mpr wasOpen)

theorem openOnRepeat_first {undef : UInt32} {t : Nat} :
    ¬OpenOnRepeat undef none (ReadTimes.const t) := by
  rintro ⟨repeated, past⟩
  have hpast : minTxInterval ≤ sample counterPeriod t := past
  rw [show sample counterPeriod t = 0 from repeated] at hpast
  exact absurd hpast (by decide)

/-- The computation of the speed is defined exactly as long as no activation finds the gate open and
the counter where the one before has left it. Where each of them reads one value this only happens
after a speed that was held back. -/
theorem speed_defined_iff (undef : UInt32) :
    (∀ rs, EveryStep (TimedIrq.activate undef) SpeedDefined TimedIrq.boot rs ↔
      EveryStep (LastActivation.next undef) (fun h r => ¬OpenOnRepeat undef h r) none rs) ∧
    ∀ times, EveryStep (TimedIrq.activate undef) SpeedDefined TimedIrq.boot
        (times.map ReadTimes.const) ↔
      EveryStep (fun h t => LastActivation.next undef h (ReadTimes.const t))
        (MovesAfterHeldBack undef) none times := by
  have hrun : ∀ rs, EveryStep (TimedIrq.activate undef) SpeedDefined TimedIrq.boot rs ↔
      EveryStep (LastActivation.next undef) (fun h r => ¬OpenOnRepeat undef h r) none rs := by
    intro rs
    have hmap : EveryStep (TimedIrq.activate undef) SpeedDefined
        (LastActivation.leaves undef none) rs ↔ EveryStep (LastActivation.next undef)
          (fun h r => SpeedDefined (h.leaves undef) r) none rs :=
      everyStep_comap (fun _ _ => rfl) none rs
    refine hmap.trans (@everyStep_congr _ _ _ _ _
      (fun h => ∀ s r, h = some (s, r) → s.Sampled) none ?_ ?_ ?_ rs)
    · intro s r hnone
      cases hnone
    · intro h r sampled s r' hnext
      cases hnext
      exact leaves_sampled sampled
    · intro h r sampled
      rw [speedDefined_iff (leaves_sampled sampled), openOnRepeat_iff sampled]
  refine ⟨hrun, fun times => ?_⟩
  rw [hrun, everyStep_map]
  refine @everyStep_congr _ _ _ _ _
    (fun h => ∀ s r, h = some (s, r) → ∃ t₀, r = ReadTimes.const t₀) none ?_ ?_ ?_ times
  · intro s r hnone
    cases hnone
  · intro h t _ s r hnext
    cases hnext
    exact ⟨t, rfl⟩
  · intro h t single
    cases h with
    | none => exact iff_of_true openOnRepeat_first fun held => held.elim
    | some last =>
      obtain ⟨s, r⟩ := last
      obtain ⟨t₀, rfl⟩ := single s r rfl
      rw [openOnRepeat_const, not_and]
      rfl

def NonDecreasing (rs : List ReadTimes) : Prop := (rs.flatMap ReadTimes.toList).Pairwise (· ≤ ·)

/-- Two crossings in one tick, with no speed event before them: the second divides by zero. -/
theorem same_tick_not_defined :
    ¬∀ (undef : UInt32) (rs : List ReadTimes), NonDecreasing rs →
      EveryStep (TimedIrq.activate undef) SpeedDefined TimedIrq.boot rs := by
  intro h
  have hordered : NonDecreasing [ReadTimes.const 300000, ReadTimes.const 300000] := by
    simp [NonDecreasing, ReadTimes.toList, ReadTimes.const]
  obtain ⟨-, hsecond, -⟩ := h 0 _ hordered
  have hstate : TimedIrq.boot.activate 0 (ReadTimes.const 300000) =
      ⟨⟨300000, 0, 0⟩, 300000, 0⟩ := by decide +kernel
  rw [hstate] at hsecond
  have hopen : (⟨300000, 0, 0⟩ : LpcompState).gateOpen (ReadTimes.const 300000).reads = true := by
    decide +kernel
  exact (hsecond.speed hopen).1 (by decide)

end BleSpeedSensor
