import BleSpeedSensor.PstorageSwap

namespace BleSpeedSensor

open ByteMemory NorFlash

/-- The whole module should be cleared. -/
def WholeModule (table : Nat → PstorageModule) (c : PstorageCmd) : Prop :=
  (table c.storageAddr.moduleId).baseId = c.storageAddr.blockId ∧
      (table c.storageAddr.moduleId).blockSize * (table c.storageAddr.moduleId).blockCount = c.size ∨
    c.storageAddr.moduleId = rawModeAppId

instance (table : Nat → PstorageModule) (c : PstorageCmd) : Decidable (WholeModule table c) :=
  inferInstanceAs (Decidable (_ ∨ _))

/-- The ways in which `cmd_process` goes about a command: words written or pages erased round by
round, or a page changed through the swap page. -/
inductive Course
  | words
  | pages
  | swap
  deriving DecidableEq, Repr

def course (table : Nat → PstorageModule) (c : PstorageCmd) : Course :=
  match c.opCode with
  | .store => .words
  | .clear => if WholeModule table c then .pages else .swap
  | _ => .swap

/-- The first `n` bytes of a store are written. -/
def storeUpTo (c : PstorageCmd) (m : Memory) (n : Nat) : Memory := fun a =>
  if c.start ≤ a ∧ a < c.start + n ∧ a < c.start + c.size then m a &&& m (c.pDataAddr + (a - c.start))
  else m a

/-- The first `k` pages of a clear are erased. -/
def clearUpTo (c : PstorageCmd) (m : Memory) (k : Nat) : Memory := fun a =>
  if c.page * 1024 ≤ a ∧ a < (c.page + k) * 1024 then 0xFF else m a

def PstorageCmd.rounds (c : PstorageCmd) : Nat := (c.size + 1023) / 1024

/-- What a command is for: the words of a store cleared bit by bit, the pages of a module or the
block of a clear erased, the part of an update replaced. -/
def effect (table : Nat → PstorageModule) (c : PstorageCmd) (m : Memory) : Memory :=
  match course table c with
  | .words => storeUpTo c m c.size
  | .pages => clearUpTo c m c.rounds
  | .swap => blockEffect c m

structure StoreFits (port : FlashPort) (c : PstorageCmd) : Prop where
  blockAligned : c.storageAddr.blockId % 4 = 0
  offsetAligned : c.offset % 4 = 0
  sizeAligned : c.size % 4 = 0
  pos : 0 < c.size
  below : c.start + c.size ≤ port.swapAddr
  flash : port.pageEnd * 1024 < 4294967296
  data : port.swapAddr + pstorageFlashPageSize ≤ c.pDataAddr ∧ c.pDataAddr % 4 = 0

structure ClearFits (port : FlashPort) (c : PstorageCmd) : Prop where
  pos : 0 < c.size
  below : c.page + c.rounds ≤ port.swapPage

/-- The command keeps to the flash below the swap page, its data behind the flash. -/
def Fits (table : Nat → PstorageModule) (port : FlashPort) (c : PstorageCmd) : Prop :=
  match course table c with
  | .words => StoreFits port c
  | .pages => ClearFits port c
  | .swap => InPage port c ∧ (c.opCode = .clear ∨ c.opCode = .update)

section Rounds

variable {table : Nat → PstorageModule} {port : FlashPort} {c : PstorageCmd} {m : Memory}
variable {s : Pstorage}

/-- The addresses that a command changes in the end. -/
def Changes (table : Nat → PstorageModule) (c : PstorageCmd) (a : Nat) : Prop :=
  match course table c with
  | .pages => c.page * 1024 ≤ a ∧ a < (c.page + c.rounds) * 1024
  | _ => c.start ≤ a ∧ a < c.start + c.size

theorem effect_unchanged {a : Nat} (h : ¬ Changes table c a) : effect table c m a = m a := by
  unfold Changes at h
  unfold effect
  cases hcourse : course table c with
  | words =>
    rw [hcourse] at h
    exact if_neg (fun hin => h ⟨hin.1, hin.2.2⟩)
  | pages =>
    rw [hcourse] at h
    exact if_neg h
  | swap =>
    rw [hcourse] at h
    exact if_neg h

/-- Commands leave the swap page and RAM as they were. -/
theorem effect_above (hfit : Fits table port c) {a : Nat} (ha : port.swapAddr ≤ a) :
    effect table c m a = m a := by
  have hlow : port.swapPage * 1024 ≤ a := ha
  apply effect_unchanged
  unfold Fits at hfit
  unfold Changes
  cases hcourse : course table c with
  | words =>
    rw [hcourse] at hfit
    have hbelow : c.start + c.size ≤ port.swapPage * 1024 := hfit.below
    exact fun hin => by omega
  | pages =>
    rw [hcourse] at hfit
    have hbelow := hfit.below
    have hmul : (c.page + c.rounds) * 1024 ≤ port.swapPage * 1024 := Nat.mul_le_mul_right _ hbelow
    exact fun hin => Nat.not_lt_of_le (Nat.le_trans hmul hlow) hin.2
  | swap =>
    rw [hcourse] at hfit
    obtain ⟨-, hend, hbelow, hswap⟩ := hfit.1.parts
    exact fun hin => by omega

/-- The swap page is as it was once a command is through. -/
theorem effect_swapErased (hfit : Fits table port c) (he : SwapErased port m) :
    SwapErased port (effect table c m) :=
  fun a hon => (effect_above hfit hon.1).trans (he a hon)

end Rounds

end BleSpeedSensor
