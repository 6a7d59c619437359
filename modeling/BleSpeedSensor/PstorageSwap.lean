import BleSpeedSensor.Pstorage

namespace BleSpeedSensor

open ByteMemory NorFlash

def PstorageCmd.page (c : PstorageCmd) : Nat := c.storageAddr.blockId / pstorageFlashPageSize

/-- Where the body of an update or a clear begins. -/
def PstorageCmd.start (c : PstorageCmd) : Nat := c.storageAddr.blockId + c.offset

def PstorageCmd.headWords (c : PstorageCmd) : Nat := (c.start - c.page * pstorageFlashPageSize) / 4

def PstorageCmd.tailWords (c : PstorageCmd) : Nat :=
  ((c.page + 1) * pstorageFlashPageSize - (c.start + c.size)) / 4

/-- Words of one page below the swap page, with the data behind the flash. -/
structure InPage (port : FlashPort) (c : PstorageCmd) : Prop where
  blockAligned : c.storageAddr.blockId % 4 = 0
  offsetAligned : c.offset % 4 = 0
  sizeAligned : c.size % 4 = 0
  pos : 0 < c.size
  inside : c.start + c.size ≤ (c.page + 1) * pstorageFlashPageSize
  below : c.page < port.swapPage
  flash : port.pageEnd * 1024 < 4294967296
  clearsBlock : c.opCode = .clear → c.offset = 0
  data : c.opCode = .update →
    port.swapAddr + pstorageFlashPageSize ≤ c.pDataAddr ∧ c.pDataAddr % 4 = 0

/-- The swap page is ready for use. -/
def SwapErased (port : FlashPort) (m : Memory) : Prop :=
  ∀ a, OnPage pstorageFlashPageSize port.swapPage a → m a = 0xFF

/-- The body becomes the data of an update and is erased by a clear; nothing else changes. -/
def blockEffect (c : PstorageCmd) (m : Memory) : Memory := fun a =>
  if c.start ≤ a ∧ a < c.start + c.size then
    if c.opCode = .update then m (c.pDataAddr + (a - c.start)) else 0xFF
  else m a

section Stages

variable {port : FlashPort} {c : PstorageCmd} {m : Memory}

/-- Head, body and tail make up the page. -/
theorem InPage.parts (h : InPage port c) :
    c.start = c.page * 1024 + 4 * c.headWords ∧
      c.start + c.size + 4 * c.tailWords = c.page * 1024 + 1024 ∧
      c.page * 1024 + 1024 ≤ port.swapAddr ∧ port.swapAddr = port.swapPage * 1024 := by
  have hb := h.blockAligned
  have ho := h.offsetAligned
  have hs := h.sizeAligned
  have hi := h.inside
  have hp := h.below
  simp only [FlashPort.swapAddr, PstorageCmd.headWords, PstorageCmd.tailWords, PstorageCmd.start,
    PstorageCmd.page, pstorageFlashPageSize] at hb ho hs hi hp ⊢
  refine ⟨?_, ?_, ?_, trivial⟩
  · omega
  · omega
  · omega

end Stages

/-- What the header says of a flash command when none is under way: aligned words of the flash, at
most 256 of them, and pages of the flash are accepted. -/
def FlashPort.Documented (port : FlashPort) : Prop :=
  (∀ dst src words, dst % 4 = 0 → src % 4 = 0 → 0 < words → words ≤ 256 →
    dst + 4 * words ≤ port.pageEnd * 1024 →
      port.accepts (.write dst src words) = nrfSuccess) ∧
    ∀ page, page < port.pageEnd → port.accepts (.erase page) = nrfSuccess

/-- How many commands there can still be. -/
def SwapState.rank : SwapState → Nat
  | .init => 6
  | .dataErase => 5
  | .headRestore => 4
  | .tailRestore => 3
  | .newBodyWrite => 2
  | .swapErase => 1
  | .dataToSwapWrite | .complete | .swapDirty => 0

section Sequence

variable {port : FlashPort} {c : PstorageCmd} {m : Memory} {s : Pstorage}

end Sequence

end BleSpeedSensor
