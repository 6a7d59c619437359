import BleSpeedSensor.ErrorCodes
import BleSpeedSensor.ByteMemory

namespace BleSpeedSensor

open ByteMemory

structure EventHeader (η : Type) where
  handler : η
  eventDataSize : Nat

/-- The statics of `app_scheduler.c`; `η` is the type of event handler pointers. -/
structure Sched (η : Type) where
  queueEventHeaders : Nat → EventHeader η
  queueEventData : Memory
  queueStartIndex : Nat
  queueEndIndex : Nat
  queueEventSize : Nat
  queueSize : Nat

variable {η : Type}

def nextIndex (s : Sched η) (index : Nat) : Nat :=
  if index < s.queueSize then (index + 1) % 256 else 0

def appSchedQueueFull (s : Sched η) : Bool :=
  nextIndex s s.queueEndIndex == s.queueStartIndex

def appSchedQueueEmpty (s : Sched η) : Bool :=
  s.queueEndIndex == s.queueStartIndex

def isWordAligned (p : Nat) : Bool := p % 4 == 0

/-- The headers and the data bytes lie behind each other in the one buffer at `pEventBuffer`. -/
def appSchedInit (s : Sched η) (eventSize queueSize pEventBuffer : Nat) : ErrCode × Sched η :=
  if !isWordAligned pEventBuffer then (nrfErrorInvalidParam, s)
  else (nrfSuccess,
    { s with
      queueEndIndex := 0
      queueStartIndex := 0
      queueEventSize := eventSize
      queueSize := queueSize })

def Sched.setHeader (s : Sched η) (i : Nat) (header : EventHeader η) : Sched η :=
  { s with queueEventHeaders := fun j => if j = i then header else s.queueEventHeaders j }

def Sched.copyData (s : Sched η) (dst : Nat) (bytes : List UInt8) : Sched η :=
  { s with queueEventData := copy s.queueEventData dst bytes }

def appSchedEventPut (s : Sched η) (pEventData : Option (List UInt8)) (eventDataSize : Nat)
    (handler : η) : ErrCode × Sched η :=
  if eventDataSize ≤ s.queueEventSize then
    let eventIndex := if !appSchedQueueFull s then s.queueEndIndex else 0xFFFF
    let s := if !appSchedQueueFull s then
        { s with queueEndIndex := nextIndex s s.queueEndIndex } else s
    if eventIndex ≠ 0xFFFF then
      match pEventData with
      | some bytes =>
        if eventDataSize > 0 then
          (nrfSuccess, (s.copyData (eventIndex * s.queueEventSize)
            (bytes.take eventDataSize)).setHeader eventIndex ⟨handler, eventDataSize⟩)
        else (nrfSuccess, s.setHeader eventIndex ⟨handler, 0⟩)
      | none => (nrfSuccess, s.setHeader eventIndex ⟨handler, 0⟩)
    else (nrfErrorNoMem, s)
  else (nrfErrorInvalidLength, s)

structure Fetched (η : Type) where
  pEventData : Nat
  eventDataSize : Nat
  eventHandler : η

def appSchedEventGet (s : Sched η) : Option (Fetched η) × Sched η :=
  if !appSchedQueueEmpty s then
    let eventIndex := s.queueStartIndex
    (some ⟨eventIndex * s.queueEventSize, (s.queueEventHeaders eventIndex).eventDataSize,
        (s.queueEventHeaders eventIndex).handler⟩,
      { s with queueStartIndex := nextIndex s s.queueStartIndex })
  else (none, s)

theorem appSchedEventPut_tooLong {s : Sched η} {pEventData : Option (List UInt8)}
    {eventDataSize : Nat} {handler : η} (h : s.queueEventSize < eventDataSize) :
    appSchedEventPut s pEventData eventDataSize handler = (nrfErrorInvalidLength, s) := by
  unfold appSchedEventPut
  rw [if_neg (by omega)]

theorem appSchedEventPut_full {s : Sched η} {pEventData : Option (List UInt8)}
    {eventDataSize : Nat} {handler : η} (hsize : eventDataSize ≤ s.queueEventSize)
    (h : appSchedQueueFull s = true) :
    appSchedEventPut s pEventData eventDataSize handler = (nrfErrorNoMem, s) := by
  simp [appSchedEventPut, hsize, h]

theorem appSchedEventPut_accepted {s : Sched η} {bytes : List UInt8} (handler : η)
    (hsize : bytes.length ≤ s.queueEventSize) (hpos : 0 < bytes.length)
    (hindex : s.queueEndIndex < 0xFFFF) (h : appSchedQueueFull s = false) :
    appSchedEventPut s (some bytes) bytes.length handler =
      (nrfSuccess, (({ s with queueEndIndex := nextIndex s s.queueEndIndex } : Sched η).copyData
        (s.queueEndIndex * s.queueEventSize) bytes).setHeader s.queueEndIndex
          ⟨handler, bytes.length⟩) := by
  have hi : s.queueEndIndex ≠ 0xFFFF := by omega
  simp [appSchedEventPut, hsize, h, hi, hpos]

end BleSpeedSensor
