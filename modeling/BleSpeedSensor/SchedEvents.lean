import BleSpeedSensor.AppScheduler
import BleSpeedSensor.RingIndex

namespace BleSpeedSensor

open ByteMemory

/-- The two scheduler event handlers of the application, one for each kind of event. -/
inductive SchedHandler
  | appSpeedSensorEvtGet
  | appTimerEvtGet
  deriving DecidableEq, Repr

def sizeofAppSpeedSensorEvent : Nat := 8
def sizeofAppTimerEvent : Nat := 8

def SchedHandler.eventSize : SchedHandler → Nat
  | .appSpeedSensorEvtGet => sizeofAppSpeedSensorEvent
  | .appTimerEvtGet => sizeofAppTimerEvent

/-- Either kind of event is a function pointer followed by the word it is to be called with. -/
structure AppEvent where
  handler : SchedHandler
  callee : UInt32
  argument : UInt32
  deriving DecidableEq, Repr

def AppEvent.bytes (e : AppEvent) : List UInt8 := le32 e.callee ++ le32 e.argument

@[simp] theorem AppEvent.bytes_length (e : AppEvent) : e.bytes.length = 8 := rfl

def AppEvent.schedule (e : AppEvent) (s : Sched SchedHandler) : ErrCode × Sched SchedHandler :=
  appSchedEventPut s (some e.bytes) e.handler.eventSize e.handler

def appSpeedSensorEvtSchedule (s : Sched SchedHandler) (speedSensorHandler speedData : UInt32) :
    ErrCode × Sched SchedHandler :=
  AppEvent.schedule ⟨.appSpeedSensorEvtGet, speedSensorHandler, speedData⟩ s

def appTimerEvtSchedule (s : Sched SchedHandler) (timeoutHandler pContext : UInt32) :
    ErrCode × Sched SchedHandler :=
  AppEvent.schedule ⟨.appTimerEvtGet, timeoutHandler, pContext⟩ s

def schedMaxEventDataSize : Nat := sizeofAppTimerEvent
def schedQueueSize : Nat := 10

/-- The zero-initialised statics, the null handler pointer standing for any value. -/
def Sched.boot : Sched SchedHandler :=
  ⟨fun _ => ⟨.appSpeedSensorEvtGet, 0⟩, fun _ => 0, 0, 0, 0, 0⟩

/-- `APP_SCHED_INIT` on the static word buffer, `bufWord` words into the memory. -/
def schedulerInit (bufWord : Nat) : Except ErrCode (Sched SchedHandler) :=
  let r := appSchedInit Sched.boot schedMaxEventDataSize schedQueueSize (4 * bufWord)
  (appErrorCheck r.1).map fun _ => r.2

def Sched.fresh : Sched SchedHandler :=
  { Sched.boot with queueEventSize := schedMaxEventDataSize, queueSize := schedQueueSize }

theorem schedulerInit_ok (bufWord : Nat) : schedulerInit bufWord = .ok Sched.fresh := by
  simp [schedulerInit, appSchedInit, isWordAligned, Sched.fresh, Sched.boot, Except.map]

structure SlotHolds (s : Sched SchedHandler) (i : Nat) (e : AppEvent) : Prop where
  header : s.queueEventHeaders i = ⟨e.handler, e.handler.eventSize⟩
  callee : load32 s.queueEventData (i * 8) = e.callee
  argument : load32 s.queueEventData (i * 8 + 4) = e.argument

/-- The queue as `APP_SCHED_INIT(8, 10)` configures it, holding the events `xs`. -/
structure QueueHolds (s : Sched SchedHandler) (xs : List AppEvent) : Prop where
  eventSize : s.queueEventSize = 8
  queueSize : s.queueSize = 10
  ring : RingIndex.Segment (SlotHolds s) 11 s.queueStartIndex s.queueEndIndex xs

theorem fresh_holds : QueueHolds Sched.fresh [] :=
  ⟨rfl, rfl, RingIndex.Segment.nil (by decide)⟩

@[simp] theorem SchedHandler.eventSize_eq (h : SchedHandler) : h.eventSize = 8 := by
  cases h <;> rfl

theorem nextIndex_eq_next {s : Sched SchedHandler} {i : Nat} (hq : s.queueSize = 10) :
    nextIndex s i = RingIndex.next 11 i := by
  unfold nextIndex RingIndex.next
  rw [hq]
  split <;> split <;> omega

theorem QueueHolds.full_iff {s : Sched SchedHandler} {xs : List AppEvent} (h : QueueHolds s xs) :
    appSchedQueueFull s = true ↔ xs.length = 10 := by
  rw [appSchedQueueFull, nextIndex_eq_next h.queueSize, beq_iff_eq, h.ring.full_iff]
  omega

theorem QueueHolds.empty_iff {s : Sched SchedHandler} {xs : List AppEvent} (h : QueueHolds s xs) :
    appSchedQueueEmpty s = true ↔ xs = [] := by
  rw [appSchedQueueEmpty, beq_iff_eq, h.ring.empty_iff]

theorem schedule_full {s : Sched SchedHandler} {xs : List AppEvent} (h : QueueHolds s xs)
    (full : xs.length = 10) (e : AppEvent) : e.schedule s = (nrfErrorNoMem, s) :=
  appSchedEventPut_full (by simp [h.eventSize]) (h.full_iff.mpr full)

def Sched.withEvent (s : Sched SchedHandler) (e : AppEvent) : Sched SchedHandler :=
  (({ s with queueEndIndex := nextIndex s s.queueEndIndex } : Sched SchedHandler).copyData
    (s.queueEndIndex * 8) e.bytes).setHeader s.queueEndIndex ⟨e.handler, 8⟩

theorem schedule_accepted {s : Sched SchedHandler} {xs : List AppEvent} (h : QueueHolds s xs)
    (space : xs.length < 10) (e : AppEvent) : e.schedule s = (nrfSuccess, s.withEvent e) := by
  have hfull : appSchedQueueFull s = false := by
    rw [← Bool.not_eq_true, h.full_iff]
    omega
  have hsize : e.bytes.length ≤ s.queueEventSize := by simp [h.eventSize]
  have hindex : s.queueEndIndex < 0xFFFF := by have := h.ring.stop_lt; omega
  have hput := appSchedEventPut_accepted e.handler hsize (by simp) hindex hfull
  rw [e.bytes_length, h.eventSize] at hput
  rw [AppEvent.schedule, e.handler.eventSize_eq]
  simpa only [Sched.withEvent, ← h.eventSize] using hput

theorem withEvent_slot_other {s : Sched SchedHandler} {e x : AppEvent} {i : Nat}
    (hi : i ≠ s.queueEndIndex) (h : SlotHolds s i x) : SlotHolds (s.withEvent e) i x := by
  have hb := e.bytes_length
  refine ⟨?_, ?_, ?_⟩
  · simpa [Sched.withEvent, Sched.setHeader, Sched.copyData, hi] using h.header
  · exact (load32_copy_outside (by omega)).trans h.callee
  · exact (load32_copy_outside (by omega)).trans h.argument

theorem withEvent_slot_end (s : Sched SchedHandler) (e : AppEvent) :
    SlotHolds (s.withEvent e) s.queueEndIndex e := by
  refine ⟨?_, ?_, ?_⟩
  · simp [Sched.withEvent, Sched.setHeader]
  · refine load32_copy 0 fun k hk => ?_
    rw [Nat.zero_add, AppEvent.bytes, List.getElem?_append_left (by exact hk)]
    exact List.getElem?_eq_getElem hk
  · refine load32_copy 4 fun k hk => ?_
    rw [AppEvent.bytes, List.getElem?_append_right (by simp), le32_length, Nat.add_sub_cancel_left]
    exact List.getElem?_eq_getElem hk

theorem QueueHolds.withEvent {s : Sched SchedHandler} {xs : List AppEvent} (h : QueueHolds s xs)
    (space : xs.length < 10) (e : AppEvent) : QueueHolds (s.withEvent e) (xs ++ [e]) := by
  refine ⟨h.eventSize, h.queueSize, ?_⟩
  have hr : RingIndex.Segment (SlotHolds (s.withEvent e)) 11 s.queueStartIndex
      (RingIndex.next 11 s.queueEndIndex) (xs ++ [e]) :=
    h.ring.push (by omega) (fun i y hi hy => withEvent_slot_other hi hy) (withEvent_slot_end s e)
  rwa [← nextIndex_eq_next h.queueSize] at hr

end BleSpeedSensor
