import BleSpeedSensor.RunSystem
import BleSpeedSensor.SchedEvents

namespace BleSpeedSensor

open ByteMemory

inductive MainPc
  | test
  | readStart
  | advance (eventIndex : Nat)
  | readSize (eventIndex : Nat)
  | readHandler (eventIndex eventDataSize : Nat)
  | checkSize (eventIndex eventDataSize : Nat) (eventHandler : SchedHandler)
  | readCallee (eventIndex : Nat) (eventHandler : SchedHandler)
  | readArgument (eventIndex : Nat) (eventHandler : SchedHandler) (callee : UInt32)
  | inHandler (eventIndex : Nat) (event : AppEvent)
  deriving DecidableEq, Repr

/-- The queue and the main loop, with the history of accepted puts and of handler calls. -/
structure EventPath where
  sched : Sched SchedHandler
  pc : MainPc
  accepted : List AppEvent
  fetched : Nat
  calls : List AppEvent

def EventPath.boot : EventPath := ⟨Sched.fresh, .test, [], 0, []⟩

def EventPath.afterPut (p : EventPath) (e : AppEvent) (r : ErrCode × Sched SchedHandler) :
    EventPath :=
  { p with
    sched := r.2
    accepted := if r.1 = nrfSuccess then p.accepted ++ [e] else p.accepted }

/-- One step of `app_sched_execute`, of `app_sched_event_get` inside it, or of the handler. -/
def EventPath.mainStep (p : EventPath) : Except ErrCode EventPath :=
  match p.pc with
  | .test => .ok { p with pc := if appSchedQueueEmpty p.sched then .test else .readStart }
  | .readStart => .ok { p with pc := .advance p.sched.queueStartIndex }
  | .advance i => .ok { p with
      sched := { p.sched with queueStartIndex := nextIndex p.sched p.sched.queueStartIndex }
      fetched := p.fetched + 1
      pc := .readSize i }
  | .readSize i => .ok { p with
      pc := .readHandler i (p.sched.queueEventHeaders i).eventDataSize }
  | .readHandler i size => .ok { p with
      pc := .checkSize i size (p.sched.queueEventHeaders i).handler }
  | .checkSize i size handler => do
      appErrorCheckBool (size == handler.eventSize)
      pure { p with pc := .readCallee i handler }
  | .readCallee i handler => .ok { p with
      pc := .readArgument i handler
        (load32 p.sched.queueEventData (i * p.sched.queueEventSize)) }
  | .readArgument i handler callee =>
      let event : AppEvent := ⟨handler, callee,
        load32 p.sched.queueEventData (i * p.sched.queueEventSize + 4)⟩
      .ok { p with pc := .inHandler i event, calls := p.calls ++ [event] }
  | .inHandler _ _ => .ok { p with pc := .test }

inductive PathAction
  | speedSchedule (speedSensorHandler speedData : UInt32)
  | timerSchedule (timeoutHandler pContext : UInt32)
  | main

/-- The puts are made by interrupts: no main-loop step falls inside one. -/
def pathStep (p : EventPath) : PathAction → Except ErrCode EventPath
  | .speedSchedule speedSensorHandler speedData =>
    .ok (p.afterPut ⟨.appSpeedSensorEvtGet, speedSensorHandler, speedData⟩
      (appSpeedSensorEvtSchedule p.sched speedSensorHandler speedData))
  | .timerSchedule timeoutHandler pContext =>
    .ok (p.afterPut ⟨.appTimerEvtGet, timeoutHandler, pContext⟩
      (appTimerEvtSchedule p.sched timeoutHandler pContext))
  | .main => p.mainStep

def MainPc.slot? : MainPc → Option Nat
  | .test | .readStart | .advance _ => none
  | .readSize i | .readHandler i _ | .checkSize i _ _ | .readCallee i _ | .readArgument i _ _
  | .inHandler i _ => some i

def EventPath.waiting (p : EventPath) : List AppEvent := p.accepted.drop p.fetched

theorem mainStep_accepted {p q : EventPath} (step : p.mainStep = .ok q) :
    q.accepted = p.accepted := by
  unfold EventPath.mainStep at step
  split at step
  case h_6 i size handler hp =>
    cases hc : appErrorCheckBool (size == handler.eventSize) with
    | ok _ => rw [hc] at step; cases step; rfl
    | error _ => rw [hc] at step; cases step
  all_goals cases step; rfl

/-- Left alone, the steps from the loop test to the check of the size are `app_sched_event_get`. -/
theorem mainSteps_appSchedEventGet {p : EventPath} (hpc : p.pc = .test)
    (hne : appSchedQueueEmpty p.sched = false) :
    ∃ event sched, appSchedEventGet p.sched = (some event, sched) ∧
      RunSystem.runHalting pathStep p (List.replicate 5 .main) = .ok { p with
        sched := sched
        fetched := p.fetched + 1
        pc := .checkSize p.sched.queueStartIndex event.eventDataSize event.eventHandler } := by
  have hget : ∃ event sched, appSchedEventGet p.sched = (some event, sched) ∧
      event.eventDataSize = (p.sched.queueEventHeaders p.sched.queueStartIndex).eventDataSize ∧
      event.eventHandler = (p.sched.queueEventHeaders p.sched.queueStartIndex).handler ∧
      sched = { p.sched with queueStartIndex := nextIndex p.sched p.sched.queueStartIndex } := by
    simp only [appSchedEventGet, hne, Bool.not_false, if_true]
    exact ⟨_, _, rfl, rfl, rfl, rfl⟩
  obtain ⟨event, sched, heq, hsize, hhandler, rfl⟩ := hget
  have htest : pathStep p .main = .ok { p with pc := .readStart } := by
    simp [pathStep, EventPath.mainStep, hpc, hne]
  refine ⟨event, _, heq, ?_⟩
  rw [List.replicate_succ, RunSystem.runHalting_cons, htest, hsize, hhandler]
  rfl

theorem pathStep_put (p : EventPath) (a : PathAction) :
    a = .main ∨ ∃ e, pathStep p a = .ok (p.afterPut e (e.schedule p.sched)) := by
  cases a with
  | speedSchedule f v => exact Or.inr ⟨⟨.appSpeedSensorEvtGet, f, v⟩, rfl⟩
  | timerSchedule f c => exact Or.inr ⟨⟨.appTimerEvtGet, f, c⟩, rfl⟩
  | main => exact Or.inl rfl

end BleSpeedSensor
