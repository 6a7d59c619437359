import BleSpeedSensor.ErrorCodes
import BleSpeedSensor.RunSystem

namespace BleSpeedSensor

open RunSystem

/-- An event waiting in the SoftDevice: a SOC event or one of the BLE stack. -/
inductive StackEvt (β : Type)
  | soc (evtId : UInt32)
  | ble (evt : β)
  deriving DecidableEq, Repr

/-- Where in the loop of `intern_softdevice_events_execute` the interrupt handler is: before one of
the two pulls, with the flags `no_more_soc_evts` and `no_more_ble_evts`. -/
inductive PullPc
  | idle
  | soc (noMoreSocEvts noMoreBleEvts : Bool)
  | ble (noMoreSocEvts noMoreBleEvts : Bool)
  deriving DecidableEq, Repr

/-- The variables of the module; `evtLen` is the size of an event in the buffer. -/
structure SoftdeviceHandler (α β : Type) where
  softdeviceEnabled : Bool
  bleEvtBufferSize : Nat
  evtLen : β → Nat
  bleEvtHandler : Option (α → β → Except ErrCode α)
  sysEvtHandler : Option (α → UInt32 → Except ErrCode α)

/-- The module with the SoftDevice, its interrupt and the application, and the history of raised
events and of handler calls. -/
structure StackSystem (α β : Type) where
  handler : SoftdeviceHandler α β
  socEvts : List UInt32
  bleEvts : List β
  irqPending : Bool
  pc : PullPc
  app : α
  raised : List (StackEvt β)
  calls : List (StackEvt β)

variable {α β : Type}

def StackSystem.start (handler : SoftdeviceHandler α β) (app : α) : StackSystem α β :=
  ⟨handler, [], [], false, .idle, app, [], []⟩

/-- A call through `NULL` ends the run. -/
def SoftdeviceHandler.call (h : SoftdeviceHandler α β) (app : α) :
    StackEvt β → Except ErrCode α
  | .soc evtId => match h.sysEvtHandler with
    | none => appErrorHandler 0
    | some f => f app evtId
  | .ble evt => match h.bleEvtHandler with
    | none => appErrorHandler 0
    | some f => f app evt

/-- The SoftDevice signals every event with the interrupt. -/
def StackSystem.raise (s : StackSystem α β) : StackEvt β → StackSystem α β
  | .soc evtId => { s with
      socEvts := s.socEvts ++ [evtId], irqPending := true, raised := s.raised ++ [.soc evtId] }
  | .ble evt => { s with
      bleEvts := s.bleEvts ++ [evt], irqPending := true, raised := s.raised ++ [.ble evt] }

/-- `SWI2_IRQHandler` is entered, without a function to schedule with. -/
def StackSystem.swi2Irq (s : StackSystem α β) : StackSystem α β :=
  if s.irqPending ∧ s.pc = .idle then
    { s with
      irqPending := false
      pc := if s.handler.softdeviceEnabled then
          .soc s.handler.sysEvtHandler.isNone s.handler.bleEvtHandler.isNone
        else .idle }
  else s

/-- One of the two halves of the loop: a pull, the call of the handler with what it gave, and after
the second the test for the end. -/
def StackSystem.pull (s : StackSystem α β) : Except ErrCode (StackSystem α β) :=
  match s.pc with
  | .idle => .ok s
  | .soc noMoreSocEvts noMoreBleEvts =>
    if noMoreSocEvts then .ok { s with pc := .ble noMoreSocEvts noMoreBleEvts }
    else match s.socEvts with
      | [] => .ok { s with pc := .ble true noMoreBleEvts }
      | evtId :: rest => (s.handler.call s.app (.soc evtId)).map fun app =>
          { s with
            socEvts := rest
            app := app
            calls := s.calls ++ [.soc evtId]
            pc := .ble noMoreSocEvts noMoreBleEvts }
  | .ble noMoreSocEvts noMoreBleEvts =>
    if noMoreBleEvts then
      .ok { s with pc := if noMoreSocEvts then .idle else .soc noMoreSocEvts noMoreBleEvts }
    else match s.bleEvts with
      | [] => .ok { s with pc := if noMoreSocEvts then .idle else .soc noMoreSocEvts true }
      | evt :: rest =>
        if s.handler.bleEvtBufferSize < s.handler.evtLen evt then appErrorHandler nrfErrorDataSize
        else (s.handler.call s.app (.ble evt)).map fun app =>
          { s with
            bleEvts := rest
            app := app
            calls := s.calls ++ [.ble evt]
            pc := .soc noMoreSocEvts noMoreBleEvts }

inductive StackAction (β : Type)
  | raise (e : StackEvt β)
  | irq
  | pull

/-- The SoftDevice raises events at any time, also between two pulls. -/
def stackStep (s : StackSystem α β) : StackAction β → Except ErrCode (StackSystem α β)
  | .raise e => .ok (s.raise e)
  | .irq => .ok s.swi2Irq
  | .pull => s.pull

end BleSpeedSensor
