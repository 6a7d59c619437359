import BleSpeedSensor.EventPathInvariant
import BleSpeedSensor.TimerInterrupts
import BleSpeedSensor.UpdateSteps

namespace BleSpeedSensor

structure Answers where
  svc : SdCall → ErrCode
  connParamUpdate : ErrCode
  disconnect : ErrCode

/-- The way of a negotiation timeout from the SWI2 interrupt to the main loop. The context of a
timer, null in the code, tells which connection it was started for; so does `startedFor` for every
event the scheduler has accepted, and `handledFor` for the one the main loop handles. -/
structure TimeoutPath where
  app : App
  cp : ConnParams
  timer : AppTimer Nat
  path : EventPath
  update : UpdatePc
  startedFor : List (Option Nat)
  handledFor : Option Nat
  now : Nat
  up : Bool
  connection : Nat
  connectedAt : Nat
  requested : Bool

inductive TimeoutAction
  | tick (n : Nat)
  | rtc1
  | swi0 (late : Nat)
  | ble (e : BleEvt) (answers : Answers)
  | speedSchedule (speedSensorHandler speedData : UInt32)
  | main (answers : Answers)

def mConnParamsTimerId : Nat := 0

/-- SWI2 runs at the low application priority, so that is the user of the timer module. -/
def timeoutPort (answers : Answers) (mConnHandle : ConnHandle) (connection : Nat) :
    ConnParamsPort (AppTimer Nat) where
  connParamUpdate _ _ timer := (answers.connParamUpdate, timer)
  disconnect _ _ timer := (answers.disconnect, timer)
  timerStart timeoutTicks timer :=
    appTimerStart timer .appLow mConnParamsTimerId timeoutTicks connection
  timerStop timer := appTimerStop timer .appLow mConnParamsTimerId
  evtHandler evt timer :=
    onConnParamsEvt (fun _ _ timer => (answers.disconnect, timer)) mConnHandle timer evt

/-- The main loop is inside `update_timeout_handler`, or about to enter or leave it: the timer that
`ble_conn_params_init` creates is the only one, so the handler of a timer event is no other. -/
def MainPc.inTimeout : MainPc → Bool
  | .inHandler _ e => e.handler == .appTimerEvtGet
  | _ => false

/-- A link has to be up to be lost, and attribute handles are not 0. -/
def TimeoutPath.possible (s : TimeoutPath) : BleEvt → Bool
  | .gapConnected connHandle _ => !s.up && connHandle ≠ bleConnHandleInvalid
  | .gapDisconnected | .gapConnParamUpdate _ => s.up
  | .gattsWrite handle _ => handle ≠ bleGattHandleInvalid
  | _ => true

def BleEvt.isConnected : BleEvt → Bool
  | .gapConnected _ _ => true
  | _ => false

def TimeoutPath.put (s : TimeoutPath) (e : AppEvent) (connection : Option Nat) :
    ErrCode × TimeoutPath :=
  let r := e.schedule s.path.sched
  (r.1, { s with
    path := s.path.afterPut e r
    startedFor := if r.1 = nrfSuccess then s.startedFor ++ [connection] else s.startedFor })

def timeoutHandlerExec (s : TimeoutPath) : List (TimerNode Nat) → Except ErrCode TimeoutPath
  | [] => .ok s
  | node :: rest => do
    let r := s.put ⟨.appTimerEvtGet, node.pTimeoutHandler, 0⟩ (some node.pContext)
    appErrorCheck r.1
    timeoutHandlerExec r.2 rest

def TimeoutPath.onBleEvt (s : TimeoutPath) (e : BleEvt) (answers : Answers) :
    Except ErrCode TimeoutPath := do
  let connection := if e.isConnected then s.connection + 1 else s.connection
  let (app, timer) ← BleSpeedSensor.onBleEvt (fun timer call => (answers.svc call, timer)) s.app s.timer e
  let (cp, timer) ← bleConnParamsOnBleEvt (timeoutPort answers app.mConnHandle connection) s.cp timer e
  pure { s with
    app := app
    cp := cp
    timer := timer
    up := if e.isConnected then true else if e = .gapDisconnected then false else s.up
    connection := connection
    connectedAt := if e.isConnected then s.now else s.connectedAt
    requested := if e.isConnected then false else s.requested }

def TimeoutPath.mainStep (s : TimeoutPath) (answers : Answers) : Except ErrCode TimeoutPath :=
  if s.path.pc.inTimeout ∧ s.update ≠ .returned then
    (updateStep (timeoutPort answers s.app.mConnHandle s.connection) s.cp s.timer s.update).map
      fun r => { s with
        cp := r.1
        timer := r.2.1
        update := r.2.2
        requested := s.requested || (s.up && s.update = .request) }
  else
    s.path.mainStep.map fun path => { s with
      path := path
      update := .checkHandle
      handledFor := (s.startedFor[path.calls.length - 1]?).join }

def timeoutStep (s : TimeoutPath) : TimeoutAction → Except ErrCode TimeoutPath
  | .tick n => .ok { s with timer := s.timer.tick n, now := s.now + n }
  | .rtc1 =>
    let r := rtc1IrqHandler s.timer
    timeoutHandlerExec { s with timer := r.2 } r.1
  | .swi0 late => .ok { s with timer := swi0IrqHandler s.timer late, now := s.now + late }
  | .ble e answers => if s.possible e then s.onBleEvt e answers else .ok s
  | .speedSchedule speedSensorHandler speedData =>
    .ok (s.put ⟨.appSpeedSensorEvtGet, speedSensorHandler, speedData⟩ none).2
  | .main answers => s.mainStep answers

/-- `update_timeout_handler` has been called and has not returned. -/
def TimeoutPath.Handling (s : TimeoutPath) : Prop :=
  s.path.pc.inTimeout = true ∧ s.update ≠ .returned

instance (s : TimeoutPath) : Decidable s.Handling := inferInstanceAs (Decidable (_ ∧ _))

def appTimerMaxTimers : Nat := 2
def appTimerOpQueueSize : Nat := 4

def TimerNode.zero : TimerNode Nat := ⟨false, .singleShot, 0, 0, 0, 0, false, 0, 0⟩

/-- After `timers_init` and `ble_conn_params_init`, which creates the one timer. -/
def AppTimer.boot (updateTimeoutHandler : UInt32) : AppTimer Nat :=
  (appTimerCreate (appTimerInit TimerNode.zero appTimerMaxTimers (appTimerOpQueueSize + 1))
    .singleShot updateTimeoutHandler).2.2

def TimeoutPath.boot (updateTimeoutHandler : UInt32) : TimeoutPath where
  app := App.boot
  cp := ConnParams.boot
  timer := AppTimer.boot updateTimeoutHandler
  path := EventPath.boot
  update := .checkHandle
  startedFor := []
  handledFor := none
  now := 0
  up := false
  connection := 0
  connectedAt := 0
  requested := false

/-- A request or a failure in the next statement is that of a timer of the connection, and the
first request does not come early. -/
structure ActsOnOwn (s : TimeoutPath) : Prop where
  request : s.update = .request → s.handledFor = some s.connection ∧
    (s.requested = false → s.connectedAt + firstConnParamsUpdateDelay.toNat ≤ s.now)
  failed : s.update = .notify → s.handledFor = some s.connection

/-- No negotiation timeout acts on a connection that its timer was not started for. -/
def TimeoutsActOnOwn (s : TimeoutPath) (a : TimeoutAction) : Prop :=
  ∀ answers, a = .main answers → s.Handling → s.up = true → ActsOnOwn s

/-- The timeouts accepted and not yet handled to their end are for connections that meet `Q`. -/
structure Outstanding (Q : Option Nat → Prop) (s : TimeoutPath) : Prop where
  waiting : ∀ (k : Nat) (e : AppEvent), s.path.calls.length ≤ k → s.path.accepted[k]? = some e →
    e.handler = .appTimerEvtGet → Q (s.startedFor[k]?).join
  handled : s.Handling → Q s.handledFor

/-- Nothing is left of a negotiation timer: it does not run, no start of it is pending, and no
timeout waits to be handled or is being handled. -/
structure NothingLeft (s : TimeoutPath) : Prop where
  stopped : (s.timer.nodes mConnParamsTimerId).isRunning = false
  no_start : ∀ params, .start mConnParamsTimerId params ∉ s.timer.userOps .appLow
  no_timeout : Outstanding (fun _ => False) s

def QuietWhenConnected (s : TimeoutPath) (a : TimeoutAction) : Prop :=
  ∀ connHandle connParams answers, a = .ble (.gapConnected connHandle connParams) answers →
    s.up = false → NothingLeft s

end BleSpeedSensor
