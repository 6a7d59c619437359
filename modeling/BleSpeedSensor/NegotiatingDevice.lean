import BleSpeedSensor.BleDispatch
import BleSpeedSensor.TimeoutPath

namespace BleSpeedSensor

/-- The SoftDevice, with the two procedures on a link that the application asks for. -/
structure GapLink where
  peripheral : Peripheral
  /-- A connection parameter update has been requested and not been answered. -/
  requesting : Bool
  disconnecting : Bool
  deriving DecidableEq, Repr

def GapLink.boot : GapLink := ⟨Peripheral.boot, false, false⟩

/-- A procedure that is not started again before it has come to its end. -/
def GapLink.start (g : GapLink) (connHandle : ConnHandle) (inProgress : Bool) (refusal : ErrCode)
    (started : GapLink) : ErrCode × GapLink :=
  if g.peripheral.link ≠ some connHandle then (bleErrorInvalidConnHandle, g)
  else if inProgress then (refusal, g)
  else (nrfSuccess, started)

def sdBleGapConnParamUpdate (connHandle : ConnHandle) (g : GapLink) : ErrCode × GapLink :=
  g.start connHandle g.requesting nrfErrorBusy { g with requesting := true }

def sdBleGapDisconnect (connHandle : ConnHandle) (g : GapLink) : ErrCode × GapLink :=
  g.start connHandle g.disconnecting nrfErrorInvalidState { g with disconnecting := true }

/-- What the central does. An update of the parameters is its `answer` to a request, or its own. -/
inductive GapAct
  | connect (connHandle : ConnHandle) (connParams : GapConnParams)
  | linkLoss
  | advTimeout
  | connParamUpdate (connParams : GapConnParams) (answer : Bool)
  | raise (e : BleEvt)
  deriving Repr

/-- Attribute handles are not 0. -/
def BleEvt.raisable : BleEvt → Bool
  | .gapConnParamUpdate _ => false
  | .gattsWrite handle _ => handle ≠ bleGattHandleInvalid
  | _ => true

def GapLink.act (g : GapLink) : GapAct → GapLink
  | .connect connHandle connParams =>
    { g with peripheral := g.peripheral.act (.connect connHandle connParams) }
  | .linkLoss => ⟨g.peripheral.act .linkLoss, false, false⟩
  | .advTimeout => { g with peripheral := g.peripheral.act .advTimeout }
  | .connParamUpdate connParams answer =>
    if g.peripheral.link.isSome then { g with
      peripheral := g.peripheral.act (.raise (.gapConnParamUpdate connParams))
      requesting := g.requesting && !answer }
    else g
  | .raise e => if e.raisable then { g with peripheral := g.peripheral.act (.raise e) } else g

structure NegotiatingDevice where
  host : TimeoutPath
  gap : GapLink

/-- What the SoftDevice makes of the next statement of `update_timeout_handler`. -/
def NegotiatingDevice.call (d : NegotiatingDevice) : ErrCode × GapLink :=
  match d.host.update with
  | .request => sdBleGapConnParamUpdate d.host.cp.connHandle d.gap
  | .disconnect => sdBleGapDisconnect d.host.cp.connHandle d.gap
  -- `on_conn_params_evt` disconnects the handle that main.c keeps
  | .notify => sdBleGapDisconnect d.host.app.mConnHandle d.gap
  | _ => (nrfSuccess, d.gap)

def NegotiatingDevice.mainAnswers (d : NegotiatingDevice) : Answers :=
  ⟨fun _ => nrfSuccess, d.call.1, d.call.1⟩

def NegotiatingDevice.mainStep (d : NegotiatingDevice) : Except ErrCode NegotiatingDevice :=
  (d.host.mainStep d.mainAnswers).map fun host =>
    ⟨host, if d.host.Handling then d.call.2 else d.gap⟩

/-- The SoftDevice has handed out the oldest event. -/
def Peripheral.pulled (p : Peripheral) (rest : List BleEvt) : Peripheral := { p with queue := rest }

def NegotiatingDevice.pullAnswers (d : NegotiatingDevice) (answer : SdCall → ErrCode) (e : BleEvt)
    (rest : List BleEvt) : Answers where
  svc call := ((d.gap.peripheral.pulled rest).svc answer call).1
  connParamUpdate := (sdBleGapConnParamUpdate d.host.cp.connHandle d.gap).1
  disconnect := (sdBleGapDisconnect (onBleEvtCall d.host.app e).1.mConnHandle d.gap).1

def NegotiatingDevice.pull (d : NegotiatingDevice) (answer : SdCall → ErrCode) (e : BleEvt)
    (rest : List BleEvt) : Except ErrCode NegotiatingDevice :=
  let p := d.gap.peripheral.pulled rest
  (d.host.onBleEvt e (d.pullAnswers answer e rest)).map fun host =>
    ⟨host, { d.gap with peripheral :=
      ((onBleEvtCall d.host.app e).2.map fun call => (p.svc answer call).2).getD p }⟩

inductive NegotiatingAction
  | tick (n : Nat)
  | rtc1
  | swi0 (late : Nat)
  | speedSchedule (speedSensorHandler speedData : UInt32)
  | central (a : GapAct)
  | pull (answer : SdCall → ErrCode)
  | main

/-- SWI2 dispatches the oldest event between any two statements of the main loop. -/
def negotiatingStep (d : NegotiatingDevice) : NegotiatingAction → Except ErrCode NegotiatingDevice
  | .tick n => (timeoutStep d.host (.tick n)).map fun host => { d with host := host }
  | .rtc1 => (timeoutStep d.host .rtc1).map fun host => { d with host := host }
  | .swi0 late => (timeoutStep d.host (.swi0 late)).map fun host => { d with host := host }
  | .speedSchedule speedSensorHandler speedData =>
    (timeoutStep d.host (.speedSchedule speedSensorHandler speedData)).map
      fun host => { d with host := host }
  | .central a => .ok { d with gap := d.gap.act a }
  | .pull answer => match d.gap.peripheral.queue with
    | [] => .ok d
    | e :: rest => d.pull answer e rest
  | .main => d.mainStep

def NegotiatingDevice.boot (updateTimeoutHandler : UInt32) : NegotiatingDevice :=
  ⟨TimeoutPath.boot updateTimeoutHandler, GapLink.boot⟩

/-- Neither `conn_params_error_handler` nor `on_conn_params_evt` gets to `app_error_handler`. -/
def NegotiationGoesOn (d : NegotiatingDevice) : NegotiatingAction → Prop
  | .main => d.host.Handling → ∃ r,
    updateStep (timeoutPort d.mainAnswers d.host.app.mConnHandle d.host.connection) d.host.cp
      d.host.timer d.host.update = .ok r
  | .pull answer => ∀ e rest, d.gap.peripheral.queue = e :: rest → ∀ app timer,
    onBleEvt (fun timer call => ((d.pullAnswers answer e rest).svc call, timer)) d.host.app
      d.host.timer e = .ok (app, timer) →
    ∃ r, bleConnParamsOnBleEvt (timeoutPort (d.pullAnswers answer e rest) app.mConnHandle
      (if e.isConnected then d.host.connection + 1 else d.host.connection)) d.host.cp timer e = .ok r
  | _ => True

/-- The module starts or stops its timer on the event. -/
def ConnParams.usesTimer (cp : ConnParams) : BleEvt → Bool
  | .gapConnected _ connParams | .gapConnParamUpdate connParams =>
    !isConnParamsOk cp.preferredConnParams connParams
  | .gapDisconnected => true
  | _ => false

/-- The link is still up when it is asked for a procedure, which does not overlap with one asked for
before, and the timer operations of an event find a place in their queue. -/
def CallsInTime (d : NegotiatingDevice) : NegotiatingAction → Prop
  | .main => d.host.Handling →
    (d.host.update = .request →
      d.gap.peripheral.link = some d.host.cp.connHandle ∧ d.gap.requesting = false) ∧
    (d.host.update = .notify →
      d.gap.peripheral.link = some d.host.app.mConnHandle ∧ d.gap.disconnecting = false)
  | .pull _ => ∀ e rest, d.gap.peripheral.queue = e :: rest → d.host.cp.usesTimer e = true →
    (d.host.timer.userOps .appLow).length < appTimerOpQueueSize
  | _ => True

end BleSpeedSensor
