import BleSpeedSensor.RunSystem
import BleSpeedSensor.Negotiation
import BleSpeedSensor.Sss

namespace BleSpeedSensor

def BleEvt.isLinkEvt : BleEvt → Bool
  | .gapConnected _ _ | .gapDisconnected => true
  | .gapTimeout src => src = bleGapTimeoutSrcAdvertisement
  | _ => false

/-- The SoftDevice of a peripheral with one link, with the events it has raised and that have not
been dispatched. -/
structure Peripheral where
  link : Option ConnHandle
  advertising : Bool
  systemOff : Bool
  queue : List BleEvt
  deriving DecidableEq, Repr

/-- After `advertising_start` in `main`. -/
def Peripheral.boot : Peripheral := ⟨none, true, false, []⟩

def Peripheral.push (p : Peripheral) (e : BleEvt) : Peripheral := { p with queue := p.queue ++ [e] }

inductive PeripheralAct
  | connect (handle : ConnHandle) (connParams : GapConnParams)
  | linkLoss
  | advTimeout
  | raise (e : BleEvt)
  deriving Repr

def Peripheral.act (p : Peripheral) : PeripheralAct → Peripheral
  | .connect handle connParams =>
    if p.advertising then
      { p with link := some handle, advertising := false }.push (.gapConnected handle connParams)
    else p
  | .linkLoss => if p.link.isSome then { p with link := none }.push .gapDisconnected else p
  | .advTimeout =>
    if p.advertising then
      { p with advertising := false }.push (.gapTimeout bleGapTimeoutSrcAdvertisement)
    else p
  | .raise e => if e.isLinkEvt then p else p.push e

/-- What is not a matter of the link is answered with `answer`. -/
def Peripheral.svc (answer : SdCall → ErrCode) (p : Peripheral) : SdCall → ErrCode × Peripheral
  | .gapAdvStart _ =>
    if p.link = none ∧ p.advertising = false then (nrfSuccess, { p with advertising := true })
    else (nrfErrorInvalidState, p)
  | .powerSystemOff => (answer .powerSystemOff, { p with systemOff := true })
  | call => (answer call, p)

/-- How the SoftDevice and the timer module answer whatever is not a matter of the link. -/
structure DispatchAnswers where
  svc : SdCall → ErrCode
  connParamUpdate : ErrCode
  disconnect : ErrCode
  timerStart : ErrCode
  timerStop : ErrCode

/-- A disconnection asked for is over with `linkLoss`. -/
def Peripheral.port (answers : DispatchAnswers) (mConnHandle : ConnHandle) :
    ConnParamsPort Peripheral where
  connParamUpdate _ _ p := (answers.connParamUpdate, p)
  disconnect _ _ p := (answers.disconnect, p)
  timerStart _ p := (answers.timerStart, p)
  timerStop p := (answers.timerStop, p)
  evtHandler evt p := onConnParamsEvt (fun _ _ p => (answers.disconnect, p)) mConnHandle p evt

/-- The three modules with a handle of their own, and the events dispatched to them so far. -/
structure BleDevice where
  app : App
  cp : ConnParams
  sss : Sss
  peripheral : Peripheral
  dispatched : List BleEvt

def BleDevice.boot (valueHandle : UInt16) : BleDevice :=
  ⟨App.boot, ConnParams.boot, Sss.init valueHandle, Peripheral.boot, []⟩

def bleEvtDispatch (answers : DispatchAnswers) (d : BleDevice) (e : BleEvt) :
    Except ErrCode BleDevice := do
  let (app, peripheral) ← onBleEvt (Peripheral.svc answers.svc) d.app d.peripheral e
  let (cp, peripheral) ←
    bleConnParamsOnBleEvt (Peripheral.port answers app.mConnHandle) d.cp peripheral e
  pure ⟨app, cp, bleSssOnBleEvt d.sss e, peripheral, d.dispatched ++ [e]⟩

inductive BleAction
  | peripheral (a : PeripheralAct)
  | pull (answers : DispatchAnswers)
  | timeout (answers : DispatchAnswers)
  | speedEvent (speedData : UInt32) (answer : ErrCode)

/-- The main loop's handlers run between dispatches. -/
def bleStep (d : BleDevice) : BleAction → Except ErrCode BleDevice
  | .peripheral a => .ok { d with peripheral := d.peripheral.act a }
  | .pull answers => match d.peripheral.queue with
    | [] => .ok d
    | e :: rest => bleEvtDispatch answers { d with peripheral.queue := rest } e
  | .timeout answers =>
    (updateTimeoutHandler (Peripheral.port answers d.app.mConnHandle) d.cp d.peripheral).map
      fun r => { d with cp := r.1, peripheral := r.2 }
  | .speedEvent speedData answer =>
    (speedEventHandler (fun p _ _ => (answer, p)) d.sss d.peripheral speedData).map
      fun peripheral => { d with peripheral := peripheral }

def BleEvt.isConnEvt : BleEvt → Bool
  | .gapConnected _ _ | .gapDisconnected => true
  | _ => false

/-- The handle of the last connection dispatched, unless its end has been dispatched too. -/
def openHandle (dispatched : List BleEvt) : ConnHandle :=
  match (dispatched.filter BleEvt.isConnEvt).getLast? with
  | some (.gapConnected handle _) => handle
  | _ => bleConnHandleInvalid

/-- The handles `speed_event_handler` passes to `sd_ble_gatts_hvx`. -/
def notifiedHandles (sss : Sss) (speedData : UInt32) : List ConnHandle :=
  match speedEventHandler (fun handles handle _ => (nrfSuccess, handles ++ [handle])) sss []
    speedData with
  | .ok handles => handles
  | .error _ => []

structure LinkAgreed (d : BleDevice) : Prop where
  app : d.app.mConnHandle = openHandle d.dispatched
  cp : d.cp.connHandle = openHandle d.dispatched
  sss : d.sss.connHandle = openHandle d.dispatched
  /-- With nothing left to dispatch the device is connected or advertising, or on its way off. -/
  not_stranded : d.peripheral.queue = [] → d.peripheral.link.isSome = true ∨
    d.peripheral.advertising = true ∨ d.peripheral.systemOff = true
  /-- When the end of a link is dispatched, advertising can be started. -/
  restarts : ∀ rest, d.peripheral.queue = .gapDisconnected :: rest →
    d.peripheral.link = none ∧ d.peripheral.advertising = false
  /-- Only the handle that `update_timeout_handler` tests is disconnected. -/
  drops : ∀ handle reason,
    .disconnect handle reason ∈ noted (updateTimeoutHandler (notingPort d.app.mConnHandle) d.cp []) →
      handle = d.cp.connHandle
  notifies : ∀ speedData, notifiedHandles d.sss speedData = [openHandle d.dispatched]

end BleSpeedSensor
