import BleSpeedSensor.MainBleEvt

namespace BleSpeedSensor

structure ConnParamsConfig where
  firstConnParamsUpdateDelay : UInt32
  nextConnParamsUpdateDelay : UInt32
  maxConnParamsUpdateCount : UInt8
  startOnNotifyCccdHandle : UInt16
  disconnectOnFail : Bool
  deriving DecidableEq, Repr

inductive ConnParamsEvtType
  | failed
  | succeeded
  deriving DecidableEq, Repr

/-- The statics of `ble_conn_params.c`. -/
structure ConnParams where
  config : ConnParamsConfig
  preferredConnParams : GapConnParams
  updateCount : UInt8
  connHandle : ConnHandle
  currentConnParams : GapConnParams
  changeParam : Bool
  deriving DecidableEq, Repr

/-- What the module calls outside itself; each call gives its code and what it leaves of the world. -/
structure ConnParamsPort (σ : Type) where
  connParamUpdate : ConnHandle → GapConnParams → σ → ErrCode × σ
  disconnect : ConnHandle → UInt8 → σ → ErrCode × σ
  timerStart : UInt32 → σ → ErrCode × σ
  timerStop : σ → ErrCode × σ
  evtHandler : ConnParamsEvtType → σ → Except ErrCode σ

def bleHciConnIntervalUnacceptable : UInt8 := 0x3B

/-- `error_handler` is `conn_params_error_handler`, which goes to `app_error_handler`. -/
def errorHandled {σ : Type} (r : ErrCode × σ) : Except ErrCode σ :=
  if r.1 ≠ nrfSuccess then appErrorHandler r.1 else .ok r.2

def isConnParamsOk (preferred p : GapConnParams) : Bool :=
  preferred.minConnInterval ≤ p.maxConnInterval && p.maxConnInterval ≤ preferred.maxConnInterval

def bleSrvIsNotificationEnabled (data : List UInt8) : Bool := data.headD 0 &&& 1 ≠ 0

section Module

variable {σ : Type} (port : ConnParamsPort σ)

def negotiationCall (cp : ConnParams) (w : σ) : Except ErrCode σ :=
  if !isConnParamsOk cp.preferredConnParams cp.currentConnParams then
    if cp.changeParam then port.evtHandler .failed w
    else
      let timeoutTicks := if cp.updateCount = 0 then cp.config.firstConnParamsUpdateDelay
        else cp.config.nextConnParamsUpdateDelay
      errorHandled (port.timerStart timeoutTicks w)
  else port.evtHandler .succeeded w

def connParamsNegotiation (cp : ConnParams) (w : σ) : Except ErrCode (ConnParams × σ) :=
  (negotiationCall port cp w).map fun w => ({ cp with changeParam := false }, w)

def onConnect (cp : ConnParams) (connHandle : ConnHandle) (connParams : GapConnParams) (w : σ) :
    Except ErrCode (ConnParams × σ) :=
  let cp := { cp with connHandle := connHandle, currentConnParams := connParams, updateCount := 0 }
  if cp.config.startOnNotifyCccdHandle = 0 then connParamsNegotiation port cp w else .ok (cp, w)

def onDisconnect (cp : ConnParams) (w : σ) : Except ErrCode (ConnParams × σ) :=
  let cp := { cp with connHandle := bleConnHandleInvalid, updateCount := 0 }
  (errorHandled (port.timerStop w)).map fun w => (cp, w)

def onWrite (cp : ConnParams) (handle : UInt16) (data : List UInt8) (w : σ) :
    Except ErrCode (ConnParams × σ) :=
  if handle = cp.config.startOnNotifyCccdHandle ∧ data.length = 2 then
    if bleSrvIsNotificationEnabled data then connParamsNegotiation port cp w
    else (errorHandled (port.timerStop w)).map fun w => (cp, w)
  else .ok (cp, w)

def onConnParamsUpdate (cp : ConnParams) (connParams : GapConnParams) (w : σ) :
    Except ErrCode (ConnParams × σ) :=
  connParamsNegotiation port { cp with currentConnParams := connParams } w

def bleConnParamsOnBleEvt (cp : ConnParams) (w : σ) : BleEvt → Except ErrCode (ConnParams × σ)
  | .gapConnected connHandle connParams => onConnect port cp connHandle connParams w
  | .gapDisconnected => onDisconnect port cp w
  | .gattsWrite handle data => onWrite port cp handle data w
  | .gapConnParamUpdate connParams => onConnParamsUpdate port cp connParams w
  | _ => .ok (cp, w)

def updateOrFail (cp : ConnParams) (w : σ) : Except ErrCode (ConnParams × σ) := do
  let cp := { cp with updateCount := cp.updateCount + 1 }
  if cp.updateCount ≤ cp.config.maxConnParamsUpdateCount then
    let w ← errorHandled (port.connParamUpdate cp.connHandle cp.preferredConnParams w)
    pure (cp, w)
  else
    let cp := { cp with updateCount := 0 }
    let w ← if cp.config.disconnectOnFail then
        errorHandled (port.disconnect cp.connHandle bleHciConnIntervalUnacceptable w)
      else .ok w
    let w ← port.evtHandler .failed w
    pure (cp, w)

def updateTimeoutHandler (cp : ConnParams) (w : σ) : Except ErrCode (ConnParams × σ) :=
  if cp.connHandle ≠ bleConnHandleInvalid then updateOrFail port cp w else .ok (cp, w)

end Module

/-- The handler main.c registers: all it does is to disconnect. -/
def onConnParamsEvt {σ : Type} (disconnect : ConnHandle → UInt8 → σ → ErrCode × σ)
    (mConnHandle : ConnHandle) (w : σ) : ConnParamsEvtType → Except ErrCode σ
  | .failed =>
    let r := disconnect mConnHandle bleHciConnIntervalUnacceptable w
    (appErrorCheck r.1).map fun _ => r.2
  | .succeeded => .ok w

def appTimerTicks (ms prescaler : Nat) : UInt32 :=
  UInt32.ofNat ((ms * 32768 + (prescaler + 1) * 1000 / 2) / ((prescaler + 1) * 1000))

def firstConnParamsUpdateDelay : UInt32 := appTimerTicks 20000 0
def nextConnParamsUpdateDelay : UInt32 := appTimerTicks 5000 0
def maxConnParamsUpdateCount : UInt8 := 3
def bleGattHandleInvalid : UInt16 := 0

def msecToUnits (time resolution : Nat) : Nat := time * 1000 / resolution

/-- What `gap_params_init` gives the stack and `ble_conn_params_init` fetches from it. -/
def gapConnParams : GapConnParams where
  minConnInterval := UInt16.ofNat (msecToUnits 500 1250)
  maxConnInterval := UInt16.ofNat (msecToUnits 500 1250)
  slaveLatency := 3
  connSupTimeout := UInt16.ofNat (msecToUnits 4000 10000)

def cpInit : ConnParamsConfig where
  firstConnParamsUpdateDelay := firstConnParamsUpdateDelay
  nextConnParamsUpdateDelay := nextConnParamsUpdateDelay
  maxConnParamsUpdateCount := maxConnParamsUpdateCount
  startOnNotifyCccdHandle := bleGattHandleInvalid
  disconnectOnFail := false

/-- After `conn_params_init`; the parameters of a connection are zero until there is one. -/
def ConnParams.boot : ConnParams :=
  ⟨cpInit, gapConnParams, 0, bleConnHandleInvalid, ⟨0, 0, 0, 0⟩, false⟩

example : firstConnParamsUpdateDelay = 655360 ∧ nextConnParamsUpdateDelay = 163840 := by decide

end BleSpeedSensor
