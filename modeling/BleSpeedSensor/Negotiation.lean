import BleSpeedSensor.RunSystem
import BleSpeedSensor.ConnParams

namespace BleSpeedSensor

/-- What the application runs on: the SoftDevice's calls, the timer, and how both go on by themselves. -/
structure Platform (ω ε : Type) where
  svc : ω → SdCall → ErrCode × ω
  connParamUpdate : ConnHandle → GapConnParams → ω → ErrCode × ω
  disconnect : ConnHandle → UInt8 → ω → ErrCode × ω
  timerStart : UInt32 → ω → ErrCode × ω
  timerStop : ω → ErrCode × ω
  /-- The next timeout of the timer in the scheduler queue, taken out of it. -/
  takeTimeout : ω → Option ω
  goOn : ω → ε → Except ErrCode ω

def Platform.port {ω ε : Type} (p : Platform ω ε) (mConnHandle : ConnHandle) : ConnParamsPort ω where
  connParamUpdate := p.connParamUpdate
  disconnect := p.disconnect
  timerStart := p.timerStart
  timerStop := p.timerStop
  evtHandler evt w := onConnParamsEvt p.disconnect mConnHandle w evt

inductive CpCall
  | connParamUpdate (connHandle : ConnHandle) (connParams : GapConnParams)
  | disconnect (connHandle : ConnHandle) (hciStatusCode : UInt8)
  | timerStart (timeoutTicks : UInt32)
  | timerStop
  deriving DecidableEq, Repr

/-- Every call is noted and succeeds. -/
def notingPort (mConnHandle : ConnHandle) : ConnParamsPort (List CpCall) where
  connParamUpdate connHandle connParams calls :=
    (nrfSuccess, calls ++ [.connParamUpdate connHandle connParams])
  disconnect connHandle reason calls := (nrfSuccess, calls ++ [.disconnect connHandle reason])
  timerStart timeoutTicks calls := (nrfSuccess, calls ++ [.timerStart timeoutTicks])
  timerStop calls := (nrfSuccess, calls ++ [.timerStop])
  evtHandler evt calls := onConnParamsEvt
    (fun connHandle reason calls => (nrfSuccess, calls ++ [.disconnect connHandle reason]))
    mConnHandle calls evt

def noted (r : Except ErrCode (ConnParams × List CpCall)) : List CpCall :=
  match r with
  | .ok r => r.2
  | .error _ => []

/-- The interval reported last on the connection, and the requests sent on it since its
parameters were last acceptable. -/
structure Reported where
  maxConnInterval : Option UInt16
  requests : Nat
  deriving DecidableEq, Repr

/-- The timeouts handled on the connection since it began or the last failure, and what was
reported meanwhile. -/
structure Tally where
  up : Bool
  timeouts : Nat
  acceptable : Bool
  acceptedSince : Bool
  deriving DecidableEq, Repr

structure Negotiator (ω : Type) where
  app : App
  cp : ConnParams
  world : ω
  reported : Reported
  tally : Tally

inductive NegotiationAction (ε : Type)
  | ble (e : BleEvt)
  | timeout
  | goOn (x : ε)

def Reported.onBleEvt (r : Reported) (preferred : GapConnParams) : BleEvt → Reported
  | .gapConnected _ connParams => ⟨some connParams.maxConnInterval, 0⟩
  | .gapConnParamUpdate connParams =>
    ⟨some connParams.maxConnInterval, if isConnParamsOk preferred connParams then 0 else r.requests⟩
  | _ => r

def Tally.onBleEvt (t : Tally) (preferred : GapConnParams) : BleEvt → Tally
  | .gapConnected connHandle connParams =>
    ⟨connHandle ≠ bleConnHandleInvalid, 0, isConnParamsOk preferred connParams, false⟩
  | .gapDisconnected => ⟨false, 0, t.acceptable, false⟩
  | .gapConnParamUpdate connParams =>
    let ok := isConnParamsOk preferred connParams
    { t with acceptable := ok, acceptedSince := t.acceptedSince || (ok && t.timeouts ≠ 0) }
  | _ => t

def Tally.onTimeout (t : Tally) : Tally :=
  if !t.up then t
  else if t.timeouts = 3 then { t with timeouts := 0, acceptedSince := false }
  else { t with timeouts := t.timeouts + 1, acceptedSince := t.acceptedSince && t.timeouts ≠ 0 }

theorem Tally.onTimeout_down {t : Tally} (h : t.up = false) : t.onTimeout = t := by
  simp [onTimeout, h]

theorem Tally.onTimeout_fourth {t : Tally} (h : t.up = true) (h3 : t.timeouts = 3) :
    t.onTimeout = { t with timeouts := 0, acceptedSince := false } := by
  simp [onTimeout, h, h3]

theorem Tally.onTimeout_counted {t : Tally} (h : t.up = true) (h3 : t.timeouts ≠ 3) :
    t.onTimeout = { t with
      timeouts := t.timeouts + 1
      acceptedSince := t.acceptedSince && t.timeouts ≠ 0 } := by
  simp [onTimeout, h, h3]

variable {ω ε : Type}

def Negotiator.calls (n : Negotiator ω) (p : Platform ω ε) : NegotiationAction ε → List CpCall
  | .ble e => noted (bleConnParamsOnBleEvt (notingPort (onBleEvtCall n.app e).1.mConnHandle) n.cp [] e)
  | .timeout => match p.takeTimeout n.world with
    | some _ => noted (updateTimeoutHandler (notingPort n.app.mConnHandle) n.cp [])
    | none => []
  | .goOn _ => []

def CpCall.isRequest : CpCall → Bool
  | .connParamUpdate _ _ => true
  | _ => false

def negotiationStep (p : Platform ω ε) (n : Negotiator ω) (a : NegotiationAction ε) :
    Except ErrCode (Negotiator ω) :=
  let calls := n.calls p a
  match a with
  | .ble e => do
    let (app, world) ← onBleEvt p.svc n.app n.world e
    let (cp, world) ← bleConnParamsOnBleEvt (p.port app.mConnHandle) n.cp world e
    pure ⟨app, cp, world, n.reported.onBleEvt n.cp.preferredConnParams e,
      n.tally.onBleEvt n.cp.preferredConnParams e⟩
  | .timeout => match p.takeTimeout n.world with
    | some world => do
      let (cp, world) ← updateTimeoutHandler (p.port n.app.mConnHandle) n.cp world
      pure ⟨n.app, cp, world,
        { n.reported with requests := n.reported.requests + (calls.filter CpCall.isRequest).length },
        n.tally.onTimeout⟩
    | none => .ok n
  | .goOn x => (p.goOn n.world x).map fun world => { n with world := world }

def Negotiator.boot (preferred : GapConnParams) (world : ω) : Negotiator ω :=
  ⟨App.boot, { ConnParams.boot with preferredConnParams := preferred }, world, ⟨none, 0⟩,
    ⟨false, 0, false, false⟩⟩

end BleSpeedSensor
