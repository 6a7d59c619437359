import BleSpeedSensor.MainBleEvt

namespace BleSpeedSensor

inductive LateCode
  | invalidState
  | invalidConnHandle
  deriving DecidableEq, Repr

def LateCode.code : LateCode → ErrCode
  | .invalidState => nrfErrorInvalidState
  | .invalidConnHandle => bleErrorInvalidConnHandle

theorem LateCode.code_ne_success (late : LateCode) : late.code ≠ nrfSuccess := by
  cases late <;> decide

/-- The SoftDevice: its link, the requests of the link still unanswered, and the events in flight. -/
structure SoftDevice where
  link : Option ConnHandle
  advertising : Bool
  attrsSet : Bool
  pending : List Request
  queue : List BleEvt
  deriving DecidableEq, Repr

def SoftDevice.boot : SoftDevice := ⟨none, true, false, [], []⟩

def SoftDevice.reply (late : LateCode) (sd : SoftDevice) (r : Request) (connHandle : ConnHandle) :
    ErrCode × SoftDevice :=
  match sd.link with
  | none => (late.code, sd)
  | some handle =>
    if connHandle ≠ handle then (bleErrorInvalidConnHandle, sd)
    else if r ∈ sd.pending then (nrfSuccess, { sd with pending := sd.pending.erase r })
    else (nrfErrorInvalidState, sd)

def SoftDevice.svc (late : LateCode) (sd : SoftDevice) : SdCall → ErrCode × SoftDevice
  | .gapAdvStart _ =>
    if sd.link = none ∧ sd.advertising = false then (nrfSuccess, { sd with advertising := true })
    else (nrfErrorInvalidState, sd)
  | .gapSecParamsReply connHandle _ _ => sd.reply late .secParams connHandle
  | .gapSecInfoReply connHandle _ => sd.reply late .secInfo connHandle
  | .gattsSysAttrSet connHandle _ _ =>
    let r := sd.reply late .sysAttr connHandle
    (r.1, if r.1 = nrfSuccess then { r.2 with attrsSet := true } else r.2)
  | .powerSystemOff => (nrfSuccess, sd)

def SoftDevice.raise (sd : SoftDevice) (e : BleEvt) : SoftDevice := { sd with queue := sd.queue ++ [e] }

/-- A request is raised on a link that is up and has no such request unanswered. -/
def SoftDevice.request (sd : SoftDevice) (r : Request) (e : BleEvt) : SoftDevice :=
  if sd.link.isSome ∧ r ∉ sd.pending then { sd with pending := sd.pending ++ [r] }.raise e else sd

inductive PeerAction
  | connect (handle : ConnHandle) (connParams : GapConnParams)
  | pairingRequest
  | encryptionRequest (div : UInt16)
  | sysAttrAccess
  | pairingEnd (authStatus : GapEvtAuthStatus)
  | linkLoss
  deriving Repr

def SoftDevice.act (sd : SoftDevice) : PeerAction → SoftDevice
  | .connect handle connParams =>
    if sd.advertising then
      { sd with link := some handle, advertising := false, attrsSet := false, pending := [] }.raise
        (.gapConnected handle connParams)
    else sd
  | .pairingRequest => sd.request .secParams .gapSecParamsRequest
  | .encryptionRequest div => sd.request .secInfo (.gapSecInfoRequest div)
  | .sysAttrAccess => if sd.attrsSet then sd else sd.request .sysAttr .gattsSysAttrMissing
  | .pairingEnd authStatus =>
    if sd.link.isSome then sd.raise (.gapAuthStatus authStatus) else sd
  | .linkLoss =>
    if sd.link.isSome then { sd with link := none, pending := [] }.raise .gapDisconnected else sd

inductive FlightAction
  | peer (a : PeerAction)
  | pull (late : LateCode)
  deriving Repr

/-- One turn of `intern_softdevice_events_execute`: the oldest event is pulled and dispatched. -/
def pullEvent (late : LateCode) (s : App × SoftDevice) : Except ErrCode (App × SoftDevice) :=
  match s.2.queue with
  | [] => .ok s
  | e :: rest => onBleEvt (SoftDevice.svc late) s.1 { s.2 with queue := rest } e

def flightStep (s : App × SoftDevice) : FlightAction → Except ErrCode (App × SoftDevice)
  | .peer a => .ok (s.1, s.2.act a)
  | .pull late => pullEvent late s

theorem onBleEvtCall_request (app : App) {e : BleEvt} {r : Request} (h : e.request? = some r) :
    (onBleEvtCall app e).1 = app ∧ ∃ call, (onBleEvtCall app e).2 = some call ∧
      ∀ late sd, ∃ attrsSet, SoftDevice.svc late sd call =
        ((sd.reply late r app.mConnHandle).1,
          { (sd.reply late r app.mConnHandle).2 with attrsSet := attrsSet }) := by
  cases e with
  | gapSecParamsRequest =>
    cases h
    exact ⟨rfl, _, rfl, fun late sd => ⟨_, rfl⟩⟩
  | gapSecInfoRequest div =>
    cases h
    by_cases hdiv : app.mAuthStatus.encInfo.div = div
    · rw [onBleEvtCall, if_pos hdiv]
      exact ⟨rfl, _, rfl, fun late sd => ⟨_, rfl⟩⟩
    · rw [onBleEvtCall, if_neg hdiv]
      exact ⟨rfl, _, rfl, fun late sd => ⟨_, rfl⟩⟩
  | gattsSysAttrMissing =>
    cases h
    refine ⟨rfl, _, rfl, fun late sd => ?_⟩
    by_cases hok : (sd.reply late .sysAttr app.mConnHandle).1 = nrfSuccess
    · exact ⟨true, by simp only [SoftDevice.svc, if_pos hok]⟩
    · exact ⟨(sd.reply late .sysAttr app.mConnHandle).2.attrsSet, by
        simp only [SoftDevice.svc, if_neg hok]⟩
  | gapConnected _ _ | gapDisconnected | gapConnParamUpdate _ | gapAuthStatus _ | gapTimeout _
  | gattsWrite _ _ | other => cases h

end BleSpeedSensor
