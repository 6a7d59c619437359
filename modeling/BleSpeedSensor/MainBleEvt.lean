import BleSpeedSensor.ErrorCodes
import BleSpeedSensor.BleEvents

namespace BleSpeedSensor

/-- The statics of `main.c` that `on_ble_evt` uses, its own `m_auth_status` included. -/
structure App where
  mConnHandle : ConnHandle
  mAuthStatus : GapEvtAuthStatus
  mSecParams : GapSecParams
  deriving DecidableEq, Repr

def secParamTimeout : UInt16 := 30
def secParamIoCapabilities : UInt8 := 3
def secParamMinKeySize : UInt8 := 7
def secParamMaxKeySize : UInt8 := 16

def secParamsInit : GapSecParams where
  timeout := secParamTimeout
  bond := true
  mitm := false
  ioCaps := secParamIoCapabilities
  oob := false
  minKeySize := secParamMinKeySize
  maxKeySize := secParamMaxKeySize

/-- After the initialisation in `main`; `m_auth_status` is zero. -/
def App.boot : App := ⟨bleConnHandleInvalid, GapEvtAuthStatus.zero, secParamsInit⟩

def appAdvInterval : UInt16 := 64
def appAdvTimeoutInSeconds : UInt16 := 180

def advertisingParams : GapAdvParams where
  type := 0
  peerAddr := none
  fp := 0
  interval := appAdvInterval
  timeout := appAdvTimeoutInSeconds

/-- The state `on_ble_evt` leaves and the one SoftDevice call it makes, if any. -/
def onBleEvtCall (app : App) : BleEvt → App × Option SdCall
  | .gapConnected connHandle _ => ({ app with mConnHandle := connHandle }, none)
  | .gapDisconnected =>
    ({ app with mConnHandle := bleConnHandleInvalid }, some (.gapAdvStart advertisingParams))
  | .gapSecParamsRequest =>
    (app, some (.gapSecParamsReply app.mConnHandle bleGapSecStatusSuccess app.mSecParams))
  | .gattsSysAttrMissing => (app, some (.gattsSysAttrSet app.mConnHandle none 0))
  | .gapAuthStatus authStatus => ({ app with mAuthStatus := authStatus }, none)
  | .gapSecInfoRequest div =>
    let encInfo := app.mAuthStatus.encInfo
    if encInfo.div = div then (app, some (.gapSecInfoReply app.mConnHandle (some encInfo)))
    -- no keys found for this device
    else (app, some (.gapSecInfoReply app.mConnHandle none))
  | .gapTimeout src =>
    if src = bleGapTimeoutSrcAdvertisement then (app, some .powerSystemOff) else (app, none)
  | .gapConnParamUpdate _ | .gattsWrite _ _ | .other => (app, none)

/-- `svc` is the SoftDevice: its answer to a call and what the call leaves of its state. -/
def onBleEvt {σ : Type} (svc : σ → SdCall → ErrCode × σ) (app : App) (w : σ) (e : BleEvt) :
    Except ErrCode (App × σ) :=
  match onBleEvtCall app e with
  | (app', none) => .ok (app', w)
  | (app', some call) =>
    let r := svc w call
    (appErrorCheck r.1).map fun _ => (app', r.2)

section Dispatch

variable {σ : Type} {svc : σ → SdCall → ErrCode × σ} {app : App} {w : σ} {e : BleEvt}

theorem onBleEvt_silent (h : (onBleEvtCall app e).2 = none) :
    onBleEvt svc app w e = .ok ((onBleEvtCall app e).1, w) := by
  unfold onBleEvt
  split
  next app' hc => rw [hc]
  next app' call hc => simp [hc] at h

theorem onBleEvt_call {call : SdCall} (h : (onBleEvtCall app e).2 = some call)
    (hok : (svc w call).1 = nrfSuccess) :
    onBleEvt svc app w e = .ok ((onBleEvtCall app e).1, (svc w call).2) := by
  unfold onBleEvt
  split
  next app' hc => simp [hc] at h
  next app' call' hc =>
    rw [hc] at h
    cases h
    simp only [hc, hok, appErrorCheck_success]
    rfl

theorem onBleEvt_halts {call : SdCall} (h : (onBleEvtCall app e).2 = some call)
    (herr : (svc w call).1 ≠ nrfSuccess) : onBleEvt svc app w e = .error (svc w call).1 := by
  unfold onBleEvt
  split
  next app' hc => simp [hc] at h
  next app' call' hc =>
    rw [hc] at h
    cases h
    simp [appErrorCheck, appErrorHandler, herr, Except.map]

theorem onBleEvt_ok_iff :
    (∃ r, onBleEvt svc app w e = .ok r) ↔
      ∀ call, (onBleEvtCall app e).2 = some call → (svc w call).1 = nrfSuccess := by
  constructor
  · rintro ⟨r, hr⟩ call hc
    by_cases hok : (svc w call).1 = nrfSuccess
    · exact hok
    · rw [onBleEvt_halts hc hok] at hr
      cases hr
  · intro hall
    cases hc : (onBleEvtCall app e).2 with
    | none => exact ⟨_, onBleEvt_silent hc⟩
    | some call => exact ⟨_, onBleEvt_call hc (hall call hc)⟩

theorem onBleEvt_ok {r : App × σ} (h : onBleEvt svc app w e = .ok r) :
    r.1 = (onBleEvtCall app e).1 ∧
      r.2 = ((onBleEvtCall app e).2.map fun call => (svc w call).2).getD w := by
  cases hc : (onBleEvtCall app e).2 with
  | none =>
    rw [onBleEvt_silent hc] at h
    cases h
    exact ⟨rfl, rfl⟩
  | some call =>
    have hok := onBleEvt_ok_iff.mp ⟨_, h⟩ call hc
    rw [onBleEvt_call hc hok] at h
    cases h
    exact ⟨rfl, rfl⟩

end Dispatch

end BleSpeedSensor
