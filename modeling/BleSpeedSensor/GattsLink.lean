import BleSpeedSensor.MainBleEvt
import BleSpeedSensor.Sss

namespace BleSpeedSensor

inductive SysAttrs
  | missing
  | set (notify : Bool)
  deriving DecidableEq, Repr

inductive Link
  | disconnected
  | connected (handle : ConnHandle) (attrs : SysAttrs) (txFree : Nat)
  deriving DecidableEq, Repr

def Link.handle : Link → ConnHandle
  | .disconnected => bleConnHandleInvalid
  | .connected handle _ _ => handle

def Link.up : Link → Bool
  | .disconnected => false
  | .connected _ _ _ => true

/-- The SoftDevice as the speed characteristic sees it. -/
structure Gatts where
  link : Link
  speedValue : List UInt8
  deriving DecidableEq, Repr

def Gatts.boot : Gatts := ⟨.disconnected, [0]⟩

/-- The answers the header documents. All but that for a wrong handle update the value. -/
def sdBleGattsHvx (g : Gatts) (connHandle : ConnHandle) (params : HvxParams) : ErrCode × Gatts :=
  match g.link with
  | .disconnected => (bleErrorInvalidConnHandle, g)
  | .connected handle attrs txFree =>
    if connHandle ≠ handle then (bleErrorInvalidConnHandle, g)
    else
      let g' := { g with speedValue := params.data }
      match attrs with
      | .missing => (bleErrorGattsSysAttrMissing, g')
      | .set false => (nrfErrorInvalidState, g')
      | .set true =>
        if txFree = 0 then (bleErrorNoTxBuffers, g')
        else (nrfSuccess, { g' with link := .connected handle attrs (txFree - 1) })

def Gatts.svc (g : Gatts) : SdCall → ErrCode × Gatts
  | .gapAdvStart _ => if g.link.up then (nrfErrorInvalidState, g) else (nrfSuccess, g)
  | .gattsSysAttrSet connHandle _ _ =>
    match g.link with
    | .disconnected => (bleErrorInvalidConnHandle, g)
    | .connected handle _ txFree =>
      if connHandle ≠ handle then (bleErrorInvalidConnHandle, g)
      else (nrfSuccess, { g with link := .connected handle (.set false) txFree })
  | .gapSecParamsReply _ _ _ | .gapSecInfoReply _ _ | .powerSystemOff => (nrfSuccess, g)

inductive LinkAction
  | connected (handle : ConnHandle) (connParams : GapConnParams) (txFree : Nat)
  | disconnected
  | sysAttrMissing
  | cccdWrite (handle : UInt16) (notify : Bool)
  | txComplete (count : Nat)
  deriving Repr

/-- The link after the action, and the event it raises; `none` where the link does not allow it. -/
def Link.act : Link → LinkAction → Option (Link × BleEvt)
  | .disconnected, .connected handle connParams txFree =>
    some (.connected handle .missing txFree, .gapConnected handle connParams)
  | .connected _ _ _, .disconnected => some (.disconnected, .gapDisconnected)
  | .connected handle .missing txFree, .sysAttrMissing =>
    some (.connected handle .missing txFree, .gattsSysAttrMissing)
  | .connected handle (.set _) txFree, .cccdWrite cccdHandle notify =>
    some (.connected handle (.set notify) txFree,
      .gattsWrite cccdHandle [if notify then 1 else 0, 0])
  | .connected handle attrs txFree, .txComplete count =>
    some (.connected handle attrs (txFree + count), .other)
  | _, _ => none

/-- The application's modules that take part in a speed report, and the SoftDevice. -/
structure SpeedLink where
  app : App
  sss : Sss
  gatts : Gatts
  deriving DecidableEq, Repr

def SpeedLink.boot (valueHandle : UInt16) : SpeedLink :=
  ⟨App.boot, Sss.init valueHandle, Gatts.boot⟩

def SpeedLink.raise (l : SpeedLink) (a : LinkAction) : Except ErrCode SpeedLink :=
  match l.gatts.link.act a with
  | none => .ok l
  | some (link, e) =>
    (onBleEvt Gatts.svc l.app { l.gatts with link := link } e).map fun r =>
      ⟨r.1, bleSssOnBleEvt l.sss e, r.2⟩

def SpeedLink.speedEvent (l : SpeedLink) (speedData : UInt32) : Except ErrCode SpeedLink :=
  (speedEventHandler sdBleGattsHvx l.sss l.gatts speedData).map fun gatts => { l with gatts := gatts }

/-- The handles kept by the application are the one of the link. -/
structure SpeedLink.Agree (l : SpeedLink) : Prop where
  app : l.app.mConnHandle = l.gatts.link.handle
  sss : l.sss.connHandle = l.gatts.link.handle

theorem boot_agree (valueHandle : UInt16) : (SpeedLink.boot valueHandle).Agree := ⟨rfl, rfl⟩

theorem SpeedLink.Agree.raise {l : SpeedLink} (h : l.Agree) (a : LinkAction) :
    ∃ m, l.raise a = .ok m ∧ m.Agree ∧ m.gatts.speedValue = l.gatts.speedValue := by
  obtain ⟨happ, hsss⟩ := h
  unfold SpeedLink.raise
  cases hlink : l.gatts.link with
  | disconnected =>
    cases a with
    | connected handle connParams txFree => exact ⟨_, rfl, ⟨rfl, rfl⟩, rfl⟩
    | disconnected | sysAttrMissing | cccdWrite _ _ | txComplete _ =>
      exact ⟨l, rfl, ⟨happ, hsss⟩, rfl⟩
  | connected handle attrs txFree =>
    rw [hlink] at happ hsss
    have keep : l.Agree := ⟨by rw [hlink]; exact happ, by rw [hlink]; exact hsss⟩
    cases a with
    | connected _ _ _ => exact ⟨l, rfl, keep, rfl⟩
    | disconnected => exact ⟨_, rfl, ⟨rfl, rfl⟩, rfl⟩
    | txComplete count => exact ⟨_, rfl, ⟨happ, hsss⟩, rfl⟩
    | sysAttrMissing =>
      cases attrs with
      | set _ => exact ⟨l, rfl, keep, rfl⟩
      | missing =>
        have hh : l.app.mConnHandle = handle := happ
        refine ⟨⟨l.app, l.sss, { l.gatts with link := .connected handle (.set false) txFree }⟩,
          ?_, ⟨happ, hsss⟩, rfl⟩
        simp only [Link.act]
        rw [onBleEvt_call rfl] <;> simp [Gatts.svc, onBleEvtCall, hh, bleSssOnBleEvt, Except.map]
    | cccdWrite _ _ =>
      cases attrs with
      | missing => exact ⟨l, rfl, keep, rfl⟩
      | set _ => exact ⟨_, rfl, ⟨happ, hsss⟩, rfl⟩

def Link.HvxFatal : Link → Prop
  | .connected _ .missing _ => True
  | .connected _ (.set true) txFree => txFree = 0
  | _ => False

theorem hvx_connected {g : Gatts} {handle : ConnHandle} {attrs : SysAttrs} {txFree : Nat}
    (hlink : g.link = .connected handle attrs txFree) (params : HvxParams) :
    (sdBleGattsHvx g handle params).2.speedValue = params.data ∧
      (sdBleGattsHvx g handle params).2.link.handle = handle ∧
      (sdBleGattsHvx g handle params).2.link.up = true ∧
      ((sdBleGattsHvx g handle params).1 ∈
        [nrfSuccess, bleErrorInvalidConnHandle, nrfErrorInvalidState] ↔ ¬g.link.HvxFatal) := by
  simp only [sdBleGattsHvx, hlink, ne_eq, not_true_eq_false, ↓reduceIte]
  cases attrs with
  | missing => exact ⟨rfl, rfl, rfl, by simp [Link.HvxFatal]; decide⟩
  | set notify =>
    cases notify with
    | false => exact ⟨rfl, rfl, rfl, by simp [Link.HvxFatal]⟩
    | true =>
      by_cases htx : txFree = 0
      · rw [if_pos htx]
        exact ⟨rfl, rfl, rfl, by simp [Link.HvxFatal, htx]; decide⟩
      · rw [if_neg htx]
        exact ⟨rfl, rfl, rfl, by simp [Link.HvxFatal, htx]⟩

theorem SpeedLink.Agree.speedEvent_fatal {l : SpeedLink} (h : l.Agree)
    (fatal : l.gatts.link.HvxFatal) (speedData : UInt32) :
    ∃ c, l.speedEvent speedData = .error c := by
  have hsss := h.sss
  cases hlink : l.gatts.link with
  | disconnected => simp [hlink, Link.HvxFatal] at fatal
  | connected handle attrs txFree =>
    rw [hlink] at hsss
    obtain ⟨_, _, _, hcode⟩ := hvx_connected hlink ⟨l.sss.valueHandle, bleGattHvxNotification,
      [speedData.toUInt8]⟩
    refine ⟨(bleSssOnSpeedChange sdBleGattsHvx l.sss l.gatts speedData.toUInt8).1, ?_⟩
    rw [SpeedLink.speedEvent, speedEventHandler_halts]
    · rfl
    · rw [bleSssOnSpeedChange, hsss]
      exact fun tolerated => hcode.mp tolerated fatal

theorem SpeedLink.Agree.speedEvent_ok {l : SpeedLink} (h : l.Agree)
    (hfatal : ¬l.gatts.link.HvxFatal) (speedData : UInt32) :
    ∃ m, l.speedEvent speedData = .ok m ∧ m.Agree ∧ m.gatts.link.up = l.gatts.link.up ∧
      m.gatts.speedValue =
        if l.gatts.link.up then [speedData.toUInt8] else l.gatts.speedValue := by
  have happ := h.app
  have hsss := h.sss
  cases hlink : l.gatts.link with
  | disconnected =>
    have hhvx : bleSssOnSpeedChange sdBleGattsHvx l.sss l.gatts speedData.toUInt8 =
        (bleErrorInvalidConnHandle, l.gatts) := by
      simp only [bleSssOnSpeedChange, sdBleGattsHvx, hlink]
    refine ⟨l, ?_, h, by rw [hlink], by simp [Link.up]⟩
    rw [SpeedLink.speedEvent, speedEventHandler_ok] <;> simp [hhvx, Except.map]
  | connected handle attrs txFree =>
    rw [hlink] at happ hsss
    obtain ⟨hvalue, hhandle, hup, hcode⟩ := hvx_connected hlink ⟨l.sss.valueHandle,
      bleGattHvxNotification, [speedData.toUInt8]⟩
    refine ⟨⟨l.app, l.sss, (bleSssOnSpeedChange sdBleGattsHvx l.sss l.gatts
      speedData.toUInt8).2⟩, ?_, ?_, ?_, ?_⟩
    · rw [SpeedLink.speedEvent, speedEventHandler_ok]
      · rfl
      · rw [bleSssOnSpeedChange, hsss]
        exact hcode.mpr hfatal
    · rw [bleSssOnSpeedChange, hsss]
      exact ⟨happ.trans hhandle.symm, hsss.trans hhandle.symm⟩
    · rw [bleSssOnSpeedChange, hsss]
      exact hup
    · rw [bleSssOnSpeedChange, hsss]
      exact hvalue

end BleSpeedSensor
