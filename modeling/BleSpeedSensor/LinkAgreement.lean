import BleSpeedSensor.LinkPhase
import BleSpeedSensor.PortFrame

namespace BleSpeedSensor

open RunSystem

theorem openHandle_append (es : List BleEvt) (e : BleEvt) : openHandle (es ++ [e]) =
    match e with
    | .gapConnected handle _ => handle
    | .gapDisconnected => bleConnHandleInvalid
    | _ => openHandle es := by
  unfold openHandle
  rw [List.filter_append]
  cases e <;> simp [BleEvt.isConnEvt]

theorem onBleEvtCall_handle {app : App} {dispatched : List BleEvt}
    (h : app.mConnHandle = openHandle dispatched) (e : BleEvt) :
    (onBleEvtCall app e).1.mConnHandle = openHandle (dispatched ++ [e]) := by
  rw [openHandle_append]
  cases e with
  | gapConnected connHandle connParams => rfl
  | gapDisconnected => rfl
  | gapSecInfoRequest div =>
    simp only [onBleEvtCall]
    split
    · exact h
    · exact h
  | gapTimeout src =>
    simp only [onBleEvtCall]
    split
    · exact h
    · exact h
  | gapConnParamUpdate _ | gapSecParamsRequest | gapAuthStatus _ | gattsWrite _ _
  | gattsSysAttrMissing | other => exact h

theorem ConnParams.after_handle {cp : ConnParams} {dispatched : List BleEvt}
    (h : cp.connHandle = openHandle dispatched) (e : BleEvt) :
    (cp.after e).connHandle = openHandle (dispatched ++ [e]) := by
  rw [openHandle_append]
  cases e with
  | gapConnected connHandle connParams => rfl
  | gapDisconnected => rfl
  | gapConnParamUpdate _ | gapSecParamsRequest | gapSecInfoRequest _ | gapAuthStatus _
  | gapTimeout _ | gattsWrite _ _ | gattsSysAttrMissing | other => exact h

theorem bleSssOnBleEvt_handle {sss : Sss} {dispatched : List BleEvt}
    (h : sss.connHandle = openHandle dispatched) (e : BleEvt) :
    (bleSssOnBleEvt sss e).connHandle = openHandle (dispatched ++ [e]) := by
  rw [openHandle_append]
  cases e with
  | gapConnected connHandle connParams => rfl
  | gapDisconnected => rfl
  | gapConnParamUpdate _ | gapSecParamsRequest | gapSecInfoRequest _ | gapAuthStatus _
  | gapTimeout _ | gattsWrite _ _ | gattsSysAttrMissing | other => exact h

theorem Peripheral.port_keeps (answers : DispatchAnswers) (mConnHandle : ConnHandle)
    (P : Peripheral → Prop) : (Peripheral.port answers mConnHandle).Keeps P where
  connParamUpdate _ _ _ h := h
  disconnect _ _ _ h := h
  timerStart _ _ h := h
  timerStop _ h := h
  evtHandler evt p p' h hok := by
    have hevt : onConnParamsEvt (fun _ _ p => (answers.disconnect, p)) mConnHandle p evt = .ok p' := hok
    exact onConnParamsEvt_keeps (fun _ _ _ h => h) h hevt

structure DispatchInv (d : BleDevice) : Prop where
  app : d.app.mConnHandle = openHandle d.dispatched
  cp : d.cp.connHandle = openHandle d.dispatched
  sss : d.sss.connHandle = openHandle d.dispatched
  configured : Configured d.cp
  phase : d.peripheral.Phase

theorem boot_dispatchInv (valueHandle : UInt16) : DispatchInv (BleDevice.boot valueHandle) where
  app := rfl
  cp := rfl
  sss := rfl
  configured := ⟨rfl, rfl⟩
  phase := .advertising

theorem DispatchInv.dispatch {d d' : BleDevice} (h : DispatchInv d) {answers : DispatchAnswers}
    {e : BleEvt} {rest : List BleEvt} (hqueue : d.peripheral.queue = e :: rest)
    (step : bleEvtDispatch answers { d with peripheral.queue := rest } e = .ok d') :
    DispatchInv d' := by
  obtain ⟨⟨app, peripheral⟩, happ, step⟩ := ok_of_bind step
  obtain ⟨⟨cp, peripheral'⟩, hcp, step⟩ := ok_of_bind step
  cases step
  obtain ⟨rfl, _⟩ := onBleEvt_ok happ
  have hcp' : cp = d.cp.after e := bleConnParamsOnBleEvt_cp h.configured hcp
  have hphase : peripheral.Phase := h.phase.dispatched hqueue happ
  constructor
  · exact onBleEvtCall_handle h.app e
  · rw [hcp']
    exact ConnParams.after_handle h.cp e
  · exact bleSssOnBleEvt_handle h.sss e
  · rw [hcp']
    exact h.configured.after e
  · exact (Peripheral.port_keeps answers _ Peripheral.Phase).bleEvt hphase hcp

theorem speedEventHandler_world {p p' : Peripheral} {sss : Sss} {answer : ErrCode}
    {speedData : UInt32}
    (h : speedEventHandler (fun p _ _ => (answer, p)) sss p speedData = .ok p') : p' = p := by
  unfold speedEventHandler at h
  dsimp only [bleSssOnSpeedChange] at h
  split at h
  · obtain ⟨_, _, hp⟩ := ok_of_map h
    exact hp.symm
  · exact (Except.ok.inj h).symm

theorem DispatchInv.step {d d' : BleDevice} (h : DispatchInv d) {a : BleAction}
    (step : bleStep d a = .ok d') : DispatchInv d' := by
  cases a with
  | peripheral act =>
    cases step
    exact ⟨h.app, h.cp, h.sss, h.configured, h.phase.act act⟩
  | pull answers =>
    simp only [bleStep] at step
    split at step
    next =>
      cases step
      exact h
    next e rest hqueue => exact h.dispatch hqueue step
  | timeout answers =>
    obtain ⟨r, hr, rfl⟩ := ok_of_map step
    obtain ⟨hhandle, hconfig, hchange⟩ := updateTimeoutHandler_unchanged hr
    have hphase := (Peripheral.port_keeps answers d.app.mConnHandle Peripheral.Phase).timeout h.phase hr
    exact ⟨h.app, hhandle.trans h.cp, h.sss,
      ⟨hconfig.trans h.configured.config, hchange.trans h.configured.unchanged⟩, hphase⟩
  | speedEvent speedData answer =>
    obtain ⟨p, hp, rfl⟩ := ok_of_map step
    cases speedEventHandler_world hp
    exact ⟨h.app, h.cp, h.sss, h.configured, h.phase⟩

theorem LinkPhase.not_stranded {link : Option ConnHandle} {advertising systemOff : Bool}
    (h : LinkPhase link advertising systemOff []) :
    link.isSome = true ∨ advertising = true ∨ systemOff = true := by
  cases h with
  | advertising => exact Or.inr (Or.inl rfl)
  | connected => exact Or.inl rfl
  | off => exact Or.inr (Or.inr rfl)

theorem mem_noted {x : Except ErrCode (ConnParams × List CpCall)} {call : CpCall}
    (h : call ∈ noted x) : ∃ r, x = .ok r ∧ call ∈ r.2 := by
  cases x with
  | error c => cases h
  | ok r => exact ⟨r, rfl, h⟩

theorem updateTimeoutHandler_drops {cp : ConnParams} {handle : ConnHandle} {reason : UInt8}
    (h : .disconnect handle reason ∈
      noted (updateTimeoutHandler (notingPort cp.connHandle) cp [])) : handle = cp.connHandle := by
  obtain ⟨r, hr, hmem⟩ := mem_noted h
  obtain rfl | ⟨w', hcall, rfl⟩ | ⟨w₁, w₂, hdrop, hevt, rfl⟩ := updateTimeoutHandler_cases hr
  · cases hmem
  · obtain ⟨_, rfl⟩ := errorHandled_ok hcall
    simp [notingPort] at hmem
  · have hw₂ : w₂ = w₁ ++ [.disconnect cp.connHandle bleHciConnIntervalUnacceptable] :=
      (Except.ok.inj hevt).symm
    rw [hw₂, List.mem_append] at hmem
    obtain hmem | hmem := hmem
    · obtain rfl | hdrop := hdrop
      · cases hmem
      · obtain ⟨_, rfl⟩ := errorHandled_ok hdrop
        simp only [notingPort, List.nil_append, List.mem_singleton, CpCall.disconnect.injEq] at hmem
        exact hmem.1
    · simp only [List.mem_singleton, CpCall.disconnect.injEq] at hmem
      exact hmem.1

theorem DispatchInv.agreed {d : BleDevice} (h : DispatchInv d) : LinkAgreed d where
  app := h.app
  cp := h.cp
  sss := h.sss
  not_stranded hqueue := (h.phase.waiting hqueue).not_stranded
  restarts rest hqueue := h.phase.disconnected hqueue
  drops handle reason hmem := by
    rw [h.app, ← h.cp] at hmem
    exact updateTimeoutHandler_drops hmem
  notifies speedData := by
    rw [← h.sss]
    rfl

/-- However events are raised and dispatched, the three handles agree and no device is stranded. -/
theorem modules_agree (valueHandle : UInt16) (as : List BleAction) (d : BleDevice)
    (run : runHalting bleStep (BleDevice.boot valueHandle) as = .ok d) : LinkAgreed d := by
  have every : EveryLiveStep bleStep (fun _ _ => True) (BleDevice.boot valueHandle) as :=
    everyLiveStep_of_forall fun _ _ _ => trivial
  have hinv : DispatchInv d :=
    runHalting_invariant (boot_dispatchInv valueHandle) (fun _ _ _ h _ step => h.step step) every run
  exact hinv.agreed

def DispatchAnswers.success : DispatchAnswers :=
  ⟨fun _ => nrfSuccess, nrfSuccess, nrfSuccess, nrfSuccess, nrfSuccess⟩

/-- The central leaves while the connection event still waits to be dispatched. -/
def lostBeforeDispatch : List BleAction :=
  [.peripheral (.connect 0 gapConnParams), .peripheral .linkLoss, .pull .success, .pull .success,
    .timeout .success]

theorem modules_agree_after_loss : ∃ d,
    runHalting bleStep (BleDevice.boot 12) lostBeforeDispatch = .ok d ∧
      d.dispatched = [.gapConnected 0 gapConnParams, .gapDisconnected] ∧
      d.peripheral.advertising = true ∧ LinkAgreed d :=
  ⟨_, rfl, rfl, rfl, modules_agree 12 lostBeforeDispatch _ rfl⟩

end BleSpeedSensor
