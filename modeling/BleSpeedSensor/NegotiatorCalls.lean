import BleSpeedSensor.CreatedTimer
import BleSpeedSensor.NegotiatingDevice
import BleSpeedSensor.PortFrame

namespace BleSpeedSensor

theorem GapLink.start_ok_iff {g started : GapLink} {connHandle : ConnHandle} {inProgress : Bool}
    {refusal : ErrCode} (hrefusal : refusal ≠ nrfSuccess) :
    (g.start connHandle inProgress refusal started).1 = nrfSuccess ↔
      g.peripheral.link = some connHandle ∧ inProgress = false := by
  have hhandle : bleErrorInvalidConnHandle ≠ nrfSuccess := by decide
  unfold start
  split
  next hlink => exact iff_of_false hhandle fun h => hlink h.1
  next hlink =>
    have hlink : g.peripheral.link = some connHandle := by simpa using hlink
    split
    next hbusy => exact iff_of_false hrefusal fun h => by simp [hbusy] at h
    next hfree => exact iff_of_true rfl ⟨hlink, by simpa using hfree⟩

theorem GapLink.start_peripheral {g started : GapLink} (connHandle : ConnHandle) (inProgress : Bool)
    (refusal : ErrCode) (h : started.peripheral = g.peripheral) :
    (g.start connHandle inProgress refusal started).2.peripheral = g.peripheral := by
  unfold start
  split
  · rfl
  · split
    · rfl
    · exact h

theorem sdBleGapConnParamUpdate_ok_iff {connHandle : ConnHandle} {g : GapLink} :
    (sdBleGapConnParamUpdate connHandle g).1 = nrfSuccess ↔
      g.peripheral.link = some connHandle ∧ g.requesting = false :=
  GapLink.start_ok_iff (by decide)

theorem sdBleGapDisconnect_ok_iff {connHandle : ConnHandle} {g : GapLink} :
    (sdBleGapDisconnect connHandle g).1 = nrfSuccess ↔
      g.peripheral.link = some connHandle ∧ g.disconnecting = false :=
  GapLink.start_ok_iff (by decide)

theorem NegotiatingDevice.call_peripheral (d : NegotiatingDevice) :
    d.call.2.peripheral = d.gap.peripheral := by
  unfold call
  split
  · exact GapLink.start_peripheral _ _ _ rfl
  · exact GapLink.start_peripheral _ _ _ rfl
  · exact GapLink.start_peripheral _ _ _ rfl
  · rfl

section Statements

variable {answers : Answers} {mConnHandle : ConnHandle} {connection : Nat} {cp : ConnParams}
  {timer : AppTimer Nat}

theorem updateStep_request_ok_iff :
    (∃ r, updateStep (timeoutPort answers mConnHandle connection) cp timer .request = .ok r) ↔
      answers.connParamUpdate = nrfSuccess := by
  unfold updateStep
  rw [map_ok_iff, errorHandled_ok_iff]
  rfl

theorem updateStep_notify_ok_iff :
    (∃ r, updateStep (timeoutPort answers mConnHandle connection) cp timer .notify = .ok r) ↔
      answers.disconnect = nrfSuccess := by
  have hevt : (timeoutPort answers mConnHandle connection).evtHandler .failed timer =
      (appErrorCheck answers.disconnect).map fun _ => timer := rfl
  unfold updateStep
  rw [map_ok_iff, hevt, map_ok_iff, appErrorCheck_ok_iff]

theorem updateStep_other_ok {port : ConnParamsPort (AppTimer Nat)} {pc : UpdatePc}
    (hrequest : pc ≠ .request) (hdisconnect : pc ≠ .disconnect) (hnotify : pc ≠ .notify) :
    ∃ r, updateStep port cp timer pc = .ok r := by
  cases pc with
  | request => exact absurd rfl hrequest
  | disconnect => exact absurd rfl hdisconnect
  | notify => exact absurd rfl hnotify
  | checkHandle | increment | compare | resetCount | checkDisconnect | returned => exact ⟨_, rfl⟩

/-- What is configured never leads to the module's own call of `sd_ble_gap_disconnect`. -/
theorem updateStep_not_disconnect {port : ConnParamsPort (AppTimer Nat)} (h : Configured cp)
    {pc : UpdatePc} {r : ConnParams × AppTimer Nat × UpdatePc} (hpc : pc ≠ .disconnect)
    (step : updateStep port cp timer pc = .ok r) : r.2.2 ≠ .disconnect := by
  cases pc with
  | disconnect => exact absurd rfl hpc
  | checkDisconnect =>
    have hdrop : ¬cp.config.disconnectOnFail = true := by
      rw [h.no_drop]
      decide
    cases step
    dsimp only
    rw [if_neg hdrop]
    intro hnotify
    cases hnotify
  | checkHandle =>
    cases step
    dsimp only
    split
    · decide
    · decide
  | compare =>
    cases step
    dsimp only
    split
    · decide
    · decide
  | request | notify =>
    obtain ⟨_, _, rfl⟩ := ok_of_map step
    intro hreturned
    cases hreturned
  | increment | resetCount | returned =>
    cases step
    intro hnext
    cases hnext

theorem timeoutPort_keeps_created : (timeoutPort answers mConnHandle connection).Keeps
    (Created mConnParamsTimerId (appTimerOpQueueSize + 1)) where
  connParamUpdate _ _ _ h := h
  disconnect _ _ _ h := h
  timerStart timeoutTicks timer h := by
    change Created _ _ (appTimerStart timer .appLow mConnParamsTimerId timeoutTicks connection).2
    unfold appTimerStart
    split
    · exact h
    · split
      · exact h
      · exact userOpSchedule_created h _ _
  timerStop timer h := by
    change Created _ _ (appTimerStop timer .appLow mConnParamsTimerId).2
    rw [h.appTimerStop_eq]
    exact userOpSchedule_created h _ _
  evtHandler evt timer timer' h hok := by
    have hevt : onConnParamsEvt (fun _ _ timer => (answers.disconnect, timer)) mConnHandle timer evt =
        .ok timer' := hok
    exact onConnParamsEvt_keeps (fun _ _ _ h => h) h hevt

variable (created : Created mConnParamsTimerId (appTimerOpQueueSize + 1) timer)

include created

theorem connParamsNegotiation_ok_iff (h : Configured cp) :
    (∃ r, connParamsNegotiation (timeoutPort answers mConnHandle connection) cp timer = .ok r) ↔
      ((!isConnParamsOk cp.preferredConnParams cp.currentConnParams) = true →
        (timer.userOps .appLow).length < appTimerOpQueueSize) := by
  unfold connParamsNegotiation negotiationCall
  rw [map_ok_iff]
  split
  next hbad =>
    have hticks : ¬(if cp.updateCount = 0 then cp.config.firstConnParamsUpdateDelay
        else cp.config.nextConnParamsUpdateDelay) < appTimerMinTimeoutTicks := by
      rw [h.config]
      split
      · decide
      · decide
    obtain ⟨op, hstart⟩ := created.appTimerStart_eq hticks .appLow connection
    have hport : (timeoutPort answers mConnHandle connection).timerStart _ timer =
      userOpSchedule timer .appLow op := hstart
    rw [h.unchanged, if_neg (by decide), errorHandled_ok_iff, hport, userOpSchedule_ok_iff created.opQueue]
    exact ⟨fun hroom _ => hroom, fun hroom => hroom hbad⟩
  next hgood => exact iff_of_true ⟨timer, rfl⟩ fun hbad => absurd hbad hgood

theorem bleConnParamsOnBleEvt_ok_iff (h : Configured cp) {e : BleEvt}
    (hwrite : ∀ handle data, e = .gattsWrite handle data → handle ≠ 0) :
    (∃ r, bleConnParamsOnBleEvt (timeoutPort answers mConnHandle connection) cp timer e = .ok r) ↔
      (cp.usesTimer e = true → (timer.userOps .appLow).length < appTimerOpQueueSize) := by
  have hcccd := h.cccdHandle
  cases e with
  | gapConnected connHandle connParams =>
    simp only [bleConnParamsOnBleEvt, onConnect, hcccd, ↓reduceIte]
    exact connParamsNegotiation_ok_iff created (h.after (.gapConnected connHandle connParams))
  | gapConnParamUpdate connParams =>
    exact connParamsNegotiation_ok_iff created (h.after (.gapConnParamUpdate connParams))
  | gapDisconnected =>
    have hstop : (timeoutPort answers mConnHandle connection).timerStop timer =
        userOpSchedule timer .appLow (.stop mConnParamsTimerId) := created.appTimerStop_eq .appLow
    simp only [bleConnParamsOnBleEvt, onDisconnect]
    rw [map_ok_iff, errorHandled_ok_iff, hstop, userOpSchedule_ok_iff created.opQueue]
    exact ⟨fun hroom _ => hroom, fun hroom => hroom rfl⟩
  | gattsWrite handle data =>
    have hne : ¬(handle = cp.config.startOnNotifyCccdHandle ∧ data.length = 2) := by
      rw [hcccd]
      exact fun hw => hwrite handle data rfl hw.1
    simp only [bleConnParamsOnBleEvt, onWrite, if_neg hne]
    exact iff_of_true ⟨_, rfl⟩ fun huses => by cases huses
  | gapSecParamsRequest | gapSecInfoRequest _ | gapAuthStatus _ | gapTimeout _ | gattsSysAttrMissing
  | other => exact iff_of_true ⟨_, rfl⟩ fun huses => by cases huses

end Statements

end BleSpeedSensor
