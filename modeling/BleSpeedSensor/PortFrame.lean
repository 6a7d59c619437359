import BleSpeedSensor.ConfiguredParams

namespace BleSpeedSensor

section Frame

variable {σ : Type}

/-- No call of the module's port leaves `P`. -/
structure ConnParamsPort.Keeps (port : ConnParamsPort σ) (P : σ → Prop) : Prop where
  connParamUpdate : ∀ connHandle connParams w, P w → P (port.connParamUpdate connHandle connParams w).2
  disconnect : ∀ connHandle reason w, P w → P (port.disconnect connHandle reason w).2
  timerStart : ∀ timeoutTicks w, P w → P (port.timerStart timeoutTicks w).2
  timerStop : ∀ w, P w → P (port.timerStop w).2
  evtHandler : ∀ evt w w', P w → port.evtHandler evt w = .ok w' → P w'

variable {port : ConnParamsPort σ} {P : σ → Prop} {cp : ConnParams} {w : σ}

theorem ConnParamsPort.Keeps.negotiation (keeps : port.Keeps P) (h : P w) {r : ConnParams × σ}
    (hr : connParamsNegotiation port cp w = .ok r) : P r.2 := by
  obtain ⟨w', hcall, rfl⟩ := ok_of_map hr
  unfold negotiationCall at hcall
  split at hcall
  · split at hcall
    · exact keeps.evtHandler _ _ _ h hcall
    · obtain ⟨_, rfl⟩ := errorHandled_ok hcall
      exact keeps.timerStart _ _ h
  · exact keeps.evtHandler _ _ _ h hcall

theorem ConnParamsPort.Keeps.stopped (keeps : port.Keeps P) (h : P w) {r : ConnParams × σ}
    (hr : (errorHandled (port.timerStop w)).map (fun w => (cp, w)) = .ok r) : P r.2 := by
  obtain ⟨w', hcall, rfl⟩ := ok_of_map hr
  obtain ⟨_, rfl⟩ := errorHandled_ok hcall
  exact keeps.timerStop _ h

theorem ConnParamsPort.Keeps.bleEvt (keeps : port.Keeps P) (h : P w) {e : BleEvt}
    {r : ConnParams × σ} (hr : bleConnParamsOnBleEvt port cp w e = .ok r) : P r.2 := by
  cases e with
  | gapConnected connHandle connParams =>
    simp only [bleConnParamsOnBleEvt, onConnect] at hr
    split at hr
    · exact keeps.negotiation h hr
    · cases hr
      exact h
  | gapDisconnected => exact keeps.stopped h hr
  | gattsWrite handle data =>
    simp only [bleConnParamsOnBleEvt, onWrite] at hr
    split at hr
    · split at hr
      · exact keeps.negotiation h hr
      · exact keeps.stopped h hr
    · cases hr
      exact h
  | gapConnParamUpdate connParams => exact keeps.negotiation h hr
  | gapSecParamsRequest | gapSecInfoRequest _ | gapAuthStatus _ | gapTimeout _ | gattsSysAttrMissing
  | other =>
    cases hr
    exact h

theorem updateTimeoutHandler_cases {r : ConnParams × σ}
    (hr : updateTimeoutHandler port cp w = .ok r) :
    r = (cp, w) ∨
    (∃ w', errorHandled (port.connParamUpdate cp.connHandle cp.preferredConnParams w) = .ok w' ∧
      r = ({ cp with updateCount := cp.updateCount + 1 }, w')) ∨
    ∃ w₁ w₂, (w₁ = w ∨ errorHandled (port.disconnect cp.connHandle bleHciConnIntervalUnacceptable w) =
        .ok w₁) ∧ port.evtHandler .failed w₁ = .ok w₂ ∧ r = ({ cp with updateCount := 0 }, w₂) := by
  unfold updateTimeoutHandler at hr
  split at hr
  · unfold updateOrFail at hr
    dsimp only at hr
    split at hr
    · obtain ⟨w', hcall, hpure⟩ := ok_of_bind hr
      exact Or.inr (Or.inl ⟨w', hcall, (Except.ok.inj hpure).symm⟩)
    · split at hr
      · obtain ⟨w₁, hdrop, hr⟩ := ok_of_bind hr
        obtain ⟨w₂, hevt, hpure⟩ := ok_of_bind hr
        exact Or.inr (Or.inr ⟨w₁, w₂, Or.inr hdrop, hevt, (Except.ok.inj hpure).symm⟩)
      · obtain ⟨w₁, hsame, hr⟩ := ok_of_bind hr
        obtain ⟨w₂, hevt, hpure⟩ := ok_of_bind hr
        have hw₁ := (Except.ok.inj hsame).symm
        exact Or.inr (Or.inr ⟨w₁, w₂, Or.inl hw₁, hevt, (Except.ok.inj hpure).symm⟩)
  · exact Or.inl (Except.ok.inj hr).symm

theorem ConnParamsPort.Keeps.timeout (keeps : port.Keeps P) (h : P w) {r : ConnParams × σ}
    (hr : updateTimeoutHandler port cp w = .ok r) : P r.2 := by
  obtain rfl | ⟨w', hcall, rfl⟩ | ⟨w₁, w₂, hdrop, hevt, rfl⟩ := updateTimeoutHandler_cases hr
  · exact h
  · obtain ⟨_, rfl⟩ := errorHandled_ok hcall
    exact keeps.connParamUpdate _ _ _ h
  · refine keeps.evtHandler _ _ _ ?_ hevt
    obtain rfl | hdrop := hdrop
    · exact h
    · obtain ⟨_, rfl⟩ := errorHandled_ok hdrop
      exact keeps.disconnect _ _ _ h

theorem updateTimeoutHandler_unchanged {r : ConnParams × σ}
    (hr : updateTimeoutHandler port cp w = .ok r) :
    r.1.connHandle = cp.connHandle ∧ r.1.config = cp.config ∧ r.1.changeParam = cp.changeParam := by
  obtain rfl | ⟨w', _, rfl⟩ | ⟨w₁, w₂, _, _, rfl⟩ := updateTimeoutHandler_cases hr
  · exact ⟨rfl, rfl, rfl⟩
  · exact ⟨rfl, rfl, rfl⟩
  · exact ⟨rfl, rfl, rfl⟩

end Frame

theorem onConnParamsEvt_keeps {σ : Type} {disconnect : ConnHandle → UInt8 → σ → ErrCode × σ}
    {P : σ → Prop} (keeps : ∀ connHandle reason w, P w → P (disconnect connHandle reason w).2)
    {mConnHandle : ConnHandle} {evt : ConnParamsEvtType} {w w' : σ} (h : P w)
    (hok : onConnParamsEvt disconnect mConnHandle w evt = .ok w') : P w' := by
  cases evt with
  | failed =>
    obtain ⟨_, _, rfl⟩ := ok_of_map hok
    exact keeps _ _ _ h
  | succeeded =>
    cases hok
    exact h

end BleSpeedSensor
