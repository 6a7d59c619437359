import BleSpeedSensor.ConnParams

namespace BleSpeedSensor

/-- The module as configured, with nothing asked of it but what its events bring. -/
structure Configured (cp : ConnParams) : Prop where
  config : cp.config = cpInit
  unchanged : cp.changeParam = false

theorem Configured.cccdHandle {cp : ConnParams} (h : Configured cp) :
    cp.config.startOnNotifyCccdHandle = 0 := by
  rw [h.config]
  rfl

theorem Configured.no_drop {cp : ConnParams} (h : Configured cp) :
    cp.config.disconnectOnFail = false := by
  rw [h.config]
  rfl

theorem Configured.count_le_iff {cp : ConnParams} (h : Configured cp) {updateCount : UInt8} :
    updateCount ≤ cp.config.maxConnParamsUpdateCount ↔ updateCount.toNat ≤ 3 := by
  have hmax : cp.config.maxConnParamsUpdateCount.toNat = 3 := by
    rw [h.config]
    rfl
  rw [UInt8.le_iff_toNat_le, hmax]

section Module

variable {σ : Type} {port : ConnParamsPort σ} {cp : ConnParams} {w : σ}

theorem updateTimeoutHandler_ignored (h : cp.connHandle = bleConnHandleInvalid) :
    updateTimeoutHandler port cp w = .ok (cp, w) :=
  if_neg (not_not_intro h)

theorem updateTimeoutHandler_request (h : Configured cp) (up : cp.connHandle ≠ bleConnHandleInvalid)
    (hcount : cp.updateCount.toNat < 3) :
    updateTimeoutHandler port cp w =
      (errorHandled (port.connParamUpdate cp.connHandle cp.preferredConnParams w)).map
        fun w => ({ cp with updateCount := cp.updateCount + 1 }, w) := by
  have hle : cp.updateCount + 1 ≤ cp.config.maxConnParamsUpdateCount := by
    have hone : (1 : UInt8).toNat = 1 := rfl
    rw [h.count_le_iff, UInt8.toNat_add, hone]
    omega
  unfold updateTimeoutHandler updateOrFail
  rw [if_pos up]
  dsimp only
  rw [if_pos hle]
  rfl

theorem updateTimeoutHandler_fail (h : Configured cp) (up : cp.connHandle ≠ bleConnHandleInvalid)
    (hcount : cp.updateCount.toNat = 3) :
    updateTimeoutHandler port cp w =
      (port.evtHandler .failed w).map fun w => ({ cp with updateCount := 0 }, w) := by
  have hle : ¬cp.updateCount + 1 ≤ cp.config.maxConnParamsUpdateCount := by
    have hone : (1 : UInt8).toNat = 1 := rfl
    rw [h.count_le_iff, UInt8.toNat_add, hone]
    omega
  unfold updateTimeoutHandler updateOrFail
  rw [if_pos up]
  dsimp only
  rw [if_neg hle, h.no_drop]
  rfl

def ConnParams.after (cp : ConnParams) : BleEvt → ConnParams
  | .gapConnected connHandle connParams =>
    { cp with connHandle := connHandle, currentConnParams := connParams, updateCount := 0 }
  | .gapDisconnected => { cp with connHandle := bleConnHandleInvalid, updateCount := 0 }
  | .gapConnParamUpdate connParams => { cp with currentConnParams := connParams }
  | _ => cp

theorem connParamsNegotiation_cp (h : cp.changeParam = false) {r : ConnParams × σ}
    (hr : connParamsNegotiation port cp w = .ok r) : r.1 = cp := by
  obtain ⟨w', _, rfl⟩ := ok_of_map hr
  dsimp only
  rw [← h]

theorem bleConnParamsOnBleEvt_cp (h : Configured cp) {e : BleEvt} {r : ConnParams × σ}
    (hr : bleConnParamsOnBleEvt port cp w e = .ok r) : r.1 = cp.after e := by
  cases e with
  | gapConnected connHandle connParams =>
    simp only [bleConnParamsOnBleEvt, onConnect, h.cccdHandle, ↓reduceIte] at hr
    exact connParamsNegotiation_cp (by exact h.unchanged) hr
  | gapDisconnected =>
    obtain ⟨w', _, rfl⟩ := ok_of_map hr
    rfl
  | gattsWrite handle data =>
    simp only [bleConnParamsOnBleEvt, onWrite] at hr
    split at hr
    · split at hr
      · exact connParamsNegotiation_cp h.unchanged hr
      · obtain ⟨w', _, rfl⟩ := ok_of_map hr
        rfl
    · cases hr
      rfl
  | gapConnParamUpdate connParams => exact connParamsNegotiation_cp (by exact h.unchanged) hr
  | gapSecParamsRequest | gapSecInfoRequest _ | gapAuthStatus _ | gapTimeout _ | gattsSysAttrMissing
  | other =>
    cases hr
    rfl

theorem Configured.after (h : Configured cp) (e : BleEvt) : Configured (cp.after e) := by
  obtain ⟨hconfig, hunchanged⟩ := h
  cases e <;> exact ⟨hconfig, hunchanged⟩

theorem errorHandled_ok {r : ErrCode × σ} {w' : σ} (h : errorHandled r = .ok w') :
    r.1 = nrfSuccess ∧ w' = r.2 := by
  unfold errorHandled at h
  split at h
  next => cases h
  next hok => exact ⟨by simpa using hok, (Except.ok.inj h).symm⟩

theorem errorHandled_ok_iff {r : ErrCode × σ} :
    (∃ w, errorHandled r = .ok w) ↔ r.1 = nrfSuccess := by
  constructor
  · rintro ⟨w, hw⟩
    exact (errorHandled_ok hw).1
  · intro hok
    refine ⟨r.2, ?_⟩
    unfold errorHandled
    rw [if_neg (not_not_intro hok)]

theorem connParamsNegotiation_world (h : Configured cp)
    (hsucc : port.evtHandler .succeeded w = .ok w) {r : ConnParams × σ}
    (hr : connParamsNegotiation port cp w = .ok r) : r.2 = w ∨ ∃ ticks,
      (cp.updateCount = 0 → ticks = firstConnParamsUpdateDelay) ∧
        (port.timerStart ticks w).1 = nrfSuccess ∧ r.2 = (port.timerStart ticks w).2 := by
  obtain ⟨w', hcall, rfl⟩ := ok_of_map hr
  unfold negotiationCall at hcall
  split at hcall
  · rw [h.unchanged, if_neg (by decide)] at hcall
    obtain ⟨hok, rfl⟩ := errorHandled_ok hcall
    refine Or.inr ⟨_, fun hzero => ?_, hok, rfl⟩
    rw [if_pos hzero, h.config]
    rfl
  · rw [hsucc] at hcall
    exact Or.inl (Except.ok.inj hcall).symm

theorem bleConnParamsOnBleEvt_world (h : Configured cp)
    (hsucc : port.evtHandler .succeeded w = .ok w) {e : BleEvt}
    (hwrite : ∀ handle data, e = .gattsWrite handle data → handle ≠ 0) {r : ConnParams × σ}
    (hr : bleConnParamsOnBleEvt port cp w e = .ok r) : r.2 = w ∨
      (∃ ticks, ((cp.after e).updateCount = 0 → ticks = firstConnParamsUpdateDelay) ∧
        (port.timerStart ticks w).1 = nrfSuccess ∧ r.2 = (port.timerStart ticks w).2) ∨
      (e = .gapDisconnected ∧ (port.timerStop w).1 = nrfSuccess ∧ r.2 = (port.timerStop w).2) := by
  have hcccd := h.cccdHandle
  cases e with
  | gapConnected connHandle connParams =>
    simp only [bleConnParamsOnBleEvt, onConnect, hcccd, ↓reduceIte] at hr
    have hafter := h.after (.gapConnected connHandle connParams)
    rcases connParamsNegotiation_world hafter hsucc hr with hsame | hstart
    · exact Or.inl hsame
    · exact Or.inr (Or.inl hstart)
  | gapConnParamUpdate connParams =>
    have hafter := h.after (.gapConnParamUpdate connParams)
    rcases connParamsNegotiation_world hafter hsucc hr with hsame | hstart
    · exact Or.inl hsame
    · exact Or.inr (Or.inl hstart)
  | gapDisconnected =>
    obtain ⟨w', hcall, rfl⟩ := ok_of_map hr
    obtain ⟨hok, rfl⟩ := errorHandled_ok hcall
    exact Or.inr (Or.inr ⟨rfl, hok, rfl⟩)
  | gattsWrite handle data =>
    have hne : ¬(handle = cp.config.startOnNotifyCccdHandle ∧ data.length = 2) := by
      rw [hcccd]
      exact fun hw => hwrite handle data rfl hw.1
    simp only [bleConnParamsOnBleEvt, onWrite, if_neg hne] at hr
    cases hr
    exact Or.inl rfl
  | gapSecParamsRequest | gapSecInfoRequest _ | gapAuthStatus _ | gapTimeout _ | gattsSysAttrMissing
  | other =>
    cases hr
    exact Or.inl rfl

end Module

end BleSpeedSensor
