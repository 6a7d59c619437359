import BleSpeedSensor.BleDispatch

namespace BleSpeedSensor

theorem Peripheral.act_queue (p : Peripheral) (a : PeripheralAct) :
    (p.act a).queue = p.queue ∨ ∃ e, (p.act a).queue = p.queue ++ [e] ∧
      ∀ handle data, e = .gattsWrite handle data → a = .raise (.gattsWrite handle data) := by
  cases a with
  | connect connHandle connParams =>
    simp only [Peripheral.act]
    split
    · exact Or.inr ⟨.gapConnected connHandle connParams, rfl, fun _ _ he => by cases he⟩
    · exact Or.inl rfl
  | linkLoss =>
    simp only [Peripheral.act]
    split
    · exact Or.inr ⟨.gapDisconnected, rfl, fun _ _ he => by cases he⟩
    · exact Or.inl rfl
  | advTimeout =>
    simp only [Peripheral.act]
    split
    · exact Or.inr ⟨.gapTimeout bleGapTimeoutSrcAdvertisement, rfl, fun _ _ he => by cases he⟩
    · exact Or.inl rfl
  | raise e =>
    simp only [Peripheral.act]
    split
    · exact Or.inl rfl
    · exact Or.inr ⟨e, rfl, fun _ _ he => congrArg _ he⟩

theorem Peripheral.svc_queue (answer : SdCall → ErrCode) (p : Peripheral) (call : SdCall) :
    (p.svc answer call).2.queue = p.queue := by
  unfold svc
  split
  · split
    · rfl
    · rfl
  · rfl
  · rfl

/-- The link events not yet dispatched, in each situation the SoftDevice can be in. -/
inductive LinkPhase : Option ConnHandle → Bool → Bool → List BleEvt → Prop
  | advertising : LinkPhase none true false []
  | connected (handle : ConnHandle) : LinkPhase (some handle) false false []
  | connecting (handle : ConnHandle) (connParams : GapConnParams) :
    LinkPhase (some handle) false false [.gapConnected handle connParams]
  | lost : LinkPhase none false false [.gapDisconnected]
  | lostConnecting (handle : ConnHandle) (connParams : GapConnParams) :
    LinkPhase none false false [.gapConnected handle connParams, .gapDisconnected]
  | timedOut : LinkPhase none false false [.gapTimeout bleGapTimeoutSrcAdvertisement]
  | off : LinkPhase none false true []

theorem LinkPhase.of_advertising {link : Option ConnHandle} {systemOff : Bool}
    {pending : List BleEvt} (h : LinkPhase link true systemOff pending) :
    link = none ∧ systemOff = false ∧ pending = [] := by
  cases h
  exact ⟨rfl, rfl, rfl⟩

theorem LinkPhase.linkLoss {handle : ConnHandle} {advertising systemOff : Bool}
    {pending : List BleEvt} (h : LinkPhase (some handle) advertising systemOff pending) :
    LinkPhase none advertising systemOff (pending ++ [.gapDisconnected]) := by
  cases h with
  | connected => exact .lost
  | connecting => exact .lostConnecting _ _

theorem LinkPhase.disconnected {link : Option ConnHandle} {advertising systemOff : Bool}
    {pending : List BleEvt}
    (h : LinkPhase link advertising systemOff (.gapDisconnected :: pending)) :
    link = none ∧ advertising = false ∧ systemOff = false ∧ pending = [] := by
  cases h
  exact ⟨rfl, rfl, rfl, rfl⟩

def Peripheral.pending (p : Peripheral) : List BleEvt := p.queue.filter BleEvt.isLinkEvt

def Peripheral.Phase (p : Peripheral) : Prop :=
  LinkPhase p.link p.advertising p.systemOff p.pending

theorem Peripheral.Phase.waiting {p : Peripheral} (h : p.Phase) {queue : List BleEvt}
    (hqueue : p.queue = queue) :
    LinkPhase p.link p.advertising p.systemOff (queue.filter BleEvt.isLinkEvt) := by
  rw [← hqueue]
  exact h

/-- When the end of a link is dispatched, advertising can be started. -/
theorem Peripheral.Phase.disconnected {p : Peripheral} (h : p.Phase) {rest : List BleEvt}
    (hqueue : p.queue = .gapDisconnected :: rest) : p.link = none ∧ p.advertising = false := by
  obtain ⟨hlink, hadv, -, -⟩ := LinkPhase.disconnected (h.waiting hqueue)
  exact ⟨hlink, hadv⟩

theorem Peripheral.push_pending (p : Peripheral) {e : BleEvt} (he : e.isLinkEvt = true) :
    (p.push e).pending = p.pending ++ [e] := by
  unfold push pending
  rw [List.filter_append]
  simp [he]

theorem Peripheral.Phase.pushed {p : Peripheral} {e : BleEvt} (he : e.isLinkEvt = true)
    (h : LinkPhase p.link p.advertising p.systemOff (p.pending ++ [e])) : (p.push e).Phase := by
  unfold Phase
  rw [push_pending p he]
  exact h

theorem Peripheral.Phase.raised {p : Peripheral} (h : p.Phase) {e : BleEvt}
    (he : e.isLinkEvt = false) : (p.push e).Phase := by
  have hsame : (p.push e).pending = p.pending := by
    unfold push pending
    rw [List.filter_append]
    simp [he]
  unfold Phase
  rw [hsame]
  exact h

theorem Peripheral.Phase.act {p : Peripheral} (h : p.Phase) (a : PeripheralAct) : (p.act a).Phase := by
  cases a with
  | raise e =>
    simp only [Peripheral.act]
    split
    next => exact h
    next he => exact h.raised (by simpa using he)
  | connect handle connParams =>
    simp only [Peripheral.act]
    split
    next hadv =>
      refine Phase.pushed rfl ?_
      obtain ⟨_, hoff, hpending⟩ := LinkPhase.of_advertising (by rw [← hadv]; exact h)
      change LinkPhase (some handle) false p.systemOff (p.pending ++ _)
      rw [hoff, hpending]
      exact .connecting handle connParams
    next => exact h
  | linkLoss =>
    simp only [Peripheral.act]
    split
    next hup =>
      refine Phase.pushed rfl ?_
      obtain ⟨handle, hlink⟩ := Option.isSome_iff_exists.mp hup
      exact LinkPhase.linkLoss (by rw [← hlink]; exact h)
    next => exact h
  | advTimeout =>
    simp only [Peripheral.act]
    split
    next hadv =>
      refine Phase.pushed rfl ?_
      obtain ⟨hlink, hoff, hpending⟩ := LinkPhase.of_advertising (by rw [← hadv]; exact h)
      change LinkPhase p.link false p.systemOff (p.pending ++ _)
      rw [hlink, hoff, hpending]
      exact .timedOut
    next => exact h

theorem LinkPhase.connectedDispatched {link : Option ConnHandle} {advertising systemOff : Bool}
    {handle : ConnHandle} {connParams : GapConnParams} {pending : List BleEvt}
    (h : LinkPhase link advertising systemOff (.gapConnected handle connParams :: pending)) :
    LinkPhase link advertising systemOff pending := by
  cases h with
  | connecting => exact .connected _
  | lostConnecting => exact .lost

theorem LinkPhase.timeoutDispatched {link : Option ConnHandle} {advertising systemOff : Bool}
    {src : UInt8} {pending : List BleEvt}
    (h : LinkPhase link advertising systemOff (.gapTimeout src :: pending)) :
    LinkPhase link advertising true pending := by
  cases h
  exact .off

theorem Peripheral.Phase.dispatched {p : Peripheral} (h : p.Phase) {e : BleEvt} {rest : List BleEvt}
    (hqueue : p.queue = e :: rest) {answer : SdCall → ErrCode} {app : App} {r : App × Peripheral}
    (hr : onBleEvt (svc answer) app { p with queue := rest } e = .ok r) : r.2.Phase := by
  obtain ⟨_, hworld⟩ := onBleEvt_ok hr
  have hphase := h.waiting hqueue
  rw [List.filter_cons] at hphase
  rw [hworld]
  cases e with
  | gapConnected connHandle connParams => exact LinkPhase.connectedDispatched hphase
  | gapDisconnected =>
    obtain ⟨hlink, hadv, hoff, hpending⟩ := LinkPhase.disconnected hphase
    -- neither connected nor advertising, so that advertising starts
    have hstart : svc answer { p with queue := rest } (.gapAdvStart advertisingParams) =
        (nrfSuccess, { p with queue := rest, advertising := true }) := if_pos ⟨hlink, hadv⟩
    simp only [onBleEvtCall, Option.map_some, Option.getD_some, hstart]
    change LinkPhase p.link true p.systemOff (rest.filter BleEvt.isLinkEvt)
    rw [hlink, hoff, hpending]
    exact .advertising
  | gapTimeout src =>
    by_cases hsrc : src = bleGapTimeoutSrcAdvertisement
    · simp only [onBleEvtCall, hsrc, ↓reduceIte, Option.map_some, Option.getD_some, svc]
      simp only [BleEvt.isLinkEvt, hsrc, decide_true, ↓reduceIte] at hphase
      exact LinkPhase.timeoutDispatched hphase
    · simp only [onBleEvtCall, hsrc, ↓reduceIte, Option.map_none, Option.getD_none]
      simp only [BleEvt.isLinkEvt, hsrc, decide_false, Bool.false_eq_true, ↓reduceIte] at hphase
      exact hphase
  | gapSecInfoRequest div =>
    simp only [onBleEvtCall]
    split
    · exact hphase
    · exact hphase
  | gapConnParamUpdate _ | gapSecParamsRequest | gapAuthStatus _ | gattsWrite _ _
  | gattsSysAttrMissing | other => exact hphase

end BleSpeedSensor
