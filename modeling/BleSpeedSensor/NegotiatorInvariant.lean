import BleSpeedSensor.Negotiation
import BleSpeedSensor.ConfiguredParams

namespace BleSpeedSensor

variable {ω ε : Type} {p : Platform ω ε}

structure NegotiatorInv (n : Negotiator ω) : Prop where
  configured : Configured n.cp
  up : n.tally.up = true ↔ n.cp.connHandle ≠ bleConnHandleInvalid
  timeouts : n.tally.timeouts = n.cp.updateCount.toNat
  timeouts_le : n.tally.timeouts ≤ 3
  interval : n.tally.up = true → ∃ i, n.reported.maxConnInterval = some i ∧
    (n.tally.acceptable = true ↔ n.cp.preferredConnParams.minConnInterval ≤ i ∧
      i ≤ n.cp.preferredConnParams.maxConnInterval)
  since : n.tally.acceptedSince = true ↔ n.reported.requests < n.tally.timeouts

theorem NegotiatorInv.down {n : Negotiator ω} (h : NegotiatorInv n) (hup : n.tally.up = false) :
    n.cp.connHandle = bleConnHandleInvalid := by
  refine Classical.byContradiction fun hne => ?_
  have := h.up.mpr hne
  rw [hup] at this
  cases this

theorem isConnParamsOk_iff {preferred q : GapConnParams} :
    isConnParamsOk preferred q = true ↔ preferred.minConnInterval ≤ q.maxConnInterval ∧
      q.maxConnInterval ≤ preferred.maxConnInterval := by
  simp [isConnParamsOk]

theorem NegotiatorInv.after {n : Negotiator ω} (h : NegotiatorInv n) (app : App) (world : ω)
    (e : BleEvt) : NegotiatorInv ⟨app, n.cp.after e, world,
      n.reported.onBleEvt n.cp.preferredConnParams e, n.tally.onBleEvt n.cp.preferredConnParams e⟩ := by
  obtain ⟨configured, up, timeouts, timeouts_le, interval, since⟩ := h
  have hc := configured.after e
  cases e with
  | gapConnected connHandle connParams =>
    refine ⟨hc, ?_, rfl, Nat.zero_le 3, fun _ => ⟨_, rfl, isConnParamsOk_iff⟩, ?_⟩
    · simp [Tally.onBleEvt, ConnParams.after]
    · simp [Tally.onBleEvt, Reported.onBleEvt]
  | gapDisconnected =>
    refine ⟨hc, ?_, rfl, Nat.zero_le 3, ?_, ?_⟩
    · simp [Tally.onBleEvt, ConnParams.after]
    · simp [Tally.onBleEvt]
    · simp [Tally.onBleEvt, Reported.onBleEvt]
  | gapConnParamUpdate connParams =>
    refine ⟨hc, up, timeouts, timeouts_le, fun _ => ⟨_, rfl, isConnParamsOk_iff⟩, ?_⟩
    cases hok : isConnParamsOk n.cp.preferredConnParams connParams with
    | false => simpa [Tally.onBleEvt, Reported.onBleEvt, hok] using since
    | true =>
      simp only [Tally.onBleEvt, Reported.onBleEvt, hok, Bool.or_eq_true, since, Bool.true_and,
        ↓reduceIte, decide_eq_true_eq]
      omega
  | gattsWrite _ _ | gapSecParamsRequest | gapSecInfoRequest _ | gapAuthStatus _ | gapTimeout _
  | gattsSysAttrMissing | other => exact ⟨hc, up, timeouts, timeouts_le, interval, since⟩

theorem timeout_calls {n : Negotiator ω} (h : NegotiatorInv n) {world : ω}
    (ht : p.takeTimeout n.world = some world) :
    n.calls p .timeout =
      if n.tally.up = false then []
      else if n.tally.timeouts = 3 then [.disconnect n.app.mConnHandle bleHciConnIntervalUnacceptable]
      else [.connParamUpdate n.cp.connHandle n.cp.preferredConnParams] := by
  have hcount := h.timeouts
  have hle := h.timeouts_le
  simp only [Negotiator.calls, ht]
  cases hup : n.tally.up with
  | false =>
    rw [updateTimeoutHandler_ignored (h.down hup)]
    rfl
  | true =>
    have hne := h.up.mp hup
    by_cases h3 : n.tally.timeouts = 3
    · rw [updateTimeoutHandler_fail h.configured hne (by omega)]
      simp [h3, notingPort, onConnParamsEvt, noted, Except.map]
    · rw [updateTimeoutHandler_request h.configured hne (by omega)]
      simp [h3, notingPort, errorHandled, noted, Except.map]

theorem timeout_negotiatorInv {n : Negotiator ω} (h : NegotiatorInv n) {world w : ω} {cp : ConnParams}
    (ht : p.takeTimeout n.world = some world)
    (run : updateTimeoutHandler (p.port n.app.mConnHandle) n.cp world = .ok (cp, w)) :
    NegotiatorInv ⟨n.app, cp, w, { n.reported with requests := n.reported.requests +
      ((n.calls p .timeout).filter CpCall.isRequest).length }, n.tally.onTimeout⟩ := by
  rw [timeout_calls h ht]
  have hcount := h.timeouts
  have hle := h.timeouts_le
  cases hup : n.tally.up with
  | false =>
    rw [updateTimeoutHandler_ignored (h.down hup)] at run
    cases run
    rw [Tally.onTimeout_down hup]
    exact ⟨h.configured, h.up, h.timeouts, h.timeouts_le, h.interval, h.since⟩
  | true =>
    have hne := h.up.mp hup
    have hkept : n.tally.up = true ↔ n.cp.connHandle ≠ bleConnHandleInvalid := h.up
    by_cases h3 : n.tally.timeouts = 3
    · rw [updateTimeoutHandler_fail h.configured hne (by omega)] at run
      obtain ⟨w', _, hw⟩ := ok_of_map run
      cases hw
      rw [Tally.onTimeout_fourth hup h3]
      exact ⟨⟨h.configured.config, h.configured.unchanged⟩, hkept, rfl, Nat.zero_le 3,
        fun _ => h.interval hup, by simp⟩
    · rw [updateTimeoutHandler_request h.configured hne (by omega)] at run
      obtain ⟨w', _, hw⟩ := ok_of_map run
      cases hw
      rw [Tally.onTimeout_counted hup h3]
      have hone : (1 : UInt8).toNat = 1 := rfl
      have hnext : n.tally.timeouts + 1 = (n.cp.updateCount + 1).toNat := by
        rw [UInt8.toNat_add, hone]
        omega
      have hsince : n.tally.acceptedSince = true ↔ n.reported.requests < n.tally.timeouts := h.since
      refine ⟨⟨h.configured.config, h.configured.unchanged⟩, hkept, hnext, by dsimp only; omega,
        fun _ => h.interval hup, ?_⟩
      simp only [Bool.true_eq_false, ↓reduceIte, h3, List.filter, CpCall.isRequest, List.length_cons,
        List.length_nil, Bool.and_eq_true, decide_eq_true_eq, hsince]
      omega

theorem NegotiatorInv.step {n m : Negotiator ω} {a : NegotiationAction ε} (h : NegotiatorInv n)
    (step : negotiationStep p n a = .ok m) : NegotiatorInv m := by
  cases a with
  | ble e =>
    obtain ⟨⟨app, world⟩, _, step⟩ := ok_of_bind step
    obtain ⟨⟨cp, world'⟩, hcp, hm⟩ := ok_of_bind step
    cases hm
    rw [show cp = n.cp.after e from bleConnParamsOnBleEvt_cp h.configured hcp]
    exact h.after app world' e
  | timeout =>
    cases ht : p.takeTimeout n.world with
    | none =>
      simp only [negotiationStep, ht] at step
      cases step
      exact h
    | some world =>
      simp only [negotiationStep, ht] at step
      obtain ⟨⟨cp, w⟩, run, hm⟩ := ok_of_bind step
      cases hm
      exact timeout_negotiatorInv h ht run
  | goOn x =>
    obtain ⟨world, _, rfl⟩ := ok_of_map step
    exact ⟨h.configured, h.up, h.timeouts, h.timeouts_le, h.interval, h.since⟩

end BleSpeedSensor
