import BleSpeedSensor.LinkPhase
import BleSpeedSensor.NegotiatorCalls
import BleSpeedSensor.TimeoutBleEvents

namespace BleSpeedSensor

structure HostInv (s : TimeoutPath) : Prop where
  configured : Configured s.cp
  created : Created mConnParamsTimerId (appTimerOpQueueSize + 1) s.timer
  statement : s.update ≠ .disconnect

structure NegotiatingInv (d : NegotiatingDevice) : Prop where
  host : HostInv d.host
  phase : d.gap.peripheral.Phase
  writes : ∀ handle data, .gattsWrite handle data ∈ d.gap.peripheral.queue → handle ≠ 0

theorem boot_created {updateTimeoutHandler : UInt32} (h : updateTimeoutHandler ≠ 0) :
    Created mConnParamsTimerId (appTimerOpQueueSize + 1) (AppTimer.boot updateTimeoutHandler) := by
  have hfree : (List.range appTimerMaxTimers).find? (fun i => !((appTimerInit TimerNode.zero
      appTimerMaxTimers (appTimerOpQueueSize + 1)).nodes i).allocated) = some 0 := rfl
  have hsize : (appTimerInit TimerNode.zero appTimerMaxTimers
      (appTimerOpQueueSize + 1)).nodeArraySize = appTimerMaxTimers := rfl
  unfold AppTimer.boot appTimerCreate
  rw [if_neg h, hsize, hfree]
  exact ⟨Nat.zero_lt_two, rfl, rfl⟩

theorem boot_negotiatingInv {updateTimeoutHandler : UInt32} (h : updateTimeoutHandler ≠ 0) :
    NegotiatingInv (NegotiatingDevice.boot updateTimeoutHandler) where
  host := ⟨⟨rfl, rfl⟩, boot_created h, by intro hpc; cases hpc⟩
  phase := .advertising
  writes handle data hmem := by cases hmem

section Host

variable {s t : TimeoutPath}

theorem HostInv.exec {nodes : List (TimerNode Nat)} (h : HostInv s)
    (step : timeoutHandlerExec s nodes = .ok t) : HostInv t := by
  induction nodes generalizing s with
  | nil =>
    cases step
    exact h
  | cons node rest ih =>
    obtain ⟨-, -, hrest⟩ := ok_of_bind step
    refine ih ?_ hrest
    exact ⟨h.configured, h.created, h.statement⟩

theorem HostInv.mainStep (h : HostInv s) {answers : Answers} (step : s.mainStep answers = .ok t) :
    HostInv t := by
  unfold TimeoutPath.mainStep at step
  split at step
  · obtain ⟨r, hr, rfl⟩ := ok_of_map step
    obtain ⟨hconfigured, htimer⟩ := updateStep_keeps h.configured hr
    refine ⟨hconfigured, ?_, updateStep_not_disconnect h.configured h.statement hr⟩
    dsimp only
    rw [htimer]
    exact h.created
  · obtain ⟨path, _, rfl⟩ := ok_of_map step
    refine ⟨h.configured, h.created, ?_⟩
    intro hpc
    cases hpc

theorem HostInv.onBleEvt (h : HostInv s) {e : BleEvt} {answers : Answers}
    (step : s.onBleEvt e answers = .ok t) : HostInv t := by
  obtain ⟨⟨app, timer⟩, happ, step⟩ := ok_of_bind step
  obtain ⟨⟨cp, timer'⟩, hcp, step⟩ := ok_of_bind step
  cases step
  have htimer : timer = s.timer := onBleEvt_world happ
  have hcp' : cp = s.cp.after e := bleConnParamsOnBleEvt_cp h.configured hcp
  refine ⟨?_, ?_, h.statement⟩
  · dsimp only
    rw [hcp']
    exact h.configured.after e
  · refine timeoutPort_keeps_created.bleEvt ?_ hcp
    rw [htimer]
    exact h.created

end Host

/-- What the central does is something the peripheral's SoftDevice can meet with. -/
theorem GapLink.act_cases (g : GapLink) (a : GapAct) :
    (g.act a).peripheral = g.peripheral ∨ ∃ b, (g.act a).peripheral = g.peripheral.act b ∧
      ∀ handle data, b = .raise (.gattsWrite handle data) → handle ≠ 0 := by
  cases a with
  | connect connHandle connParams =>
    exact Or.inr ⟨.connect connHandle connParams, rfl, fun _ _ hb => by cases hb⟩
  | linkLoss => exact Or.inr ⟨.linkLoss, rfl, fun _ _ hb => by cases hb⟩
  | advTimeout => exact Or.inr ⟨.advTimeout, rfl, fun _ _ hb => by cases hb⟩
  | connParamUpdate connParams answer =>
    simp only [act]
    split
    · exact Or.inr ⟨.raise (.gapConnParamUpdate connParams), rfl, fun _ _ hb => by cases hb⟩
    · exact Or.inl rfl
  | raise e =>
    simp only [act]
    split
    next hraisable =>
      refine Or.inr ⟨.raise e, rfl, fun handle data hb => ?_⟩
      cases hb
      exact of_decide_eq_true hraisable
    next => exact Or.inl rfl

variable {d d' : NegotiatingDevice}

theorem NegotiatingInv.central (h : NegotiatingInv d) (a : GapAct) :
    NegotiatingInv { d with gap := d.gap.act a } := by
  rcases d.gap.act_cases a with hsame | ⟨b, hact, hwrite⟩
  · refine ⟨h.host, ?_, ?_⟩
    · dsimp only
      rw [hsame]
      exact h.phase
    · dsimp only
      rw [hsame]
      exact h.writes
  · refine ⟨h.host, ?_, fun handle data hmem => ?_⟩
    · dsimp only
      rw [hact]
      exact h.phase.act b
    · dsimp only at hmem
      rw [hact] at hmem
      rcases d.gap.peripheral.act_queue b with hsame | ⟨e, hqueue, hraise⟩
      · rw [hsame] at hmem
        exact h.writes handle data hmem
      · rw [hqueue] at hmem
        rcases List.mem_append.mp hmem with hold | hnew
        · exact h.writes handle data hold
        · exact hwrite handle data (hraise handle data (List.mem_singleton.mp hnew).symm)

theorem pulled_queue {answer : SdCall → ErrCode} {app : App} {p : Peripheral} {e : BleEvt} :
    (((onBleEvtCall app e).2.map fun call => (p.svc answer call).2).getD p).queue = p.queue := by
  cases (onBleEvtCall app e).2 with
  | none => rfl
  | some call => exact Peripheral.svc_queue answer p call

theorem Peripheral.Phase.pulled {p : Peripheral} (h : p.Phase) {e : BleEvt} {rest : List BleEvt}
    (hqueue : p.queue = e :: rest) {answer : SdCall → ErrCode} {app : App}
    (hok : ∀ call, (onBleEvtCall app e).2 = some call →
      ((p.pulled rest).svc answer call).1 = nrfSuccess) :
    (((onBleEvtCall app e).2.map fun call => ((p.pulled rest).svc answer call).2).getD
      (p.pulled rest)).Phase := by
  obtain ⟨r, hr⟩ : ∃ r, onBleEvt (svc answer) app (p.pulled rest) e = .ok r := onBleEvt_ok_iff.mpr hok
  obtain ⟨-, hworld⟩ := onBleEvt_ok hr
  have hphase := h.dispatched hqueue hr
  rw [hworld] at hphase
  exact hphase

theorem NegotiatingInv.pull (h : NegotiatingInv d) {answer : SdCall → ErrCode} {e : BleEvt}
    {rest : List BleEvt} (hqueue : d.gap.peripheral.queue = e :: rest)
    (step : d.pull answer e rest = .ok d') : NegotiatingInv d' := by
  obtain ⟨host, hhost, rfl⟩ := ok_of_map step
  refine ⟨h.host.onBleEvt hhost, ?_, ?_⟩
  · obtain ⟨r, happ, -⟩ := ok_of_bind hhost
    have hok := onBleEvt_ok_iff.mp ⟨r, happ⟩
    exact h.phase.pulled hqueue hok
  · intro handle data hmem
    dsimp only at hmem
    rw [pulled_queue] at hmem
    refine h.writes handle data ?_
    rw [hqueue]
    exact List.mem_cons_of_mem e hmem

theorem NegotiatingInv.main (h : NegotiatingInv d) (step : d.mainStep = .ok d') :
    NegotiatingInv d' := by
  obtain ⟨host, hhost, rfl⟩ := ok_of_map step
  have hsame : (if d.host.Handling then d.call.2 else d.gap).peripheral = d.gap.peripheral := by
    split
    · exact d.call_peripheral
    · rfl
  refine ⟨h.host.mainStep hhost, ?_, ?_⟩
  · dsimp only
    rw [hsame]
    exact h.phase
  · dsimp only
    rw [hsame]
    exact h.writes

theorem NegotiatingInv.hosted (h : NegotiatingInv d) {r : Except ErrCode TimeoutPath}
    (hkeep : ∀ host, r = .ok host → HostInv host)
    (step : r.map (fun host => { d with host := host }) = .ok d') : NegotiatingInv d' := by
  obtain ⟨host, hhost, rfl⟩ := ok_of_map step
  exact ⟨hkeep host hhost, h.phase, h.writes⟩

theorem NegotiatingInv.step (h : NegotiatingInv d) {a : NegotiatingAction}
    (step : negotiatingStep d a = .ok d') : NegotiatingInv d' := by
  obtain ⟨hconfigured, hcreated, hstatement⟩ := h.host
  cases a with
  | tick n =>
    simp only [negotiatingStep] at step
    refine h.hosted (fun host hhost => ?_) step
    cases hhost
    exact ⟨hconfigured, hcreated.tick n, hstatement⟩
  | rtc1 =>
    refine h.hosted (fun host hhost => ?_) step
    refine HostInv.exec ?_ hhost
    exact ⟨hconfigured, rtc1IrqHandler_created hcreated, hstatement⟩
  | swi0 late =>
    simp only [negotiatingStep] at step
    refine h.hosted (fun host hhost => ?_) step
    cases hhost
    exact ⟨hconfigured, swi0IrqHandler_created hcreated late, hstatement⟩
  | speedSchedule f v =>
    simp only [negotiatingStep] at step
    refine h.hosted (fun host hhost => ?_) step
    cases hhost
    exact ⟨hconfigured, hcreated, hstatement⟩
  | central a =>
    cases step
    exact h.central a
  | pull answer =>
    simp only [negotiatingStep] at step
    split at step
    next =>
      cases step
      exact h
    next e rest hqueue => exact h.pull hqueue step
  | main => exact h.main step

end BleSpeedSensor
