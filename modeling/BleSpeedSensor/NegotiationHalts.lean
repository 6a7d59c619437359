import BleSpeedSensor.NegotiatingInvariant

namespace BleSpeedSensor

open RunSystem

variable {d : NegotiatingDevice}

theorem main_goesOn_iff (h : NegotiatingInv d) : NegotiationGoesOn d .main ↔ CallsInTime d .main := by
  refine imp_congr_right fun _ => ?_
  by_cases hrequest : d.host.update = .request
  · have hcode : d.mainAnswers.connParamUpdate =
        (sdBleGapConnParamUpdate d.host.cp.connHandle d.gap).1 := by
      simp only [NegotiatingDevice.mainAnswers, NegotiatingDevice.call, hrequest]
    rw [hrequest, updateStep_request_ok_iff, hcode, sdBleGapConnParamUpdate_ok_iff]
    constructor
    · intro hok
      refine ⟨fun _ => hok, fun hnotify => ?_⟩
      cases hnotify
    · intro htime
      exact htime.1 rfl
  by_cases hnotify : d.host.update = .notify
  · have hcode : d.mainAnswers.disconnect =
        (sdBleGapDisconnect d.host.app.mConnHandle d.gap).1 := by
      simp only [NegotiatingDevice.mainAnswers, NegotiatingDevice.call, hnotify]
    rw [hnotify, updateStep_notify_ok_iff, hcode, sdBleGapDisconnect_ok_iff]
    constructor
    · intro hok
      refine ⟨fun hrequest => ?_, fun _ => hok⟩
      cases hrequest
    · intro htime
      exact htime.2 rfl
  -- every other statement touches statics only
  · refine iff_of_true (updateStep_other_ok hrequest h.host.statement hnotify) ?_
    exact ⟨fun heq => absurd heq hrequest, fun heq => absurd heq hnotify⟩

/-- Only the module's own part in an event that uses the timer can halt: advertising can be started
when a link has ended. -/
theorem usesTimer_dispatched (h : NegotiatingInv d) {e : BleEvt} {rest : List BleEvt}
    (hqueue : d.gap.peripheral.queue = e :: rest) (huses : d.host.cp.usesTimer e = true)
    (answer : SdCall → ErrCode) : ∃ r, onBleEvt
      (fun timer call => ((d.pullAnswers answer e rest).svc call, timer)) d.host.app d.host.timer e =
        .ok r := by
  refine onBleEvt_ok_iff.mpr fun call hcall => ?_
  cases e with
  | gapDisconnected =>
    cases hcall
    obtain ⟨hlink, hadv⟩ := h.phase.disconnected hqueue
    have hstart : (d.gap.peripheral.pulled rest).svc answer (.gapAdvStart advertisingParams) =
        (nrfSuccess, { d.gap.peripheral.pulled rest with advertising := true }) := if_pos ⟨hlink, hadv⟩
    exact congrArg Prod.fst hstart
  | gapConnected _ _ | gapConnParamUpdate _ => cases hcall
  | gapSecParamsRequest | gapSecInfoRequest _ | gapAuthStatus _ | gapTimeout _ | gattsWrite _ _
  | gattsSysAttrMissing | other => cases huses

theorem pull_goesOn_iff (h : NegotiatingInv d) (answer : SdCall → ErrCode) :
    NegotiationGoesOn d (.pull answer) ↔ CallsInTime d (.pull answer) := by
  refine forall_congr' fun e => forall_congr' fun rest => imp_congr_right fun hqueue => ?_
  have hwrite : ∀ handle data, e = .gattsWrite handle data → handle ≠ 0 := by
    intro handle data he
    refine h.writes handle data ?_
    rw [hqueue, he]
    exact List.mem_cons_self
  constructor
  · intro hgoes huses
    obtain ⟨⟨app, timer⟩, happ⟩ := usesTimer_dispatched h hqueue huses answer
    have htimer : timer = d.host.timer := onBleEvt_world happ
    obtain ⟨r, hr⟩ := hgoes app timer happ
    rw [htimer] at hr
    exact (bleConnParamsOnBleEvt_ok_iff h.host.created h.host.configured hwrite).mp ⟨r, hr⟩ huses
  · intro hroom app timer happ
    have htimer : timer = d.host.timer := onBleEvt_world happ
    rw [htimer]
    exact (bleConnParamsOnBleEvt_ok_iff h.host.created h.host.configured hwrite).mpr hroom

theorem goesOn_iff (h : NegotiatingInv d) (a : NegotiatingAction) :
    NegotiationGoesOn d a ↔ CallsInTime d a := by
  cases a with
  | main => exact main_goesOn_iff h
  | pull answer => exact pull_goesOn_iff h answer
  | tick _ | rtc1 | swi0 _ | speedSchedule _ _ | central _ => exact Iff.rfl

/-- The negotiation never halts the device exactly as long as every call of it comes in time. -/
theorem negotiation_goes_on_iff {updateTimeoutHandler : UInt32} (h : updateTimeoutHandler ≠ 0)
    (as : List NegotiatingAction) :
    EveryLiveStep negotiatingStep NegotiationGoesOn (NegotiatingDevice.boot updateTimeoutHandler) as ↔
      EveryLiveStep negotiatingStep CallsInTime (NegotiatingDevice.boot updateTimeoutHandler) as :=
  everyLiveStep_congr (boot_negotiatingInv h) (fun _ _ _ h _ step => h.step step)
    (fun _ a h => goesOn_iff h a) as

/-- The central connects with an interval outside the preferred range. -/
def slowLink : List NegotiatingAction :=
  [.central (.connect 0 ⟨24, 40, 0, 400⟩), .pull fun _ => nrfSuccess]

/-- The timer expires and the main loop comes to send the request. -/
def timeoutHandled (ticks : Nat) : List NegotiatingAction :=
  [.swi0 0, .tick ticks, .rtc1, .swi0 0] ++ List.replicate 11 .main

theorem slow_link_goes_on : EveryLiveStep negotiatingStep NegotiationGoesOn
    (NegotiatingDevice.boot 1) (slowLink ++ timeoutHandled 655360) := by
  refine (negotiation_goes_on_iff (by decide) _).mpr
    ⟨trivial, ?_, trivial, trivial, trivial, trivial, ?_, ?_, ?_, ?_, ?_, ?_, ?_, ?_, ?_, ?_, ?_, trivial⟩
  · intro e rest _ _
    exact Nat.zero_lt_succ 3
  all_goals
    show _ → (_ → _ ∧ _) ∧ (_ → _ ∧ _)
    decide

/-- The link is lost after `update_timeout_handler` has checked its handle. -/
def lostBeforeRequest : List NegotiatingAction :=
  slowLink ++ timeoutHandled 655360 ++ [.central .linkLoss, .pull fun _ => nrfSuccess]

/-- The request is refused for a handle that has become invalid since it was checked. -/
theorem lost_before_request_halts :
    ¬∀ updateTimeoutHandler : UInt32, updateTimeoutHandler ≠ 0 → ∀ as : List NegotiatingAction,
      EveryLiveStep negotiatingStep NegotiationGoesOn
        (NegotiatingDevice.boot updateTimeoutHandler) as := by
  intro h
  obtain ⟨d, run, handling, hrefused⟩ :
      ∃ d, runHalting negotiatingStep (NegotiatingDevice.boot 1) lostBeforeRequest = .ok d ∧
        d.host.Handling ∧ updateStep (timeoutPort d.mainAnswers d.host.app.mConnHandle
          d.host.connection) d.host.cp d.host.timer d.host.update =
            .error bleErrorInvalidConnHandle :=
    ⟨_, rfl, by decide, rfl⟩
  have hgoes : NegotiationGoesOn d .main :=
    (h 1 (by decide) (lostBeforeRequest ++ [.main])).last run
  obtain ⟨r, hr⟩ := hgoes handling
  rw [hrefused] at hr
  cases hr

end BleSpeedSensor
