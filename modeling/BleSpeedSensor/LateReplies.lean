import BleSpeedSensor.RunSystem
import BleSpeedSensor.LinkInFlight

namespace BleSpeedSensor

open RunSystem

/-- A request is answered only while the link it was raised on is still up. -/
def LinkUpAtReply (s : App × SoftDevice) (a : FlightAction) : Prop :=
  ∀ late e rest, a = .pull late → s.2.queue = e :: rest → e.request?.isSome = true →
    s.2.link.isSome = true

theorem pull_late {s : App × SoftDevice} (late : LateCode) {e : BleEvt} {rest : List BleEvt}
    (queue : s.2.queue = e :: rest) (request : e.request?.isSome = true) (down : s.2.link = none) :
    ∃ c, pullEvent late s = .error c := by
  obtain ⟨r, hr⟩ := Option.isSome_iff_exists.mp request
  obtain ⟨_, call, hcall, hsvc⟩ := onBleEvtCall_request s.1 hr
  obtain ⟨attrsSet, hanswer⟩ := hsvc late { s.2 with queue := rest }
  have hreply : SoftDevice.reply late { s.2 with queue := rest } r s.1.mConnHandle =
      (late.code, { s.2 with queue := rest }) := by simp [SoftDevice.reply, down]
  rw [hreply] at hanswer
  have hrefused : (SoftDevice.svc late { s.2 with queue := rest } call).1 ≠ nrfSuccess := by
    rw [hanswer]
    exact late.code_ne_success
  exact ⟨_, by simp only [pullEvent, queue]; exact onBleEvt_halts hcall hrefused⟩

section Pull

variable {app : App} {sd : SoftDevice} {handle : ConnHandle} {connParams : GapConnParams}
  {events : List BleEvt} {late : LateCode}

theorem OneLink.pull_request {e : BleEvt} {r : Request}
    (h : OneLink app sd handle connParams false false (e :: events)) (hr : e.request? = some r) :
    ∃ t, pullEvent late (app, sd) = .ok t ∧ FlightInv t := by
  obtain ⟨happ, call, hcall, hsvc⟩ := onBleEvtCall_request app hr
  obtain ⟨attrsSet, hanswer⟩ := hsvc late { sd with queue := events }
  have hkept : app.mConnHandle = handle := h.kept
  have hlink : sd.link = some handle := h.link
  have hpending : sd.pending = r :: events.filterMap BleEvt.request? := by
    simpa [hr] using h.pending rfl
  have hqueue : sd.queue = e :: events := by simpa using h.queue
  have hreply : SoftDevice.reply late { sd with queue := events } r app.mConnHandle =
      (nrfSuccess, { sd with queue := events, pending := events.filterMap BleEvt.request? }) := by
    simp [SoftDevice.reply, hlink, hkept, hpending]
  rw [hreply] at hanswer
  have hok : (SoftDevice.svc late { sd with queue := events } call).1 = nrfSuccess := by rw [hanswer]
  refine ⟨_, by simp only [pullEvent, hqueue]; exact onBleEvt_call hcall hok, ?_⟩
  rw [happ, hanswer]
  refine .oneLink (show OneLink app _ handle connParams false false events from
    ⟨h.advertising, hlink, hkept, by simp, fun x hx => h.onLink x (List.mem_cons_of_mem e hx),
      fun _ => rfl⟩)

theorem OneLink.pull_silent {e : BleEvt} {lost : Bool}
    (h : OneLink app sd handle connParams false lost (e :: events)) {a : GapEvtAuthStatus}
    (he : e.authStatus? = some a) : ∃ t, pullEvent late (app, sd) = .ok t ∧ FlightInv t := by
  obtain rfl : e = .gapAuthStatus a := by
    cases e <;> simp_all [BleEvt.authStatus?]
  have hqueue := h.queue
  simp only [Bool.false_eq_true, ↓reduceIte, List.nil_append, List.cons_append] at hqueue
  refine ⟨_, by simp only [pullEvent, hqueue]; exact onBleEvt_silent rfl, ?_⟩
  refine .oneLink (show OneLink _ _ handle connParams false lost events from
    ⟨h.advertising, h.link, h.kept, by simp, fun x hx => h.onLink x (List.mem_cons_of_mem _ hx),
      fun hl => ?_⟩)
  exact h.pending hl

theorem OneLink.pull_connected {lost : Bool}
    (h : OneLink app sd handle connParams true lost events) :
    ∃ t, pullEvent late (app, sd) = .ok t ∧ FlightInv t := by
  have hqueue := h.queue
  simp only [↓reduceIte, List.cons_append] at hqueue
  refine ⟨_, by simp only [pullEvent, hqueue]; exact onBleEvt_silent rfl, ?_⟩
  exact .oneLink (show OneLink _ _ handle connParams false lost events from
    ⟨h.advertising, h.link, rfl, by simp, h.onLink, h.pending⟩)

theorem OneLink.pull_disconnected (h : OneLink app sd handle connParams false true []) :
    ∃ t, pullEvent late (app, sd) = .ok t ∧ FlightInv t := by
  have hqueue : sd.queue = [.gapDisconnected] := by simpa using h.queue
  have hlink : sd.link = none := h.link
  have hsvc : SoftDevice.svc late { sd with queue := [] } (.gapAdvStart advertisingParams) =
      (nrfSuccess, { sd with queue := [], advertising := true }) := by
    simp [SoftDevice.svc, hlink, h.advertising]
  refine ⟨_, by simp only [pullEvent, hqueue]; exact onBleEvt_call rfl (by rw [hsvc]), ?_⟩
  rw [hsvc]
  exact .idle rfl hlink rfl rfl

end Pull

theorem FlightInv.pull {s : App × SoftDevice} {late : LateCode} (h : FlightInv s)
    (up : LinkUpAtReply s (.pull late)) : ∃ t, pullEvent late s = .ok t ∧ FlightInv t := by
  cases h with
  | idle kept link advertising queue =>
    exact ⟨_, by simp only [pullEvent, queue], .idle kept link advertising queue⟩
  | @oneLink app sd handle connParams fresh lost events h =>
    cases fresh with
    | true => exact h.pull_connected
    | false =>
      cases events with
      | nil =>
        cases lost with
        | true => exact h.pull_disconnected
        | false =>
          have hqueue : sd.queue = [] := by simpa using h.queue
          exact ⟨_, by simp only [pullEvent, hqueue], .oneLink h⟩
      | cons e events =>
        rcases h.onLink e (by simp) with request | status
        · have hlink := up late e _ rfl (by simpa using h.queue) request
          obtain ⟨r, hr⟩ := Option.isSome_iff_exists.mp request
          cases lost with
          | true => simp [h.link] at hlink
          | false => exact h.pull_request hr
        · obtain ⟨a, ha⟩ := Option.isSome_iff_exists.mp status
          exact h.pull_silent ha

theorem flightStep_inv {s : App × SoftDevice} {a : FlightAction} (h : FlightInv s)
    (up : LinkUpAtReply s a) : ∃ t, flightStep s a = .ok t ∧ FlightInv t := by
  cases a with
  | peer a => exact ⟨_, rfl, h.act a⟩
  | pull late => exact h.pull up

theorem flightStep_ok_iff {s : App × SoftDevice} (h : FlightInv s) (a : FlightAction) :
    (∃ t, flightStep s a = .ok t) ↔ LinkUpAtReply s a := by
  constructor
  · rintro ⟨t, ht⟩ late e rest rfl queue request
    refine Option.isSome_iff_ne_none.mpr fun down => ?_
    obtain ⟨c, hc⟩ := pull_late late queue request down
    cases hc.symm.trans ht
  · intro up
    obtain ⟨t, ht, _⟩ := flightStep_inv h up
    exact ⟨t, ht⟩

/-- Dispatching the events in flight is never fatal exactly as long as every request is pulled
while its link is up. -/
theorem late_replies_ok_iff (as : List FlightAction) :
    (∃ t, runHalting flightStep (App.boot, SoftDevice.boot) as = .ok t) ↔
      EveryLiveStep flightStep LinkUpAtReply (App.boot, SoftDevice.boot) as := by
  rw [runHalting_ok_iff]
  refine everyLiveStep_congr boot_flightInv (fun s a t h up step => ?_)
    (fun _ a h => flightStep_ok_iff h a) as
  obtain ⟨u, hu, hinv⟩ := flightStep_inv h up
  exact Except.ok.inj (hu.symm.trans step) ▸ hinv

/-- A pairing request overtaken by the loss of its link: the reply to it halts the device. -/
theorem overtaken_request_fatal :
    ¬∀ as : List FlightAction,
      ∃ t, runHalting flightStep (App.boot, SoftDevice.boot) as = .ok t := by
  intro h
  have halts : runHalting flightStep (App.boot, SoftDevice.boot)
      [.peer (.connect 0 ⟨24, 40, 0, 400⟩), .peer .pairingRequest, .peer .linkLoss,
        .pull .invalidState, .pull .invalidState] = .error nrfErrorInvalidState := rfl
  obtain ⟨t, ht⟩ := h _
  cases halts.symm.trans ht

end BleSpeedSensor
