import BleSpeedSensor.EventsInFlight

namespace BleSpeedSensor

def BleEvt.OnLink (e : BleEvt) : Prop := e.request?.isSome = true ∨ e.authStatus?.isSome = true

/-- The events in flight belong to one link: it is `fresh` until its connection is dispatched,
and `lost` from its end until that is. -/
structure OneLink (app : App) (sd : SoftDevice) (handle : ConnHandle) (connParams : GapConnParams)
    (fresh lost : Bool) (events : List BleEvt) : Prop where
  advertising : sd.advertising = false
  link : sd.link = if lost then none else some handle
  kept : app.mConnHandle = if fresh then bleConnHandleInvalid else handle
  queue : sd.queue = (if fresh then [.gapConnected handle connParams] else []) ++ events ++
    (if lost then [.gapDisconnected] else [])
  onLink : ∀ e ∈ events, e.OnLink
  pending : lost = false → sd.pending = events.filterMap BleEvt.request?

inductive FlightInv : App × SoftDevice → Prop
  | idle {app : App} {sd : SoftDevice} (kept : app.mConnHandle = bleConnHandleInvalid)
      (link : sd.link = none) (advertising : sd.advertising = true) (queue : sd.queue = []) :
      FlightInv (app, sd)
  | oneLink {app : App} {sd : SoftDevice} {handle : ConnHandle} {connParams : GapConnParams}
      {fresh lost : Bool} {events : List BleEvt}
      (h : OneLink app sd handle connParams fresh lost events) : FlightInv (app, sd)

theorem boot_flightInv : FlightInv (App.boot, SoftDevice.boot) := .idle rfl rfl rfl rfl

section OneLink

variable {app : App} {sd : SoftDevice} {handle : ConnHandle} {connParams : GapConnParams}
  {fresh lost : Bool} {events : List BleEvt}

theorem OneLink.raise (h : OneLink app sd handle connParams fresh false events) {e : BleEvt}
    (onLink : e.OnLink) {pending : List Request}
    (hpending : pending = (events ++ [e]).filterMap BleEvt.request?) :
    OneLink app ({ sd with pending := pending }.raise e) handle connParams fresh false
      (events ++ [e]) := by
  refine ⟨h.advertising, h.link, h.kept, ?_, ?_, fun _ => hpending⟩
  · simp [SoftDevice.raise, h.queue]
  · intro x hx
    rcases List.mem_append.mp hx with old | new
    · exact h.onLink x old
    · exact List.mem_singleton.mp new ▸ onLink

theorem OneLink.request (h : OneLink app sd handle connParams fresh lost events) {r : Request}
    {e : BleEvt} (he : e.request? = some r) : FlightInv (app, sd.request r e) := by
  unfold SoftDevice.request
  split
  next hraise =>
    cases lost with
    | true => simp [h.link] at hraise
    | false =>
      refine .oneLink (h.raise (Or.inl (by rw [he]; rfl)) ?_)
      simp [h.pending rfl, List.filterMap_append, he]
  next => exact .oneLink h

theorem OneLink.act (h : OneLink app sd handle connParams fresh lost events) (a : PeerAction) :
    FlightInv (app, sd.act a) := by
  cases a with
  | connect handle' connParams' =>
    rw [SoftDevice.act, h.advertising]
    exact .oneLink h
  | pairingRequest => exact h.request rfl
  | encryptionRequest div => exact h.request rfl
  | sysAttrAccess =>
    unfold SoftDevice.act
    dsimp only
    split
    · exact .oneLink h
    · exact h.request rfl
  | pairingEnd authStatus =>
    cases lost with
    | true =>
      rw [SoftDevice.act, h.link]
      exact .oneLink h
    | false =>
      rw [SoftDevice.act, h.link]
      have hsame : sd.pending = (events ++ [BleEvt.gapAuthStatus authStatus]).filterMap BleEvt.request? := by
        rw [List.filterMap_append, ← h.pending rfl]
        exact (List.append_nil sd.pending).symm
      exact .oneLink (h.raise (Or.inr rfl) hsame)
  | linkLoss =>
    cases lost with
    | true =>
      rw [SoftDevice.act, h.link]
      exact .oneLink h
    | false =>
      rw [SoftDevice.act, h.link]
      have hlost : OneLink app ({ sd with link := none, pending := [] }.raise .gapDisconnected)
          handle connParams fresh true events :=
        ⟨h.advertising, rfl, h.kept, by simp [SoftDevice.raise, h.queue], h.onLink,
          fun he => by cases he⟩
      exact .oneLink hlost

end OneLink

theorem FlightInv.act {app : App} {sd : SoftDevice} (h : FlightInv (app, sd)) (a : PeerAction) :
    FlightInv (app, sd.act a) := by
  cases h with
  | oneLink h => exact h.act a
  | idle kept link advertising queue =>
    cases a with
    | connect handle connParams =>
      rw [SoftDevice.act, advertising]
      refine .oneLink (show OneLink app _ handle connParams true false [] from
        ⟨rfl, rfl, kept, ?_, by simp, fun _ => rfl⟩)
      simp [SoftDevice.raise, queue]
    | pairingRequest | encryptionRequest _ =>
      simp only [SoftDevice.act, SoftDevice.request, link]
      exact .idle kept link advertising queue
    | sysAttrAccess =>
      simp only [SoftDevice.act, SoftDevice.request, link]
      split <;> exact .idle kept link advertising queue
    | pairingEnd _ | linkLoss =>
      rw [SoftDevice.act, link]
      exact .idle kept link advertising queue

end BleSpeedSensor
