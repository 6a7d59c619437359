import BleSpeedSensor.RunSystem
import BleSpeedSensor.MainBleEvt

namespace BleSpeedSensor

open RunSystem

def GapEvtAuthStatus.Bonded (a : GapEvtAuthStatus) : Prop :=
  a.authStatus = bleGapSecStatusSuccess ∧ a.periphKex.ltk = true

def lastAuthStatus? (past : List BleEvt) : Option GapEvtAuthStatus :=
  (past.filterMap BleEvt.authStatus?).getLast?

def storedEncInfo (past : List BleEvt) : GapEncInfo :=
  ((lastAuthStatus? past).getD GapEvtAuthStatus.zero).encInfo

theorem lastAuthStatus?_append (before mid : List BleEvt) :
    lastAuthStatus? (before ++ mid) = (lastAuthStatus? mid).or (lastAuthStatus? before) := by
  unfold lastAuthStatus?
  rw [List.filterMap_append, List.getLast?_append]

theorem lastAuthStatus?_bond (b : GapEvtAuthStatus) :
    lastAuthStatus? [.gapAuthStatus b] = some b := rfl

variable {σ : Type} {svc : σ → SdCall → ErrCode × σ}

def bleEvtStep (svc : σ → SdCall → ErrCode × σ) (s : App × σ) (e : BleEvt) :
    Except ErrCode (App × σ) :=
  onBleEvt svc s.1 s.2 e

theorem onBleEvtCall_authStatus (app : App) (e : BleEvt) :
    (onBleEvtCall app e).1.mAuthStatus = e.authStatus?.getD app.mAuthStatus := by
  cases e with
  | gapSecInfoRequest div =>
    unfold onBleEvtCall
    dsimp only
    split <;> rfl
  | gapTimeout src =>
    unfold onBleEvtCall
    dsimp only
    split <;> rfl
  | gapConnected _ _ | gapDisconnected | gapConnParamUpdate _ | gapSecParamsRequest
  | gapAuthStatus _ | gattsWrite _ _ | gattsSysAttrMissing | other => rfl

theorem run_authStatus {app app' : App} {w w' : σ} {past : List BleEvt}
    (run : runHalting (bleEvtStep svc) (app, w) past = .ok (app', w')) :
    app'.mAuthStatus = (lastAuthStatus? past).getD app.mAuthStatus := by
  induction past generalizing app w with
  | nil =>
    cases run
    rfl
  | cons e past ih =>
    rw [runHalting_cons] at run
    cases hs : bleEvtStep svc (app, w) e with
    | error c =>
      rw [hs] at run
      cases run
    | ok s =>
      rw [hs] at run
      have happ : s.1 = (onBleEvtCall app e).1 := (onBleEvt_ok hs).1
      have hsplit : e :: past = [e] ++ past := rfl
      rw [ih run, happ, onBleEvtCall_authStatus, hsplit, lastAuthStatus?_append]
      cases lastAuthStatus? past with
      | some a => rfl
      | none => cases he : e.authStatus? <;> simp [lastAuthStatus?, he]

theorem answer_found {app : App} {div : UInt16} (h : app.mAuthStatus.encInfo.div = div) :
    (onBleEvtCall app (.gapSecInfoRequest div)).2 =
      some (.gapSecInfoReply app.mConnHandle (some app.mAuthStatus.encInfo)) := by
  simp [onBleEvtCall, h]

theorem answer_not_found {app : App} {div : UInt16} (h : app.mAuthStatus.encInfo.div ≠ div) :
    (onBleEvtCall app (.gapSecInfoRequest div)).2 =
      some (.gapSecInfoReply app.mConnHandle none) := by
  simp [onBleEvtCall, h]

/-- A key answered to a request for `div` is one that a successful bonding delivered. -/
def AnswersBonded (past : List BleEvt) (app : App) (div : UInt16) : Prop :=
  ∀ handle encInfo,
    (onBleEvtCall app (.gapSecInfoRequest div)).2 = some (.gapSecInfoReply handle (some encInfo)) →
      ∃ a, .gapAuthStatus a ∈ past ∧ a.Bonded ∧ a.encInfo = encInfo ∧ encInfo.div = div

/-- After any events only bonded keys are handed out exactly if the diversifier asked for is not
the one kept, or the key kept was delivered by some successful bonding. -/
theorem answers_bonded_iff {app : App} {w₀ w : σ} {past : List BleEvt}
    (run : runHalting (bleEvtStep svc) (App.boot, w₀) past = .ok (app, w)) (div : UInt16) :
    AnswersBonded past app div ↔ ((storedEncInfo past).div = div →
      ∃ a, .gapAuthStatus a ∈ past ∧ a.Bonded ∧ a.encInfo = storedEncInfo past) := by
  have hkept : app.mAuthStatus.encInfo = storedEncInfo past :=
    congrArg GapEvtAuthStatus.encInfo (run_authStatus run)
  constructor
  · intro bonded hdiv
    obtain ⟨a, ha, hb, he, _⟩ := bonded _ _ (answer_found (hkept ▸ hdiv))
    exact ⟨a, ha, hb, he.trans hkept⟩
  · intro cond handle encInfo answer
    by_cases hdiv : app.mAuthStatus.encInfo.div = div
    · rw [answer_found hdiv] at answer
      cases answer
      obtain ⟨a, ha, hb, he⟩ := cond (hkept ▸ hdiv)
      exact ⟨a, ha, hb, he.trans hkept.symm, hdiv⟩
    · rw [answer_not_found hdiv] at answer
      cases answer

/-- A SoftDevice with every call made in a state that allows it. -/
def acceptingSvc (w : Unit) (_ : SdCall) : ErrCode × Unit := (nrfSuccess, w)

def bondOfPeer : GapEvtAuthStatus :=
  ⟨bleGapSecStatusSuccess, 0, ⟨true, false, false, false, false⟩, ⟨false, false, false, false, false⟩,
    ⟨7, Vector.replicate 16 9, false, 16⟩⟩

def peerConnected : BleEvt := .gapConnected 0 ⟨24, 40, 0, 400⟩

theorem answers_bonded_after_bonding :
    AnswersBonded [peerConnected, .gapAuthStatus bondOfPeer, .gapDisconnected, peerConnected]
      ⟨0, bondOfPeer, secParamsInit⟩ 7 := by
  have run : runHalting (bleEvtStep acceptingSvc) (App.boot, ())
      [peerConnected, .gapAuthStatus bondOfPeer, .gapDisconnected, peerConnected] =
        .ok (⟨0, bondOfPeer, secParamsInit⟩, ()) := rfl
  exact (answers_bonded_iff run 7).mpr fun _ => ⟨bondOfPeer, by simp, ⟨rfl, rfl⟩, rfl⟩

theorem zero_key_handed_out :
    ¬∀ (past : List BleEvt) (app : App) (div : UInt16),
      runHalting (bleEvtStep acceptingSvc) (App.boot, ()) past = .ok (app, ()) →
        AnswersBonded past app div := by
  intro h
  obtain ⟨a, ha, _⟩ := h [peerConnected] _ 0 rfl 0 GapEncInfo.zero rfl
  simp [peerConnected] at ha

/-- `b` is the last successful bonding of `past`, and `mid` are the events since. -/
structure SinceBond (past : List BleEvt) (b : GapEvtAuthStatus) (mid : List BleEvt) : Prop where
  split : ∃ before, past = before ++ .gapAuthStatus b :: mid
  bonded : b.Bonded
  last : ∀ a, .gapAuthStatus a ∈ mid → ¬a.Bonded

def AnswersBond (app : App) (b : GapEvtAuthStatus) : Prop :=
  (onBleEvtCall app (.gapSecInfoRequest b.encInfo.div)).2 =
    some (.gapSecInfoReply app.mConnHandle (some b.encInfo))

/-- The bond is answered with its key exactly as long as the authentication reported last since,
if any, carries that same key. -/
theorem answers_bond_iff {app : App} {w₀ w : σ} {past mid : List BleEvt} {b : GapEvtAuthStatus}
    (run : runHalting (bleEvtStep svc) (App.boot, w₀) past = .ok (app, w))
    (since : SinceBond past b mid) :
    AnswersBond app b ↔ ∀ a, lastAuthStatus? mid = some a → a.encInfo = b.encInfo := by
  obtain ⟨before, rfl⟩ := since.split
  have hkept : app.mAuthStatus = (lastAuthStatus? mid).getD b := by
    have hsplit : before ++ .gapAuthStatus b :: mid = (before ++ [.gapAuthStatus b]) ++ mid := by simp
    rw [run_authStatus run, hsplit, lastAuthStatus?_append, lastAuthStatus?_append,
      lastAuthStatus?_bond]
    cases lastAuthStatus? mid <;> rfl
  have hanswer : AnswersBond app b ↔ app.mAuthStatus.encInfo = b.encInfo := by
    unfold AnswersBond
    by_cases hdiv : app.mAuthStatus.encInfo.div = b.encInfo.div
    · rw [answer_found hdiv]
      simp
    · rw [answer_not_found hdiv]
      exact iff_of_false (by simp) fun he => hdiv (congrArg GapEncInfo.div he)
  rw [hanswer, hkept]
  cases lastAuthStatus? mid with
  | none => simp
  | some a => simp

def failedPairing : GapEvtAuthStatus := { GapEvtAuthStatus.zero with authStatus := 0x85 }

theorem answers_bond_after_reconnection :
    AnswersBond ⟨0, bondOfPeer, secParamsInit⟩ bondOfPeer := by
  have run : runHalting (bleEvtStep acceptingSvc) (App.boot, ())
      [peerConnected, .gapAuthStatus bondOfPeer, .gapDisconnected, peerConnected] =
        .ok (⟨0, bondOfPeer, secParamsInit⟩, ()) := rfl
  have since : SinceBond [peerConnected, .gapAuthStatus bondOfPeer, .gapDisconnected, peerConnected]
      bondOfPeer [.gapDisconnected, peerConnected] :=
    ⟨⟨[peerConnected], rfl⟩, ⟨rfl, rfl⟩, by simp [peerConnected]⟩
  have none_since : lastAuthStatus? [.gapDisconnected, peerConnected] = none := rfl
  exact (answers_bond_iff run since).mpr fun a ha => by cases none_since.symm.trans ha

/-- A failed pairing replaces the bonded key: the bonded peer is told there is none. -/
theorem bond_lost_to_failed_pairing :
    ¬∀ (past mid : List BleEvt) (b : GapEvtAuthStatus) (app : App),
      runHalting (bleEvtStep acceptingSvc) (App.boot, ()) past = .ok (app, ()) →
        SinceBond past b mid → AnswersBond app b := by
  intro h
  have since : SinceBond [peerConnected, .gapAuthStatus bondOfPeer, .gapAuthStatus failedPairing]
      bondOfPeer [.gapAuthStatus failedPairing] := by
    refine ⟨⟨[peerConnected], rfl⟩, ⟨rfl, rfl⟩, fun a ha => ?_⟩
    obtain rfl : a = failedPairing := by simpa using ha
    exact fun bonded => absurd bonded.1 (by decide)
  have answer : AnswersBond ⟨0, failedPairing, secParamsInit⟩ bondOfPeer := h _ _ _ _ rfl since
  unfold AnswersBond at answer
  exact absurd answer (by decide)

end BleSpeedSensor
