import BleSpeedSensor.PortFrame
import BleSpeedSensor.RunSystem

namespace BleSpeedSensor

open RunSystem

/-- The calls that `ble_conn_params_init` and a change of the parameters make beside the others. -/
structure PpcpPort (σ : Type) extends ConnParamsPort σ where
  ppcpSet : GapConnParams → σ → ErrCode × σ
  ppcpGet : σ → ErrCode × GapConnParams × σ
  timerCreate : σ → ErrCode × σ

section Module

variable {σ : Type} (port : PpcpPort σ)

def bleConnParamsInit (cp : ConnParams) (init : ConnParamsConfig) (connParams : Option GapConnParams)
    (w : σ) : ErrCode × ConnParams × σ :=
  let r : ErrCode × GapConnParams × σ := match connParams with
    | some connParams => ((port.ppcpSet connParams w).1, connParams, (port.ppcpSet connParams w).2)
    | none => port.ppcpGet w
  let cp := { cp with config := init, changeParam := false, preferredConnParams := r.2.1 }
  if r.1 ≠ nrfSuccess then (r.1, cp, r.2.2)
  else
    let t := port.timerCreate r.2.2
    (t.1, { cp with connHandle := bleConnHandleInvalid, updateCount := 0 }, t.2)

def bleConnParamsStop (w : σ) : ErrCode × σ := port.timerStop w

def bleConnParamsChangeConnParams (cp : ConnParams) (newParams : GapConnParams) (w : σ) :
    Except ErrCode (ErrCode × ConnParams × σ) :=
  let cp := { cp with preferredConnParams := newParams }
  let r := port.ppcpSet newParams w
  if r.1 = nrfSuccess then
    if !isConnParamsOk cp.preferredConnParams cp.currentConnParams then
      -- the request may fail, the flag stays
      let u := port.connParamUpdate cp.connHandle cp.preferredConnParams r.2
      .ok (u.1, { cp with changeParam := true, updateCount := 1 }, u.2)
    else (port.evtHandler .succeeded r.2).map fun w => (nrfSuccess, cp, w)
  else .ok (r.1, cp, r.2)

inductive ConnParamsAct
  | ble (e : BleEvt)
  | timeout
  | change (newParams : GapConnParams)
  | stop

def connParamsStep (s : ConnParams × σ) : ConnParamsAct → Except ErrCode (ConnParams × σ)
  | .ble e => bleConnParamsOnBleEvt port.toConnParamsPort s.1 s.2 e
  | .timeout => updateTimeoutHandler port.toConnParamsPort s.1 s.2
  | .change newParams => (bleConnParamsChangeConnParams port s.1 newParams s.2).map fun r => r.2
  | .stop => .ok (s.1, (bleConnParamsStop port s.2).2)

end Module

/-- What main.c configures is the state the runs of the program start from. -/
theorem bleConnParamsInit_boot {σ : Type} {port : PpcpPort σ} {cp : ConnParams} {w : σ}
    (hok : (port.ppcpGet w).1 = nrfSuccess) (hget : (port.ppcpGet w).2.1 = gapConnParams) :
    (bleConnParamsInit port cp cpInit none w).2.1 =
      { ConnParams.boot with currentConnParams := cp.currentConnParams } := by
  unfold bleConnParamsInit
  simp only [hok, hget, ne_eq, not_true_eq_false, if_false]
  rfl

/-- The requests sent, the failures told to the application and the starts of the timer. -/
structure Counted (σ : Type) where
  world : σ
  requests : Nat
  failures : Nat
  starts : Nat

def counting {σ : Type} (port : PpcpPort σ) : PpcpPort (Counted σ) where
  connParamUpdate connHandle connParams n :=
    let r := port.connParamUpdate connHandle connParams n.world
    (r.1, { n with world := r.2, requests := n.requests + 1 })
  disconnect connHandle reason n :=
    let r := port.disconnect connHandle reason n.world
    (r.1, { n with world := r.2 })
  timerStart timeoutTicks n :=
    let r := port.timerStart timeoutTicks n.world
    (r.1, { n with world := r.2, starts := n.starts + 1 })
  timerStop n :=
    let r := port.timerStop n.world
    (r.1, { n with world := r.2 })
  evtHandler evt n := (port.evtHandler evt n.world).map fun w => match evt with
    | .failed => { n with world := w, failures := n.failures + 1 }
    | .succeeded => { n with world := w }
  ppcpSet connParams n :=
    let r := port.ppcpSet connParams n.world
    (r.1, { n with world := r.2 })
  ppcpGet n :=
    let r := port.ppcpGet n.world
    (r.1, r.2.1, { n with world := r.2.2 })
  timerCreate n :=
    let r := port.timerCreate n.world
    (r.1, { n with world := r.2 })

/-- What neither begins nor ends a connection nor asks for other parameters. -/
def ConnParamsAct.sameConnection : ConnParamsAct → Bool
  | .ble (.gapConnected _ _) | .ble .gapDisconnected | .change _ => false
  | _ => true

def timeouts (as : List ConnParamsAct) : Nat :=
  (as.filter fun a => match a with | .timeout => true | _ => false).length

section Law

variable {σ : Type} {port : PpcpPort σ} {cp cp' : ConnParams} {n n' : Counted σ}

theorem counting_negotiation (h : cp.changeParam = false)
    (run : connParamsNegotiation (counting port).toConnParamsPort cp n = .ok (cp', n')) :
    cp' = cp ∧ n'.requests = n.requests ∧ n'.failures = n.failures := by
  have hcp : cp' = cp := connParamsNegotiation_cp h run
  refine ⟨hcp, ?_⟩
  obtain ⟨m, hcall, hm⟩ := ok_of_map run
  obtain rfl : m = n' := congrArg Prod.snd hm
  unfold negotiationCall at hcall
  rw [h] at hcall
  split at hcall
  · obtain ⟨-, rfl⟩ := errorHandled_ok hcall
    exact ⟨rfl, rfl⟩
  · obtain ⟨w, -, rfl⟩ := ok_of_map hcall
    exact ⟨rfl, rfl⟩

theorem counting_stopped
    (run : (errorHandled ((counting port).timerStop n)).map (fun n => (cp, n)) = .ok (cp', n')) :
    cp' = cp ∧ n'.requests = n.requests ∧ n'.failures = n.failures := by
  obtain ⟨m, hcall, hm⟩ := ok_of_map run
  obtain ⟨-, rfl⟩ := errorHandled_ok hcall
  cases hm
  exact ⟨rfl, rfl, rfl⟩

/-- An event on the connection sends nothing and leaves the count of requests alone. -/
theorem counting_ble (h : cp.changeParam = false) {e : BleEvt}
    (he : (ConnParamsAct.ble e).sameConnection = true)
    (run : connParamsStep (counting port) (cp, n) (.ble e) = .ok (cp', n')) :
    cp'.updateCount = cp.updateCount ∧ cp'.connHandle = cp.connHandle ∧ cp'.config = cp.config ∧
      cp'.changeParam = false ∧ n'.requests = n.requests ∧ n'.failures = n.failures := by
  have hsame : ∀ {q : ConnParams}, q = cp → q.updateCount = cp.updateCount ∧
      q.connHandle = cp.connHandle ∧ q.config = cp.config ∧ q.changeParam = false := by
    rintro q rfl
    exact ⟨rfl, rfl, rfl, h⟩
  unfold connParamsStep at run
  cases e with
  | gapConnected connHandle connParams => cases he
  | gapDisconnected => cases he
  | gattsWrite handle data =>
    simp only [bleConnParamsOnBleEvt, onWrite] at run
    split at run
    · split at run
      · obtain ⟨hcp, hcounts⟩ := counting_negotiation h run
        obtain ⟨h₁, h₂, h₃, h₄⟩ := hsame hcp
        exact ⟨h₁, h₂, h₃, h₄, hcounts⟩
      · obtain ⟨hcp, hcounts⟩ := counting_stopped run
        obtain ⟨h₁, h₂, h₃, h₄⟩ := hsame hcp
        exact ⟨h₁, h₂, h₃, h₄, hcounts⟩
    · cases run
      exact ⟨rfl, rfl, rfl, h, rfl, rfl⟩
  | gapConnParamUpdate connParams =>
    simp only [bleConnParamsOnBleEvt, onConnParamsUpdate] at run
    have hkept : ({ cp with currentConnParams := connParams } : ConnParams).changeParam = false := h
    obtain ⟨rfl, hcounts⟩ := counting_negotiation hkept run
    exact ⟨rfl, rfl, rfl, h, hcounts⟩
  | gapSecParamsRequest | gapSecInfoRequest _ | gapAuthStatus _ | gapTimeout _ | gattsSysAttrMissing
  | other =>
    cases run
    exact ⟨rfl, rfl, rfl, h, rfl, rfl⟩

/-- A timeout on the connection sends a request or tells of the failure; the count is one of
`uint8_t`. -/
theorem counting_timeout (hup : cp.connHandle ≠ bleConnHandleInvalid)
    (run : connParamsStep (counting port) (cp, n) .timeout = .ok (cp', n')) :
    cp'.connHandle = cp.connHandle ∧ cp'.config = cp.config ∧ cp'.changeParam = cp.changeParam ∧
      (if cp.updateCount + 1 ≤ cp.config.maxConnParamsUpdateCount then
        cp'.updateCount = cp.updateCount + 1 ∧ n'.requests = n.requests + 1 ∧
          n'.failures = n.failures
      else cp'.updateCount = 0 ∧ n'.requests = n.requests ∧ n'.failures = n.failures + 1) := by
  obtain ⟨hhandle, hconfig, hchange⟩ := updateTimeoutHandler_unchanged run
  refine ⟨hhandle, hconfig, hchange, ?_⟩
  unfold connParamsStep updateTimeoutHandler updateOrFail at run
  rw [if_pos hup] at run
  dsimp only at run
  split at run
  next hle =>
    rw [if_pos hle]
    obtain ⟨w, hcall, hpure⟩ := ok_of_bind run
    obtain ⟨-, rfl⟩ := errorHandled_ok hcall
    cases hpure
    exact ⟨rfl, rfl, rfl⟩
  next hgt =>
    rw [if_neg hgt]
    obtain ⟨m, hrequests, hfailures, run⟩ : ∃ m : Counted σ, m.requests = n.requests ∧
        m.failures = n.failures ∧ ((counting port).evtHandler .failed m).bind
          (fun m => .ok ({ cp with updateCount := 0 }, m)) = .ok (cp', n') := by
      split at run
      · obtain ⟨m, hdrop, run⟩ := ok_of_bind run
        obtain ⟨-, rfl⟩ := errorHandled_ok hdrop
        exact ⟨((counting port).disconnect cp.connHandle bleHciConnIntervalUnacceptable n).2, rfl, rfl,
          run⟩
      · exact ⟨n, rfl, rfl, run⟩
    obtain ⟨m', hevt, hpure⟩ := ok_of_bind run
    obtain ⟨w, -, rfl⟩ := ok_of_map hevt
    cases hpure
    exact ⟨rfl, hrequests, congrArg (· + 1) hfailures⟩

theorem timeouts_timeout (as : List ConnParamsAct) : timeouts (.timeout :: as) = timeouts as + 1 := rfl

/-- The failures told of by `k` timeouts when `sent` requests are counted already. -/
def failuresAfter (config : ConnParamsConfig) (sent k : Nat) : Nat :=
  if config.maxConnParamsUpdateCount = 255 then 0
  else (sent + k) / (config.maxConnParamsUpdateCount.toNat + 1)

theorem failuresAfter_request {config : ConnParamsConfig} {sent k : Nat} :
    failuresAfter config (sent + 1) k = failuresAfter config sent (k + 1) := by
  unfold failuresAfter
  rw [Nat.add_right_comm, Nat.add_assoc]

/-- A failure starts the count again. -/
theorem failuresAfter_failure {config : ConnParamsConfig} {k : Nat}
    (h : config.maxConnParamsUpdateCount ≠ 255) :
    failuresAfter config config.maxConnParamsUpdateCount.toNat (k + 1) =
      failuresAfter config 0 k + 1 := by
  unfold failuresAfter
  rw [if_neg h, if_neg h]
  have hsum : config.maxConnParamsUpdateCount.toNat + (k + 1) =
      k + (config.maxConnParamsUpdateCount.toNat + 1) := by omega
  rw [hsum, Nat.add_div_right _ (Nat.succ_pos _), Nat.zero_add]

theorem failuresAfter_none {config : ConnParamsConfig} {sent : Nat}
    (h : sent ≤ config.maxConnParamsUpdateCount.toNat) : failuresAfter config sent 0 = 0 := by
  unfold failuresAfter
  split
  · rfl
  · exact Nat.div_eq_of_lt (Nat.lt_succ_of_le h)

/-- The count of `uint8_t` against its bound. -/
theorem nextCount_le_iff {count most : UInt8} (h : count.toNat ≤ most.toNat) :
    count + 1 ≤ most ↔ most = 255 ∨ count.toNat ≠ most.toNat := by
  have hone : (1 : UInt8).toNat = 1 := rfl
  have hmax : (255 : UInt8).toNat = 255 := rfl
  have hlt := most.toNat_lt
  rw [UInt8.le_iff_toNat_le, UInt8.toNat_add, hone, ← UInt8.toNat_inj, hmax]
  omega

theorem failuresAfter_counted {config : ConnParamsConfig} {count : UInt8} {k : Nat}
    (h : count.toNat ≤ config.maxConnParamsUpdateCount.toNat)
    (hle : count + 1 ≤ config.maxConnParamsUpdateCount) :
    failuresAfter config (count + 1).toNat k = failuresAfter config count.toNat (k + 1) := by
  by_cases hmax : config.maxConnParamsUpdateCount = 255
  · unfold failuresAfter
    rw [if_pos hmax, if_pos hmax]
  · have hne := ((nextCount_le_iff h).mp hle).resolve_left hmax
    have hone : (1 : UInt8).toNat = 1 := rfl
    have hlt := config.maxConnParamsUpdateCount.toNat_lt
    have hsucc : (count + 1).toNat = count.toNat + 1 := by
      rw [UInt8.toNat_add, hone]
      omega
    rw [hsucc]
    exact failuresAfter_request

theorem connParamsRun_counts (port : PpcpPort σ) {as : List ConnParamsAct}
    (hup : cp.connHandle ≠ bleConnHandleInvalid)
    (hcount : cp.updateCount.toNat ≤ cp.config.maxConnParamsUpdateCount.toNat)
    (hchange : cp.changeParam = false) (hsame : ∀ a ∈ as, a.sameConnection = true)
    (run : runHalting (connParamsStep (counting port)) (cp, n) as = .ok (cp', n')) :
    n'.requests + n'.failures = n.requests + n.failures + timeouts as ∧
      n'.failures = n.failures + failuresAfter cp.config cp.updateCount.toNat (timeouts as) := by
  induction as generalizing cp n with
  | nil =>
    cases run
    have hnone : failuresAfter cp'.config cp'.updateCount.toNat (timeouts []) = 0 :=
      failuresAfter_none hcount
    rw [hnone]
    exact ⟨rfl, rfl⟩
  | cons a as ih =>
    rw [runHalting_cons] at run
    obtain ⟨⟨cp₁, n₁⟩, hstep, hrun⟩ := ok_of_bind run
    have hrest := fun x hx => hsame x (List.mem_cons_of_mem a hx)
    cases a with
    | ble e =>
      obtain ⟨hc, hh, hcfg, hch, hr, hf⟩ := counting_ble hchange (hsame _ List.mem_cons_self) hstep
      obtain ⟨hsum, hfail⟩ := ih (hh ▸ hup) (by rw [hc, hcfg]; exact hcount) hch hrest hrun
      rw [hr, hf] at hsum
      rw [hf, hc, hcfg] at hfail
      exact ⟨hsum, hfail⟩
    | change newParams =>
      have hno := hsame _ List.mem_cons_self
      cases hno
    | stop =>
      cases hstep
      have hkept := @ih cp (bleConnParamsStop (counting port) n).2 hup hcount hchange hrest hrun
      exact hkept
    | timeout =>
      obtain ⟨hh, hcfg, hch, hcases⟩ := counting_timeout hup hstep
      rw [timeouts_timeout]
      have hnext := @nextCount_le_iff cp.updateCount cp.config.maxConnParamsUpdateCount hcount
      by_cases hle : cp.updateCount + 1 ≤ cp.config.maxConnParamsUpdateCount
      · rw [if_pos hle] at hcases
        obtain ⟨hc, hr, hf⟩ := hcases
        obtain ⟨hsum, hfail⟩ := ih (hh ▸ hup) (by rw [hc, hcfg]; exact UInt8.le_iff_toNat_le.mp hle)
          (hch.trans hchange) hrest hrun
        rw [hr, hf] at hsum
        rw [hf, hcfg, hc] at hfail
        refine ⟨by omega, hfail.trans (congrArg (n.failures + ·) ?_)⟩
        exact failuresAfter_counted hcount hle
      · rw [if_neg hle] at hcases
        obtain ⟨hc, hr, hf⟩ := hcases
        obtain ⟨hmax, hfull⟩ := not_or.mp (fun h => hle (hnext.mpr h))
        obtain ⟨hsum, hfail⟩ := ih (hh ▸ hup) (by rw [hc]; exact Nat.zero_le _)
          (hch.trans hchange) hrest hrun
        rw [hr, hf] at hsum
        rw [hf, hcfg, hc] at hfail
        refine ⟨by omega, hfail.trans ?_⟩
        rw [Decidable.not_not.mp hfull, failuresAfter_failure hmax, Nat.add_assoc, Nat.add_comm 1]
        rfl

/-- On one connection, whatever is reported and reconfigured in between: of the timeouts every one
past the allowed requests tells of the failure and the others send a request; the count wraps before
it can pass 255, and then no timeout ever tells of one. -/
theorem connParamsRun_requests (port : PpcpPort σ) {as : List ConnParamsAct}
    (hup : cp.connHandle ≠ bleConnHandleInvalid) (hcount : cp.updateCount = 0)
    (hchange : cp.changeParam = false) (hsame : ∀ a ∈ as, a.sameConnection = true)
    (run : runHalting (connParamsStep (counting port)) (cp, n) as = .ok (cp', n')) :
    n'.requests + n'.failures = n.requests + n.failures + timeouts as ∧
      n'.failures = n.failures +
        if cp.config.maxConnParamsUpdateCount = 255 then 0
        else timeouts as / (cp.config.maxConnParamsUpdateCount.toNat + 1) := by
  have hzero : cp.updateCount.toNat = 0 := by
    rw [hcount]
    rfl
  obtain ⟨hsum, hfail⟩ := connParamsRun_counts port hup (by rw [hzero]; exact Nat.zero_le _) hchange
    hsame run
  refine ⟨hsum, hfail.trans ?_⟩
  unfold failuresAfter
  rw [hzero, Nat.zero_add]

/-- A SoftDevice that accepts every call and an application that only listens. -/
def acceptingPort : PpcpPort Unit where
  connParamUpdate _ _ _ := (nrfSuccess, ())
  disconnect _ _ _ := (nrfSuccess, ())
  timerStart _ _ := (nrfSuccess, ())
  timerStop _ := (nrfSuccess, ())
  evtHandler _ _ := .ok ()
  ppcpSet _ _ := (nrfSuccess, ())
  ppcpGet _ := (nrfSuccess, gapConnParams, ())
  timerCreate _ := (nrfSuccess, ())

/-- The second of two failures is told of at the eighth timeout. -/
theorem connParamsRun_requests_eight : ∃ s,
    runHalting (connParamsStep (counting acceptingPort))
      ({ ConnParams.boot with connHandle := 0 }, ⟨(), 0, 0, 0⟩)
      (List.replicate 8 .timeout) = .ok s ∧ s.2.failures = 0 + 8 / (3 + 1) :=
  ⟨_, rfl, (@connParamsRun_requests Unit { ConnParams.boot with connHandle := 0 } _ ⟨(), 0, 0, 0⟩ _
    acceptingPort (List.replicate 8 .timeout) (by decide) rfl rfl (by decide) rfl).2⟩

/-- What does not make the module judge the parameters of a connection when it starts on connect. -/
def ConnParamsAct.judgesNothing : ConnParamsAct → Bool
  | .ble (.gapConnected _ _) | .ble (.gapConnParamUpdate _) | .change _ => false
  | .ble (.gattsWrite handle _) => handle ≠ bleGattHandleInvalid
  | _ => true

/-- A change is asked for, of these parameters, and the module is to start on connect. -/
structure ChangePending (newParams : GapConnParams) (cp : ConnParams) : Prop where
  flag : cp.changeParam = true
  preferred : cp.preferredConnParams = newParams
  atConnect : cp.config.startOnNotifyCccdHandle = bleGattHandleInvalid

variable {newParams : GapConnParams}

theorem ChangePending.ble (h : ChangePending newParams cp) {e : BleEvt}
    (he : (ConnParamsAct.ble e).judgesNothing = true)
    (run : connParamsStep (counting port) (cp, n) (.ble e) = .ok (cp', n')) :
    ChangePending newParams cp' := by
  unfold connParamsStep at run
  cases e with
  | gapConnected connHandle connParams => cases he
  | gapConnParamUpdate connParams => cases he
  | gapDisconnected =>
    obtain ⟨m, -, hm⟩ := ok_of_map run
    cases hm
    exact ⟨h.flag, h.preferred, h.atConnect⟩
  | gattsWrite handle data =>
    have hother : handle ≠ bleGattHandleInvalid := of_decide_eq_true he
    have hne : ¬(handle = cp.config.startOnNotifyCccdHandle ∧ data.length = 2) := by
      rw [h.atConnect]
      exact fun hw => hother hw.1
    simp only [bleConnParamsOnBleEvt, onWrite, if_neg hne] at run
    cases run
    exact h
  | gapSecParamsRequest | gapSecInfoRequest _ | gapAuthStatus _ | gapTimeout _ | gattsSysAttrMissing
  | other =>
    cases run
    exact h

theorem ChangePending.timeout (h : ChangePending newParams cp)
    (run : connParamsStep (counting port) (cp, n) .timeout = .ok (cp', n')) :
    ChangePending newParams cp' := by
  obtain hsame | ⟨w, -, hsame⟩ | ⟨w₁, w₂, -, -, hsame⟩ := updateTimeoutHandler_cases run
  · cases hsame
    exact h
  · cases hsame
    exact ⟨h.flag, h.preferred, h.atConnect⟩
  · cases hsame
    exact ⟨h.flag, h.preferred, h.atConnect⟩

theorem ChangePending.run (h : ChangePending newParams cp) {as : List ConnParamsAct}
    (hquiet : ∀ a ∈ as, a.judgesNothing = true)
    (run : runHalting (connParamsStep (counting port)) (cp, n) as = .ok (cp', n')) :
    ChangePending newParams cp' := by
  induction as generalizing cp n with
  | nil =>
    cases run
    exact h
  | cons a as ih =>
    rw [runHalting_cons] at run
    obtain ⟨⟨cp₁, n₁⟩, hstep, hrun⟩ := ok_of_bind run
    refine ih ?_ (fun x hx => hquiet x (List.mem_cons_of_mem a hx)) hrun
    have hfirst := hquiet a List.mem_cons_self
    cases a with
    | ble e => exact h.ble hfirst hstep
    | change newParams => cases hfirst
    | stop =>
      cases hstep
      exact h
    | timeout => exact h.timeout hstep

theorem changeConnParams_pending
    (hcccd : cp.config.startOnNotifyCccdHandle = bleGattHandleInvalid)
    (hset : (port.ppcpSet newParams n.world).1 = nrfSuccess)
    (hbad : isConnParamsOk newParams cp.currentConnParams = false)
    (run : connParamsStep (counting port) (cp, n) (.change newParams) = .ok (cp', n')) :
    ChangePending newParams cp' := by
  have hset' : ((counting port).ppcpSet newParams n).1 = nrfSuccess := hset
  obtain ⟨r, hchange, hr⟩ := ok_of_map run
  unfold bleConnParamsChangeConnParams at hchange
  rw [if_pos hset', hbad] at hchange
  cases hchange
  cases hr
  exact ⟨rfl, rfl, hcccd⟩

/-- Parameters that are not acceptable on connect with a change pending are a failure at once. -/
theorem ChangePending.connected (h : ChangePending newParams cp) {connHandle : ConnHandle}
    {connParams : GapConnParams} (hbad : isConnParamsOk newParams connParams = false)
    (run : connParamsStep (counting port) (cp, n) (.ble (.gapConnected connHandle connParams)) =
      .ok (cp', n')) :
    n'.failures = n.failures + 1 ∧ n'.requests = n.requests ∧ n'.starts = n.starts := by
  unfold connParamsStep at run
  simp only [bleConnParamsOnBleEvt, onConnect] at run
  have hzero : cp.config.startOnNotifyCccdHandle = 0 := h.atConnect
  rw [if_pos hzero] at run
  obtain ⟨m, hcall, hm⟩ := ok_of_map run
  obtain rfl : m = n' := congrArg Prod.snd hm
  unfold negotiationCall at hcall
  simp only [h.preferred, h.flag, hbad, Bool.not_false, if_true] at hcall
  obtain ⟨w, -, rfl⟩ := ok_of_map hcall
  exact ⟨rfl, rfl, rfl⟩

/-- A change outlives its connection: whatever the SoftDevice answered to its request, and whatever
links end, timeouts come and stops are asked for in between, the next connection whose parameters are
not acceptable is told of as failed when it begins, without a request and without a timer. -/
theorem connParams_change_outlives (port : PpcpPort σ)
    (hcccd : cp.config.startOnNotifyCccdHandle = bleGattHandleInvalid)
    (hset : (port.ppcpSet newParams n.world).1 = nrfSuccess)
    (hbad : isConnParamsOk newParams cp.currentConnParams = false) {as : List ConnParamsAct}
    (hquiet : ∀ a ∈ as, a.judgesNothing = true)
    (run : runHalting (connParamsStep (counting port)) (cp, n) (.change newParams :: as) =
      .ok (cp', n'))
    {connHandle : ConnHandle} {connParams : GapConnParams}
    (hnext : isConnParamsOk newParams connParams = false) {cp'' : ConnParams} {n'' : Counted σ}
    (step : connParamsStep (counting port) (cp', n') (.ble (.gapConnected connHandle connParams)) =
      .ok (cp'', n'')) :
    n''.failures = n'.failures + 1 ∧ n''.requests = n'.requests ∧ n''.starts = n'.starts := by
  rw [runHalting_cons] at run
  obtain ⟨⟨cp₁, n₁⟩, hchange, hrun⟩ := ok_of_bind run
  have hpending : ChangePending newParams cp₁ := changeConnParams_pending hcccd hset hbad hchange
  exact (hpending.run hquiet hrun).connected hnext step

end Law

/-- A SoftDevice that knows no connection and an application that only listens. -/
def unconnectedPort : PpcpPort Unit where
  connParamUpdate _ _ _ := (bleErrorInvalidConnHandle, ())
  disconnect _ _ _ := (bleErrorInvalidConnHandle, ())
  timerStart _ _ := (nrfSuccess, ())
  timerStop _ := (nrfSuccess, ())
  evtHandler _ _ := .ok ()
  ppcpSet _ _ := (nrfSuccess, ())
  ppcpGet _ := (nrfSuccess, gapConnParams, ())
  timerCreate _ := (nrfSuccess, ())

/-- The change is refused for want of a connection, and the next one fails as it begins. -/
theorem connParams_change_outlives_refused : ∃ s s',
    runHalting (connParamsStep (counting unconnectedPort)) (ConnParams.boot, ⟨(), 0, 0, 0⟩)
      [.change ⟨24, 40, 0, 400⟩, .timeout] = .ok s ∧
    connParamsStep (counting unconnectedPort) s (.ble (.gapConnected 0 gapConnParams)) = .ok s' ∧
    s'.2.failures = s.2.failures + 1 :=
  ⟨_, _, rfl, rfl, (@connParams_change_outlives Unit ConnParams.boot _ ⟨(), 0, 0, 0⟩ _
    ⟨24, 40, 0, 400⟩ unconnectedPort rfl rfl rfl [.timeout] (by decide) rfl 0 gapConnParams rfl _ _
    rfl).1⟩

end BleSpeedSensor
