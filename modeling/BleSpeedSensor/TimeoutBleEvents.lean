import BleSpeedSensor.TimeoutInvariant

namespace BleSpeedSensor

variable {s t : TimeoutPath}

theorem NothingLeft.holds (left : NothingLeft s) (h : TimerHolds (fun _ => True) s.timer)
    (P : Nat → Prop) : TimerHolds P s.timer := by
  refine ⟨h.sole, ⟨fun hr => ?_, fun params hmem => absurd hmem (left.no_start params)⟩, h.rest⟩
  exact absurd (left.stopped.symm.trans hr) (by decide)

theorem NothingLeft.fresh (left : NothingLeft s) (firstInterval : UInt32) (age : Nat) :
    Fresh firstInterval age s.timer := by
  have hidle : ¬(s.timer.nodes 0).isRunning = true := by
    rw [show (s.timer.nodes 0).isRunning = false from left.stopped]
    decide
  exact ⟨fun _ params hmem => absurd hmem (left.no_start params), fun hr => absurd hr hidle,
    fun hr => absurd hr hidle, fun hr => absurd hr hidle, fun hr => absurd hr hidle,
    fun hr => absurd hr hidle⟩

theorem onBleEvt_world {σ : Type} {code : SdCall → ErrCode} {app : App} {w : σ} {e : BleEvt}
    {r : App × σ} (h : onBleEvt (fun w call => (code call, w)) app w e = .ok r) : r.2 = w := by
  obtain ⟨-, hworld⟩ := onBleEvt_ok h
  rw [hworld]
  cases (onBleEvtCall app e).2 <;> rfl

/-- What the timer module is left with after an event, in terms of what held of it before. -/
structure TimerAfter (s : TimeoutPath) (e : BleEvt) (connection : Nat) (cp : ConnParams)
    (timer : AppTimer Nat) : Prop where
  statics : cp = s.cp.after e
  holds : ∀ P : Nat → Prop, P connection → TimerHolds P s.timer → TimerHolds P timer
  fresh : ∀ age, e ≠ .gapDisconnected → cp.updateCount = 0 →
    Fresh firstConnParamsUpdateDelay age s.timer → Fresh firstConnParamsUpdateDelay age timer

theorem timerAfter_of_dispatch (h : TimeoutInv s) {e : BleEvt} (possible : s.possible e = true)
    {answers : Answers} {mConnHandle : ConnHandle} {connection : Nat} {r : ConnParams × AppTimer Nat}
    (hr : bleConnParamsOnBleEvt (timeoutPort answers mConnHandle connection) s.cp s.timer e = .ok r) :
    TimerAfter s e connection r.1 r.2 := by
  have hcp := bleConnParamsOnBleEvt_cp h.configured hr
  have hwrite : ∀ handle data, e = .gattsWrite handle data → handle ≠ 0 := by
    rintro handle data rfl
    exact of_decide_eq_true possible
  refine ⟨hcp, ?_, ?_⟩
  · intro P hP htimer
    rcases bleConnParamsOnBleEvt_world h.configured rfl hwrite hr with
      hsame | ⟨ticks, -, hok, hstart⟩ | ⟨-, hok, hstop⟩
    · rw [hsame]
      exact htimer
    · rw [hstart]
      exact htimer.start hP hok
    · rw [hstop]
      exact htimer.stop hok
  · intro age hne hcount hfresh
    rcases bleConnParamsOnBleEvt_world h.configured rfl hwrite hr with
      hsame | ⟨ticks, hticks, hok, hstart⟩ | ⟨heq, -⟩
    · rw [hsame]
      exact hfresh
    · rw [hstart]
      cases hticks (hcp ▸ hcount)
      exact hfresh.start h.timer.sole.node h.timer.rest hok
    · exact absurd heq hne

theorem onBleEvt_cases (h : TimeoutInv s) {e : BleEvt} (possible : s.possible e = true)
    {answers : Answers} (step : s.onBleEvt e answers = .ok t) :
    ∃ app cp timer, TimerAfter s e (if e.isConnected then s.connection + 1 else s.connection) cp timer ∧
      t = { s with
        app := app
        cp := cp
        timer := timer
        up := if e.isConnected then true else if e = .gapDisconnected then false else s.up
        connection := if e.isConnected then s.connection + 1 else s.connection
        connectedAt := if e.isConnected then s.now else s.connectedAt
        requested := if e.isConnected then false else s.requested } := by
  obtain ⟨r, happ, step⟩ := ok_of_bind step
  obtain ⟨r', hcp, step⟩ := ok_of_bind step
  rw [onBleEvt_world happ] at hcp
  cases step
  exact ⟨_, _, _, timerAfter_of_dispatch h possible hcp, rfl⟩

theorem Configured.timerAfter (h : Configured s.cp) {e : BleEvt} {connection : Nat} {cp : ConnParams}
    {timer : AppTimer Nat} (after : TimerAfter s e connection cp timer) : Configured cp := by
  rw [after.statics]
  exact h.after e

theorem TimeoutInv.connected (h : TimeoutInv s) {connHandle : ConnHandle} {connParams : GapConnParams}
    (possible : s.possible (.gapConnected connHandle connParams) = true) (left : NothingLeft s)
    {answers : Answers} (step : s.onBleEvt (.gapConnected connHandle connParams) answers = .ok t) :
    TimeoutInv t := by
  obtain ⟨app, cp, timer, after, rfl⟩ := onBleEvt_cases h possible step
  have hcount : cp.updateCount = 0 := by
    rw [after.statics]
    rfl
  have hfresh := after.fresh 0 (by simp) hcount (left.fresh _ 0)
  obtain ⟨hwaiting, hhandled⟩ := left.no_timeout
  refine ⟨h.configured.timerAfter after, h.path, h.stamped, ?_, Nat.le_refl s.now, fun _ => ?_,
    fun _ => Or.inl ⟨?_, ⟨hwaiting, hhandled⟩, hcount⟩⟩
  · exact after.holds _ trivial h.timer
  · have hown : Outstanding (· = some (s.connection + 1)) s :=
      left.no_timeout.weaken fun _ hfalse => hfalse.elim
    exact ⟨after.holds _ rfl (left.holds h.timer _), hown.waiting, hown.handled⟩
  · show Fresh firstConnParamsUpdateDelay (s.now - s.now) timer
    rw [Nat.sub_self]
    exact hfresh

theorem ConnParams.after_count (cp : ConnParams) {e : BleEvt} (hcount : cp.updateCount = 0) :
    (cp.after e).updateCount = 0 := by
  cases e <;> first | exact hcount | rfl

theorem TimeoutInv.notConnected (h : TimeoutInv s) {e : BleEvt} (possible : s.possible e = true)
    (hconnected : e.isConnected = false) {answers : Answers} (step : s.onBleEvt e answers = .ok t) :
    TimeoutInv t := by
  obtain ⟨app, cp, timer, after, rfl⟩ := onBleEvt_cases h possible step
  simp only [hconnected, Bool.false_eq_true, if_false] at after ⊢
  refine ⟨h.configured.timerAfter after, h.path, h.stamped, after.holds _ trivial h.timer, h.since,
    fun hup => ?_, fun hup => ?_⟩
  · obtain ⟨-, hup⟩ := of_up hup
    obtain ⟨htimer, hwaiting, hhandled⟩ := h.own hup
    exact ⟨after.holds _ rfl htimer, hwaiting, hhandled⟩
  · obtain ⟨hne, hup⟩ := of_up hup
    rcases h.age hup with ⟨hfresh, ⟨hwaiting, hhandled⟩, hcount⟩ | mature
    · have hafter : cp.updateCount = 0 := after.statics ▸ s.cp.after_count hcount
      exact Or.inl ⟨after.fresh _ hne hafter hfresh, ⟨hwaiting, hhandled⟩, hafter⟩
    · exact Or.inr mature
where
  of_up {e : BleEvt} {up : Bool} (h : (if e = .gapDisconnected then false else up) = true) :
      e ≠ .gapDisconnected ∧ up = true := by
    by_cases he : e = .gapDisconnected
    · simp [he] at h
    · exact ⟨he, by simpa [he] using h⟩

end BleSpeedSensor
