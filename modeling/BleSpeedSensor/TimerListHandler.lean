import BleSpeedSensor.SoleTimer

namespace BleSpeedSensor

variable {γ : Type} {t : AppTimer γ}

/-- What two states of the module have in common when they differ in RTC1 and the interrupts only. -/
structure SameList (t u : AppTimer γ) : Prop where
  nodes : u.nodes = t.nodes
  running : u.running = t.running
  userOps : u.userOps = t.userOps
  ticksElapsed : u.ticksElapsed = t.ticksElapsed

theorem SameList.soleNode {u : AppTimer γ} (same : SameList t u) (h : SoleNode t) : SoleNode u := by
  obtain ⟨hrunning, hsingle, hmode⟩ := h
  exact ⟨by rw [same.running, same.nodes]; exact hrunning, by rw [same.nodes]; exact hsingle,
    by rw [same.nodes]; exact hmode⟩

theorem AppTimer.tick_same (t : AppTimer γ) (n : Nat) : SameList t (t.tick n) := by
  unfold AppTimer.tick
  split <;> exact ⟨rfl, rfl, rfl, rfl⟩

@[simp] theorem AppTimer.tick_ticksLatest (t : AppTimer γ) (n : Nat) :
    (t.tick n).ticksLatest = t.ticksLatest := by
  unfold AppTimer.tick
  split <;> rfl

theorem AppTimer.tick_counting (h : t.rtc1Running = true) (n : Nat) :
    (t.tick n).counter = UInt32.ofNat ((t.counter.toNat + n) % rtcCounterPeriod) :=
  congrArg AppTimer.counter (if_pos h)

theorem AppTimer.tick_stopped (h : t.rtc1Running = false) (n : Nat) : t.tick n = t := by
  simp [AppTimer.tick, h]

theorem rtc1StartIfStopped_eq (t : AppTimer γ) :
    ∃ pending, rtc1StartIfStopped t = { t with rtc1Running := true, rtc1Pending := pending } := by
  unfold rtc1StartIfStopped
  split
  next hr => exact ⟨t.rtc1Pending, by rw [← hr]⟩
  next => exact ⟨false, rfl⟩

theorem compareRegUpdate_stopped (h : t.running = []) (late : Nat) :
    compareRegUpdate t late = rtc1Stop t := by
  simp [compareRegUpdate, h]

theorem compareRegUpdate_armed (h : t.running ≠ []) (late : Nat) :
    ∃ cc pending, compareRegUpdate t late =
      { (rtc1StartIfStopped t).tick late with compare0 := cc, rtc1Pending := pending } := by
  unfold compareRegUpdate
  split
  next hnil => exact absurd hnil h
  next =>
    dsimp only
    split <;> split <;> exact ⟨_, _, rfl⟩

theorem compareRegUpdate_same (t : AppTimer γ) (late : Nat) : SameList t (compareRegUpdate t late) := by
  by_cases h : t.running = []
  · rw [compareRegUpdate_stopped h]
    exact ⟨rfl, rfl, rfl, rfl⟩
  · obtain ⟨cc, pending, heq⟩ := compareRegUpdate_armed h late
    obtain ⟨started, hstart⟩ := rtc1StartIfStopped_eq t
    obtain ⟨hnodes, hrunning, hops, helapsed⟩ := AppTimer.tick_same (rtc1StartIfStopped t) late
    rw [heq]
    rw [hstart] at hnodes hrunning hops helapsed ⊢
    exact ⟨hnodes, hrunning, hops, helapsed⟩

theorem compareRegUpdate_counting (h : t.running ≠ []) (late : Nat) :
    (compareRegUpdate t late).ticksLatest = t.ticksLatest ∧
      (compareRegUpdate t late).counter = UInt32.ofNat ((t.counter.toNat + late) % rtcCounterPeriod) := by
  obtain ⟨cc, pending, heq⟩ := compareRegUpdate_armed h late
  obtain ⟨started, hstart⟩ := rtc1StartIfStopped_eq t
  rw [heq, hstart]
  exact ⟨AppTimer.tick_ticksLatest _ late, AppTimer.tick_counting rfl late⟩

def counted (t : AppTimer γ) (ticksElapsed : UInt32) : AppTimer γ :=
  t.withRunning { t.nodes 0 with ticksToExpire := (t.nodes 0).ticksToExpire - ticksElapsed }

def expired (t : AppTimer γ) : AppTimer γ :=
  t.withStopped { t.nodes 0 with ticksToExpire := 0, isRunning := false }

theorem expiredTimersHandler_idle (h : SoleNode t) (hr : (t.nodes 0).isRunning = false)
    (e p : UInt32) : expiredTimersHandler t e p = ([], t) := by
  have hnil := h.running_nil.mpr hr
  simp only [expiredTimersHandler, hnil, expiredLoop]
  rw [← hnil]

theorem expiredTimersHandler_before (h : SoleNode t) (hr : (t.nodes 0).isRunning = true)
    {e : UInt32} (he : e < (t.nodes 0).ticksToExpire) (p : UInt32) :
    expiredTimersHandler t e p = ([], counted t e) := by
  simp only [expiredTimersHandler, h.running_one hr, expiredLoop, if_pos he]
  rfl

theorem expiredTimersHandler_expired (h : SoleNode t) (hr : (t.nodes 0).isRunning = true)
    {e : UInt32} (he : ¬e < (t.nodes 0).ticksToExpire) (p : UInt32) :
    expiredTimersHandler t e p = ([], expired t) := by
  have hperiodic : ¬(t.nodes 0).ticksPeriodicInterval ≠ 0 := not_not_intro h.single
  simp only [expiredTimersHandler, h.running_one hr, expiredLoop, if_neg he, if_neg hperiodic]
  rfl

theorem handleElapsed_cases (h : SoleNode t) (p : UInt32) (ticksElapsed : Option UInt32) :
    handleElapsed t p ticksElapsed = ([], t) ∨
      ((t.nodes 0).isRunning = true ∧ ∃ e, ticksElapsed = some e ∧
        ((e < (t.nodes 0).ticksToExpire ∧ handleElapsed t p ticksElapsed = ([], counted t e)) ∨
          handleElapsed t p ticksElapsed = ([], expired t))) := by
  cases ticksElapsed with
  | none => exact Or.inl rfl
  | some e =>
    by_cases hr : (t.nodes 0).isRunning = true
    · by_cases he : e < (t.nodes 0).ticksToExpire
      · exact Or.inr ⟨hr, e, rfl, Or.inl ⟨he, expiredTimersHandler_before h hr he p⟩⟩
      · exact Or.inr ⟨hr, e, rfl, Or.inr (expiredTimersHandler_expired h hr he p)⟩
    · exact Or.inl (expiredTimersHandler_idle h (by simpa using hr) e p)

/-- A stage of the handler: timer 0 alone, in a context that meets `P`, the operations untouched. -/
structure Stage (P : γ → Prop) (t u : AppTimer γ) : Prop where
  node : SoleNode u
  ticksElapsed : u.ticksElapsed = none
  context : (u.nodes 0).isRunning = true → P (u.nodes 0).pContext
  userOps : u.userOps = t.userOps

variable {P : γ → Prop} {u : AppTimer γ}

theorem elapsedTicksAcquire_same (t : AppTimer γ) :
    SameList { t with ticksElapsed := none } (elapsedTicksAcquire t).2 := by
  unfold elapsedTicksAcquire
  split
  · exact ⟨rfl, rfl, rfl, rfl⟩
  next hnone => exact ⟨rfl, rfl, rfl, hnone⟩

theorem Stage.acquired (h : SoleTimer t) (c : AllContexts P t) :
    Stage P t (elapsedTicksAcquire t).2 := by
  have same := elapsedTicksAcquire_same t
  obtain ⟨hlist, hsingle, hmode⟩ := h.node
  refine ⟨same.soleNode ⟨hlist, hsingle, hmode⟩, same.ticksElapsed, ?_, same.userOps⟩
  rw [same.nodes]
  exact c.node

theorem Stage.ops_eq (s : Stage P t u) (h : SoleTimer t) : u.ops = t.userOps .appLow := by
  rw [← h.ops_eq, AppTimer.ops, AppTimer.ops, s.userOps]

theorem Stage.deleted (s : Stage P t u) (h : SoleTimer t) : Stage P t (listDeletionsHandler u).2 := by
  show Stage P t (u.ops.foldl deleteOp u)
  rw [s.ops_eq h]
  rcases deletions_cases h.ops s.node with heq | ⟨_, heq⟩
  · rw [heq]
    exact s
  · rw [heq]
    exact ⟨⟨rfl, s.node.single, s.node.mode⟩, s.ticksElapsed,
      fun hr => by simp [freed, rtc1Stop, AppTimer.withStopped] at hr, s.userOps⟩

theorem Stage.elapsed (s : Stage P t u) (p : UInt32) (ticksElapsed : Option UInt32) :
    (handleElapsed u p ticksElapsed).1 = [] ∧ Stage P t (handleElapsed u p ticksElapsed).2 := by
  rcases handleElapsed_cases s.node p ticksElapsed with heq | ⟨hr, e, -, ⟨-, heq⟩ | heq⟩
  · rw [heq]
    exact ⟨rfl, s⟩
  · rw [heq]
    refine ⟨rfl, ⟨?_, s.node.single, s.node.mode⟩, s.ticksElapsed, fun _ => s.context hr, s.userOps⟩
    simp [counted, hr, AppTimer.withRunning, AppTimer.setNode]
  · rw [heq]
    exact ⟨rfl, ⟨rfl, s.node.single, s.node.mode⟩, s.ticksElapsed, fun hx => by simp [expired, AppTimer.withStopped] at hx,
      s.userOps⟩

theorem Stage.insertions_eq (s : Stage P t u) (h : SoleTimer t) : (listInsertionsHandler u []).2 =
    { (t.userOps .appLow).foldl insertOp u with userOps := fun _ => [] } := by
  rw [← s.ops_eq h]
  rfl

theorem Stage.inserted (s : Stage P t u) (h : SoleTimer t) (c : AllContexts P t) :
    SoleTimer (listInsertionsHandler u []).2 ∧ AllContexts P (listInsertionsHandler u []).2 ∧
      (listInsertionsHandler u []).2.ticksElapsed = none := by
  rw [s.insertions_eq h]
  rcases insertions_cases h.ops s.node with heq | ⟨_, params, hmem, hperiodic, heq⟩
  · rw [heq]
    obtain ⟨hlist, hsingle, hmode⟩ := s.node
    exact ⟨⟨⟨hlist, hsingle, hmode⟩, by simp, fun _ _ => rfl⟩, ⟨s.context, by simp⟩, s.ticksElapsed⟩
  · rw [heq]
    exact ⟨⟨⟨rfl, hperiodic, s.node.mode⟩, by simp, fun _ _ => rfl⟩,
      ⟨fun _ => c.starts params hmem, by simp⟩, s.ticksElapsed⟩

theorem SameList.sole {u : AppTimer γ} (same : SameList t u) (h : SoleTimer t)
    (c : AllContexts P t) : SoleTimer u ∧ AllContexts P u := by
  obtain ⟨hnode, hops, hothers⟩ := h
  obtain ⟨hcontext, hstarts⟩ := c
  refine ⟨⟨same.soleNode hnode, ?_, ?_⟩, ?_, ?_⟩
  · rw [same.userOps]
    exact hops
  · rw [same.userOps]
    exact hothers
  · rw [same.nodes]
    exact hcontext
  · rw [same.userOps]
    exact hstarts

theorem timerListHandler_sole (h : SoleTimer t) (c : AllContexts P t) (late : Nat) :
    SoleTimer (timerListHandler t late) ∧ AllContexts P (timerListHandler t late) := by
  have hdeleted := (Stage.acquired h c).deleted h
  obtain ⟨hrestart, helapsed⟩ := hdeleted.elapsed t.ticksLatest (elapsedTicksAcquire t).1
  obtain ⟨hsole, hcontexts, -⟩ := helapsed.inserted h c
  unfold timerListHandler
  dsimp only
  rw [hrestart]
  split
  · exact (compareRegUpdate_same _ late).sole hsole hcontexts
  · exact (AppTimer.tick_same _ late).sole hsole hcontexts

theorem timerListHandler_idle (h : SoleTimer t) (rest : AtRest t)
    (hr : (t.nodes 0).isRunning = false) (late : Nat) :
    timerListHandler t late = { t with userOps := fun _ => [] } ∨ ∃ params,
      .start 0 params ∈ t.userOps .appLow ∧ timerListHandler t late =
        compareRegUpdate { startedWith t params with userOps := fun _ => [] } late := by
  have hacquired : elapsedTicksAcquire t = (none, t) := by
    simp [elapsedTicksAcquire, rest.ticksElapsed hr]
  have hdeletions : listDeletionsHandler t = (false, t) := by
    simp [listDeletionsHandler, h.ops_eq, deletions_idle h.ops hr]
  have hexpiries : handleElapsed t t.ticksLatest none = ([], t) := rfl
  have hnil := h.node.running_nil.mpr hr
  simp only [timerListHandler, hacquired, hdeletions, hexpiries, listInsertionsHandler, h.ops_eq,
    List.foldl_nil]
  rcases insertions_cases h.ops h.node with heq | ⟨_, params, hmem, -, heq⟩
  · rw [heq]
    have htick : AppTimer.tick { t with userOps := fun _ => [] } late =
        { t with userOps := fun _ => [] } := if_neg (by simp [rest.rtc1Running hr])
    exact Or.inl (by simpa using htick)
  · rw [heq]
    have hhead : (startedWith t params).running.head? ≠ t.running.head? := by
      rw [hnil]
      simp [startedWith, AppTimer.withRunning, AppTimer.setNode]
    exact Or.inr ⟨params, hmem, by simp [hhead]⟩

theorem AtRest.of_running (hr : (t.nodes 0).isRunning = true) : AtRest t := by
  constructor <;> intro hidle <;> simp [hr] at hidle

theorem listDeletionsHandler_head (hflag : (listDeletionsHandler t).1 = false) :
    (listDeletionsHandler t).2.running.head? = t.running.head? := by
  simpa [listDeletionsHandler] using hflag

theorem listInsertionsHandler_head {restart : List Nat}
    (hflag : (listInsertionsHandler t restart).1 = false) :
    (listInsertionsHandler t restart).2.running.head? = t.running.head? := by
  simpa [listInsertionsHandler] using hflag

theorem timerListHandler_running (h : SoleTimer t) (c : AllContexts P t)
    (hr : (t.nodes 0).isRunning = true) (late : Nat) :
    ∃ u, SoleTimer u ∧ u.ticksElapsed = none ∧ (timerListHandler t late = compareRegUpdate u late ∨
      (timerListHandler t late = u.tick late ∧ (u.nodes 0).isRunning = true)) := by
  obtain ⟨hrestart, helapsed⟩ :=
    ((Stage.acquired h c).deleted h).elapsed t.ticksLatest (elapsedTicksAcquire t).1
  obtain ⟨hsole, -, hnone⟩ := helapsed.inserted h c
  refine ⟨_, hsole, hnone, ?_⟩
  unfold timerListHandler
  dsimp only
  rw [hrestart]
  split
  next => exact Or.inl rfl
  next hflag =>
    refine Or.inr ⟨rfl, ?_⟩
    simp only [Bool.or_eq_true, not_or, Bool.not_eq_true] at hflag
    obtain ⟨⟨hdeleted, hnoticks⟩, hinserted⟩ := hflag
    have hx : (elapsedTicksAcquire t).1 = none := by simpa using hnoticks
    have hstart : (elapsedTicksAcquire t).2.running = [0] := by
      rw [(elapsedTicksAcquire_same t).running]
      exact h.node.running_one hr
    have hdel := listDeletionsHandler_head hdeleted
    have hins := listInsertionsHandler_head hinserted
    have hsame : (handleElapsed (listDeletionsHandler (elapsedTicksAcquire t).2).2 t.ticksLatest
        (elapsedTicksAcquire t).1).2 = (listDeletionsHandler (elapsedTicksAcquire t).2).2 := by
      rw [hx]
      rfl
    rw [hsame, hdel, hstart] at hins
    rw [hsame] at hsole ⊢
    refine Bool.not_eq_false _ ▸ fun hidle => ?_
    rw [hsole.node.running_nil.mpr hidle] at hins
    cases hins

theorem timerListHandler_atRest (h : SoleTimer t) (rest : AtRest t) (late : Nat) :
    AtRest (timerListHandler t late) := by
  by_cases hr : (t.nodes 0).isRunning = true
  · obtain ⟨i, hsole, hnone, heq | ⟨heq, hi⟩⟩ :=
      timerListHandler_running h (P := fun _ => True) ⟨fun _ => trivial, fun _ _ => trivial⟩ hr late
    · by_cases hi : (i.nodes 0).isRunning = true
      · refine AtRest.of_running ?_
        rw [heq, (compareRegUpdate_same i late).nodes]
        exact hi
      · rw [heq, compareRegUpdate_stopped (hsole.node.running_nil.mpr (by simpa using hi))]
        exact ⟨fun _ => rfl, fun _ => rfl, fun _ => rfl, fun _ => hnone⟩
    · refine AtRest.of_running ?_
      rw [heq, (i.tick_same late).nodes]
      exact hi
  · rcases timerListHandler_idle h rest (by simpa using hr) late with heq | ⟨params, -, heq⟩
    · rw [heq]
      exact ⟨rest.rtc1Running, rest.counter, rest.ticksLatest, rest.ticksElapsed⟩
    · refine AtRest.of_running ?_
      rw [heq, (compareRegUpdate_same _ late).nodes]
      rfl

end BleSpeedSensor
