import BleSpeedSensor.TimerInterrupts

namespace BleSpeedSensor

/-- `age` ticks after a first start was asked for: timer 0 waits to be started with
`firstInterval`, or has that many ticks to go from the start of RTC1 on. -/
structure Fresh {γ : Type} (firstInterval : UInt32) (age : Nat) (t : AppTimer γ) : Prop where
  starts : (t.nodes 0).isRunning = false → ∀ params, .start 0 params ∈ t.userOps .appLow →
    params.ticksAtStart = 0 ∧ params.ticksFirstInterval = firstInterval
  ticksToExpire : (t.nodes 0).isRunning = true → (t.nodes 0).ticksToExpire = firstInterval
  ticksLatest : (t.nodes 0).isRunning = true → t.ticksLatest = 0
  ticksElapsed : (t.nodes 0).isRunning = true → t.ticksElapsed = none ∨ t.ticksElapsed = some 0
  counter : (t.nodes 0).isRunning = true → t.counter.toNat ≤ age
  no_stop : (t.nodes 0).isRunning = true → .stop 0 ∉ t.userOps .appLow

variable {γ : Type} {t : AppTimer γ} {firstInterval : UInt32} {age : Nat}

/-- Nothing but the counter moves, by no more than the `n` ticks that pass. -/
theorem Fresh.of_same {u : AppTimer γ} {n : Nat} (f : Fresh firstInterval age t) (same : SameList t u)
    (hlatest : u.ticksLatest = t.ticksLatest)
    (hcounter : u.counter.toNat ≤ t.counter.toNat + n) : Fresh firstInterval (age + n) u := by
  constructor
  · rw [same.nodes, same.userOps]
    exact f.starts
  · rw [same.nodes]
    exact f.ticksToExpire
  · rw [same.nodes, hlatest]
    exact f.ticksLatest
  · rw [same.nodes, same.ticksElapsed]
    exact f.ticksElapsed
  · rw [same.nodes]
    intro hr
    have hbound := f.counter hr
    omega
  · rw [same.nodes, same.userOps]
    exact f.no_stop

theorem SameTimer.fresh {u : AppTimer γ} (same : SameTimer t u) (f : Fresh firstInterval age t) :
    Fresh firstInterval age u := by
  have hcounter : u.counter.toNat ≤ t.counter.toNat + 0 := by
    rw [same.counter]
    exact Nat.le_refl _
  exact f.of_same same.list same.ticksLatest hcounter

theorem Fresh.tick (f : Fresh firstInterval age t) (n : Nat) :
    Fresh firstInterval (age + n) (t.tick n) :=
  f.of_same (t.tick_same n) (t.tick_ticksLatest n) (t.tick_counter_le n)

theorem ticksToInsert_zero (first : UInt32) : ticksToInsert 0 0 first = first := by
  have hlt : ticksDiffGet 0 0 < maxRtcCounterVal / 2 := by decide
  have hzero : ticksDiffGet 0 0 = 0 := by decide
  rw [ticksToInsert, if_pos hlt, hzero, UInt32.zero_add]

theorem Fresh.compared (f : Fresh firstInterval age t) (hrunning : t.running ≠ []) (late : Nat) :
    Fresh firstInterval (age + late) (compareRegUpdate t late) := by
  obtain ⟨hlatest, hcounter⟩ := compareRegUpdate_counting hrunning late
  refine f.of_same (compareRegUpdate_same t late) hlatest ?_
  rw [hcounter, toNat_ofNat_mod]
  exact Nat.mod_le _ _

theorem Fresh.of_started {node : TimerNode γ} (hexpire : node.ticksToExpire = firstInterval)
    (hlatest : t.ticksLatest = 0) (helapsed : t.ticksElapsed = none)
    (hcounter : t.counter.toNat ≤ age) :
    Fresh firstInterval age { t.withRunning node with userOps := fun _ => [] } :=
  ⟨by simp, fun _ => hexpire, fun _ => hlatest, fun _ => Or.inl helapsed, fun _ => hcounter, by simp⟩

theorem Fresh.handled_idle (f : Fresh firstInterval age t) (h : SoleTimer t) (rest : AtRest t)
    (hr : (t.nodes 0).isRunning = false) (late : Nat) :
    Fresh firstInterval (age + late) (timerListHandler t late) := by
  rcases timerListHandler_idle h rest hr late with heq | ⟨params, hmem, heq⟩
  · rw [heq]
    exact ⟨by simp, by simp [hr], by simp [hr], by simp [hr], by simp [hr], by simp⟩
  · obtain ⟨hstart, hfirst⟩ := f.starts hr params hmem
    have hzero := rest.ticksLatest hr
    have hcounter : t.counter.toNat ≤ age := by
      rw [rest.counter hr]
      exact Nat.zero_le _
    rw [heq]
    refine Fresh.compared (Fresh.of_started ?_ hzero (rest.ticksElapsed hr) hcounter)
      (List.cons_ne_nil 0 []) late
    show ticksToInsert t.ticksLatest params.ticksAtStart params.ticksFirstInterval = firstInterval
    rw [hzero, hstart, hfirst, ticksToInsert_zero]

theorem Fresh.acquired (f : Fresh firstInterval age t) (hr : (t.nodes 0).isRunning = true) :
    (elapsedTicksAcquire t).2 = { t with ticksElapsed := none } ∧
      ((elapsedTicksAcquire t).1 = none ∨ (elapsedTicksAcquire t).1 = some 0) := by
  have hlatest := f.ticksLatest hr
  rcases f.ticksElapsed hr with hnone | hzero
  · simp only [elapsedTicksAcquire, hnone, true_or, and_true]
    rw [← hnone]
  · have hsum : (t.ticksLatest + 0) &&& maxRtcCounterVal = t.ticksLatest := by
      rw [hlatest]
      decide
    simp only [elapsedTicksAcquire, hzero, hsum, or_true, and_true]

theorem Fresh.counted (f : Fresh firstInterval age t) (h : SoleNode t) (hpos : 0 < firstInterval)
    (hr : (t.nodes 0).isRunning = true) {ticksElapsed : Option UInt32}
    (hticks : ticksElapsed = none ∨ ticksElapsed = some 0) (p : UInt32) :
    ∃ node : TimerNode γ, node.isRunning = true ∧ node.ticksToExpire = firstInterval ∧
      handleElapsed t p ticksElapsed = ([], t.withRunning node) := by
  have hexpire := f.ticksToExpire hr
  rcases hticks with rfl | rfl
  · refine ⟨t.nodes 0, hr, hexpire, ?_⟩
    have hself : t.withRunning (t.nodes 0) = t := by
      have hnodes : (fun i => if i = 0 then t.nodes 0 else t.nodes i) = t.nodes := by
        funext i
        split
        next hi => rw [hi]
        next => rfl
      unfold AppTimer.withRunning AppTimer.setNode
      rw [← h.running_one hr]
      exact congrArg (fun nodes => { t with nodes := nodes }) hnodes
    rw [hself]
    rfl
  · have hlt : 0 < (t.nodes 0).ticksToExpire := by
      rw [hexpire]
      exact hpos
    refine ⟨{ t.nodes 0 with ticksToExpire := (t.nodes 0).ticksToExpire - 0 }, hr, ?_,
      expiredTimersHandler_before h hr hlt p⟩
    show (t.nodes 0).ticksToExpire - 0 = firstInterval
    rw [hexpire, UInt32.sub_zero]

theorem insertions_withRunning (h : SoleTimer t) {node : TimerNode γ} (hr : node.isRunning = true) :
    (listInsertionsHandler (t.withRunning node) []).2 =
      { t.withRunning node with userOps := fun _ => [] } := by
  have hops : (t.withRunning node).ops = t.userOps .appLow := h.ops_eq
  have hsame := insertions_running (t := t.withRunning node) h.ops hr
  simp only [listInsertionsHandler, List.foldl_nil, hops, hsame]

theorem Fresh.handled_running (f : Fresh firstInterval age t) (h : SoleTimer t)
    (hpos : 0 < firstInterval) (hr : (t.nodes 0).isRunning = true) (late : Nat) :
    Fresh firstInterval (age + late) (timerListHandler t late) := by
  obtain ⟨hacquired, hticks⟩ := f.acquired hr
  have hsole : SoleTimer { t with ticksElapsed := none } :=
    ⟨⟨h.node.running, h.node.single, h.node.mode⟩, h.ops, h.others⟩
  have fnone : Fresh firstInterval age { t with ticksElapsed := none } :=
    ⟨f.starts, f.ticksToExpire, f.ticksLatest, fun _ => Or.inl rfl, f.counter, f.no_stop⟩
  have hdel : (listDeletionsHandler { t with ticksElapsed := none }).2 =
      { t with ticksElapsed := none } :=
    deletions_no_stop (hsole.ops_eq ▸ h.ops) (hsole.ops_eq ▸ f.no_stop hr)
  obtain ⟨node, hrunning, hexpire, helapsed⟩ := fnone.counted hsole.node hpos hr hticks t.ticksLatest
  have fins : Fresh firstInterval age
      (listInsertionsHandler (({ t with ticksElapsed := none } : AppTimer γ).withRunning node) []).2 := by
    rw [insertions_withRunning hsole hrunning]
    exact Fresh.of_started hexpire (f.ticksLatest hr) rfl (f.counter hr)
  have hone := insertions_withRunning hsole hrunning
  unfold timerListHandler
  dsimp only
  rw [hacquired, hdel, helapsed]
  split
  · refine fins.compared ?_ late
    rw [hone]
    exact List.cons_ne_nil 0 []
  · exact fins.tick late

theorem Fresh.swi0 (f : Fresh firstInterval age t) {P : γ → Prop} (h : TimerHolds P t)
    (hpos : 0 < firstInterval) (late : Nat) :
    Fresh firstInterval (age + late) (swi0IrqHandler t late) := by
  unfold swi0IrqHandler
  split
  · have same : SameTimer t { t with swi0Pending := false } := ⟨⟨rfl, rfl, rfl, rfl⟩, rfl, rfl, rfl⟩
    have hcleared := same.holds h
    have fresh := same.fresh f
    by_cases hr : (t.nodes 0).isRunning = true
    · exact fresh.handled_running hcleared.sole hpos hr late
    · exact fresh.handled_idle hcleared.sole hcleared.rest (by simpa using hr) late
  · exact f.tick late

theorem ticksDiffGet_zero_le (c : UInt32) : (ticksDiffGet c 0).toNat ≤ c.toNat := by
  unfold ticksDiffGet
  rw [UInt32.sub_zero, UInt32.toNat_and]
  exact Nat.and_le_left

theorem Fresh.rtc1 (f : Fresh firstInterval age t) (h : SoleNode t) :
    ((rtc1IrqHandler t).1 = [] ∧ Fresh firstInterval age (rtc1IrqHandler t).2) ∨
      firstInterval.toNat ≤ age := by
  rcases rtc1IrqHandler_cases h with heq | heq | ⟨hr, heq⟩ | ⟨hr, hle, -⟩
  · rw [heq]
    exact Or.inl ⟨rfl, f⟩
  · have same : SameTimer t { t with rtc1Pending := false, eventsCompare0 := false } :=
      ⟨⟨rfl, rfl, rfl, rfl⟩, rfl, rfl, rfl⟩
    rw [heq]
    exact Or.inl ⟨rfl, same.fresh f⟩
  · rw [heq]
    refine Or.inl ⟨rfl, f.starts, f.ticksToExpire, f.ticksLatest, ?_, f.counter, f.no_stop⟩
    intro _
    exact Or.inr rfl
  · right
    rw [f.ticksToExpire hr, f.ticksLatest hr, UInt32.le_iff_toNat_le] at hle
    have hdiff := ticksDiffGet_zero_le t.counter
    have hage := f.counter hr
    omega

theorem Fresh.start (f : Fresh firstInterval age t) (h : SoleNode t) (rest : AtRest t) {pContext : γ}
    (hok : (appTimerStart t .appLow 0 firstInterval pContext).1 = nrfSuccess) :
    Fresh firstInterval age (appTimerStart t .appLow 0 firstInterval pContext).2 := by
  rw [appTimerStart_ok h.mode hok]
  refine ⟨?_, f.ticksToExpire, f.ticksLatest, f.ticksElapsed, f.counter, ?_⟩
  · intro hr params hmem
    rcases List.mem_append.mp hmem with hold | hnew
    · exact f.starts hr params hold
    · cases List.mem_singleton.mp hnew
      exact ⟨rest.counter hr, rfl⟩
  · intro hr hmem
    rcases List.mem_append.mp hmem with hold | hnew
    · exact f.no_stop hr hold
    · cases List.mem_singleton.mp hnew

end BleSpeedSensor
