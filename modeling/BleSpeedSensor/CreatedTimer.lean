import BleSpeedSensor.AppTimer

namespace BleSpeedSensor

variable {γ : Type} {timerId opQueuesSize : Nat} {t u : AppTimer γ}

/-- `app_timer_create` has given out `timerId`. -/
structure Created (timerId opQueuesSize : Nat) (t : AppTimer γ) : Prop where
  inArray : timerId < t.nodeArraySize
  allocated : (t.nodes timerId).allocated = true
  opQueue : t.userOpQueueSize = opQueuesSize

theorem Created.setNode (h : Created timerId opQueuesSize t) {i : Nat} {node : TimerNode γ}
    (hnode : node.allocated = (t.nodes i).allocated) :
    Created timerId opQueuesSize (t.setNode i node) := by
  refine ⟨h.inArray, ?_, h.opQueue⟩
  by_cases hi : timerId = i
  · have hset : (t.setNode i node).nodes timerId = node := if_pos hi
    rw [hset, hnode, ← hi]
    exact h.allocated
  · have hset : (t.setNode i node).nodes timerId = t.nodes timerId := if_neg hi
    rw [hset]
    exact h.allocated

theorem insertLoop_created (h : Created timerId opQueuesSize t) (i : Nat) (ticksToExpire : UInt32)
    (running : List Nat) :
    Created timerId opQueuesSize (insertLoop i ticksToExpire running t).2 := by
  induction running generalizing t ticksToExpire with
  | nil =>
    refine h.setNode ?_
    rfl
  | cons current rest ih =>
    unfold insertLoop
    dsimp only
    split
    · exact ih h _
    · refine Created.setNode ?_ rfl
      exact h.setNode rfl

theorem timerListInsert_created (h : Created timerId opQueuesSize t) (i : Nat) :
    Created timerId opQueuesSize (timerListInsert t i) := by
  obtain ⟨hin, halloc, hqueue⟩ := insertLoop_created h i (t.nodes i).ticksToExpire t.running
  exact ⟨hin, halloc, hqueue⟩

theorem removeLoop_created (h : Created timerId opQueuesSize t) (i : Nat) (running : List Nat) :
    Created timerId opQueuesSize (removeLoop i running t).2 := by
  induction running generalizing t with
  | nil => exact h
  | cons current rest ih =>
    unfold removeLoop
    split
    · split
      · exact h
      · exact h.setNode rfl
    · exact ih h

theorem timerListRemove_created (h : Created timerId opQueuesSize t) (i : Nat) :
    Created timerId opQueuesSize (timerListRemove t i) := by
  obtain ⟨hin, halloc, hqueue⟩ := removeLoop_created h i t.running
  unfold timerListRemove
  dsimp only
  split
  · exact ⟨hin, halloc, hqueue⟩
  · exact ⟨hin, halloc, hqueue⟩

theorem timerTimeoutsCheck_created (h : Created timerId opQueuesSize t) :
    Created timerId opQueuesSize (timerTimeoutsCheck t).2 := by
  unfold timerTimeoutsCheck
  split
  · exact h
  · exact ⟨h.inArray, h.allocated, h.opQueue⟩

theorem elapsedTicksAcquire_created (h : Created timerId opQueuesSize t) :
    Created timerId opQueuesSize (elapsedTicksAcquire t).2 := by
  unfold elapsedTicksAcquire
  split
  · exact ⟨h.inArray, h.allocated, h.opQueue⟩
  · exact h

theorem deleteOp_created (h : Created timerId opQueuesSize t) (op : TimerUserOp γ) :
    Created timerId opQueuesSize (deleteOp t op) := by
  cases op with
  | start i params => exact h
  | stop i =>
    unfold deleteOp
    dsimp only
    split
    · exact (timerListRemove_created h i).setNode rfl
    · exact h
  | stopAll =>
    refine ⟨h.inArray, ?_, h.opQueue⟩
    unfold deleteOp
    dsimp only
    split
    · exact h.allocated
    · exact h.allocated

theorem Created.foldl {β : Type} {f : AppTimer γ → β → AppTimer γ} {bs : List β}
    (step : ∀ t b, Created timerId opQueuesSize t → Created timerId opQueuesSize (f t b))
    (h : Created timerId opQueuesSize t) : Created timerId opQueuesSize (bs.foldl f t) := by
  induction bs generalizing t with
  | nil => exact h
  | cons b rest ih => exact ih (step t b h)

theorem listDeletionsHandler_created (h : Created timerId opQueuesSize t) :
    Created timerId opQueuesSize (listDeletionsHandler t).2 :=
  Created.foldl (fun _ op h => deleteOp_created h op) h

theorem expiredLoop_created (h : Created timerId opQueuesSize t) (ticksPrevious : UInt32)
    (ticksElapsed ticksExpired : UInt32) (restart running : List Nat) :
    Created timerId opQueuesSize
      (expiredLoop ticksPrevious ticksElapsed ticksExpired restart running t).2 := by
  induction running generalizing t ticksElapsed ticksExpired restart with
  | nil => exact ⟨h.inArray, h.allocated, h.opQueue⟩
  | cons i rest ih =>
    unfold expiredLoop
    dsimp only
    split
    · have hset : Created timerId opQueuesSize (t.setNode i { t.nodes i with
          ticksToExpire := (t.nodes i).ticksToExpire - ticksElapsed }) := h.setNode rfl
      exact ⟨hset.inArray, hset.allocated, hset.opQueue⟩
    · split
      · refine ih ?_ _ _ _
        exact h.setNode rfl
      · refine ih ?_ _ _ _
        exact h.setNode rfl

theorem insertTimer_created (h : Created timerId opQueuesSize t) (i : Nat) :
    Created timerId opQueuesSize (insertTimer t i) := by
  refine timerListInsert_created ?_ i
  exact h.setNode rfl

theorem insertOp_created (h : Created timerId opQueuesSize t) (op : TimerUserOp γ) :
    Created timerId opQueuesSize (insertOp t op) := by
  cases op with
  | start i params =>
    unfold insertOp
    dsimp only
    split
    · exact h
    · refine insertTimer_created ?_ i
      exact h.setNode rfl
  | stop i => exact h
  | stopAll => exact h

theorem listInsertionsHandler_created (h : Created timerId opQueuesSize t) (restart : List Nat) :
    Created timerId opQueuesSize (listInsertionsHandler t restart).2 := by
  have hrestarted : Created timerId opQueuesSize (restart.foldl insertTimer t) :=
    Created.foldl (fun _ i h => insertTimer_created h i) h
  obtain ⟨hin, halloc, hqueue⟩ : Created timerId opQueuesSize
      (t.ops.foldl insertOp (restart.foldl insertTimer t)) :=
    Created.foldl (fun _ op h => insertOp_created h op) hrestarted
  exact ⟨hin, halloc, hqueue⟩

theorem Created.tick (h : Created timerId opQueuesSize t) (n : Nat) :
    Created timerId opQueuesSize (t.tick n) := by
  unfold AppTimer.tick
  split
  · exact ⟨h.inArray, h.allocated, h.opQueue⟩
  · exact h

theorem compareRegUpdate_created (h : Created timerId opQueuesSize t) (late : Nat) :
    Created timerId opQueuesSize (compareRegUpdate t late) := by
  have hstarted : Created timerId opQueuesSize (rtc1StartIfStopped t) := by
    unfold rtc1StartIfStopped
    split
    · exact h
    · exact ⟨h.inArray, h.allocated, h.opQueue⟩
  obtain ⟨hin, halloc, hqueue⟩ := hstarted.tick late
  unfold compareRegUpdate
  split
  · exact ⟨h.inArray, h.allocated, h.opQueue⟩
  · dsimp only
    split
    · split
      · exact ⟨hin, halloc, hqueue⟩
      · exact ⟨hin, halloc, hqueue⟩
    · split
      · exact ⟨hin, halloc, hqueue⟩
      · exact ⟨hin, halloc, hqueue⟩

theorem handleElapsed_created (h : Created timerId opQueuesSize t) (ticksPrevious : UInt32)
    (ticksElapsed : Option UInt32) :
    Created timerId opQueuesSize (handleElapsed t ticksPrevious ticksElapsed).2 := by
  cases ticksElapsed with
  | none => exact h
  | some ticksElapsed => exact expiredLoop_created h _ _ _ _ _

theorem timerListHandler_created (h : Created timerId opQueuesSize t) (late : Nat) :
    Created timerId opQueuesSize (timerListHandler t late) := by
  have hdeleted := listDeletionsHandler_created (elapsedTicksAcquire_created h)
  have hexpired := handleElapsed_created hdeleted t.ticksLatest (elapsedTicksAcquire t).1
  have hinserted := fun restart => listInsertionsHandler_created hexpired restart
  unfold timerListHandler
  dsimp only
  split
  · exact compareRegUpdate_created (hinserted _) late
  · exact (hinserted _).tick late

theorem swi0IrqHandler_created (h : Created timerId opQueuesSize t) (late : Nat) :
    Created timerId opQueuesSize (swi0IrqHandler t late) := by
  unfold swi0IrqHandler
  split
  · refine timerListHandler_created ?_ late
    exact ⟨h.inArray, h.allocated, h.opQueue⟩
  · exact h.tick late

theorem rtc1IrqHandler_created (h : Created timerId opQueuesSize t) :
    Created timerId opQueuesSize (rtc1IrqHandler t).2 := by
  unfold rtc1IrqHandler
  split
  · refine timerTimeoutsCheck_created ?_
    exact ⟨h.inArray, h.allocated, h.opQueue⟩
  · exact h

theorem userOpSchedule_created (h : Created timerId opQueuesSize t) (user : TimerUser)
    (op : TimerUserOp γ) : Created timerId opQueuesSize (userOpSchedule t user op).2 := by
  unfold userOpSchedule
  split
  · exact ⟨h.inArray, h.allocated, h.opQueue⟩
  · exact h

/-- The queue is a ring that keeps one place free. -/
theorem userOpSchedule_ok_iff (h : t.userOpQueueSize = opQueuesSize + 1) {user : TimerUser}
    {op : TimerUserOp γ} :
    (userOpSchedule t user op).1 = nrfSuccess ↔ (t.userOps user).length < opQueuesSize := by
  unfold userOpSchedule
  rw [h]
  constructor
  · intro hok
    split at hok
    next hroom => omega
    next => cases hok
  · intro hroom
    rw [if_pos (by omega)]

theorem Created.appTimerStart_eq (h : Created timerId opQueuesSize t) {timeoutTicks : UInt32}
    (hticks : ¬timeoutTicks < appTimerMinTimeoutTicks) (user : TimerUser) (pContext : γ) :
    ∃ op, appTimerStart t user timerId timeoutTicks pContext = userOpSchedule t user op := by
  have hin := h.inArray
  have hparam : ¬(timerId ≥ t.nodeArraySize ∨ timeoutTicks < appTimerMinTimeoutTicks) := by
    intro hbad
    rcases hbad with hout | hshort
    · omega
    · exact hticks hshort
  have hstate : ¬(t.nodes timerId).allocated = false := by
    rw [h.allocated]
    decide
  unfold appTimerStart
  rw [if_neg hparam, if_neg hstate]
  exact ⟨_, rfl⟩

theorem Created.appTimerStop_eq (h : Created timerId opQueuesSize t) (user : TimerUser) :
    appTimerStop t user timerId = userOpSchedule t user (.stop timerId) := by
  have hin := h.inArray
  have hstate : ¬(t.nodes timerId).allocated = false := by
    rw [h.allocated]
    decide
  unfold appTimerStop
  rw [if_neg (by omega), if_neg hstate]

end BleSpeedSensor
