import BleSpeedSensor.TimerAlarms
import BleSpeedSensor.TimerListHandler

namespace BleSpeedSensor

open DeltaQueue

variable {γ : Type} {t u v : AppTimer γ} {i timerId : Nat}

theorem SameList.queued (same : SameList t u) (h : Queued t) : Queued u :=
  h.of_same same.nodes same.running

theorem SameList.alarm (same : SameList t u) (i : Nat) : u.alarm i = t.alarm i := by
  have hqueue : u.queue = t.queue := by
    unfold AppTimer.queue
    rw [same.running]
    exact queueOf_congr fun i _ => by rw [same.nodes]
  unfold AppTimer.alarm
  rw [hqueue]

theorem Inserted.mem_running {d : Nat} (h : Inserted t u timerId d) :
    i ∈ u.running ↔ i = timerId ∨ i ∈ t.running := by
  rw [← alarm_isSome_iff, h.alarm, ← alarm_isSome_iff]
  by_cases hi : i = timerId
  · simp [hi]
  · simp [hi]

/-- The ticks an expired timer is started again with. -/
def AppTimer.restartTicks (t : AppTimer γ) (timerId : Nat) : Nat :=
  (ticksToInsert t.ticksLatest (t.nodes timerId).ticksAtStart (t.nodes timerId).ticksFirstInterval).toNat

structure Restarted (t u : AppTimer γ) (restart : List Nat) : Prop where
  queued : Queued u
  onlyList : OnlyList t u
  period : ∀ i, (u.nodes i).ticksPeriodicInterval = (t.nodes i).ticksPeriodicInterval
  alarm : ∀ i, u.alarm i = if i ∈ restart then some (t.restartTicks i) else t.alarm i

theorem restarts_alarm {restart : List Nat} (h : Queued t) (hnodup : restart.Nodup)
    (hstopped : ∀ i ∈ restart, i ∉ t.running) :
    Restarted t (restart.foldl insertTimer t) restart := by
  induction restart generalizing t with
  | nil => exact ⟨h, OnlyList.refl t, fun _ => rfl, fun i => rfl⟩
  | cons first rest ih =>
    obtain ⟨hfirst, hrest⟩ := List.nodup_cons.mp hnodup
    obtain ⟨hinserted, hperiod⟩ := insertTimer_inserted h (hstopped first List.mem_cons_self)
    have hlatest := hinserted.onlyList.ticksLatest
    have hstopped' : ∀ i ∈ rest, i ∉ (insertTimer t first).running := by
      intro i hi hmem
      rcases hinserted.mem_running.mp hmem with rfl | hold
      · exact hfirst hi
      · exact hstopped i (List.mem_cons_of_mem _ hi) hold
    obtain ⟨hqueued, honly, hperiods, halarm⟩ := ih hinserted.queued hrest hstopped'
    refine ⟨hqueued, hinserted.onlyList.trans honly, fun i => ?_, fun i => ?_⟩
    · rw [List.foldl_cons, hperiods]
      by_cases hi : i = first
      · subst hi
        exact hperiod
      · exact (hinserted.nodes i hi).ticksPeriodicInterval
    · rw [List.foldl_cons, halarm]
      by_cases hi : i = first
      · subst hi
        rw [if_neg hfirst, hinserted.alarm, if_pos rfl, if_pos List.mem_cons_self]
        rfl
      · have hsame := hinserted.nodes i hi
        have hticks : (insertTimer t first).restartTicks i = t.restartTicks i := by
          unfold AppTimer.restartTicks
          rw [hlatest, hsame.ticksAtStart, hsame.ticksFirstInterval]
        rw [hticks, hinserted.alarm, if_neg hi]
        simp [hi]

/-- The ticks a timer is started with that `app_timer_start` has asked for. -/
def AppTimer.startTicks (t : AppTimer γ) (params : TimerUserOpStart γ) : Nat :=
  (ticksToInsert t.ticksLatest params.ticksAtStart params.ticksFirstInterval).toNat

theorem OnlyList.startTicks (h : OnlyList t u) : u.startTicks = t.startTicks := by
  unfold AppTimer.startTicks
  rw [h.ticksLatest]

theorem insertOp_alarm (h : Queued t) (op : TimerUserOp γ) :
    Queued (insertOp t op) ∧ OnlyList t (insertOp t op) ∧
      ∀ i, (insertOp t op).alarm i = (t.alarm i).or ((op.startOf i).map t.startTicks) := by
  cases op with
  | start timerId params =>
    unfold insertOp
    dsimp only
    split
    next hr =>
      refine ⟨h, OnlyList.refl t, fun i => ?_⟩
      by_cases hi : timerId = i
      · subst hi
        obtain ⟨d, hd⟩ := Option.isSome_iff_exists.mp (h.alarm_some_iff.mpr hr)
        rw [hd, Option.some_or]
      · simp [TimerUserOp.startOf, hi]
    next hstopped =>
      have hnew : timerId ∉ t.running := fun hmem => hstopped ((h.isRunning timerId).mpr hmem)
      generalize hnode : TimerNode.mk _ _ _ _ _ _ _ _ _ = node
      have hqueue : (t.setNode timerId node).queue = t.queue := queue_setNode_absent hnew node
      have hflag : node.isRunning = (t.nodes timerId).isRunning := by rw [← hnode]
      have hset : Queued (t.setNode timerId node) := by
        refine ⟨h.nodup, fun i => ?_, by rw [hqueue]; exact h.span⟩
        by_cases hi : i = timerId
        · subst hi
          rw [AppTimer.setNode_self, hflag]
          exact h.isRunning i
        · rw [AppTimer.setNode_ne hi]
          exact h.isRunning i
      obtain ⟨hinserted, -⟩ := insertTimer_inserted hset hnew
      refine ⟨hinserted.queued, hinserted.onlyList, fun i => ?_⟩
      have hsame : (t.setNode timerId node).alarm i = t.alarm i := by
        unfold AppTimer.alarm
        rw [hqueue]
      rw [hinserted.alarm, AppTimer.setNode_self, hsame]
      by_cases hi : i = timerId
      · subst hi
        rw [if_pos rfl, alarm_eq_none_iff.mpr hnew, Option.none_or, ← hnode]
        simp [TimerUserOp.startOf, AppTimer.startTicks, AppTimer.setNode]
      · have hne : ¬timerId = i := Ne.symm hi
        simp [TimerUserOp.startOf, hi, hne]
  | stop timerId =>
    refine ⟨h, OnlyList.refl t, fun i => ?_⟩
    simp [insertOp, TimerUserOp.startOf]
  | stopAll =>
    refine ⟨h, OnlyList.refl t, fun i => ?_⟩
    simp [insertOp, TimerUserOp.startOf]

/-- Of the starts asked for a timer, the first counts. -/
theorem starts_alarm (h : Queued t) (ops : List (TimerUserOp γ)) :
    Queued (ops.foldl insertOp t) ∧ OnlyList t (ops.foldl insertOp t) ∧
      ∀ i, (ops.foldl insertOp t).alarm i =
        (t.alarm i).or ((ops.findSome? (TimerUserOp.startOf i)).map t.startTicks) := by
  induction ops generalizing t with
  | nil => exact ⟨h, OnlyList.refl t, fun i => by simp⟩
  | cons op ops ih =>
    obtain ⟨hqueued, honly, halarm⟩ := insertOp_alarm h op
    obtain ⟨hqueued', honly', halarm'⟩ := ih hqueued
    refine ⟨hqueued', honly.trans honly', fun i => ?_⟩
    rw [List.foldl_cons, halarm', halarm, honly.startTicks, List.findSome?_cons, Option.or_assoc]
    cases op.startOf i with
    | none => rfl
    | some params => rfl

/-- What the passing of the elapsed ticks does to a timer due after `d` ticks: an expired timer that
repeats is started again from when it was due. -/
def elapsedAlarm (latest previous : UInt32) (ticksElapsed : Option UInt32) (period : UInt32) (d : Nat) :
    Option Nat :=
  match ticksElapsed with
  | none => some d
  | some n =>
    if n.toNat < d then some (d - n.toNat)
    else if period ≠ 0 then
      some (ticksToInsert latest ((previous + UInt32.ofNat d) &&& maxRtcCounterVal) period).toNat
    else none

theorem expiredTimersHandler_expiries (h : Queued t) (ticksElapsed previous : UInt32) :
    (expiredTimersHandler t ticksElapsed previous).1 =
      ((overdue ticksElapsed.toNat t.queue).filter t.periodic).reverse ∧
    Expiries t (expiredTimersHandler t ticksElapsed previous).2 previous 0 ticksElapsed.toNat
      t.running := by
  refine ⟨?_, expiredLoop_expiries (e := 0) h.nodup⟩
  refine Eq.trans ?_ (List.append_nil _)
  exact expiredLoop_restart h.nodup

section Elapse

variable {ticksElapsed previous : UInt32}

theorem mem_restart_iff (h : Queued t) : i ∈ (expiredTimersHandler t ticksElapsed previous).1 ↔
    (∃ d, t.alarm i = some d ∧ d ≤ ticksElapsed.toNat) ∧ t.periodic i = true := by
  rw [(expiredTimersHandler_expiries h ticksElapsed previous).1, List.mem_reverse, List.mem_filter]
  exact and_congr_left' (mem_overdue_iff (by rw [keys_queue]; exact h.nodup))

theorem restart_stopped (h : Queued t) (ticksElapsed previous : UInt32) :
    (expiredTimersHandler t ticksElapsed previous).1.Nodup ∧
    ∀ i ∈ (expiredTimersHandler t ticksElapsed previous).1,
      i ∉ (expiredTimersHandler t ticksElapsed previous).2.running := by
  obtain ⟨hrestart, hexpiries⟩ := expiredTimersHandler_expiries h ticksElapsed previous
  have hrunning := running_eq_of_queue hexpiries.queue
  have hkeys : (keys t.queue).Nodup := by
    rw [keys_queue]
    exact h.nodup
  rw [← overdue_append_keys_advance ticksElapsed.toNat t.queue, List.nodup_append] at hkeys
  obtain ⟨hoverdue, -, hdisjoint⟩ := hkeys
  rw [hrestart]
  refine ⟨(List.reverse_perm _).nodup_iff.mpr (hoverdue.filter _), fun i hi hrun => ?_⟩
  have hmem := (List.mem_filter.mp (List.mem_reverse.mp hi)).1
  exact hdisjoint i hmem i (hrunning ▸ hrun) rfl

theorem expired_alarm (h : Queued t) (i : Nat) :
    (expiredTimersHandler t ticksElapsed previous).2.alarm i = (t.alarm i).bind fun d =>
      if ticksElapsed.toNat < d then some (d - ticksElapsed.toNat) else none := by
  obtain ⟨-, hexpiries⟩ := expiredTimersHandler_expiries h ticksElapsed previous
  unfold AppTimer.alarm
  rw [hexpiries.queue]
  exact due_advance (by rw [keys_queueOf]; exact h.nodup) ticksElapsed.toNat

/-- An expired timer that repeats starts from when it was due. -/
theorem expired_restartTicks (h : Queued t) {d : Nat} (hd : t.alarm i = some d)
    (hle : d ≤ ticksElapsed.toNat) (hp : (t.nodes i).ticksPeriodicInterval ≠ 0) :
    (expiredTimersHandler t ticksElapsed previous).2.restartTicks i =
      (ticksToInsert t.ticksLatest ((previous + UInt32.ofNat d) &&& maxRtcCounterVal)
        (t.nodes i).ticksPeriodicInterval).toNat := by
  obtain ⟨-, hexpiries⟩ := expiredTimersHandler_expiries h ticksElapsed previous
  have hexpired := hexpiries.expired i d hd hle
  unfold AppTimer.restartTicks
  rw [hexpiries.onlyList.ticksLatest, hexpired.ticksAtStart hp, hexpired.ticksFirstInterval hp,
    Nat.zero_add]

theorem elapse_alarm (h : Queued t) (ticksElapsed previous : UInt32) {w : AppTimer γ}
    (hw : (expiredTimersHandler t ticksElapsed previous).1.foldl insertTimer
      (expiredTimersHandler t ticksElapsed previous).2 = w) :
    Queued w ∧ OnlyList t w ∧ ∀ i, w.alarm i = (t.alarm i).bind
      (elapsedAlarm t.ticksLatest previous (some ticksElapsed)
        (t.nodes i).ticksPeriodicInterval) := by
  obtain ⟨-, hexpiries⟩ := expiredTimersHandler_expiries h ticksElapsed previous
  obtain ⟨hnodup, hstopped⟩ := restart_stopped h ticksElapsed previous
  obtain ⟨hqueued, honly, -, halarm⟩ := restarts_alarm (hexpiries.queued h) hnodup hstopped
  rw [hw] at hqueued honly halarm
  refine ⟨hqueued, hexpiries.onlyList.trans honly, fun i => ?_⟩
  rw [halarm, expired_alarm h]
  cases hd : t.alarm i with
  | none =>
    have hidle : i ∉ (expiredTimersHandler t ticksElapsed previous).1 := by
      simp [mem_restart_iff h, hd]
    rw [if_neg hidle]
    rfl
  | some d =>
    unfold elapsedAlarm
    simp only [Option.bind_some]
    by_cases hlt : ticksElapsed.toNat < d
    · have hearly : i ∉ (expiredTimersHandler t ticksElapsed previous).1 := by
        rw [mem_restart_iff h, hd]
        rintro ⟨⟨d', hd', hle⟩, -⟩
        cases hd'
        omega
      rw [if_neg hearly, if_pos hlt, if_pos hlt]
    · rw [if_neg hlt, if_neg hlt]
      have hle : d ≤ ticksElapsed.toNat := Nat.not_lt.mp hlt
      by_cases hp : (t.nodes i).ticksPeriodicInterval = 0
      · have hsingle : i ∉ (expiredTimersHandler t ticksElapsed previous).1 := by
          simp [mem_restart_iff h, AppTimer.periodic, hp]
        rw [if_neg hsingle, if_neg (not_not_intro hp)]
      · have hrestart : i ∈ (expiredTimersHandler t ticksElapsed previous).1 := by
          rw [mem_restart_iff h]
          exact ⟨⟨d, hd, hle⟩, by simp [AppTimer.periodic, hp]⟩
        rw [if_pos hrestart, if_pos hp, expired_restartTicks h hd hle hp]

end Elapse

theorem handleElapsed_alarm (h : Queued t) (previous : UInt32) (ticksElapsed : Option UInt32)
    {w : AppTimer γ} (hw : (handleElapsed t previous ticksElapsed).1.foldl insertTimer
      (handleElapsed t previous ticksElapsed).2 = w) :
    Queued w ∧ OnlyList t w ∧ ∀ i, w.alarm i = (t.alarm i).bind
      (elapsedAlarm t.ticksLatest previous ticksElapsed (t.nodes i).ticksPeriodicInterval) := by
  cases ticksElapsed with
  | none =>
    subst hw
    refine ⟨h, OnlyList.refl t, fun i => ?_⟩
    cases hd : t.alarm i with
    | none => exact hd
    | some d => exact hd
  | some n => exact elapse_alarm h n previous hw

/-- What an update finds of one timer: when it is due, its period and what has been asked for it. -/
structure TimerRow (γ : Type) where
  alarm : Option Nat
  period : UInt32
  stopped : Bool
  start : Option (TimerUserOpStart γ)

def AppTimer.row (t : AppTimer γ) (timerId : Nat) : TimerRow γ where
  alarm := t.alarm timerId
  period := (t.nodes timerId).ticksPeriodicInterval
  stopped := t.ops.any (TimerUserOp.stops timerId)
  start := t.ops.findSome? (TimerUserOp.startOf timerId)

/-- What is common to all timers: the value of the counter that the deadlines count from before the
update and after it, and the ticks between. -/
structure UpdateClock where
  previous : UInt32
  ticksElapsed : Option UInt32
  latest : UInt32

/-- Whether one of the stops takes the last timer out of the list. RTC1 is cleared then; where all
timers are stopped at once it is not. -/
def stopsLast : List Nat → List (TimerUserOp γ) → Bool
  | _, [] => false
  | running, .start _ _ :: ops => stopsLast running ops
  | running, .stop timerId :: ops => running == [timerId] || stopsLast (running.erase timerId) ops
  | _, .stopAll :: ops => stopsLast [] ops

def AppTimer.updateClock (t : AppTimer γ) : UpdateClock where
  previous := t.ticksLatest
  ticksElapsed := t.ticksElapsed
  latest :=
    if stopsLast t.running t.ops then 0
    else t.ticksElapsed.elim t.ticksLatest fun n => (t.ticksLatest + n) &&& maxRtcCounterVal

/-- The law of an update for one timer, from its own row and the clock: it is stopped, or its time
passes, and when it is not running then, it may be started. -/
def updatedAlarm (clock : UpdateClock) (row : TimerRow γ) : Option Nat :=
  let kept := if row.stopped then none else row.alarm
  let elapsed := kept.bind
    (elapsedAlarm clock.latest clock.previous clock.ticksElapsed row.period)
  elapsed.or (row.start.map fun params =>
    (ticksToInsert clock.latest params.ticksAtStart params.ticksFirstInterval).toNat)

theorem timerListRemove_ticksLatest (h : Queued t) (hmem : timerId ∈ t.running) :
    (timerListRemove t timerId).ticksLatest = if t.running = [timerId] then 0 else t.ticksLatest := by
  have hframe := removeLoop_frame timerId t.running t
  have hlatest : (removeLoop timerId t.running t).2.ticksLatest = t.ticksLatest := by
    rw [hframe.rest]
  have hrunning := timerListRemove_running h timerId
  have hlist : (removeLoop timerId t.running t).1 = t.running.erase timerId := by
    unfold timerListRemove at hrunning
    dsimp only at hrunning
    split at hrunning
    · exact hrunning
    · exact hrunning
  have hempty : t.running.erase timerId = [] ↔ t.running = [timerId] := by
    rw [List.erase_eq_nil_iff]
    refine ⟨fun hor => hor.resolve_left ?_, Or.inr⟩
    exact List.ne_nil_of_mem hmem
  unfold timerListRemove
  dsimp only
  rw [hlist]
  split
  next hlast => exact (if_pos (hempty.mp hlast.2)).symm
  next hmore =>
    rw [if_neg fun hone => hmore ⟨List.ne_nil_of_mem hmem, hempty.mpr hone⟩]
    exact hlatest

theorem deleteOp_stop_clock (h : Queued t) (timerId : Nat) :
    (deleteOp t (.stop timerId)).running = t.running.erase timerId ∧
      (deleteOp t (.stop timerId)).ticksLatest =
        if t.running = [timerId] then 0 else t.ticksLatest := by
  unfold deleteOp
  dsimp only
  split
  next hr =>
    exact ⟨timerListRemove_running h timerId,
      timerListRemove_ticksLatest h ((h.isRunning timerId).mp hr)⟩
  next hstopped =>
    have habsent : timerId ∉ t.running := fun hmem => hstopped ((h.isRunning timerId).mpr hmem)
    refine ⟨(List.erase_of_not_mem habsent).symm, (if_neg fun hone => habsent ?_).symm⟩
    rw [hone]
    exact List.mem_singleton_self timerId

theorem deletions_ticksLatest (h : Queued t) (ops : List (TimerUserOp γ)) :
    (ops.foldl deleteOp t).ticksLatest = if stopsLast t.running ops then 0 else t.ticksLatest := by
  induction ops generalizing t with
  | nil => rfl
  | cons op ops ih =>
    rw [List.foldl_cons, ih (deleteOp_queued h op)]
    cases op with
    | start i params => rfl
    | stop i =>
      obtain ⟨hrunning, hlatest⟩ := deleteOp_stop_clock h i
      rw [hrunning, hlatest, stopsLast]
      by_cases hone : t.running = [i]
      · simp [hone]
      · simp [hone]
    | stopAll =>
      change (if stopsLast [] ops then 0 else t.ticksLatest) = if stopsLast [] ops then 0 else _
      rfl

theorem elapsedTicksAcquire_ticks (t : AppTimer γ) : (elapsedTicksAcquire t).1 = t.ticksElapsed := by
  unfold elapsedTicksAcquire
  split
  next n hn => exact hn.symm
  next hn => exact hn.symm

theorem ops_congr (h : u.userOps = t.userOps) : u.ops = t.ops := by
  unfold AppTimer.ops
  rw [h]

theorem handleElapsed_onlyList (h : Queued t) (previous : UInt32) (ticksElapsed : Option UInt32) :
    OnlyList t (handleElapsed t previous ticksElapsed).2 := by
  cases ticksElapsed with
  | none => exact OnlyList.refl t
  | some n => exact (expiredTimersHandler_expiries h n previous).2.onlyList

/-- The list as an update leaves it, before the compare register is set. -/
def listUpdated (t : AppTimer γ) : AppTimer γ :=
  let acquired := elapsedTicksAcquire t
  let expiries := handleElapsed (listDeletionsHandler acquired.2).2 t.ticksLatest acquired.1
  (listInsertionsHandler expiries.2 expiries.1).2

theorem timerListHandler_cases (t : AppTimer γ) (late : Nat) :
    timerListHandler t late = compareRegUpdate (listUpdated t) late ∨
      timerListHandler t late = (listUpdated t).tick late := by
  unfold timerListHandler listUpdated
  dsimp only
  split
  · exact Or.inl rfl
  · exact Or.inr rfl

theorem timerListHandler_same (t : AppTimer γ) (late : Nat) :
    SameList (listUpdated t) (timerListHandler t late) := by
  rcases timerListHandler_cases t late with heq | heq
  · rw [heq]
    exact compareRegUpdate_same (listUpdated t) late
  · rw [heq]
    exact AppTimer.tick_same (listUpdated t) late

theorem deleted_alarm (h : Queued t) {u : AppTimer γ}
    (hu : (listDeletionsHandler (elapsedTicksAcquire t).2).2 = u) :
    Queued u ∧ DeletionFrame (elapsedTicksAcquire t).2 u ∧ u.ops = t.ops ∧
      ∀ i, u.alarm i = if t.ops.any (TimerUserOp.stops i) then none else t.alarm i := by
  subst hu
  have same := elapsedTicksAcquire_same t
  have hqueued : Queued (elapsedTicksAcquire t).2 := h.of_same same.nodes same.running
  have hops : (elapsedTicksAcquire t).2.ops = t.ops := ops_congr same.userOps
  have hframe := deletions_frame (elapsedTicksAcquire t).2 (elapsedTicksAcquire t).2.ops
  refine ⟨deletions_queued hqueued _, hframe, (ops_congr hframe.userOps).trans hops, fun i => ?_⟩
  have halarm := deletions_alarm hqueued (elapsedTicksAcquire t).2.ops i
  rw [hops, same.alarm i] at halarm
  unfold listDeletionsHandler
  rw [hops]
  exact halarm

theorem deleted_ticksLatest (h : Queued t) :
    (listDeletionsHandler (elapsedTicksAcquire t).2).2.ticksLatest = t.updateClock.latest := by
  have same := elapsedTicksAcquire_same t
  have hqueued : Queued (elapsedTicksAcquire t).2 := h.of_same same.nodes same.running
  have hops : (elapsedTicksAcquire t).2.ops = t.ops := ops_congr same.userOps
  have hlatest : (elapsedTicksAcquire t).2.ticksLatest =
      t.ticksElapsed.elim t.ticksLatest fun n => (t.ticksLatest + n) &&& maxRtcCounterVal := by
    unfold elapsedTicksAcquire
    split
    next n hn => rw [hn]; rfl
    next hn => rw [hn]; rfl
  unfold listDeletionsHandler
  dsimp only
  rw [hops, deletions_ticksLatest hqueued, same.running, hlatest]
  rfl

theorem listUpdated_alarm (h : Queued t) :
    Queued (listUpdated t) ∧ (listUpdated t).ticksLatest = t.updateClock.latest ∧
      ∀ i, (listUpdated t).alarm i = updatedAlarm t.updateClock (t.row i) := by
  have hlatest := deleted_ticksLatest h
  obtain ⟨hdeleted, hframe, hops, halarm⟩ := deleted_alarm h rfl
  have hperiod : ∀ i, ((listDeletionsHandler (elapsedTicksAcquire t).2).2.nodes i).ticksPeriodicInterval =
      (t.nodes i).ticksPeriodicInterval := by
    intro i
    rw [hframe.period, (elapsedTicksAcquire_same t).nodes]
  have honly := handleElapsed_onlyList hdeleted t.ticksLatest (elapsedTicksAcquire t).1
  obtain ⟨hrestarted, honly', helapsed⟩ :=
    handleElapsed_alarm hdeleted t.ticksLatest (elapsedTicksAcquire t).1 rfl
  obtain ⟨hstarted, honly'', hstarts⟩ := starts_alarm hrestarted
    (handleElapsed (listDeletionsHandler (elapsedTicksAcquire t).2).2 t.ticksLatest
      (elapsedTicksAcquire t).1).2.ops
  refine ⟨hstarted.of_same rfl rfl,
    honly''.ticksLatest.trans (honly'.ticksLatest.trans hlatest), fun i => ?_⟩
  refine (hstarts i).trans ?_
  rw [ops_congr honly.userOps, hops, helapsed, halarm, hperiod, honly'.startTicks,
    elapsedTicksAcquire_ticks]
  unfold AppTimer.startTicks
  rw [hlatest]
  rfl

/-- The list of gaps encodes the timers faithfully: an update does to each of them what the law says
of its row. -/
theorem timerListHandler_alarm (h : Queued t) (late : Nat) :
    Queued (timerListHandler t late) ∧
      ∀ i, (timerListHandler t late).alarm i = updatedAlarm t.updateClock (t.row i) := by
  have same := timerListHandler_same t late
  obtain ⟨hqueued, -, halarm⟩ := listUpdated_alarm h
  exact ⟨same.queued hqueued, fun i => (same.alarm i).trans (halarm i)⟩

theorem timerListHandler_ticksLatest (h : Queued t) {late : Nat}
    (hne : (timerListHandler t late).running ≠ []) :
    (timerListHandler t late).ticksLatest = t.updateClock.latest := by
  obtain ⟨-, hlatest, -⟩ := listUpdated_alarm h
  rw [(timerListHandler_same t late).running] at hne
  rw [← hlatest]
  rcases timerListHandler_cases t late with hcompare | htick
  · rw [hcompare]
    exact (compareRegUpdate_counting hne late).1
  · rw [htick]
    exact AppTimer.tick_ticksLatest _ late

end BleSpeedSensor
