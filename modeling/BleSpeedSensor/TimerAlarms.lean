import BleSpeedSensor.TimerQueue

namespace BleSpeedSensor

open DeltaQueue

variable {γ : Type} {t u v : AppTimer γ} {i j timerId : Nat}

/-- Nothing but the list and the nodes may differ. -/
def OnlyList (t u : AppTimer γ) : Prop := u = { t with nodes := u.nodes, running := u.running }

theorem OnlyList.refl (t : AppTimer γ) : OnlyList t t := rfl

theorem OnlyList.trans (h : OnlyList t u) (h' : OnlyList u v) : OnlyList t v := by
  unfold OnlyList at h h' ⊢
  rw [h', h]

theorem OnlyList.ticksLatest (h : OnlyList t u) : u.ticksLatest = t.ticksLatest := by
  unfold OnlyList at h
  rw [h]

theorem OnlyList.ticksElapsed (h : OnlyList t u) : u.ticksElapsed = t.ticksElapsed := by
  unfold OnlyList at h
  rw [h]

theorem OnlyList.counter (h : OnlyList t u) : u.counter = t.counter := by
  unfold OnlyList at h
  rw [h]

theorem OnlyList.rtc1Running (h : OnlyList t u) : u.rtc1Running = t.rtc1Running := by
  unfold OnlyList at h
  rw [h]

theorem OnlyList.userOps (h : OnlyList t u) : u.userOps = t.userOps := by
  unfold OnlyList at h
  rw [h]

theorem ListFrame.onlyList (h : ListFrame t u) (running : List Nat) :
    OnlyList t { u with running := running } := by
  unfold OnlyList
  rw [h.rest]

def TimerUserOp.stops (timerId : Nat) : TimerUserOp γ → Bool
  | .start _ _ => false
  | .stop i => i == timerId
  | .stopAll => true

def TimerUserOp.startOf (timerId : Nat) : TimerUserOp γ → Option (TimerUserOpStart γ)
  | .start i params => if i = timerId then some params else none
  | .stop _ | .stopAll => none

theorem timerListRemove_queue (h : Queued t) (timerId : Nat) :
    (timerListRemove t timerId).queue = remove timerId t.queue := by
  have hqueue : queueOf (removeLoop timerId t.running t).2 (removeLoop timerId t.running t).1 =
      remove timerId t.queue := removeLoop_queue h.nodup h.span
  unfold timerListRemove
  dsimp only
  split
  · exact hqueue
  · exact hqueue

theorem timerListRemove_nodes (t : AppTimer γ) (timerId i : Nat) :
    SameButTicks (t.nodes i) ((timerListRemove t timerId).nodes i) := by
  have hframe := (removeLoop_frame timerId t.running t).nodes i
  unfold timerListRemove
  dsimp only
  split
  · exact hframe
  · exact hframe

theorem running_eq_of_queue {q : Queue Nat} (h : u.queue = q) : u.running = keys q := by
  rw [← h, keys_queue]

theorem timerListRemove_running (h : Queued t) (timerId : Nat) :
    (timerListRemove t timerId).running = t.running.erase timerId := by
  rw [running_eq_of_queue (timerListRemove_queue h timerId), keys_remove, keys_queue]

theorem queue_setNode (t : AppTimer γ) (timerId : Nat) (node : TimerNode γ)
    (hnode : node.ticksToExpire = (t.nodes timerId).ticksToExpire) :
    (t.setNode timerId node).queue = t.queue := by
  refine queueOf_congr fun i _ => ?_
  by_cases hi : i = timerId
  · subst hi
    rw [AppTimer.setNode_self]
    exact hnode
  · rw [AppTimer.setNode_ne hi]

theorem queue_setNode_absent (habsent : timerId ∉ t.running) (node : TimerNode γ) :
    (t.setNode timerId node).queue = t.queue := by
  refine queueOf_congr fun i hi => ?_
  have hne : i ≠ timerId := fun he => habsent (he ▸ hi)
  rw [AppTimer.setNode_ne hne]

/-- What the deletions leave of everything that is not the list. -/
structure DeletionFrame (t u : AppTimer γ) : Prop where
  period : ∀ i, (u.nodes i).ticksPeriodicInterval = (t.nodes i).ticksPeriodicInterval
  userOps : u.userOps = t.userOps
  ticksElapsed : u.ticksElapsed = t.ticksElapsed
  emptied : t.running = [] → u.running = []
  sameClock : u.running ≠ [] → OnlyList t u

theorem DeletionFrame.refl (t : AppTimer γ) : DeletionFrame t t :=
  ⟨fun _ => rfl, rfl, rfl, id, fun _ => OnlyList.refl t⟩

theorem DeletionFrame.trans (h : DeletionFrame t u) (h' : DeletionFrame u v) : DeletionFrame t v := by
  refine ⟨fun i => (h'.period i).trans (h.period i), h'.userOps.trans h.userOps,
    h'.ticksElapsed.trans h.ticksElapsed, fun he => h'.emptied (h.emptied he), fun hne => ?_⟩
  have hu : u.running ≠ [] := fun he => hne (h'.emptied he)
  exact (h.sameClock hu).trans (h'.sameClock hne)

theorem timerListRemove_frame (t : AppTimer γ) (timerId : Nat) :
    DeletionFrame t (timerListRemove t timerId) := by
  have hframe := removeLoop_frame timerId t.running t
  refine ⟨fun i => (timerListRemove_nodes t timerId i).ticksPeriodicInterval, ?_, ?_, ?_, ?_⟩
  · have hops : (removeLoop timerId t.running t).2.userOps = t.userOps := by rw [hframe.rest]
    unfold timerListRemove
    dsimp only
    split
    · exact hops
    · exact hops
  · have helapsed : (removeLoop timerId t.running t).2.ticksElapsed = t.ticksElapsed := by
      rw [hframe.rest]
    unfold timerListRemove
    dsimp only
    split
    · exact helapsed
    · exact helapsed
  · intro he
    unfold timerListRemove
    dsimp only
    rw [he]
    rfl
  · intro hne
    unfold timerListRemove at hne ⊢
    dsimp only at hne ⊢
    split at hne
    next hlast => exact absurd hlast.2 hne
    next hmore =>
      rw [if_neg hmore]
      exact hframe.onlyList _

theorem deleteOp_frame (t : AppTimer γ) (op : TimerUserOp γ) : DeletionFrame t (deleteOp t op) := by
  cases op with
  | start i params => exact DeletionFrame.refl t
  | stop i =>
    unfold deleteOp
    dsimp only
    split
    · refine (timerListRemove_frame t i).trans ⟨fun j => ?_, rfl, rfl, id, fun _ => rfl⟩
      by_cases hj : j = i
      · subst hj
        rw [AppTimer.setNode_self]
      · rw [AppTimer.setNode_ne hj]
    · exact DeletionFrame.refl t
  | stopAll =>
    refine ⟨fun i => ?_, rfl, rfl, fun _ => rfl, fun hne => absurd rfl hne⟩
    unfold deleteOp
    dsimp only
    split
    · rfl
    · rfl

theorem deleteOp_queued (h : Queued t) (op : TimerUserOp γ) : Queued (deleteOp t op) := by
  cases op with
  | start i params => exact h
  | stop i =>
    unfold deleteOp
    dsimp only
    split
    · have hqueue := timerListRemove_queue h i
      have hrunning := timerListRemove_running h i
      refine ⟨?_, fun j => ?_, ?_⟩
      · change (timerListRemove t i).running.Nodup
        rw [hrunning]
        exact h.nodup.erase i
      · change _ ↔ j ∈ (timerListRemove t i).running
        rw [hrunning, List.Nodup.mem_erase_iff h.nodup]
        by_cases hj : j = i
        · subst hj
          rw [AppTimer.setNode_self]
          exact iff_of_false (by simp) fun hmem => hmem.1 rfl
        · rw [AppTimer.setNode_ne hj, (timerListRemove_nodes t i j).isRunning, h.isRunning j]
          exact ⟨fun hmem => ⟨hj, hmem⟩, And.right⟩
      · have hset := (queue_setNode (timerListRemove t i) i
          { (timerListRemove t i).nodes i with isRunning := false } rfl).trans hqueue
        refine Nat.lt_of_le_of_lt (Nat.le_of_eq (congrArg span hset)) ?_
        exact Nat.lt_of_le_of_lt (span_remove_le i t.queue) h.span
    · exact h
  | stopAll =>
    refine ⟨List.nodup_nil, fun j => ?_, Nat.zero_lt_succ _⟩
    unfold deleteOp
    dsimp only
    split
    next hmem => exact iff_of_false (by simp) (by simp)
    next hmem =>
      rw [h.isRunning j]
      exact iff_of_false hmem (by simp)

theorem deleteOp_alarm (h : Queued t) (op : TimerUserOp γ) (i : Nat) :
    (deleteOp t op).alarm i = if op.stops i then none else t.alarm i := by
  cases op with
  | start j params => rfl
  | stop j =>
    unfold deleteOp TimerUserOp.stops
    dsimp only
    split
    next hr =>
      have hqueue : AppTimer.queue ((timerListRemove t j).setNode j
          { (timerListRemove t j).nodes j with isRunning := false }) = remove j t.queue :=
        (queue_setNode (timerListRemove t j) j
          { (timerListRemove t j).nodes j with isRunning := false } rfl).trans
          (timerListRemove_queue h j)
      unfold AppTimer.alarm
      rw [hqueue]
      by_cases hj : j = i
      · subst hj
        rw [due_remove_self (by rw [keys_queue]; exact h.nodup)]
        simp
      · rw [due_remove_ne hj, if_neg (by simpa using hj)]
    next hstopped =>
      by_cases hj : j = i
      · subst hj
        have habsent : j ∉ t.running := fun hmem => hstopped ((h.isRunning j).mpr hmem)
        rw [alarm_eq_none_iff.mpr habsent]
        simp
      · rw [if_neg (by simpa using hj)]
  | stopAll => rfl

theorem deletions_queued (h : Queued t) (ops : List (TimerUserOp γ)) :
    Queued (ops.foldl deleteOp t) := by
  induction ops generalizing t with
  | nil => exact h
  | cons op ops ih => exact ih (deleteOp_queued h op)

theorem deletions_frame (t : AppTimer γ) (ops : List (TimerUserOp γ)) :
    DeletionFrame t (ops.foldl deleteOp t) := by
  induction ops generalizing t with
  | nil => exact DeletionFrame.refl t
  | cons op ops ih => exact (deleteOp_frame t op).trans (ih (deleteOp t op))

theorem deletions_alarm (h : Queued t) (ops : List (TimerUserOp γ)) (i : Nat) :
    (ops.foldl deleteOp t).alarm i = if ops.any (TimerUserOp.stops i) then none else t.alarm i := by
  induction ops generalizing t with
  | nil => rfl
  | cons op ops ih =>
    rw [List.foldl_cons, ih (deleteOp_queued h op), deleteOp_alarm h, List.any_cons]
    cases op.stops i with
    | true => simp
    | false => simp

/-- What an expiry leaves in the node of a timer that is due after `d` ticks. -/
structure Expired (ticksPrevious : UInt32) (d : Nat) (node node' : TimerNode γ) : Prop where
  isRunning : node'.isRunning = false
  period : node'.ticksPeriodicInterval = node.ticksPeriodicInterval
  ticksAtStart : node.ticksPeriodicInterval ≠ 0 →
    node'.ticksAtStart = (ticksPrevious + UInt32.ofNat d) &&& maxRtcCounterVal
  ticksFirstInterval : node.ticksPeriodicInterval ≠ 0 →
    node'.ticksFirstInterval = node.ticksPeriodicInterval

def AppTimer.periodic (t : AppTimer γ) (timerId : Nat) : Bool :=
  (t.nodes timerId).ticksPeriodicInterval != 0

structure Expiries (t u : AppTimer γ) (ticksPrevious : UInt32) (ticksExpired ticksElapsed : Nat)
    (running : List Nat) : Prop where
  queue : u.queue = advance ticksElapsed (queueOf t running)
  onlyList : OnlyList t u
  kept : ∀ i, i ∉ overdue ticksElapsed (queueOf t running) → SameButTicks (t.nodes i) (u.nodes i)
  expired : ∀ i d, due (queueOf t running) i = some d → d ≤ ticksElapsed →
    Expired ticksPrevious (ticksExpired + d) (t.nodes i) (u.nodes i)

theorem expiredLoop_restart {ticksPrevious ticksElapsed ticksExpired : UInt32}
    {restart running : List Nat} (hnodup : running.Nodup) :
    (expiredLoop ticksPrevious ticksElapsed ticksExpired restart running t).1 =
      ((overdue ticksElapsed.toNat (queueOf t running)).filter t.periodic).reverse ++ restart := by
  induction running generalizing t ticksElapsed ticksExpired restart with
  | nil => rfl
  | cons current rest ih =>
    obtain ⟨hcurrent, hrest⟩ := List.nodup_cons.mp hnodup
    have hqueue : ∀ node, queueOf (t.setNode current node) rest = queueOf t rest := by
      intro node
      refine queueOf_congr fun i hi => ?_
      have hne : i ≠ current := fun he => hcurrent (he ▸ hi)
      rw [AppTimer.setNode_ne hne]
    have hfilter : ∀ node n, (overdue n (queueOf t rest)).filter (t.setNode current node).periodic =
        (overdue n (queueOf t rest)).filter t.periodic := by
      intro node n
      refine List.filter_congr fun i hi => ?_
      have hmem : i ∈ rest := by
        rw [← keys_queueOf t rest, ← overdue_append_keys_advance n]
        exact List.mem_append_left _ hi
      have hne : i ≠ current := fun he => hcurrent (he ▸ hmem)
      unfold AppTimer.periodic
      rw [AppTimer.setNode_ne hne]
    rw [queueOf_cons, overdue]
    unfold expiredLoop
    dsimp only
    split
    next hlt => rw [if_pos (UInt32.lt_iff_toNat_lt.mp hlt)]; rfl
    next hge =>
      have hle := UInt32.not_lt.mp hge
      have hsub : (ticksElapsed - (t.nodes current).ticksToExpire).toNat =
          ticksElapsed.toNat - (t.nodes current).ticksToExpire.toNat :=
        UInt32.toNat_sub_of_le _ _ hle
      rw [if_neg (Nat.not_lt.mpr (UInt32.le_iff_toNat_le.mp hle))]
      split
      next hperiodic =>
        have hp : t.periodic current = true := by
          unfold AppTimer.periodic
          simpa using hperiodic
        rw [ih hrest, hqueue, hfilter, hsub, List.filter_cons_of_pos hp, List.reverse_cons,
          List.append_assoc]
        rfl
      next hsingle =>
        have hp : ¬t.periodic current = true := by
          unfold AppTimer.periodic
          simpa using hsingle
        rw [ih hrest, hqueue, hfilter, hsub, List.filter_cons_of_neg hp]

theorem Expiries.cons {ticksPrevious : UInt32} {e n gap : Nat} {current : Nat} {rest : List Nat}
    {node : TimerNode γ} (hgap : (t.nodes current).ticksToExpire.toNat = gap)
    (hnode : Expired ticksPrevious (e + gap) (t.nodes current) node) (hle : gap ≤ n)
    (hcurrent : current ∉ rest)
    (h : Expiries (t.setNode current node) u ticksPrevious (e + gap) (n - gap) rest) :
    Expiries t u ticksPrevious e n (current :: rest) := by
  have hqueue : queueOf (t.setNode current node) rest = queueOf t rest := by
    refine queueOf_congr fun i hi => ?_
    have hne : i ≠ current := fun he => hcurrent (he ▸ hi)
    rw [AppTimer.setNode_ne hne]
  obtain ⟨hadvance, honly, hkept, hexpired⟩ := h
  rw [hqueue] at hadvance hkept hexpired
  constructor
  · rw [hadvance, queueOf_cons, hgap, advance, if_neg (Nat.not_lt.mpr hle)]
  · exact honly
  · intro i hi
    rw [queueOf_cons, hgap, overdue, if_neg (Nat.not_lt.mpr hle), List.mem_cons,
      not_or] at hi
    have hsame := hkept i hi.2
    rw [AppTimer.setNode_ne hi.1] at hsame
    exact hsame
  · intro i d hd hdn
    rw [queueOf_cons, hgap] at hd
    by_cases hi : current = i
    · subst hi
      rw [due_cons_self] at hd
      cases hd
      have habsent : current ∉ overdue (n - gap) (queueOf t rest) := by
        intro hmem
        have hkey := List.mem_append_left (keys (advance (n - gap) (queueOf t rest))) hmem
        rw [overdue_append_keys_advance, keys_queueOf] at hkey
        exact hcurrent hkey
      have hsame := hkept current habsent
      rw [AppTimer.setNode_self] at hsame
      exact ⟨hsame.isRunning.trans hnode.isRunning,
        hsame.ticksPeriodicInterval.trans hnode.period,
        fun hp => hsame.ticksAtStart.trans (hnode.ticksAtStart hp),
        fun hp => hsame.ticksFirstInterval.trans (hnode.ticksFirstInterval hp)⟩
    · rw [due_cons_ne hi] at hd
      obtain ⟨d', hd', hsum⟩ := Option.map_eq_some_iff.mp hd
      have hrest := hexpired i d' hd' (by omega)
      rw [AppTimer.setNode_ne (Ne.symm hi), Nat.add_assoc, hsum] at hrest
      exact hrest

theorem expiredLoop_expiries {ticksPrevious ticksElapsed : UInt32} {e : Nat}
    {restart running : List Nat} (hnodup : running.Nodup) :
    Expiries t (expiredLoop ticksPrevious ticksElapsed (UInt32.ofNat e) restart running t).2
      ticksPrevious e ticksElapsed.toNat running := by
  induction running generalizing t ticksElapsed e restart with
  | nil =>
    refine ⟨rfl, rfl, fun i _ => SameButTicks.refl _, fun i d hd _ => ?_⟩
    cases hd
  | cons current rest ih =>
    obtain ⟨hcurrent, hrest⟩ := List.nodup_cons.mp hnodup
    unfold expiredLoop
    dsimp only
    split
    next hlater =>
      have hlt := UInt32.lt_iff_toNat_lt.mp hlater
      have hsub : ((t.nodes current).ticksToExpire - ticksElapsed).toNat =
          (t.nodes current).ticksToExpire.toNat - ticksElapsed.toNat :=
        UInt32.toNat_sub_of_le _ _ (UInt32.le_of_lt hlater)
      refine ⟨?_, rfl, fun i _ => setNode_sameButTicks t current _ i, fun i d hd hle => ?_⟩
      · have htail : ∀ node, queueOf (t.setNode current node) rest = queueOf t rest := by
          intro node
          refine queueOf_congr fun i hi => ?_
          have hne : i ≠ current := fun he => hcurrent (he ▸ hi)
          rw [AppTimer.setNode_ne hne]
        change queueOf (t.setNode current _) (current :: rest) = _
        rw [queueOf_cons, AppTimer.setNode_self, htail, queueOf_cons, advance, if_pos hlt, hsub]
      · rw [queueOf_cons, due] at hd
        split at hd
        · cases hd
          omega
        · obtain ⟨d', _, hsum⟩ := Option.map_eq_some_iff.mp hd
          omega
    next hdue =>
      have hle := UInt32.le_iff_toNat_le.mp (UInt32.not_lt.mp hdue)
      have hsub : (ticksElapsed - (t.nodes current).ticksToExpire).toNat =
          ticksElapsed.toNat - (t.nodes current).ticksToExpire.toNat :=
        UInt32.toNat_sub_of_le _ _ (UInt32.not_lt.mp hdue)
      have hsum : UInt32.ofNat e + (t.nodes current).ticksToExpire =
          UInt32.ofNat (e + (t.nodes current).ticksToExpire.toNat) := by
        rw [UInt32.ofNat_add, UInt32.ofNat_toNat]
      have hrun : ∀ node restart, Expiries (t.setNode current node)
          (expiredLoop ticksPrevious (ticksElapsed - (t.nodes current).ticksToExpire)
            (UInt32.ofNat e + (t.nodes current).ticksToExpire) restart rest (t.setNode current node)).2
          ticksPrevious (e + (t.nodes current).ticksToExpire.toNat)
          (ticksElapsed.toNat - (t.nodes current).ticksToExpire.toNat) rest := by
        intro node restart
        rw [hsum, ← hsub]
        exact ih hrest
      split
      next hperiodic =>
        refine Expiries.cons rfl ?_ hle hcurrent (hrun _ _)
        rw [hsum]
        exact ⟨rfl, rfl, fun _ => rfl, fun _ => rfl⟩
      next hsingle =>
        refine Expiries.cons rfl ?_ hle hcurrent (hrun _ _)
        exact ⟨rfl, rfl, fun hp => absurd hp hsingle, fun hp => absurd hp hsingle⟩

theorem Expiries.queued {ticksPrevious : UInt32} {e n : Nat}
    (h : Expiries t u ticksPrevious e n t.running) (hq : Queued t) : Queued u := by
  have hrunning : u.running = keys (advance n t.queue) := running_eq_of_queue h.queue
  have hsplit : overdue n t.queue ++ u.running = t.running := by
    rw [hrunning, overdue_append_keys_advance, keys_queue]
  have hnodup := hq.nodup
  rw [← hsplit, List.nodup_append] at hnodup
  obtain ⟨-, hleft, hdisjoint⟩ := hnodup
  refine ⟨hleft, fun i => ?_, ?_⟩
  · by_cases hi : i ∈ overdue n t.queue
    · obtain ⟨d, hd, hle⟩ := (mem_overdue_iff (by rw [keys_queue]; exact hq.nodup)).mp hi
      rw [(h.expired i d hd hle).isRunning]
      exact iff_of_false (by decide) fun hmem => hdisjoint i hi i hmem rfl
    · rw [(h.kept i hi).isRunning, hq.isRunning i, ← hsplit, List.mem_append]
      exact or_iff_right hi
  · rw [h.queue]
    exact Nat.lt_of_le_of_lt (span_advance_le n t.queue) hq.span

theorem timerListInsert_queue (hnew : timerId ∉ t.running) (hnodup : t.running.Nodup) :
    (timerListInsert t timerId).queue =
      place timerId (t.nodes timerId).ticksToExpire.toNat t.queue :=
  insertLoop_queue hnew hnodup

theorem timerListInsert_frame (t : AppTimer γ) (timerId : Nat) :
    OnlyList t (timerListInsert t timerId) ∧
      ∀ i, SameButTicks (t.nodes i) ((timerListInsert t timerId).nodes i) := by
  have hframe := insertLoop_frame timerId (t.nodes timerId).ticksToExpire t.running t
  exact ⟨hframe.onlyList _, hframe.nodes⟩

/-- `u` has timer `timerId` running too, due after `d` ticks. -/
structure Inserted (t u : AppTimer γ) (timerId d : Nat) : Prop where
  queued : Queued u
  onlyList : OnlyList t u
  alarm : ∀ i, u.alarm i = if i = timerId then some d else t.alarm i
  nodes : ∀ i, i ≠ timerId → SameButTicks (t.nodes i) (u.nodes i)

theorem insertTimer_inserted (h : Queued t) (hnew : timerId ∉ t.running) :
    Inserted t (insertTimer t timerId) timerId
      (ticksToInsert t.ticksLatest (t.nodes timerId).ticksAtStart
        (t.nodes timerId).ticksFirstInterval).toNat ∧
    ((insertTimer t timerId).nodes timerId).ticksPeriodicInterval =
      (t.nodes timerId).ticksPeriodicInterval := by
  unfold insertTimer
  dsimp only
  generalize hnode : TimerNode.mk _ _ _ _ _ _ _ _ _ = node
  have hset : (t.setNode timerId node).queue = t.queue := queue_setNode_absent hnew node
  have hqueue : (timerListInsert (t.setNode timerId node) timerId).queue =
      place timerId node.ticksToExpire.toNat t.queue := by
    have hplace := timerListInsert_queue (t := t.setNode timerId node) hnew h.nodup
    rw [hplace, AppTimer.setNode_self, hset]
  obtain ⟨honly, hnodes⟩ := timerListInsert_frame (t.setNode timerId node) timerId
  have hkeys : timerId ∉ keys t.queue := by
    rw [keys_queue]
    exact hnew
  have hself := hnodes timerId
  rw [AppTimer.setNode_self] at hself
  have hother : ∀ i, i ≠ timerId →
      SameButTicks (t.nodes i) ((timerListInsert (t.setNode timerId node) timerId).nodes i) := by
    intro i hi
    have hsame := hnodes i
    rw [AppTimer.setNode_ne hi] at hsame
    exact hsame
  have hperm := keys_place_perm timerId node.ticksToExpire.toNat t.queue
  rw [← running_eq_of_queue hqueue, keys_queue] at hperm
  refine ⟨⟨⟨?_, fun i => ?_, ?_⟩, honly, fun i => ?_, hother⟩, ?_⟩
  · exact hperm.nodup_iff.mpr (List.nodup_cons.mpr ⟨hnew, h.nodup⟩)
  · rw [hperm.mem_iff, List.mem_cons]
    by_cases hi : i = timerId
    · subst hi
      rw [hself.isRunning, ← hnode]
      simp
    · rw [(hother i hi).isRunning, h.isRunning i]
      simp [hi]
  · rw [hqueue, span_place]
    have hword := node.ticksToExpire.toNat_lt
    have hspan := h.span
    omega
  · unfold AppTimer.alarm
    rw [hqueue]
    by_cases hi : i = timerId
    · subst hi
      rw [due_place_self hkeys, if_pos rfl, ← hnode]
    · rw [due_place_ne (Ne.symm hi), if_neg hi]
  · rw [hself.ticksPeriodicInterval, ← hnode]

end BleSpeedSensor
