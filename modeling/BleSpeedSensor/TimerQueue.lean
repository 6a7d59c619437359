import BleSpeedSensor.AppTimer
import BleSpeedSensor.DeltaQueue

namespace BleSpeedSensor

open DeltaQueue

variable {γ : Type}

def queueOf (t : AppTimer γ) (running : List Nat) : Queue Nat :=
  running.map fun i => (i, (t.nodes i).ticksToExpire.toNat)

def AppTimer.queue (t : AppTimer γ) : Queue Nat := queueOf t t.running

/-- The ticks from `ticksLatest` on after which a running timer is due. -/
def AppTimer.alarm (t : AppTimer γ) (timerId : Nat) : Option Nat := due t.queue timerId

/-- The list of running timers, and the flag in the node of each. All gaps together fit a word, so
that no sum of them wraps. -/
structure Queued (t : AppTimer γ) : Prop where
  nodup : t.running.Nodup
  isRunning : ∀ i, (t.nodes i).isRunning = true ↔ i ∈ t.running
  span : span t.queue < 4294967296

/-- Nodes that differ in the ticks to the timer before them only. -/
structure SameButTicks (node node' : TimerNode γ) : Prop where
  allocated : node'.allocated = node.allocated
  mode : node'.mode = node.mode
  isRunning : node'.isRunning = node.isRunning
  ticksAtStart : node'.ticksAtStart = node.ticksAtStart
  ticksFirstInterval : node'.ticksFirstInterval = node.ticksFirstInterval
  ticksPeriodicInterval : node'.ticksPeriodicInterval = node.ticksPeriodicInterval
  pTimeoutHandler : node'.pTimeoutHandler = node.pTimeoutHandler
  pContext : node'.pContext = node.pContext

variable {t u : AppTimer γ} {i j timerId : Nat}

theorem SameButTicks.refl (node : TimerNode γ) : SameButTicks node node :=
  ⟨rfl, rfl, rfl, rfl, rfl, rfl, rfl, rfl⟩

theorem SameButTicks.trans {a b c : TimerNode γ} (h : SameButTicks a b) (h' : SameButTicks b c) :
    SameButTicks a c :=
  ⟨h'.allocated.trans h.allocated, h'.mode.trans h.mode, h'.isRunning.trans h.isRunning,
    h'.ticksAtStart.trans h.ticksAtStart, h'.ticksFirstInterval.trans h.ticksFirstInterval,
    h'.ticksPeriodicInterval.trans h.ticksPeriodicInterval,
    h'.pTimeoutHandler.trans h.pTimeoutHandler, h'.pContext.trans h.pContext⟩

theorem queueOf_cons (t : AppTimer γ) (current : Nat) (rest : List Nat) :
    queueOf t (current :: rest) = (current, (t.nodes current).ticksToExpire.toNat) :: queueOf t rest :=
  rfl

@[simp] theorem keys_queueOf (t : AppTimer γ) (running : List Nat) :
    keys (queueOf t running) = running := by
  unfold keys queueOf
  rw [List.map_map]
  exact List.map_id running

@[simp] theorem keys_queue (t : AppTimer γ) : keys t.queue = t.running := keys_queueOf t t.running

theorem queueOf_congr {running : List Nat}
    (h : ∀ i ∈ running, (u.nodes i).ticksToExpire = (t.nodes i).ticksToExpire) :
    queueOf u running = queueOf t running := by
  unfold queueOf
  refine List.map_congr_left fun i hi => ?_
  rw [h i hi]

theorem AppTimer.setNode_ne (h : i ≠ timerId) (t : AppTimer γ) (node : TimerNode γ) :
    (t.setNode timerId node).nodes i = t.nodes i := if_neg h

theorem setNode_sameButTicks (t : AppTimer γ) (timerId : Nat) (ticks : UInt32) (i : Nat) :
    SameButTicks (t.nodes i)
      ((t.setNode timerId { t.nodes timerId with ticksToExpire := ticks }).nodes i) := by
  by_cases hi : i = timerId
  · subst hi
    rw [AppTimer.setNode_self]
    exact ⟨rfl, rfl, rfl, rfl, rfl, rfl, rfl, rfl⟩
  · rw [AppTimer.setNode_ne hi]
    exact SameButTicks.refl _

theorem alarm_isSome_iff : (t.alarm i).isSome ↔ i ∈ t.running := by
  unfold AppTimer.alarm
  rw [due_isSome_iff, keys_queue]

theorem alarm_eq_none_iff : t.alarm i = none ↔ i ∉ t.running := by
  unfold AppTimer.alarm
  rw [due_eq_none_iff, keys_queue]

theorem Queued.alarm_some_iff (h : Queued t) : (t.alarm i).isSome ↔ (t.nodes i).isRunning = true :=
  alarm_isSome_iff.trans (h.isRunning i).symm

theorem Queued.of_same (h : Queued t) (hnodes : u.nodes = t.nodes) (hrunning : u.running = t.running) :
    Queued u := by
  have hqueue : u.queue = t.queue := by
    unfold AppTimer.queue
    rw [hrunning]
    exact queueOf_congr fun i _ => by rw [hnodes]
  refine ⟨by rw [hrunning]; exact h.nodup, ?_, by rw [hqueue]; exact h.span⟩
  intro i
  rw [hnodes, hrunning]
  exact h.isRunning i

/-- What a loop on the list of running timers may write. -/
structure ListFrame (t u : AppTimer γ) : Prop where
  nodes : ∀ i, SameButTicks (t.nodes i) (u.nodes i)
  rest : u = { t with nodes := u.nodes }

theorem ListFrame.refl (t : AppTimer γ) : ListFrame t t := ⟨fun _ => SameButTicks.refl _, rfl⟩

theorem ListFrame.trans {v : AppTimer γ} (h : ListFrame t u) (h' : ListFrame u v) : ListFrame t v := by
  refine ⟨fun i => (h.nodes i).trans (h'.nodes i), ?_⟩
  rw [h'.rest, h.rest]

theorem ListFrame.setNode (t : AppTimer γ) (timerId : Nat) (ticks : UInt32) :
    ListFrame t (t.setNode timerId { t.nodes timerId with ticksToExpire := ticks }) :=
  ⟨setNode_sameButTicks t timerId ticks, rfl⟩

theorem insertLoop_frame (timerId : Nat) (ticksToExpire : UInt32) (running : List Nat)
    (t : AppTimer γ) : ListFrame t (insertLoop timerId ticksToExpire running t).2 := by
  induction running generalizing t ticksToExpire with
  | nil => exact ListFrame.setNode t timerId ticksToExpire
  | cons current rest ih =>
    unfold insertLoop
    dsimp only
    split
    · exact ih _ t
    · exact (ListFrame.setNode t current _).trans (ListFrame.setNode _ timerId ticksToExpire)

theorem insertLoop_other {ticksToExpire : UInt32} {running : List Nat} (hi : i ≠ timerId)
    (hmem : i ∉ running) : (insertLoop timerId ticksToExpire running t).2.nodes i = t.nodes i := by
  induction running generalizing t ticksToExpire with
  | nil => exact AppTimer.setNode_ne hi t _
  | cons current rest ih =>
    rw [List.mem_cons, not_or] at hmem
    unfold insertLoop
    dsimp only
    split
    · exact ih hmem.2
    · rw [AppTimer.setNode_ne hi, AppTimer.setNode_ne hmem.1]

theorem insertLoop_queue {ticksToExpire : UInt32} {running : List Nat} (hnew : timerId ∉ running)
    (hnodup : running.Nodup) :
    queueOf (insertLoop timerId ticksToExpire running t).2 (insertLoop timerId ticksToExpire running t).1 =
      place timerId ticksToExpire.toNat (queueOf t running) := by
  induction running generalizing t ticksToExpire with
  | nil =>
    unfold insertLoop
    simp [queueOf, place]
  | cons current rest ih =>
    obtain ⟨hcurrent, hrest⟩ := List.nodup_cons.mp hnodup
    rw [List.mem_cons, not_or] at hnew
    have hne : current ≠ timerId := Ne.symm hnew.1
    unfold insertLoop
    dsimp only
    split
    next hlater =>
      have hlt : (t.nodes current).ticksToExpire.toNat < ticksToExpire.toNat :=
        UInt32.lt_iff_toNat_lt.mp hlater
      have hsub : (ticksToExpire - (t.nodes current).ticksToExpire).toNat =
          ticksToExpire.toNat - (t.nodes current).ticksToExpire.toNat :=
        UInt32.toNat_sub_of_le _ _ (UInt32.le_iff_toNat_le.mpr (Nat.le_of_lt hlt))
      have hkept : (insertLoop timerId (ticksToExpire - (t.nodes current).ticksToExpire) rest t).2.nodes
          current = t.nodes current := insertLoop_other hne hcurrent
      rw [queueOf_cons, queueOf_cons, hkept, ih hnew.2 hrest, place, if_pos hlt, hsub]
    next hsooner =>
      have hle : ticksToExpire.toNat ≤ (t.nodes current).ticksToExpire.toNat :=
        UInt32.le_iff_toNat_le.mp (UInt32.not_lt.mp hsooner)
      have hsub : ((t.nodes current).ticksToExpire - ticksToExpire).toNat =
          (t.nodes current).ticksToExpire.toNat - ticksToExpire.toNat :=
        UInt32.toNat_sub_of_le _ _ (UInt32.le_iff_toNat_le.mpr hle)
      have htail : ∀ node node', queueOf ((t.setNode current node).setNode timerId node') rest =
          queueOf t rest := by
        intro node node'
        refine queueOf_congr fun i hi => ?_
        have hicurrent : i ≠ current := fun he => hcurrent (he ▸ hi)
        have hitimer : i ≠ timerId := fun he => hnew.2 (he ▸ hi)
        rw [AppTimer.setNode_ne hitimer, AppTimer.setNode_ne hicurrent]
      rw [queueOf_cons, queueOf_cons, queueOf_cons, AppTimer.setNode_self, AppTimer.setNode_ne hne,
        AppTimer.setNode_self, htail, place, if_neg (Nat.not_lt.mpr hle), hsub]

theorem removeLoop_frame (timerId : Nat) (running : List Nat) (t : AppTimer γ) :
    ListFrame t (removeLoop timerId running t).2 := by
  induction running with
  | nil => exact ListFrame.refl t
  | cons current rest ih =>
    unfold removeLoop
    split
    · split
      · exact ListFrame.refl t
      · exact ListFrame.setNode t _ _
    · exact ih

theorem removeLoop_other {running : List Nat} (hmem : i ∉ running) :
    (removeLoop timerId running t).2.nodes i = t.nodes i := by
  induction running with
  | nil => rfl
  | cons current rest ih =>
    rw [List.mem_cons, not_or] at hmem
    unfold removeLoop
    split
    · split
      · rfl
      next next rest' =>
        have hne : i ≠ next := fun he => hmem.2 (he ▸ List.mem_cons_self)
        exact AppTimer.setNode_ne hne t _
    · exact ih hmem.2

theorem removeLoop_queue {running : List Nat} (hnodup : running.Nodup)
    (hspan : span (queueOf t running) < 4294967296) :
    queueOf (removeLoop timerId running t).2 (removeLoop timerId running t).1 =
      remove timerId (queueOf t running) := by
  induction running with
  | nil => rfl
  | cons current rest ih =>
    obtain ⟨hcurrent, hrest⟩ := List.nodup_cons.mp hnodup
    rw [queueOf_cons, span_cons] at hspan
    rw [queueOf_cons, remove]
    unfold removeLoop
    split
    next =>
      cases rest with
      | nil => rfl
      | cons next rest =>
        obtain ⟨hnext, -⟩ := List.nodup_cons.mp hrest
        rw [queueOf_cons, span_cons] at hspan
        have hsum : ((t.nodes next).ticksToExpire + (t.nodes current).ticksToExpire).toNat =
            (t.nodes current).ticksToExpire.toNat + (t.nodes next).ticksToExpire.toNat := by
          rw [UInt32.toNat_add]
          omega
        have htail : ∀ node, queueOf (t.setNode next node) rest = queueOf t rest := by
          intro node
          refine queueOf_congr fun i hi => ?_
          have hne : i ≠ next := fun he => hnext (he ▸ hi)
          rw [AppTimer.setNode_ne hne]
        rw [queueOf_cons, queueOf_cons, AppTimer.setNode_self, htail, delay, hsum]
    next hne =>
      rw [queueOf_cons, removeLoop_other hcurrent, ih hrest (by omega)]

end BleSpeedSensor
