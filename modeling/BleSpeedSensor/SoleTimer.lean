import BleSpeedSensor.AppTimer

namespace BleSpeedSensor

def SoleOp {γ : Type} (op : TimerUserOp γ) : Prop :=
  op = .stop 0 ∨ ∃ params, op = .start 0 params ∧ params.ticksPeriodicInterval = 0

/-- The list of running timers holds nothing but timer 0, a single shot timer. -/
structure SoleNode {γ : Type} (t : AppTimer γ) : Prop where
  running : t.running = if (t.nodes 0).isRunning then [0] else []
  single : (t.nodes 0).ticksPeriodicInterval = 0
  mode : (t.nodes 0).mode = .singleShot

/-- Timer 0 is the only timer, and all that is asked of it is asked at one interrupt level. -/
structure SoleTimer {γ : Type} (t : AppTimer γ) : Prop where
  node : SoleNode t
  ops : ∀ op ∈ t.userOps .appLow, SoleOp op
  others : ∀ user, user ≠ .appLow → t.userOps user = []

/-- A stopped timer leaves RTC1 stopped and cleared, with nothing elapsed. -/
structure AtRest {γ : Type} (t : AppTimer γ) : Prop where
  rtc1Running : (t.nodes 0).isRunning = false → t.rtc1Running = false
  counter : (t.nodes 0).isRunning = false → t.counter = 0
  ticksLatest : (t.nodes 0).isRunning = false → t.ticksLatest = 0
  ticksElapsed : (t.nodes 0).isRunning = false → t.ticksElapsed = none

/-- The contexts the timer is running with or to be started with. -/
structure AllContexts {γ : Type} (P : γ → Prop) (t : AppTimer γ) : Prop where
  node : (t.nodes 0).isRunning = true → P (t.nodes 0).pContext
  starts : ∀ params, .start 0 params ∈ t.userOps .appLow → P params.pContext

variable {γ : Type} {t : AppTimer γ}

theorem SoleTimer.ops_eq (h : SoleTimer t) : t.ops = t.userOps .appLow := by
  have hthread := h.others .threadMode (by decide)
  have hhigh := h.others .appHigh (by decide)
  simp [AppTimer.ops, hthread, hhigh]

theorem SoleNode.running_nil (h : SoleNode t) : t.running = [] ↔ (t.nodes 0).isRunning = false := by
  rw [h.running]
  cases (t.nodes 0).isRunning <;> simp

theorem SoleNode.running_one (h : SoleNode t) (hr : (t.nodes 0).isRunning = true) :
    t.running = [0] := by
  rw [h.running, hr]
  rfl

def AppTimer.withRunning (t : AppTimer γ) (node : TimerNode γ) : AppTimer γ :=
  { t with running := [0] }.setNode 0 node

def AppTimer.withStopped (t : AppTimer γ) (node : TimerNode γ) : AppTimer γ :=
  { t with running := [] }.setNode 0 node

def freed (t : AppTimer γ) : AppTimer γ :=
  rtc1Stop (t.withStopped { t.nodes 0 with isRunning := false })

theorem deleteOp_stop (h : SoleNode t) (hr : (t.nodes 0).isRunning = true) :
    deleteOp t (.stop 0) = freed t := by
  simp [deleteOp, hr, timerListRemove, h.running_one hr, removeLoop, freed, rtc1Stop,
    AppTimer.withStopped, AppTimer.setNode]

theorem deleteOp_idle {op : TimerUserOp γ} (hop : SoleOp op) (hr : (t.nodes 0).isRunning = false) :
    deleteOp t op = t := by
  rcases hop with rfl | ⟨params, rfl, _⟩
  · simp [deleteOp, hr]
  · rfl

theorem deletions_idle {ops : List (TimerUserOp γ)} (hops : ∀ op ∈ ops, SoleOp op)
    (hr : (t.nodes 0).isRunning = false) : ops.foldl deleteOp t = t := by
  induction ops with
  | nil => rfl
  | cons op ops ih =>
    have hop := hops op List.mem_cons_self
    rw [List.foldl_cons, deleteOp_idle hop hr]
    exact ih fun op hmem => hops op (List.mem_cons_of_mem _ hmem)

theorem deletions_no_stop {ops : List (TimerUserOp γ)} (hops : ∀ op ∈ ops, SoleOp op)
    (hstop : .stop 0 ∉ ops) : ops.foldl deleteOp t = t := by
  induction ops with
  | nil => rfl
  | cons op ops ih =>
    obtain ⟨hne, hrest⟩ : .stop 0 ≠ op ∧ .stop 0 ∉ ops := by simpa using hstop
    obtain ⟨params, rfl, _⟩ := (hops op List.mem_cons_self).resolve_left (Ne.symm hne)
    exact ih (fun op hmem => hops op (List.mem_cons_of_mem _ hmem)) hrest

theorem deletions_cases {ops : List (TimerUserOp γ)} (hops : ∀ op ∈ ops, SoleOp op)
    (h : SoleNode t) :
    ops.foldl deleteOp t = t ∨
      ((t.nodes 0).isRunning = true ∧ ops.foldl deleteOp t = freed t) := by
  induction ops with
  | nil => exact Or.inl rfl
  | cons op ops ih =>
    have hrest := fun op hmem => hops op (List.mem_cons_of_mem _ hmem)
    rw [List.foldl_cons]
    rcases hops op List.mem_cons_self with rfl | ⟨params, rfl, _⟩
    · by_cases hr : (t.nodes 0).isRunning = true
      · rw [deleteOp_stop h hr]
        exact Or.inr ⟨hr, deletions_idle hrest rfl⟩
      · rw [deleteOp_idle (Or.inl rfl) (by simpa using hr)]
        exact ih hrest
    · exact ih hrest

theorem insertOp_running {op : TimerUserOp γ} (hop : SoleOp op) (hr : (t.nodes 0).isRunning = true) :
    insertOp t op = t := by
  rcases hop with rfl | ⟨params, rfl, _⟩
  · rfl
  · simp [insertOp, hr]

def startedWith (t : AppTimer γ) (params : TimerUserOpStart γ) : AppTimer γ :=
  t.withRunning { t.nodes 0 with
    ticksToExpire := ticksToInsert t.ticksLatest params.ticksAtStart params.ticksFirstInterval
    ticksAtStart := 0
    ticksFirstInterval := 0
    ticksPeriodicInterval := params.ticksPeriodicInterval
    isRunning := true
    pContext := params.pContext }

theorem insertOp_start (h : SoleNode t) (hr : (t.nodes 0).isRunning = false)
    (params : TimerUserOpStart γ) : insertOp t (.start 0 params) = startedWith t params := by
  have hnil := h.running_nil.mpr hr
  have hrunning : ∀ node, (t.setNode 0 node).running = [] := fun _ => hnil
  have hlatest : ∀ node, (t.setNode 0 node).ticksLatest = t.ticksLatest := fun _ => rfl
  simp only [insertOp, hr, insertTimer, timerListInsert, AppTimer.setNode_self,
    AppTimer.setNode_setNode, hrunning, hlatest, insertLoop]
  rfl

theorem insertions_running {ops : List (TimerUserOp γ)} (hops : ∀ op ∈ ops, SoleOp op)
    (hr : (t.nodes 0).isRunning = true) : ops.foldl insertOp t = t := by
  induction ops with
  | nil => rfl
  | cons op ops ih =>
    rw [List.foldl_cons, insertOp_running (hops op List.mem_cons_self) hr]
    exact ih fun op hmem => hops op (List.mem_cons_of_mem _ hmem)

theorem insertions_cases {ops : List (TimerUserOp γ)} (hops : ∀ op ∈ ops, SoleOp op)
    (h : SoleNode t) :
    ops.foldl insertOp t = t ∨ ((t.nodes 0).isRunning = false ∧ ∃ params,
      .start 0 params ∈ ops ∧ params.ticksPeriodicInterval = 0 ∧
        ops.foldl insertOp t = startedWith t params) := by
  by_cases hr : (t.nodes 0).isRunning = true
  · exact Or.inl (insertions_running hops hr)
  have hidle : (t.nodes 0).isRunning = false := by simpa using hr
  induction ops with
  | nil => exact Or.inl rfl
  | cons op ops ih =>
    have hrest := fun op hmem => hops op (List.mem_cons_of_mem _ hmem)
    rw [List.foldl_cons]
    rcases hops op List.mem_cons_self with rfl | ⟨params, rfl, hperiodic⟩
    · rcases ih hrest with hsame | ⟨_, params, hmem, hperiodic, hstart⟩
      · exact Or.inl hsame
      · exact Or.inr ⟨hidle, params, List.mem_cons_of_mem _ hmem, hperiodic, hstart⟩
    · rw [insertOp_start h hidle]
      exact Or.inr ⟨hidle, params, List.mem_cons_self, hperiodic, insertions_running hrest rfl⟩

end BleSpeedSensor
