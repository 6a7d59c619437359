import BleSpeedSensor.EventPathDelivery

namespace BleSpeedSensor

/-- Where `main` is in `app_sched_execute(); power_manage();`. -/
inductive LoopPc
  | executing
  /-- `APP_SCHED_QUEUE_EMPTY` has read the end index, not yet the start index. -/
  | comparing (queueEndIndex : Nat)
  | waiting
  | asleep
  | checking (errCode : ErrCode)
  deriving DecidableEq, Repr

/-- The main loop; `interrupted` tells whether an application interrupt has happened since
`sd_app_evt_wait` was last called. -/
structure MainLoop where
  path : EventPath
  pc : LoopPc
  interrupted : Bool

def MainLoop.boot (sched : Sched SchedHandler) : MainLoop :=
  ⟨{ EventPath.boot with sched := sched }, .executing, false⟩

/-- The events one interrupt puts in the queue, if any. -/
def EventPath.puts (p : EventPath) (events : List AppEvent) : EventPath :=
  events.foldl (fun p e => p.afterPut e (e.schedule p.sched)) p

/-- The call returns at once if there was an interrupt since the one before. -/
def MainLoop.sdAppEvtWait (m : MainLoop) : MainLoop :=
  if m.interrupted then { m with interrupted := false, pc := .checking nrfSuccess }
  else { m with pc := .asleep }

def LoopPc.wake : LoopPc → LoopPc
  | .asleep => .checking nrfSuccess
  | pc => pc

def MainLoop.mainStep (m : MainLoop) : Except ErrCode MainLoop :=
  match m.pc with
  | .executing => match m.path.pc with
    | .test => .ok { m with pc := .comparing m.path.sched.queueEndIndex }
    | _ => m.path.mainStep.map fun path => { m with path := path }
  | .comparing queueEndIndex =>
    if queueEndIndex = m.path.sched.queueStartIndex then .ok { m with pc := .waiting }
    else .ok { m with path := { m.path with pc := .readStart }, pc := .executing }
  | .waiting => .ok m.sdAppEvtWait
  | .asleep => .ok m
  | .checking errCode => (appErrorCheck errCode).map fun _ => { m with pc := .executing }

inductive LoopAction
  | interrupt (events : List AppEvent)
  /-- A disabled interrupt is pended: it ends the sleep, but is no application interrupt. -/
  | pended
  | main

def loopStep (m : MainLoop) : LoopAction → Except ErrCode MainLoop
  | .interrupt events =>
    .ok { path := m.path.puts events, pc := m.pc.wake, interrupted := true }
  | .pended => .ok { m with pc := m.pc.wake }
  | .main => m.mainStep

def LoopPcInv (m : MainLoop) : LoopPc → Prop
  | .executing => True
  | .comparing queueEndIndex => m.path.pc = .test ∧
      (queueEndIndex = m.path.sched.queueStartIndex → m.interrupted = true ∨ m.path.waiting = []) ∧
      (queueEndIndex ≠ m.path.sched.queueStartIndex → m.path.waiting ≠ [])
  | .waiting => m.path.pc = .test ∧ (m.interrupted = true ∨ m.path.waiting = [])
  | .asleep => m.path.pc = .test ∧ m.path.waiting = []
  | .checking errCode => m.path.pc = .test ∧ errCode = nrfSuccess

structure LoopInv (m : MainLoop) : Prop where
  path : PathInv m.path
  pc : LoopPcInv m m.pc

theorem boot_loopInv : LoopInv (MainLoop.boot Sched.fresh) := ⟨boot_pathInv, trivial⟩

/-- Interrupts leave the main loop's place and the start of the queue alone. -/
structure Grown (p q : EventPath) : Prop where
  inv : PathInv q
  pc : q.pc = p.pc
  start : q.sched.queueStartIndex = p.sched.queueStartIndex
  waiting : p.waiting ≠ [] → q.waiting ≠ []

theorem PathInv.grown_put {p : EventPath} (h : PathInv p) (e : AppEvent) :
    Grown p (p.afterPut e (e.schedule p.sched)) := by
  have hroom := h.queue.ring.room
  have hinv := put_pathInv h e
  rcases Nat.lt_or_ge p.waiting.length 10 with space | full
  · rw [afterPut_accepted h.queue space] at hinv ⊢
    have hwaiting : (p.accepted ++ [e]).drop p.fetched = p.waiting ++ [e] :=
      List.drop_append_of_le_length h.fetched_le
    refine ⟨hinv, rfl, rfl, fun _ => ?_⟩
    rw [EventPath.waiting, hwaiting]
    simp
  · rw [afterPut_full h.queue (by omega)]
    exact ⟨h, rfl, rfl, id⟩

theorem PathInv.grown_puts {p : EventPath} (h : PathInv p) (events : List AppEvent) :
    Grown p (p.puts events) := by
  induction events generalizing p with
  | nil => exact ⟨h, rfl, rfl, id⟩
  | cons e events ih =>
    have hfirst := h.grown_put e
    have hrest := ih hfirst.inv
    exact ⟨hrest.inv, hrest.pc.trans hfirst.pc, hrest.start.trans hfirst.start,
      fun hne => hrest.waiting (hfirst.waiting hne)⟩

variable {m : MainLoop}

theorem LoopInv.pended (h : LoopInv m) : LoopInv { m with pc := m.pc.wake } := by
  have hpc := h.pc
  cases hp : m.pc with
  | asleep =>
    rw [hp] at hpc
    exact ⟨h.path, hpc.1, rfl⟩
  | executing | comparing _ | waiting | checking _ =>
    rw [hp] at hpc
    exact ⟨h.path, hpc⟩

theorem LoopInv.interrupt (h : LoopInv m) (events : List AppEvent) :
    LoopInv ⟨m.path.puts events, m.pc.wake, true⟩ := by
  have grown := h.path.grown_puts events
  have hpc := h.pc
  cases hp : m.pc with
  | executing => exact ⟨grown.inv, trivial⟩
  | asleep =>
    rw [hp] at hpc
    exact ⟨grown.inv, grown.pc.trans hpc.1, rfl⟩
  | waiting =>
    rw [hp] at hpc
    exact ⟨grown.inv, grown.pc.trans hpc.1, Or.inl rfl⟩
  | checking errCode =>
    rw [hp] at hpc
    exact ⟨grown.inv, grown.pc.trans hpc.1, hpc.2⟩
  | comparing queueEndIndex =>
    rw [hp] at hpc
    obtain ⟨htest, -, hbusy⟩ := hpc
    refine ⟨grown.inv, grown.pc.trans htest, fun _ => Or.inl rfl, fun hne => grown.waiting ?_⟩
    refine hbusy ?_
    rw [← grown.start]
    exact hne

theorem LoopInv.executing (h : LoopInv m) (hp : m.pc = .executing) :
    ∃ n, m.mainStep = .ok n ∧ LoopInv n := by
  obtain ⟨q, hq, hinv⟩ := mainStep_pathInv h.path
  have hempty := h.path.queue.empty_iff
  rw [appSchedQueueEmpty, beq_iff_eq] at hempty
  unfold MainLoop.mainStep
  rw [hp]
  cases hm : m.path.pc with
  | test =>
    refine ⟨_, rfl, h.path, hm, fun heq => Or.inr (hempty.mp heq), fun hne hw => ?_⟩
    exact hne (hempty.mpr hw)
  | readStart | advance _ | readSize _ | readHandler _ _ | checkSize _ _ _ | readCallee _ _
  | readArgument _ _ _ | inHandler _ _ =>
    refine ⟨{ m with path := q }, ?_, hinv, ?_⟩
    · simp only [hq, Except.map, hp]
    · show LoopPcInv _ m.pc
      rw [hp]
      trivial

theorem LoopInv.comparing (h : LoopInv m) {queueEndIndex : Nat}
    (hp : m.pc = .comparing queueEndIndex) : ∃ n, m.mainStep = .ok n ∧ LoopInv n := by
  have hpc := h.pc
  rw [hp] at hpc
  obtain ⟨htest, hidle, hbusy⟩ := hpc
  unfold MainLoop.mainStep
  rw [hp]
  by_cases heq : queueEndIndex = m.path.sched.queueStartIndex
  · exact ⟨_, if_pos heq, h.path, htest, hidle heq⟩
  · have hfetched := h.path.pc
    rw [htest] at hfetched
    exact ⟨_, if_neg heq, pathInv_goto h.path ⟨hfetched, hbusy heq⟩, trivial⟩

theorem LoopInv.mainStep (h : LoopInv m) : ∃ n, m.mainStep = .ok n ∧ LoopInv n := by
  have hpc := h.pc
  cases hp : m.pc with
  | executing => exact h.executing hp
  | comparing queueEndIndex => exact h.comparing hp
  | waiting =>
    rw [hp] at hpc
    unfold MainLoop.mainStep MainLoop.sdAppEvtWait
    rw [hp]
    by_cases hinterrupted : m.interrupted = true
    · exact ⟨_, congrArg Except.ok (if_pos hinterrupted), h.path, hpc.1, rfl⟩
    · have hempty := hpc.2.resolve_left hinterrupted
      exact ⟨_, congrArg Except.ok (if_neg hinterrupted), h.path, hpc.1, hempty⟩
  | asleep =>
    unfold MainLoop.mainStep
    rw [hp]
    exact ⟨m, rfl, h⟩
  | checking errCode =>
    rw [hp] at hpc
    unfold MainLoop.mainStep
    rw [hp, hpc.2]
    exact ⟨_, rfl, h.path, trivial⟩

theorem LoopInv.step (h : LoopInv m) (a : LoopAction) : ∃ n, loopStep m a = .ok n ∧ LoopInv n := by
  cases a with
  | interrupt events => exact ⟨_, rfl, h.interrupt events⟩
  | pended => exact ⟨_, rfl, h.pended⟩
  | main => exact h.mainStep

end BleSpeedSensor
