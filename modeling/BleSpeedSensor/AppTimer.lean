import BleSpeedSensor.ErrorCodes

namespace BleSpeedSensor

def maxRtcCounterVal : UInt32 := 0x00FFFFFF
def rtcCounterPeriod : Nat := 0x01000000
def rtcCompareOffsetMin : UInt32 := 3
def appTimerMinTimeoutTicks : UInt32 := 5

inductive AppTimerMode
  | singleShot
  | repeated
  deriving DecidableEq, Repr

/-- `γ` is the type of timer contexts; the order `next` gives is that of `AppTimer.running`. -/
structure TimerNode (γ : Type) where
  allocated : Bool
  mode : AppTimerMode
  ticksToExpire : UInt32
  ticksAtStart : UInt32
  ticksFirstInterval : UInt32
  ticksPeriodicInterval : UInt32
  isRunning : Bool
  pTimeoutHandler : UInt32
  pContext : γ

structure TimerUserOpStart (γ : Type) where
  ticksAtStart : UInt32
  ticksFirstInterval : UInt32
  ticksPeriodicInterval : UInt32
  pContext : γ

inductive TimerUserOp (γ : Type)
  | start (timerId : Nat) (params : TimerUserOpStart γ)
  | stop (timerId : Nat)
  | stopAll

inductive TimerUser
  | appHigh
  | appLow
  | threadMode
  deriving DecidableEq, Repr

/-- The statics of `app_timer.c` after `app_timer_init`, with RTC1 and the two pending interrupts.
`running` is the list from `m_timer_id_head` on. The double buffer of elapsed ticks holds at most
one value unread. -/
structure AppTimer (γ : Type) where
  nodes : Nat → TimerNode γ
  nodeArraySize : Nat
  running : List Nat
  userOps : TimerUser → List (TimerUserOp γ)
  userOpQueueSize : Nat
  ticksLatest : UInt32
  ticksElapsed : Option UInt32
  rtc1Running : Bool
  counter : UInt32
  compare0 : UInt32
  eventsCompare0 : Bool
  rtc1Pending : Bool
  swi0Pending : Bool

variable {γ : Type}

def AppTimer.setNode (t : AppTimer γ) (timerId : Nat) (node : TimerNode γ) : AppTimer γ :=
  { t with nodes := fun i => if i = timerId then node else t.nodes i }

@[simp] theorem AppTimer.setNode_self (t : AppTimer γ) (timerId : Nat) (node : TimerNode γ) :
    (t.setNode timerId node).nodes timerId = node := if_pos rfl

@[simp] theorem AppTimer.setNode_setNode (t : AppTimer γ) (timerId : Nat) (node node' : TimerNode γ) :
    (t.setNode timerId node).setNode timerId node' = t.setNode timerId node' := by
  have hnodes : (fun i => if i = timerId then node' else if i = timerId then node else t.nodes i) =
      fun i => if i = timerId then node' else t.nodes i := by
    funext i
    split <;> rfl
  exact congrArg (fun nodes => { t with nodes := nodes }) hnodes

def ticksDiffGet (ticksNow ticksOld : UInt32) : UInt32 := (ticksNow - ticksOld) &&& maxRtcCounterVal

def rtc1Start (t : AppTimer γ) : AppTimer γ := { t with rtc1Pending := false, rtc1Running := true }

def rtc1Stop (t : AppTimer γ) : AppTimer γ :=
  { t with counter := 0, ticksLatest := 0, rtc1Running := false }

/-- RTC1 counts `n` ticks and notes whether it has passed the value compared with. -/
def AppTimer.tick (t : AppTimer γ) (n : Nat) : AppTimer γ :=
  if t.rtc1Running then
    { t with
      counter := UInt32.ofNat ((t.counter.toNat + n) % rtcCounterPeriod)
      eventsCompare0 := t.eventsCompare0 ||
        (t.compare0.toNat + rtcCounterPeriod - t.counter.toNat - 1) % rtcCounterPeriod < n }
  else t

/-- The timer goes before the first one that expires no earlier, each counting from the one before. -/
def insertLoop (timerId : Nat) (ticksToExpire : UInt32) : List Nat → AppTimer γ → List Nat × AppTimer γ
  | [], t => ([timerId], t.setNode timerId { t.nodes timerId with ticksToExpire := ticksToExpire })
  | current :: rest, t =>
    let next := t.nodes current
    if ticksToExpire > next.ticksToExpire then
      let (rest, t) := insertLoop timerId (ticksToExpire - next.ticksToExpire) rest t
      (current :: rest, t)
    else
      let t := t.setNode current { next with ticksToExpire := next.ticksToExpire - ticksToExpire }
      (timerId :: current :: rest,
        t.setNode timerId { t.nodes timerId with ticksToExpire := ticksToExpire })

def timerListInsert (t : AppTimer γ) (timerId : Nat) : AppTimer γ :=
  let (running, t) := insertLoop timerId (t.nodes timerId).ticksToExpire t.running t
  { t with running := running }

def removeLoop (timerId : Nat) : List Nat → AppTimer γ → List Nat × AppTimer γ
  | [], t => ([], t)
  | current :: rest, t =>
    if current = timerId then
      match rest with
      | [] => ([], t)
      | next :: _ => (rest, t.setNode next { t.nodes next with
          ticksToExpire := (t.nodes next).ticksToExpire + (t.nodes current).ticksToExpire })
    else
      let (rest, t) := removeLoop timerId rest t
      (current :: rest, t)

def timerListRemove (t : AppTimer γ) (timerId : Nat) : AppTimer γ :=
  let (running, t') := removeLoop timerId t.running t
  let t' := { t' with running := running }
  if t.running ≠ [] ∧ running = [] then rtc1Stop t' else t'

def timerListHandlerSched (t : AppTimer γ) : AppTimer γ := { t with swi0Pending := true }

def expiring (t : AppTimer γ) : UInt32 → UInt32 → List Nat → List Nat × UInt32
  | _, ticksExpired, [] => ([], ticksExpired)
  | ticksElapsed, ticksExpired, timerId :: rest =>
    let ticksToExpire := (t.nodes timerId).ticksToExpire
    if ticksElapsed < ticksToExpire then ([], ticksExpired)
    else
      let (expired, ticksExpired) :=
        expiring t (ticksElapsed - ticksToExpire) (ticksExpired + ticksToExpire) rest
      (timerId :: expired, ticksExpired)

def timerTimeoutsCheck (t : AppTimer γ) : List (TimerNode γ) × AppTimer γ :=
  if t.running = [] then ([], t)
  else
    let (expired, ticksExpired) := expiring t (ticksDiffGet t.counter t.ticksLatest) 0 t.running
    (expired.map t.nodes, timerListHandlerSched { t with ticksElapsed := some ticksExpired })

def elapsedTicksAcquire (t : AppTimer γ) : Option UInt32 × AppTimer γ :=
  match t.ticksElapsed with
  | some ticksElapsed => (some ticksElapsed, { t with
      ticksElapsed := none
      ticksLatest := (t.ticksLatest + ticksElapsed) &&& maxRtcCounterVal })
  | none => (none, t)

def AppTimer.ops (t : AppTimer γ) : List (TimerUserOp γ) :=
  t.userOps .threadMode ++ t.userOps .appLow ++ t.userOps .appHigh

def deleteOp (t : AppTimer γ) : TimerUserOp γ → AppTimer γ
  | .start _ _ => t
  | .stop timerId =>
    if (t.nodes timerId).isRunning then
      let t := timerListRemove t timerId
      t.setNode timerId { t.nodes timerId with isRunning := false }
    else t
  | .stopAll => { t with
      running := []
      nodes := fun i =>
        if i ∈ t.running then { t.nodes i with isRunning := false } else t.nodes i }

/-- Stops are carried out here, whatever was asked for before or after them. -/
def listDeletionsHandler (t : AppTimer γ) : Bool × AppTimer γ :=
  let t' := t.ops.foldl deleteOp t
  (t'.running.head? != t.running.head?, t')

def expiredLoop (ticksPrevious : UInt32) :
    UInt32 → UInt32 → List Nat → List Nat → AppTimer γ → List Nat × AppTimer γ
  | _, _, restart, [], t => (restart, { t with running := [] })
  | ticksElapsed, ticksExpired, restart, timerId :: rest, t =>
    let node := t.nodes timerId
    if ticksElapsed < node.ticksToExpire then
      (restart, { t.setNode timerId { node with
        ticksToExpire := node.ticksToExpire - ticksElapsed } with running := timerId :: rest })
    else
      let ticksElapsed := ticksElapsed - node.ticksToExpire
      let ticksExpired := ticksExpired + node.ticksToExpire
      let expired := { node with ticksToExpire := 0, isRunning := false }
      if node.ticksPeriodicInterval ≠ 0 then
        expiredLoop ticksPrevious ticksElapsed ticksExpired (timerId :: restart) rest
          (t.setNode timerId { expired with
            ticksAtStart := (ticksPrevious + ticksExpired) &&& maxRtcCounterVal
            ticksFirstInterval := node.ticksPeriodicInterval })
      else expiredLoop ticksPrevious ticksElapsed ticksExpired restart rest (t.setNode timerId expired)

def expiredTimersHandler (t : AppTimer γ) (ticksElapsed ticksPrevious : UInt32) :
    List Nat × AppTimer γ :=
  expiredLoop ticksPrevious ticksElapsed 0 [] t.running t

def ticksToInsert (ticksLatest ticksAtStart ticksFirstInterval : UInt32) : UInt32 :=
  if ticksDiffGet ticksAtStart ticksLatest < maxRtcCounterVal / 2 then
    ticksDiffGet ticksAtStart ticksLatest + ticksFirstInterval
  else
    let deltaCurrentStart := ticksDiffGet ticksLatest ticksAtStart
    if ticksFirstInterval > deltaCurrentStart then ticksFirstInterval - deltaCurrentStart else 0

def insertTimer (t : AppTimer γ) (timerId : Nat) : AppTimer γ :=
  let node := t.nodes timerId
  timerListInsert (t.setNode timerId { node with
    ticksToExpire := ticksToInsert t.ticksLatest node.ticksAtStart node.ticksFirstInterval
    ticksAtStart := 0
    ticksFirstInterval := 0
    isRunning := true }) timerId

/-- A start of a timer that runs is dropped. -/
def insertOp (t : AppTimer γ) : TimerUserOp γ → AppTimer γ
  | .start timerId params =>
    if (t.nodes timerId).isRunning then t
    else insertTimer (t.setNode timerId { t.nodes timerId with
      ticksAtStart := params.ticksAtStart
      ticksFirstInterval := params.ticksFirstInterval
      ticksPeriodicInterval := params.ticksPeriodicInterval
      pContext := params.pContext }) timerId
  | .stop _ | .stopAll => t

def listInsertionsHandler (t : AppTimer γ) (restart : List Nat) : Bool × AppTimer γ :=
  let t' := t.ops.foldl insertOp (restart.foldl insertTimer t)
  (t'.running.head? != t.running.head?, { t' with userOps := fun _ => [] })

def rtc1StartIfStopped (t : AppTimer γ) : AppTimer γ := if t.rtc1Running then t else rtc1Start t

/-- `late` ticks pass while the interrupt is handled, here between the two readings of the counter. -/
def compareRegUpdate (t : AppTimer γ) (late : Nat) : AppTimer γ :=
  match t.running with
  | [] => rtc1Stop t
  | timerId :: _ =>
    let ticksToExpire := (t.nodes timerId).ticksToExpire
    let preCounterVal := t.counter
    let ticksElapsed := ticksDiffGet preCounterVal t.ticksLatest + rtcCompareOffsetMin
    let cc := (t.ticksLatest + if ticksElapsed < ticksToExpire then ticksToExpire else ticksElapsed)
      &&& maxRtcCounterVal
    let t := { (rtc1StartIfStopped t).tick late with compare0 := cc }
    if ticksDiffGet t.counter preCounterVal + rtcCompareOffsetMin > ticksDiffGet cc preCounterVal then
      { t with rtc1Pending := true }
    else t

def handleElapsed (t : AppTimer γ) (ticksPrevious : UInt32) : Option UInt32 → List Nat × AppTimer γ
  | some ticksElapsed => expiredTimersHandler t ticksElapsed ticksPrevious
  | none => ([], t)

def timerListHandler (t : AppTimer γ) (late : Nat) : AppTimer γ :=
  let acquired := elapsedTicksAcquire t
  let deletions := listDeletionsHandler acquired.2
  let expiries := handleElapsed deletions.2 t.ticksLatest acquired.1
  let insertions := listInsertionsHandler expiries.2 expiries.1
  if deletions.1 || acquired.1.isSome || insertions.1 then compareRegUpdate insertions.2 late
  else insertions.2.tick late

def AppTimer.enqueue (t : AppTimer γ) (user : TimerUser) (op : TimerUserOp γ) : AppTimer γ :=
  { t with userOps := fun u => if u = user then t.userOps u ++ [op] else t.userOps u }

def userOpSchedule (t : AppTimer γ) (user : TimerUser) (op : TimerUserOp γ) : ErrCode × AppTimer γ :=
  if (t.userOps user).length + 1 < t.userOpQueueSize then
    (nrfSuccess, timerListHandlerSched (t.enqueue user op))
  else (nrfErrorNoMem, t)

/-- The RTC1 interrupt, if it is enabled and pending. -/
def rtc1IrqHandler (t : AppTimer γ) : List (TimerNode γ) × AppTimer γ :=
  if t.rtc1Running && (t.rtc1Pending || t.eventsCompare0) then
    timerTimeoutsCheck { t with rtc1Pending := false, eventsCompare0 := false }
  else ([], t)

def swi0IrqHandler (t : AppTimer γ) (late : Nat) : AppTimer γ :=
  if t.swi0Pending then timerListHandler { t with swi0Pending := false } late else t.tick late

def appTimerInit (node : TimerNode γ) (maxTimers opQueuesSize : Nat) : AppTimer γ where
  nodes := fun _ => { node with allocated := false, isRunning := false }
  nodeArraySize := maxTimers
  running := []
  userOps := fun _ => []
  userOpQueueSize := opQueuesSize
  ticksLatest := 0
  ticksElapsed := none
  rtc1Running := false
  counter := 0
  compare0 := 0
  eventsCompare0 := false
  rtc1Pending := false
  swi0Pending := false

def appTimerCreate (t : AppTimer γ) (mode : AppTimerMode) (timeoutHandler : UInt32) :
    ErrCode × Option Nat × AppTimer γ :=
  if timeoutHandler = 0 then (nrfErrorInvalidParam, none, t)
  else
    match (List.range t.nodeArraySize).find? fun i => !(t.nodes i).allocated with
    | some i => (nrfSuccess, some i, t.setNode i { t.nodes i with
        allocated := true
        mode := mode
        pTimeoutHandler := timeoutHandler })
    | none => (nrfErrorNoMem, none, t)

def appTimerStart (t : AppTimer γ) (user : TimerUser) (timerId : Nat) (timeoutTicks : UInt32)
    (pContext : γ) : ErrCode × AppTimer γ :=
  if timerId ≥ t.nodeArraySize ∨ timeoutTicks < appTimerMinTimeoutTicks then
    (nrfErrorInvalidParam, t)
  else if (t.nodes timerId).allocated = false then (nrfErrorInvalidState, t)
  else
    let timeoutPeriodic := if (t.nodes timerId).mode = .repeated then timeoutTicks else 0
    userOpSchedule t user (.start timerId ⟨t.counter, timeoutTicks, timeoutPeriodic, pContext⟩)

def appTimerStop (t : AppTimer γ) (user : TimerUser) (timerId : Nat) : ErrCode × AppTimer γ :=
  if timerId ≥ t.nodeArraySize then (nrfErrorInvalidParam, t)
  else if (t.nodes timerId).allocated = false then (nrfErrorInvalidState, t)
  else userOpSchedule t user (.stop timerId)

end BleSpeedSensor
