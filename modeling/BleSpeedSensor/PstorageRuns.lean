import BleSpeedSensor.PstorageQueue

namespace BleSpeedSensor

open ByteMemory NorFlash RunSystem

/-- A call that asks for a flash operation. -/
inductive PstorageCall
  | store (dest : Option PstorageHandle) (pSrc size offset : Nat)
  | update (dest : Option PstorageHandle) (pSrc size offset : Nat)
  | clear (dest : Option PstorageHandle) (size : Nat)
  deriving DecidableEq, Repr

def PstorageCall.cmd : PstorageCall → Option PstorageCmd
  | .store dest pSrc size offset => dest.map fun handle => ⟨.store, size, offset, handle, pSrc⟩
  | .update dest pSrc size offset => dest.map fun handle => ⟨.update, size, offset, handle, pSrc⟩
  | .clear dest size => dest.map fun handle => ⟨.clear, size, 0, handle, 0⟩

def PstorageCall.run (port : FlashPort) (s : Pstorage) : PstorageCall → ErrCode × Pstorage
  | .store dest pSrc size offset => pstorageStore port s dest pSrc size offset
  | .update dest pSrc size offset => pstorageUpdate port s dest pSrc size offset
  | .clear dest size => pstorageClear port s dest size

/-- What happens to the module: a call, the end of a flash command, the event about it, or a SOC event
about something else. -/
inductive PstorageAct
  | register (param : PstorageModuleParam)
  | call (call : PstorageCall)
  | flashDone
  | flashEvt
  | otherEvt
  deriving DecidableEq, Repr

/-- The module, the commands of the calls that returned success, and whether the SoftDevice has an
event to give that says that a flash command was completed. -/
structure PstorageSystem where
  state : Pstorage
  accepted : List PstorageCmd
  completed : Bool

def pstorageStep (port : FlashPort) (t : PstorageSystem) : PstorageAct → PstorageSystem
  | .register param =>
    match pstorageRegister port t.state param with
    | .error _ => t
    | .ok r => { t with state := r.2 }
  | .call call =>
    let r := call.run port t.state
    { t with
      state := r.2
      accepted := if r.1 = nrfSuccess then t.accepted ++ call.cmd.toList else t.accepted }
  | .flashDone =>
    if t.state.pending.isSome then { t with state := t.state.flashDone, completed := true } else t
  | .flashEvt =>
    if t.completed then
      { t with
        state := pstorageSysEventHandler port t.state .flashOperationSuccess
        completed := false }
    else t
  | .otherEvt => { t with state := pstorageSysEventHandler port t.state .other }

def PstorageSystem.start (port : FlashPort) (s : Pstorage) : PstorageSystem :=
  ⟨(pstorageInit port s).2, [], false⟩

/-- The callback of a command that went through. -/
def PstorageCmd.success (c : PstorageCmd) : PstorageNtf :=
  ⟨c.storageAddr, c.opCode, nrfSuccess, c.pDataAddr, c.size⟩

/-- The memory after commands carried out one after the other. -/
def serialMem (table : Nat → PstorageModule) (m : Memory) (cmds : List PstorageCmd) : Memory :=
  cmds.foldl (fun m c => effect table c m) m

/-- The accepted commands are done, in order, or wait in the ring. -/
structure Ledger (port : FlashPort) (m : Memory) (ntf : List PstorageNtf) (s : Pstorage)
    (accepted done waiting : List PstorageCmd) : Prop where
  order : accepted = done ++ waiting
  queue : CmdQueue s waiting
  notified : s.notified = ntf ++ done.map PstorageCmd.success
  initialized : s.moduleInitialized = true
  rows : Rows port s
  registered : ∀ c ∈ accepted, (s.appTable c.storageAddr.moduleId).registered = true
  fits : ∀ c ∈ accepted, Fits s.appTable port c
  swap : SwapErased port (serialMem s.appTable m done)

theorem Ledger.waits {port : FlashPort} {m : Memory} {ntf : List PstorageNtf} {s : Pstorage}
    {accepted done waiting : List PstorageCmd} (h : Ledger port m ntf s accepted done waiting) :
    ∀ c ∈ waiting, Fits s.appTable port c :=
  fun c hc => h.fits c (h.order ▸ List.mem_append_right _ hc)

section Steps

variable {port : FlashPort} {s : Pstorage} {c : PstorageCmd} {m : Memory} {t : PstorageSystem}
variable {ntf : List PstorageNtf} {done waiting : List PstorageCmd}

theorem writeIndex_slot (s : Pstorage) :
    (if pstorageCmdQueueSize ≤ s.rp + s.count then s.rp + s.count - pstorageCmdQueueSize
      else s.rp + s.count) = RingIndex.slot pstorageCmdQueueSize s.rp s.count := by
  unfold RingIndex.slot
  split <;> split <;> omega

theorem enqueue_full (h : s.count = pstorageCmdQueueSize) :
    cmdQueueEnqueue port s c = (nrfErrorNoMem, s) := by
  unfold cmdQueueEnqueue
  rw [if_neg (fun hne => hne h)]

theorem enqueue_room (hroom : s.count ≠ pstorageCmdQueueSize) {r : ErrCode × Pstorage}
    (hr : (if s.flashAccess = false then cmdProcess port { s.push c with count := s.count }
      else (nrfSuccess, { s.push c with count := s.count })) = r) :
    cmdQueueEnqueue port s c =
      (if s.flashAccess = false ∧ r.1 = nrfErrorBusy then nrfSuccess else r.1,
        { r.2 with count := r.2.count + 1 }) := by
  subst hr
  unfold cmdQueueEnqueue
  rw [if_pos hroom]
  simp only [writeIndex_slot]
  rfl

/-- A call is refused without effect or queues its command, which fits when the call is proper. -/
theorem call_cases (port : FlashPort) (s : Pstorage) (call : PstorageCall) :
    (∃ e, e ≠ nrfSuccess ∧ call.run port s = (e, s)) ∨
      ∃ c, call.cmd = some c ∧ call.run port s = cmdQueueEnqueue port s c ∧
        (s.appTable c.storageAddr.moduleId).registered = true ∧
        (Rows port s → port.pageEnd * 1024 < 4294967296 → Proper s.appTable port c →
          Fits s.appTable port c) := by
  cases call with
  | store dest pSrc size offset =>
    obtain ⟨e, hne, he⟩ | ⟨handle, rfl, hok, hchecked⟩ := writeCheck_cases s dest pSrc size offset
    · exact Or.inl ⟨e, hne, by simp only [PstorageCall.run, pstorageStore, pstorageWrite, he]⟩
    · refine Or.inr ⟨_, rfl, by simp only [PstorageCall.run, pstorageStore, pstorageWrite, hok],
        (handleCheck_ok hchecked.handleOk).2, ?_⟩
      intro hrows hflash hproper
      exact write_fits hrows hflash (Or.inl rfl) hchecked hproper
  | update dest pSrc size offset =>
    obtain ⟨e, hne, he⟩ | ⟨handle, rfl, hok, hchecked⟩ := writeCheck_cases s dest pSrc size offset
    · exact Or.inl ⟨e, hne, by simp only [PstorageCall.run, pstorageUpdate, pstorageWrite, he]⟩
    · refine Or.inr ⟨_, rfl, by simp only [PstorageCall.run, pstorageUpdate, pstorageWrite, hok],
        (handleCheck_ok hchecked.handleOk).2, ?_⟩
      intro hrows hflash hproper
      exact write_fits hrows hflash (Or.inr rfl) hchecked hproper
  | clear dest size =>
    obtain ⟨e, hne, he⟩ | ⟨handle, rfl, hok, hhandle, hblock⟩ := clearCheck_cases s dest
    · exact Or.inl ⟨e, hne, by simp only [PstorageCall.run, pstorageClear, he]⟩
    · refine Or.inr ⟨_, rfl, by simp only [PstorageCall.run, pstorageClear, hok],
        (handleCheck_ok hhandle).2, ?_⟩
      intro hrows hflash hproper
      exact clear_fits hrows hflash hhandle hblock hproper

def PstorageModuleParam.total (param : PstorageModuleParam) : Nat :=
  param.blockSize * param.blockCount

/-- A registration fills the next free row. -/
def registered (s : Pstorage) (param : PstorageModuleParam) : Pstorage :=
  let row : PstorageModule := ⟨true, s.nextPageAddr, param.blockSize, param.blockCount,
    pagesLoop param.total⟩
  { s with
    appTable := fun i => if i = s.nextAppInstance then row else s.appTable i
    nextPageAddr := s.nextPageAddr + pagesLoop param.total * pstorageFlashPageSize
    nextAppInstance := s.nextAppInstance + 1 }

theorem registered_nextPage (s : Pstorage) (param : PstorageModuleParam) :
    (registered s param).nextPageAddr =
      s.nextPageAddr + pagesLoop param.total * pstorageFlashPageSize := rfl

structure Registered (port : FlashPort) (s : Pstorage) (param : PstorageModuleParam) : Prop where
  room : s.nextAppInstance ≠ pstorageMaxApplications
  words : param.blockSize % 4 = 0 ∧ 0 < param.blockSize
  blocks : 0 < param.blockCount
  area : s.nextPageAddr + param.blockCount * param.blockSize ≤ port.swapAddr

theorem register_ok {param : PstorageModuleParam} {r : PstorageHandle × Pstorage}
    (h : pstorageRegister port s param = .ok r) :
    r = (⟨s.nextAppInstance, s.nextPageAddr⟩, registered s param) ∧ Registered port s param := by
  unfold pstorageRegister at h
  obtain ⟨-, he⟩ | ⟨-, h⟩ := check_or h
  · cases he
  obtain ⟨-, he⟩ | ⟨-, h⟩ := check_or h
  · cases he
  obtain ⟨-, he⟩ | ⟨hsize, h⟩ := check_or h
  · cases he
  obtain ⟨-, he⟩ | ⟨hcount, h⟩ := check_or h
  · cases he
  obtain ⟨-, he⟩ | ⟨hword, h⟩ := check_or h
  · cases he
  obtain ⟨-, he⟩ | ⟨hfull, h⟩ := check_or h
  · cases he
  refine ⟨(Except.ok.inj h).symm, hfull, ⟨Decidable.not_not.mp hword, ?_⟩, ?_, ?_⟩
  · simp only [pstorageMinBlockSize] at hsize
    omega
  · omega
  · omega

theorem serialMem_append (table : Nat → PstorageModule) (m : Memory) (cmds : List PstorageCmd)
    (c : PstorageCmd) :
    serialMem table m (cmds ++ [c]) = effect table c (serialMem table m cmds) := by
  unfold serialMem
  rw [List.foldl_append]
  rfl

/-- A command that is through leaves the ring and is notified of. -/
theorem Ledger.finish {accepted : List PstorageCmd}
    (h : Ledger port m ntf s accepted done (c :: waiting)) :
    Ledger port m ntf s.finish accepted (done ++ [c]) waiting := by
  have hhead := h.queue.head
  have hfit := h.waits c List.mem_cons_self
  have hserial := serialMem_append s.appTable m done c
  refine ⟨?_, h.queue.finish, ?_, h.initialized,
    ⟨h.rows.instances, h.rows.free, h.rows.nextPage, h.rows.base, h.rows.words, h.rows.area⟩,
    h.registered, h.fits, ?_⟩
  · rw [h.order, List.append_assoc]
    rfl
  · have hntf : s.finish.notified = s.notified ++ [(s.cmd s.rp).success] := rfl
    rw [hntf, h.notified, hhead, List.map_append, List.append_assoc]
    rfl
  · show SwapErased port (serialMem s.appTable m (done ++ [c]))
    rw [hserial]
    exact effect_swapErased hfit h.swap

section Events

variable {accepted : List PstorageCmd}

end Events

theorem handler_idle (haccess : s.flashAccess = false) (sysEvt : SysEvt) :
    pstorageSysEventHandler port s sysEvt = s :=
  if_neg (by rw [haccess]; decide)

/-- A flash command after the other is completed and reported. -/
def completions (n : Nat) : List PstorageAct := (List.replicate n [.flashDone, .flashEvt]).flatten

end Steps

end BleSpeedSensor
