import BleSpeedSensor.ErrorCodes
import BleSpeedSensor.NorFlash
import BleSpeedSensor.RunSystem

namespace BleSpeedSensor

open ByteMemory

def nrfErrorInternal : ErrCode := 3
def nrfErrorTimeout : ErrCode := 13
def nrfErrorNull : ErrCode := 14
def nrfErrorForbidden : ErrCode := 15
def nrfErrorInvalidAddr : ErrCode := 16

def socMaxWriteSize : Nat := 1024
def pstorageFlashPageSize : Nat := 1024
def pstorageMaxApplications : Nat := 2
def pstorageMinBlockSize : Nat := 16
def pstorageMaxBlockSize : Nat := pstorageFlashPageSize
def pstorageCmdQueueSize : Nat := 30
def rawModeAppId : Nat := pstorageMaxApplications + 1

/-- `INVALID_OPCODE` and the operations; a load is never queued. -/
inductive PstorageOp
  | invalid
  | store
  | load
  | clear
  | update
  deriving DecidableEq, Repr

inductive SwapState
  | init
  | dataToSwapWrite
  | dataErase
  | headRestore
  | tailRestore
  | newBodyWrite
  | swapErase
  | complete
  | swapDirty
  deriving DecidableEq, Repr

structure PstorageHandle where
  moduleId : Nat
  blockId : Nat
  deriving DecidableEq, Repr

structure PstorageCmd where
  opCode : PstorageOp
  size : Nat
  offset : Nat
  storageAddr : PstorageHandle
  pDataAddr : Nat
  deriving DecidableEq, Repr

/-- `registered` stands for a callback that is not `NULL`. -/
structure PstorageModule where
  registered : Bool
  baseId : Nat
  blockSize : Nat
  blockCount : Nat
  numOfPages : Nat
  deriving DecidableEq, Repr

/-- A call of a module's callback. -/
structure PstorageNtf where
  handle : PstorageHandle
  opCode : PstorageOp
  result : ErrCode
  pData : Nat
  dataLen : Nat
  deriving DecidableEq, Repr

/-- The chip: where its flash ends, from its registers, and how the SoftDevice answers a flash
command when none is under way. -/
structure FlashPort where
  pageEnd : Nat
  accepts : NorFlash.Op → ErrCode

def FlashPort.swapPage (port : FlashPort) : Nat := port.pageEnd - 1

def FlashPort.swapAddr (port : FlashPort) : Nat := port.swapPage * pstorageFlashPageSize

def FlashPort.dataStartAddr (port : FlashPort) : Nat :=
  (port.pageEnd - pstorageMaxApplications - 1) * pstorageFlashPageSize

/-- The module's variables, with the memory, the flash command the SoftDevice is at and the history
of callbacks. Flash and RAM are one memory. -/
structure Pstorage where
  rp : Nat
  count : Nat
  flashAccess : Bool
  cmd : Nat → PstorageCmd
  nextAppInstance : Nat
  nextPageAddr : Nat
  roundVal : Nat
  moduleInitialized : Bool
  swapState : SwapState
  appTable : Nat → PstorageModule
  mem : Memory
  pending : Option NorFlash.Op
  notified : List PstorageNtf

/-- `sd_flash_write` and `sd_flash_page_erase`: one command at a time. -/
def Pstorage.sdFlash (port : FlashPort) (s : Pstorage) (op : NorFlash.Op) : ErrCode × Pstorage :=
  if s.pending.isSome then (nrfErrorBusy, s)
  else if port.accepts op = nrfSuccess then (nrfSuccess, { s with pending := some op })
  else (port.accepts op, s)

/-- The memory once the flash command under way is done. -/
def Pstorage.settledMem (s : Pstorage) : Memory :=
  match s.pending with
  | none => s.mem
  | some op => op.apply pstorageFlashPageSize s.mem

/-- The SoftDevice is done with its flash command; its event is still to come. -/
def Pstorage.flashDone (s : Pstorage) : Pstorage :=
  { s with mem := s.settledMem, pending := none }

/-- A difference of two `uint32_t`. -/
def sub32 (a b : Nat) : Nat := (a + 4294967296 - b) % 4294967296

def cmdFree : PstorageCmd := ⟨.invalid, 0, 0, ⟨pstorageMaxApplications, 0⟩, 0⟩

def cmdQueueElementInit (s : Pstorage) (index : Nat) : Pstorage :=
  { s with cmd := fun i => if i = index then cmdFree else s.cmd i }

/-- `STATE_INIT` becomes the state the sequence starts in: the swap page is not used where the data
fill a page. -/
def swapEntry (swapState : SwapState) (headWordSize tailWordSize : Nat) : SwapState :=
  if swapState = .init then
    if headWordSize = 0 ∧ tailWordSize = 0 then .dataErase else .dataToSwapWrite
  else swapState

/-- The command is issued and, when it is accepted, the next state entered. -/
def Pstorage.issue (port : FlashPort) (s : Pstorage) (op : NorFlash.Op) (next : SwapState) :
    ErrCode × Pstorage :=
  let r := s.sdFlash port op
  if r.1 = nrfSuccess then (r.1, { r.2 with swapState := next }) else r

def swapStateProcess (port : FlashPort) (s : Pstorage) (p : PstorageCmd)
    (pageNumber headWordSize tailWordSize : Nat) : ErrCode × Pstorage :=
  let s := { s with swapState := swapEntry s.swapState headWordSize tailWordSize }
  let pageAddr := pageNumber * pstorageFlashPageSize
  let bodyOrSwapErase : SwapState := if p.opCode = .clear then .swapErase else .newBodyWrite
  match s.swapState with
  | .dataToSwapWrite =>
    s.issue port (.write port.swapAddr pageAddr (pstorageFlashPageSize / 4)) .dataErase
  | .dataErase =>
    s.issue port (.erase pageNumber)
      (if headWordSize = 0 then
        if tailWordSize = 0 then if p.opCode = .clear then .complete else .newBodyWrite
        else .tailRestore
      else .headRestore)
  | .headRestore =>
    s.issue port (.write pageAddr port.swapAddr headWordSize)
      (if tailWordSize = 0 then bodyOrSwapErase else .tailRestore)
  | .tailRestore =>
    s.issue port (.write (pageAddr + headWordSize * 4 + p.size)
      (port.swapAddr + headWordSize * 4 + p.size) tailWordSize) bodyOrSwapErase
  | .newBodyWrite =>
    s.issue port (.write (pageAddr + headWordSize * 4) p.pDataAddr (p.size / 4))
      (if headWordSize = 0 ∧ tailWordSize = 0 then .complete else .swapErase)
  | .swapErase =>
    s.issue port (.erase (port.swapAddr / pstorageFlashPageSize)) .complete
  | _ => (nrfErrorInternal, s)

def cmdProcess (port : FlashPort) (s : Pstorage) : ErrCode × Pstorage :=
  let p := s.cmd s.rp
  let storageAddr := p.storageAddr.blockId
  let pageNumber := storageAddr / pstorageFlashPageSize
  let r := match p.opCode with
    | .store =>
      let offset := s.roundVal * socMaxWriteSize
      let size := sub32 p.size offset
      s.sdFlash port (.write (storageAddr + (p.offset + offset)) (p.pDataAddr + offset)
        (if size < socMaxWriteSize then size / 4 else socMaxWriteSize / 4))
    | .clear =>
      let app := s.appTable p.storageAddr.moduleId
      if (app.baseId = storageAddr ∧ app.blockSize * app.blockCount = p.size) ∨
          p.storageAddr.moduleId = rawModeAppId then
        s.sdFlash port (.erase (pageNumber + s.roundVal))
      else
        swapStateProcess port s p pageNumber
          (sub32 storageAddr (pageNumber * pstorageFlashPageSize) / 4)
          (sub32 ((pageNumber + 1) * pstorageFlashPageSize) (storageAddr + p.size) / 4)
    | .update =>
      swapStateProcess port s p pageNumber
        (sub32 (storageAddr + p.offset) (pageNumber * pstorageFlashPageSize) / 4)
        (sub32 ((pageNumber + 1) * pstorageFlashPageSize) (storageAddr + p.offset + p.size) / 4)
    | .invalid | .load => (nrfErrorForbidden, s)
  if r.1 = nrfSuccess then (r.1, { r.2 with flashAccess := true }) else r

def cmdQueueEnqueue (port : FlashPort) (s : Pstorage) (p : PstorageCmd) : ErrCode × Pstorage :=
  if s.count ≠ pstorageCmdQueueSize then
    let writeIndex := s.rp + s.count
    let writeIndex :=
      if pstorageCmdQueueSize ≤ writeIndex then writeIndex - pstorageCmdQueueSize else writeIndex
    let s := { s with cmd := fun i => if i = writeIndex then p else s.cmd i }
    let r := if s.flashAccess = false then cmdProcess port s else (nrfSuccess, s)
    (if s.flashAccess = false ∧ r.1 = nrfErrorBusy then nrfSuccess else r.1,
      { r.2 with count := r.2.count + 1 })
  else (nrfErrorNoMem, s)

def appNotify (s : Pstorage) (result : ErrCode) : Pstorage :=
  let p := s.cmd s.rp
  { s with notified := s.notified ++ [⟨p.storageAddr, p.opCode, result, p.pDataAddr, p.size⟩] }

def cmdQueueDequeue (port : FlashPort) (s : Pstorage) : ErrCode × Pstorage :=
  if 0 < s.count then
    let r := cmdProcess port s
    if r.1 ≠ nrfSuccess ∧ r.1 ≠ nrfErrorBusy then (r.1, appNotify r.2 r.1) else r
  else (nrfSuccess, s)

/-- The SOC events as the handler tells them apart. -/
inductive SysEvt
  | flashOperationSuccess
  | flashOperationError
  | other
  deriving DecidableEq, Repr

/-- The command at the head is through, its round counted. -/
def Pstorage.finished (s : Pstorage) : Bool :=
  let p := s.cmd s.rp
  let allRounds : Bool := p.size ≤ s.roundVal * socMaxWriteSize
  (p.opCode = .update && s.swapState = .complete) ||
    (p.opCode = .clear && s.swapState = .complete) ||
    (p.opCode = .clear && allRounds && s.swapState = .init) ||
    (p.opCode = .store && allRounds)

/-- The head is notified of and leaves the queue. -/
def Pstorage.finish (s : Pstorage) : Pstorage :=
  let s := appNotify { s with swapState := .init } nrfSuccess
  let s := cmdQueueElementInit s s.rp
  { s with
    roundVal := 0
    count := s.count - 1
    rp := if pstorageCmdQueueSize ≤ s.rp + 1 then s.rp + 1 - pstorageCmdQueueSize else s.rp + 1 }

/-- Any queued command is scheduled; a failure is notified once more. -/
def Pstorage.schedule (port : FlashPort) (s : Pstorage) : Pstorage :=
  let r := cmdQueueDequeue port s
  if r.1 ≠ nrfSuccess then appNotify r.2 r.1 else r.2

def pstorageSysEventHandler (port : FlashPort) (s : Pstorage) (sysEvt : SysEvt) : Pstorage :=
  if s.flashAccess then
    let s := { s with flashAccess := false }
    if s.swapState = .swapDirty then
      Pstorage.schedule port (if sysEvt = .flashOperationSuccess then { s with swapState := .init }
        else { s with moduleInitialized := false })
    else
      match sysEvt with
      | .flashOperationSuccess =>
        let s := { s with roundVal := s.roundVal + 1 }
        Pstorage.schedule port (if s.finished then s.finish else s)
      | .flashOperationError => appNotify s nrfErrorTimeout
      | .other => s
  else s

def pstorageModuleFree : PstorageModule := ⟨false, 0, 0, 0, 0⟩

def pstorageInit (port : FlashPort) (s : Pstorage) : ErrCode × Pstorage :=
  let s := { s with
    roundVal := 0
    rp := 0
    count := 0
    flashAccess := false
    cmd := fun _ => cmdFree
    nextAppInstance := 0
    nextPageAddr := port.dataStartAddr
    appTable := fun i => { pstorageModuleFree with baseId := (s.appTable i).baseId }
    swapState := .swapDirty }
  let r := s.sdFlash port (.erase (port.swapAddr / pstorageFlashPageSize))
  if r.1 = nrfSuccess then (r.1, { r.2 with flashAccess := true, moduleInitialized := true }) else r

/-- The loop that counts the pages of a module: it is left when less than a page is left over. -/
def pagesLoop (totalSize : Nat) : Nat :=
  let rest := if pstorageFlashPageSize < totalSize then totalSize - pstorageFlashPageSize else 0
  if h : pstorageFlashPageSize ≤ rest then pagesLoop rest + 1 else 1
  termination_by totalSize
  decreasing_by
    have hrest : 1024 ≤ if 1024 < totalSize then totalSize - 1024 else 0 := h
    show (if 1024 < totalSize then totalSize - 1024 else 0) < totalSize
    by_cases hlt : 1024 < totalSize
    · rw [if_pos hlt]
      omega
    · rw [if_neg hlt] at hrest
      omega

/-- A registration: the callback is there unless `cb` is `false`. -/
structure PstorageModuleParam where
  cb : Bool
  blockSize : Nat
  blockCount : Nat
  deriving DecidableEq, Repr

def pstorageRegister (port : FlashPort) (s : Pstorage) (param : PstorageModuleParam) :
    Except ErrCode (PstorageHandle × Pstorage) :=
  if !s.moduleInitialized then .error nrfErrorInvalidState
  else if !param.cb then .error nrfErrorNull
  else if pstorageMaxBlockSize < param.blockSize ∨ param.blockSize < pstorageMinBlockSize then
    .error nrfErrorInvalidParam
  else if param.blockCount = 0 ∨
      port.swapAddr < s.nextPageAddr + param.blockCount * param.blockSize then
    .error nrfErrorInvalidParam
  else if param.blockSize % 4 ≠ 0 then .error nrfErrorInvalidParam
  else if s.nextAppInstance = pstorageMaxApplications then .error nrfErrorNoMem
  else
    let handle : PstorageHandle := ⟨s.nextAppInstance, s.nextPageAddr⟩
    let pages := pagesLoop (param.blockSize * param.blockCount)
    let row : PstorageModule :=
      ⟨true, handle.blockId, param.blockSize, param.blockCount, pages⟩
    .ok (handle, { s with
      appTable := fun i => if i = s.nextAppInstance then row else s.appTable i
      nextPageAddr := s.nextPageAddr + pages * pstorageFlashPageSize
      nextAppInstance := s.nextAppInstance + 1 })

/-- The handle names a registered module and an address before the end of its blocks. -/
def pstorageHandleCheck (s : Pstorage) (handle : PstorageHandle) : ErrCode :=
  let app := s.appTable handle.moduleId
  if pstorageMaxApplications ≤ handle.moduleId ∨ !app.registered then nrfErrorInvalidParam
  else if app.baseId + app.blockCount * app.blockSize ≤ handle.blockId then nrfErrorInvalidParam
  else nrfSuccess

def pstorageBlockIdentifierGet (s : Pstorage) (baseId : PstorageHandle) (blockNum : Nat) :
    Except ErrCode PstorageHandle :=
  if !s.moduleInitialized then .error nrfErrorInvalidState
  else
    let app := s.appTable baseId.moduleId
    let handle : PstorageHandle :=
      { baseId with blockId := baseId.blockId + blockNum * app.blockSize }
    if pstorageHandleCheck s handle ≠ nrfSuccess then .error (pstorageHandleCheck s handle)
    else .ok handle

/-- What `pstorage_store`, `pstorage_update` and `pstorage_load` check; `dest` is the block and `pSrc`
the address in RAM. -/
def pstorageWriteCheck (s : Pstorage) (dest : Option PstorageHandle) (pSrc size offset : Nat) :
    Except ErrCode PstorageHandle :=
  if !s.moduleInitialized then .error nrfErrorInvalidState
  else if pSrc = 0 then .error nrfErrorNull
  else match dest with
    | none => .error nrfErrorNull
    | some handle =>
      let blockSize := (s.appTable handle.moduleId).blockSize
      if pstorageHandleCheck s handle ≠ nrfSuccess then .error (pstorageHandleCheck s handle)
      else if size = 0 ∨ blockSize < size then .error nrfErrorInvalidParam
      else if blockSize < size + offset then .error nrfErrorInvalidParam
      else if pSrc % 4 ≠ 0 ∨ offset % 4 ≠ 0 then .error nrfErrorInvalidAddr
      else if handle.blockId % 4 ≠ 0 then .error nrfErrorInvalidAddr
      else .ok handle

def pstorageWrite (opCode : PstorageOp) (port : FlashPort) (s : Pstorage)
    (dest : Option PstorageHandle) (pSrc size offset : Nat) : ErrCode × Pstorage :=
  match pstorageWriteCheck s dest pSrc size offset with
  | .error errCode => (errCode, s)
  | .ok handle => cmdQueueEnqueue port s ⟨opCode, size, offset, handle, pSrc⟩

def pstorageStore (port : FlashPort) (s : Pstorage) (dest : Option PstorageHandle)
    (pSrc size offset : Nat) : ErrCode × Pstorage :=
  pstorageWrite .store port s dest pSrc size offset

def pstorageUpdate (port : FlashPort) (s : Pstorage) (dest : Option PstorageHandle)
    (pSrc size offset : Nat) : ErrCode × Pstorage :=
  pstorageWrite .update port s dest pSrc size offset

def pstorageClearCheck (s : Pstorage) (dest : Option PstorageHandle) :
    Except ErrCode PstorageHandle :=
  if !s.moduleInitialized then .error nrfErrorInvalidState
  else match dest with
    | none => .error nrfErrorNull
    | some handle =>
      let app := s.appTable handle.moduleId
      if pstorageHandleCheck s handle ≠ nrfSuccess then .error (pstorageHandleCheck s handle)
      else if handle.blockId % 4 ≠ 0 then .error nrfErrorInvalidAddr
      else if sub32 handle.blockId app.baseId % app.blockSize ≠ 0 then .error nrfErrorInvalidParam
      else .ok handle

def pstorageClear (port : FlashPort) (s : Pstorage) (dest : Option PstorageHandle) (size : Nat) :
    ErrCode × Pstorage :=
  match pstorageClearCheck s dest with
  | .error errCode => (errCode, s)
  | .ok handle => cmdQueueEnqueue port s ⟨.clear, size, 0, handle, 0⟩

end BleSpeedSensor
