import BleSpeedSensor.PstorageRounds
import BleSpeedSensor.RingIndex

namespace BleSpeedSensor

open ByteMemory NorFlash

/-- Every registered module has whole words, an area from the start of a page and none of the swap
page. -/
structure Rows (port : FlashPort) (s : Pstorage) : Prop where
  instances : s.nextAppInstance ≤ pstorageMaxApplications
  free : ∀ i, s.nextAppInstance ≤ i → (s.appTable i).registered = false
  nextPage : s.nextPageAddr % 1024 = 0
  base : ∀ i, (s.appTable i).registered = true → (s.appTable i).baseId % 1024 = 0
  words : ∀ i, (s.appTable i).registered = true →
    (s.appTable i).blockSize % 4 = 0 ∧ 0 < (s.appTable i).blockSize
  area : ∀ i, (s.appTable i).registered = true →
    (s.appTable i).baseId + (s.appTable i).blockCount * (s.appTable i).blockSize ≤ port.swapAddr

/-- The handle is that of one of the blocks its module registered. -/
def OfBlock (table : Nat → PstorageModule) (handle : PstorageHandle) : Prop :=
  ∃ k, k < (table handle.moduleId).blockCount ∧
    handle.blockId = (table handle.moduleId).baseId + k * (table handle.moduleId).blockSize

/-- What a call is to keep to, none of it checked: the handle is of a block, sizes are of words, data
lie in RAM, and a clear is of the module or of one block. That an update or the clear of a block does
not reach into the next page is not asked of the caller either. -/
def Proper (table : Nat → PstorageModule) (port : FlashPort) (c : PstorageCmd) : Prop :=
  OfBlock table c.storageAddr ∧
    if c.opCode = .clear then
      WholeModule table c ∨ c.size = (table c.storageAddr.moduleId).blockSize ∧
        c.start + c.size ≤ (c.page + 1) * pstorageFlashPageSize
    else
      c.size % 4 = 0 ∧ port.swapAddr + pstorageFlashPageSize ≤ c.pDataAddr ∧
        (c.opCode = .update → c.start + c.size ≤ (c.page + 1) * pstorageFlashPageSize)

section Interface

variable {port : FlashPort} {s : Pstorage} {handle : PstorageHandle}

theorem handleCheck_ok (h : pstorageHandleCheck s handle = nrfSuccess) :
    handle.moduleId < pstorageMaxApplications ∧ (s.appTable handle.moduleId).registered = true := by
  unfold pstorageHandleCheck at h
  by_cases hid : pstorageMaxApplications ≤ handle.moduleId ∨
      (!(s.appTable handle.moduleId).registered) = true
  · have h' : nrfErrorInvalidParam = nrfSuccess := (if_pos hid).symm.trans h
    exact absurd h' (by decide)
  · refine ⟨Nat.lt_of_not_le (fun hle => hid (Or.inl hle)), ?_⟩
    cases hreg : (s.appTable handle.moduleId).registered with
    | true => rfl
    | false => exact absurd (Or.inr (by rw [hreg]; rfl)) hid

/-- A check that is the first of several: it fails with its code, or the rest decides. -/
theorem check_or {α : Type} {p : Prop} [Decidable p] {e : ErrCode} {x r : Except ErrCode α}
    (h : (if p then .error e else x) = r) :
    p ∧ r = .error e ∨ ¬ p ∧ x = r := by
  by_cases hp : p
  · rw [if_pos hp] at h
    exact Or.inl ⟨hp, h.symm⟩
  · rw [if_neg hp] at h
    exact Or.inr ⟨hp, h⟩

theorem handleCheck_below (h : pstorageHandleCheck s handle = nrfSuccess) :
    handle.blockId < (s.appTable handle.moduleId).baseId +
      (s.appTable handle.moduleId).blockCount * (s.appTable handle.moduleId).blockSize := by
  unfold pstorageHandleCheck at h
  dsimp only at h
  split at h
  · exact absurd h (by decide)
  · split at h
    · exact absurd h (by decide)
    next hbelow => exact Nat.lt_of_not_le hbelow

/-- From the handle of a registration the interface gives handles of blocks only. -/
theorem blockIdentifierGet_block {baseId : PstorageHandle} {blockNum : Nat}
    (hbase : baseId.blockId = (s.appTable baseId.moduleId).baseId)
    (h : pstorageBlockIdentifierGet s baseId blockNum = .ok handle) : OfBlock s.appTable handle := by
  unfold pstorageBlockIdentifierGet at h
  obtain ⟨-, h⟩ | ⟨-, h⟩ := check_or h
  · cases h
  · obtain ⟨-, h⟩ | ⟨hok, h⟩ := check_or h
    · cases h
    · obtain rfl := Except.ok.inj h
      have hbelow := handleCheck_below (Decidable.not_not.mp hok)
      refine ⟨blockNum, ?_, by rw [← hbase]⟩
      dsimp only at hbelow
      rw [hbase] at hbelow
      exact Nat.lt_of_mul_lt_mul_right (Nat.lt_of_add_lt_add_left hbelow)

/-- A store or an update that passes the checks. -/
structure WriteChecked (s : Pstorage) (handle : PstorageHandle) (pSrc size offset : Nat) : Prop where
  handleOk : pstorageHandleCheck s handle = nrfSuccess
  pos : 0 < size
  inBlock : size + offset ≤ (s.appTable handle.moduleId).blockSize
  sourceAligned : pSrc % 4 = 0
  offsetAligned : offset % 4 = 0
  blockAligned : handle.blockId % 4 = 0

theorem writeCheck_cases (s : Pstorage) (dest : Option PstorageHandle) (pSrc size offset : Nat) :
    (∃ e, e ≠ nrfSuccess ∧ pstorageWriteCheck s dest pSrc size offset = .error e) ∨
      ∃ handle, dest = some handle ∧ pstorageWriteCheck s dest pSrc size offset = .ok handle ∧
        WriteChecked s handle pSrc size offset := by
  obtain ⟨r, hr⟩ : ∃ r, pstorageWriteCheck s dest pSrc size offset = r := ⟨_, rfl⟩
  have h := hr
  rw [hr]
  unfold pstorageWriteCheck at h
  obtain ⟨-, rfl⟩ | ⟨-, h⟩ := check_or h
  · exact Or.inl ⟨nrfErrorInvalidState, by decide, rfl⟩
  obtain ⟨-, rfl⟩ | ⟨-, h⟩ := check_or h
  · exact Or.inl ⟨nrfErrorNull, by decide, rfl⟩
  cases dest with
  | none => exact Or.inl ⟨nrfErrorNull, by decide, h.symm⟩
  | some handle =>
    obtain ⟨hne, rfl⟩ | ⟨hok, h⟩ := check_or h
    · exact Or.inl ⟨_, hne, rfl⟩
    obtain ⟨-, rfl⟩ | ⟨hsize, h⟩ := check_or h
    · exact Or.inl ⟨nrfErrorInvalidParam, by decide, rfl⟩
    obtain ⟨-, rfl⟩ | ⟨hoffset, h⟩ := check_or h
    · exact Or.inl ⟨nrfErrorInvalidParam, by decide, rfl⟩
    obtain ⟨-, rfl⟩ | ⟨haligned, h⟩ := check_or h
    · exact Or.inl ⟨nrfErrorInvalidAddr, by decide, rfl⟩
    obtain ⟨-, rfl⟩ | ⟨hblock, h⟩ := check_or h
    · exact Or.inl ⟨nrfErrorInvalidAddr, by decide, rfl⟩
    refine Or.inr ⟨handle, rfl, h.symm, Decidable.not_not.mp hok, ?_, ?_, ?_, ?_, ?_⟩
    · omega
    · omega
    · omega
    · omega
    · omega

theorem clearCheck_cases (s : Pstorage) (dest : Option PstorageHandle) :
    (∃ e, e ≠ nrfSuccess ∧ pstorageClearCheck s dest = .error e) ∨
      ∃ handle, dest = some handle ∧ pstorageClearCheck s dest = .ok handle ∧
        pstorageHandleCheck s handle = nrfSuccess ∧ handle.blockId % 4 = 0 := by
  obtain ⟨r, hr⟩ : ∃ r, pstorageClearCheck s dest = r := ⟨_, rfl⟩
  have h := hr
  rw [hr]
  unfold pstorageClearCheck at h
  obtain ⟨-, rfl⟩ | ⟨-, h⟩ := check_or h
  · exact Or.inl ⟨nrfErrorInvalidState, by decide, rfl⟩
  cases dest with
  | none => exact Or.inl ⟨nrfErrorNull, by decide, h.symm⟩
  | some handle =>
    obtain ⟨hne, rfl⟩ | ⟨hok, h⟩ := check_or h
    · exact Or.inl ⟨_, hne, rfl⟩
    obtain ⟨-, rfl⟩ | ⟨haligned, h⟩ := check_or h
    · exact Or.inl ⟨nrfErrorInvalidAddr, by decide, rfl⟩
    obtain ⟨-, rfl⟩ | ⟨-, h⟩ := check_or h
    · exact Or.inl ⟨nrfErrorInvalidParam, by decide, rfl⟩
    exact Or.inr ⟨handle, rfl, h.symm, Decidable.not_not.mp hok, Decidable.not_not.mp haligned⟩

/-- A part of a block lies in the module's area. -/
theorem block_below {base k count blockSize addr part last : Nat} (hk : k < count)
    (haddr : addr = base + k * blockSize) (hpart : part ≤ blockSize)
    (harea : base + count * blockSize ≤ last) : addr + part ≤ last := by
  have hmul : (k + 1) * blockSize ≤ count * blockSize := Nat.mul_le_mul_right _ hk
  rw [Nat.succ_mul] at hmul
  omega

theorem page_below {addr part swapPage swapAddr : Nat} (hswap : swapAddr = swapPage * 1024)
    (hbelow : addr + part ≤ swapAddr) (hpos : 0 < part) : addr / 1024 < swapPage := by
  omega

/-- A checked store or update of a proper caller fits. -/
theorem write_fits (hrows : Rows port s) (hflash : port.pageEnd * 1024 < 4294967296)
    {op : PstorageOp} (hop : op = .store ∨ op = .update) {pSrc size offset : Nat}
    (hchecked : WriteChecked s handle pSrc size offset)
    (hproper : Proper s.appTable port ⟨op, size, offset, handle, pSrc⟩) :
    Fits s.appTable port ⟨op, size, offset, handle, pSrc⟩ := by
  obtain ⟨hok, hpos, hinBlock, hsource, hoffset, hblock⟩ := hchecked
  obtain ⟨-, hreg⟩ := handleCheck_ok hok
  obtain ⟨⟨k, hk, haddr⟩, hrest⟩ := hproper
  have hbelow := block_below hk haddr hinBlock (hrows.area _ hreg)
  have hdata : (⟨op, size, offset, handle, pSrc⟩ : PstorageCmd).size % 4 = 0 ∧
      port.swapAddr + pstorageFlashPageSize ≤ pSrc ∧ (op = .update →
        (⟨op, size, offset, handle, pSrc⟩ : PstorageCmd).start + size ≤
          ((⟨op, size, offset, handle, pSrc⟩ : PstorageCmd).page + 1) * pstorageFlashPageSize) := by
    have hne : op ≠ .clear := by
      obtain rfl | rfl := hop <;> decide
    rw [if_neg hne] at hrest
    exact hrest
  obtain ⟨hsize, hram, hinside⟩ := hdata
  have hend : handle.blockId + offset + size ≤ port.swapAddr := by
    have hb : handle.blockId + (size + offset) ≤ port.swapAddr := hbelow
    omega
  obtain rfl | rfl := hop
  · exact ⟨hblock, hoffset, hsize, hpos, hend, hflash, hram, hsource⟩
  · have hlow : handle.blockId / 1024 < port.swapPage :=
      @page_below handle.blockId (size + offset) port.swapPage port.swapAddr rfl hbelow (by omega)
    refine ⟨⟨hblock, hoffset, hsize, hpos, hinside rfl, hlow, hflash, ?_, fun _ => ⟨hram, hsource⟩⟩,
      Or.inr rfl⟩
    intro h
    cases h

theorem clear_fits (hrows : Rows port s) (hflash : port.pageEnd * 1024 < 4294967296) {size : Nat}
    (hok : pstorageHandleCheck s handle = nrfSuccess) (hblock : handle.blockId % 4 = 0)
    (hproper : Proper s.appTable port ⟨.clear, size, 0, handle, 0⟩) :
    Fits s.appTable port ⟨.clear, size, 0, handle, 0⟩ := by
  obtain ⟨hid, hreg⟩ := handleCheck_ok hok
  obtain ⟨⟨k, hk, haddr⟩, hrest⟩ := hproper
  obtain ⟨hwords, hpos⟩ := hrows.words _ hreg
  have harea := hrows.area _ hreg
  rw [if_pos rfl] at hrest
  unfold Fits course
  by_cases hwhole : WholeModule s.appTable ⟨.clear, size, 0, handle, 0⟩
  · simp only [if_pos hwhole]
    obtain ⟨hbase, hsize⟩ | hraw := hwhole
    · have hpage := hrows.base _ hreg
      have hcount : 0 < (s.appTable handle.moduleId).blockCount := Nat.zero_lt_of_lt hk
      have hb : (s.appTable handle.moduleId).baseId = handle.blockId := hbase
      have hs : (s.appTable handle.moduleId).blockSize * (s.appTable handle.moduleId).blockCount =
        size := hsize
      have hsizePos : 0 < size := hs ▸ Nat.mul_pos hpos hcount
      have hend : handle.blockId + size ≤ port.swapAddr := by
        rw [← hs, Nat.mul_comm, ← hb]
        exact harea
      have haligned : handle.blockId % 1024 = 0 := hb ▸ hpage
      refine ⟨hsizePos, ?_⟩
      have hswap : port.swapAddr = port.swapPage * 1024 := rfl
      simp only [PstorageCmd.page, PstorageCmd.rounds, pstorageFlashPageSize]
      omega
    · simp only [rawModeAppId, pstorageMaxApplications] at hraw hid
      omega
  · simp only [if_neg hwhole]
    obtain ⟨hsize, hinside⟩ := hrest.resolve_left hwhole
    have hsize' : size = (s.appTable handle.moduleId).blockSize := hsize
    have hbelow := block_below hk haddr (Nat.le_of_eq hsize') harea
    have hlow : handle.blockId / 1024 < port.swapPage := page_below rfl hbelow (hsize' ▸ hpos)
    refine ⟨⟨hblock, rfl, hsize' ▸ hwords, hsize' ▸ hpos, hinside, hlow, hflash, fun _ => rfl, ?_⟩,
      Or.inl trivial⟩
    intro h
    cases h

end Interface

/-- The ring holds `cmds` from the read pointer on. -/
structure CmdQueue (s : Pstorage) (cmds : List PstorageCmd) : Prop where
  start : s.rp < pstorageCmdQueueSize
  room : cmds.length ≤ pstorageCmdQueueSize
  count : s.count = cmds.length
  slots : ∀ k c, cmds[k]? = some c → s.cmd (RingIndex.slot pstorageCmdQueueSize s.rp k) = c

def Pstorage.push (s : Pstorage) (p : PstorageCmd) : Pstorage :=
  { s with
    cmd := fun i => if i = RingIndex.slot pstorageCmdQueueSize s.rp s.count then p else s.cmd i
    count := s.count + 1 }

section Ring

variable {port : FlashPort} {s : Pstorage} {c : PstorageCmd} {cmds : List PstorageCmd}

theorem CmdQueue.head (h : CmdQueue s (c :: cmds)) : s.cmd s.rp = c := by
  have hx := h.slots 0 c rfl
  rwa [RingIndex.slot_zero h.start] at hx

theorem CmdQueue.push (h : CmdQueue s cmds) (hroom : s.count ≠ pstorageCmdQueueSize) :
    CmdQueue (s.push c) (cmds ++ [c]) := by
  have hcount := h.count
  have hle := h.room
  have hlt : cmds.length < pstorageCmdQueueSize := by omega
  refine ⟨h.start, ?_, ?_, ?_⟩
  · rw [List.length_append, List.length_singleton]
    omega
  · simp only [Pstorage.push, hcount, List.length_append, List.length_singleton]
  · intro k x hk
    have hb : k < cmds.length + 1 := by simpa using (List.getElem?_eq_some_iff.mp hk).1
    simp only [Pstorage.push, hcount]
    rcases Nat.lt_or_ge k cmds.length with old | new
    · rw [List.getElem?_append_left old] at hk
      rw [if_neg]
      · exact h.slots k x hk
      · intro he
        have := RingIndex.slot_inj (by omega) hlt he
        omega
    · have hkl : k = cmds.length := by omega
      subst hkl
      rw [if_pos rfl]
      simpa using hk

theorem CmdQueue.finish (h : CmdQueue s (c :: cmds)) : CmdQueue s.finish cmds := by
  have hs := h.start
  have hr := h.room
  have hcount := h.count
  rw [List.length_cons] at hr hcount
  have hrp : s.finish.rp = RingIndex.next pstorageCmdQueueSize s.rp := by
    unfold RingIndex.next
    show (if pstorageCmdQueueSize ≤ s.rp + 1 then s.rp + 1 - pstorageCmdQueueSize else s.rp + 1) = _
    split <;> split <;> omega
  refine ⟨hrp ▸ RingIndex.next_lt hs, by omega, ?_, ?_⟩
  · show s.count - 1 = cmds.length
    omega
  · intro k x hk
    have hkl : k < cmds.length := (List.getElem?_eq_some_iff.mp hk).1
    rw [hrp, RingIndex.slot_next hs (by omega)]
    have hslot := h.slots (k + 1) x (by simpa using hk)
    have hne : RingIndex.slot pstorageCmdQueueSize s.rp (k + 1) ≠ s.rp := by
      intro he
      have hz := RingIndex.slot_inj (j := k + 1) (k := 0) (by omega) (by omega)
        (he.trans (RingIndex.slot_zero hs).symm)
      omega
    show (if _ = s.rp then cmdFree else s.cmd _) = x
    rw [if_neg hne]
    exact hslot

end Ring

end BleSpeedSensor
