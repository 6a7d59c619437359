import BleSpeedSensor.PstorageRuns

namespace BleSpeedSensor

open ByteMemory NorFlash RunSystem

/-- A chip of eight pages whose SoftDevice accepts what its header says. -/
def smallFlash : FlashPort := ⟨8, fun _ => nrfSuccess⟩

def freshPstorage : Pstorage :=
  ⟨0, 0, false, fun _ => cmdFree, 0, 0, 0, false, .init, fun _ => pstorageModuleFree,
    fun a => UInt8.ofNat a, none, []⟩

/-- A module of four blocks is registered and eight bytes of its second block are replaced. -/
def blockRun : List PstorageAct :=
  [.register ⟨true, 32, 4⟩, .flashDone, .call (.update (some ⟨0, 5152⟩) 8192 8 4), .flashEvt,
    .flashDone]

/-- The head is an update with no command left to issue, and no completion is waited for. -/
structure Stalled (c : PstorageCmd) (n : Nat) (ntf : List PstorageNtf) (s : Pstorage) : Prop where
  start : s.rp < pstorageCmdQueueSize
  head : s.cmd s.rp = c
  opCode : c.opCode = .update
  held : 0 < s.count ∧ n ≤ s.count ∧ s.count ≤ pstorageCmdQueueSize
  access : s.flashAccess = false
  state : s.swapState = .complete
  notified : s.notified = ntf

section Stall

variable {port : FlashPort} {c : PstorageCmd} {n : Nat} {ntf : List PstorageNtf} {s : Pstorage}

theorem stalled_process (h : Stalled c n ntf s) : cmdProcess port s = (nrfErrorInternal, s) := by
  have hswap : ∀ pageNumber head tail,
      swapStateProcess port s c pageNumber head tail = (nrfErrorInternal, s) := by
    intro pageNumber head tail
    have hentry : swapEntry s.swapState head tail = .complete := by
      rw [h.state]
      rfl
    have hsame : ({ s with swapState := .complete } : Pstorage) = s := by
      rw [← h.state]
    unfold swapStateProcess
    simp only [hentry, hsame]
  unfold cmdProcess
  simp only [h.head, h.opCode, hswap]
  rw [if_neg (by decide)]

theorem stalled_enqueue (h : Stalled c n ntf s) (p : PstorageCmd) :
    (cmdQueueEnqueue port s p).1 ≠ nrfSuccess ∧ Stalled c n ntf (cmdQueueEnqueue port s p).2 := by
  by_cases hroom : s.count = pstorageCmdQueueSize
  · rw [enqueue_full hroom]
    exact ⟨show nrfErrorNoMem ≠ nrfSuccess by decide, h⟩
  · obtain ⟨hpos, hle, hmax⟩ := h.held
    have hlt : s.count < pstorageCmdQueueSize := by omega
    -- the new command goes into another slot than the head's
    have hslot : s.rp ≠ RingIndex.slot pstorageCmdQueueSize s.rp s.count := by
      intro he
      have hz : RingIndex.slot pstorageCmdQueueSize s.rp 0 =
          RingIndex.slot pstorageCmdQueueSize s.rp s.count := by
        rw [RingIndex.slot_zero h.start]
        exact he
      have := RingIndex.slot_inj (by omega) hlt hz
      omega
    have hpushed : Stalled c n ntf { s.push p with count := s.count } :=
      ⟨h.start, (if_neg hslot).trans h.head, h.opCode, h.held, h.access, h.state, h.notified⟩
    have hresult : (if s.flashAccess = false then
          cmdProcess port { s.push p with count := s.count }
        else (nrfSuccess, { s.push p with count := s.count })) =
        (nrfErrorInternal, { s.push p with count := s.count }) :=
      (if_pos h.access).trans (stalled_process hpushed)
    rw [enqueue_room hroom hresult]
    refine ⟨?_, hpushed.start, hpushed.head, h.opCode, ⟨?_, ?_, ?_⟩, h.access, h.state, h.notified⟩
    · simp only [h.access, true_and]
      decide
    · exact Nat.succ_pos _
    · exact Nat.le_succ_of_le hle
    · exact hlt

theorem stalled_step {t : PstorageSystem} (h : Stalled c n ntf t.state) (act : PstorageAct) :
    (pstorageStep port t act).accepted = t.accepted ∧
      Stalled c n ntf (pstorageStep port t act).state := by
  cases act with
  | register param =>
    unfold pstorageStep
    cases hreg : pstorageRegister port t.state param with
    | error e =>
      simp only [hreg]
      exact ⟨trivial, h⟩
    | ok r =>
      obtain ⟨rfl, -⟩ := register_ok hreg
      simp only [hreg]
      exact ⟨trivial, h.start, h.head, h.opCode, h.held, h.access, h.state, h.notified⟩
  | call call =>
    unfold pstorageStep
    obtain ⟨e, hne, he⟩ | ⟨p, -, hrun, -⟩ := call_cases port t.state call
    · simp only [he, if_neg hne]
      exact ⟨trivial, h⟩
    · obtain ⟨hne, hstalled⟩ := @stalled_enqueue port c n ntf t.state h p
      simp only [hrun, if_neg hne]
      exact ⟨trivial, hstalled⟩
  | flashDone =>
    unfold pstorageStep
    by_cases hpending : t.state.pending.isSome = true
    · rw [if_pos hpending]
      exact ⟨rfl, h.start, h.head, h.opCode, h.held, h.access, h.state, h.notified⟩
    · rw [if_neg hpending]
      exact ⟨rfl, h⟩
  | flashEvt =>
    unfold pstorageStep
    by_cases hcompleted : t.completed = true
    · rw [if_pos hcompleted, handler_idle h.access]
      exact ⟨rfl, h⟩
    · rw [if_neg hcompleted]
      exact ⟨rfl, h⟩
  | otherEvt =>
    refine ⟨rfl, ?_⟩
    show Stalled c n ntf (pstorageSysEventHandler port t.state .other)
    rw [handler_idle h.access]
    exact h

theorem stalled_run {t : PstorageSystem} (h : Stalled c n ntf t.state) (as : List PstorageAct) :
    (runFrom (pstorageStep port) t as).accepted = t.accepted ∧
      Stalled c n ntf (runFrom (pstorageStep port) t as).state := by
  induction as generalizing t with
  | nil => exact ⟨rfl, h⟩
  | cons act as ih =>
    obtain ⟨haccepted, hstalled⟩ := @stalled_step port c n ntf t h act
    obtain ⟨haccepted', hstalled'⟩ := ih hstalled
    exact ⟨haccepted'.trans haccepted, hstalled'⟩

end Stall

/-- An event of another kind that comes during the last flash command of an update ends it all:
whatever happens then, nothing is accepted, no callback is made and the update stays at the head of
the queue. -/
theorem pstorage_other_event_stalls (port : FlashPort) {t : PstorageSystem}
    (hrp : t.state.rp < pstorageCmdQueueSize)
    (hcount : 0 < t.state.count ∧ t.state.count ≤ pstorageCmdQueueSize)
    (hupdate : (t.state.cmd t.state.rp).opCode = .update) (hstate : t.state.swapState = .complete)
    (haccess : t.state.flashAccess = true) (as : List PstorageAct) {t' : PstorageSystem}
    (ht' : runFrom (pstorageStep port) t (.otherEvt :: as) = t') :
    t'.accepted = t.accepted ∧ t'.state.notified = t.state.notified ∧
      t.state.count ≤ t'.state.count ∧ t'.state.cmd t'.state.rp = t.state.cmd t.state.rp := by
  subst ht'
  have hquiet : pstorageSysEventHandler port t.state .other =
      { t.state with flashAccess := false } := by
    unfold pstorageSysEventHandler
    simp only [haccess, if_true, hstate]
    rfl
  have hstalled : Stalled (t.state.cmd t.state.rp) t.state.count t.state.notified
      (pstorageStep port t .otherEvt).state := by
    show Stalled _ _ _ (pstorageSysEventHandler port t.state .other)
    rw [hquiet]
    exact ⟨hrp, rfl, hupdate, ⟨hcount.1, Nat.le_refl _, hcount.2⟩, rfl, hstate, rfl⟩
  obtain ⟨haccepted, h⟩ := @stalled_run port _ _ _ _ hstalled as
  exact ⟨haccepted, h.notified, h.held.2.1, h.head⟩

/-- The event comes while the swap page is erased; then the completion and another update. -/
theorem pstorage_other_event_stalls_update :
    (runFrom (pstorageStep smallFlash)
      (runFrom (pstorageStep smallFlash) (.start smallFlash freshPstorage)
        (blockRun ++ .flashEvt :: completions 4))
      [.otherEvt, .flashDone, .flashEvt,
        .call (.update (some ⟨0, 5152⟩) 8192 8 4)]).state.notified = [] :=
  (pstorage_other_event_stalls smallFlash (by decide) (by decide) rfl rfl rfl
    [.flashDone, .flashEvt, .call (.update (some ⟨0, 5152⟩) 8192 8 4)] rfl).2.1

/-- The pages that a registration counts: what is left over after the last whole page has none. -/
theorem pagesLoop_eq (n : Nat) : pagesLoop n = max 1 (n / 1024) := by
  induction n using Nat.strongRecOn with
  | ind n ih =>
    have hloop : pagesLoop n =
        if 1024 ≤ (if 1024 < n then n - 1024 else 0) then
          pagesLoop (if 1024 < n then n - 1024 else 0) + 1
        else 1 := by
      rw [pagesLoop]
      rfl
    rw [hloop]
    by_cases hlt : 1024 < n
    · rw [if_pos hlt]
      by_cases hle : 1024 ≤ n - 1024
      · rw [if_pos hle, ih (n - 1024) (by omega)]
        omega
      · rw [if_neg hle]
        omega
    · rw [if_neg hlt, if_neg (by omega)]
      omega

/-- The pages of a module hold it when it fills them or is no larger than one. -/
theorem pagesLoop_holds_iff {n : Nat} :
    n ≤ pagesLoop n * 1024 ↔ n ≤ 1024 ∨ n % 1024 = 0 := by
  rw [pagesLoop_eq]
  omega

/-- The addresses from `x` on are apart from an area before them when it ends there. -/
theorem areas_apart_iff {base n k r : Nat} (hr : 0 < r) :
    (∀ a, ¬ ((base ≤ a ∧ a < base + n) ∧ base + k ≤ a ∧ a < base + k + r)) ↔ n ≤ k := by
  constructor
  · intro h
    have hat := h (base + k)
    omega
  · intro h a
    omega

/-- A clear of `n` bytes leaves what is from the end of `k` pages on when they hold the `n`. -/
theorem clear_spares_iff {c : PstorageCmd} {k r : Nat} (hr : 0 < r) :
    (∀ m a, c.page * 1024 + k * 1024 ≤ a ∧ a < c.page * 1024 + k * 1024 + r →
      clearUpTo c m c.rounds a = m a) ↔ c.size ≤ k * 1024 := by
  have hrounds : c.rounds ≤ k ↔ c.size ≤ k * 1024 := by
    unfold PstorageCmd.rounds
    omega
  rw [← hrounds]
  constructor
  · intro h
    have hat := h (fun _ => 0) (c.page * 1024 + k * 1024) ⟨Nat.le_refl _, by omega⟩
    unfold clearUpTo at hat
    by_cases hin : c.page * 1024 ≤ c.page * 1024 + k * 1024 ∧
        c.page * 1024 + k * 1024 < (c.page + c.rounds) * 1024
    · rw [if_pos hin] at hat
      exact absurd hat (by decide)
    · have hmul := Nat.add_mul c.page c.rounds 1024
      omega
  · intro h m a ha
    have hmul := Nat.add_mul c.page c.rounds 1024
    have hle : c.rounds * 1024 ≤ k * 1024 := Nat.mul_le_mul_right _ h
    exact if_neg (by omega)

/-- Two modules registered one after the other have areas apart, and clearing the whole first one
leaves the second alone, exactly when the first fits in a page or fills its pages. -/
theorem pstorageRegister_apart_iff {port : FlashPort} {s s₁ s₂ : Pstorage}
    {p q : PstorageModuleParam} {first second : PstorageHandle}
    (hpage : s.nextPageAddr % pstorageFlashPageSize = 0)
    (hp : pstorageRegister port s p = .ok (first, s₁))
    (hq : pstorageRegister port s₁ q = .ok (second, s₂)) :
    ((∀ a, ¬ ((first.blockId ≤ a ∧ a < first.blockId + p.total) ∧
        (second.blockId ≤ a ∧ a < second.blockId + q.total))) ↔
      p.total ≤ pstorageFlashPageSize ∨ p.total % pstorageFlashPageSize = 0) ∧
    ((∀ m a, second.blockId ≤ a ∧ a < second.blockId + q.total →
        effect s₂.appTable ⟨.clear, p.total, 0, first, 0⟩ m a = m a) ↔
      p.total ≤ pstorageFlashPageSize ∨ p.total % pstorageFlashPageSize = 0) := by
  obtain ⟨hfirst, -⟩ := register_ok hp
  obtain ⟨hsecond, hparam⟩ := register_ok hq
  obtain ⟨rfl, rfl⟩ := Prod.mk.inj hfirst
  obtain ⟨rfl, rfl⟩ := Prod.mk.inj hsecond
  have hpos : 0 < q.total := Nat.mul_pos hparam.words.2 hparam.blocks
  have hholds := @pagesLoop_holds_iff p.total
  constructor
  · exact (areas_apart_iff hpos).trans hholds
  · -- the command clears the module as a whole
    have hcourse : course (registered (registered s p) q).appTable
        ⟨.clear, p.total, 0, ⟨s.nextAppInstance, s.nextPageAddr⟩, 0⟩ = .pages := by
      have hrow : (registered (registered s p) q).appTable s.nextAppInstance =
          ⟨true, s.nextPageAddr, p.blockSize, p.blockCount, pagesLoop p.total⟩ := by
        unfold registered
        simp
      refine if_pos (Or.inl ⟨?_, ?_⟩)
      · simp only [hrow]
      · simp only [hrow]
        rfl
    have hbase : s.nextPageAddr = s.nextPageAddr / 1024 * 1024 := by
      simp only [pstorageFlashPageSize] at hpage
      omega
    unfold effect
    rw [hcourse]
    refine Iff.trans ?_ hholds
    have hspares := @clear_spares_iff
      ⟨.clear, p.total, 0, ⟨s.nextAppInstance, s.nextPageAddr⟩, 0⟩ (pagesLoop p.total) q.total hpos
    have hblock : s.nextPageAddr / 1024 * 1024 + pagesLoop p.total * 1024 =
        s.nextPageAddr + pagesLoop p.total * 1024 := by
      rw [← hbase]
    simp only [PstorageCmd.page, pstorageFlashPageSize, hblock] at hspares
    exact hspares

theorem register_of {port : FlashPort} {s : Pstorage} {param : PstorageModuleParam}
    (hinit : s.moduleInitialized = true) (hcb : param.cb = true)
    (hsize : pstorageMinBlockSize ≤ param.blockSize ∧ param.blockSize ≤ pstorageMaxBlockSize)
    (h : Registered port s param) :
    pstorageRegister port s param =
      .ok (⟨s.nextAppInstance, s.nextPageAddr⟩, registered s param) := by
  have hcount : ¬ (param.blockCount = 0 ∨
      port.swapAddr < s.nextPageAddr + param.blockCount * param.blockSize) := by
    have hblocks := h.blocks
    have harea := h.area
    omega
  unfold pstorageRegister
  rw [if_neg (by rw [hinit]; decide), if_neg (by rw [hcb]; decide), if_neg (by omega),
    if_neg hcount, if_neg (not_not_intro h.words.1), if_neg h.room]
  rfl

/-- A first module of 1536 bytes overlaps the next. -/
theorem pstorageRegister_apart_iff_overlap : ∃ first second s₁ s₂,
    pstorageRegister smallFlash
      { freshPstorage with nextPageAddr := 5120, moduleInitialized := true } ⟨true, 512, 3⟩ =
        .ok (first, s₁) ∧
    pstorageRegister smallFlash s₁ ⟨true, 16, 1⟩ = .ok (second, s₂) ∧
    ¬ ∀ a, ¬ ((first.blockId ≤ a ∧
        a < first.blockId + PstorageModuleParam.total ⟨true, 512, 3⟩) ∧
      (second.blockId ≤ a ∧ a < second.blockId + PstorageModuleParam.total ⟨true, 16, 1⟩)) := by
  have hp := @register_of smallFlash
    { freshPstorage with nextPageAddr := 5120, moduleInitialized := true } ⟨true, 512, 3⟩ rfl rfl
    (by decide) ⟨by decide, by decide, by decide, by decide⟩
  have hq := @register_of smallFlash (registered
    { freshPstorage with nextPageAddr := 5120, moduleInitialized := true } ⟨true, 512, 3⟩)
    ⟨true, 16, 1⟩ rfl rfl (by decide)
    ⟨by decide, by decide, by decide, by rw [registered_nextPage, pagesLoop_eq]; decide⟩
  refine ⟨_, _, _, _, hp, hq, ?_⟩
  intro h
  exact absurd ((pstorageRegister_apart_iff rfl hp hq).1.mp h) (by decide)

end BleSpeedSensor
