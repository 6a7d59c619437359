import BleSpeedSensor.EventPathInvariant

namespace BleSpeedSensor

open RunSystem

theorem run_pathInv {p : EventPath} (h : PathInv p) (as : List PathAction) :
    ∃ q, runHalting pathStep p as = .ok q ∧ PathInv q := by
  induction as generalizing p with
  | nil => exact ⟨p, rfl, h⟩
  | cons a as ih =>
    obtain ⟨q, hq, hinv⟩ := pathStep_pathInv h a
    rw [runHalting_cons, hq]
    exact ih hinv

def MainPc.rank : MainPc → Nat
  | .readSize _ => 15
  | .readHandler _ _ => 14
  | .checkSize _ _ _ => 13
  | .readCallee _ _ => 12
  | .readArgument _ _ _ => 11
  | .inHandler _ _ => 10
  | .test => 9
  | .readStart => 8
  | .advance _ => 7

def EventPath.rank (p : EventPath) : Nat := 10 * p.waiting.length + p.pc.rank

theorem mainStep_rank {p q : EventPath} (h : PathInv p) (step : p.mainStep = .ok q)
    (busy : p.pc ≠ .test ∨ p.waiting ≠ []) : q.rank < p.rank := by
  have hpc := h.pc
  unfold EventPath.mainStep at step
  cases hp : p.pc with
  | test =>
    have hne : appSchedQueueEmpty p.sched = false := by
      rw [← Bool.not_eq_true, h.queue.empty_iff]
      exact busy.resolve_left (fun hb => hb hp)
    rw [hp] at step
    cases step
    simp [EventPath.rank, EventPath.waiting, MainPc.rank, hp, hne]
  | advance i =>
    rw [hp] at hpc step
    cases step
    have hw : 0 < p.waiting.length := List.length_pos_iff.mpr hpc.2.1
    simp only [EventPath.waiting, List.length_drop] at hw
    simp only [EventPath.rank, EventPath.waiting, MainPc.rank, hp, List.length_drop]
    omega
  | checkSize i size handler =>
    rw [hp] at hpc step
    obtain ⟨e, _, rfl, rfl⟩ := hpc
    simp only [beq_self_eq_true] at step
    cases step
    simp [EventPath.rank, EventPath.waiting, MainPc.rank, hp]
  | readStart | readSize _ | readHandler _ _ | readCallee _ _ | readArgument _ _ _
  | inHandler _ _ =>
    rw [hp] at step
    cases step
    simp [EventPath.rank, EventPath.waiting, MainPc.rank, hp]

theorem PathInv.calls_of_idle {p : EventPath} (h : PathInv p) (hp : p.pc = .test)
    (hw : p.waiting = []) : p.calls = p.accepted := by
  have hf : p.fetched = p.calls.length := by simpa [hp, PcInv] using h.pc
  have hl : p.accepted.length ≤ p.calls.length := by
    rw [← hf]
    exact List.drop_eq_nil_iff.mp hw
  rw [h.calls_eq]
  exact List.take_of_length_le hl

theorem main_drains {p : EventPath} (h : PathInv p) :
    ∃ n q, runHalting pathStep p (List.replicate n .main) = .ok q ∧
      q.accepted = p.accepted ∧ q.calls = p.accepted := by
  induction hr : p.rank using Nat.strongRecOn generalizing p with
  | ind r ih =>
    by_cases idle : p.pc = .test ∧ p.waiting = []
    · exact ⟨0, p, rfl, rfl, h.calls_of_idle idle.1 idle.2⟩
    · have busy : p.pc ≠ .test ∨ p.waiting ≠ [] := Classical.not_and_iff_not_or_not.mp idle
      obtain ⟨q, hq, hinv⟩ := mainStep_pathInv h
      have hacc := mainStep_accepted hq
      have hlt := mainStep_rank h hq busy
      obtain ⟨n, t, ht, hta, htc⟩ := ih q.rank (hr ▸ hlt) hinv rfl
      refine ⟨n + 1, t, ?_, hta.trans hacc, htc.trans hacc⟩
      rw [List.replicate_succ, runHalting_cons]
      exact (congrArg (Except.bind · _) hq).trans ht

def PutKeepsSlot (s : Sched SchedHandler) (i : Nat) (e : AppEvent) : Prop :=
  (e.schedule s).2.queueEventHeaders i = s.queueEventHeaders i ∧
    ∀ k, k < 8 → (e.schedule s).2.queueEventData (i * 8 + k) = s.queueEventData (i * 8 + k)

theorem PathInv.held_of_slot {p : EventPath} (h : PathInv p) {i : Nat}
    (hi : p.pc.slot? = some i) : ∃ x, Held p i x := by
  have hpc := h.pc
  cases hp : p.pc with
  | test | readStart | advance _ => simp [hp, MainPc.slot?] at hi
  | readSize j =>
    rw [hp] at hpc hi
    cases hi
    obtain ⟨x, hx⟩ := hpc
    exact ⟨x, hx.held⟩
  | readHandler j _ | checkSize j _ _ | readCallee j _ | readArgument j _ _ =>
    rw [hp] at hpc hi
    cases hi
    obtain ⟨x, hx, _⟩ := hpc
    exact ⟨x, hx.held⟩
  | inHandler j x =>
    rw [hp] at hpc hi
    cases hi
    exact ⟨x, hpc.2.1⟩

theorem PathInv.put_keeps_slot {p : EventPath} (h : PathInv p) {i : Nat}
    (hi : p.pc.slot? = some i) (e : AppEvent) : PutKeepsSlot p.sched i e := by
  obtain ⟨x, hx⟩ := h.held_of_slot hi
  have hroom := h.queue.ring.room
  unfold PutKeepsSlot
  rcases Nat.lt_or_ge p.waiting.length 10 with space | full
  · have hne := h.queue.ring.stop_ne_of_next hx.next_eq (by omega)
    rw [schedule_accepted h.queue space]
    refine ⟨by simp [Sched.withEvent, Sched.setHeader, Sched.copyData, hne.symm], fun k hk => ?_⟩
    have hb := e.bytes_length
    exact ByteMemory.copy_outside (by omega)
  · rw [schedule_full h.queue (by omega)]
    exact ⟨rfl, fun _ _ => rfl⟩

theorem PathInv.refused_iff {p : EventPath} (h : PathInv p) (e : AppEvent) :
    (e.schedule p.sched).1 ≠ nrfSuccess ↔ p.accepted.length - p.fetched = 10 := by
  have hroom := h.queue.ring.room
  have hlen : p.waiting.length = p.accepted.length - p.fetched := List.length_drop
  rcases Nat.lt_or_ge p.waiting.length 10 with space | full
  · rw [schedule_accepted h.queue space]
    exact ⟨fun hne => absurd rfl hne, fun he => by omega⟩
  · rw [schedule_full h.queue (by omega)]
    exact ⟨fun _ => by omega, fun _ => (by decide : nrfErrorNoMem ≠ nrfSuccess)⟩

theorem PathInv.refused_unchanged {p : EventPath} (h : PathInv p) {e : AppEvent}
    (refused : (e.schedule p.sched).1 ≠ nrfSuccess) : (e.schedule p.sched).2 = p.sched := by
  have hlen : p.waiting.length = p.accepted.length - p.fetched := List.length_drop
  have := (h.refused_iff e).mp refused
  rw [schedule_full h.queue (by omega)]

theorem PathInv.size_checked {p : EventPath} (h : PathInv p) {i size : Nat} {handler : SchedHandler}
    (hp : p.pc = .checkSize i size handler) : size = handler.eventSize := by
  have hpc := h.pc
  rw [hp] at hpc
  obtain ⟨e, _, hs, hh⟩ := hpc
  rw [hs, hh]

/-- What the path from the interrupts to the handlers promises in a state it reaches. -/
structure Delivers (p : EventPath) : Prop where
  in_order : p.calls <+: p.accepted
  idle : p.pc = .test → appSchedQueueEmpty p.sched = true → p.calls = p.accepted
  drains : ∃ n q, runHalting pathStep p (List.replicate n .main) = .ok q ∧
    q.accepted = p.accepted ∧ q.calls = p.accepted
  slot_kept : ∀ i, p.pc.slot? = some i → ∀ e, PutKeepsSlot p.sched i e
  size_checked : ∀ i size handler, p.pc = .checkSize i size handler → size = handler.eventSize
  refused_iff : ∀ e : AppEvent,
    (e.schedule p.sched).1 ≠ nrfSuccess ↔ p.accepted.length - p.fetched = 10
  refused_unchanged : ∀ e : AppEvent,
    (e.schedule p.sched).1 ≠ nrfSuccess → (e.schedule p.sched).2 = p.sched

theorem PathInv.delivers {p : EventPath} (h : PathInv p) : Delivers p where
  in_order := h.calls_eq ▸ List.take_prefix _ _
  idle hp he := h.calls_of_idle hp (h.queue.empty_iff.mp he)
  drains := main_drains h
  slot_kept _ hi e := h.put_keeps_slot hi e
  size_checked _ _ _ hp := h.size_checked hp
  refused_iff := h.refused_iff
  refused_unchanged _ hr := h.refused_unchanged hr

/-- Every run from `APP_SCHED_INIT` on, whatever interrupts put events in between its steps. -/
theorem eventPath_delivers (bufWord : Nat) (as : List PathAction) :
    ∃ s p, schedulerInit bufWord = .ok s ∧
      runHalting pathStep { EventPath.boot with sched := s } as = .ok p ∧ Delivers p := by
  obtain ⟨p, hp, h⟩ := run_pathInv boot_pathInv as
  exact ⟨Sched.fresh, p, schedulerInit_ok bufWord, hp, h.delivers⟩

end BleSpeedSensor
