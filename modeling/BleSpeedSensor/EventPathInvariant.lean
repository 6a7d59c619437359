import BleSpeedSensor.EventPath

namespace BleSpeedSensor

/-- Slot `i` was given back last and still holds `e`. -/
structure Held (p : EventPath) (i : Nat) (e : AppEvent) : Prop where
  index_lt : i < 11
  next_eq : RingIndex.next 11 i = p.sched.queueStartIndex
  holds : SlotHolds p.sched i e

structure Claimed (p : EventPath) (i : Nat) (e : AppEvent) : Prop where
  held : Held p i e
  fetched : p.fetched = p.calls.length + 1
  event : p.accepted[p.calls.length]? = some e

def PcInv (p : EventPath) : MainPc → Prop
  | .test => p.fetched = p.calls.length
  | .readStart => p.fetched = p.calls.length ∧ p.waiting ≠ []
  | .advance i => p.fetched = p.calls.length ∧ p.waiting ≠ [] ∧ i = p.sched.queueStartIndex
  | .readSize i => ∃ e, Claimed p i e
  | .readHandler i size => ∃ e, Claimed p i e ∧ size = e.handler.eventSize
  | .checkSize i size handler => ∃ e, Claimed p i e ∧ size = e.handler.eventSize ∧ handler = e.handler
  | .readCallee i handler => ∃ e, Claimed p i e ∧ handler = e.handler
  | .readArgument i handler callee => ∃ e, Claimed p i e ∧ handler = e.handler ∧ callee = e.callee
  | .inHandler i e => p.fetched = p.calls.length ∧ Held p i e ∧ p.calls.getLast? = some e

structure PathInv (p : EventPath) : Prop where
  queue : QueueHolds p.sched p.waiting
  fetched_le : p.fetched ≤ p.accepted.length
  calls_eq : p.calls = p.accepted.take p.calls.length
  pc : PcInv p p.pc

theorem boot_pathInv : PathInv EventPath.boot :=
  ⟨fresh_holds, Nat.le_refl 0, rfl, rfl⟩

theorem Held.withEvent {p : EventPath} {i : Nat} {x : AppEvent} (h : Held p i x)
    (queue : QueueHolds p.sched p.waiting) (space : p.waiting.length < 10) (e : AppEvent) :
    SlotHolds (p.sched.withEvent e) i x :=
  withEvent_slot_other (queue.ring.stop_ne_of_next h.next_eq (by omega)).symm h.holds

theorem getElem?_concat_some {α : Type} {l : List α} {a x : α} {j : Nat}
    (h : (l ++ [a])[j]? = some x) : l[j]? = some x ∨ j = l.length ∧ x = a := by
  have hbound := (List.getElem?_eq_some_iff.mp h).1
  rw [List.length_append, List.length_singleton] at hbound
  rcases Nat.lt_or_ge j l.length with hlt | hge
  · rw [List.getElem?_append_left hlt] at h
    exact Or.inl h
  · have heq : j = l.length := by omega
    rw [heq, List.getElem?_concat_length] at h
    exact Or.inr ⟨heq, (Option.some.inj h).symm⟩

section Put

variable {p : EventPath} {e : AppEvent}

theorem afterPut_full (queue : QueueHolds p.sched p.waiting) (full : p.waiting.length = 10) :
    p.afterPut e (e.schedule p.sched) = p := by
  rw [schedule_full queue full]
  simp [EventPath.afterPut, nrfErrorNoMem, nrfSuccess]

theorem afterPut_accepted (queue : QueueHolds p.sched p.waiting) (space : p.waiting.length < 10) :
    p.afterPut e (e.schedule p.sched) =
      { p with sched := p.sched.withEvent e, accepted := p.accepted ++ [e] } := by
  rw [schedule_accepted queue space]
  simp [EventPath.afterPut]

theorem pcInv_put {pc : MainPc} {q : EventPath} (h : PcInv p pc)
    (fetched : q.fetched = p.fetched) (calls : q.calls = p.calls)
    (start : q.sched.queueStartIndex = p.sched.queueStartIndex)
    (accepted : ∃ es, q.accepted = p.accepted ++ es) (waiting : p.waiting ≠ [] → q.waiting ≠ [])
    (slot : ∀ i x, Held p i x → SlotHolds q.sched i x) : PcInv q pc := by
  obtain ⟨es, accepted⟩ := accepted
  have held : ∀ i x, Held p i x → Held q i x := fun i x hh =>
    ⟨hh.index_lt, hh.next_eq.trans start.symm, slot i x hh⟩
  have claimed : ∀ i x, Claimed p i x → Claimed q i x := by
    intro i x hc
    refine ⟨held i x hc.held, by rw [fetched, calls]; exact hc.fetched, ?_⟩
    rw [calls, accepted]
    exact List.getElem?_append_left (List.getElem?_eq_some_iff.mp hc.event).1 ▸ hc.event
  cases pc with
  | test => exact (fetched.trans h).trans (by rw [calls])
  | readStart => exact ⟨(fetched.trans h.1).trans (by rw [calls]), waiting h.2⟩
  | advance i =>
    exact ⟨(fetched.trans h.1).trans (by rw [calls]), waiting h.2.1, h.2.2.trans start.symm⟩
  | readSize i => exact h.imp (claimed i)
  | readHandler i size => exact h.imp fun x hx => ⟨claimed i x hx.1, hx.2⟩
  | checkSize i size handler => exact h.imp fun x hx => ⟨claimed i x hx.1, hx.2⟩
  | readCallee i handler => exact h.imp fun x hx => ⟨claimed i x hx.1, hx.2⟩
  | readArgument i handler callee => exact h.imp fun x hx => ⟨claimed i x hx.1, hx.2⟩
  | inHandler i x =>
    exact ⟨(fetched.trans h.1).trans (by rw [calls]), held i x h.2.1, by rw [calls]; exact h.2.2⟩

theorem put_pathInv (h : PathInv p) (e : AppEvent) :
    PathInv (p.afterPut e (e.schedule p.sched)) := by
  have hroom := h.queue.ring.room
  rcases Nat.lt_or_ge p.waiting.length 10 with space | full
  · rw [afterPut_accepted h.queue space]
    have hw : (p.accepted ++ [e]).drop p.fetched = p.waiting ++ [e] :=
      List.drop_append_of_le_length h.fetched_le
    refine ⟨?_, ?_, ?_, ?_⟩
    · rw [EventPath.waiting, hw]
      exact h.queue.withEvent space e
    · have := h.fetched_le
      simp only [List.length_append, List.length_singleton]
      omega
    · have hc : p.calls.length ≤ p.accepted.length := by
        rw [h.calls_eq, List.length_take]
        omega
      rw [List.take_append_of_le_length hc]
      exact h.calls_eq
    · refine pcInv_put h.pc rfl rfl rfl ⟨[e], rfl⟩ ?_ fun i x hx => hx.withEvent h.queue space e
      intro _
      rw [EventPath.waiting, hw]
      simp
  · rw [afterPut_full h.queue (by omega)]
    exact h

end Put

theorem pathInv_goto {p : EventPath} (h : PathInv p) {pc : MainPc} (hpc : PcInv p pc) :
    PathInv { p with pc := pc } := by
  refine ⟨h.queue, h.fetched_le, h.calls_eq, ?_⟩
  refine pcInv_put hpc rfl rfl rfl ⟨[], by simp⟩ id fun i x hx => hx.holds

theorem advance_pathInv {p : EventPath} (h : PathInv p) {i : Nat} (hpc : PcInv p (.advance i)) :
    PathInv { p with
      sched := { p.sched with queueStartIndex := nextIndex p.sched p.sched.queueStartIndex }
      fetched := p.fetched + 1
      pc := .readSize i } := by
  obtain ⟨hf, hne, rfl⟩ := hpc
  obtain ⟨e, rest, hw⟩ := List.exists_cons_of_ne_nil hne
  have hring := h.queue.ring
  rw [hw] at hring
  have hlt : p.fetched < p.accepted.length := by
    have := congrArg List.length hw
    simp only [EventPath.waiting, List.length_drop, List.length_cons] at this
    omega
  have hrest : p.accepted.drop (p.fetched + 1) = rest := by
    rw [← List.tail_drop]
    exact congrArg List.tail hw
  have hevent : p.accepted[p.fetched]? = some e := by
    have := congrArg List.head? hw
    simpa [EventPath.waiting, List.head?_drop] using this
  have hnext : nextIndex p.sched p.sched.queueStartIndex = RingIndex.next 11 p.sched.queueStartIndex :=
    nextIndex_eq_next h.queue.queueSize
  refine ⟨⟨h.queue.eventSize, h.queue.queueSize, ?_⟩, hlt, h.calls_eq, e, ?_⟩
  · rw [EventPath.waiting, hrest, hnext]
    refine ⟨hring.tail.start_lt, hring.tail.room, hring.tail.stop_eq, fun k x hk => ?_⟩
    obtain ⟨hh, hc, ha⟩ := hring.tail.stored k x hk
    exact ⟨hh, hc, ha⟩
  · refine ⟨⟨hring.start_lt, hnext.symm, ?_⟩, by rw [hf], by rw [← hf]; exact hevent⟩
    obtain ⟨hh, hc, ha⟩ := hring.head
    exact ⟨hh, hc, ha⟩

theorem call_pathInv {p : EventPath} (h : PathInv p) {i : Nat} {e : AppEvent}
    (hc : Claimed p i e) : PathInv { p with pc := .inHandler i e, calls := p.calls ++ [e] } := by
  refine ⟨h.queue, h.fetched_le, ?_, ?_⟩
  · simp only [List.length_append, List.length_singleton]
    rw [List.take_add_one, hc.event]
    exact congrArg (· ++ [e]) h.calls_eq
  · refine ⟨by simpa using hc.fetched, ⟨hc.held.index_lt, hc.held.next_eq, hc.held.holds⟩, by simp⟩

theorem mainStep_pathInv {p : EventPath} (h : PathInv p) :
    ∃ q, p.mainStep = .ok q ∧ PathInv q := by
  have hpc := h.pc
  unfold EventPath.mainStep
  cases hp : p.pc with
  | test =>
    rw [hp] at hpc
    refine ⟨_, rfl, pathInv_goto h ?_⟩
    split
    next => exact hpc
    next hne => exact ⟨hpc, fun hw => hne (h.queue.empty_iff.mpr hw)⟩
  | readStart =>
    rw [hp] at hpc
    exact ⟨_, rfl, pathInv_goto h ⟨hpc.1, hpc.2, rfl⟩⟩
  | advance i =>
    rw [hp] at hpc
    exact ⟨_, rfl, advance_pathInv h hpc⟩
  | readSize i =>
    rw [hp] at hpc
    obtain ⟨e, hc⟩ := hpc
    exact ⟨_, rfl, pathInv_goto h ⟨e, hc, by rw [hc.held.holds.header]⟩⟩
  | readHandler i size =>
    rw [hp] at hpc
    obtain ⟨e, hc, hs⟩ := hpc
    exact ⟨_, rfl, pathInv_goto h ⟨e, hc, hs, by rw [hc.held.holds.header]⟩⟩
  | checkSize i size handler =>
    rw [hp] at hpc
    obtain ⟨e, hc, rfl, rfl⟩ := hpc
    refine ⟨{ p with pc := .readCallee i e.handler }, ?_, pathInv_goto h ⟨e, hc, rfl⟩⟩
    simp only [beq_self_eq_true]
    rfl
  | readCallee i handler =>
    rw [hp] at hpc
    obtain ⟨e, hc, rfl⟩ := hpc
    refine ⟨_, rfl, pathInv_goto h ⟨e, hc, rfl, ?_⟩⟩
    rw [h.queue.eventSize]
    exact hc.held.holds.callee
  | readArgument i handler callee =>
    rw [hp] at hpc
    obtain ⟨e, hc, rfl, rfl⟩ := hpc
    refine ⟨_, rfl, ?_⟩
    rw [h.queue.eventSize, hc.held.holds.argument]
    exact call_pathInv h hc
  | inHandler i e =>
    rw [hp] at hpc
    exact ⟨_, rfl, pathInv_goto h hpc.1⟩

theorem pathStep_pathInv {p : EventPath} (h : PathInv p) (a : PathAction) :
    ∃ q, pathStep p a = .ok q ∧ PathInv q := by
  rcases pathStep_put p a with rfl | ⟨e, he⟩
  · exact mainStep_pathInv h
  · exact ⟨_, he, put_pathInv h e⟩

end BleSpeedSensor
