namespace RingIndex

def slot (n start k : Nat) : Nat := if start + k < n then start + k else start + k - n

def next (n i : Nat) : Nat := if i + 1 < n then i + 1 else 0

theorem slot_zero {n start : Nat} (h : start < n) : slot n start 0 = start := by
  simp [slot, h]

theorem slot_lt {n start k : Nat} (hs : start < n) (hk : k < n) : slot n start k < n := by
  unfold slot
  split <;> omega

theorem next_lt {n i : Nat} (hi : i < n) : next n i < n := by
  unfold next
  split <;> omega

theorem slot_inj {n start j k : Nat} (hj : j < n) (hk : k < n)
    (h : slot n start j = slot n start k) : j = k := by
  unfold slot at h
  split at h <;> split at h <;> omega

theorem next_slot {n start k : Nat} (hs : start < n) (hk : k + 1 < n) :
    next n (slot n start k) = slot n start (k + 1) := by
  unfold next slot
  split <;> split <;> split <;> omega

theorem slot_next {n start k : Nat} (hs : start < n) (hk : k + 1 < n) :
    slot n (next n start) k = slot n start (k + 1) := by
  unfold next slot
  split <;> split <;> split <;> omega

theorem next_last {n start : Nat} (hs : start < n) : next n (slot n start (n - 1)) = start := by
  unfold next slot
  split <;> split <;> omega

theorem next_inj {n i j : Nat} (hi : i < n) (hj : j < n) (h : next n i = next n j) : i = j := by
  unfold next at h
  split at h <;> split at h <;> omega

variable {β : Type} {Stored Stored' : Nat → β → Prop} {n start stop : Nat} {x : β} {xs : List β}

/-- The slots from `start` up to `stop` hold `xs` in order; one slot always stays free. -/
structure Segment (Stored : Nat → β → Prop) (n start stop : Nat) (xs : List β) : Prop where
  start_lt : start < n
  room : xs.length < n
  stop_eq : stop = slot n start xs.length
  stored : ∀ k x, xs[k]? = some x → Stored (slot n start k) x

theorem Segment.nil (h : start < n) : Segment Stored n start start [] :=
  ⟨h, Nat.zero_lt_of_lt h, (slot_zero h).symm, by simp⟩

theorem Segment.stop_lt (h : Segment Stored n start stop xs) : stop < n :=
  h.stop_eq ▸ slot_lt h.start_lt h.room

theorem Segment.full_iff (h : Segment Stored n start stop xs) :
    next n stop = start ↔ xs.length + 1 = n := by
  have hs := h.start_lt
  have hr := h.room
  rw [h.stop_eq]
  constructor
  · intro he
    have hl := next_last hs
    have hi := next_inj (slot_lt hs hr) (slot_lt hs (by omega : n - 1 < n)) (he.trans hl.symm)
    have := slot_inj hr (by omega) hi
    omega
  · intro he
    have hi : xs.length = n - 1 := by omega
    rw [hi]
    exact next_last hs

theorem Segment.empty_iff (h : Segment Stored n start stop xs) : stop = start ↔ xs = [] := by
  have hs := h.start_lt
  constructor
  · intro he
    have hz : slot n start xs.length = slot n start 0 := by rw [slot_zero hs, ← h.stop_eq, he]
    exact List.length_eq_zero_iff.mp (slot_inj h.room (by omega) hz)
  · rintro rfl
    rw [h.stop_eq]
    exact slot_zero hs

/-- Filling the slot at `stop` extends the segment, whatever the write does to that slot. -/
theorem Segment.push (h : Segment Stored n start stop xs) (space : xs.length + 1 < n)
    (frame : ∀ i y, i ≠ stop → Stored i y → Stored' i y) (write : Stored' stop x) :
    Segment Stored' n start (next n stop) (xs ++ [x]) := by
  have hs := h.start_lt
  refine ⟨hs, by simpa using space, ?_, ?_⟩
  · rw [h.stop_eq, next_slot hs space, List.length_append, List.length_singleton]
  · intro k y hk
    have hb : k < xs.length + 1 := by simpa using (List.getElem?_eq_some_iff.mp hk).1
    rcases Nat.lt_or_ge k xs.length with old | new
    · rw [List.getElem?_append_left old] at hk
      refine frame _ y ?_ (h.stored k y hk)
      rw [h.stop_eq]
      intro he
      have := slot_inj (by omega) h.room he
      omega
    · have hkl : k = xs.length := by omega
      subst hkl
      have hxy : x = y := by simpa using hk
      exact hxy ▸ h.stop_eq ▸ write

theorem Segment.head (h : Segment Stored n start stop (x :: xs)) : Stored start x := by
  have hx := h.stored 0 x rfl
  rwa [slot_zero h.start_lt] at hx

theorem Segment.tail (h : Segment Stored n start stop (x :: xs)) :
    Segment Stored n (next n start) stop xs := by
  have hs := h.start_lt
  have hr : xs.length + 1 < n := by simpa using h.room
  refine ⟨next_lt hs, by omega, ?_, ?_⟩
  · rw [slot_next hs hr]
    simpa using h.stop_eq
  · intro k y hk
    have hkl : k < xs.length := (List.getElem?_eq_some_iff.mp hk).1
    rw [slot_next hs (by omega)]
    exact h.stored (k + 1) y (by simpa using hk)

theorem Segment.stop_ne_of_next (h : Segment Stored n start stop xs) {p : Nat}
    (hn : next n p = start) (space : xs.length + 1 < n) : stop ≠ p := by
  rintro rfl
  have := h.full_iff.mp hn
  omega

end RingIndex
