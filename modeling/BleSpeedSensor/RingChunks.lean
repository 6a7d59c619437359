import BleSpeedSensor.RingIndex

namespace RingIndex

theorem slot_slot {n start j k : Nat} (hs : start < n) (hjk : j + k < n) :
    slot n (slot n start j) k = slot n start (j + k) := by
  unfold slot
  split <;> split <;> split <;> omega

/-- Up to the end of the ring the slots are consecutive. -/
theorem slot_before_end {n start k : Nat} (hk : start + k < n) : slot n start k = start + k :=
  if_pos hk

variable {β : Type} {Stored Stored' : Nat → β → Prop} {n start stop : Nat} {xs ys : List β}

/-- What is written outside the segment does not change it. -/
theorem Segment.frame (h : Segment Stored n start stop xs)
    (frame : ∀ k x, k < xs.length → Stored (slot n start k) x → Stored' (slot n start k) x) :
    Segment Stored' n start stop xs := by
  refine ⟨h.start_lt, h.room, h.stop_eq, fun k x hk => ?_⟩
  have hlt : k < xs.length := (List.getElem?_eq_some_iff.mp hk).1
  exact frame k x hlt (h.stored k x hk)

/-- The slots behind the segment, filled with a chunk, become part of it. -/
theorem Segment.append (h : Segment Stored n start stop xs) (space : xs.length + ys.length < n)
    (filled : ∀ k x, ys[k]? = some x → Stored (slot n stop k) x) :
    Segment Stored n start (slot n stop ys.length) (xs ++ ys) := by
  have hs := h.start_lt
  refine ⟨hs, by simpa using space, ?_, fun k x hk => ?_⟩
  · rw [h.stop_eq, slot_slot hs space, List.length_append]
  · rcases Nat.lt_or_ge k xs.length with old | new
    · rw [List.getElem?_append_left old] at hk
      exact h.stored k x hk
    · rw [List.getElem?_append_right new] at hk
      have hlt : k - xs.length < ys.length := (List.getElem?_eq_some_iff.mp hk).1
      have hslot := filled (k - xs.length) x hk
      rw [h.stop_eq, slot_slot hs (by omega)] at hslot
      rw [show k = xs.length + (k - xs.length) by omega]
      exact hslot

/-- Taking a chunk from the front leaves the segment of the rest. -/
theorem Segment.drop (h : Segment Stored n start stop (xs ++ ys)) :
    Segment Stored n (slot n start xs.length) stop ys := by
  have hs := h.start_lt
  have hroom := h.room
  rw [List.length_append] at hroom
  refine ⟨slot_lt hs (by omega), by omega, ?_, fun k x hk => ?_⟩
  · rw [slot_slot hs hroom, h.stop_eq, List.length_append]
  · have hlt : k < ys.length := (List.getElem?_eq_some_iff.mp hk).1
    rw [slot_slot hs (by omega)]
    refine h.stored (xs.length + k) x ?_
    rw [List.getElem?_append_right (by omega), Nat.add_sub_cancel_left]
    exact hk

/-- The slots a segment leaves free are none of its own. -/
theorem Segment.free_slot (h : Segment Stored n start stop xs) {j k : Nat} (hk : k < xs.length)
    (hj : xs.length + j < n) : slot n start k ≠ slot n stop j := by
  have hs := h.start_lt
  intro he
  rw [h.stop_eq, slot_slot hs hj] at he
  have := slot_inj (by omega) hj he
  omega

/-- The distance from `stop` up to `start` is what is left, but for the slot that stays free. -/
theorem Segment.length_eq (h : Segment Stored n start stop xs) :
    xs.length = if start ≤ stop then stop - start else n + stop - start := by
  have hs := h.start_lt
  have hroom := h.room
  have hstop := h.stop_eq
  unfold slot at hstop
  split at hstop <;> split <;> omega

end RingIndex
