import BleSpeedSensor.SeggerPrintf

namespace BleSpeedSensor

variable {sink : RttSink} {p q : PrintfDesc} {c : UInt8} {cs text : List UInt8}

/-- More characters may be stored. -/
structure PrintfDesc.Open (p : PrintfDesc) : Prop where
  ok : 0 ≤ p.returnValue
  room : p.buffer.length < seggerRttPrintfBufferSize

/-- A block was refused and is still in the buffer. -/
structure PrintfDesc.Failed (p : PrintfDesc) : Prop where
  code : p.returnValue = -1
  full : p.buffer.length = seggerRttPrintfBufferSize
  handed : p.written.getLast? = some p.buffer

theorem storeChar_room (h : p.buffer.length + 1 < seggerRttPrintfBufferSize) :
    storeChar sink p c =
      { p with buffer := p.buffer ++ [c], returnValue := p.returnValue + 1 } := by
  unfold storeChar
  simp only [if_pos (Nat.le_of_lt h), List.length_append, List.length_cons, List.length_nil]
  exact if_neg (Nat.ne_of_lt h)

theorem storeChar_last (h : p.buffer.length + 1 = seggerRttPrintfBufferSize) :
    storeChar sink p c = PrintfDesc.flush sink
      { p with buffer := p.buffer ++ [c], returnValue := p.returnValue + 1 } := by
  unfold storeChar
  simp only [if_pos (Nat.le_of_eq h), List.length_append, List.length_cons, List.length_nil]
  exact if_pos h

/-- A character finds room, or it fills a block that is taken, or one that is refused. -/
theorem PrintfDesc.Open.storeChar_cases (h : p.Open) (sink : RttSink) (c : UInt8) :
    ((p.buffer ++ [c]).length < seggerRttPrintfBufferSize ∧
      storeChar sink p c = ⟨p.buffer ++ [c], p.returnValue + 1, p.written⟩) ∨
    ((p.buffer ++ [c]).length = seggerRttPrintfBufferSize ∧
      sink p.written (p.buffer ++ [c]) = (p.buffer ++ [c]).length ∧
      storeChar sink p c = ⟨[], p.returnValue + 1, p.written ++ [p.buffer ++ [c]]⟩) ∨
    ((p.buffer ++ [c]).length = seggerRttPrintfBufferSize ∧
      sink p.written (p.buffer ++ [c]) ≠ (p.buffer ++ [c]).length ∧
      storeChar sink p c = ⟨p.buffer ++ [c], -1, p.written ++ [p.buffer ++ [c]]⟩) := by
  have hlen : (p.buffer ++ [c]).length = p.buffer.length + 1 := by simp
  rcases Nat.lt_or_ge (p.buffer.length + 1) seggerRttPrintfBufferSize with hlt | hge
  · exact Or.inl ⟨hlen ▸ hlt, storeChar_room hlt⟩
  · have hlast : p.buffer.length + 1 = seggerRttPrintfBufferSize := Nat.le_antisymm h.room hge
    have hfull : (p.buffer ++ [c]).length = seggerRttPrintfBufferSize := hlen.trans hlast
    rw [storeChar_last hlast]
    unfold PrintfDesc.flush
    split
    next hrefused => exact Or.inr (Or.inr ⟨hfull, hrefused, rfl⟩)
    next htaken => exact Or.inr (Or.inl ⟨hfull, Decidable.not_not.mp htaken, rfl⟩)

theorem PrintfDesc.Open.store (h : p.Open) :
    (storeChar sink p c).Open ∨ (storeChar sink p c).Failed := by
  have hok : 0 ≤ p.returnValue + 1 := Int.le_trans h.ok (Int.le_add_one (Int.le_refl _))
  obtain ⟨hroom, heq⟩ | ⟨-, -, heq⟩ | ⟨hfull, -, heq⟩ := h.storeChar_cases sink c
  · rw [heq]
    exact Or.inl ⟨hok, hroom⟩
  · rw [heq]
    exact Or.inl ⟨hok, Nat.zero_lt_succ 63⟩
  · rw [heq]
    exact Or.inr ⟨rfl, hfull, List.getLast?_concat⟩

theorem PrintfDesc.Failed.stopped (h : p.Failed) : p.returnValue < 0 := by
  rw [h.code]
  decide

theorem PrintfDesc.Open.running (h : p.Open) : ¬ p.returnValue < 0 := Int.not_lt.mpr h.ok

/-- The refused block is handed over once more, and the result stays. -/
theorem PrintfDesc.Failed.store (h : p.Failed) :
    (storeChar sink p c).returnValue < 0 ∧
      (storeChar sink p c).written = p.written ++ [p.buffer] := by
  have hfull := h.full
  have hroom : ¬ p.buffer.length + 1 ≤ seggerRttPrintfBufferSize := by
    rw [hfull]
    decide
  have hstore : storeChar sink p c = p.flush sink := by
    unfold storeChar
    rw [if_neg hroom]
    exact if_pos hfull
  rw [hstore]
  unfold flush
  split
  · exact ⟨(by decide : (-1 : Int) < 0), rfl⟩
  · exact ⟨h.stopped, rfl⟩

/-- Characters stored until one of them meets a refused block. -/
def storeWhile (sink : RttSink) : List UInt8 → PrintfDesc → PrintfDesc
  | [], p => p
  | c :: cs, p =>
    if (storeChar sink p c).returnValue < 0 then storeChar sink p c
    else storeWhile sink cs (storeChar sink p c)

theorem storeWhile_cons (c : UInt8) (cs : List UInt8) (p : PrintfDesc) :
    storeWhile sink (c :: cs) p =
      if (storeChar sink p c).returnValue < 0 then storeChar sink p c
      else storeWhile sink cs (storeChar sink p c) := rfl

theorem storeWhile_one (c : UInt8) (p : PrintfDesc) : storeWhile sink [c] p = storeChar sink p c := by
  rw [storeWhile_cons]
  split <;> rfl

theorem PrintfDesc.Open.storeWhile (h : p.Open) (cs : List UInt8) :
    (storeWhile sink cs p).Open ∨ (storeWhile sink cs p).Failed := by
  induction cs generalizing p with
  | nil => exact Or.inl h
  | cons c cs ih =>
    unfold BleSpeedSensor.storeWhile
    obtain hopen | hfailed := @PrintfDesc.Open.store sink p c h
    · rw [if_neg hopen.running]
      exact ih hopen
    · rw [if_pos hfailed.stopped]
      exact Or.inr hfailed

theorem storeWhile_append (cs ds : List UInt8) (h : ¬ p.returnValue < 0) :
    storeWhile sink (cs ++ ds) p =
      if (storeWhile sink cs p).returnValue < 0 then storeWhile sink cs p
      else storeWhile sink ds (storeWhile sink cs p) := by
  induction cs generalizing p with
  | nil => exact (if_neg h).symm
  | cons c cs ih =>
    rw [List.cons_append, storeWhile_cons, storeWhile_cons]
    by_cases hstop : (storeChar sink p c).returnValue < 0
    · rw [if_pos hstop, if_pos hstop, if_pos hstop]
    · rw [if_neg hstop, if_neg hstop]
      exact ih hstop

/-- A part of the function has stored its text, or it was stopped by a refused block, which it may
have handed over a second time. -/
inductive Stores (sink : RttSink) (p : PrintfDesc) (text : List UInt8) : PrintfDesc → Prop
  | stored : Stores sink p text (storeWhile sink text p)
  | again (failed : (storeWhile sink text p).Failed) :
      Stores sink p text (storeChar sink (storeWhile sink text p) charSpace)

theorem Stores.of_eq (h : q = storeWhile sink text p) : Stores sink p text q := h ▸ Stores.stored

theorem Stores.open_or_stopped (hp : p.Open) (h : Stores sink p text q) :
    q.Open ∧ q = storeWhile sink text p ∨ q.returnValue < 0 ∧ (storeWhile sink text p).Failed := by
  cases h with
  | stored =>
    obtain hopen | hfailed := @PrintfDesc.Open.storeWhile sink p hp text
    · exact Or.inl ⟨hopen, rfl⟩
    · exact Or.inr ⟨hfailed.stopped, hfailed⟩
  | again failed => exact Or.inr ⟨(@PrintfDesc.Failed.store sink _ charSpace failed).1, failed⟩

/-- What was stopped is stopped whatever text would have followed. -/
theorem Stores.stop (hp : p.Open) (h : Stores sink p text q) (hstop : q.returnValue < 0)
    (more : List UInt8) : Stores sink p (text ++ more) q := by
  obtain ⟨hopen, -⟩ | ⟨-, hfailed⟩ := h.open_or_stopped hp
  · exact absurd hstop hopen.running
  · have hsame : storeWhile sink (text ++ more) p = storeWhile sink text p := by
      rw [storeWhile_append text more hp.running, if_pos hfailed.stopped]
    cases h with
    | stored => exact Stores.of_eq hsame.symm
    | again =>
      rw [← hsame]
      exact Stores.again (hsame ▸ hfailed)

theorem Stores.trans (hp : p.Open) (h : Stores sink p text q) (hq : q.Open) {more : List UInt8}
    {r : PrintfDesc} (hr : Stores sink q more r) : Stores sink p (text ++ more) r := by
  obtain ⟨-, rfl⟩ | ⟨hstop, -⟩ := h.open_or_stopped hp
  · have hsplit : storeWhile sink (text ++ more) p =
        storeWhile sink more (storeWhile sink text p) := by
      rw [storeWhile_append text more hp.running, if_neg hq.running]
    cases hr with
    | stored => exact Stores.of_eq hsplit.symm
    | again failed =>
      rw [← hsplit] at failed ⊢
      exact Stores.again failed
  · exact absurd hstop hq.running

/-- A part that returns on a refused block, and what is printed behind it. -/
theorem Stores.seq (hp : p.Open) (h : Stores sink p text q) {more : List UInt8}
    {next : Except PrintfFault PrintfDesc}
    (hnext : q.Open → ∃ r, next = .ok r ∧ Stores sink q more r) :
    ∃ r, (if q.returnValue < 0 then .ok q else next) = .ok r ∧ Stores sink p (text ++ more) r := by
  obtain ⟨hopen, -⟩ | ⟨hstop, -⟩ := h.open_or_stopped hp
  · rw [if_neg hopen.running]
    obtain ⟨r, hr, hstores⟩ := hnext hopen
    exact ⟨r, hr, h.trans hp hopen hstores⟩
  · rw [if_pos hstop]
    exact ⟨q, rfl, h.stop hp hstop more⟩

/-- A loop over a field stores what is missing of it. -/
theorem padLoop_stores (width fieldWidth : Nat) (p : PrintfDesc) :
    (padLoop sink c width fieldWidth p).2 =
      storeWhile sink (List.replicate (fieldWidth - width) c) p := by
  induction fieldWidth generalizing p with
  | zero =>
    rw [Nat.zero_sub]
    rfl
  | succ fieldWidth ih =>
    unfold padLoop
    by_cases hlt : width < fieldWidth + 1
    · have hsucc : fieldWidth + 1 - width = fieldWidth - width + 1 := by omega
      rw [if_pos hlt, hsucc, List.replicate_succ]
      unfold storeWhile
      dsimp only
      split
      · rfl
      · exact ih _
    · rw [if_neg hlt, Nat.sub_eq_zero_of_le (Nat.le_of_not_lt hlt)]
      rfl

/-- After the loop no field is left. -/
theorem padLoop_rest {width fieldWidth : Nat}
    (h : ¬ (padLoop sink c width fieldWidth p).2.returnValue < 0) :
    (padLoop sink c width fieldWidth p).1 ≤ width := by
  induction fieldWidth generalizing p with
  | zero => exact Nat.zero_le _
  | succ fieldWidth ih =>
    unfold padLoop at h ⊢
    by_cases hlt : width < fieldWidth + 1
    · rw [if_pos hlt] at h ⊢
      dsimp only at h ⊢
      split
      next hstop =>
        rw [if_pos hstop] at h
        exact absurd hstop h
      next hgo =>
        rw [if_neg hgo] at h
        exact ih h
    · rw [if_neg hlt]
      exact Nat.le_of_lt_succ (Nat.lt_succ_of_le (by omega))

/-- On a refused block a field is only begun. -/
theorem PrintfDesc.Failed.padLoop (h : p.Failed) (width fieldWidth : Nat) :
    (BleSpeedSensor.padLoop sink c width fieldWidth p).2 = p ∨
      (BleSpeedSensor.padLoop sink c width fieldWidth p).2 = storeChar sink p c := by
  cases fieldWidth with
  | zero => exact Or.inl rfl
  | succ fieldWidth =>
    unfold BleSpeedSensor.padLoop
    split
    · dsimp only
      rw [if_pos (@PrintfDesc.Failed.store sink p c h).1]
      exact Or.inr rfl
    · exact Or.inl rfl

theorem storeString_stores (s : List UInt8) (p : PrintfDesc) :
    storeString sink s p = storeWhile sink (s.takeWhile (· ≠ 0)) p := by
  induction s generalizing p with
  | nil => rfl
  | cons c s ih =>
    unfold storeString
    by_cases hzero : c = 0
    · rw [if_pos hzero, List.takeWhile_cons_of_neg (by simpa using hzero)]
      rfl
    · rw [if_neg hzero, List.takeWhile_cons_of_pos (by simpa using hzero)]
      unfold storeWhile
      dsimp only
      split
      · rfl
      · exact ih _

def TakesBlocks (sink : RttSink) : Prop :=
  ∀ before b, b.length = seggerRttPrintfBufferSize → sink before b = b.length

/-- All characters printed so far. -/
def PrintfDesc.output (p : PrintfDesc) : List UInt8 := p.written.flatten ++ p.buffer

theorem TakesBlocks.storeChar (htakes : TakesBlocks sink) (hp : p.Open) :
    (storeChar sink p c).Open ∧ (storeChar sink p c).output = p.output ++ [c] := by
  have hok : 0 ≤ p.returnValue + 1 := Int.le_trans hp.ok (Int.le_add_one (Int.le_refl _))
  obtain ⟨hroom, heq⟩ | ⟨-, -, heq⟩ | ⟨hfull, hrefused, -⟩ := hp.storeChar_cases sink c
  · rw [heq]
    exact ⟨⟨hok, hroom⟩, (List.append_assoc _ _ _).symm⟩
  · rw [heq]
    exact ⟨⟨hok, Nat.zero_lt_succ 63⟩, by simp [PrintfDesc.output]⟩
  · exact absurd (htakes p.written _ hfull) hrefused

theorem TakesBlocks.storeWhile (htakes : TakesBlocks sink) (hp : p.Open) (cs : List UInt8) :
    (storeWhile sink cs p).Open ∧ (BleSpeedSensor.storeWhile sink cs p).output = p.output ++ cs := by
  induction cs generalizing p with
  | nil => exact ⟨hp, (List.append_nil _).symm⟩
  | cons c cs ih =>
    obtain ⟨hopen, houtput⟩ := @TakesBlocks.storeChar sink p c htakes hp
    obtain ⟨hend, hrest⟩ := ih hopen
    rw [storeWhile_cons, if_neg hopen.running]
    refine ⟨hend, ?_⟩
    rw [hrest, houtput, List.append_assoc]
    rfl

theorem Stores.of_takes (h : Stores sink p text q) (htakes : TakesBlocks sink) (hp : p.Open) :
    q.Open ∧ q = BleSpeedSensor.storeWhile sink text p := by
  have hopen := (htakes.storeWhile hp text).1
  obtain hstored | ⟨-, hfailed⟩ := h.open_or_stopped hp
  · exact hstored
  · exact absurd hfailed.stopped hopen.running

/-- Every block but the last was stored as a whole. -/
def Accepted (sink : RttSink) (blocks : List (List UInt8)) : Prop :=
  ∀ before b after, blocks = before ++ b :: after → sink before b = b.length

/-- What is stored of a text: full blocks, all of them accepted, and the rest in the buffer. -/
structure Emitted (sink : RttSink) (text : List UInt8) (p : PrintfDesc) : Prop where
  stream : p.written.flatten ++ p.buffer = text
  count : p.returnValue = text.length
  room : p.buffer.length < seggerRttPrintfBufferSize
  full : ∀ b ∈ p.written, b.length = seggerRttPrintfBufferSize
  accepted : Accepted sink p.written

/-- The text was refused at a full block: the blocks before it are stored, and it is the last. -/
structure Refused (sink : RttSink) (text : List UInt8) (blocks : List (List UInt8)) : Prop where
  start : blocks.flatten <+: text
  full : ∀ b ∈ blocks, b.length = seggerRttPrintfBufferSize
  refused : ∃ before b, blocks = before ++ [b] ∧ sink before b ≠ b.length ∧ Accepted sink before

theorem Accepted.snoc {blocks : List (List UInt8)} {b : List UInt8} (h : Accepted sink blocks)
    (hb : sink blocks b = b.length) : Accepted sink (blocks ++ [b]) := by
  intro before x after heq
  rcases List.eq_nil_or_concat after with rfl | ⟨after, y, rfl⟩
  · obtain ⟨rfl, hx⟩ := List.append_inj' heq rfl
    obtain rfl := (List.cons.inj hx).1
    exact hb
  · have hsplit : blocks ++ [b] = (before ++ x :: after) ++ [y] := by
      rw [heq, List.concat_eq_append]
      simp
    exact h before x after (List.append_inj' hsplit rfl).1

theorem Emitted.start : Emitted sink [] ⟨[], 0, []⟩ := by
  refine ⟨rfl, rfl, Nat.zero_lt_succ 63, fun b hb => absurd hb List.not_mem_nil, ?_⟩
  intro before b after h
  exact absurd h.symm (List.append_ne_nil_of_right_ne_nil before (List.cons_ne_nil b after))

theorem Emitted.open (h : Emitted sink text p) : p.Open :=
  ⟨by rw [h.count]; exact Int.natCast_nonneg _, h.room⟩

theorem Emitted.store (h : Emitted sink text p) :
    Emitted sink (text ++ [c]) (storeChar sink p c) ∨
      (storeChar sink p c).Failed ∧ Refused sink (text ++ [c]) (storeChar sink p c).written := by
  have hcount : p.returnValue + 1 = ((text ++ [c]).length : Int) := by
    rw [h.count]
    simp
  have hflat : (p.written ++ [p.buffer ++ [c]]).flatten = text ++ [c] := by
    rw [← h.stream]
    simp
  have hblocks : (p.buffer ++ [c]).length = seggerRttPrintfBufferSize →
      ∀ b ∈ p.written ++ [p.buffer ++ [c]], b.length = seggerRttPrintfBufferSize := by
    intro hfull b hb
    obtain hb | hb := List.mem_append.mp hb
    · exact h.full b hb
    · obtain rfl := List.mem_singleton.mp hb
      exact hfull
  obtain ⟨hroom, heq⟩ | ⟨hfull, htaken, heq⟩ | ⟨hfull, hrefused, heq⟩ :=
    h.open.storeChar_cases sink c
  · rw [heq]
    refine Or.inl ⟨?_, hcount, hroom, h.full, h.accepted⟩
    rw [← h.stream, List.append_assoc]
  · rw [heq]
    refine Or.inl ⟨?_, hcount, Nat.zero_lt_succ 63, hblocks hfull, h.accepted.snoc htaken⟩
    rw [List.append_nil]
    exact hflat
  · rw [heq]
    refine Or.inr ⟨⟨rfl, hfull, List.getLast?_concat⟩, ?_, hblocks hfull, p.written, _, rfl, hrefused,
      h.accepted⟩
    exact ⟨[], (List.append_nil _).trans hflat⟩

theorem Emitted.storeWhile (h : Emitted sink text p) (cs : List UInt8) :
    Emitted sink (text ++ cs) (storeWhile sink cs p) ∨
      (BleSpeedSensor.storeWhile sink cs p).Failed ∧
        Refused sink (text ++ cs) (BleSpeedSensor.storeWhile sink cs p).written := by
  induction cs generalizing text p with
  | nil =>
    rw [List.append_nil]
    exact Or.inl h
  | cons c cs ih =>
    have hsplit : text ++ c :: cs = text ++ [c] ++ cs := by simp
    unfold BleSpeedSensor.storeWhile
    obtain hnext | ⟨hfailed, hrefused⟩ := @Emitted.store sink p c text h
    · rw [if_neg hnext.open.running, hsplit]
      exact ih hnext
    · rw [if_pos hfailed.stopped, hsplit]
      refine Or.inr ⟨hfailed, ?_, hrefused.full, hrefused.refused⟩
      exact hrefused.start.trans (List.prefix_append _ _)

end BleSpeedSensor
