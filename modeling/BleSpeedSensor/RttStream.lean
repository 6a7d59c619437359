import BleSpeedSensor.SeggerRtt

namespace BleSpeedSensor

open ByteMemory RingIndex RunSystem

variable {s : RttUp} {call : WriteCall} {xs : List UInt8} {n : Nat}

/-- What a call has put into the stream so far. -/
def WriteCall.stored (call : WriteCall) : List UInt8 := call.pBuffer.take call.numBytesWritten

def WritePc.stored : WritePc → List UInt8
  | .idle => []
  | .readOff call | .copy call _ | .moveOff call _ | .wrapOff call => call.stored

/-- The stream: what every call so far has stored, in order. -/
def RttUp.sent (s : RttUp) : List UInt8 := s.returned.flatMap WriteCall.stored ++ s.pc.stored

/-- Where the stored bytes end, also while `WrOff` still points behind the buffer. -/
def RttUp.stop (s : RttUp) : Nat :=
  match s.pc with
  | .wrapOff _ => 0
  | _ => s.ring.wrOff

/-- What a mode promises about the number of bytes stored. -/
structure WriteCall.Kept (call : WriteCall) : Prop where
  le : call.numBytes ≤ call.pBuffer.length
  written : call.numBytesWritten ≤ call.numBytes
  skip : call.mode = seggerRttModeNoBlockSkip →
    call.numBytes = 0 ∨ call.numBytes = call.pBuffer.length
  block : call.mode = seggerRttModeBlockIfFifoFull → call.numBytes = call.pBuffer.length

abbrev Holds (r : RingBuffer) (a : Nat) (x : UInt8) : Prop := r.pBuffer a = x

/-- What holds where the target is, with `length` bytes in the ring. -/
def WritePc.Keeps (r : RingBuffer) (length : Nat) : WritePc → Prop
  | .idle => r.wrOff < r.sizeOfBuffer
  | .readOff call => call.Kept ∧ r.wrOff < r.sizeOfBuffer
  | .copy call n => call.Kept ∧ n ≤ call.rest.length ∧ length + n < r.sizeOfBuffer ∧
      r.wrOff + n ≤ r.sizeOfBuffer ∧ r.wrOff < r.sizeOfBuffer
  | .moveOff call n => call.Kept ∧ n ≤ call.rest.length ∧ length + n < r.sizeOfBuffer ∧
      r.wrOff + n ≤ r.sizeOfBuffer ∧ r.wrOff < r.sizeOfBuffer ∧
      ∀ k x, (call.rest.take n)[k]? = some x → r.pBuffer (r.wrOff + k) = x
  | .wrapOff call => call.Kept ∧ r.wrOff = r.sizeOfBuffer

/-- The ring holds `xs`: what is sent and not yet received. -/
structure RttInv (s : RttUp) (xs : List UInt8) : Prop where
  segment : Segment (Holds s.ring) s.ring.sizeOfBuffer s.ring.rdOff s.stop xs
  sent : s.sent = s.received ++ xs
  inHand : s.inHand <+: xs
  pc : s.pc.Keeps s.ring xs.length
  returned : ∀ call ∈ s.returned, call.Kept ∧ call.numBytesWritten = call.numBytes

theorem WriteCall.Kept.rest_length (h : call.Kept) :
    call.rest.length = call.numBytes - call.numBytesWritten := by
  have hle := h.le
  unfold WriteCall.rest
  rw [List.length_drop, List.length_take]
  omega

/-- What a call stores next goes on where it stopped. -/
theorem WriteCall.Kept.stored_append (h : call.Kept) (hn : n ≤ call.rest.length) :
    call.stored ++ call.rest.take n =
      WriteCall.stored { call with numBytesWritten := call.numBytesWritten + n } := by
  have hle := h.le
  have hw := h.written
  rw [h.rest_length] at hn
  unfold WriteCall.stored WriteCall.rest
  dsimp only
  rw [List.drop_take, List.take_take, Nat.min_eq_left hn, List.take_add]

theorem RingBuffer.space_eq {r : RingBuffer} {Stored : Nat → UInt8 → Prop}
    (h : Segment Stored r.sizeOfBuffer r.rdOff r.wrOff xs) :
    r.space = r.sizeOfBuffer - 1 - xs.length := by
  have hlength := h.length_eq
  have hstart := h.start_lt
  unfold RingBuffer.space
  dsimp only
  split at hlength <;> split <;> omega

/-- While `WrOff` points behind the buffer, a `RdOff` at its start would make all of it look held. -/
theorem RingBuffer.held_eq {r : RingBuffer} {stop : Nat}
    (h : Segment (Holds r) r.sizeOfBuffer r.rdOff stop xs)
    (hstop : r.wrOff = stop ∨ stop = 0 ∧ r.wrOff = r.sizeOfBuffer ∧ r.rdOff ≠ 0) : r.held = xs := by
  have hlength := h.length_eq
  have hstart := h.start_lt
  have hcount : (if r.rdOff ≤ r.wrOff then r.wrOff - r.rdOff else r.sizeOfBuffer + r.wrOff - r.rdOff) =
      xs.length := by
    rcases hstop with heq | ⟨hzero, hend, hread⟩
    · rw [heq]
      exact hlength.symm
    · rw [if_pos (by omega), hlength, if_neg (by omega)]
      omega
  unfold RingBuffer.held
  dsimp only
  rw [hcount]
  apply List.ext_getElem?
  intro k
  rcases Nat.lt_or_ge k xs.length with hk | hk
  · have hx : xs[k]? = some xs[k] := List.getElem?_eq_getElem hk
    have hstored := h.stored k xs[k] hx
    rw [hx, List.getElem?_map, List.getElem?_range hk, Option.map_some]
    exact congrArg some hstored
  · rw [List.getElem?_eq_none hk, List.getElem?_eq_none (by simpa using hk)]

theorem RttInv.nextPass
    (hsegment : Segment (Holds s.ring) s.ring.sizeOfBuffer s.ring.rdOff s.ring.wrOff xs)
    (hsent : s.returned.flatMap WriteCall.stored ++ call.stored = s.received ++ xs)
    (hinHand : s.inHand <+: xs) (hcall : call.Kept)
    (hreturned : ∀ c ∈ s.returned, c.Kept ∧ c.numBytesWritten = c.numBytes) :
    RttInv (s.nextPass call) xs := by
  have hstop := hsegment.stop_lt
  unfold RttUp.nextPass
  split
  next => exact ⟨hsegment, hsent, hinHand, ⟨hcall, hstop⟩, hreturned⟩
  next hdone =>
    have hwritten : call.numBytesWritten = call.numBytes := by
      have := hcall.written
      omega
    refine ⟨hsegment, ?_, hinHand, hstop, fun c hc => ?_⟩
    · unfold RttUp.sent
      rw [List.flatMap_append, List.flatMap_singleton]
      exact (List.append_nil _).trans hsent
    · rcases List.mem_append.mp hc with hold | hnew
      · exact hreturned c hold
      · rw [List.mem_singleton.mp hnew]
        exact ⟨hcall, hwritten⟩

theorem RttInv.write (h : RttInv s xs) (hpc : s.pc = .idle) (pBuffer : List UInt8) :
    RttInv (s.write pBuffer) xs := by
  obtain ⟨hsegment, hsent, hinHand, -, hreturned⟩ := h
  unfold RttUp.stop at hsegment
  unfold RttUp.sent at hsent
  rw [hpc] at hsegment hsent
  unfold RttUp.write
  refine RttInv.nextPass hsegment ?_ hinHand ⟨?_, Nat.zero_le _, fun hskip => ?_, fun hblock => ?_⟩ hreturned
  · exact hsent
  · dsimp only
    split
    next hfull => split <;> omega
    next => exact Nat.le_refl _
  · dsimp only at hskip ⊢
    rw [hskip, if_pos rfl]
    split
    · exact Or.inl rfl
    · exact Or.inr rfl
  · dsimp only at hblock ⊢
    rw [hblock, if_neg fun hboth => hboth.1 rfl]

theorem RttInv.readOff (h : RttInv s xs) (hpc : s.pc = .readOff call) : RttInv s.turn xs := by
  obtain ⟨hsegment, hsent, hinHand, hkeeps, hreturned⟩ := h
  unfold RttUp.stop at hsegment
  unfold RttUp.sent at hsent
  rw [hpc] at hsegment hsent hkeeps
  obtain ⟨hcall, hstop⟩ := hkeeps
  have hspace := RingBuffer.space_eq hsegment
  have hroom := hsegment.room
  unfold RttUp.turn
  rw [hpc]
  refine ⟨hsegment, hsent, hinHand, ⟨hcall, Nat.min_le_right _ _, ?_, ?_, hstop⟩, hreturned⟩
  · change xs.length + min (min s.ring.space (s.ring.sizeOfBuffer - s.ring.wrOff)) _ <
      s.ring.sizeOfBuffer
    rw [hspace]
    omega
  · change s.ring.wrOff + min (min s.ring.space (s.ring.sizeOfBuffer - s.ring.wrOff)) _ ≤
      s.ring.sizeOfBuffer
    omega

/-- What is copied goes behind the stored bytes, none of which it overwrites. -/
theorem RttInv.copy (h : RttInv s xs) (hpc : s.pc = .copy call n) : RttInv s.turn xs := by
  obtain ⟨hsegment, hsent, hinHand, hkeeps, hreturned⟩ := h
  unfold RttUp.stop at hsegment
  unfold RttUp.sent at hsent
  rw [hpc] at hsegment hsent hkeeps
  obtain ⟨hcall, hn, hlength, hend, hstop⟩ := hkeeps
  have hring : Segment (Holds s.ring) s.ring.sizeOfBuffer s.ring.rdOff s.ring.wrOff xs := hsegment
  have htaken : (call.rest.take n).length = n := by
    rw [List.length_take]
    omega
  have houtside : ∀ k, k < xs.length → slot s.ring.sizeOfBuffer s.ring.rdOff k < s.ring.wrOff ∨
      s.ring.wrOff + (call.rest.take n).length ≤ slot s.ring.sizeOfBuffer s.ring.rdOff k := by
    intro k hk
    have hfree := fun j (hj : xs.length + j < s.ring.sizeOfBuffer) => hring.free_slot hk hj
    have hin : slot s.ring.sizeOfBuffer s.ring.rdOff k < s.ring.sizeOfBuffer :=
      slot_lt hring.start_lt (by omega)
    generalize slot s.ring.sizeOfBuffer s.ring.rdOff k = a at hfree hin ⊢
    rw [htaken]
    refine (Nat.lt_or_ge a s.ring.wrOff).imp_right fun hge => Nat.le_of_not_lt fun hlt => ?_
    refine hfree (a - s.ring.wrOff) (by omega) ?_
    rw [slot_before_end (by omega)]
    omega
  unfold RttUp.turn
  rw [hpc]
  refine ⟨hsegment.frame fun k x hk hx => (copy_outside (houtside k hk)).trans hx, hsent, hinHand,
    ⟨hcall, hn, hlength, hend, hstop, fun k x hx => ?_⟩, hreturned⟩
  obtain ⟨hk, hvalue⟩ := List.getElem?_eq_some_iff.mp hx
  exact (copy_inside hk).trans hvalue

/-- Moving `WrOff` on makes what was copied a part of the stream. -/
theorem RttInv.moveOff (h : RttInv s xs) (hpc : s.pc = .moveOff call n) :
    RttInv s.turn (xs ++ call.rest.take n) := by
  obtain ⟨hsegment, hsent, hinHand, hkeeps, hreturned⟩ := h
  unfold RttUp.stop at hsegment
  unfold RttUp.sent at hsent
  rw [hpc] at hsegment hsent hkeeps
  obtain ⟨hcall, hn, hlength, hend, hstop, hfilled⟩ := hkeeps
  have htaken : (call.rest.take n).length = n := by
    rw [List.length_take]
    omega
  have hring : Segment (Holds s.ring) s.ring.sizeOfBuffer s.ring.rdOff s.ring.wrOff xs := hsegment
  have hextended := hring.append (by rw [htaken]; exact hlength) fun k x hx => by
    have hk : k < (call.rest.take n).length := (List.getElem?_eq_some_iff.mp hx).1
    rw [slot_before_end (by omega)]
    exact hfilled k x hx
  rw [htaken] at hextended
  have hstored := hcall.stored_append hn
  have hsent' : s.returned.flatMap WriteCall.stored ++
      WriteCall.stored { call with numBytesWritten := call.numBytesWritten + n } =
        s.received ++ (xs ++ call.rest.take n) := by
    rw [← hstored, ← List.append_assoc, ← List.append_assoc]
    exact congrArg (· ++ call.rest.take n) hsent
  have hcall' : WriteCall.Kept { call with numBytesWritten := call.numBytesWritten + n } := by
    rw [hcall.rest_length] at hn
    have hw := hcall.written
    exact ⟨hcall.le, by dsimp only; omega, hcall.skip, hcall.block⟩
  have hprefix : s.inHand <+: xs ++ call.rest.take n := hinHand.trans (List.prefix_append _ _)
  unfold RttUp.turn
  rw [hpc]
  dsimp only
  split
  next hfull =>
    have hslot : slot s.ring.sizeOfBuffer s.ring.wrOff n = 0 := by
      unfold slot
      rw [if_neg (by omega), hfull, Nat.sub_self]
    rw [hslot] at hextended
    exact ⟨hextended, hsent', hprefix, ⟨hcall', hfull⟩, hreturned⟩
  next hmore =>
    rw [slot_before_end (by omega)] at hextended
    exact RttInv.nextPass hextended hsent' hprefix hcall' hreturned

theorem RttInv.wrapOff (h : RttInv s xs) (hpc : s.pc = .wrapOff call) : RttInv s.turn xs := by
  obtain ⟨hsegment, hsent, hinHand, hkeeps, hreturned⟩ := h
  unfold RttUp.stop at hsegment
  unfold RttUp.sent at hsent
  rw [hpc] at hsegment hsent hkeeps
  unfold RttUp.turn
  rw [hpc]
  exact RttInv.nextPass hsegment hsent hinHand hkeeps.1 hreturned

theorem RttInv.turn (h : RttInv s xs) : ∃ ys, RttInv s.turn ys := by
  cases hpc : s.pc with
  | idle =>
    have hidle : s.turn = s := by
      unfold RttUp.turn
      rw [hpc]
    rw [hidle]
    exact ⟨xs, h⟩
  | readOff call => exact ⟨xs, h.readOff hpc⟩
  | copy call n => exact ⟨xs, h.copy hpc⟩
  | moveOff call n => exact ⟨xs ++ call.rest.take n, h.moveOff hpc⟩
  | wrapOff call => exact ⟨xs, h.wrapOff hpc⟩

/-- The host does not start to copy from the start of the buffer while `WrOff` points behind its end:
the target moves it there in a step of its own. -/
def HostSound (s : RttUp) : RttAction → Prop
  | .hostCopy _ => ¬(s.ring.wrOff = s.ring.sizeOfBuffer ∧ s.ring.rdOff = 0)
  | _ => True

theorem RttInv.stop_eq (h : RttInv s xs) :
    s.ring.wrOff = s.stop ∨ s.stop = 0 ∧ s.ring.wrOff = s.ring.sizeOfBuffer := by
  have hkeeps := h.pc
  unfold RttUp.stop
  cases hpc : s.pc with
  | idle | readOff call | copy call n | moveOff call n => exact Or.inl rfl
  | wrapOff call =>
    rw [hpc] at hkeeps
    exact Or.inr ⟨rfl, hkeeps.2⟩

theorem RttInv.hostCopy (h : RttInv s xs) (hsound : HostSound s (.hostCopy n)) :
    RttInv (s.hostCopy n) xs := by
  unfold RttUp.hostCopy
  split
  next =>
    have hheld : s.ring.held = xs := by
      refine RingBuffer.held_eq h.segment ?_
      rcases h.stop_eq with heq | ⟨hzero, hend⟩
      · exact Or.inl heq
      · exact Or.inr ⟨hzero, hend, fun hread => hsound ⟨hend, hread⟩⟩
    obtain ⟨hsegment, hsent, -, hkeeps, hreturned⟩ := h
    refine ⟨hsegment, hsent, ?_, hkeeps, hreturned⟩
    dsimp only
    rw [hheld]
    exact List.take_prefix n xs
  next => exact h

theorem WritePc.Keeps.mono {r : RingBuffer} {pc : WritePc} {length length' rdOff : Nat}
    (h : pc.Keeps r length) (hle : length' ≤ length) :
    pc.Keeps { r with rdOff := rdOff } length' := by
  cases pc with
  | idle | readOff call | wrapOff call => exact h
  | copy call n =>
    obtain ⟨hcall, hn, hlength, hrest⟩ := h
    exact ⟨hcall, hn, Nat.lt_of_le_of_lt (Nat.add_le_add_right hle n) hlength, hrest⟩
  | moveOff call n =>
    obtain ⟨hcall, hn, hlength, hrest⟩ := h
    exact ⟨hcall, hn, Nat.lt_of_le_of_lt (Nat.add_le_add_right hle n) hlength, hrest⟩

/-- What the host has copied it takes from the front of the stream. -/
theorem RttInv.hostAck (h : RttInv s xs) : ∃ ys, ys.length ≤ xs.length ∧ RttInv s.hostAck ys := by
  obtain ⟨hsegment, hsent, ⟨ys, hys⟩, hkeeps, hreturned⟩ := h
  subst hys
  have hlength : ys.length ≤ (s.inHand ++ ys).length := by
    rw [List.length_append]
    omega
  refine ⟨ys, hlength, hsegment.drop, ?_, List.nil_prefix, hkeeps.mono hlength, hreturned⟩
  exact hsent.trans (List.append_assoc _ _ _).symm

theorem rttStep_inv (h : RttInv s xs) (a : RttAction) (hsound : HostSound s a) :
    ∃ ys, RttInv (rttStep s a) ys := by
  cases a with
  | write pBuffer =>
    unfold rttStep
    dsimp only
    split
    next hpc => exact ⟨xs, h.write hpc pBuffer⟩
    next => exact ⟨xs, h⟩
  | configUpBuffer flags =>
    unfold rttStep
    dsimp only
    split
    next hpc =>
      obtain ⟨hsegment, hsent, hinHand, hkeeps, hreturned⟩ := h
      refine ⟨xs, hsegment, hsent, hinHand, ?_, hreturned⟩
      unfold RttUp.configUpBuffer
      rw [hpc] at hkeeps ⊢
      exact hkeeps
    next => exact ⟨xs, h⟩
  | turn => exact h.turn
  | hostCopy n => exact ⟨xs, h.hostCopy hsound⟩
  | hostAck =>
    obtain ⟨ys, -, hys⟩ := h.hostAck
    exact ⟨ys, hys⟩

theorem rttUpInit_inv (pBuffer : Memory) {sizeOfBuffer : Nat} (flags : Nat) (hsize : 0 < sizeOfBuffer) :
    RttInv (rttUpInit pBuffer sizeOfBuffer flags) [] := by
  refine ⟨Segment.nil hsize, rfl, List.nil_prefix, hsize, fun call hcall => ?_⟩
  cases hcall

theorem rttRun_inv (h : RttInv s xs) {as : List RttAction} (hsound : EveryStep rttStep HostSound s as) :
    ∃ ys, RttInv (runFrom rttStep s as) ys := by
  induction as generalizing s xs with
  | nil => exact ⟨xs, h⟩
  | cons a as ih =>
    obtain ⟨hfirst, hrest⟩ := everyStep_cons.mp hsound
    obtain ⟨ys, hys⟩ := rttStep_inv h a hfirst
    exact ih hys hrest

end BleSpeedSensor
