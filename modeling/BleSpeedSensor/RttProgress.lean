import BleSpeedSensor.RttStream

namespace BleSpeedSensor

open ByteMemory RingIndex RunSystem

variable {s : RttUp} {call : WriteCall} {xs : List UInt8} {n : Nat}

/-- All the rest of the call fits, so that a pass is ended by the end of the buffer only. -/
def WritePc.Fits (r : RingBuffer) (length : Nat) : WritePc → Prop
  | .idle => True
  | .readOff call | .wrapOff call => call.rest.length + length < r.sizeOfBuffer
  | .copy call n | .moveOff call n => call.rest.length + length < r.sizeOfBuffer ∧
      n = min (r.sizeOfBuffer - r.wrOff) call.rest.length

/-- From reading `RdOff` to the end of the call, where `room` bytes are left to the end of the
buffer: a pass takes three turns, and one more where it reaches the end. -/
def passTurns (rest room : Nat) : Nat := if rest < room then 3 else if rest = room then 4 else 7

def RttUp.turnsLeft (s : RttUp) : Nat :=
  match s.pc with
  | .idle => 0
  | .readOff call => passTurns call.rest.length (s.ring.sizeOfBuffer - s.ring.wrOff)
  | .copy call _ => passTurns call.rest.length (s.ring.sizeOfBuffer - s.ring.wrOff) - 1
  | .moveOff call _ => passTurns call.rest.length (s.ring.sizeOfBuffer - s.ring.wrOff) - 2
  | .wrapOff call => if call.rest.length = 0 then 1 else 4

structure Fitting (s : RttUp) (xs : List UInt8) : Prop where
  inv : RttInv s xs
  fits : s.pc.Fits s.ring xs.length

def RttAction.isTurn : RttAction → Bool
  | .turn => true
  | _ => false

/-- The host and the call under way, but no other call. -/
def RttAction.duringCall : RttAction → Bool
  | .turn | .hostCopy _ | .hostAck => true
  | _ => false

theorem nextPass_turnsLeft (hcall : call.Kept) :
    (s.nextPass call).turnsLeft =
      if call.rest.length = 0 then 0 else passTurns call.rest.length (s.ring.sizeOfBuffer - s.ring.wrOff) := by
  have hlength := hcall.rest_length
  unfold RttUp.nextPass
  split
  next hmore =>
    rw [if_neg (by omega)]
    rfl
  next hdone =>
    rw [if_pos (by omega)]
    rfl

theorem nextPass_fits (hfits : call.rest.length + n < s.ring.sizeOfBuffer) :
    (s.nextPass call).pc.Fits (s.nextPass call).ring n := by
  unfold RttUp.nextPass
  split
  · exact hfits
  · trivial

theorem WriteCall.Kept.rest_advance (h : call.Kept) (n : Nat) :
    (WriteCall.rest { call with numBytesWritten := call.numBytesWritten + n }).length =
      call.rest.length - n := by
  have hle := h.le
  unfold WriteCall.rest
  dsimp only
  rw [List.length_drop, List.length_take, List.length_drop, List.length_take]
  omega

theorem Fitting.readOff (h : Fitting s xs) (hpc : s.pc = .readOff call) :
    Fitting s.turn xs ∧ s.turn.turnsLeft ≤ s.turnsLeft - 1 := by
  obtain ⟨hinv, hfits⟩ := h
  have hinv' := hinv.readOff hpc
  have hsegment := hinv.segment
  unfold RttUp.stop at hsegment
  rw [hpc] at hfits hsegment
  have hspace := RingBuffer.space_eq hsegment
  have hfit : call.rest.length + xs.length < s.ring.sizeOfBuffer := hfits
  unfold RttUp.turn RttUp.turnsLeft at *
  rw [hpc] at hinv' ⊢
  refine ⟨⟨hinv', hfit, ?_⟩, Nat.le_refl _⟩
  change min (min s.ring.space (s.ring.sizeOfBuffer - s.ring.wrOff)) call.rest.length =
    min (s.ring.sizeOfBuffer - s.ring.wrOff) call.rest.length
  rw [hspace]
  omega

theorem Fitting.copy (h : Fitting s xs) (hpc : s.pc = .copy call n) :
    Fitting s.turn xs ∧ s.turn.turnsLeft ≤ s.turnsLeft - 1 := by
  obtain ⟨hinv, hfits⟩ := h
  have hinv' := hinv.copy hpc
  rw [hpc] at hfits
  unfold RttUp.turn RttUp.turnsLeft at *
  rw [hpc] at hinv' ⊢
  refine ⟨⟨hinv', hfits⟩, ?_⟩
  dsimp only
  omega

/-- A pass that does not reach the end of the buffer has stored all the rest. -/
theorem Fitting.moveOff (h : Fitting s xs) (hpc : s.pc = .moveOff call n) :
    Fitting s.turn (xs ++ call.rest.take n) ∧ s.turn.turnsLeft ≤ s.turnsLeft - 1 := by
  obtain ⟨hinv, hfits⟩ := h
  have hkeeps := hinv.pc
  have hinv' := hinv.moveOff hpc
  rw [hpc] at hfits hkeeps
  obtain ⟨hfit, hn⟩ := hfits
  obtain ⟨hcall, hle, -, -, hstop, -⟩ := hkeeps
  have hadvance := hcall.rest_advance n
  have hcall' : WriteCall.Kept { call with numBytesWritten := call.numBytesWritten + n } := by
    have hw := hcall.written
    rw [hcall.rest_length] at hle
    exact ⟨hcall.le, by dsimp only; omega, hcall.skip, hcall.block⟩
  have htaken : (xs ++ call.rest.take n).length = xs.length + n := by
    rw [List.length_append, List.length_take]
    omega
  have hfit' : (WriteCall.rest { call with numBytesWritten := call.numBytesWritten + n }).length +
      (xs ++ call.rest.take n).length < s.ring.sizeOfBuffer := by
    rw [hadvance, htaken]
    omega
  have hleft : s.turnsLeft =
      passTurns call.rest.length (s.ring.sizeOfBuffer - s.ring.wrOff) - 2 := by
    unfold RttUp.turnsLeft
    rw [hpc]
  rw [hleft]
  unfold RttUp.turn at *
  rw [hpc] at hinv' ⊢
  dsimp only at hinv' ⊢
  unfold passTurns
  split
  next hfull =>
    rw [if_pos hfull] at hinv'
    refine ⟨⟨hinv', hfit'⟩, ?_⟩
    change (if (WriteCall.rest _).length = 0 then 1 else 4) ≤ _
    rw [hadvance, if_neg (by omega : ¬call.rest.length < s.ring.sizeOfBuffer - s.ring.wrOff)]
    split <;> split <;> omega
  next hmore =>
    rw [if_neg hmore] at hinv'
    refine ⟨⟨hinv', nextPass_fits hfit'⟩, ?_⟩
    rw [nextPass_turnsLeft hcall', hadvance, if_pos (by omega)]
    exact Nat.zero_le _

theorem Fitting.wrapOff (h : Fitting s xs) (hpc : s.pc = .wrapOff call) :
    Fitting s.turn xs ∧ s.turn.turnsLeft ≤ s.turnsLeft - 1 := by
  obtain ⟨hinv, hfits⟩ := h
  have hkeeps := hinv.pc
  have hinv' := hinv.wrapOff hpc
  rw [hpc] at hfits hkeeps
  obtain ⟨hcall, hend⟩ := hkeeps
  have hfit : call.rest.length + xs.length < s.ring.sizeOfBuffer := hfits
  have hleft : s.turnsLeft = if call.rest.length = 0 then 1 else 4 := by
    unfold RttUp.turnsLeft
    rw [hpc]
  rw [hleft]
  unfold RttUp.turn at *
  rw [hpc] at hinv' ⊢
  refine ⟨⟨hinv', nextPass_fits hfits⟩, ?_⟩
  dsimp only
  rw [nextPass_turnsLeft hcall]
  unfold passTurns
  dsimp only
  split
  · exact Nat.zero_le _
  · exact Nat.le_of_eq (if_pos (by omega))

theorem Fitting.turn (h : Fitting s xs) :
    ∃ ys, Fitting s.turn ys ∧ s.turn.turnsLeft ≤ s.turnsLeft - 1 := by
  cases hpc : s.pc with
  | idle =>
    have hidle : s.turn = s := by
      unfold RttUp.turn
      rw [hpc]
    have hleft : s.turnsLeft = 0 := by
      unfold RttUp.turnsLeft
      rw [hpc]
    rw [hidle, hleft]
    exact ⟨xs, h, Nat.le_refl _⟩
  | readOff call => exact ⟨xs, h.readOff hpc⟩
  | copy call n => exact ⟨xs, h.copy hpc⟩
  | moveOff call n => exact ⟨xs ++ call.rest.take n, h.moveOff hpc⟩
  | wrapOff call => exact ⟨xs, h.wrapOff hpc⟩

theorem WritePc.Fits.mono {r : RingBuffer} {pc : WritePc} {length length' rdOff : Nat}
    (h : pc.Fits r length) (hle : length' ≤ length) : pc.Fits { r with rdOff := rdOff } length' := by
  cases pc with
  | idle => trivial
  | readOff call | wrapOff call => exact Nat.lt_of_le_of_lt (Nat.add_le_add_left hle _) h
  | copy call n | moveOff call n =>
    exact ⟨Nat.lt_of_le_of_lt (Nat.add_le_add_left hle _) h.1, h.2⟩

theorem hostAck_turnsLeft (s : RttUp) : s.hostAck.turnsLeft = s.turnsLeft := rfl

theorem hostCopy_turnsLeft (s : RttUp) (n : Nat) : (s.hostCopy n).turnsLeft = s.turnsLeft := by
  unfold RttUp.hostCopy
  split <;> rfl

theorem Fitting.step (h : Fitting s xs) {a : RttAction} (ha : a.duringCall = true)
    (hsound : HostSound s a) : ∃ ys, Fitting (rttStep s a) ys ∧
      (rttStep s a).turnsLeft ≤ s.turnsLeft - if a.isTurn then 1 else 0 := by
  cases a with
  | write pBuffer => cases ha
  | configUpBuffer flags => cases ha
  | turn => exact h.turn
  | hostCopy n =>
    refine ⟨xs, ⟨h.inv.hostCopy hsound, ?_⟩, Nat.le_of_eq (hostCopy_turnsLeft s n)⟩
    unfold rttStep RttUp.hostCopy
    dsimp only
    split
    · exact h.fits
    · exact h.fits
  | hostAck =>
    obtain ⟨ys, hle, hys⟩ := h.inv.hostAck
    exact ⟨ys, ⟨hys, h.fits.mono hle⟩, Nat.le_of_eq (hostAck_turnsLeft s)⟩

theorem Fitting.run (h : Fitting s xs) {as : List RttAction} (has : ∀ a ∈ as, a.duringCall = true)
    (hsound : EveryStep rttStep HostSound s as) : ∃ ys, Fitting (runFrom rttStep s as) ys ∧
      (runFrom rttStep s as).turnsLeft ≤ s.turnsLeft - as.countP RttAction.isTurn := by
  induction as generalizing s xs with
  | nil => exact ⟨xs, h, Nat.le_refl _⟩
  | cons a as ih =>
    obtain ⟨hfirst, hrest⟩ := everyStep_cons.mp hsound
    obtain ⟨ys, hys, hleft⟩ := h.step (has a List.mem_cons_self) hfirst
    obtain ⟨zs, hzs, hleft'⟩ := ih hys (fun b hb => has b (List.mem_cons_of_mem _ hb)) hrest
    refine ⟨zs, hzs, ?_⟩
    rw [List.countP_cons]
    rw [runFrom_cons]
    omega

theorem turnsLeft_eq_zero (h : s.turnsLeft = 0) : s.pc = .idle := by
  unfold RttUp.turnsLeft passTurns at h
  split at h
  next hpc => exact hpc
  all_goals exfalso
  all_goals revert h
  all_goals split <;> first | omega | split <;> omega

theorem turnsLeft_le (s : RttUp) : s.turnsLeft ≤ 7 := by
  unfold RttUp.turnsLeft passTurns
  split <;> first | omega | split <;> first | omega | split <;> omega

/-- A call in a mode that does not block stores no more than fits when it is made. -/
theorem write_fitting (h : RttInv s xs) (hpc : s.pc = .idle)
    (hmode : s.ring.mode ≠ seggerRttModeBlockIfFifoFull) (pBuffer : List UInt8) :
    Fitting (s.write pBuffer) xs := by
  have hinv := h.write hpc pBuffer
  have hsegment := h.segment
  unfold RttUp.stop at hsegment
  rw [hpc] at hsegment
  have hspace := RingBuffer.space_eq hsegment
  have hroom := hsegment.room
  refine ⟨hinv, ?_⟩
  unfold RttUp.write
  refine nextPass_fits ?_
  unfold WriteCall.rest
  dsimp only
  rw [List.drop_zero, List.length_take]
  split
  next hfull =>
    split
    · omega
    · omega
  next hroomy =>
    have hle : pBuffer.length ≤ s.ring.space := by
      refine Nat.le_of_not_lt fun hlt => ?_
      exact hroomy ⟨hmode, hlt⟩
    omega

/-- The host that copies again while `WrOff` is behind the end receives bytes never sent. -/
example : ¬(runFrom rttStep (rttUpInit (fun _ => 0) 4 0)
    [.write [1, 2, 3], .turn, .turn, .turn, .hostCopy 3, .hostAck, .write [4], .turn, .turn, .turn,
      .hostCopy 1, .hostAck, .hostCopy 4, .hostAck]).received <+: [1, 2, 3, 4] := by decide

/-- A call in a mode that does not block returns after two passes at most, whatever the host does
meanwhile. -/
theorem rtt_write_returns (pBuffer : Memory) {sizeOfBuffer : Nat} (flags : Nat)
    (hsize : 0 < sizeOfBuffer) {as : List RttAction}
    (hsound : EveryStep rttStep HostSound (rttUpInit pBuffer sizeOfBuffer flags) as) {s : RttUp}
    (hs : runFrom rttStep (rttUpInit pBuffer sizeOfBuffer flags) as = s) (hpc : s.pc = .idle)
    (hmode : s.ring.mode ≠ seggerRttModeBlockIfFifoFull) (bytes : List UInt8) {during : List RttAction}
    (hduring : ∀ a ∈ during, a.duringCall = true)
    (hsound' : EveryStep rttStep HostSound (s.write bytes) during)
    (hturns : 7 ≤ during.countP RttAction.isTurn) :
    (runFrom rttStep (s.write bytes) during).pc = .idle := by
  obtain ⟨xs, hinv⟩ := rttRun_inv (rttUpInit_inv pBuffer flags hsize) hsound
  rw [hs] at hinv
  obtain ⟨ys, -, hleft⟩ := (write_fitting hinv hpc hmode bytes).run hduring hsound'
  have hbound := turnsLeft_le (s.write bytes)
  exact turnsLeft_eq_zero (by omega)

theorem rtt_write_returns_full :
    (runFrom rttStep ((rttUpInit (fun _ => 0) 4 1).write [1, 2, 3, 4, 5])
      (List.replicate 7 .turn)).pc = .idle := by
  have hsound : EveryStep rttStep HostSound (rttUpInit (fun _ => 0) 4 1) [] := trivial
  refine rtt_write_returns (fun _ => 0) 1 (by decide) hsound rfl rfl (by decide) _ ?_ ?_ ?_
  · intro a ha
    rw [List.eq_of_mem_replicate ha]
    rfl
  · exact ⟨trivial, trivial, trivial, trivial, trivial, trivial, trivial, trivial⟩
  · decide

end BleSpeedSensor
