import BleSpeedSensor.RttStream

namespace BleSpeedSensor

open ByteMemory RingIndex RunSystem

/-- The down-buffer: what the host has put into it, and what the target's calls have returned. -/
structure RttDown where
  ring : RingBuffer
  given : List UInt8
  taken : List UInt8

inductive DownAction
  | host (byte : UInt8)
  | read (bufferSize : BufferSize)
  | getKey

/-- The host puts in one byte after the other, as long as there is room. -/
def RttDown.hostPut (s : RttDown) (byte : UInt8) : RttDown :=
  let wrOff := next s.ring.sizeOfBuffer s.ring.wrOff
  if wrOff = s.ring.rdOff then s
  else { s with
    ring := { s.ring with
      pBuffer := fun a => if a = s.ring.wrOff then byte else s.ring.pBuffer a
      wrOff := wrOff }
    given := s.given ++ [byte] }

/-- A key of -1 says that none was there. -/
def keyBytes (key : Int) : List UInt8 := if key < 0 then [] else [UInt8.ofNat key.toNat]

def downStep (s : RttDown) : DownAction → RttDown
  | .host byte => s.hostPut byte
  | .read bufferSize =>
    let r := s.ring.read bufferSize
    { s with ring := r.2, taken := s.taken ++ r.1 }
  | .getKey =>
    let r := s.ring.getKey
    { s with ring := r.2, taken := s.taken ++ keyBytes r.1 }

variable {r : RingBuffer} {xs : List UInt8} {n : Nat}

abbrev RingBuffer.Contains (r : RingBuffer) (xs : List UInt8) : Prop :=
  Segment (Holds r) r.sizeOfBuffer r.rdOff r.wrOff xs

/-- Up to the end of the buffer the bytes held lie one behind the other. -/
theorem bytesAt_eq {start stop : Nat} (h : Segment (Holds r) r.sizeOfBuffer start stop xs)
    (hn : n ≤ xs.length) (hend : start + n ≤ r.sizeOfBuffer) : r.bytesAt start n = xs.take n := by
  unfold RingBuffer.bytesAt
  apply List.ext_getElem?
  intro k
  rcases Nat.lt_or_ge k n with hk | hk
  · obtain ⟨x, hx⟩ : ∃ x, xs[k]? = some x := ⟨_, List.getElem?_eq_getElem (by omega)⟩
    have hstored := h.stored k x hx
    rw [slot_before_end (by omega)] at hstored
    rw [List.getElem?_take_of_lt hk, hx, List.getElem?_map, List.getElem?_range hk, Option.map_some]
    exact congrArg some hstored
  · rw [List.getElem?_eq_none (by simp; omega), List.getElem?_eq_none (by simp; omega)]

theorem Segment.drop_take {Stored : Nat → UInt8 → Prop} {size start stop : Nat}
    (h : Segment Stored size start stop xs) (hn : n ≤ xs.length) :
    Segment Stored size (slot size start n) stop (xs.drop n) := by
  have hsplit : xs.take n ++ xs.drop n = xs := List.take_append_drop n xs
  have hdrop := (hsplit.symm ▸ h).drop
  rw [List.length_take, Nat.min_eq_left hn] at hdrop
  exact hdrop

theorem readToWrOff_eq {start : Nat} (h : Segment (Holds r) r.sizeOfBuffer start r.wrOff xs)
    (hle : start ≤ r.wrOff) (bufferSize : Nat) :
    (r.readToWrOff start bufferSize).1 = xs.take bufferSize ∧
      Segment (Holds r) r.sizeOfBuffer (r.readToWrOff start bufferSize).2 r.wrOff
        (xs.drop bufferSize) := by
  have hlength := h.length_eq
  have hstop := h.stop_lt
  rw [if_pos hle] at hlength
  rw [List.take_eq_take_min, List.drop_eq_drop_min]
  unfold RingBuffer.readToWrOff
  dsimp only
  split
  next hsome =>
    have hcount : (min ((r.wrOff : Int) - start) bufferSize).toNat = min bufferSize xs.length := by omega
    have hdrop := Segment.drop_take h (Nat.min_le_right bufferSize xs.length)
    rw [slot_before_end (by omega)] at hdrop
    rw [hcount, bytesAt_eq h (by omega) (by omega)]
    exact ⟨rfl, hdrop⟩
  next hnone =>
    have hzero : min bufferSize xs.length = 0 := by omega
    rw [hzero]
    exact ⟨rfl, h⟩

theorem readToEnd_eq (h : r.Contains xs) (bufferSize : Nat) : ∃ n, n ≤ xs.length ∧ n ≤ bufferSize ∧
    (r.readToEnd bufferSize).1 = xs.take n ∧
      Segment (Holds r) r.sizeOfBuffer (r.readToEnd bufferSize).2 r.wrOff (xs.drop n) ∧
      ((r.readToEnd bufferSize).2 ≤ r.wrOff ∨ n = bufferSize) := by
  have hlength := h.length_eq
  have hstart := h.start_lt
  unfold RingBuffer.readToEnd
  dsimp only
  split
  next hwrapped =>
    rw [if_neg (by omega)] at hlength
    have hdrop := Segment.drop_take h (n := min (r.sizeOfBuffer - r.rdOff) bufferSize) (by omega)
    refine ⟨min (r.sizeOfBuffer - r.rdOff) bufferSize, by omega, by omega,
      bytesAt_eq h (by omega) (by omega), ?_, ?_⟩
    · split
      next hend =>
        have hslot : slot r.sizeOfBuffer r.rdOff (min (r.sizeOfBuffer - r.rdOff) bufferSize) = 0 := by
          unfold slot
          rw [if_neg (by omega), hend, Nat.sub_self]
        rw [hslot] at hdrop
        exact hdrop
      next hbefore =>
        rw [slot_before_end (by omega)] at hdrop
        exact hdrop
    · split
      next hend => exact Or.inl (Nat.zero_le _)
      next hbefore => exact Or.inr (by omega)
  next hstraight => exact ⟨0, Nat.zero_le _, Nat.zero_le _, rfl, h, Or.inl (by omega)⟩

/-- A call returns the bytes held, as many as the caller's buffer takes, and leaves the others. -/
theorem read_eq (h : r.Contains xs) (bufferSize : BufferSize) :
    (r.read bufferSize).1 = xs.take bufferSize ∧
      (r.read bufferSize).2.Contains (xs.drop bufferSize) := by
  obtain ⟨bufferSize, hsize⟩ := bufferSize
  obtain ⟨n, hn, hle, hfirst, hsegment, hnext⟩ := readToEnd_eq h bufferSize
  have hfirstLength : (r.readToEnd bufferSize).1.length = n := by
    rw [hfirst, List.length_take]
    omega
  have hsecond : (r.readToWrOff (r.readToEnd bufferSize).2 (bufferSize - n)).1 =
        (xs.drop n).take (bufferSize - n) ∧
      Segment (Holds r) r.sizeOfBuffer
        (r.readToWrOff (r.readToEnd bufferSize).2 (bufferSize - n)).2 r.wrOff (xs.drop bufferSize) := by
    rcases hnext with hstraight | hfull
    · have htail := readToWrOff_eq hsegment hstraight (bufferSize - n)
      rw [List.drop_drop, Nat.add_sub_cancel' hle] at htail
      exact htail
    · subst hfull
      have hnone : r.readToWrOff (r.readToEnd n).2 (n - n) = ([], (r.readToEnd n).2) := by
        unfold RingBuffer.readToWrOff
        exact if_neg (by omega)
      rw [hnone, Nat.sub_self]
      exact ⟨rfl, hsegment⟩
  obtain ⟨hbytes, hrest⟩ := hsecond
  have hall : (r.readToEnd bufferSize).1 ++
      (r.readToWrOff (r.readToEnd bufferSize).2 (bufferSize - n)).1 = xs.take bufferSize := by
    rw [hfirst, hbytes, ← List.take_add, Nat.add_sub_cancel' hle]
  unfold RingBuffer.read
  dsimp only
  rw [hfirstLength, hall]
  refine ⟨rfl, ?_⟩
  split
  next => exact hrest
  next hnone =>
    have hkept : xs.drop bufferSize = xs := by
      have hnil : xs.take bufferSize = [] := by
        rw [Ne, Decidable.not_not, List.length_eq_zero_iff] at hnone
        exact hnone
      rcases List.take_eq_nil_iff.mp hnil with hzero | hnil
      · rw [hzero, List.drop_zero]
      · rw [hnil, List.drop_nil]
    rw [hkept]
    exact h

theorem getKey_eq (h : r.Contains xs) : keyBytes r.getKey.1 = xs.take 1 ∧
    r.getKey.2.Contains (xs.drop 1) ∧ (r.getKey.1 = -1 ↔ xs = []) := by
  obtain ⟨hbytes, hrest⟩ := read_eq h ⟨1, by decide⟩
  unfold RingBuffer.getKey
  cases xs with
  | nil =>
    have hread : r.read ⟨1, by decide⟩ = ([], (r.read ⟨1, by decide⟩).2) := Prod.ext hbytes rfl
    rw [hread]
    exact ⟨rfl, hrest, iff_of_true rfl rfl⟩
  | cons c rest =>
    have hread : r.read ⟨1, by decide⟩ = ([c], (r.read ⟨1, by decide⟩).2) := Prod.ext hbytes rfl
    rw [hread]
    refine ⟨?_, hrest, iff_of_false ?_ (List.cons_ne_nil c rest)⟩
    · have hkey : ¬((c.toNat : Int) < 0) := by omega
      unfold keyBytes
      rw [if_neg hkey, Int.toNat_natCast, UInt8.ofNat_toNat]
      rfl
    · dsimp only
      omega

theorem hasKey_iff (h : r.Contains xs) : r.hasKey = true ↔ xs ≠ [] := by
  unfold RingBuffer.hasKey
  rw [decide_eq_true_iff, Ne, Ne, ← h.empty_iff]
  exact not_congr eq_comm

structure DownInv (s : RttDown) (xs : List UInt8) : Prop where
  contains : s.ring.Contains xs
  given : s.given = s.taken ++ xs

theorem DownInv.hostPut {s : RttDown} (h : DownInv s xs) (byte : UInt8) :
    ∃ ys, DownInv (s.hostPut byte) ys := by
  obtain ⟨hcontains, hgiven⟩ := h
  have hfull := hcontains.full_iff
  have hroom := hcontains.room
  unfold RttDown.hostPut
  dsimp only
  split
  next => exact ⟨xs, hcontains, hgiven⟩
  next hspace =>
    have hlt : xs.length + 1 < s.ring.sizeOfBuffer := by
      have hne : xs.length + 1 ≠ s.ring.sizeOfBuffer := fun he => hspace (hfull.mpr he)
      omega
    refine ⟨xs ++ [byte], hcontains.push hlt (fun a x ha hx => ?_) ?_, ?_⟩
    · exact (if_neg ha).trans hx
    · exact if_pos rfl
    · dsimp only
      rw [hgiven, List.append_assoc]

theorem DownInv.step {s : RttDown} (h : DownInv s xs) (a : DownAction) :
    ∃ ys, DownInv (downStep s a) ys := by
  obtain ⟨hcontains, hgiven⟩ := h
  cases a with
  | host byte => exact DownInv.hostPut ⟨hcontains, hgiven⟩ byte
  | read bufferSize =>
    obtain ⟨hbytes, hrest⟩ := read_eq hcontains bufferSize
    refine ⟨xs.drop bufferSize, hrest, ?_⟩
    unfold downStep
    dsimp only
    rw [hgiven, hbytes, List.append_assoc, List.take_append_drop]
  | getKey =>
    obtain ⟨hbytes, hrest, -⟩ := getKey_eq hcontains
    refine ⟨xs.drop 1, hrest, ?_⟩
    unfold downStep
    dsimp only
    rw [hgiven, hbytes, List.append_assoc, List.take_append_drop]

theorem downRun_inv {s : RttDown} (h : DownInv s xs) (as : List DownAction) :
    ∃ ys, DownInv (runFrom downStep s as) ys := by
  induction as generalizing s xs with
  | nil => exact ⟨xs, h⟩
  | cons a as ih =>
    obtain ⟨ys, hys⟩ := h.step a
    exact ih hys

/-- Whatever mix of calls reads them, the target gets the bytes of the host in order: what has been
returned, what the next call returns and what it leaves make up all that was put in; and a key is
announced where one is to be had. -/
theorem rtt_down_in_order (pBuffer : Memory) {sizeOfBuffer : Nat} (flags : Nat)
    (hsize : 0 < sizeOfBuffer) (as : List DownAction) {s : RttDown}
    (hs : runFrom downStep ⟨⟨pBuffer, sizeOfBuffer, 0, 0, flags⟩, [], []⟩ as = s) :
    ∃ waiting, s.given = s.taken ++ waiting ∧
      (∀ bufferSize, (s.ring.read bufferSize).1 = waiting.take bufferSize) ∧
      keyBytes s.ring.getKey.1 = waiting.take 1 ∧
      (s.ring.hasKey = true ↔ s.ring.getKey.1 ≠ -1) := by
  have hstart : DownInv ⟨⟨pBuffer, sizeOfBuffer, 0, 0, flags⟩, [], []⟩ [] := ⟨Segment.nil hsize, rfl⟩
  obtain ⟨waiting, hinv⟩ := downRun_inv hstart as
  rw [hs] at hinv
  obtain ⟨hcontains, hgiven⟩ := hinv
  obtain ⟨hkey, -, hnone⟩ := getKey_eq hcontains
  refine ⟨waiting, hgiven, fun bufferSize => (read_eq hcontains bufferSize).1, hkey, ?_⟩
  rw [hasKey_iff hcontains]
  exact not_congr hnone.symm

theorem rtt_down_in_order_two :
    ∃ waiting, [7, 8] = [7] ++ waiting ∧
      keyBytes (runFrom downStep ⟨⟨fun _ => 0, bufferSizeDown, 0, 0, 0⟩, [], []⟩
        [.host 7, .host 8, .getKey]).ring.getKey.1 = waiting.take 1 := by
  obtain ⟨waiting, hgiven, -, hkey, -⟩ := rtt_down_in_order (fun _ => 0) 0
    (by decide : 0 < bufferSizeDown) [.host 7, .host 8, .getKey] rfl
  exact ⟨waiting, hgiven, hkey⟩

end BleSpeedSensor
