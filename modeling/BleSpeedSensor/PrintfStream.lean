import BleSpeedSensor.PrintfRuns
import BleSpeedSensor.RttStream

namespace BleSpeedSensor

open RunSystem ByteMemory

/-- The calls of `SEGGER_RTT_Write` answer with the number of bytes each of them has stored. -/
def answers (calls : List WriteCall) : RttSink := fun before _ =>
  (calls[before.length]?.map WriteCall.numBytesWritten).getD 0

section Stream

variable {calls : List WriteCall} {call : WriteCall} {text : List UInt8} {p : PrintfDesc}

theorem answers_at {before after : List WriteCall} (b : List UInt8) :
    answers (before ++ call :: after) (before.map WriteCall.pBuffer) b = call.numBytesWritten := by
  unfold answers
  rw [List.length_map, List.getElem?_append_right (Nat.le_refl _), Nat.sub_self]
  rfl

theorem WriteCall.stored_all (h : call.numBytesWritten = call.pBuffer.length) :
    call.stored = call.pBuffer := by
  rw [WriteCall.stored, h, List.take_length]

/-- Calls that took their blocks have stored the blocks. -/
theorem stored_of_accepted {taken later : List WriteCall}
    (h : Accepted (answers (taken ++ later)) (taken.map WriteCall.pBuffer)) :
    taken.flatMap WriteCall.stored = (taken.map WriteCall.pBuffer).flatten := by
  rw [List.flatMap_def]
  congr 1
  apply List.map_congr_left
  intro call hcall
  obtain ⟨before, after, rfl⟩ := List.append_of_mem hcall
  have hall := h (before.map WriteCall.pBuffer) call.pBuffer (after.map WriteCall.pBuffer)
    (by rw [List.map_append, List.map_cons])
  rw [List.append_assoc, List.cons_append, answers_at] at hall
  exact WriteCall.stored_all hall

theorem take_all_but (xs ys : List UInt8) (n : Nat) :
    (xs ++ ys).take ((xs ++ ys).length - (ys.length - n)) = xs ++ ys.take n := by
  rw [List.take_append, List.length_append, List.take_of_length_le (by omega)]
  congr 1
  rw [List.take_eq_take_iff]
  omega

/-- What the calls of a whole text have stored of it: all but what the last one left out. -/
theorem Emitted.stored (h : Emitted (answers calls) text p)
    (hcalls : calls.map WriteCall.pBuffer =
      if p.buffer ≠ [] then p.written ++ [p.buffer] else p.written) :
    calls.flatMap WriteCall.stored = text ∨
      ∃ call ∈ calls, call.pBuffer.length = text.length % 64 ∧ calls.flatMap WriteCall.stored =
        text.take (text.length - (call.pBuffer.length - call.numBytesWritten)) := by
  have hstream := h.stream
  have haccepted := h.accepted
  split at hcalls
  next hrest =>
    obtain ⟨taken, last, rfl, htaken, hlast⟩ := List.map_eq_append_iff.mp hcalls
    obtain ⟨call, rfl, hcall⟩ := List.map_eq_singleton_iff.mp hlast
    rw [← htaken] at haccepted hstream
    rw [← hcall] at hstream
    refine Or.inr ⟨call, List.mem_append_right _ List.mem_cons_self, ?_, ?_⟩
    · rw [hcall]
      exact h.rest_length
    · have hflat : (taken ++ [call]).flatMap WriteCall.stored =
          (taken.map WriteCall.pBuffer).flatten ++ call.pBuffer.take call.numBytesWritten := by
        rw [List.flatMap_append, stored_of_accepted haccepted]
        simp [WriteCall.stored]
      rw [hflat, ← hstream]
      exact (take_all_but _ _ _).symm
  next hempty =>
    have hnil : p.buffer = [] := Decidable.not_not.mp hempty
    rw [hnil, List.append_nil, ← hcalls] at hstream
    have hall : Accepted (answers (calls ++ [])) (calls.map WriteCall.pBuffer) := by
      rw [List.append_nil, hcalls]
      exact haccepted
    exact Or.inl ((stored_of_accepted hall).trans hstream)

/-- A call in the blocking mode takes its whole block. -/
theorem answers_block {before after : List WriteCall}
    (hkept : call.Kept ∧ call.numBytesWritten = call.numBytes)
    (hblock : call.mode = seggerRttModeBlockIfFifoFull) :
    answers (before ++ call :: after) (before.map WriteCall.pBuffer) call.pBuffer =
      call.pBuffer.length := by
  rw [answers_at, hkept.2]
  exact hkept.1.block hblock

variable {s s' : RttUp} {xs : List UInt8} {args rest : List PrintfArg} {result : Int}

/-- Whatever the host does meanwhile, a call that succeeds puts its text into the stream less at most
the last block, which is taken as a whole or not at all in the mode that skips. In the blocking mode
every call succeeds and nothing is left out. -/
theorem seggerRttVprintf_stream (pBuffer : Memory) {sizeOfBuffer : Nat} (flags : Nat)
    (hsize : 0 < sizeOfBuffer) {as during : List RttAction}
    (hsound : EveryStep rttStep HostSound (rttUpInit pBuffer sizeOfBuffer flags) (as ++ during))
    (hs : runFrom rttStep (rttUpInit pBuffer sizeOfBuffer flags) as = s)
    (hs' : runFrom rttStep s during = s') (hidle : s.pc = .idle) (hidle' : s'.pc = .idle)
    (hreturned : s'.returned = s.returned ++ calls) {items : List FormatItem}
    (hint : text.length + text.length % 64 < 2147483648)
    (htext : printedText items args = some (text, rest))
    (hprintf : seggerRttVprintf (answers calls) (renderFormat items) args =
      .ok (result, calls.map WriteCall.pBuffer)) :
    result < 2147483648 ∧
      ((∀ call ∈ calls, call.mode = seggerRttModeBlockIfFifoFull) → 0 ≤ result) ∧
      (0 ≤ result → ∃ lost, lost ≤ text.length % 64 ∧
        s'.sent = s.sent ++ text.take (text.length - lost) ∧
        s'.received ++ s'.inHand <+: s'.sent ∧
        ((∀ call ∈ calls, call.mode = seggerRttModeBlockIfFifoFull) → lost = 0) ∧
        ((∀ call ∈ calls, call.mode = seggerRttModeNoBlockSkip) →
          lost = 0 ∨ lost = text.length % 64)) := by
  obtain ⟨ys, hinv⟩ := rttRun_inv (rttUpInit_inv pBuffer flags hsize) hsound
  rw [runFrom_append, hs, hs'] at hinv
  have hkept : ∀ call ∈ calls, call.Kept ∧ call.numBytesWritten = call.numBytes :=
    fun call hcall => hinv.returned call (hreturned ▸ List.mem_append_right _ hcall)
  have hsent : s'.sent = s.sent ++ calls.flatMap WriteCall.stored := by
    unfold RttUp.sent
    rw [hidle, hidle', hreturned]
    simp [WritePc.stored]
  have hreceived : s'.received ++ s'.inHand <+: s'.sent := by
    rw [hinv.sent]
    exact (List.prefix_append_right_inj s'.received).mpr hinv.inHand
  obtain ⟨q, hemitted, hq⟩ | ⟨_, _, before, b, hq, hneg, hrefused, -, hblocks⟩ :=
    @seggerRttVprintf_cases (answers calls) args rest text items htext
  · obtain ⟨rfl, hcalls⟩ := Prod.mk.inj (Except.ok.inj (hprintf.symm.trans hq))
    have hcount := hemitted.count
    have hlength := hemitted.rest_length
    refine ⟨by omega, fun _ => by omega, fun _ => ?_⟩
    rcases hemitted.stored hcalls with hall | ⟨call, hcall, hlast, hstored⟩
    · refine ⟨0, Nat.zero_le _, ?_, hreceived, fun _ => rfl, fun _ => Or.inl rfl⟩
      rw [hsent, hall, Nat.sub_zero, List.take_length]
    · obtain ⟨hcallKept, hwritten⟩ := hkept call hcall
      refine ⟨call.pBuffer.length - call.numBytesWritten, by omega, ?_, hreceived, fun hmode => ?_,
        fun hmode => ?_⟩
      · rw [hsent, hstored]
      · have hfull := hcallKept.block (hmode call hcall)
        omega
      · have hwhole := hcallKept.skip (hmode call hcall)
        omega
  · obtain ⟨rfl, rfl⟩ := Prod.mk.inj (Except.ok.inj (hprintf.symm.trans hq))
    refine ⟨by omega, fun hmode => ?_, fun hpos => absurd hneg (Int.not_lt.mpr hpos)⟩
    obtain ⟨more, hmore⟩ : ∃ more, calls.map WriteCall.pBuffer = before ++ b :: more := by
      rcases hblocks with hone | htwo
      · exact ⟨[], hone⟩
      · exact ⟨[b], htwo⟩
    obtain ⟨start, left, rfl, rfl, hleft⟩ := List.map_eq_append_iff.mp hmore
    obtain ⟨call, after, rfl, rfl, -⟩ := List.map_eq_cons_iff.mp hleft
    have hcall : call ∈ start ++ call :: after := List.mem_append_right _ List.mem_cons_self
    exact absurd (answers_block (hkept call hcall) (hmode call hcall)) hrefused.refused

/-- An earlier call, of which the host has taken a byte. -/
def writtenBefore : List RttAction := [.write [60, 62], .turn, .turn, .turn, .hostCopy 1, .hostAck]

/-- A text of 70 bytes through a buffer of 48, with the host at work between its steps. -/
def writtenBlocks : List RttAction :=
  [.write (List.replicate 64 65), .turn, .turn, .hostCopy 8, .turn, .turn, .hostAck, .hostCopy 30,
    .turn, .hostAck, .turn, .turn, .turn, .turn, .turn, .turn, .turn, .turn, .hostCopy 9,
    .write (List.replicate 6 65), .turn, .turn, .turn]

def blockCalls : List WriteCall :=
  [⟨2, List.replicate 64 65, 64, 64⟩, ⟨2, List.replicate 6 65, 6, 6⟩]

def blockingBuffer : RttUp := rttUpInit (fun _ => 0) 48 seggerRttModeBlockIfFifoFull

theorem seggerRttVprintf_stream_blocks :
    (runFrom rttStep blockingBuffer (writtenBefore ++ writtenBlocks)).sent =
      (runFrom rttStep blockingBuffer writtenBefore).sent ++ List.replicate 70 65 := by
  have hsound : EveryStep rttStep HostSound blockingBuffer (writtenBefore ++ writtenBlocks) := by
    refine ⟨trivial, trivial, trivial, trivial, ?_, trivial, trivial, trivial, trivial, ?_, trivial,
      trivial, trivial, ?_, trivial, trivial, trivial, trivial, trivial, trivial, trivial, trivial,
      trivial, trivial, ?_, trivial, trivial, trivial, trivial, trivial⟩
    all_goals
      show ¬(_ ∧ _)
      decide
  have hprintf : seggerRttVprintf (answers blockCalls)
      (renderFormat [.conversion ⟨[], [], none, .s, by decide⟩]) [.string (List.replicate 70 65)] =
        .ok (76, blockCalls.map WriteCall.pBuffer) := by
    have hdirective : directive [115] = (⟨⟨false, false, false, false⟩, 0, 0, 115⟩, some []) := rfl
    unfold seggerRttVprintf
    show (vprintfLoop _ (charPercent :: [115]) _ _).map _ = _
    rw [vprintfLoop_directive hdirective]
    simp only [Option.elim, vprintfLoop_nil, ite_self]
    rfl
  have hstream := @seggerRttVprintf_stream blockCalls (List.replicate 70 65) _ _
    [.string (List.replicate 70 65)] [] 76 (fun _ => 0) 48 2 (by decide) writtenBefore writtenBlocks
    hsound rfl rfl rfl rfl rfl [.conversion ⟨[], [], none, .s, by decide⟩] (by decide) rfl hprintf
  obtain ⟨-, -, hsucceeds⟩ := hstream
  obtain ⟨lost, -, hsent, -, hblocking, -⟩ := hsucceeds (by decide)
  rw [hblocking (by simp [blockCalls, seggerRttModeBlockIfFifoFull])] at hsent
  rw [runFrom_append]
  exact hsent

end Stream

end BleSpeedSensor
