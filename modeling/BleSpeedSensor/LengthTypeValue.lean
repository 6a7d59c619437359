import BleSpeedSensor.ByteMemory

namespace LengthTypeValue

open ByteMemory

/-- One field of a packet; its length byte counts the type and the payload. -/
structure Field where
  type : UInt8
  payload : List UInt8
  deriving DecidableEq, Repr

def Field.bytes (f : Field) : List UInt8 :=
  UInt8.ofNat (f.payload.length + 1) :: f.type :: f.payload

def wire (fs : List Field) : List UInt8 := fs.flatMap Field.bytes

@[simp] theorem Field.bytes_length (f : Field) : f.bytes.length = f.payload.length + 2 := rfl

@[simp] theorem wire_nil : wire [] = [] := rfl

@[simp] theorem wire_cons (f : Field) (fs : List Field) : wire (f :: fs) = f.bytes ++ wire fs := by
  simp [wire]

@[simp] theorem wire_append (fs gs : List Field) : wire (fs ++ gs) = wire fs ++ wire gs := by
  simp [wire]

theorem payload_length_lt_wire {fs : List Field} {f : Field} (hf : f ∈ fs) :
    f.payload.length + 2 ≤ (wire fs).length := by
  obtain ⟨done, rest, rfl⟩ := List.append_of_mem hf
  simp only [wire_append, wire_cons, List.length_append, Field.bytes_length]
  omega

/-- The memory holds these bytes from address 0 on. -/
def Begins (m : Memory) (bs : List UInt8) : Prop := ∀ k (hk : k < bs.length), m k = bs[k]

theorem Begins.append {m : Memory} {bs xs : List UInt8} (h : Begins m bs) :
    Begins (copy m bs.length xs) (bs ++ xs) := by
  intro k hk
  by_cases hb : k < bs.length
  · rw [copy_outside (Or.inl hb), h k hb, List.getElem_append_left hb]
  · simp only [List.length_append] at hk
    obtain ⟨j, rfl⟩ := Nat.exists_eq_add_of_le (Nat.le_of_not_lt hb)
    rw [copy_inside (by omega), List.getElem_append_right (by omega)]
    congr 1
    omega

theorem Begins.right {m : Memory} {bs xs : List UInt8} (h : Begins m (bs ++ xs)) :
    ∀ k (hk : k < xs.length), m (bs.length + k) = xs[k] := by
  intro k hk
  rw [h (bs.length + k) (by simp only [List.length_append]; omega)]
  rw [List.getElem_append_right (by omega)]
  congr 1
  omega

/-- One byte in the middle is replaced. -/
theorem Begins.replace {m : Memory} {bs xs : List UInt8} {old : UInt8} (new : UInt8)
    (h : Begins m (bs ++ old :: xs)) : Begins (copy m bs.length [new]) (bs ++ new :: xs) := by
  intro k hk
  simp only [List.length_append, List.length_cons] at hk
  by_cases hb : k = bs.length
  · subst hb
    have hn : copy m bs.length [new] (bs.length + 0) = [new][0] := copy_inside (by simp)
    simp only [Nat.add_zero, List.getElem_cons_zero] at hn
    rw [hn]
    simp
  · rw [copy_outside (by simp only [List.length_cons, List.length_nil]; omega)]
    rw [h k (by simp only [List.length_append, List.length_cons]; omega)]
    by_cases hlt : k < bs.length
    · rw [List.getElem_append_left hlt, List.getElem_append_left hlt]
    · obtain ⟨j, rfl⟩ := Nat.exists_eq_add_of_lt (show bs.length < k by omega)
      simp [List.getElem_append_right, Nat.add_assoc]

/-- Whatever the byte after the last one is, the memory holds it too. -/
theorem Begins.skip {m : Memory} {bs : List UInt8} (h : Begins m bs) :
    Begins m (bs ++ [m bs.length]) := by
  intro k hk
  simp only [List.length_append, List.length_cons, List.length_nil] at hk
  by_cases hb : k < bs.length
  · rw [h k hb, List.getElem_append_left hb]
  · obtain rfl : k = bs.length := by omega
    simp

section Reading

variable {m : Memory} {done rest : List Field} {f : Field}

theorem Begins.length_byte (h : Begins m (wire (done ++ f :: rest))) :
    m (wire done).length = UInt8.ofNat (f.payload.length + 1) := by
  simp only [wire_append, wire_cons] at h
  simpa [Field.bytes] using h.right 0 (by simp [Field.bytes])

theorem Begins.type_byte (h : Begins m (wire (done ++ f :: rest))) :
    m ((wire done).length + 1) = f.type := by
  simp only [wire_append, wire_cons] at h
  simpa [Field.bytes] using h.right 1 (by simp [Field.bytes])

theorem Begins.payload (h : Begins m (wire (done ++ f :: rest))) (k : Nat)
    (hk : k < f.payload.length) : m ((wire done).length + 2 + k) = f.payload[k] := by
  simp only [wire_append, wire_cons] at h
  have hr := h.right (k + 2)
    (by simp only [List.length_append, Field.bytes_length]; omega)
  rw [List.getElem_append_left (by simp only [Field.bytes_length]; omega)] at hr
  rw [show (wire done).length + 2 + k = (wire done).length + (k + 2) by omega, hr]
  simp [Field.bytes]

end Reading

end LengthTypeValue
