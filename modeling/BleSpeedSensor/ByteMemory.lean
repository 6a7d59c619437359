namespace ByteMemory

abbrev Memory := Nat → UInt8

def copy (m : Memory) (dst : Nat) (bytes : List UInt8) : Memory :=
  fun a => if dst ≤ a ∧ a < dst + bytes.length then bytes.getD (a - dst) 0 else m a

/-- The four bytes of a word, least significant first. -/
def le32 (w : UInt32) : List UInt8 :=
  [UInt8.ofNat (w.toNat % 256), UInt8.ofNat (w.toNat / 256 % 256),
    UInt8.ofNat (w.toNat / 65536 % 256), UInt8.ofNat (w.toNat / 16777216 % 256)]

def load32 (m : Memory) (a : Nat) : UInt32 :=
  UInt32.ofNat ((m a).toNat + (m (a + 1)).toNat * 256 + (m (a + 2)).toNat * 65536 +
    (m (a + 3)).toNat * 16777216)

@[simp] theorem le32_length (w : UInt32) : (le32 w).length = 4 := rfl

theorem copy_inside {m : Memory} {dst k : Nat} {bytes : List UInt8} (h : k < bytes.length) :
    copy m dst bytes (dst + k) = bytes[k] := by
  simp [copy, h]

theorem copy_outside {m : Memory} {dst a : Nat} {bytes : List UInt8}
    (h : a < dst ∨ dst + bytes.length ≤ a) : copy m dst bytes a = m a := by
  unfold copy
  rw [if_neg (by omega)]

theorem load32_congr {m m' : Memory} {a : Nat} (h : ∀ k, k < 4 → m (a + k) = m' (a + k)) :
    load32 m a = load32 m' a := by
  have h0 := h 0 (by omega)
  have h1 := h 1 (by omega)
  have h2 := h 2 (by omega)
  have h3 := h 3 (by omega)
  simp only [Nat.add_zero] at h0
  simp only [load32, h0, h1, h2, h3]

theorem load32_of_bytes {m : Memory} {a : Nat} {w : UInt32}
    (h : ∀ k (hk : k < 4), m (a + k) = (le32 w)[k]) : load32 m a = w := by
  have h0 := h 0 (by omega)
  have h1 := h 1 (by omega)
  have h2 := h 2 (by omega)
  have h3 := h 3 (by omega)
  simp only [Nat.add_zero, le32, List.getElem_cons_zero, List.getElem_cons_succ] at h0 h1 h2 h3
  have hw := w.toNat_lt
  apply UInt32.toNat_inj.mp
  simp only [load32, h0, h1, h2, h3, UInt8.toNat_ofNat', UInt32.toNat_ofNat']
  omega

theorem load32_copy {m : Memory} {dst : Nat} (off : Nat) {bytes : List UInt8} {w : UInt32}
    (h : ∀ k (hk : k < 4), bytes[off + k]? = some (le32 w)[k]) :
    load32 (copy m dst bytes) (dst + off) = w := by
  apply load32_of_bytes
  intro k hk
  obtain ⟨hl, he⟩ := List.getElem?_eq_some_iff.mp (h k hk)
  rw [Nat.add_assoc, copy_inside hl, he]

theorem load32_copy_outside {m : Memory} {dst a : Nat} {bytes : List UInt8}
    (h : a + 4 ≤ dst ∨ dst + bytes.length ≤ a) : load32 (copy m dst bytes) a = load32 m a := by
  apply load32_congr
  intro k hk
  exact copy_outside (by omega)

end ByteMemory
