import Mathlib.Data.Nat.Digits.Lemmas

namespace DigitText

variable {b k n v : Nat}

/-- The digits of a number, the most significant first, at least `n` of them and at least one. -/
def digitText (b n v : Nat) : List Nat := (Nat.digitsAppend b (max n 1) v).reverse

/-- Digits from the weight `b ^ (k - 1)` down, each divided out of what the ones before it leave. -/
def peel (b : Nat) : Nat → Nat → List Nat
  | 0, _ => []
  | k + 1, v => v / b ^ k :: peel b k (v % b ^ k)

theorem length_peel : (peel b k v).length = k := by
  induction k generalizing v with
  | zero => rfl
  | succ k ih => exact congrArg (· + 1) ih

theorem peel_lt (hb : 1 < b) (hv : v < b ^ k) : ∀ d ∈ peel b k v, d < b := by
  induction k generalizing v with
  | zero =>
    intro d hd
    cases hd
  | succ k ih =>
    have hpos : 0 < b ^ k := Nat.pow_pos (Nat.zero_lt_of_lt hb)
    intro d hd
    obtain rfl | hd := List.mem_cons.mp hd
    · rw [Nat.div_lt_iff_lt_mul hpos, Nat.mul_comm, ← Nat.pow_succ]
      exact hv
    · exact ih (Nat.mod_lt v hpos) d hd

theorem ofDigits_peel (hv : v < b ^ k) : Nat.ofDigits b (peel b k v).reverse = v := by
  induction k generalizing v with
  | zero => exact (Nat.lt_one_iff.mp hv).symm
  | succ k ih =>
    rcases Nat.eq_zero_or_pos (b ^ k) with hzero | hpos
    · rw [Nat.pow_succ, hzero, Nat.zero_mul] at hv
      exact absurd hv (Nat.not_lt_zero v)
    · rw [peel, Nat.ofDigits_reverse_cons, length_peel, ih (Nat.mod_lt v hpos), Nat.add_comm]
      exact Nat.div_add_mod v (b ^ k)

/-- Divided out one after the other, the digits are those of the number. -/
theorem peel_eq (hb : 1 < b) (hv : v < b ^ k) : peel b k v = (Nat.digitsAppend b k v).reverse := by
  rw [← List.reverse_eq_iff]
  apply Nat.ofDigits_inj_of_len_eq hb
  · rw [List.length_reverse, length_peel, Nat.length_digitsAppend hb k hv]
  · exact fun d hd => peel_lt hb hv d (List.mem_reverse.mp hd)
  · exact fun d hd => Nat.lt_of_mem_digitsAppend hb k d hd
  · rw [ofDigits_peel hv, Nat.digitsAppend, Nat.ofDigits_append_replicate_zero, Nat.ofDigits_digits]

theorem length_digitText : (digitText b n v).length = max (max n 1) (Nat.digits b v).length := by
  rw [digitText, List.length_reverse, Nat.digitsAppend, List.length_append, List.length_replicate]
  omega

/-- With as many places as are needed nothing is added in front. -/
theorem digitText_eq_peel (hb : 1 < b) (hk : k = max (max n 1) (Nat.digits b v).length) :
    digitText b n v = peel b k v := by
  have hv : v < b ^ k := (Nat.digits_length_le_iff hb v).mp (by omega)
  rw [peel_eq hb hv, digitText, Nat.digitsAppend, Nat.digitsAppend]
  have hzeros : max n 1 - (Nat.digits b v).length = k - (Nat.digits b v).length := by omega
  rw [hzeros]

theorem digits_length_of_le (hb : 1 < b) (h : b ≤ v) :
    (Nat.digits b v).length = (Nat.digits b (v / b)).length + 1 := by
  rw [Nat.digits_def' hb (by omega)]
  rfl

theorem digits_length_of_lt (hb : 1 < b) (h : v < b) : max 1 (Nat.digits b v).length = 1 := by
  have hle : (Nat.digits b v).length ≤ 1 := (Nat.digits_length_le_iff hb v).mpr (by rwa [pow_one])
  omega

/-- The number of digits: a quotient by a power is below the base from the last digit on. -/
theorem base_le_div_iff (hb : 1 < b) : b ≤ v / b ^ k ↔ k + 1 < (Nat.digits b v).length := by
  have hpos : 0 < b ^ k := Nat.pow_pos (Nat.zero_lt_of_lt hb)
  rw [Nat.le_div_iff_mul_le hpos, Nat.lt_digits_length_iff hb, Nat.pow_succ, Nat.mul_comm]

end DigitText
