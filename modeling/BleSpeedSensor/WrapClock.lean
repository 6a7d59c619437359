namespace WrapClock

/-- What a free-running counter of period `w` shows at the true time `t`. -/
def sample (w t : Nat) : Nat := t % w

def apart (a b : Nat) : Nat := (a - b) + (b - a)

theorem apart_comm (a b : Nat) : apart a b = apart b a := Nat.add_comm _ _

theorem apart_eq_zero_iff {a b : Nat} : apart a b = 0 ↔ a = b := by
  unfold apart
  omega

theorem sample_lt {w : Nat} (hw : 0 < w) (t : Nat) : sample w t < w := Nat.mod_lt t hw

/-- Two samples of one period of the counter are as far apart as their times. -/
theorem apart_of_same_period {w t₀ t : Nat} (h : t₀ ≤ t) (same : t / w = t₀ / w) :
    apart (sample w t) (sample w t₀) = t - t₀ := by
  have h₀ := Nat.div_add_mod t₀ w
  have h₁ := Nat.div_add_mod t w
  rw [same] at h₁
  unfold apart sample
  omega

theorem period_le_of_later_period {w t₀ t : Nat} (later : t₀ / w < t / w) :
    w ≤ (t - t₀) + apart (sample w t) (sample w t₀) := by
  have h₀ := Nat.div_add_mod t₀ w
  have h₁ := Nat.div_add_mod t w
  have hp : w * (t₀ / w) + w ≤ w * (t / w) := Nat.mul_le_mul_left w later
  unfold apart sample
  omega

/-- Less than a period later, but in the next one, the samples are as far apart as the rest of it. -/
theorem apart_of_later_period {w t₀ t : Nat} (later : t₀ / w < t / w) (near : t < t₀ + w) :
    apart (sample w t) (sample w t₀) + (t - t₀) = w := by
  have h₀ := Nat.div_add_mod t₀ w
  have h₁ := Nat.div_add_mod t w
  have hpos : 0 < w := by
    refine Nat.pos_of_ne_zero fun hz => ?_
    rw [hz, Nat.div_zero, Nat.div_zero] at later
    exact Nat.lt_irrefl 0 later
  have hnext : t / w = t₀ / w + 1 := by
    have hle : t / w ≤ (t₀ + w) / w := Nat.div_le_div_right (Nat.le_of_lt near)
    rw [Nat.add_div_right t₀ hpos] at hle
    omega
  have hmul : w * (t / w) = w * (t₀ / w) + w := by
    rw [hnext]
    exact Nat.mul_succ w (t₀ / w)
  have hlt := Nat.mod_lt t₀ hpos
  have hlt' := Nat.mod_lt t hpos
  unfold apart sample
  omega

theorem same_or_later_period {w t₀ t : Nat} (h : t₀ ≤ t) : t / w = t₀ / w ∨ t₀ / w < t / w := by
  have : t₀ / w ≤ t / w := Nat.div_le_div_right h
  omega

section Near

variable {w t₀ t : Nat}

/-- Less than a period apart, the samples tell the time between exactly within one period of the
counter, or half a period apart. -/
theorem apart_eq_elapsed_iff (h : t₀ ≤ t) (near : t < t₀ + w) :
    apart (sample w t) (sample w t₀) = t - t₀ ↔ t / w = t₀ / w ∨ 2 * (t - t₀) = w := by
  rcases same_or_later_period (w := w) h with same | later
  · exact iff_of_true (apart_of_same_period h same) (Or.inl same)
  · have hrest := apart_of_later_period later near
    constructor
    · intro heq
      right
      omega
    · intro hor
      have hhalf := hor.resolve_left (Nat.ne_of_gt later)
      omega

/-- They tell whether `n` ticks have passed unless the counter wrapped within `n` ticks of either. -/
theorem le_apart_iff_elapsed {n : Nat} (h : t₀ ≤ t) (near : t < t₀ + w) (hn : 2 * n ≤ w) :
    (n ≤ apart (sample w t) (sample w t₀) ↔ n ≤ t - t₀) ↔
      t / w = t₀ / w ∨ n ≤ t - t₀ ∧ (t - t₀) + n ≤ w := by
  rcases same_or_later_period (w := w) h with same | later
  · rw [apart_of_same_period h same]
    exact iff_of_true Iff.rfl (Or.inl same)
  · have hrest := apart_of_later_period later near
    have hne := Nat.ne_of_gt later
    constructor
    · intro hiff
      right
      omega
    · intro hor
      have hmiddle := hor.resolve_left hne
      omega

end Near

end WrapClock
