namespace DeltaQueue

/-- Each key counts from the key before it. -/
abbrev Queue (κ : Type) := List (κ × Nat)

variable {κ : Type}

def keys (q : Queue κ) : List κ := q.map Prod.fst

def span : Queue κ → Nat
  | [] => 0
  | (_, gap) :: rest => gap + span rest

/-- The first key counts `n` more, and so does every key behind it. -/
def delay (n : Nat) : Queue κ → Queue κ
  | [] => []
  | (c, gap) :: rest => (c, n + gap) :: rest

def place (k : κ) (d : Nat) : Queue κ → Queue κ
  | [] => [(k, d)]
  | (c, gap) :: rest =>
    if gap < d then (c, gap) :: place k (d - gap) rest else (k, d) :: (c, gap - d) :: rest

def overdue (n : Nat) : Queue κ → List κ
  | [] => []
  | (c, gap) :: rest => if n < gap then [] else c :: overdue (n - gap) rest

def overdueSpan (n : Nat) : Queue κ → Nat
  | [] => 0
  | (_, gap) :: rest => if n < gap then 0 else gap + overdueSpan (n - gap) rest

def advance (n : Nat) : Queue κ → Queue κ
  | [] => []
  | (c, gap) :: rest => if n < gap then (c, gap - n) :: rest else advance (n - gap) rest

@[simp] theorem keys_nil : keys ([] : Queue κ) = [] := rfl

@[simp] theorem keys_cons (c : κ) (gap : Nat) (rest : Queue κ) :
    keys ((c, gap) :: rest) = c :: keys rest := rfl

@[simp] theorem span_nil : span ([] : Queue κ) = 0 := rfl

@[simp] theorem span_cons (c : κ) (gap : Nat) (rest : Queue κ) :
    span ((c, gap) :: rest) = gap + span rest := rfl

@[simp] theorem keys_delay (n : Nat) (q : Queue κ) : keys (delay n q) = keys q := by
  cases q with
  | nil => rfl
  | cons entry rest => rfl

theorem span_delay_le (n : Nat) (q : Queue κ) : span (delay n q) ≤ n + span q := by
  cases q with
  | nil => exact Nat.zero_le _
  | cons entry rest =>
    obtain ⟨c, gap⟩ := entry
    simp only [delay, span_cons]
    omega

theorem keys_place_perm (k : κ) (d : Nat) (q : Queue κ) : (keys (place k d q)).Perm (k :: keys q) := by
  induction q generalizing d with
  | nil => exact List.Perm.refl _
  | cons entry rest ih =>
    obtain ⟨c, gap⟩ := entry
    unfold place
    split
    · exact ((ih (d - gap)).cons c).trans (List.Perm.swap k c (keys rest))
    · exact List.Perm.refl _

/-- The key inserted last is the only one that can count further than the queue did. -/
theorem span_place (k : κ) (d : Nat) (q : Queue κ) : span (place k d q) = max d (span q) := by
  induction q generalizing d with
  | nil => simp [place]
  | cons entry rest ih =>
    obtain ⟨c, gap⟩ := entry
    unfold place
    split
    next hlt =>
      rw [span_cons, ih, span_cons]
      omega
    next hle =>
      simp only [span_cons]
      omega

theorem overdue_append_keys_advance (n : Nat) (q : Queue κ) :
    overdue n q ++ keys (advance n q) = keys q := by
  induction q generalizing n with
  | nil => rfl
  | cons entry rest ih =>
    obtain ⟨c, gap⟩ := entry
    unfold overdue advance
    split
    · rfl
    · rw [List.cons_append, ih, keys_cons]

theorem span_advance_le (n : Nat) (q : Queue κ) : span (advance n q) ≤ span q := by
  induction q generalizing n with
  | nil => exact Nat.le_refl _
  | cons entry rest ih =>
    obtain ⟨c, gap⟩ := entry
    unfold advance
    split
    · simp only [span_cons]
      omega
    · have := ih (n - gap)
      rw [span_cons]
      omega

theorem overdueSpan_le (n : Nat) (q : Queue κ) : overdueSpan n q ≤ n := by
  induction q generalizing n with
  | nil => exact Nat.zero_le _
  | cons entry rest ih =>
    obtain ⟨c, gap⟩ := entry
    unfold overdueSpan
    split
    · exact Nat.zero_le _
    · have := ih (n - gap)
      omega

/-- Letting only the time pass that the overdue keys used expires the same keys. -/
theorem overdue_overdueSpan (n : Nat) (q : Queue κ) : overdue (overdueSpan n q) q = overdue n q := by
  induction q generalizing n with
  | nil => rfl
  | cons entry rest ih =>
    obtain ⟨c, gap⟩ := entry
    by_cases hlt : n < gap
    · simp only [overdueSpan, if_pos hlt, overdue]
      rw [if_pos (by omega)]
    · simp only [overdueSpan, if_neg hlt, overdue]
      rw [if_neg (by omega), Nat.add_sub_cancel_left, ih]

variable [DecidableEq κ]

/-- How far a key counts from the start of the queue. -/
def due : Queue κ → κ → Option Nat
  | [], _ => none
  | (k, gap) :: rest, j => if k = j then some gap else (due rest j).map (gap + ·)

def remove (k : κ) : Queue κ → Queue κ
  | [] => []
  | (c, gap) :: rest => if c = k then delay gap rest else (c, gap) :: remove k rest

variable {k j : κ} {q : Queue κ}

@[simp] theorem due_nil (j : κ) : due [] j = none := rfl

@[simp] theorem due_cons_self (k : κ) (gap : Nat) (rest : Queue κ) :
    due ((k, gap) :: rest) k = some gap := if_pos rfl

theorem due_cons_ne (h : k ≠ j) (gap : Nat) (rest : Queue κ) :
    due ((k, gap) :: rest) j = (due rest j).map (gap + ·) := if_neg h

theorem due_eq_none_iff : due q j = none ↔ j ∉ keys q := by
  induction q with
  | nil => simp
  | cons entry rest ih =>
    obtain ⟨c, gap⟩ := entry
    by_cases hc : c = j
    · subst hc
      simp
    · rw [due_cons_ne hc, Option.map_eq_none_iff, ih, keys_cons, List.mem_cons]
      have hj : j ≠ c := fun he => hc he.symm
      simp [hj]

theorem due_isSome_iff : (due q j).isSome ↔ j ∈ keys q := by
  rw [Option.isSome_iff_ne_none, Ne, due_eq_none_iff, Decidable.not_not]

theorem due_delay (n : Nat) (q : Queue κ) (j : κ) : due (delay n q) j = (due q j).map (n + ·) := by
  cases q with
  | nil => rfl
  | cons entry rest =>
    obtain ⟨c, gap⟩ := entry
    unfold delay
    by_cases hc : c = j
    · subst hc
      simp
    · rw [due_cons_ne hc, due_cons_ne hc, Option.map_map]
      congr 1
      funext d
      exact Nat.add_assoc n gap d

theorem due_place_self (hk : k ∉ keys q) (d : Nat) : due (place k d q) k = some d := by
  induction q generalizing d with
  | nil => exact due_cons_self k d []
  | cons entry rest ih =>
    obtain ⟨c, gap⟩ := entry
    rw [keys_cons, List.mem_cons, not_or] at hk
    unfold place
    split
    next hlt =>
      rw [due_cons_ne (Ne.symm hk.1), ih hk.2, Option.map_some]
      congr 1
      omega
    next => exact due_cons_self k d _

/-- Inserting a key moves no other key. -/
theorem due_place_ne (hj : k ≠ j) (d : Nat) : due (place k d q) j = due q j := by
  induction q generalizing d with
  | nil => rw [place, due_cons_ne hj]; rfl
  | cons entry rest ih =>
    obtain ⟨c, gap⟩ := entry
    unfold place
    split
    next hlt =>
      by_cases hc : c = j
      · subst hc
        simp
      · rw [due_cons_ne hc, due_cons_ne hc, ih]
    next hle =>
      have hgap : d + (gap - d) = gap := by omega
      have hback : delay d ((c, gap - d) :: rest) = (c, gap) :: rest := by rw [delay, hgap]
      rw [due_cons_ne hj, ← hback, due_delay]

theorem keys_remove (k : κ) (q : Queue κ) : keys (remove k q) = (keys q).erase k := by
  induction q with
  | nil => rfl
  | cons entry rest ih =>
    obtain ⟨c, gap⟩ := entry
    unfold remove
    split
    next hc =>
      subst hc
      simp
    next hc =>
      rw [keys_cons, keys_cons, ih, List.erase_cons_tail (by simpa using hc)]

theorem span_remove_le (k : κ) (q : Queue κ) : span (remove k q) ≤ span q := by
  induction q with
  | nil => exact Nat.le_refl _
  | cons entry rest ih =>
    obtain ⟨c, gap⟩ := entry
    unfold remove
    split
    · exact span_delay_le gap rest
    · rw [span_cons, span_cons]
      omega

/-- Removing a key moves no other key. -/
theorem due_remove_ne (hj : k ≠ j) : due (remove k q) j = due q j := by
  induction q with
  | nil => rfl
  | cons entry rest ih =>
    obtain ⟨c, gap⟩ := entry
    unfold remove
    split
    next hc =>
      subst hc
      rw [due_delay, due_cons_ne hj]
    next hc =>
      by_cases hcj : c = j
      · subst hcj
        simp
      · rw [due_cons_ne hcj, due_cons_ne hcj, ih]

theorem due_remove_self (hq : (keys q).Nodup) : due (remove k q) k = none := by
  rw [due_eq_none_iff, keys_remove]
  exact fun hmem => (List.Nodup.mem_erase_iff hq).mp hmem |>.1 rfl

theorem mem_overdue_iff (hq : (keys q).Nodup) {n : Nat} :
    j ∈ overdue n q ↔ ∃ d, due q j = some d ∧ d ≤ n := by
  induction q generalizing n with
  | nil => simp [overdue]
  | cons entry rest ih =>
    obtain ⟨c, gap⟩ := entry
    obtain ⟨hc, hrest⟩ := List.nodup_cons.mp hq
    unfold overdue
    by_cases hcj : c = j
    · subst hcj
      rw [due_cons_self]
      split
      next hlt =>
        constructor
        · intro h
          cases h
        · rintro ⟨d, hd, hle⟩
          cases hd
          omega
      next hle => exact iff_of_true List.mem_cons_self ⟨gap, rfl, by omega⟩
    · rw [due_cons_ne hcj]
      split
      next hlt =>
        constructor
        · intro h
          cases h
        · rintro ⟨d, hd, hle⟩
          obtain ⟨e, _, he⟩ := Option.map_eq_some_iff.mp hd
          omega
      next hle =>
        rw [List.mem_cons, or_iff_right (Ne.symm hcj), ih hrest]
        constructor
        · rintro ⟨d, hd, hle'⟩
          exact ⟨gap + d, by rw [hd, Option.map_some], by omega⟩
        · rintro ⟨d, hd, hle'⟩
          obtain ⟨e, he, hsum⟩ := Option.map_eq_some_iff.mp hd
          exact ⟨e, he, by omega⟩

/-- What is not overdue counts from the new start of the queue. -/
theorem due_advance (hq : (keys q).Nodup) (n : Nat) :
    due (advance n q) j = (due q j).bind fun d => if n < d then some (d - n) else none := by
  induction q generalizing n with
  | nil => rfl
  | cons entry rest ih =>
    obtain ⟨c, gap⟩ := entry
    obtain ⟨hc, hrest⟩ := List.nodup_cons.mp hq
    unfold advance
    by_cases hcj : c = j
    · subst hcj
      rw [due_cons_self, Option.bind_some]
      split
      next hlt => rw [due_cons_self]
      next hle =>
        rw [ih hrest, due_eq_none_iff.mpr hc]
        rfl
    · rw [due_cons_ne hcj]
      split
      next hlt =>
        rw [due_cons_ne hcj]
        cases hd : due rest j with
        | none => rfl
        | some d =>
          simp only [Option.map_some, Option.bind_some]
          rw [if_pos (by omega)]
          congr 1
          omega
      next hle =>
        rw [ih hrest]
        cases hd : due rest j with
        | none => rfl
        | some d =>
          simp only [Option.map_some, Option.bind_some]
          by_cases hlt : n - gap < d
          · rw [if_pos hlt, if_pos (by omega)]
            congr 1
            omega
          · rw [if_neg hlt, if_neg (by omega)]

/-- Keys expire in the order they are due. -/
theorem overdue_pairwise (hq : (keys q).Nodup) (n : Nat) :
    (overdue n q).Pairwise fun i j => ∀ d e, due q i = some d → due q j = some e → d ≤ e := by
  induction q generalizing n with
  | nil => exact List.Pairwise.nil
  | cons entry rest ih =>
    obtain ⟨c, gap⟩ := entry
    obtain ⟨hc, hrest⟩ := List.nodup_cons.mp hq
    have hsub : ∀ m i, i ∈ overdue m rest → i ∈ keys rest := by
      intro m i hi
      rw [← overdue_append_keys_advance m rest]
      exact List.mem_append_left _ hi
    unfold overdue
    split
    · exact List.Pairwise.nil
    · refine List.Pairwise.cons ?_ (List.Pairwise.imp_of_mem ?_ (ih hrest (n - gap)))
      · intro i hi d e hd he
        have hne : c ≠ i := fun heq => hc (heq ▸ hsub _ i hi)
        rw [due_cons_self] at hd
        rw [due_cons_ne hne] at he
        obtain ⟨e', _, hsum⟩ := Option.map_eq_some_iff.mp he
        cases hd
        omega
      · intro i i' hi hi' hle d e hd he
        have hne : c ≠ i := fun heq => hc (heq ▸ hsub _ i hi)
        have hne' : c ≠ i' := fun heq => hc (heq ▸ hsub _ i' hi')
        rw [due_cons_ne hne] at hd
        rw [due_cons_ne hne'] at he
        obtain ⟨d', hd', hsum⟩ := Option.map_eq_some_iff.mp hd
        obtain ⟨e', he', hsum'⟩ := Option.map_eq_some_iff.mp he
        have := hle d' e' hd' he'
        omega

end DeltaQueue
