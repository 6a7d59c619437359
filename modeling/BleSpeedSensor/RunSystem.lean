namespace RunSystem

section Total

variable {σ α : Type}

def runFrom (step : σ → α → σ) (s : σ) (as : List α) : σ := as.foldl step s

/-- Every action of the run meets `P` in the state it is taken from. -/
def EveryStep (step : σ → α → σ) (P : σ → α → Prop) : σ → List α → Prop
  | _, [] => True
  | s, a :: as => P s a ∧ EveryStep step P (step s a) as

@[simp] theorem runFrom_nil (step : σ → α → σ) (s : σ) : runFrom step s [] = s := rfl

@[simp] theorem runFrom_cons (step : σ → α → σ) (s : σ) (a : α) (as : List α) :
    runFrom step s (a :: as) = runFrom step (step s a) as := rfl

theorem runFrom_append (step : σ → α → σ) (s : σ) (as bs : List α) :
    runFrom step s (as ++ bs) = runFrom step (runFrom step s as) bs :=
  List.foldl_append

@[simp] theorem everyStep_nil (step : σ → α → σ) (P : σ → α → Prop) (s : σ) :
    EveryStep step P s [] := trivial

@[simp] theorem everyStep_cons {step : σ → α → σ} {P : σ → α → Prop} {s : σ} {a : α} {as : List α} :
    EveryStep step P s (a :: as) ↔ P s a ∧ EveryStep step P (step s a) as := Iff.rfl

theorem everyStep_append {step : σ → α → σ} {P : σ → α → Prop} {s : σ} {as bs : List α} :
    EveryStep step P s (as ++ bs) ↔
      EveryStep step P s as ∧ EveryStep step P (runFrom step s as) bs := by
  induction as generalizing s with
  | nil => simp
  | cons a as ih => simp only [List.cons_append, everyStep_cons, ih, runFrom_cons, and_assoc]

/-- Two step properties that agree wherever the invariant holds agree on every run;
the invariant may look at the actions still to come. -/
theorem everyStep_congr_ahead {step : σ → α → σ} {P Q : σ → α → Prop} {Inv : σ → List α → Prop}
    {s : σ} {as : List α} (start : Inv s as)
    (keep : ∀ s a as, Inv s (a :: as) → Inv (step s a) as)
    (agree : ∀ s a as, Inv s (a :: as) → (P s a ↔ Q s a)) :
    EveryStep step P s as ↔ EveryStep step Q s as := by
  induction as generalizing s with
  | nil => exact Iff.rfl
  | cons a as ih => exact and_congr (agree s a as start) (ih (keep s a as start))

theorem everyStep_congr {step : σ → α → σ} {P Q : σ → α → Prop} {Inv : σ → Prop} {s : σ}
    (start : Inv s) (keep : ∀ s a, Inv s → Inv (step s a))
    (agree : ∀ s a, Inv s → (P s a ↔ Q s a)) (as : List α) :
    EveryStep step P s as ↔ EveryStep step Q s as :=
  @everyStep_congr_ahead σ α step P Q (fun s _ => Inv s) s as start (fun s a _ => keep s a)
    fun s a _ => agree s a

/-- A run seen through a map that commutes with the steps. -/
theorem everyStep_comap {τ : Type} {step : σ → α → σ} {step' : τ → α → τ} {P : σ → α → Prop}
    {f : τ → σ} (commutes : ∀ t a, f (step' t a) = step (f t) a) (t : τ) (as : List α) :
    EveryStep step P (f t) as ↔ EveryStep step' (fun t a => P (f t) a) t as := by
  induction as generalizing t with
  | nil => exact Iff.rfl
  | cons a as ih =>
    rw [everyStep_cons, everyStep_cons, ← commutes]
    exact and_congr Iff.rfl (ih (step' t a))

theorem everyStep_map {β : Type} {step : σ → α → σ} {P : σ → α → Prop} (g : β → α) (s : σ)
    (bs : List β) : EveryStep step P s (bs.map g) ↔
      EveryStep (fun s b => step s (g b)) (fun s b => P s (g b)) s bs := by
  induction bs generalizing s with
  | nil => exact Iff.rfl
  | cons b bs ih => exact and_congr Iff.rfl (ih (step s (g b)))

end Total

section Halting

variable {ε σ α : Type}

/-- A step that may halt the machine; nothing happens after a halt. -/
def haltStep (step : σ → α → Except ε σ) (m : Except ε σ) (a : α) : Except ε σ :=
  m.bind fun s => step s a

def WhileRunning (P : σ → α → Prop) : Except ε σ → α → Prop
  | .ok s, a => P s a
  | .error _, _ => True

def runHalting (step : σ → α → Except ε σ) (s : σ) (as : List α) : Except ε σ :=
  runFrom (haltStep step) (.ok s) as

/-- Every action taken before a halt meets `P`. -/
def EveryLiveStep (step : σ → α → Except ε σ) (P : σ → α → Prop) (s : σ) (as : List α) : Prop :=
  EveryStep (haltStep step) (WhileRunning P) (.ok s) as

@[simp] theorem haltStep_ok (step : σ → α → Except ε σ) (s : σ) (a : α) :
    haltStep step (.ok s) a = step s a := rfl

@[simp] theorem haltStep_error (step : σ → α → Except ε σ) (e : ε) (a : α) :
    haltStep step (.error e) a = .error e := rfl

@[simp] theorem runFrom_haltStep_error (step : σ → α → Except ε σ) (e : ε) (as : List α) :
    runFrom (haltStep step) (.error e) as = .error e := by
  induction as with
  | nil => rfl
  | cons a as ih => exact ih

theorem everyStep_haltStep_error (step : σ → α → Except ε σ) (P : σ → α → Prop) (e : ε)
    (as : List α) : EveryStep (haltStep step) (WhileRunning P) (.error e) as := by
  induction as with
  | nil => trivial
  | cons a as ih => exact ⟨trivial, ih⟩

@[simp] theorem runHalting_nil (step : σ → α → Except ε σ) (s : σ) :
    runHalting step s [] = .ok s := rfl

theorem runHalting_cons (step : σ → α → Except ε σ) (s : σ) (a : α) (as : List α) :
    runHalting step s (a :: as) = (step s a).bind fun t => runHalting step t as := by
  unfold runHalting
  rw [runFrom_cons, haltStep_ok]
  cases step s a with
  | ok t => rfl
  | error e => exact runFrom_haltStep_error step e as

theorem runHalting_append {step : σ → α → Except ε σ} {s t : σ} {as : List α}
    (run : runHalting step s as = .ok t) (bs : List α) :
    runHalting step s (as ++ bs) = runHalting step t bs := by
  unfold runHalting at run ⊢
  rw [runFrom_append, run]

theorem runHalting_append_error {step : σ → α → Except ε σ} {s : σ} {e : ε} {as : List α}
    (run : runHalting step s as = .error e) (bs : List α) :
    runHalting step s (as ++ bs) = .error e := by
  unfold runHalting at run ⊢
  rw [runFrom_append, run]
  exact runFrom_haltStep_error step e bs

theorem everyLiveStep_cons {step : σ → α → Except ε σ} {P : σ → α → Prop} {s : σ} {a : α}
    {as : List α} : EveryLiveStep step P s (a :: as) ↔
      P s a ∧ ∀ t, step s a = .ok t → EveryLiveStep step P t as := by
  unfold EveryLiveStep
  rw [everyStep_cons, haltStep_ok]
  refine and_congr Iff.rfl ?_
  cases hs : step s a with
  | ok t => exact ⟨fun h u hu => Except.ok.inj hu ▸ h, fun h => h t rfl⟩
  | error e => exact ⟨fun _ u hu => by simp at hu, fun _ => everyStep_haltStep_error step P e as⟩

theorem runHalting_invariant {step : σ → α → Except ε σ} {P : σ → α → Prop} {Inv : σ → Prop}
    {s t : σ} {as : List α} (start : Inv s)
    (keep : ∀ s a t, Inv s → P s a → step s a = .ok t → Inv t)
    (every : EveryLiveStep step P s as) (run : runHalting step s as = .ok t) : Inv t := by
  induction as generalizing s with
  | nil => exact Except.ok.inj run ▸ start
  | cons a as ih =>
    obtain ⟨hp, rest⟩ := everyLiveStep_cons.mp every
    rw [runHalting_cons] at run
    cases hs : step s a with
    | error e =>
      rw [hs] at run
      cases run
    | ok u =>
      rw [hs] at run
      exact ih (keep s a u start hp hs) (rest u hs) run

/-- Where the invariant holds `Q` gives `P`, and the steps that meet `Q` keep the invariant. -/
theorem EveryLiveStep.mono {step : σ → α → Except ε σ} {P Q : σ → α → Prop} {Inv : σ → Prop} {s : σ}
    {as : List α} (every : EveryLiveStep step Q s as) (start : Inv s)
    (keep : ∀ s a t, Inv s → Q s a → step s a = .ok t → Inv t)
    (imp : ∀ s a, Inv s → Q s a → P s a) : EveryLiveStep step P s as := by
  induction as generalizing s with
  | nil => trivial
  | cons a as ih =>
    obtain ⟨hq, rest⟩ := everyLiveStep_cons.mp every
    exact everyLiveStep_cons.mpr
      ⟨imp s a start hq, fun t ht => ih (rest t ht) (keep s a t start hq ht)⟩

/-- Two step properties that agree wherever the invariant holds agree on every run,
the invariant being kept by the steps that meet them. -/
theorem everyLiveStep_congr {step : σ → α → Except ε σ} {P Q : σ → α → Prop} {Inv : σ → Prop} {s : σ}
    (start : Inv s) (keep : ∀ s a t, Inv s → Q s a → step s a = .ok t → Inv t)
    (agree : ∀ s a, Inv s → (P s a ↔ Q s a)) (as : List α) :
    EveryLiveStep step P s as ↔ EveryLiveStep step Q s as :=
  ⟨fun every => every.mono start (fun s a t h hp => keep s a t h ((agree s a h).mp hp))
      fun s a h => (agree s a h).mp,
    fun every => every.mono start keep fun s a h => (agree s a h).mpr⟩

theorem everyLiveStep_of_forall {step : σ → α → Except ε σ} {P : σ → α → Prop} {s : σ} {as : List α}
    (h : ∀ a ∈ as, ∀ s, P s a) : EveryLiveStep step P s as := by
  induction as generalizing s with
  | nil => trivial
  | cons a as ih =>
    refine everyLiveStep_cons.mpr ⟨h a (by simp) s, fun t _ => ih fun b hb => h b ?_⟩
    exact List.mem_cons_of_mem a hb

theorem EveryLiveStep.append {step : σ → α → Except ε σ} {P : σ → α → Prop} {s t : σ}
    {as bs : List α} (h : EveryLiveStep step P s as) (run : runHalting step s as = .ok t)
    (rest : EveryLiveStep step P t bs) : EveryLiveStep step P s (as ++ bs) := by
  refine everyStep_append.mpr ⟨h, ?_⟩
  rw [show runFrom (haltStep step) (.ok s) as = .ok t from run]
  exact rest

theorem EveryLiveStep.last {step : σ → α → Except ε σ} {P : σ → α → Prop} {s t : σ} {as : List α}
    {a : α} (h : EveryLiveStep step P s (as ++ [a])) (run : runHalting step s as = .ok t) : P t a := by
  have hlast := (everyStep_append.mp h).2.1
  rw [show runFrom (haltStep step) (.ok s) as = .ok t from run] at hlast
  exact hlast

theorem runHalting_ok_iff {step : σ → α → Except ε σ} {s : σ} {as : List α} :
    (∃ t, runHalting step s as = .ok t) ↔ EveryLiveStep step (fun s a => ∃ t, step s a = .ok t) s as := by
  induction as generalizing s with
  | nil => exact ⟨fun _ => trivial, fun _ => ⟨s, rfl⟩⟩
  | cons a as ih =>
    rw [runHalting_cons, everyLiveStep_cons]
    cases hs : step s a with
    | ok t =>
      have h : (∃ u, runHalting step t as = .ok u) ↔ _ := ih
      exact ⟨fun hu => ⟨⟨t, rfl⟩, fun u hu' => Except.ok.inj hu' ▸ h.mp hu⟩,
        fun hu => h.mpr (hu.2 t rfl)⟩
    | error e => exact ⟨fun ⟨u, hu⟩ => by simp [Except.bind] at hu, fun ⟨⟨u, hu⟩, _⟩ => by simp at hu⟩

end Halting

end RunSystem
