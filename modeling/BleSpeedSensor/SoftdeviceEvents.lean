import BleSpeedSensor.SoftdeviceHandler

namespace BleSpeedSensor

open RunSystem

variable {α β : Type}

def socIds : List (StackEvt β) → List UInt32
  | [] => []
  | .soc evtId :: es => evtId :: socIds es
  | .ble _ :: es => socIds es

def bleEvts : List (StackEvt β) → List β
  | [] => []
  | .soc _ :: es => bleEvts es
  | .ble evt :: es => evt :: bleEvts es

@[simp] theorem socIds_append (es es' : List (StackEvt β)) :
    socIds (es ++ es') = socIds es ++ socIds es' := by
  induction es with
  | nil => rfl
  | cons e es ih => cases e <;> simp [socIds, ih]

@[simp] theorem bleEvts_append (es es' : List (StackEvt β)) :
    bleEvts (es ++ es') = bleEvts es ++ bleEvts es' := by
  induction es with
  | nil => rfl
  | cons e es ih => cases e <;> simp [bleEvts, ih]

/-- The loop goes on to pull SOC events, or BLE events, until there are none. -/
def PullPc.pullsSoc : PullPc → Bool
  | .idle => false
  | .soc noMoreSocEvts _ | .ble noMoreSocEvts _ => !noMoreSocEvts

def PullPc.pullsBle : PullPc → Bool
  | .idle => false
  | .soc _ noMoreBleEvts | .ble _ noMoreBleEvts => !noMoreBleEvts

/-- The module between two steps of a run from `app₀`. -/
structure Delivering (app₀ : α) (s : StackSystem α β) : Prop where
  enabled : s.handler.softdeviceEnabled = true
  soc : socIds s.calls ++ s.socEvts = socIds s.raised
  ble : bleEvts s.calls ++ s.bleEvts = bleEvts s.raised
  app : s.calls.foldlM s.handler.call app₀ = .ok s.app
  socAwake : s.handler.sysEvtHandler.isSome → s.socEvts ≠ [] →
    s.irqPending = true ∨ s.pc.pullsSoc = true
  bleAwake : s.handler.bleEvtHandler.isSome → s.bleEvts ≠ [] →
    s.irqPending = true ∨ s.pc.pullsBle = true

theorem raise_delivering {app₀ : α} {s : StackSystem α β} (h : Delivering app₀ s)
    (e : StackEvt β) : Delivering app₀ (s.raise e) := by
  cases e with
  | soc evtId =>
    refine ⟨h.enabled, ?_, ?_, h.app, fun _ _ => Or.inl rfl, fun _ _ => Or.inl rfl⟩
    · simp only [StackSystem.raise, socIds_append, ← h.soc, List.append_assoc]
      rfl
    · simp only [StackSystem.raise, bleEvts_append, ← h.ble]
      simp [bleEvts]
  | ble evt =>
    refine ⟨h.enabled, ?_, ?_, h.app, fun _ _ => Or.inl rfl, fun _ _ => Or.inl rfl⟩
    · simp only [StackSystem.raise, socIds_append, ← h.soc]
      simp [socIds]
    · simp only [StackSystem.raise, bleEvts_append, ← h.ble, List.append_assoc]
      rfl

theorem swi2Irq_delivering {app₀ : α} {s : StackSystem α β} (h : Delivering app₀ s) :
    Delivering app₀ s.swi2Irq := by
  unfold StackSystem.swi2Irq
  split
  next hirq =>
    simp only [h.enabled, if_true]
    refine ⟨h.enabled, h.soc, h.ble, h.app, ?_, ?_⟩
    · intro hsys _
      right
      simpa [PullPc.pullsSoc] using hsys
    · intro hble _
      right
      simpa [PullPc.pullsBle] using hble
  next => exact h

/-- A handler call: the event is the next of its kind and the application goes on with it. -/
theorem call_recorded {app₀ app : α} {s : StackSystem α β} (h : Delivering app₀ s)
    {e : StackEvt β} (hcall : s.handler.call s.app e = .ok app) :
    (s.calls ++ [e]).foldlM s.handler.call app₀ = .ok app := by
  rw [List.foldlM_append, h.app]
  change [e].foldlM s.handler.call s.app = .ok app
  rw [List.foldlM_cons, hcall]
  rfl

theorem pullSoc_delivering {app₀ : α} {s t : StackSystem α β} {noSoc noBle : Bool}
    (h : Delivering app₀ s) (hpc : s.pc = .soc noSoc noBle) (hpull : s.pull = .ok t) :
    Delivering app₀ t := by
  have hsoc := h.socAwake
  have hble := h.bleAwake
  simp only [hpc, PullPc.pullsSoc, PullPc.pullsBle] at hsoc hble
  unfold StackSystem.pull at hpull
  simp only [hpc] at hpull
  cases noSoc with
  | true =>
    obtain rfl := Except.ok.inj hpull
    exact ⟨h.enabled, h.soc, h.ble, h.app, hsoc, hble⟩
  | false =>
    simp only [Bool.false_eq_true, if_false] at hpull
    cases hevts : s.socEvts with
    | nil =>
      simp only [hevts] at hpull
      obtain rfl := Except.ok.inj hpull
      refine ⟨h.enabled, ?_, h.ble, h.app, fun _ hne => absurd rfl hne, hble⟩
      simpa only [hevts] using h.soc
    | cons evtId rest =>
      simp only [hevts] at hpull
      obtain ⟨app, hcall, rfl⟩ := ok_of_map hpull
      refine ⟨h.enabled, ?_, ?_, call_recorded h hcall, fun _ _ => Or.inr rfl, hble⟩
      · simp only [socIds_append, ← h.soc, hevts, socIds, List.append_assoc]
        rfl
      · simp only [bleEvts_append, ← h.ble]
        simp [bleEvts]

theorem pullBle_delivering {app₀ : α} {s t : StackSystem α β} {noSoc noBle : Bool}
    (h : Delivering app₀ s) (hpc : s.pc = .ble noSoc noBle) (hpull : s.pull = .ok t) :
    Delivering app₀ t := by
  have hsoc := h.socAwake
  have hble := h.bleAwake
  simp only [hpc, PullPc.pullsSoc, PullPc.pullsBle] at hsoc hble
  unfold StackSystem.pull at hpull
  simp only [hpc] at hpull
  -- with both flags set the loop is left, and then neither kind was still pulled
  have hnext : ∀ b, (if noSoc = true then PullPc.idle else .soc noSoc b).pullsSoc = !noSoc := by
    intro b
    cases noSoc <;> rfl
  cases noBle with
  | true =>
    obtain rfl := Except.ok.inj hpull
    refine ⟨h.enabled, h.soc, h.ble, h.app, ?_, ?_⟩
    · simpa only [hnext] using hsoc
    · intro hg hne
      exact Or.inl ((hble hg hne).resolve_right (by simp))
  | false =>
    simp only [Bool.false_eq_true, if_false] at hpull
    cases hevts : s.bleEvts with
    | nil =>
      simp only [hevts] at hpull
      obtain rfl := Except.ok.inj hpull
      refine ⟨h.enabled, h.soc, ?_, h.app, ?_, fun _ hne => absurd rfl hne⟩
      · simpa only [hevts] using h.ble
      · simpa only [hnext] using hsoc
    | cons evt rest =>
      simp only [hevts] at hpull
      split at hpull
      next => cases hpull
      next =>
        obtain ⟨app, hcall, rfl⟩ := ok_of_map hpull
        refine ⟨h.enabled, ?_, ?_, call_recorded h hcall, hsoc, fun _ _ => Or.inr rfl⟩
        · simp only [socIds_append, ← h.soc]
          simp [socIds]
        · simp only [bleEvts_append, ← h.ble, hevts, bleEvts, List.append_assoc]
          rfl

theorem stackStep_delivering {app₀ : α} {s t : StackSystem α β} {a : StackAction β}
    (h : Delivering app₀ s) (hstep : stackStep s a = .ok t) : Delivering app₀ t := by
  cases a with
  | raise e =>
    obtain rfl := Except.ok.inj hstep
    exact raise_delivering h e
  | irq =>
    obtain rfl := Except.ok.inj hstep
    exact swi2Irq_delivering h
  | pull =>
    have hpull : s.pull = .ok t := hstep
    cases hpc : s.pc with
    | idle =>
      unfold StackSystem.pull at hpull
      simp only [hpc] at hpull
      obtain rfl := Except.ok.inj hpull
      exact h
    | soc noSoc noBle => exact pullSoc_delivering h hpc hpull
    | ble noSoc noBle => exact pullBle_delivering h hpc hpull

theorem start_delivering {handler : SoftdeviceHandler α β} (app₀ : α)
    (henabled : handler.softdeviceEnabled = true) :
    Delivering app₀ (StackSystem.start handler app₀) :=
  ⟨henabled, rfl, rfl, rfl, fun _ hne => absurd rfl hne, fun _ hne => absurd rfl hne⟩

theorem runHalting_delivering {app₀ : α} {s t : StackSystem α β} {actions : List (StackAction β)}
    (h : Delivering app₀ s) (hrun : runHalting stackStep s actions = .ok t) : Delivering app₀ t := by
  have hlive : EveryLiveStep stackStep (fun _ _ => True) s actions :=
    everyLiveStep_of_forall fun _ _ _ => trivial
  exact runHalting_invariant h (fun s a t h _ hstep => stackStep_delivering h hstep) hlive hrun

end BleSpeedSensor
