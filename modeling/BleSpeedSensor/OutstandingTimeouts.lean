import BleSpeedSensor.TimeoutPath

namespace BleSpeedSensor

theorem mainStep_calls {p q : EventPath} (h : PathInv p) (step : p.mainStep = .ok q) :
    (q.calls = p.calls ∧ q.pc.inTimeout = false) ∨ ∃ i e e', q.pc = .inHandler i e ∧
      q.calls = p.calls ++ [e] ∧ p.accepted[p.calls.length]? = some e' ∧ e'.handler = e.handler := by
  have hpc := h.pc
  unfold EventPath.mainStep at step
  cases hp : p.pc with
  | test =>
    rw [hp] at step
    cases step
    refine Or.inl ⟨rfl, ?_⟩
    dsimp only
    split <;> rfl
  | checkSize i size handler =>
    rw [hp] at step
    obtain ⟨-, -, hq⟩ := ok_of_bind step
    cases hq
    exact Or.inl ⟨rfl, rfl⟩
  | readArgument i handler callee =>
    rw [hp] at hpc step
    obtain ⟨e, hclaimed, rfl, -⟩ := hpc
    cases step
    exact Or.inr ⟨i, _, e, rfl, rfl, hclaimed.event, rfl⟩
  | readStart | advance _ | readSize _ | readHandler _ _ | readCallee _ _ | inHandler _ _ =>
    rw [hp] at step
    cases step
    exact Or.inl ⟨rfl, rfl⟩

variable {Q : Option Nat → Prop} {s : TimeoutPath}

structure SamePath (s t : TimeoutPath) : Prop where
  path : t.path = s.path
  startedFor : t.startedFor = s.startedFor
  handledFor : t.handledFor = s.handledFor
  handling : t.Handling → s.Handling

theorem SamePath.outstanding {t : TimeoutPath} (same : SamePath s t) (h : Outstanding Q s) :
    Outstanding Q t := by
  refine ⟨?_, fun ht => ?_⟩
  · rw [same.path, same.startedFor]
    exact h.waiting
  · rw [same.handledFor]
    exact h.handled (same.handling ht)

theorem Outstanding.weaken {R : Option Nat → Prop} (h : Outstanding Q s) (hqr : ∀ c, Q c → R c) :
    Outstanding R s :=
  ⟨fun k e hk he ht => hqr _ (h.waiting k e hk he ht), fun hs => hqr _ (h.handled hs)⟩

theorem Outstanding.mainStep (h : Outstanding Q s) (inv : PathInv s.path) {path : EventPath}
    (step : s.path.mainStep = .ok path) : Outstanding Q { s with
      path := path
      update := .checkHandle
      handledFor := (s.startedFor[path.calls.length - 1]?).join } := by
  have hacc := mainStep_accepted step
  rcases mainStep_calls inv step with ⟨hcalls, hpc⟩ | ⟨i, e, e', hpc, hcalls, hevent, hhandler⟩
  · refine ⟨?_, fun ht => by simp [TimeoutPath.Handling, hpc] at ht⟩
    rw [hcalls, hacc]
    exact h.waiting
  · refine ⟨fun k x hk hx hT => ?_, fun ht => ?_⟩
    · dsimp only at hk hx
      rw [hacc] at hx
      rw [hcalls, List.length_append] at hk
      exact h.waiting k x (by omega) hx hT
    · have htimeout : e.handler = .appTimerEvtGet := by
        have hin := ht.1
        simp only [hpc, MainPc.inTimeout] at hin
        simpa using hin
      have hlast : path.calls.length - 1 = s.path.calls.length := by
        rw [hcalls, List.length_append, List.length_singleton]
        omega
      dsimp only
      rw [hlast]
      exact h.waiting _ e' (Nat.le_refl _) hevent (hhandler.trans htimeout)

theorem Outstanding.put (h : Outstanding Q s) (hlen : s.startedFor.length = s.path.accepted.length)
    (e : AppEvent) (connection : Option Nat) (he : e.handler = .appTimerEvtGet → Q connection) :
    Outstanding Q (s.put e connection).2 := by
  obtain ⟨hwaiting, hhandled⟩ := h
  unfold TimeoutPath.put EventPath.afterPut
  by_cases hok : (e.schedule s.path.sched).1 = nrfSuccess
  · refine ⟨fun k x hk hx ht => ?_, hhandled⟩
    dsimp only at hk hx ⊢
    rw [if_pos hok] at hx ⊢
    rcases getElem?_concat_some hx with old | ⟨rfl, rfl⟩
    · have hlt := (List.getElem?_eq_some_iff.mp old).1
      rw [List.getElem?_append_left (hlen ▸ hlt)]
      exact hwaiting k x hk old ht
    · rw [← hlen, List.getElem?_concat_length]
      exact he ht
  · refine ⟨fun k x hk hx ht => ?_, hhandled⟩
    dsimp only at hk hx ⊢
    rw [if_neg hok] at hx ⊢
    exact hwaiting k x hk hx ht

end BleSpeedSensor
