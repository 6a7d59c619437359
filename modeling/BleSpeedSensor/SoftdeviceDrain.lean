import BleSpeedSensor.SoftdeviceEvents

namespace BleSpeedSensor

open RunSystem

variable {α β : Type}

/-- The kinds take turns, SOC events first, until one of them is out of events. -/
def pullOrder : List UInt32 → List β → List (StackEvt β)
  | [], [] => []
  | [], evt :: evts => .ble evt :: pullOrder [] evts
  | evtId :: ids, [] => .soc evtId :: pullOrder ids []
  | evtId :: ids, evt :: evts => .soc evtId :: .ble evt :: pullOrder ids evts
  termination_by ids evts => ids.length + evts.length

theorem socIds_pullOrder (ids : List UInt32) (evts : List β) : socIds (pullOrder ids evts) = ids := by
  induction ids, evts using pullOrder.induct with
  | case1 => simp [pullOrder, socIds]
  | case2 evt evts ih => simp [pullOrder, socIds, ih]
  | case3 evtId ids ih => simp [pullOrder, socIds, ih]
  | case4 evtId ids evt evts ih => simp [pullOrder, socIds, ih]

theorem bleEvts_pullOrder (ids : List UInt32) (evts : List β) :
    bleEvts (pullOrder ids evts) = evts := by
  induction ids, evts using pullOrder.induct with
  | case1 => simp [pullOrder, bleEvts]
  | case2 evt evts ih => simp [pullOrder, bleEvts, ih]
  | case3 evtId ids ih => simp [pullOrder, bleEvts, ih]
  | case4 evtId ids evt evts ih => simp [pullOrder, bleEvts, ih]

/-- A pull and the call of the handler: an event that the buffer is too small for is not got. -/
def SoftdeviceHandler.handOver (h : SoftdeviceHandler α β) (app : α) (e : StackEvt β) :
    Except ErrCode α :=
  match e with
  | .soc _ => h.call app e
  | .ble evt =>
    if h.bleEvtBufferSize < h.evtLen evt then appErrorHandler nrfErrorDataSize else h.call app e

/-- The loop is left after these calls, with nothing waiting of the kinds it pulled. -/
structure Drained (s : StackSystem α β) (order : List (StackEvt β)) (app : α)
    (t : StackSystem α β) : Prop where
  idle : t.pc = .idle
  app : t.app = app
  calls : t.calls = s.calls ++ order
  soc : t.socEvts = if s.pc.pullsSoc then [] else s.socEvts
  ble : t.bleEvts = if s.pc.pullsBle then [] else s.bleEvts

/-- How a run that only pulls ends: as the pulls and handlers do, one after the other. -/
def Ends (s : StackSystem α β) (order : List (StackEvt β)) (n : Nat) : Prop :=
  match order.foldlM s.handler.handOver s.app with
  | .error c => runHalting stackStep s (List.replicate n .pull) = .error c
  | .ok app => ∃ t, runHalting stackStep s (List.replicate n .pull) = .ok t ∧
      Drained s order app t

theorem runHalting_pull (s : StackSystem α β) (n : Nat) :
    runHalting stackStep s (List.replicate (n + 1) .pull) =
      s.pull.bind fun t => runHalting stackStep t (List.replicate n .pull) := by
  rw [List.replicate_succ, runHalting_cons]
  rfl

/-- A pull that calls no handler. -/
theorem Ends.silent {s s' : StackSystem α β} {order : List (StackEvt β)} {n : Nat}
    (hpull : s.pull = .ok s') (hhandler : s'.handler = s.handler) (happ : s'.app = s.app)
    (hcalls : s'.calls = s.calls)
    (hsoc : (if s'.pc.pullsSoc then [] else s'.socEvts) =
      if s.pc.pullsSoc then [] else s.socEvts)
    (hble : (if s'.pc.pullsBle then [] else s'.bleEvts) =
      if s.pc.pullsBle then [] else s.bleEvts)
    (h : Ends s' order n) : Ends s order (n + 1) := by
  unfold Ends at h ⊢
  rw [runHalting_pull, hpull]
  rw [hhandler, happ] at h
  change match order.foldlM s.handler.handOver s.app with
    | .error c => runHalting stackStep s' (List.replicate n .pull) = .error c
    | .ok app => ∃ t, runHalting stackStep s' (List.replicate n .pull) = .ok t ∧
        Drained s order app t
  split at h
  next c hc => exact h
  next app happ' =>
    obtain ⟨t, ht, hd⟩ := h
    refine ⟨t, ht, hd.idle, hd.app, ?_, ?_, ?_⟩
    · rw [hd.calls, hcalls]
    · rw [hd.soc, hsoc]
    · rw [hd.ble, hble]

/-- A pull that calls a handler with the event it gave. -/
theorem Ends.called {s : StackSystem α β} {order : List (StackEvt β)} {n : Nat} {e : StackEvt β}
    {next : α → StackSystem α β}
    (hpull : s.pull = (s.handler.handOver s.app e).map next)
    (hhandler : ∀ app, (next app).handler = s.handler) (happ : ∀ app, (next app).app = app)
    (hcalls : ∀ app, (next app).calls = s.calls ++ [e])
    (hsoc : ∀ app, (if (next app).pc.pullsSoc then [] else (next app).socEvts) =
      if s.pc.pullsSoc then [] else s.socEvts)
    (hble : ∀ app, (if (next app).pc.pullsBle then [] else (next app).bleEvts) =
      if s.pc.pullsBle then [] else s.bleEvts)
    (h : ∀ app, Ends (next app) order n) : Ends s (e :: order) (n + 1) := by
  unfold Ends
  rw [List.foldlM_cons, runHalting_pull, hpull]
  cases hcall : s.handler.handOver s.app e with
  | error c => rfl
  | ok app =>
    have h' := h app
    unfold Ends at h'
    rw [hhandler app, happ app] at h'
    change match order.foldlM s.handler.handOver app with
      | .error c => runHalting stackStep (next app) (List.replicate n .pull) = .error c
      | .ok app' => ∃ t, runHalting stackStep (next app) (List.replicate n .pull) = .ok t ∧
          Drained s (e :: order) app' t
    split at h'
    next c hc => exact h'
    next app' happ' =>
      obtain ⟨t, ht, hd⟩ := h'
      refine ⟨t, ht, hd.idle, hd.app, ?_, ?_, ?_⟩
      · rw [hd.calls, hcalls app, List.append_assoc]
        rfl
      · rw [hd.soc, hsoc app]
      · rw [hd.ble, hble app]

section Halves

variable {s : StackSystem α β} {noSoc noBle : Bool}

theorem pull_soc_none (hpc : s.pc = .soc noSoc noBle)
    (hnone : (if noSoc then [] else s.socEvts) = []) :
    s.pull = .ok { s with pc := .ble true noBle } := by
  unfold StackSystem.pull
  simp only [hpc]
  cases noSoc with
  | true => rfl
  | false =>
    have hevts : s.socEvts = [] := hnone
    simp [hevts]

theorem pull_ble_none (hpc : s.pc = .ble noSoc noBle)
    (hnone : (if noBle then [] else s.bleEvts) = []) :
    s.pull = .ok { s with pc := if noSoc then .idle else .soc noSoc true } := by
  unfold StackSystem.pull
  simp only [hpc]
  cases noBle with
  | true => rfl
  | false =>
    have hevts : s.bleEvts = [] := hnone
    simp [hevts]

theorem pull_soc_cons {evtId : UInt32} {rest : List UInt32} (hpc : s.pc = .soc noSoc noBle)
    (hsome : (if noSoc then [] else s.socEvts) = evtId :: rest) :
    noSoc = false ∧ s.socEvts = evtId :: rest ∧
      s.pull = (s.handler.handOver s.app (.soc evtId)).map fun app =>
        { s with
          socEvts := rest
          app := app
          calls := s.calls ++ [.soc evtId]
          pc := .ble false noBle } := by
  cases noSoc with
  | true => cases hsome
  | false =>
    have hevts : s.socEvts = evtId :: rest := hsome
    refine ⟨rfl, hevts, ?_⟩
    unfold StackSystem.pull
    simp only [hpc, hevts, Bool.false_eq_true, if_false, SoftdeviceHandler.handOver]

theorem pull_ble_cons {evt : β} {rest : List β} (hpc : s.pc = .ble noSoc noBle)
    (hsome : (if noBle then [] else s.bleEvts) = evt :: rest) :
    noBle = false ∧ s.bleEvts = evt :: rest ∧
      s.pull = (s.handler.handOver s.app (.ble evt)).map fun app =>
        { s with
          bleEvts := rest
          app := app
          calls := s.calls ++ [.ble evt]
          pc := .soc noSoc false } := by
  cases noBle with
  | true => cases hsome
  | false =>
    have hevts : s.bleEvts = evt :: rest := hsome
    refine ⟨rfl, hevts, ?_⟩
    unfold StackSystem.pull
    simp only [hpc, hevts, Bool.false_eq_true, if_false, SoftdeviceHandler.handOver]
    split
    · rfl
    · rfl

end Halves

theorem idle_ends {s : StackSystem α β} (hpc : s.pc = .idle) : Ends s [] 0 := by
  refine ⟨s, rfl, hpc, rfl, ?_, ?_, ?_⟩
  · simp
  · simp [hpc, PullPc.pullsSoc]
  · simp [hpc, PullPc.pullsBle]

section Rounds

variable {s : StackSystem α β} {noSoc noBle : Bool} {order : List (StackEvt β)} {n : Nat}

/-- The last round: neither pull gives an event. -/
theorem Ends.last_round (hpc : s.pc = .soc noSoc noBle)
    (hids : (if noSoc then [] else s.socEvts) = []) (hevts : (if noBle then [] else s.bleEvts) = []) :
    Ends s [] 2 := by
  refine Ends.silent (pull_soc_none hpc hids) rfl rfl rfl ?_ ?_ (Ends.silent
    (pull_ble_none rfl hevts) rfl rfl rfl ?_ ?_ (idle_ends rfl))
  · cases noSoc <;> simp_all [PullPc.pullsSoc]
  · simp [hpc, PullPc.pullsBle]
  · simp [PullPc.pullsSoc]
  · cases noBle <;> simp_all [PullPc.pullsBle]

theorem Ends.ble_round {evt : β} {evts : List β} (hpc : s.pc = .soc noSoc noBle)
    (hids : (if noSoc then [] else s.socEvts) = [])
    (hevts : (if noBle then [] else s.bleEvts) = evt :: evts)
    (h : ∀ app, Ends { s with
      bleEvts := evts
      app := app
      calls := s.calls ++ [.ble evt]
      pc := .soc true false } order n) : Ends s (.ble evt :: order) (n + 1 + 1) := by
  obtain ⟨rfl, hble, hpull⟩ := @pull_ble_cons _ _ { s with pc := .ble true noBle } true noBle evt
    evts rfl hevts
  refine Ends.silent (pull_soc_none hpc hids) rfl rfl rfl ?_ ?_ (Ends.called hpull (fun _ => rfl)
    (fun _ => rfl) (fun _ => rfl) ?_ ?_ h)
  · cases noSoc <;> simp_all [PullPc.pullsSoc]
  · simp [hpc, PullPc.pullsBle]
  · simp [PullPc.pullsSoc]
  · simp [PullPc.pullsBle]

theorem Ends.soc_round {evtId : UInt32} {ids : List UInt32} (hpc : s.pc = .soc noSoc noBle)
    (hids : (if noSoc then [] else s.socEvts) = evtId :: ids)
    (hevts : (if noBle then [] else s.bleEvts) = [])
    (h : ∀ app, Ends { s with
      socEvts := ids
      app := app
      calls := s.calls ++ [.soc evtId]
      pc := .soc false true } order n) : Ends s (.soc evtId :: order) (n + 1 + 1) := by
  obtain ⟨rfl, hsoc, hpull⟩ := pull_soc_cons hpc hids
  refine Ends.called hpull (fun _ => rfl) (fun _ => rfl) (fun _ => rfl) ?_ ?_ fun app =>
    Ends.silent (pull_ble_none rfl hevts) rfl rfl rfl ?_ ?_ (h app)
  · simp [hpc, PullPc.pullsSoc]
  · simp [hpc, PullPc.pullsBle]
  · simp [PullPc.pullsSoc]
  · cases noBle <;> simp_all [PullPc.pullsBle]

theorem Ends.full_round {evtId : UInt32} {ids : List UInt32} {evt : β} {evts : List β}
    (hpc : s.pc = .soc noSoc noBle) (hids : (if noSoc then [] else s.socEvts) = evtId :: ids)
    (hevts : (if noBle then [] else s.bleEvts) = evt :: evts)
    (h : ∀ app, Ends { s with
      socEvts := ids
      bleEvts := evts
      app := app
      calls := s.calls ++ [.soc evtId] ++ [.ble evt]
      pc := .soc false false } order n) : Ends s (.soc evtId :: .ble evt :: order) (n + 1 + 1) := by
  obtain ⟨rfl, hsoc, hpull⟩ := pull_soc_cons hpc hids
  refine Ends.called hpull (fun _ => rfl) (fun _ => rfl) (fun _ => rfl) ?_ ?_ fun app => ?_
  · simp [hpc, PullPc.pullsSoc]
  · simp [hpc, PullPc.pullsBle]
  · obtain ⟨rfl, -, hpull'⟩ := @pull_ble_cons _ _ { s with
        socEvts := ids
        app := app
        calls := s.calls ++ [.soc evtId]
        pc := .ble false noBle } false noBle evt evts rfl hevts
    refine Ends.called hpull' (fun _ => rfl) (fun _ => rfl) (fun _ => rfl) ?_ ?_ h
    · simp [PullPc.pullsSoc]
    · simp [PullPc.pullsBle]

/-- From the start of a round the loop ends after two pulls a round, and one round more. -/
theorem pulls_end {ids : List UInt32} {evts : List β} (hpc : s.pc = .soc noSoc noBle)
    (hids : (if noSoc then [] else s.socEvts) = ids)
    (hevts : (if noBle then [] else s.bleEvts) = evts) :
    Ends s (pullOrder ids evts) (2 * (max ids.length evts.length + 1)) := by
  induction ids, evts using pullOrder.induct generalizing s noSoc noBle with
  | case1 =>
    rw [pullOrder]
    exact Ends.last_round hpc hids hevts
  | case2 evt evts ih =>
    have hlen : 2 * (max ([] : List UInt32).length (evt :: evts).length + 1) =
        2 * (max ([] : List UInt32).length evts.length + 1) + 1 + 1 := by
      simp only [List.length_nil, List.length_cons]
      omega
    rw [pullOrder, hlen]
    exact Ends.ble_round hpc hids hevts fun app => ih rfl rfl rfl
  | case3 evtId ids ih =>
    have hlen : 2 * (max (evtId :: ids).length ([] : List β).length + 1) =
        2 * (max ids.length ([] : List β).length + 1) + 1 + 1 := by
      simp only [List.length_nil, List.length_cons]
      omega
    rw [pullOrder, hlen]
    exact Ends.soc_round hpc hids hevts fun app => ih rfl rfl rfl
  | case4 evtId ids evt evts ih =>
    have hlen : 2 * (max (evtId :: ids).length (evt :: evts).length + 1) =
        2 * (max ids.length evts.length + 1) + 1 + 1 := by
      simp only [List.length_cons]
      omega
    rw [pullOrder, hlen]
    exact Ends.full_round hpc hids hevts fun app => ih rfl rfl rfl

/-- Wherever the loop is, it ends, and until then hands over what waits of the kinds it pulls. -/
theorem loop_ends (s : StackSystem α β) : ∃ order n, Ends s order n ∧
    socIds order = (if s.pc.pullsSoc then s.socEvts else []) ∧
    bleEvts order = (if s.pc.pullsBle then s.bleEvts else []) := by
  cases hpc : s.pc with
  | idle => exact ⟨[], 0, idle_ends hpc, rfl, rfl⟩
  | soc noSoc noBle =>
    refine ⟨_, _, pulls_end hpc rfl rfl, ?_, ?_⟩
    · rw [socIds_pullOrder]
      cases noSoc <;> rfl
    · rw [bleEvts_pullOrder]
      cases noBle <;> rfl
  | ble noSoc noBle =>
    cases hevts : (if noBle then [] else s.bleEvts) with
    | nil =>
      have hnone : (if (!noBle) = true then s.bleEvts else []) = [] := by
        cases noBle <;> simp_all
      have hpull := pull_ble_none hpc hevts
      cases noSoc with
      | true =>
        refine ⟨[], 1, Ends.silent hpull rfl rfl rfl ?_ ?_ (idle_ends rfl), rfl, hnone.symm⟩
        · simp [hpc, PullPc.pullsSoc]
        · cases noBle <;> simp_all [PullPc.pullsBle]
      | false =>
        refine ⟨_, _, Ends.silent hpull rfl rfl rfl ?_ ?_ (pulls_end rfl rfl rfl), ?_, ?_⟩
        · simp [hpc, PullPc.pullsSoc]
        · cases noBle <;> simp_all [PullPc.pullsBle]
        · rw [socIds_pullOrder]
          rfl
        · rw [bleEvts_pullOrder]
          exact hnone.symm
    | cons evt evts =>
      obtain ⟨rfl, hble, hpull⟩ := pull_ble_cons hpc hevts
      refine ⟨_, _, Ends.called hpull (fun _ => rfl) (fun _ => rfl) (fun _ => rfl) ?_ ?_
        fun app => @pulls_end _ _ _ noSoc false (if noSoc then [] else s.socEvts) evts rfl rfl rfl,
        ?_, ?_⟩
      · simp [hpc, PullPc.pullsSoc]
      · simp [hpc, PullPc.pullsBle]
      · simp only [socIds, socIds_pullOrder]
        cases noSoc <;> rfl
      · simp only [bleEvts, bleEvts_pullOrder]
        exact hble.symm

end Rounds

theorem stackStep_handler {s t : StackSystem α β} {a : StackAction β}
    (hstep : stackStep s a = .ok t) : t.handler = s.handler := by
  cases a with
  | raise e =>
    obtain rfl := Except.ok.inj hstep
    cases e <;> rfl
  | irq =>
    obtain rfl := Except.ok.inj hstep
    simp only [StackSystem.swi2Irq]
    split <;> rfl
  | pull =>
    have hpull : s.pull = .ok t := hstep
    unfold StackSystem.pull at hpull
    split at hpull
    next =>
      obtain rfl := Except.ok.inj hpull
      rfl
    next =>
      split at hpull
      next =>
        obtain rfl := Except.ok.inj hpull
        rfl
      next =>
        split at hpull
        next =>
          obtain rfl := Except.ok.inj hpull
          rfl
        next =>
          obtain ⟨app, -, rfl⟩ := ok_of_map hpull
          rfl
    next =>
      split at hpull
      next =>
        obtain rfl := Except.ok.inj hpull
        rfl
      next =>
        split at hpull
        next =>
          obtain rfl := Except.ok.inj hpull
          rfl
        next =>
          split at hpull
          next => cases hpull
          next =>
            obtain ⟨app, -, rfl⟩ := ok_of_map hpull
            rfl

theorem runHalting_handler {s t : StackSystem α β} {actions : List (StackAction β)}
    (hrun : runHalting stackStep s actions = .ok t) : t.handler = s.handler := by
  have hlive : EveryLiveStep stackStep (fun _ _ => True) s actions :=
    everyLiveStep_of_forall fun _ _ _ => trivial
  have hkeep : ∀ u a v, u.handler = s.handler → True → stackStep u a = .ok v → v.handler = s.handler :=
    fun u a v h _ hstep => (stackStep_handler hstep).trans h
  exact @runHalting_invariant _ _ _ stackStep _ (fun u => u.handler = s.handler) _ _ _ rfl hkeep hlive
    hrun

/-- The interrupt handler finishes what it is at and is entered once more if that is asked for. -/
def finishing (k m : Nat) : List (StackAction β) :=
  List.replicate k .pull ++ .irq :: List.replicate m .pull

/-- What that comes to: the events are handed over in this order, or the run halts at the first that
fails. -/
def HandsOver (s : StackSystem α β) (order : List (StackEvt β)) (k m : Nat) : Prop :=
  match order.foldlM s.handler.handOver s.app with
  | .error c => runHalting stackStep s (finishing k m) = .error c
  | .ok app => ∃ t, runHalting stackStep s (finishing k m) = .ok t ∧
      t.app = app ∧ t.calls = s.calls ++ order

/-- The interrupt is pending where the loop has been left with events waiting, so it pulls them. -/
theorem Delivering.swi2Irq_pulls {app₀ : α} {s : StackSystem α β} (h : Delivering app₀ s)
    (hidle : s.pc = .idle) :
    (s.handler.sysEvtHandler.isSome →
      (if s.swi2Irq.pc.pullsSoc then s.swi2Irq.socEvts else []) = s.socEvts) ∧
    (s.handler.bleEvtHandler.isSome →
      (if s.swi2Irq.pc.pullsBle then s.swi2Irq.bleEvts else []) = s.bleEvts) := by
  have hsoc := h.socAwake
  have hble := h.bleAwake
  simp only [hidle, PullPc.pullsSoc, PullPc.pullsBle, Bool.false_eq_true, or_false] at hsoc hble
  unfold StackSystem.swi2Irq
  cases hpending : s.irqPending with
  | true =>
    simp only [hidle, h.enabled, and_self, if_true, PullPc.pullsSoc, PullPc.pullsBle]
    refine ⟨fun hsys => ?_, fun hsys => ?_⟩
    · simp [Option.isSome_iff_ne_none.mp hsys]
    · simp [Option.isSome_iff_ne_none.mp hsys]
  | false =>
    simp only [hpending, Bool.false_eq_true, imp_false, Ne, Classical.not_not] at hsoc hble
    refine ⟨fun hsys => ?_, fun hsys => ?_⟩
    · simp [hidle, PullPc.pullsSoc, hsoc hsys]
    · simp [hidle, PullPc.pullsBle, hble hsys]

theorem Delivering.handsOver {app₀ : α} {s : StackSystem α β} (h : Delivering app₀ s) :
    ∃ order k m, HandsOver s order k m ∧
      (s.handler.sysEvtHandler.isSome → socIds order = s.socEvts) ∧
      (s.handler.bleEvtHandler.isSome → bleEvts order = s.bleEvts) := by
  obtain ⟨first, k, hends, hsoc, hble⟩ := loop_ends s
  unfold Ends at hends
  cases hfirst : first.foldlM s.handler.handOver s.app with
  | error c =>
    rw [hfirst] at hends
    refine ⟨first ++ pullOrder (if s.pc.pullsSoc then [] else s.socEvts)
      (if s.pc.pullsBle then [] else s.bleEvts), k, 0, ?_, fun _ => ?_, fun _ => ?_⟩
    · unfold HandsOver
      rw [List.foldlM_append, hfirst]
      exact runHalting_append_error hends _
    · rw [socIds_append, socIds_pullOrder, hsoc]
      split <;> simp
    · rw [bleEvts_append, bleEvts_pullOrder, hble]
      split <;> simp
  | ok app =>
    rw [hfirst] at hends
    obtain ⟨t, hrun, hdrained⟩ := hends
    obtain ⟨second, m, hends', hsoc', hble'⟩ := loop_ends t.swi2Irq
    have hhandler := runHalting_handler hrun
    have hirq : t.swi2Irq.handler = s.handler ∧ t.swi2Irq.app = app ∧ t.swi2Irq.calls = t.calls := by
      rw [← hhandler, ← hdrained.app]
      unfold StackSystem.swi2Irq
      split <;> exact ⟨rfl, rfl, rfl⟩
    obtain ⟨hpullsSoc, hpullsBle⟩ := (runHalting_delivering h hrun).swi2Irq_pulls hdrained.idle
    rw [hhandler] at hpullsSoc hpullsBle
    refine ⟨first ++ second, k, m, ?_, fun hsys => ?_, fun hsys => ?_⟩
    · unfold HandsOver finishing
      rw [List.foldlM_append, hfirst, runHalting_append hrun, runHalting_cons]
      unfold Ends at hends'
      rw [hirq.1, hirq.2.1] at hends'
      change match second.foldlM s.handler.handOver app with
        | .error c => runHalting stackStep t.swi2Irq (List.replicate m .pull) = .error c
        | .ok app' => ∃ u, runHalting stackStep t.swi2Irq (List.replicate m .pull) = .ok u ∧
            u.app = app' ∧ u.calls = s.calls ++ (first ++ second)
      split at hends'
      next c hc => exact hends'
      next app' happ =>
        obtain ⟨u, hu, hdrained'⟩ := hends'
        refine ⟨u, hu, hdrained'.app, ?_⟩
        rw [hdrained'.calls, hirq.2.2, hdrained.calls, List.append_assoc]
    · rw [socIds_append, hsoc, hsoc', hpullsSoc hsys, hdrained.soc]
      split <;> simp
    · rw [bleEvts_append, hble, hble', hpullsBle hsys, hdrained.ble]
      split <;> simp

/-- However events and pulls interleave, the events of each kind are handed over once, in the order
they were raised. Those still waiting have an interrupt pending or are yet pulled by the loop, and
enough more pulls hand them over. -/
theorem stackRun_delivers {handler : SoftdeviceHandler α β} {app₀ : α} {t : StackSystem α β}
    {actions : List (StackAction β)} (henabled : handler.softdeviceEnabled = true)
    (hrun : runHalting stackStep (StackSystem.start handler app₀) actions = .ok t) :
    socIds t.calls ++ t.socEvts = socIds t.raised ∧
      bleEvts t.calls ++ t.bleEvts = bleEvts t.raised ∧
      t.calls.foldlM handler.call app₀ = .ok t.app ∧
      (handler.sysEvtHandler.isSome → t.socEvts ≠ [] →
        t.irqPending = true ∨ t.pc.pullsSoc = true) ∧
      (handler.bleEvtHandler.isSome → t.bleEvts ≠ [] →
        t.irqPending = true ∨ t.pc.pullsBle = true) ∧
      ∃ order k m, HandsOver t order k m ∧
        (handler.sysEvtHandler.isSome → socIds order = t.socEvts) ∧
        (handler.bleEvtHandler.isSome → bleEvts order = t.bleEvts) := by
  have h := runHalting_delivering (start_delivering app₀ henabled) hrun
  have hsame : t.handler = handler := runHalting_handler hrun
  subst hsame
  exact ⟨h.soc, h.ble, h.app, h.socAwake, h.bleAwake, h.handsOver⟩

/-- Handlers that keep what they are given. -/
def recordingHandler : SoftdeviceHandler (List (StackEvt UInt8)) UInt8 where
  softdeviceEnabled := true
  bleEvtBufferSize := 4
  evtLen _ := 4
  bleEvtHandler := some fun app evt => .ok (app ++ [.ble evt])
  sysEvtHandler := some fun app evtId => .ok (app ++ [.soc evtId])

/-- An event raised between two pulls. -/
theorem stackRun_delivers_between : ∃ t,
    runHalting stackStep (StackSystem.start recordingHandler [])
        [.raise (.ble 1), .irq, .pull, .raise (.ble 2), .pull, .pull, .pull] = .ok t ∧
      t.calls.foldlM recordingHandler.call [] = .ok t.app := by
  obtain ⟨t, hrun⟩ : ∃ t, runHalting stackStep (StackSystem.start recordingHandler [])
      [.raise (.ble 1), .irq, .pull, .raise (.ble 2), .pull, .pull, .pull] = .ok t := ⟨_, rfl⟩
  exact ⟨t, hrun, (stackRun_delivers rfl hrun).2.2.1⟩

/-- The interrupt handler hands over everything that waits, the kinds in turns, in at most two pulls
an event and two more; where a pull or a handler halts, it halts there. -/
theorem swi2Irq_drains {s : StackSystem α β} (henabled : s.handler.softdeviceEnabled = true)
    (hidle : s.pc = .idle) (hpending : s.irqPending = true) :
    Ends s.swi2Irq
      (pullOrder (if s.handler.sysEvtHandler.isNone then [] else s.socEvts)
        (if s.handler.bleEvtHandler.isNone then [] else s.bleEvts))
      (2 * (max (if s.handler.sysEvtHandler.isNone then [] else s.socEvts).length
        (if s.handler.bleEvtHandler.isNone then [] else s.bleEvts).length + 1)) := by
  have hirq : s.swi2Irq = { s with
      irqPending := false
      pc := .soc s.handler.sysEvtHandler.isNone s.handler.bleEvtHandler.isNone } := by
    unfold StackSystem.swi2Irq
    rw [if_pos ⟨hpending, hidle⟩, if_pos henabled]
  rw [hirq]
  exact pulls_end rfl rfl rfl

theorem swi2Irq_drains_two : ∃ t,
    runHalting stackStep
        (((StackSystem.start recordingHandler []).raise (.ble 1)).raise (.soc 7)).swi2Irq
        [.pull, .pull, .pull, .pull] = .ok t ∧
      t.pc = .idle ∧ t.app = [.soc 7, .ble 1] := by
  have hends := @swi2Irq_drains _ _
    (((StackSystem.start recordingHandler []).raise (.ble 1)).raise (.soc 7)) rfl rfl rfl
  have horder : pullOrder [(7 : UInt32)] [(1 : UInt8)] = [.soc 7, .ble 1] := by simp [pullOrder]
  change Ends _ (pullOrder [7] [1]) 4 at hends
  rw [horder] at hends
  obtain ⟨t, hrun, hdrained⟩ := hends
  exact ⟨t, hrun, hdrained.idle, hdrained.app⟩

end BleSpeedSensor
