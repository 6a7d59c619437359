import BleSpeedSensor.TimeoutBleEvents

namespace BleSpeedSensor

open RunSystem

variable {s t : TimeoutPath}

theorem TimeoutInv.step (h : TimeoutInv s) {a : TimeoutAction} (quiet : QuietWhenConnected s a)
    (step : timeoutStep s a = .ok t) : TimeoutInv t := by
  cases a with
  | tick n =>
    cases step
    exact h.tick n
  | rtc1 => exact h.rtc1 step
  | swi0 late =>
    cases step
    exact h.swi0 late
  | ble e answers =>
    unfold timeoutStep at step
    dsimp only at step
    split at step
    next possible =>
      by_cases hconnected : e.isConnected = true
      · cases e with
        | gapConnected connHandle connParams =>
          have hdown : s.up = false := by
            simp only [TimeoutPath.possible, Bool.and_eq_true] at possible
            simpa using possible.1
          exact h.connected possible (quiet connHandle connParams answers rfl hdown) step
        | _ => cases hconnected
      · exact h.notConnected possible (by simpa using hconnected) step
    next =>
      cases step
      exact h
  | speedSchedule f v =>
    cases step
    exact h.put _ _ fun he => by cases he
  | main answers => exact h.main step

theorem TimeoutInv.actsOnOwn (h : TimeoutInv s) (a : TimeoutAction) : TimeoutsActOnOwn s a := by
  rintro answers - handling hup
  have hown := (h.own hup).2.handled handling
  have mature := (h.age hup).resolve_left fun young => young.not_handling handling
  exact ⟨fun _ => ⟨hown, fun _ => mature⟩, fun _ => hown⟩

/-- As long as nothing is left of a negotiation timer whenever a connection begins, no timeout acts
on a connection its timer was not started for, and no first request comes early. -/
theorem timeouts_act_on_own (updateTimeoutHandler : UInt32) (as : List TimeoutAction)
    (quiet : EveryLiveStep timeoutStep QuietWhenConnected (TimeoutPath.boot updateTimeoutHandler) as) :
    EveryLiveStep timeoutStep TimeoutsActOnOwn (TimeoutPath.boot updateTimeoutHandler) as :=
  quiet.mono (boot_timeoutInv updateTimeoutHandler) (fun _ _ _ h quiet step => h.step quiet step)
    fun _ a h _ => h.actsOnOwn a

def Answers.success : Answers := ⟨fun _ => nrfSuccess, nrfSuccess, nrfSuccess⟩

def slowConnection (connHandle : ConnHandle) : TimeoutAction :=
  .ble (.gapConnected connHandle ⟨24, 40, 0, 400⟩) Answers.success

/-- The first delay passes, the timer expires, and the main loop comes to send the request. -/
def firstTimeout (ticks : Nat) : List TimeoutAction :=
  [.swi0 0, .tick ticks, .rtc1, .swi0 0] ++ List.replicate 11 (.main Answers.success)

theorem boot_nothingLeft (updateTimeoutHandler : UInt32) :
    NothingLeft (TimeoutPath.boot updateTimeoutHandler) := by
  have hboot : ((AppTimer.boot updateTimeoutHandler).nodes 0).isRunning = false ∧
      (AppTimer.boot updateTimeoutHandler).userOps = fun _ => [] := by
    unfold AppTimer.boot appTimerCreate
    split
    · exact ⟨rfl, rfl⟩
    · split
      · exact ⟨by simp only [AppTimer.setNode]; split <;> rfl, rfl⟩
      · exact ⟨rfl, rfl⟩
  refine ⟨hboot.1, fun params hmem => ?_, ?_, fun handling => ?_⟩
  · have hops : (TimeoutPath.boot updateTimeoutHandler).timer.userOps .appLow = [] :=
      congrFun hboot.2 _
    rw [hops] at hmem
    cases hmem
  · intro k e _ he
    cases he
  · cases handling.1

/-- The request a first connection sends is its own. -/
theorem first_timeout_acts_on_own :
    EveryLiveStep timeoutStep TimeoutsActOnOwn (TimeoutPath.boot 1)
        (slowConnection 0 :: firstTimeout firstConnParamsUpdateDelay.toNat) ∧
      ∃ t, runHalting timeoutStep (TimeoutPath.boot 1)
          (slowConnection 0 :: firstTimeout firstConnParamsUpdateDelay.toNat) = .ok t ∧
        t.Handling ∧ t.up = true ∧ t.update = .request ∧ t.handledFor = some 1 ∧ t.connection = 1 := by
  refine ⟨timeouts_act_on_own 1 _ (everyLiveStep_cons.mpr ⟨?_, fun t _ => ?_⟩),
    _, rfl, by decide, rfl, rfl, rfl, rfl⟩
  · exact fun _ _ _ _ _ => boot_nothingLeft 1
  · refine everyLiveStep_of_forall fun a ha s connHandle connParams answers heq _ => ?_
    subst heq
    simp [firstTimeout] at ha

/-- The link is lost before its CONNECTED event has been pulled, so the stop is carried out before
the start, and the timer runs on into a connection that begins ten seconds later. -/
def lostAtOnce : List TimeoutAction :=
  [slowConnection 0, .ble .gapDisconnected Answers.success, .swi0 0, .tick 327680, slowConnection 0] ++
    firstTimeout 327680

theorem lost_at_once_requests : ∃ t, runHalting timeoutStep (TimeoutPath.boot 1) lostAtOnce = .ok t ∧
    t.Handling ∧ t.up = true ∧ t.update = .request ∧ t.handledFor = some 1 ∧ t.connection = 2 ∧
      t.requested = false ∧ t.connectedAt = 327680 ∧ t.now = 655360 :=
  ⟨_, rfl, by decide, rfl, rfl, rfl, rfl, rfl, rfl, rfl⟩

/-- The timer of the first connection has the request of the second sent after ten seconds. -/
theorem timeout_acts_on_later_connection :
    ¬∀ (updateTimeoutHandler : UInt32) (as : List TimeoutAction), EveryLiveStep timeoutStep
      TimeoutsActOnOwn (TimeoutPath.boot updateTimeoutHandler) as := by
  intro h
  obtain ⟨t, run, handling, hup, hrequest, hfor, hconnection, -⟩ := lost_at_once_requests
  have hlast := (h 1 (lostAtOnce ++ [.main Answers.success])).last run _ rfl handling hup
  have hown := (hlast.request hrequest).1
  rw [hfor, hconnection] at hown
  cases hown

end BleSpeedSensor
