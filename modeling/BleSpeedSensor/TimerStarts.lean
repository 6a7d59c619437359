import BleSpeedSensor.TimerDeadlines

namespace BleSpeedSensor

open DeltaQueue RunSystem

variable {γ : Type} {t u : AppTimer γ} {timerId : Nat}

def TimerCall.starts (timerId : Nat) : TimerCall γ → Bool
  | .start _ i _ _ => i == timerId
  | _ => false

/-- How far the counter had come since the last update when the timer was asked for. -/
def AppTimer.startedAt (t : AppTimer γ) (params : TimerUserOpStart γ) : Nat :=
  (ticksDiffGet params.ticksAtStart t.ticksLatest).toNat

/-- A start of the timer was asked for, `now` ticks have been counted since, and there has been no
update. -/
structure Requested (timerId : Nat) (params : TimerUserOpStart γ) (now : Nat) (t : AppTimer γ) :
    Prop where
  asleep : t.alarm timerId = none
  request : t.ops.findSome? (TimerUserOp.startOf timerId) = some params
  noStop : NoStop timerId t
  near : t.startedAt params < 8388607
  elapsed : t.running ≠ [] → t.elapsed = (t.startedAt params + now) % 16777216
  unread : ∀ n, t.ticksElapsed = some n → n.toNat ≤ t.startedAt params + now

section Requests

variable {params : TimerUserOpStart γ} {now : Nat}

theorem OnlyOps.requested (h : OnlyOps t u) (ht : Requested timerId params now t)
    (hrequest : u.ops.findSome? (TimerUserOp.startOf timerId) =
      t.ops.findSome? (TimerUserOp.startOf timerId)) (hstop : NoStop timerId u) :
    Requested timerId params now u := by
  have hat : u.startedAt params = t.startedAt params := by
    unfold AppTimer.startedAt
    rw [h.ticksLatest]
  obtain ⟨hasleep, hstart, -, hnear, helapsed, hunread⟩ := ht
  rw [← h.running, ← h.elapsed] at helapsed
  rw [← h.ticksElapsed] at hunread
  exact ⟨(h.alarm timerId).trans hasleep, hrequest.trans hstart, hstop, hat ▸ hnear, hat ▸ helapsed,
    hat ▸ hunread⟩

/-- The timer is in the list, and of the `timeout` ticks asked for `now` ticks ago it waits for those
that are left at least. -/
def Started (timerId timeout now : Nat) (t : AppTimer γ) : Prop :=
  ∃ deadline since, OnTime timerId deadline since t ∧ timeout + since ≤ deadline + now

theorem Started.run {timeout : Nat} (h : Clocked t) (hstop : NoStop timerId t)
    (ht : Started timerId timeout now t) {calls : List (TimerCall γ)}
    (hcalls : ∀ call ∈ calls, call.stops timerId = false) :
    timeout ≤ now + ticksOf calls ∨
      Started timerId timeout (now + ticksOf calls) (runFrom timerStep t calls) := by
  obtain ⟨deadline, since, honTime, hleft⟩ := ht
  rcases run_onTime h hstop honTime hcalls with hdue | hkept
  · left
    omega
  · exact Or.inr ⟨deadline, since + ticksOf calls, hkept, by omega⟩

end Requests

end BleSpeedSensor
