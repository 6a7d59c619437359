import BleSpeedSensor.ConnParams

namespace BleSpeedSensor

/-- The statements of `update_timeout_handler`, by what comes next. -/
inductive UpdatePc
  | checkHandle
  | increment
  | compare
  | request
  | resetCount
  | checkDisconnect
  | disconnect
  | notify
  | returned
  deriving DecidableEq, Repr

variable {σ : Type}

/-- One statement of `update_timeout_handler`; the statics are read when it is executed. -/
def updateStep (port : ConnParamsPort σ) (cp : ConnParams) (w : σ) :
    UpdatePc → Except ErrCode (ConnParams × σ × UpdatePc)
  | .checkHandle =>
    .ok (cp, w, if cp.connHandle ≠ bleConnHandleInvalid then .increment else .returned)
  | .increment => .ok ({ cp with updateCount := cp.updateCount + 1 }, w, .compare)
  | .compare =>
    .ok (cp, w, if cp.updateCount ≤ cp.config.maxConnParamsUpdateCount then .request else .resetCount)
  | .request =>
    (errorHandled (port.connParamUpdate cp.connHandle cp.preferredConnParams w)).map
      fun w => (cp, w, .returned)
  | .resetCount => .ok ({ cp with updateCount := 0 }, w, .checkDisconnect)
  | .checkDisconnect =>
    .ok (cp, w, if cp.config.disconnectOnFail then .disconnect else .notify)
  | .disconnect =>
    (errorHandled (port.disconnect cp.connHandle bleHciConnIntervalUnacceptable w)).map
      fun w => (cp, w, .notify)
  | .notify => (port.evtHandler .failed w).map fun w => (cp, w, .returned)
  | .returned => .ok (cp, w, .returned)

def updateRun (port : ConnParamsPort σ) : Nat → ConnParams × σ × UpdatePc →
    Except ErrCode (ConnParams × σ × UpdatePc)
  | 0, s => .ok s
  | n + 1, s => (updateStep port s.1 s.2.1 s.2.2).bind (updateRun port n)

@[simp] theorem updateRun_returned (port : ConnParamsPort σ) (n : Nat) (cp : ConnParams) (w : σ) :
    updateRun port n (cp, w, .returned) = .ok (cp, w, .returned) := by
  induction n with
  | zero => rfl
  | succ n ih => exact ih

theorem updateRun_step {port : ConnParamsPort σ} {cp cp' : ConnParams} {w w' : σ} {pc pc' : UpdatePc}
    (h : updateStep port cp w pc = .ok (cp', w', pc')) (n : Nat) :
    updateRun port (n + 1) (cp, w, pc) = updateRun port n (cp', w', pc') :=
  congrArg (Except.bind · (updateRun port n)) h

theorem updateRun_call {port : ConnParamsPort σ} {cp : ConnParams} {w : σ} {pc pc' : UpdatePc}
    {call : Except ErrCode σ} (h : updateStep port cp w pc = call.map fun w => (cp, w, pc')) (n : Nat) :
    updateRun port (n + 1) (cp, w, pc) = call.bind fun w => updateRun port n (cp, w, pc') := by
  have hbind : updateRun port (n + 1) (cp, w, pc) =
      (updateStep port cp w pc).bind (updateRun port n) := rfl
  rw [hbind, h]
  cases call <;> rfl

theorem updateRun_last {port : ConnParamsPort σ} {cp : ConnParams} {w : σ} {pc : UpdatePc}
    {call : Except ErrCode σ} (h : updateStep port cp w pc = call.map fun w => (cp, w, .returned))
    (n : Nat) :
    updateRun port (n + 1) (cp, w, pc) = call.map fun w => (cp, w, .returned) := by
  rw [updateRun_call h]
  cases call with
  | error code => rfl
  | ok w => exact updateRun_returned port n cp w

theorem updateRun_fail (port : ConnParamsPort σ) (cp : ConnParams) (w : σ) :
    updateRun port 3 (cp, w, .checkDisconnect) =
      ((if cp.config.disconnectOnFail then
          errorHandled (port.disconnect cp.connHandle bleHciConnIntervalUnacceptable w)
        else .ok w).bind (port.evtHandler .failed)).map fun w => (cp, w, .returned) := by
  have hcheck := updateRun_step (show updateStep port cp w .checkDisconnect = .ok _ from rfl) 2
  rw [hcheck]
  by_cases hdrop : cp.config.disconnectOnFail = true
  · have hstep : updateStep port cp w .disconnect =
        (errorHandled (port.disconnect cp.connHandle bleHciConnIntervalUnacceptable w)).map
          fun w => (cp, w, .notify) := rfl
    rw [if_pos hdrop, if_pos hdrop, updateRun_call hstep]
    cases errorHandled (port.disconnect cp.connHandle bleHciConnIntervalUnacceptable w) with
    | error code => rfl
    | ok w => exact updateRun_last rfl 0
  · rw [if_neg hdrop, if_neg hdrop]
    exact updateRun_last rfl 1

theorem updateRun_notified (port : ConnParamsPort σ) (cp : ConnParams) (w : σ) :
    (port.evtHandler .failed w).map (fun w => (cp, w, UpdatePc.returned)) =
      (port.evtHandler .failed w >>= fun w => pure (cp, w)).map fun r => (r.1, r.2, .returned) := by
  cases port.evtHandler .failed w <;> rfl

/-- Executed without interruption the statements make up the handler. -/
theorem updateRun_eq_updateTimeoutHandler (port : ConnParamsPort σ) (cp : ConnParams) (w : σ) :
    updateRun port 7 (cp, w, .checkHandle) =
      (updateTimeoutHandler port cp w).map fun r => (r.1, r.2, .returned) := by
  rw [updateRun_step (show updateStep port cp w .checkHandle = .ok _ from rfl) 6]
  unfold updateTimeoutHandler
  by_cases hup : cp.connHandle ≠ bleConnHandleInvalid
  · rw [if_pos hup, if_pos hup, updateRun_step rfl 5, updateRun_step rfl 4]
    simp only [updateOrFail]
    split
    next =>
      rw [updateRun_last rfl 3]
      cases errorHandled (port.connParamUpdate cp.connHandle cp.preferredConnParams w) <;> rfl
    next =>
      rw [updateRun_step rfl 3, updateRun_fail]
      dsimp only
      split
      · cases errorHandled (port.disconnect cp.connHandle bleHciConnIntervalUnacceptable w) with
        | error code => rfl
        | ok w => exact updateRun_notified port _ w
      · exact updateRun_notified port _ w
  · rw [if_neg hup, if_neg hup, updateRun_returned]
    rfl

end BleSpeedSensor
