import BleSpeedSensor.ErrorCodes
import BleSpeedSensor.BleEvents

namespace BleSpeedSensor

/-- The fields of `ble_sss_t` in use once the service is set up. -/
structure Sss where
  connHandle : ConnHandle
  valueHandle : UInt16
  deriving DecidableEq, Repr

def Sss.init (valueHandle : UInt16) : Sss := ⟨bleConnHandleInvalid, valueHandle⟩

def bleSssOnBleEvt (sss : Sss) : BleEvt → Sss
  | .gapConnected connHandle _ => { sss with connHandle := connHandle }
  | .gapDisconnected => { sss with connHandle := bleConnHandleInvalid }
  | _ => sss

def bleGattHvxNotification : UInt8 := 1

structure HvxParams where
  handle : UInt16
  type : UInt8
  data : List UInt8
  deriving DecidableEq, Repr

/-- `hvx` is `sd_ble_gatts_hvx`: its answer and what it leaves of the SoftDevice's state. -/
def bleSssOnSpeedChange {σ : Type} (hvx : σ → ConnHandle → HvxParams → ErrCode × σ) (sss : Sss)
    (w : σ) (actualSpeed : UInt8) : ErrCode × σ :=
  hvx w sss.connHandle ⟨sss.valueHandle, bleGattHvxNotification, [actualSpeed]⟩

/-- The call narrows `speed_data` to a byte. -/
def speedEventHandler {σ : Type} (hvx : σ → ConnHandle → HvxParams → ErrCode × σ) (sss : Sss)
    (w : σ) (speedData : UInt32) : Except ErrCode σ :=
  let r := bleSssOnSpeedChange hvx sss w speedData.toUInt8
  if r.1 ≠ nrfSuccess ∧ r.1 ≠ bleErrorInvalidConnHandle ∧ r.1 ≠ nrfErrorInvalidState then
    (appErrorCheck r.1).map fun _ => r.2
  else .ok r.2

theorem toUInt8_toNat_of_lt {v : UInt32} (h : v < 256) : v.toUInt8.toNat = v.toNat := by
  have : v.toNat < 256 := UInt32.lt_iff_toNat_lt.mp h
  rw [UInt32.toNat_toUInt8]
  omega

section Handler

variable {σ : Type} {hvx : σ → ConnHandle → HvxParams → ErrCode × σ} {sss : Sss} {w : σ}
  {speedData : UInt32}

theorem speedEventHandler_ok
    (h : (bleSssOnSpeedChange hvx sss w speedData.toUInt8).1 ∈
      [nrfSuccess, bleErrorInvalidConnHandle, nrfErrorInvalidState]) :
    speedEventHandler hvx sss w speedData =
      .ok (bleSssOnSpeedChange hvx sss w speedData.toUInt8).2 := by
  simp only [List.mem_cons, List.not_mem_nil, or_false] at h
  unfold speedEventHandler
  exact if_neg fun ⟨h₀, h₁, h₂⟩ => h.elim h₀ fun h => h.elim h₁ h₂

theorem speedEventHandler_halts
    (h : (bleSssOnSpeedChange hvx sss w speedData.toUInt8).1 ∉
      [nrfSuccess, bleErrorInvalidConnHandle, nrfErrorInvalidState]) :
    speedEventHandler hvx sss w speedData =
      .error (bleSssOnSpeedChange hvx sss w speedData.toUInt8).1 := by
  simp only [List.mem_cons, List.not_mem_nil, or_false, not_or] at h
  unfold speedEventHandler
  rw [if_pos h]
  simp [appErrorCheck, appErrorHandler, h.1, Except.map]

end Handler

end BleSpeedSensor
