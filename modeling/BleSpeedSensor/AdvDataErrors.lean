import BleSpeedSensor.AdvDataPacket

namespace BleSpeedSensor

open ByteMemory LengthTypeValue

variable {σ : Type}

/-- No error is returned as success. -/
def Fails (f : Encoder) : Prop := ∀ e c, f e = .error c → c ≠ nrfSuccess

theorem fails_bind {α : Type} {x : Except ErrCode α} {f : α → Except ErrCode Encoded} {c : ErrCode}
    (h : (x >>= f) = .error c) (hx : ∀ c, x = .error c → c ≠ nrfSuccess)
    (hf : ∀ a c, f a = .error c → c ≠ nrfSuccess) : c ≠ nrfSuccess := by
  cases x with
  | error c' =>
    obtain rfl : c' = c := Except.error.inj h
    exact hx c' rfl
  | ok a => exact hf a c h

theorem Fails.andThen {f g : Encoder} (hf : Fails f) (hg : Fails g) : Fails fun e => f e >>= g := by
  intro e c h
  exact fails_bind h (hf e) hg

end BleSpeedSensor
