import BleSpeedSensor.ByteMemory

namespace NorFlash

open ByteMemory

/-- What a flash controller does: a write clears bits, word by word, and an erase sets those of a
page. -/
inductive Op
  | write (dst src words : Nat)
  | erase (page : Nat)
  deriving DecidableEq, Repr

def OnPage (pageSize page a : Nat) : Prop := page * pageSize ≤ a ∧ a < (page + 1) * pageSize

instance (pageSize page a : Nat) : Decidable (OnPage pageSize page a) :=
  inferInstanceAs (Decidable (_ ∧ _))

def Op.apply (pageSize : Nat) (m : Memory) : Op → Memory
  | .write dst src words => fun a =>
    if dst ≤ a ∧ a < dst + 4 * words then m a &&& m (src + (a - dst)) else m a
  | .erase page => fun a => if OnPage pageSize page a then 0xFF else m a

variable {pageSize : Nat} {m : Memory}

end NorFlash
