import BleSpeedSensor.PstorageLaws

namespace BleSpeedSensor

open ByteMemory NorFlash RunSystem

section Serial

variable {table : Nat → PstorageModule} {port : FlashPort} {m : Memory} {cmds : List PstorageCmd}
variable {a : Nat}

end Serial

end BleSpeedSensor
