import BleSpeedSensor.NegotiatorInvariant

namespace BleSpeedSensor

open RunSystem

variable {ω ε : Type} {p : Platform ω ε}

end BleSpeedSensor
