namespace BleSpeedSensor

abbrev ConnHandle := UInt16

def bleConnHandleInvalid : ConnHandle := 0xFFFF

structure GapConnParams where
  minConnInterval : UInt16
  maxConnInterval : UInt16
  slaveLatency : UInt16
  connSupTimeout : UInt16
  deriving DecidableEq, Repr

structure GapSecParams where
  timeout : UInt16
  bond : Bool
  mitm : Bool
  ioCaps : UInt8
  oob : Bool
  minKeySize : UInt8
  maxKeySize : UInt8
  deriving DecidableEq, Repr

structure GapEncInfo where
  div : UInt16
  ltk : Vector UInt8 16
  auth : Bool
  ltkLen : UInt8
  deriving DecidableEq, Repr

def GapEncInfo.zero : GapEncInfo := ⟨0, Vector.replicate 16 0, false, 0⟩

structure GapSecKeys where
  ltk : Bool
  edivRand : Bool
  irk : Bool
  address : Bool
  csrk : Bool
  deriving DecidableEq, Repr

def bleGapSecStatusSuccess : UInt8 := 0
def bleGapTimeoutSrcAdvertisement : UInt8 := 0

structure GapEvtAuthStatus where
  authStatus : UInt8
  errorSrc : UInt8
  periphKex : GapSecKeys
  centralKex : GapSecKeys
  encInfo : GapEncInfo
  deriving DecidableEq, Repr

def GapEvtAuthStatus.zero : GapEvtAuthStatus :=
  ⟨0, 0, ⟨false, false, false, false, false⟩, ⟨false, false, false, false, false⟩, GapEncInfo.zero⟩

/-- The events some module acts on, with the parameters it reads; `other` is any other event. -/
inductive BleEvt
  | gapConnected (connHandle : ConnHandle) (connParams : GapConnParams)
  | gapDisconnected
  | gapConnParamUpdate (connParams : GapConnParams)
  | gapSecParamsRequest
  | gapSecInfoRequest (div : UInt16)
  | gapAuthStatus (authStatus : GapEvtAuthStatus)
  | gapTimeout (src : UInt8)
  | gattsWrite (handle : UInt16) (data : List UInt8)
  | gattsSysAttrMissing
  | other
  deriving DecidableEq, Repr

def BleEvt.authStatus? : BleEvt → Option GapEvtAuthStatus
  | .gapAuthStatus authStatus => some authStatus
  | _ => none

inductive Request
  | secParams
  | secInfo
  | sysAttr
  deriving DecidableEq, Repr

def BleEvt.request? : BleEvt → Option Request
  | .gapSecParamsRequest => some .secParams
  | .gapSecInfoRequest _ => some .secInfo
  | .gattsSysAttrMissing => some .sysAttr
  | _ => none

structure GapAdvParams where
  type : UInt8
  peerAddr : Option UInt64
  fp : UInt8
  interval : UInt16
  timeout : UInt16
  deriving DecidableEq, Repr

inductive SdCall
  | gapAdvStart (advParams : GapAdvParams)
  | gapSecParamsReply (connHandle : ConnHandle) (secStatus : UInt8) (secParams : GapSecParams)
  | gattsSysAttrSet (connHandle : ConnHandle) (sysAttrData : Option (List UInt8)) (len : Nat)
  | gapSecInfoReply (connHandle : ConnHandle) (encInfo : Option GapEncInfo)
  | powerSystemOff
  deriving DecidableEq, Repr

end BleSpeedSensor
