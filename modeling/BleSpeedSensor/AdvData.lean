import BleSpeedSensor.ErrorCodes
import BleSpeedSensor.LengthTypeValue

namespace BleSpeedSensor

open ByteMemory

def bleGapAdvMaxSize : Nat := 31
def advFlagOffset : Nat := 2
def advDataOffset : Nat := 2

def adTypeFlags : UInt8 := 0x01
def adType16BitServiceUuidMoreAvailable : UInt8 := 0x02
def adType16BitServiceUuidComplete : UInt8 := 0x03
def adType128BitServiceUuidMoreAvailable : UInt8 := 0x06
def adType128BitServiceUuidComplete : UInt8 := 0x07
def adTypeShortLocalName : UInt8 := 0x08
def adTypeCompleteLocalName : UInt8 := 0x09
def adTypeTxPowerLevel : UInt8 := 0x0A
def adTypeSlaveConnectionIntervalRange : UInt8 := 0x12
def adTypeSolicitedServiceUuids16Bit : UInt8 := 0x14
def adTypeSolicitedServiceUuids128Bit : UInt8 := 0x15
def adTypeServiceData : UInt8 := 0x16
def adTypeAppearance : UInt8 := 0x19
def adTypeManufacturerSpecificData : UInt8 := 0xFF
def bleGapAdvFlagBrEdrNotSupported : UInt8 := 0x04

/-- An array and its size; a missing array may come with any size. -/
structure Uint8Array where
  size : UInt16
  pData : Option (List UInt8)
  sized : ∀ d ∈ pData, d.length = size.toNat

structure BleUuid where
  uuid : UInt16
  type : UInt8
  deriving DecidableEq, Repr

inductive NameType
  | noName
  | shortName
  | fullName
  deriving DecidableEq, Repr

structure ConnInt where
  minConnInterval : UInt16
  maxConnInterval : UInt16
  deriving DecidableEq, Repr

structure ManufData where
  companyIdentifier : UInt16
  data : Uint8Array

structure ServiceData where
  serviceUuid : UInt16
  data : Uint8Array

structure AdvData where
  nameType : NameType
  shortNameLen : UInt8
  includeAppearance : Bool
  flags : Uint8Array
  pTxPowerLevel : Option Int8
  uuidsMoreAvailable : List BleUuid
  uuidsComplete : List BleUuid
  uuidsSolicited : List BleUuid
  pSlaveConnInt : Option ConnInt
  pManufSpecificData : Option ManufData
  pServiceDataArray : Option (List ServiceData)
  serviceDataCount : UInt8
  sized : ∀ a ∈ pServiceDataArray, a.length = serviceDataCount.toNat

/-- The SoftDevice as the encoder calls it. `deviceNameGet` takes the room in the buffer and answers
with the bytes it put there and the length it reports; `uuidEncode` with the raw bytes;
`advDataSet` takes the packets whose pointer is not `NULL`. -/
structure GapPort (σ : Type) where
  deviceNameGet : UInt16 → ErrCode × List UInt8 × UInt16
  appearanceGet : ErrCode × UInt16
  uuidEncode : BleUuid → ErrCode × List UInt8
  advDataSet : σ → Option (List UInt8) → Option (List UInt8) → ErrCode × σ

/-- `p_encoded_data` and `*p_len`. The buffer has 31 bytes, the memory goes on behind it. -/
structure Encoded where
  data : Memory
  len : UInt8

/-- Bytes stored at `p_encoded_data[*p_len]`, and `*p_len` moved behind them. -/
def Encoded.put (e : Encoded) (bytes : List UInt8) : Encoded :=
  { data := copy e.data e.len.toNat bytes, len := e.len + UInt8.ofNat bytes.length }

/-- What the first `*p_len` bytes of the buffer are. -/
def Encoded.bytes (e : Encoded) : List UInt8 := (List.range e.len.toNat).map e.data

abbrev Encoder := Encoded → Except ErrCode Encoded

def uint16Encode (value : UInt16) : List UInt8 :=
  [UInt8.ofNat (value.toNat % 256), UInt8.ofNat (value.toNat / 256 % 256)]

variable {σ : Type}

def nameEncode (port : GapPort σ) (ad : AdvData) : Encoder := fun e =>
  let advOffset := e.len.toNat
  if bleGapAdvMaxSize < advOffset + advDataOffset ∨
      bleGapAdvMaxSize < ad.shortNameLen.toNat + advDataOffset then
    .error nrfErrorDataSize
  else
    let room := UInt16.ofNat (bleGapAdvMaxSize - advOffset - advFlagOffset)
    let answer := port.deviceNameGet room
    let actualLength := answer.2.2
    if answer.1 ≠ nrfSuccess then .error answer.1
    else
      let data := copy e.data (advOffset + advDataOffset) answer.2.1
      let full := ad.nameType = .fullName ∧ actualLength ≤ room
      let advDataFormat := if full then adTypeCompleteLocalName else adTypeShortLocalName
      let remAdvDataLen :=
        if full then actualLength
        else if ad.shortNameLen ≠ 0 ∧ ad.shortNameLen.toUInt16 ≤ room then
          ad.shortNameLen.toUInt16
        else actualLength
      let data := copy data advOffset [(remAdvDataLen + 1).toUInt8]
      let data := copy data (advOffset + 1) [advDataFormat]
      .ok { data := data, len := e.len + (remAdvDataLen + 2).toUInt8 }

def appearanceEncode (port : GapPort σ) : Encoder := fun e =>
  if bleGapAdvMaxSize < e.len.toNat + 4 then .error nrfErrorDataSize
  else if port.appearanceGet.1 ≠ nrfSuccess then .error port.appearanceGet.1
  else .ok (((e.put [3]).put [adTypeAppearance]).put (uint16Encode port.appearanceGet.2))

def uint8ArrayEncode (array : Uint8Array) (advType : UInt8) : Encoder := fun e =>
  match array.pData with
  | none => .error nrfErrorInvalidParam
  | some data =>
    if bleGapAdvMaxSize < e.len.toNat + advDataOffset + array.size.toNat then
      .error nrfErrorDataSize
    else .ok (((e.put [UInt8.ofNat (1 + array.size.toNat)]).put [advType]).put data)

def txPowerLevelEncode (txPowerLevel : Int8) : Encoder := fun e =>
  if bleGapAdvMaxSize < e.len.toNat + 3 then .error nrfErrorDataSize
  else .ok (((e.put [2]).put [adTypeTxPowerLevel]).put [txPowerLevel.toUInt8])

/-- One round of the loop over the list; the first UUID of the size leaves a byte for the length. -/
def uuidSizedStep (port : GapPort σ) (advType uuidSize : UInt8) (isHeadingWritten : Bool)
    (e : Encoded) (uuid : BleUuid) : Except ErrCode (Bool × Encoded) :=
  let answer := port.uuidEncode uuid
  let encodedSize := UInt8.ofNat answer.2.length
  if answer.1 ≠ nrfSuccess then .error answer.1
  else if encodedSize = uuidSize then
    let headingBytes := if isHeadingWritten then 0 else 2
    if bleGapAdvMaxSize < e.len.toNat + encodedSize.toNat + headingBytes then
      .error nrfErrorDataSize
    else
      let e := if isHeadingWritten then e else ({ e with len := e.len + 1 } : Encoded).put [advType]
      .ok (true, e.put answer.2)
  else .ok (isHeadingWritten, e)

def uuidSizedLoop (port : GapPort σ) (advType uuidSize : UInt8) :
    List BleUuid → Bool → Encoded → Except ErrCode (Bool × Encoded)
  | [], isHeadingWritten, e => .ok (isHeadingWritten, e)
  | uuid :: uuids, isHeadingWritten, e =>
    uuidSizedStep port advType uuidSize isHeadingWritten e uuid >>= fun r =>
      uuidSizedLoop port advType uuidSize uuids r.1 r.2

def uuidListSizedEncode (port : GapPort σ) (uuids : List BleUuid) (advType uuidSize : UInt8) :
    Encoder := fun e =>
  let startPos := e.len
  uuidSizedLoop port advType uuidSize uuids false e >>= fun r =>
    if r.1 then
      .ok { r.2 with data := copy r.2.data startPos.toNat [r.2.len - (startPos + 1)] }
    else .ok r.2

def uuidListEncode (port : GapPort σ) (uuids : List BleUuid) (advType16 advType128 : UInt8) :
    Encoder := fun e =>
  uuidListSizedEncode port uuids advType16 2 e >>= uuidListSizedEncode port uuids advType128 16

def connIntCheck (connInt : ConnInt) : ErrCode :=
  if connInt.minConnInterval < 0x0006 ∨
      (0x0c80 < connInt.minConnInterval ∧ connInt.minConnInterval ≠ 0xffff) then
    nrfErrorInvalidParam
  else if connInt.maxConnInterval < 0x0006 ∨
      (0x0c80 < connInt.maxConnInterval ∧ connInt.maxConnInterval ≠ 0xffff) then
    nrfErrorInvalidParam
  else if connInt.minConnInterval ≠ 0xffff ∧ connInt.maxConnInterval ≠ 0xffff ∧
      connInt.maxConnInterval < connInt.minConnInterval then
    nrfErrorInvalidParam
  else nrfSuccess

def connIntEncode (connInt : ConnInt) : Encoder := fun e =>
  if bleGapAdvMaxSize < e.len.toNat + advDataOffset + 4 then .error nrfErrorDataSize
  else if connIntCheck connInt ≠ nrfSuccess then .error (connIntCheck connInt)
  else
    .ok ((((e.put [5]).put [adTypeSlaveConnectionIntervalRange]).put
      (uint16Encode connInt.minConnInterval)).put (uint16Encode connInt.maxConnInterval))

def manufSpecificDataEncode (manuf : ManufData) : Encoder := fun e =>
  let dataSize := UInt8.ofNat (2 + manuf.data.size.toNat)
  if bleGapAdvMaxSize < e.len.toNat + advDataOffset + dataSize.toNat then .error nrfErrorDataSize
  else
    let e := ((e.put [1 + dataSize]).put [adTypeManufacturerSpecificData]).put
      (uint16Encode manuf.companyIdentifier)
    if 0 < manuf.data.size then
      match manuf.data.pData with
      | none => .error nrfErrorInvalidParam
      | some data => .ok (e.put data)
    else .ok e

/-- One round of the loop; no size is checked. -/
def serviceDataStep (service : ServiceData) : Encoder := fun e =>
  let dataSize := UInt8.ofNat (2 + service.data.size.toNat)
  let e := ((e.put [1 + dataSize]).put [adTypeServiceData]).put (uint16Encode service.serviceUuid)
  if 0 < service.data.size then
    match service.data.pData with
    | none => .error nrfErrorInvalidParam
    | some data => .ok (e.put data)
  else .ok e

def serviceDataLoop : List ServiceData → Encoder
  | [], e => .ok e
  | service :: services, e => serviceDataStep service e >>= serviceDataLoop services

def serviceDataEncode (ad : AdvData) : Encoder := fun e =>
  match ad.pServiceDataArray with
  | none => .error nrfErrorInvalidParam
  | some services => serviceDataLoop services e

def encodeWhen (wanted : Bool) (f : Encoder) : Encoder := fun e => if wanted then f e else .ok e

def encodeGiven {α : Type} (given : Option α) (f : α → Encoder) : Encoder := fun e =>
  match given with
  | none => .ok e
  | some a => f a e

def advDataEncode (port : GapPort σ) (ad : AdvData) : Encoder := fun e => do
  let e := { e with len := 0 }
  let e ← encodeWhen (ad.nameType ≠ .noName) (nameEncode port ad) e
  let e ← encodeWhen ad.includeAppearance (appearanceEncode port) e
  let e ← encodeWhen (0 < ad.flags.size) (uint8ArrayEncode ad.flags adTypeFlags) e
  let e ← encodeGiven ad.pTxPowerLevel txPowerLevelEncode e
  let e ← encodeWhen (0 < ad.uuidsMoreAvailable.length)
    (uuidListEncode port ad.uuidsMoreAvailable adType16BitServiceUuidMoreAvailable
      adType128BitServiceUuidMoreAvailable) e
  let e ← encodeWhen (0 < ad.uuidsComplete.length)
    (uuidListEncode port ad.uuidsComplete adType16BitServiceUuidComplete
      adType128BitServiceUuidComplete) e
  let e ← encodeWhen (0 < ad.uuidsSolicited.length)
    (uuidListEncode port ad.uuidsSolicited adTypeSolicitedServiceUuids16Bit
      adTypeSolicitedServiceUuids128Bit) e
  let e ← encodeGiven ad.pSlaveConnInt connIntEncode e
  let e ← encodeGiven ad.pManufSpecificData manufSpecificDataEncode e
  encodeWhen (0 < ad.serviceDataCount) (serviceDataEncode ad) e

def advdataCheck (ad : AdvData) : ErrCode :=
  match ad.flags.pData with
  | none => nrfErrorInvalidParam
  | some data =>
    if ad.flags.size = 0 ∨ data.getD 0 0 &&& bleGapAdvFlagBrEdrNotSupported = 0 then
      nrfErrorInvalidParam
    else nrfSuccess

def srdataCheck (sr : AdvData) : ErrCode :=
  if 0 < sr.flags.size then nrfErrorInvalidParam else nrfSuccess

/-- One of the two packets: checked, encoded into a buffer on the stack; nothing without a
descriptor. -/
def advPacket (port : GapPort σ) (check : AdvData → ErrCode) (stack : Memory) :
    Option AdvData → Except ErrCode (Option (List UInt8))
  | none => .ok none
  | some ad =>
    if check ad ≠ nrfSuccess then .error (check ad)
    else (advDataEncode port ad ⟨stack, 0⟩).map fun e => some e.bytes

/-- The buffers are on the stack: `stackAdv` and `stackSr` are what lies there before. -/
def bleAdvdataSet (port : GapPort σ) (stackAdv stackSr : Memory) (w : σ)
    (pAdvdata pSrdata : Option AdvData) : ErrCode × σ :=
  match advPacket port advdataCheck stackAdv pAdvdata with
  | .error errCode => (errCode, w)
  | .ok encodedAdvdata =>
    match advPacket port srdataCheck stackSr pSrdata with
    | .error errCode => (errCode, w)
    | .ok encodedSrdata => port.advDataSet w encodedAdvdata encodedSrdata

end BleSpeedSensor
