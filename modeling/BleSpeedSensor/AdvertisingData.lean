import BleSpeedSensor.AdvDataRoom

namespace BleSpeedSensor

open ByteMemory LengthTypeValue

variable {σ : Type}

def sssUuidService : UInt16 := 0x1523
def bleGapAdvFlagsLeOnlyLimitedDiscMode : UInt8 := 0x05

/-- A descriptor after `memset`. -/
def advDataZero : AdvData where
  nameType := .noName
  shortNameLen := 0
  includeAppearance := false
  flags := ⟨0, none, by simp⟩
  pTxPowerLevel := none
  uuidsMoreAvailable := []
  uuidsComplete := []
  uuidsSolicited := []
  pSlaveConnInt := none
  pManufSpecificData := none
  pServiceDataArray := none
  serviceDataCount := 0
  sized := by simp

def advertisingAdvdata : AdvData :=
  { advDataZero with
    nameType := .shortName
    includeAppearance := true
    flags := ⟨1, some [bleGapAdvFlagsLeOnlyLimitedDiscMode], by simp⟩ }

def advertisingScanrsp (uuidType : UInt8) : AdvData :=
  { advDataZero with uuidsComplete := [⟨sssUuidService, uuidType⟩] }

variable {port : GapPort σ} {name : List UInt8} {uuidType : UInt8}

/-- The raw bytes of the service's UUID. -/
def serviceRaw (port : GapPort σ) (uuidType : UInt8) : List UInt8 :=
  (port.uuidEncode ⟨sssUuidService, uuidType⟩).2

def serviceUuidField (port : GapPort σ) (uuidType : UInt8) : Field :=
  ⟨if (serviceRaw port uuidType).length = 2 then adType16BitServiceUuidComplete
    else adType128BitServiceUuidComplete, serviceRaw port uuidType⟩

theorem advertisingAdvdata_fields (port : GapPort σ) (name : List UInt8) :
    advFields port name advertisingAdvdata =
      [⟨adTypeShortLocalName, name⟩, appearanceField port,
        ⟨adTypeFlags, [bleGapAdvFlagsLeOnlyLimitedDiscMode]⟩] := by
  have hlen : advertisingAdvdata.nameLen name = name.length := by
    simp [AdvData.nameLen, AdvData.FullName, advertisingAdvdata, advDataZero]
  have hname : nameField advertisingAdvdata name = ⟨adTypeShortLocalName, name⟩ := by
    simp only [nameField, hlen, List.take_length]
    simp [AdvData.FullName, advertisingAdvdata, advDataZero]
  have hnames : nameFields advertisingAdvdata name = [⟨adTypeShortLocalName, name⟩] := by
    rw [← hname]
    rfl
  rw [advFields, hnames]
  rfl

theorem uuidFields_single (hp : port.Documented name) {uuid : BleUuid} (type16 type128 : UInt8)
    (hk : (port.uuidEncode uuid).1 = nrfSuccess) :
    uuidFields port [uuid] type16 type128 =
      [⟨if (port.uuidEncode uuid).2.length = 2 then type16 else type128,
        (port.uuidEncode uuid).2⟩] := by
  obtain hl | hl := hp.rawSize uuid hk
  · simp [uuidFields, rawOfSize, rawFields, hl]
  · simp [uuidFields, rawOfSize, rawFields, hl]

theorem advertisingScanrsp_fields (hp : port.Documented name)
    (hk : (port.uuidEncode ⟨sssUuidService, uuidType⟩).1 = nrfSuccess) :
    advFields port name (advertisingScanrsp uuidType) = [serviceUuidField port uuidType] := by
  have hsingle := uuidFields_single hp adType16BitServiceUuidComplete
    adType128BitServiceUuidComplete hk
  rw [serviceUuidField, serviceRaw, ← hsingle]
  simp [advFields, nameFields, checkedFields, frontFields, serviceFields, advertisingScanrsp,
    advDataZero, uuidFields, rawOfSize, rawFields]

theorem advertisingAdvdata_encodable (happ : port.appearanceGet.1 = nrfSuccess) :
    advertisingAdvdata.Encodable port := by
  refine ⟨fun _ => happ, fun _ => rfl, ?_, ?_, ?_, ?_⟩
  · intro uuid hu
    cases hu
  · intro connInt hc
    cases hc
  · intro manuf hm
    cases hm
  · intro hpos
    exact absurd hpos (by decide)

theorem advertisingScanrsp_encodable
    (hk : (port.uuidEncode ⟨sssUuidService, uuidType⟩).1 = nrfSuccess) :
    (advertisingScanrsp uuidType).Encodable port := by
  refine ⟨?_, ?_, ?_, ?_, ?_, ?_⟩
  · intro hi
    cases hi
  · intro hpos
    have hzero : (0 : UInt16) < 0 := hpos
    exact absurd hzero (by decide)
  · intro uuid hu
    obtain rfl := List.mem_singleton.mp hu
    exact hk
  · intro connInt hc
    cases hc
  · intro manuf hm
    cases hm
  · intro hpos
    have hzero : (0 : UInt8) < 0 := hpos
    exact absurd hzero (by decide)

theorem advertisingAdvdata_counted (hle : name.length ≤ nameRoom) :
    advertisingAdvdata.Counted name := by
  refine ⟨fun _ => ⟨by decide, ?_⟩, ?_⟩
  · exact Or.inr (Or.inr ⟨rfl, hle⟩)
  · intro manuf hm
    cases hm

theorem advertisingScanrsp_counted : (advertisingScanrsp uuidType).Counted name := by
  refine ⟨fun hne => absurd rfl hne, ?_⟩
  intro manuf hm
  cases hm

/-- Name, appearance and flags of the advertising data: nine bytes and the name. -/
theorem advertisingAdvdata_length (port : GapPort σ) (name : List UInt8) :
    (wire (advFields port name advertisingAdvdata)).length = name.length + 9 := by
  rw [advertisingAdvdata_fields]
  simp only [wire_cons, wire_nil, List.length_append, Field.bytes_length, appearanceField,
    uint16Encode_length, List.length_cons, List.length_nil]

theorem advertisingAdvdata_checked (port : GapPort σ) (name : List UInt8) :
    nameFields advertisingAdvdata name ++ checkedFields port advertisingAdvdata =
      advFields port name advertisingAdvdata := by
  simp [advFields, serviceFields, advertisingAdvdata, advDataZero]

/-- The name has 22 bytes of room, beside appearance and flags. -/
theorem advertisingAdvdata_hasRoom :
    advertisingAdvdata.HasRoom port name ↔ name.length ≤ 22 := by
  have hspan : advertisingAdvdata.nameSpan name = name.length + 2 := by
    simp [AdvData.nameSpan, AdvData.nameLen, AdvData.FullName, advertisingAdvdata, advDataZero,
      advDataOffset]
  have hchecked : advertisingAdvdata.checkedSpan port = 7 := rfl
  constructor
  · rintro ⟨-, hroom⟩
    rw [hspan, hchecked] at hroom
    simp only [bleGapAdvMaxSize] at hroom
    omega
  · intro hle
    refine ⟨fun _ => Nat.zero_le _, Or.inr ?_⟩
    rw [hspan, hchecked]
    simp only [bleGapAdvMaxSize]
    omega

theorem advertisingAdvdata_sane (hle : name.length ≤ nameRoom) :
    advertisingAdvdata.Sane port name := by
  refine ⟨advertisingAdvdata_counted hle, ?_⟩
  rw [advertisingAdvdata_length]
  simp only [nameRoom, bleGapAdvMaxSize, advFlagOffset] at hle
  omega

/-- `DEVICE_NAME`, "BLE Speed Sensor". -/
def speedSensorName : List UInt8 :=
  [0x42, 0x4C, 0x45, 0x20, 0x53, 0x70, 0x65, 0x65, 0x64, 0x20, 0x53, 0x65, 0x6E, 0x73, 0x6F, 0x72]

/-- A SoftDevice that keeps the packets; the name is the program's, its service's UUID is of its own
base. -/
def speedSensorPort : GapPort (Option (List UInt8) × Option (List UInt8)) where
  deviceNameGet room := (nrfSuccess, speedSensorName.take room.toNat, 16)
  appearanceGet := (nrfSuccess, 0)
  uuidEncode uuid :=
    if uuid.type = 1 then (nrfSuccess, uint16Encode uuid.uuid)
    else (nrfSuccess, [0x23, 0xD1, 0xBC, 0xEA, 0x5F, 0x78, 0x23, 0x15, 0xDE, 0xEF, 0x12, 0x12] ++
      uint16Encode uuid.uuid ++ [0, 0])
  advDataSet _ pData pSrData := (nrfSuccess, pData, pSrData)

theorem speedSensorPort_documented : speedSensorPort.Documented speedSensorName := by
  refine ⟨by decide, fun _ => rfl, ?_⟩
  intro uuid _
  unfold speedSensorPort
  simp only
  split
  next => exact Or.inl rfl
  next => exact Or.inr rfl

end BleSpeedSensor
