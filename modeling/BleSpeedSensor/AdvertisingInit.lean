import BleSpeedSensor.AdvDataErrors
import BleSpeedSensor.AdvDataLaws

namespace BleSpeedSensor

open ByteMemory LengthTypeValue

variable {σ : Type}

/-- Advertising data have flags, and these say that BR/EDR is not supported. -/
def AdvData.LeOnly (ad : AdvData) : Prop :=
  0 < ad.flags.size ∧ ∃ data ∈ ad.flags.pData,
    data.getD 0 0 &&& bleGapAdvFlagBrEdrNotSupported ≠ 0

theorem advertisingAdvdata_leOnly : advertisingAdvdata.LeOnly := by
  refine ⟨by decide, _, rfl, by decide⟩

theorem not_pos_iff {v : UInt16} : ¬ 0 < v ↔ v = 0 := by
  have hzero : (0 : UInt16).toNat = 0 := rfl
  rw [UInt16.lt_iff_toNat_lt, ← UInt16.toNat_inj, hzero]
  omega

theorem advdataCheck_success_iff {ad : AdvData} : advdataCheck ad = nrfSuccess ↔ ad.LeOnly := by
  unfold advdataCheck AdvData.LeOnly
  cases hd : ad.flags.pData with
  | none => simp [nrfErrorInvalidParam, nrfSuccess]
  | some data =>
    simp only [Option.mem_def, Option.some.injEq]
    split
    next hbad =>
      refine iff_of_false (by decide) ?_
      rintro ⟨hpos, d, rfl, hbit⟩
      obtain hz | hz := hbad
      · exact not_pos_iff.mpr hz hpos
      · exact hbit hz
    next hgood =>
      refine iff_of_true rfl ⟨?_, data, rfl, fun hz => hgood (Or.inr hz)⟩
      apply Decidable.of_not_not
      intro hpos
      exact hgood (Or.inl (not_pos_iff.mp hpos))

theorem srdataCheck_success_iff {sr : AdvData} :
    srdataCheck sr = nrfSuccess ↔ sr.flags.size = 0 := by
  unfold srdataCheck
  split
  next hpos => exact iff_of_false (by decide) fun hz => not_pos_iff.mpr hz hpos
  next hz => exact iff_of_true rfl (not_pos_iff.mp hz)

/-- The descriptor is encoded: its parameters are in order, and what is checked for room has it. -/
def AdvData.Fits (port : GapPort σ) (name : List UInt8) (ad : AdvData) : Prop :=
  ad.Encodable port ∧ ad.HasRoom port name

section Set

variable {port : GapPort σ} {name : List UInt8} {check : AdvData → ErrCode} {stack : Memory}
  {given : Option AdvData}

theorem advPacket_some (port : GapPort σ) (check : AdvData → ErrCode) (stack : Memory)
    (ad : AdvData) :
    advPacket port check stack (some ad) =
      if check ad ≠ nrfSuccess then .error (check ad)
      else (advDataEncode port ad ⟨stack, 0⟩).map fun e => some e.bytes := rfl

theorem advPacket_ok (stack : Memory) (hp : port.Documented name)
    (h : ∀ ad ∈ given, check ad = nrfSuccess ∧ ad.Fits port name) :
    ∃ packet, advPacket port check stack given = .ok packet ∧
      ((∀ ad ∈ given, ad.Sane port name) →
        packet = given.map fun ad => wire (advFields port name ad)) := by
  cases given with
  | none => exact ⟨none, rfl, fun _ => rfl⟩
  | some ad =>
    obtain ⟨hcheck, hv, hroom⟩ := h ad rfl
    obtain ⟨e', hok⟩ := advDataEncode_room hp hv hroom ⟨stack, 0⟩
    refine ⟨some e'.bytes, ?_, fun hs => ?_⟩
    · rw [advPacket_some, if_neg (fun hne => hne hcheck), hok]
      rfl
    · obtain ⟨hb, -⟩ := advDataEncode_holding hp (hs ad rfl) hok
      rw [hb.bytes_eq]
      rfl

theorem advPacket_sane (hp : port.Documented name)
    (h : ∀ ad ∈ given, check ad = nrfSuccess ∧ ad.Fits port name)
    (hs : ∀ ad ∈ given, ad.Sane port name) :
    advPacket port check stack given = .ok (given.map fun ad => wire (advFields port name ad)) := by
  obtain ⟨packet, hok, hfields⟩ := advPacket_ok stack hp h
  rw [hok, hfields hs]

end Set

def advertisingInit (port : GapPort σ) (stackAdv stackSr : Memory) (w : σ) (uuidType : UInt8) :
    Except ErrCode σ :=
  let r := bleAdvdataSet port stackAdv stackSr w (some advertisingAdvdata)
    (some (advertisingScanrsp uuidType))
  (appErrorCheck r.1).map fun _ => r.2

section Init

variable {port : GapPort σ} {name : List UInt8} {uuidType : UInt8}

theorem advertisingScanrsp_packet (hp : port.Documented name)
    (hk : (port.uuidEncode ⟨sssUuidService, uuidType⟩).1 = nrfSuccess) (stack : Memory) :
    advPacket port srdataCheck stack (some (advertisingScanrsp uuidType)) =
      .ok (some (wire [serviceUuidField port uuidType])) := by
  have hfields := advertisingScanrsp_fields hp hk
  have hlen : (wire (advFields port name (advertisingScanrsp uuidType))).length ≤ 18 := by
    rw [hfields]
    simp only [wire_cons, wire_nil, List.append_nil, Field.bytes_length, serviceUuidField, serviceRaw]
    obtain hl | hl := hp.rawSize _ hk <;> omega
  have hsane : (advertisingScanrsp uuidType).Sane port name :=
    ⟨advertisingScanrsp_counted, by omega⟩
  have hsame : nameFields (advertisingScanrsp uuidType) name ++
      checkedFields port (advertisingScanrsp uuidType) =
      advFields port name (advertisingScanrsp uuidType) := by
    simp [advFields, serviceFields, advertisingScanrsp, advDataZero]
  have hroom : (advertisingScanrsp uuidType).HasRoom port name := by
    rw [advertisingScanrsp_counted.hasRoom_iff (advertisingScanrsp_encodable hk), hsame]
    simp only [bleGapAdvMaxSize]
    omega
  have hpacket := @advPacket_sane _ port name srdataCheck stack (some (advertisingScanrsp uuidType)) hp
    (by
      intro ad had
      obtain rfl := Option.some.inj had
      exact ⟨srdataCheck_success_iff.mpr rfl, advertisingScanrsp_encodable hk, hroom⟩)
    (by
      intro ad had
      obtain rfl := Option.some.inj had
      exact hsane)
  rw [hpacket, Option.map_some, hfields]

/-- The program starts to advertise when its name has at most 22 bytes, and then sends these fields;
with a longer name it halts. -/
theorem advertisingInit_sends (stackAdv stackSr : Memory) (w : σ) (hp : port.Documented name)
    (happ : port.appearanceGet.1 = nrfSuccess)
    (hk : (port.uuidEncode ⟨sssUuidService, uuidType⟩).1 = nrfSuccess) :
    advertisingInit port stackAdv stackSr w uuidType =
      if name.length ≤ 22 then
        let r := port.advDataSet w
          (some (wire [⟨adTypeShortLocalName, name⟩, appearanceField port,
            ⟨adTypeFlags, [bleGapAdvFlagsLeOnlyLimitedDiscMode]⟩]))
          (some (wire [serviceUuidField port uuidType]))
        (appErrorCheck r.1).map fun _ => r.2
      else .error nrfErrorDataSize := by
  unfold advertisingInit bleAdvdataSet
  rw [advertisingScanrsp_packet hp hk]
  have hcheck := advdataCheck_success_iff.mpr advertisingAdvdata_leOnly
  by_cases hshort : name.length ≤ 22
  · rw [if_pos hshort]
    have hpacket := @advPacket_sane _ port name advdataCheck stackAdv (some advertisingAdvdata) hp
      (by
        intro ad had
        obtain rfl := Option.some.inj had
        exact ⟨hcheck, advertisingAdvdata_encodable happ, advertisingAdvdata_hasRoom.mpr hshort⟩)
      (by
        intro ad had
        obtain rfl := Option.some.inj had
        refine advertisingAdvdata_sane ?_
        simp only [nameRoom, bleGapAdvMaxSize, advFlagOffset]
        omega)
    rw [hpacket, Option.map_some, advertisingAdvdata_fields]
  · have hfull : ¬advertisingAdvdata.HasRoom port name :=
      fun hroom => hshort (advertisingAdvdata_hasRoom.mp hroom)
    rw [if_neg hshort, advPacket_some, if_neg (fun hne => hne hcheck),
      advDataEncode_full hp (advertisingAdvdata_encodable happ) hfull]
    rfl

theorem advertisingInit_sends_sensor :
    advertisingInit speedSensorPort (fun _ => 0xAA) (fun _ => 0xAA) (none, none) 2 =
      .ok (some (wire [⟨adTypeShortLocalName, speedSensorName⟩, appearanceField speedSensorPort,
          ⟨adTypeFlags, [bleGapAdvFlagsLeOnlyLimitedDiscMode]⟩]),
        some (wire [serviceUuidField speedSensorPort 2])) := by
  rw [advertisingInit_sends _ _ _ speedSensorPort_documented rfl rfl, if_pos (by decide)]
  rfl

end Init

end BleSpeedSensor
