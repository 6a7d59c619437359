import BleSpeedSensor.AdvDataPacket

namespace BleSpeedSensor

open ByteMemory LengthTypeValue

variable {σ : Type}

/-- The bytes the name moves `*p_len` on by; the room is not checked again once it is known. -/
def AdvData.nameSpan (ad : AdvData) (name : List UInt8) : Nat :=
  if ad.nameType = .noName then 0 else ad.nameLen name + advDataOffset

/-- The bytes manufacturer data are checked for: their size is counted in one byte. -/
def manufSpan (manuf : ManufData) : Nat := advDataOffset + (2 + manuf.data.size.toNat) % 256

def AdvData.checkedSpan (port : GapPort σ) (ad : AdvData) : Nat :=
  (wire (frontFields port ad)).length + ad.pManufSpecificData.elim 0 manufSpan

/-- The room the encoder asks for. A name behind which nothing is checked is not checked itself but
for its short length. -/
structure AdvData.HasRoom (port : GapPort σ) (name : List UInt8) (ad : AdvData) : Prop where
  short : ad.nameType ≠ .noName → ad.shortNameLen.toNat ≤ nameRoom
  checked : ad.checkedSpan port = 0 ∨
    ad.nameSpan name + ad.checkedSpan port ≤ bleGapAdvMaxSize

/-- What has to hold for the length byte of each field and `*p_len` to count what is put. -/
structure AdvData.Sane (port : GapPort σ) (name : List UInt8) (ad : AdvData) : Prop where
  counted : ad.Counted name
  size : (wire (advFields port name ad)).length ≤ 255

section Room

variable {port : GapPort σ} {name : List UInt8} {ad : AdvData}

theorem nameLen_max (hp : port.Documented name) (hshort : ad.shortNameLen.toNat ≤ nameRoom) :
    ad.nameLen name ≤ bleGapDevnameMaxLen := by
  have hmax := hp.nameMax
  simp only [nameRoom, bleGapAdvMaxSize, advFlagOffset] at hshort
  simp only [bleGapDevnameMaxLen] at hmax ⊢
  unfold AdvData.nameLen
  split
  next => exact hmax
  next => split <;> omega

theorem nameStage_len (hp : port.Documented name)
    (hshort : ad.nameType ≠ .noName → ad.shortNameLen.toNat ≤ nameRoom) (e : Encoded) :
    ∃ e', encodeWhen (ad.nameType ≠ .noName) (nameEncode port ad) { e with len := 0 } = .ok e' ∧
      e'.len.toNat = ad.nameSpan name := by
  unfold AdvData.nameSpan
  by_cases hname : ad.nameType = .noName
  · exact ⟨{ e with len := 0 }, by simp [encodeWhen, hname], by rw [if_pos hname]; rfl⟩
  · have hempty : ({ e with len := 0 } : Encoded).len = 0 := rfl
    have hle := hshort hname
    have hlen := nameLen_max hp hle
    have hstage : encodeWhen (ad.nameType ≠ .noName) (nameEncode port ad) { e with len := 0 } =
        nameEncode port ad { e with len := 0 } := by simp [encodeWhen, hname]
    refine ⟨_, hstage.trans (nameEncode_empty hp hle hempty), ?_⟩
    rw [if_neg hname, UInt8.toNat_ofNat', advDataOffset]
    simp only [bleGapDevnameMaxLen] at hlen
    omega

theorem nameStage_long (hname : ad.nameType ≠ .noName) (hlong : nameRoom < ad.shortNameLen.toNat)
    (e : Encoded) :
    encodeWhen (ad.nameType ≠ .noName) (nameEncode port ad) { e with len := 0 } =
      .error nrfErrorDataSize := by
  have hfull : nameEncode port ad { e with len := 0 } = .error nrfErrorDataSize := by
    unfold nameEncode
    simp only
    rw [if_pos]
    simp only [nameRoom, bleGapAdvMaxSize, advFlagOffset] at hlong
    simp only [bleGapAdvMaxSize, advDataOffset]
    omega
  simpa [encodeWhen, hname] using hfull

theorem wire_length_zero {fs : List Field} : (wire fs).length = 0 ↔ fs = [] := by
  cases fs with
  | nil => exact iff_of_true rfl rfl
  | cons f fs => simp

theorem manufSpecificDataEncode_room {manuf : ManufData} (h : manuf.data.Given) {e : Encoded}
    (hroom : e.len.toNat + manufSpan manuf ≤ bleGapAdvMaxSize) :
    ∃ e', manufSpecificDataEncode manuf e = .ok e' := by
  obtain ⟨e', he', -⟩ := tail_appends h
    (((e.put [1 + UInt8.ofNat (2 + manuf.data.size.toNat)]).put
      [adTypeManufacturerSpecificData]).put (uint16Encode manuf.companyIdentifier))
  refine ⟨e', ?_⟩
  unfold manufSpan at hroom
  unfold manufSpecificDataEncode
  simp only
  rw [if_neg (by rw [UInt8.toNat_ofNat']; omega)]
  exact he'

theorem manufSpecificDataEncode_full {manuf : ManufData} {e : Encoded}
    (hfull : bleGapAdvMaxSize < e.len.toNat + manufSpan manuf) :
    manufSpecificDataEncode manuf e = .error nrfErrorDataSize := by
  unfold manufSpan at hfull
  unfold manufSpecificDataEncode
  simp only
  exact if_pos (by rw [UInt8.toNat_ofNat']; omega)

theorem checkedEncode_room (hp : port.Documented name) (hv : ad.Encodable port) {e : Encoded}
    (hroom : ad.checkedSpan port = 0 ∨ e.len.toNat + ad.checkedSpan port ≤ bleGapAdvMaxSize) :
    ∃ e', checkedEncode port ad e = .ok e' := by
  have hfront := frontEncode_emits hp hv
  obtain ⟨e₁, he₁, hlen⟩ : ∃ e₁, frontEncode port ad e = .ok e₁ ∧
      e₁.len.toNat = e.len.toNat + (wire (frontFields port ad)).length := by
    unfold AdvData.checkedSpan at hroom
    by_cases hnil : frontFields port ad = []
    · exact ⟨e, hfront.none hnil e, by rw [hnil]; rfl⟩
    · have hpos : (wire (frontFields port ad)).length ≠ 0 := fun hz => hnil (wire_length_zero.mp hz)
      obtain ⟨e₁, he₁, happ⟩ := hfront.fits e (by omega)
      exact ⟨e₁, he₁, happ.len (by simp only [bleGapAdvMaxSize] at hroom; omega)⟩
  unfold checkedEncode
  rw [he₁]
  cases hm : ad.pManufSpecificData with
  | none => exact ⟨e₁, rfl⟩
  | some manuf =>
    unfold AdvData.checkedSpan at hroom
    rw [hm, Option.elim_some] at hroom
    have hpos : 0 < manufSpan manuf := Nat.lt_of_lt_of_le Nat.zero_lt_two (Nat.le_add_right _ _)
    exact manufSpecificDataEncode_room (hv.manuf manuf hm) (by omega)

theorem checkedEncode_full (hp : port.Documented name) (hv : ad.Encodable port) {e : Encoded}
    (hsome : ad.checkedSpan port ≠ 0)
    (hfull : bleGapAdvMaxSize < e.len.toNat + ad.checkedSpan port) :
    checkedEncode port ad e = .error nrfErrorDataSize := by
  have hfront := frontEncode_emits hp hv
  unfold AdvData.checkedSpan at hsome hfull
  unfold checkedEncode
  by_cases hshort : frontFields port ad ≠ [] ∧
      bleGapAdvMaxSize < e.len.toNat + (wire (frontFields port ad)).length
  · rw [hfront.full hshort.1 e hshort.2]
    rfl
  · -- the front fields have room, so there are manufacturer data
    obtain ⟨e₁, he₁, hlen⟩ : ∃ e₁, frontEncode port ad e = .ok e₁ ∧
        e₁.len.toNat = e.len.toNat + (wire (frontFields port ad)).length := by
      by_cases hnil : frontFields port ad = []
      · exact ⟨e, hfront.none hnil e, by rw [hnil]; rfl⟩
      · have hroom := Nat.not_lt.mp fun hlt => hshort ⟨hnil, hlt⟩
        obtain ⟨e₁, he₁, happ⟩ := hfront.fits e hroom
        exact ⟨e₁, he₁, happ.len (by simp only [bleGapAdvMaxSize] at hroom; omega)⟩
    rw [he₁]
    cases hm : ad.pManufSpecificData with
    | none =>
      rw [hm, Option.elim_none] at hsome hfull
      exact absurd ⟨fun hnil => hsome (by rw [hnil]; rfl), hfull⟩ hshort
    | some manuf =>
      rw [hm, Option.elim_some] at hfull
      exact manufSpecificDataEncode_full (by omega)

theorem advDataEncode_room (hp : port.Documented name) (hv : ad.Encodable port)
    (hroom : ad.HasRoom port name) (e : Encoded) : ∃ e', advDataEncode port ad e = .ok e' := by
  obtain ⟨e₁, he₁, hlen⟩ := nameStage_len hp hroom.short e
  obtain ⟨e₂, he₂⟩ := checkedEncode_room (e := e₁) hp hv (by rw [hlen]; exact hroom.checked)
  obtain ⟨e₃, he₃, -⟩ := serviceDataEncode_appends hv e₂
  refine ⟨e₃, ?_⟩
  rw [advDataEncode_eq, he₁]
  change (checkedEncode port ad e₁ >>= _) = _
  rw [he₂]
  exact he₃

theorem advDataEncode_full (hp : port.Documented name) (hv : ad.Encodable port)
    (hfull : ¬ad.HasRoom port name) (e : Encoded) :
    advDataEncode port ad e = .error nrfErrorDataSize := by
  rw [advDataEncode_eq]
  by_cases hshort : ad.nameType ≠ .noName → ad.shortNameLen.toNat ≤ nameRoom
  · obtain ⟨e₁, he₁, hlen⟩ := nameStage_len hp hshort e
    have hchecked : ¬(ad.checkedSpan port = 0 ∨
        ad.nameSpan name + ad.checkedSpan port ≤ bleGapAdvMaxSize) := fun h => hfull ⟨hshort, h⟩
    rw [not_or] at hchecked
    have herror := checkedEncode_full (e := e₁) hp hv hchecked.1 (by omega)
    rw [he₁]
    change (checkedEncode port ad e₁ >>= _) = _
    rw [herror]
    rfl
  · obtain ⟨hname, hlong⟩ := Classical.not_imp.mp hshort
    rw [nameStage_long hname (Nat.not_le.mp hlong) e]
    rfl

theorem nameFields_length (hn : ad.nameType ≠ .noName → ad.NameFits name) :
    (wire (nameFields ad name)).length = ad.nameSpan name ∧ ad.nameSpan name ≤ bleGapAdvMaxSize := by
  unfold nameFields AdvData.nameSpan
  by_cases hname : ad.nameType = .noName
  · rw [if_neg (not_not_intro hname), if_pos hname]
    exact ⟨rfl, Nat.zero_le _⟩
  · obtain ⟨hle, hroom⟩ := (hn hname).nameLen_le
    rw [if_pos hname, if_neg hname]
    simp only [nameRoom, bleGapAdvMaxSize, advFlagOffset] at hroom
    constructor
    · simp only [wire_cons, wire_nil, List.append_nil, nameField, Field.bytes_length,
        List.length_take, Nat.min_eq_left hle, advDataOffset]
    · simp only [advDataOffset, bleGapAdvMaxSize]
      omega

theorem checkedFields_length (hv : ad.Encodable port)
    (hm : ∀ manuf ∈ ad.pManufSpecificData, manuf.data.size.toNat < 254) :
    (wire (checkedFields port ad)).length = ad.checkedSpan port := by
  unfold checkedFields AdvData.checkedSpan
  rw [wire_append, List.length_append]
  cases hmanuf : ad.pManufSpecificData with
  | none => rfl
  | some manuf =>
    have hsize := Uint8Array.bytes_length (hv.manuf manuf hmanuf)
    have hsmall := hm manuf hmanuf
    simp only [Option.toList_some, List.map_cons, List.map_nil, wire_cons, wire_nil, List.append_nil,
      manufField, Field.bytes_length, List.length_append, uint16Encode_length, hsize,
      Option.elim_some, manufSpan, advDataOffset]
    omega

/-- Where name and manufacturer data are counted right, the room asked for is that of the fields. -/
theorem AdvData.Counted.hasRoom_iff (hc : ad.Counted name) (hv : ad.Encodable port) :
    ad.HasRoom port name ↔
      (wire (nameFields ad name ++ checkedFields port ad)).length ≤ bleGapAdvMaxSize := by
  obtain ⟨hname, hfit⟩ := nameFields_length hc.name
  rw [wire_append, List.length_append, hname, checkedFields_length hv hc.manuf]
  constructor
  · rintro ⟨-, hzero | hroom⟩
    · omega
    · exact hroom
  · intro hroom
    exact ⟨fun hne => (hc.name hne).room, Or.inr hroom⟩

end Room

end BleSpeedSensor
