import BleSpeedSensor.AdvDataFields

namespace BleSpeedSensor

open ByteMemory LengthTypeValue

variable {σ : Type}

def bleGapDevnameMaxLen : Nat := 31

/-- What the SoftDevice's header says of the calls: the whole length of the name is reported however
little of it has room, and a raw UUID has 2 or 16 bytes. -/
structure GapPort.Documented (port : GapPort σ) (name : List UInt8) : Prop where
  nameMax : name.length ≤ bleGapDevnameMaxLen
  nameGet : ∀ room, port.deviceNameGet room =
    (nrfSuccess, name.take room.toNat, UInt16.ofNat name.length)
  rawSize : ∀ uuid, (port.uuidEncode uuid).1 = nrfSuccess →
    (port.uuidEncode uuid).2.length = 2 ∨ (port.uuidEncode uuid).2.length = 16

/-- Room for the name in an empty packet. -/
def nameRoom : Nat := bleGapAdvMaxSize - advFlagOffset

def AdvData.FullName (ad : AdvData) (name : List UInt8) : Prop :=
  ad.nameType = .fullName ∧ name.length ≤ nameRoom

instance (ad : AdvData) (name : List UInt8) : Decidable (ad.FullName name) :=
  inferInstanceAs (Decidable (_ ∧ _))

/-- The name that is sent is the name or its beginning: a wanted short length is within it, and
without one it has room. -/
structure AdvData.NameFits (ad : AdvData) (name : List UInt8) : Prop where
  room : ad.shortNameLen.toNat ≤ nameRoom
  within : ad.FullName name ∨ ad.shortNameLen ≠ 0 ∧ ad.shortNameLen.toNat ≤ name.length ∨
    ad.shortNameLen = 0 ∧ name.length ≤ nameRoom

/-- How many bytes of the name the field is said to have. -/
def AdvData.nameLen (ad : AdvData) (name : List UInt8) : Nat :=
  if ad.FullName name then name.length
  else if ad.shortNameLen ≠ 0 then ad.shortNameLen.toNat else name.length

def nameField (ad : AdvData) (name : List UInt8) : Field :=
  ⟨if ad.FullName name then adTypeCompleteLocalName else adTypeShortLocalName,
    name.take (ad.nameLen name)⟩

theorem AdvData.NameFits.nameLen_le {ad : AdvData} {name : List UInt8} (h : ad.NameFits name) :
    ad.nameLen name ≤ name.length ∧ ad.nameLen name ≤ nameRoom := by
  unfold AdvData.nameLen
  split
  next hfull => exact ⟨Nat.le_refl _, hfull.2⟩
  next hfull =>
    obtain hf | ⟨hne, hle⟩ | ⟨hz, hle⟩ := h.within
    · exact absurd hf hfull
    · rw [if_pos hne]
      exact ⟨hle, h.room⟩
    · rw [if_neg (fun hne => hne hz)]
      exact ⟨Nat.le_refl _, hle⟩

theorem toUInt8_add {n : Nat} {k : UInt16} :
    (UInt16.ofNat n + k).toUInt8 = UInt8.ofNat (n + k.toNat) := by
  apply UInt8.toNat_inj.mp
  rw [UInt16.toNat_toUInt8, UInt16.toNat_add, UInt16.toNat_ofNat', UInt8.toNat_ofNat']
  omega

theorem fits_room_iff {n : Nat} (h : n ≤ bleGapDevnameMaxLen) :
    UInt16.ofNat n ≤ UInt16.ofNat nameRoom ↔ n ≤ nameRoom := by
  have hroom : (UInt16.ofNat nameRoom).toNat = nameRoom := rfl
  simp only [bleGapDevnameMaxLen] at h
  rw [UInt16.le_iff_toNat_le, hroom, UInt16.toNat_ofNat', Nat.mod_eq_of_lt (by omega)]

/-- What `name_encode` leaves of an empty packet. -/
theorem nameEncode_empty {port : GapPort σ} {name : List UInt8} {ad : AdvData} {e : Encoded}
    (hp : port.Documented name) (hshort : ad.shortNameLen.toNat ≤ nameRoom) (he : e.len = 0) :
    nameEncode port ad e = .ok
      { data := copy (copy (copy e.data 2 (name.take nameRoom)) 0
          [UInt8.ofNat (ad.nameLen name + 1)]) 1
          [if ad.FullName name then adTypeCompleteLocalName else adTypeShortLocalName],
        len := UInt8.ofNat (ad.nameLen name + 2) } := by
  have hroom : (UInt16.ofNat nameRoom).toNat = nameRoom := rfl
  have hfull : (ad.nameType = .fullName ∧ UInt16.ofNat name.length ≤ UInt16.ofNat nameRoom) ↔
      ad.FullName name := by
    rw [fits_room_iff hp.nameMax]
    rfl
  have hpref : (ad.shortNameLen ≠ 0 ∧ ad.shortNameLen.toUInt16 ≤ UInt16.ofNat nameRoom) ↔
      ad.shortNameLen ≠ 0 := by
    rw [UInt16.le_iff_toNat_le, hroom, UInt8.toNat_toUInt16]
    exact and_iff_left hshort
  have hrem : (if ad.FullName name then UInt16.ofNat name.length
      else if ad.shortNameLen ≠ 0 ∧ ad.shortNameLen.toUInt16 ≤ UInt16.ofNat nameRoom then
        ad.shortNameLen.toUInt16
      else UInt16.ofNat name.length) = UInt16.ofNat (ad.nameLen name) := by
    have hnat : ad.shortNameLen.toUInt16 = UInt16.ofNat ad.shortNameLen.toNat := by
      apply UInt16.toNat_inj.mp
      have hlt := ad.shortNameLen.toNat_lt
      rw [UInt8.toNat_toUInt16, UInt16.toNat_ofNat', Nat.mod_eq_of_lt (by omega)]
    simp only [hpref, AdvData.nameLen]
    split
    next => rfl
    next =>
      split
      next => exact hnat
      next => rfl
  have hget := hp.nameGet (UInt16.ofNat nameRoom)
  rw [hroom] at hget
  have hzero : e.len.toNat = 0 := by rw [he]; rfl
  have hstart : ¬ (bleGapAdvMaxSize < e.len.toNat + advDataOffset ∨
      bleGapAdvMaxSize < ad.shortNameLen.toNat + advDataOffset) := by
    simp only [nameRoom, bleGapAdvMaxSize, advFlagOffset, advDataOffset] at hshort ⊢
    omega
  have hlen : e.len + (UInt16.ofNat (ad.nameLen name) + 2).toUInt8 =
      UInt8.ofNat (ad.nameLen name + 2) := by
    rw [he, UInt8.zero_add]
    exact toUInt8_add
  have hcount : (UInt16.ofNat (ad.nameLen name) + 1).toUInt8 =
      UInt8.ofNat (ad.nameLen name + 1) := toUInt8_add
  unfold nameEncode
  simp only
  rw [if_neg hstart]
  simp only [hzero, show bleGapAdvMaxSize - 0 - advFlagOffset = nameRoom from rfl, hget, hfull, hrem,
    hcount, hlen]
  rw [if_neg (fun h => h rfl)]
  rfl

/-- A heading put before the bytes that follow it. -/
theorem heading_begins (m : Memory) (len type : UInt8) (bytes : List UInt8) (n : Nat) :
    Begins (copy (copy (copy m 2 bytes) 0 [len]) 1 [type]) (len :: type :: bytes.take n) := by
  intro k hk
  simp only [List.length_cons, List.length_take] at hk
  match k with
  | 0 =>
    rw [copy_outside (Or.inl (by omega))]
    simp [copy]
  | 1 => simp [copy]
  | j + 2 =>
    have hj : j < bytes.length := by omega
    have hin : copy m 2 bytes (j + 2) = bytes[j] := by
      rw [Nat.add_comm]
      exact copy_inside hj
    rw [copy_outside (Or.inr (by simp)), copy_outside (Or.inr (by simp)), hin]
    simp

/-- The field of a name that fits is written into an empty packet. -/
theorem nameEncode_fits {port : GapPort σ} {name : List UInt8} {ad : AdvData} {e : Encoded}
    (hp : port.Documented name) (hf : ad.NameFits name) (he : e.len = 0) :
    ∃ e', nameEncode port ad e = .ok e' ∧ Appends e (nameField ad name).bytes e' := by
  obtain ⟨hle, hle'⟩ := hf.nameLen_le
  refine ⟨_, nameEncode_empty hp hf.room he, ?_⟩
  intro bs hb _
  have hzero : e.len.toNat = 0 := by rw [he]; rfl
  obtain rfl : bs = [] := List.eq_nil_of_length_eq_zero (hb.1.symm.trans hzero)
  have htake : (name.take (ad.nameLen name)).length = ad.nameLen name := by
    rw [List.length_take]
    omega
  simp only [nameRoom, bleGapAdvMaxSize, advFlagOffset] at hle'
  refine ⟨⟨?_, ?_⟩, ?_⟩
  · simp only [nameField, List.nil_append, Field.bytes_length, htake, UInt8.toNat_ofNat']
    omega
  · have hh := heading_begins e.data (UInt8.ofNat (ad.nameLen name + 1))
      (if ad.FullName name then adTypeCompleteLocalName else adTypeShortLocalName)
      (name.take nameRoom) (ad.nameLen name)
    simpa [nameField, Field.bytes, htake, List.take_take, nameRoom, bleGapAdvMaxSize,
      advFlagOffset, Nat.min_eq_left hle'] using hh
  · intro a ha _
    simp only [bleGapAdvMaxSize] at ha
    have hname : 2 + (name.take nameRoom).length ≤ a := by
      rw [List.length_take]
      simp only [nameRoom, bleGapAdvMaxSize, advFlagOffset]
      omega
    have hhead : ∀ (m : Memory) (dst : Nat) (x : UInt8), dst < 31 → copy m dst [x] a = m a := by
      intro m dst x hdst
      apply copy_outside
      simp only [List.length_cons, List.length_nil]
      omega
    simp only [hhead _ 1 _ (by omega), hhead _ 0 _ (by omega)]
    exact copy_outside (Or.inr hname)

def AdvData.uuids (ad : AdvData) : List BleUuid :=
  ad.uuidsMoreAvailable ++ (ad.uuidsComplete ++ ad.uuidsSolicited)

def nameFields (ad : AdvData) (name : List UInt8) : List Field :=
  if ad.nameType ≠ .noName then [nameField ad name] else []

/-- The fields between the name and the manufacturer data. -/
def frontFields (port : GapPort σ) (ad : AdvData) : List Field :=
  (if ad.includeAppearance then [appearanceField port] else []) ++
    ((if 0 < ad.flags.size then [flagsField ad.flags] else []) ++
      (ad.pTxPowerLevel.toList.map txPowerField ++
        (uuidFields port ad.uuidsMoreAvailable adType16BitServiceUuidMoreAvailable
            adType128BitServiceUuidMoreAvailable ++
          (uuidFields port ad.uuidsComplete adType16BitServiceUuidComplete
              adType128BitServiceUuidComplete ++
            (uuidFields port ad.uuidsSolicited adTypeSolicitedServiceUuids16Bit
                adTypeSolicitedServiceUuids128Bit ++
              ad.pSlaveConnInt.toList.map connIntField)))))

def checkedFields (port : GapPort σ) (ad : AdvData) : List Field :=
  frontFields port ad ++ ad.pManufSpecificData.toList.map manufField

def serviceFields (ad : AdvData) : List Field :=
  if 0 < ad.serviceDataCount then (ad.pServiceDataArray.getD []).map serviceField else []

/-- The fields of the packet, in the order they are sent. -/
def advFields (port : GapPort σ) (name : List UInt8) (ad : AdvData) : List Field :=
  nameFields ad name ++ checkedFields port ad ++ serviceFields ad

/-- What the encoder asks of its parameters: the SoftDevice answers, the arrays are there and the
intervals are in range. -/
structure AdvData.Encodable (port : GapPort σ) (ad : AdvData) : Prop where
  appearance : ad.includeAppearance = true → port.appearanceGet.1 = nrfSuccess
  flags : ad.flags.Given
  uuids : ∀ uuid ∈ ad.uuids, (port.uuidEncode uuid).1 = nrfSuccess
  connInt : ∀ connInt ∈ ad.pSlaveConnInt, connInt.Valid
  manuf : ∀ manuf ∈ ad.pManufSpecificData, manuf.data.Given
  services : 0 < ad.serviceDataCount →
    ∃ services, ad.pServiceDataArray = some services ∧ ∀ s ∈ services, s.data.Given

/-- The name fits, and the length byte can count the manufacturer data. -/
structure AdvData.Counted (ad : AdvData) (name : List UInt8) : Prop where
  name : ad.nameType ≠ .noName → ad.NameFits name
  manuf : ∀ manuf ∈ ad.pManufSpecificData, manuf.data.size.toNat < 254

/-- The encoders between the name and the manufacturer data. -/
def frontEncode (port : GapPort σ) (ad : AdvData) : Encoder := fun e => do
  let e ← encodeWhen ad.includeAppearance (appearanceEncode port) e
  let e ← encodeWhen (0 < ad.flags.size) (uint8ArrayEncode ad.flags adTypeFlags) e
  let e ← encodeGiven ad.pTxPowerLevel txPowerLevelEncode e
  let e ← encodeWhen (0 < ad.uuidsMoreAvailable.length)
    (uuidListEncode port ad.uuidsMoreAvailable adType16BitServiceUuidMoreAvailable
      adType128BitServiceUuidMoreAvailable) e
  let e ← encodeWhen (0 < ad.uuidsComplete.length)
    (uuidListEncode port ad.uuidsComplete adType16BitServiceUuidComplete
      adType128BitServiceUuidComplete) e
  let e ← encodeWhen (0 < ad.uuidsSolicited.length)
    (uuidListEncode port ad.uuidsSolicited adTypeSolicitedServiceUuids16Bit
      adTypeSolicitedServiceUuids128Bit) e
  encodeGiven ad.pSlaveConnInt connIntEncode e

/-- The encoders between the name and the service data. -/
def checkedEncode (port : GapPort σ) (ad : AdvData) : Encoder := fun e =>
  frontEncode port ad e >>= encodeGiven ad.pManufSpecificData manufSpecificDataEncode

theorem advDataEncode_eq (port : GapPort σ) (ad : AdvData) (e : Encoded) :
    advDataEncode port ad e =
      encodeWhen (ad.nameType ≠ .noName) (nameEncode port ad) { e with len := 0 } >>= fun e =>
        checkedEncode port ad e >>= encodeWhen (0 < ad.serviceDataCount) (serviceDataEncode ad) := by
  simp only [advDataEncode, checkedEncode, frontEncode, bind_assoc]

theorem uuids_emits {port : GapPort σ} (uuids : List BleUuid) (type16 type128 : UInt8)
    (hk : ∀ uuid ∈ uuids, UuidKnown port uuid) :
    Emits (encodeWhen (0 < uuids.length) (uuidListEncode port uuids type16 type128))
      (uuidFields port uuids type16 type128) := by
  cases uuids with
  | nil => exact emits_nil
  | cons uuid uuids => exact uuidListEncode_emits hk

theorem frontEncode_emits {port : GapPort σ} {name : List UInt8} {ad : AdvData}
    (hp : port.Documented name) (hv : ad.Encodable port) :
    Emits (frontEncode port ad) (frontFields port ad) := by
  have hk : ∀ uuid ∈ ad.uuids, UuidKnown port uuid := by
    intro uuid hu
    exact ⟨hv.uuids uuid hu, hp.rawSize uuid (hv.uuids uuid hu)⟩
  have happearance := emits_when fun hi => appearanceEncode_emits (hv.appearance hi)
  have hflags : Emits (encodeWhen (0 < ad.flags.size) (uint8ArrayEncode ad.flags adTypeFlags))
      (if 0 < ad.flags.size then [flagsField ad.flags] else []) := by
    have hwhen : Emits (encodeWhen (0 < ad.flags.size) (uint8ArrayEncode ad.flags adTypeFlags))
        (if decide (0 < ad.flags.size) = true then [flagsField ad.flags] else []) :=
      emits_when fun hpos => uint8ArrayEncode_emits (of_decide_eq_true hpos) hv.flags
    simpa using hwhen
  have htx : Emits (encodeGiven ad.pTxPowerLevel txPowerLevelEncode)
      (ad.pTxPowerLevel.toList.map txPowerField) :=
    emits_given fun txPowerLevel _ => txPowerLevelEncode_emits txPowerLevel
  have hmore := uuids_emits ad.uuidsMoreAvailable adType16BitServiceUuidMoreAvailable
    adType128BitServiceUuidMoreAvailable fun uuid hu => hk uuid (by simp [AdvData.uuids, hu])
  have hcomplete := uuids_emits ad.uuidsComplete adType16BitServiceUuidComplete
    adType128BitServiceUuidComplete fun uuid hu => hk uuid (by simp [AdvData.uuids, hu])
  have hsolicited := uuids_emits ad.uuidsSolicited adTypeSolicitedServiceUuids16Bit
    adTypeSolicitedServiceUuids128Bit fun uuid hu => hk uuid (by simp [AdvData.uuids, hu])
  have hconn : Emits (encodeGiven ad.pSlaveConnInt connIntEncode)
      (ad.pSlaveConnInt.toList.map connIntField) :=
    emits_given fun connInt hc => connIntEncode_emits (hv.connInt connInt hc)
  exact happearance.andThen (hflags.andThen (htx.andThen (hmore.andThen (hcomplete.andThen
    (hsolicited.andThen hconn)))))

theorem checkedEncode_emits {port : GapPort σ} {name : List UInt8} {ad : AdvData}
    (hp : port.Documented name) (hv : ad.Encodable port)
    (hm : ∀ manuf ∈ ad.pManufSpecificData, manuf.data.size.toNat < 254) :
    Emits (checkedEncode port ad) (checkedFields port ad) :=
  (frontEncode_emits hp hv).andThen (emits_given fun manuf hc =>
    manufSpecificDataEncode_emits (hv.manuf manuf hc) (hm manuf hc))

theorem serviceDataEncode_appends {port : GapPort σ} {ad : AdvData} (hv : ad.Encodable port)
    (e : Encoded) :
    ∃ e', encodeWhen (0 < ad.serviceDataCount) (serviceDataEncode ad) e = .ok e' ∧
      Appends e (wire (serviceFields ad)) e' := by
  by_cases hpos : 0 < ad.serviceDataCount
  · obtain ⟨services, hs, hgiven⟩ := hv.services hpos
    obtain ⟨e', he', happ⟩ := serviceDataLoop_appends hgiven e
    refine ⟨e', ?_, ?_⟩
    · simpa [encodeWhen, hpos, serviceDataEncode, hs] using he'
    · simpa [serviceFields, hpos, hs] using happ
  · refine ⟨e, ?_, ?_⟩
    · simp [encodeWhen, hpos]
    · simpa [serviceFields, hpos] using Appends.refl e

theorem nameStage_fits {port : GapPort σ} {name : List UInt8} {ad : AdvData}
    (hp : port.Documented name) (hn : ad.nameType ≠ .noName → ad.NameFits name) (e : Encoded) :
    ∃ e', encodeWhen (ad.nameType ≠ .noName) (nameEncode port ad) { e with len := 0 } = .ok e' ∧
      Appends { e with len := 0 } (wire (nameFields ad name)) e' := by
  by_cases hname : ad.nameType = .noName
  · refine ⟨{ e with len := 0 }, by simp [encodeWhen, hname], ?_⟩
    simpa [nameFields, hname] using Appends.refl _
  · have hempty : ({ e with len := 0 } : Encoded).len = 0 := rfl
    obtain ⟨e', he', happ⟩ := nameEncode_fits hp (hn hname) hempty
    refine ⟨e', by simpa [encodeWhen, hname] using he', ?_⟩
    simpa [nameFields, hname] using happ

section Whole

variable {port : GapPort σ} {name : List UInt8} {ad : AdvData}

/-- Name and checked fields decide whether there is room; service data follow unchecked. -/
theorem advDataEncode_fits (hp : port.Documented name) (hc : ad.Counted name)
    (hv : ad.Encodable port) (e : Encoded)
    (hroom : (wire (nameFields ad name ++ checkedFields port ad)).length ≤ bleGapAdvMaxSize) :
    ∃ e', advDataEncode port ad e = .ok e' ∧
      Appends { e with len := 0 } (wire (advFields port name ad)) e' := by
  simp only [wire_append, List.length_append] at hroom
  obtain ⟨e₁, he₁, happ₁⟩ := nameStage_fits hp hc.name e
  have hzero : (0 : UInt8).toNat = 0 := rfl
  have hlen := happ₁.len (by simp only [hzero, bleGapAdvMaxSize] at hroom ⊢; omega)
  simp only [hzero, Nat.zero_add] at hlen
  obtain ⟨e₂, he₂, happ₂⟩ := (checkedEncode_emits hp hv hc.manuf).fits e₁ (by omega)
  obtain ⟨e₃, he₃, happ₃⟩ := serviceDataEncode_appends hv e₂
  refine ⟨e₃, ?_, ?_⟩
  · rw [advDataEncode_eq, he₁]
    change (checkedEncode port ad e₁ >>= _) = _
    rw [he₂]
    exact he₃
  · simpa [advFields] using (happ₁.trans happ₂).trans happ₃

end Whole

theorem encodeWhen_ok {wanted : Bool} {f : Encoder} {e e' : Encoded}
    (h : encodeWhen wanted f e = .ok e') (hw : wanted = true) : f e = .ok e' := by
  simpa [encodeWhen, hw] using h

theorem encodeGiven_ok {α : Type} {given : Option α} {f : α → Encoder} {e e' : Encoded}
    (h : encodeGiven given f e = .ok e') : ∀ a ∈ given, f a e = .ok e' := by
  intro a ha
  obtain rfl : given = some a := ha
  exact h

theorem appearanceEncode_ok {port : GapPort σ} {e e' : Encoded}
    (h : appearanceEncode port e = .ok e') : port.appearanceGet.1 = nrfSuccess := by
  unfold appearanceEncode at h
  split at h
  next => cases h
  next =>
    split at h
    next => cases h
    next hok => simpa using hok

theorem uint8ArrayEncode_ok {array : Uint8Array} {type : UInt8} {e e' : Encoded}
    (h : uint8ArrayEncode array type e = .ok e') : array.pData.isSome := by
  unfold uint8ArrayEncode at h
  split at h
  next => cases h
  next data hd => simp [hd]

theorem connIntEncode_ok {connInt : ConnInt} {e e' : Encoded}
    (h : connIntEncode connInt e = .ok e') : connInt.Valid := by
  unfold connIntEncode at h
  split at h
  next => cases h
  next =>
    split at h
    next => cases h
    next hok => exact connIntCheck_success_iff.mp (by simpa using hok)

/-- Both kinds of data are refused when their array is missing. -/
theorem tail_ok {array : Uint8Array} {e e' : Encoded}
    (h : (if 0 < array.size then
        match array.pData with
        | none => .error nrfErrorInvalidParam
        | some data => .ok (e.put data)
      else .ok e : Except ErrCode Encoded) = .ok e') : array.Given := by
  intro hpos
  rw [if_pos hpos] at h
  split at h
  next => cases h
  next data hd => simp [hd]

theorem manufSpecificDataEncode_ok {manuf : ManufData} {e e' : Encoded}
    (h : manufSpecificDataEncode manuf e = .ok e') : manuf.data.Given := by
  unfold manufSpecificDataEncode at h
  simp only at h
  split at h
  next => cases h
  next => exact tail_ok h

theorem serviceDataLoop_ok {services : List ServiceData} {e e' : Encoded}
    (h : serviceDataLoop services e = .ok e') : ∀ s ∈ services, s.data.Given := by
  induction services generalizing e with
  | nil => simp
  | cons service services ih =>
    obtain ⟨e₁, h₁, h₂⟩ := ok_of_bind h
    intro s hs
    obtain rfl | hs := List.mem_cons.mp hs
    · exact tail_ok h₁
    · exact ih h₂ s hs

theorem uuidSizedLoop_ok {port : GapPort σ} {type size : UInt8} {uuids : List BleUuid} {w : Bool}
    {e : Encoded} {r : Bool × Encoded} (h : uuidSizedLoop port type size uuids w e = .ok r) :
    ∀ uuid ∈ uuids, (port.uuidEncode uuid).1 = nrfSuccess := by
  induction uuids generalizing w e with
  | nil => simp
  | cons uuid uuids ih =>
    obtain ⟨r₁, h₁, h₂⟩ := ok_of_bind h
    intro u hu
    obtain rfl | hu := List.mem_cons.mp hu
    · unfold uuidSizedStep at h₁
      simp only at h₁
      split at h₁
      next => cases h₁
      next hok => simpa using hok
    · exact ih h₂ u hu

theorem uuids_ok {port : GapPort σ} {uuids : List BleUuid} {type16 type128 : UInt8}
    {e e' : Encoded} (h : encodeWhen (0 < uuids.length)
      (uuidListEncode port uuids type16 type128) e = .ok e') :
    ∀ uuid ∈ uuids, (port.uuidEncode uuid).1 = nrfSuccess := by
  intro uuid hu
  have hpos : 0 < uuids.length := List.length_pos_of_mem hu
  obtain ⟨e₁, h₁, -⟩ := ok_of_bind (encodeWhen_ok h (by simpa using hpos))
  obtain ⟨r, hr, -⟩ := ok_of_bind h₁
  exact uuidSizedLoop_ok hr uuid hu

theorem advDataEncode_encodable {port : GapPort σ} {ad : AdvData} {e e' : Encoded}
    (h : advDataEncode port ad e = .ok e') : ad.Encodable port := by
  obtain ⟨_, -, h⟩ := ok_of_bind h
  obtain ⟨_, happearance, h⟩ := ok_of_bind h
  obtain ⟨_, hflags, h⟩ := ok_of_bind h
  obtain ⟨_, -, h⟩ := ok_of_bind h
  obtain ⟨_, hmore, h⟩ := ok_of_bind h
  obtain ⟨_, hcomplete, h⟩ := ok_of_bind h
  obtain ⟨_, hsolicited, h⟩ := ok_of_bind h
  obtain ⟨_, hconn, h⟩ := ok_of_bind h
  obtain ⟨_, hmanuf, hservice⟩ := ok_of_bind h
  refine ⟨?_, ?_, ?_, ?_, ?_, ?_⟩
  · intro hi
    exact appearanceEncode_ok (encodeWhen_ok happearance hi)
  · intro hpos
    exact uint8ArrayEncode_ok (encodeWhen_ok hflags (by simpa using hpos))
  · intro uuid hu
    simp only [AdvData.uuids, List.mem_append] at hu
    obtain hu | hu | hu := hu
    · exact uuids_ok hmore uuid hu
    · exact uuids_ok hcomplete uuid hu
    · exact uuids_ok hsolicited uuid hu
  · intro connInt hc
    exact connIntEncode_ok (encodeGiven_ok hconn connInt hc)
  · intro manuf hm
    exact manufSpecificDataEncode_ok (encodeGiven_ok hmanuf manuf hm)
  · intro hpos
    have hs := encodeWhen_ok hservice (by simpa using hpos)
    unfold serviceDataEncode at hs
    split at hs
    next => cases hs
    next services harray => exact ⟨services, harray, serviceDataLoop_ok hs⟩

end BleSpeedSensor
