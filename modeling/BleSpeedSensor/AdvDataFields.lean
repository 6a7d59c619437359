import BleSpeedSensor.AdvData

namespace BleSpeedSensor

open ByteMemory LengthTypeValue

/-- The encoded bytes so far. -/
def Encoded.Holding (e : Encoded) (bs : List UInt8) : Prop :=
  e.len.toNat = bs.length ∧ Begins e.data bs

/-- `e'` is `e` with `xs` behind what it holds, and nothing else changed behind the buffer. -/
def Appends (e : Encoded) (xs : List UInt8) (e' : Encoded) : Prop :=
  ∀ bs, e.Holding bs → bs.length + xs.length ≤ 255 →
    e'.Holding (bs ++ xs) ∧
      ∀ a, bleGapAdvMaxSize ≤ a → bs.length + xs.length ≤ a → e'.data a = e.data a

theorem Encoded.Holding.bytes_eq {e : Encoded} {bs : List UInt8} (h : e.Holding bs) :
    e.bytes = bs := by
  apply List.ext_getElem
  · simp [Encoded.bytes, h.1]
  · intro k hk hk'
    simp only [Encoded.bytes, List.getElem_map, List.getElem_range]
    exact h.2 k hk'

theorem Appends.refl (e : Encoded) : Appends e [] e := by
  intro bs hb _
  exact ⟨by simpa using hb, fun _ _ _ => rfl⟩

theorem Appends.trans {e e' e'' : Encoded} {xs ys : List UInt8} (h : Appends e xs e')
    (h' : Appends e' ys e'') : Appends e (xs ++ ys) e'' := by
  intro bs hb hlen
  simp only [List.length_append] at hlen
  obtain ⟨hb', hframe⟩ := h bs hb (by omega)
  obtain ⟨hb'', hframe'⟩ := h' (bs ++ xs) hb' (by simp only [List.length_append]; omega)
  refine ⟨by simpa using hb'', ?_⟩
  intro a ha hlast
  simp only [List.length_append] at hlast
  rw [hframe' a ha (by simp only [List.length_append]; omega), hframe a ha (by omega)]

theorem put_appends (e : Encoded) (xs : List UInt8) : Appends e xs (e.put xs) := by
  intro bs hb hlen
  refine ⟨⟨?_, ?_⟩, ?_⟩
  · simp only [Encoded.put, UInt8.toNat_add, UInt8.toNat_ofNat', hb.1, List.length_append]
    omega
  · have hput : Begins (copy e.data bs.length xs) (bs ++ xs) := hb.2.append
    simpa only [Encoded.put, hb.1] using hput
  · intro a _ hlast
    apply copy_outside
    rw [hb.1]
    exact Or.inr hlast

theorem Encoded.holding_bytes (e : Encoded) : e.Holding e.bytes := by
  refine ⟨by simp [Encoded.bytes], ?_⟩
  intro k hk
  simp [Encoded.bytes]

theorem Appends.len {e e' : Encoded} {xs : List UInt8} (h : Appends e xs e')
    (hlen : e.len.toNat + xs.length ≤ 255) : e'.len.toNat = e.len.toNat + xs.length := by
  have hb := e.holding_bytes
  have hlen' := (h e.bytes hb (by rw [← hb.1]; exact hlen)).1.1
  rw [hlen', List.length_append, hb.1]

/-- What an encoder of these fields does: with room it appends them, else it says that the data do
not fit; where there are none it asks for no room. -/
structure Emits (f : Encoder) (fields : List Field) : Prop where
  fits : ∀ e, e.len.toNat + (wire fields).length ≤ bleGapAdvMaxSize →
    ∃ e', f e = .ok e' ∧ Appends e (wire fields) e'
  full : fields ≠ [] → ∀ e, bleGapAdvMaxSize < e.len.toNat + (wire fields).length →
    f e = .error nrfErrorDataSize
  none : fields = [] → ∀ e, f e = .ok e

theorem emits_nil : Emits (fun e => .ok e) [] :=
  ⟨fun e _ => ⟨e, rfl, Appends.refl e⟩, fun hne => absurd rfl hne, fun _ _ => rfl⟩

theorem Emits.andThen {f g : Encoder} {fs gs : List Field} (hf : Emits f fs) (hg : Emits g gs) :
    Emits (fun e => f e >>= g) (fs ++ gs) := by
  refine ⟨fun e hlen => ?_, fun hne e hlt => ?_, fun hnil e => ?_⟩
  · simp only [wire_append, List.length_append] at hlen ⊢
    obtain ⟨e', he', happ'⟩ := hf.fits e (by omega)
    have hlen' := happ'.len (by simp only [bleGapAdvMaxSize] at hlen; omega)
    obtain ⟨e'', he'', happ''⟩ := hg.fits e' (by omega)
    refine ⟨e'', ?_, by simpa using happ'.trans happ''⟩
    rw [he']
    exact he''
  · simp only [wire_append, List.length_append] at hlt
    by_cases hfs : fs = []
    · subst hfs
      rw [hf.none rfl e]
      exact hg.full hne e (by simpa using hlt)
    · by_cases hroom : e.len.toNat + (wire fs).length ≤ bleGapAdvMaxSize
      · obtain ⟨e', he', happ'⟩ := hf.fits e hroom
        have hlen' := happ'.len (by simp only [bleGapAdvMaxSize] at hroom; omega)
        have hgs : gs ≠ [] := by
          rintro rfl
          rw [wire_nil, List.length_nil] at hlt
          omega
        have hg' := hg.full hgs e' (by omega)
        rw [he']
        exact hg'
      · rw [hf.full hfs e (by omega)]
        rfl
  · obtain ⟨hfs, hgs⟩ := List.append_eq_nil_iff.mp hnil
    rw [hf.none hfs e]
    exact hg.none hgs e

theorem emits_when {wanted : Bool} {f : Encoder} {fs : List Field} (h : wanted = true → Emits f fs) :
    Emits (encodeWhen wanted f) (if wanted then fs else []) := by
  cases wanted with
  | false => exact emits_nil
  | true => exact h rfl

theorem emits_given {α : Type} {given : Option α} {f : α → Encoder} {field : α → Field}
    (h : ∀ a ∈ given, Emits (f a) [field a]) :
    Emits (encodeGiven given f) (given.toList.map field) := by
  cases given with
  | none => exact emits_nil
  | some a => exact h a rfl

/-- An encoder that checks the room for its field and then puts its bytes. -/
theorem emits_field {f : Encoder} {field : Field} {written : Encoded → Encoded}
    (hok : ∀ e, e.len.toNat + field.bytes.length ≤ bleGapAdvMaxSize → f e = .ok (written e))
    (hfull : ∀ e, bleGapAdvMaxSize < e.len.toNat + field.bytes.length →
      f e = .error nrfErrorDataSize)
    (hw : ∀ e, Appends e field.bytes (written e)) : Emits f [field] := by
  refine ⟨fun e hlen => ?_, fun _ e hlt => ?_, fun hnil => absurd hnil (List.cons_ne_nil _ _)⟩
  · simp only [wire_cons, wire_nil, List.append_nil] at hlen ⊢
    exact ⟨written e, hok e hlen, hw e⟩
  · simp only [wire_cons, wire_nil, List.append_nil] at hlt
    exact hfull e hlt

def Uint8Array.bytes (array : Uint8Array) : List UInt8 := array.pData.getD []

variable {σ : Type}

def appearanceField (port : GapPort σ) : Field :=
  ⟨adTypeAppearance, uint16Encode port.appearanceGet.2⟩

def flagsField (array : Uint8Array) : Field := ⟨adTypeFlags, array.bytes⟩

def txPowerField (txPowerLevel : Int8) : Field := ⟨adTypeTxPowerLevel, [txPowerLevel.toUInt8]⟩

def connIntField (connInt : ConnInt) : Field :=
  ⟨adTypeSlaveConnectionIntervalRange,
    uint16Encode connInt.minConnInterval ++ uint16Encode connInt.maxConnInterval⟩

def manufField (manuf : ManufData) : Field :=
  ⟨adTypeManufacturerSpecificData, uint16Encode manuf.companyIdentifier ++ manuf.data.bytes⟩

def serviceField (service : ServiceData) : Field :=
  ⟨adTypeServiceData, uint16Encode service.serviceUuid ++ service.data.bytes⟩

/-- The array is there whenever its size says so. -/
def Uint8Array.Given (array : Uint8Array) : Prop := 0 < array.size → array.pData.isSome

theorem Uint8Array.bytes_length {array : Uint8Array} (h : array.Given) :
    array.bytes.length = array.size.toNat := by
  cases hd : array.pData with
  | some data =>
    simpa [Uint8Array.bytes, hd] using array.sized data (by simp [hd])
  | none =>
    have hz : ¬ 0 < array.size := by
      intro hpos
      simpa [hd] using h hpos
    rw [UInt16.lt_iff_toNat_lt] at hz
    simp only [Uint8Array.bytes, hd, Option.getD_none, List.length_nil]
    exact (Nat.eq_zero_of_not_pos hz).symm

@[simp] theorem uint16Encode_length (value : UInt16) : (uint16Encode value).length = 2 := rfl

theorem appearanceEncode_emits {port : GapPort σ} (h : port.appearanceGet.1 = nrfSuccess) :
    Emits (appearanceEncode port) [appearanceField port] := by
  have hlen : (appearanceField port).bytes.length = 4 := rfl
  apply emits_field
  · intro e hroom
    unfold appearanceEncode
    rw [if_neg (by omega), if_neg (fun hne => hne h)]
  · intro e hfull
    unfold appearanceEncode
    rw [if_pos (by omega)]
  · intro e
    have happ := ((put_appends e [3]).trans (put_appends _ [adTypeAppearance])).trans
      (put_appends _ (uint16Encode port.appearanceGet.2))
    exact happ

theorem uint8ArrayEncode_emits {array : Uint8Array} (hpos : 0 < array.size)
    (h : array.Given) : Emits (uint8ArrayEncode array adTypeFlags) [flagsField array] := by
  have hlen := Uint8Array.bytes_length h
  obtain ⟨data, hd⟩ := Option.isSome_iff_exists.mp (h hpos)
  have hbytes : array.bytes = data := by simp [Uint8Array.bytes, hd]
  have hsize : (flagsField array).bytes.length = array.size.toNat + 2 := by
    simp [flagsField, hlen]
  apply emits_field
  · intro e hroom
    simp only [uint8ArrayEncode, hd]
    rw [if_neg (by simp only [advDataOffset]; omega)]
  · intro e hfull
    simp only [uint8ArrayEncode, hd]
    rw [if_pos (by simp only [advDataOffset]; omega)]
  · intro e
    have hfield : (flagsField array).bytes =
        [UInt8.ofNat (1 + array.size.toNat)] ++ [adTypeFlags] ++ data := by
      simp only [flagsField, Field.bytes]
      rw [hlen, hbytes, Nat.add_comm]
      rfl
    rw [hfield]
    exact ((put_appends e _).trans (put_appends _ _)).trans (put_appends _ _)

theorem txPowerLevelEncode_emits (txPowerLevel : Int8) :
    Emits (txPowerLevelEncode txPowerLevel) [txPowerField txPowerLevel] := by
  have hlen : (txPowerField txPowerLevel).bytes.length = 3 := rfl
  apply emits_field
  · intro e hroom
    unfold txPowerLevelEncode
    rw [if_neg (by omega)]
  · intro e hfull
    unfold txPowerLevelEncode
    rw [if_pos (by omega)]
  · intro e
    have happ := ((put_appends e [2]).trans (put_appends _ [adTypeTxPowerLevel])).trans
      (put_appends _ [txPowerLevel.toUInt8])
    exact happ

/-- The range of the intervals; `0xffff` stands for no specific value. -/
structure ConnInt.Valid (connInt : ConnInt) : Prop where
  min : connInt.minConnInterval = 0xffff ∨
    6 ≤ connInt.minConnInterval.toNat ∧ connInt.minConnInterval.toNat ≤ 3200
  max : connInt.maxConnInterval = 0xffff ∨
    6 ≤ connInt.maxConnInterval.toNat ∧ connInt.maxConnInterval.toNat ≤ 3200
  ordered : connInt.minConnInterval ≠ 0xffff → connInt.maxConnInterval ≠ 0xffff →
    connInt.minConnInterval.toNat ≤ connInt.maxConnInterval.toNat

theorem interval_in_range {v : UInt16} :
    ¬ (v < 0x0006 ∨ (0x0c80 < v ∧ v ≠ 0xffff)) ↔ v = 0xffff ∨ 6 ≤ v.toNat ∧ v.toNat ≤ 3200 := by
  have hmax : v = 0xffff ↔ v.toNat = 65535 := by rw [← UInt16.toNat_inj]; rfl
  rw [UInt16.lt_iff_toNat_lt, UInt16.lt_iff_toNat_lt, ne_eq, hmax]
  change ¬ (v.toNat < 6 ∨ (3200 < v.toNat ∧ ¬ v.toNat = 65535)) ↔ _
  omega

theorem connIntCheck_success_iff {connInt : ConnInt} :
    connIntCheck connInt = nrfSuccess ↔ connInt.Valid := by
  have hbad : nrfErrorInvalidParam ≠ nrfSuccess := by decide
  unfold connIntCheck
  split
  next hmin =>
    refine iff_of_false hbad fun hv => ?_
    exact interval_in_range.mpr hv.min hmin
  next hmin =>
    split
    next hmax =>
      refine iff_of_false hbad fun hv => ?_
      exact interval_in_range.mpr hv.max hmax
    next hmax =>
      split
      next hord =>
        refine iff_of_false hbad fun hv => ?_
        have hle := hv.ordered hord.1 hord.2.1
        have hlt := UInt16.lt_iff_toNat_lt.mp hord.2.2
        omega
      next hord =>
        refine iff_of_true rfl ⟨interval_in_range.mp hmin, interval_in_range.mp hmax, ?_⟩
        intro h₁ h₂
        have hnot : ¬ connInt.maxConnInterval < connInt.minConnInterval :=
          fun hlt => hord ⟨h₁, h₂, hlt⟩
        rw [UInt16.lt_iff_toNat_lt] at hnot
        omega

theorem connIntEncode_emits {connInt : ConnInt} (h : connInt.Valid) :
    Emits (connIntEncode connInt) [connIntField connInt] := by
  have hlen : (connIntField connInt).bytes.length = 6 := rfl
  have hcheck := connIntCheck_success_iff.mpr h
  apply emits_field
  · intro e hroom
    unfold connIntEncode
    rw [if_neg (by simp only [advDataOffset]; omega), if_neg (fun hne => hne hcheck)]
  · intro e hfull
    unfold connIntEncode
    rw [if_pos (by simp only [advDataOffset]; omega)]
  · intro e
    have happ := (((put_appends e [5]).trans
      (put_appends _ [adTypeSlaveConnectionIntervalRange])).trans
      (put_appends _ (uint16Encode connInt.minConnInterval))).trans
      (put_appends _ (uint16Encode connInt.maxConnInterval))
    exact happ

/-- What manufacturer and service data end with: the bytes after the two of the identifier. -/
theorem tail_appends {array : Uint8Array} (h : array.Given) (e : Encoded) :
    ∃ e', (if 0 < array.size then
        match array.pData with
        | none => .error nrfErrorInvalidParam
        | some data => .ok (e.put data)
      else .ok e : Except ErrCode Encoded) = .ok e' ∧ Appends e array.bytes e' := by
  by_cases hpos : 0 < array.size
  · obtain ⟨data, hd⟩ := Option.isSome_iff_exists.mp (h hpos)
    have hbytes : array.bytes = data := by simp [Uint8Array.bytes, hd]
    refine ⟨e.put data, ?_, ?_⟩
    · rw [if_pos hpos, hd]
    · rw [hbytes]
      exact put_appends e data
  · have hz : array.bytes = [] := by
      apply List.eq_nil_of_length_eq_zero
      rw [Uint8Array.bytes_length h]
      rw [UInt16.lt_iff_toNat_lt] at hpos
      exact Nat.eq_zero_of_not_pos hpos
    refine ⟨e, if_neg hpos, ?_⟩
    rw [hz]
    exact Appends.refl e

/-- The heading that both kinds put, and the identifier. -/
theorem heading_appends {array : Uint8Array} (h : array.Given) (e : Encoded) (type : UInt8)
    (identifier : UInt16) :
    Appends e (UInt8.ofNat ((uint16Encode identifier ++ array.bytes).length + 1) :: type ::
      uint16Encode identifier)
      (((e.put [1 + UInt8.ofNat (2 + array.size.toNat)]).put [type]).put
        (uint16Encode identifier)) := by
  have hlen : UInt8.ofNat ((uint16Encode identifier ++ array.bytes).length + 1) =
      1 + UInt8.ofNat (2 + array.size.toNat) := by
    rw [List.length_append, uint16Encode_length, Uint8Array.bytes_length h]
    rw [Nat.add_comm, UInt8.ofNat_add]
    rfl
  rw [hlen]
  exact ((put_appends e [_]).trans (put_appends _ [type])).trans (put_appends _ _)

theorem manufSpecificDataEncode_emits {manuf : ManufData} (h : manuf.data.Given)
    (hsmall : manuf.data.size.toNat < 254) :
    Emits (manufSpecificDataEncode manuf) [manufField manuf] := by
  have hcount : (UInt8.ofNat (2 + manuf.data.size.toNat)).toNat = 2 + manuf.data.size.toNat := by
    rw [UInt8.toNat_ofNat', Nat.mod_eq_of_lt (by omega)]
  have hsize : (manufField manuf).bytes.length = manuf.data.size.toNat + 4 := by
    simp only [manufField, Field.bytes_length, List.length_append, uint16Encode_length]
    rw [Uint8Array.bytes_length h]
    omega
  refine ⟨fun e hroom => ?_, fun _ e hfull => ?_, fun hnil => absurd hnil (List.cons_ne_nil _ _)⟩
  · simp only [wire_cons, wire_nil, List.append_nil] at hroom ⊢
    have hhead := heading_appends h e adTypeManufacturerSpecificData manuf.companyIdentifier
    obtain ⟨e', he', htail⟩ := tail_appends h
      (((e.put [1 + UInt8.ofNat (2 + manuf.data.size.toNat)]).put
        [adTypeManufacturerSpecificData]).put (uint16Encode manuf.companyIdentifier))
    refine ⟨e', ?_, hhead.trans htail⟩
    unfold manufSpecificDataEncode
    simp only
    rw [if_neg (by rw [hcount]; simp only [advDataOffset]; omega)]
    exact he'
  · simp only [wire_cons, wire_nil, List.append_nil] at hfull
    unfold manufSpecificDataEncode
    simp only
    rw [if_pos (by rw [hcount]; simp only [advDataOffset]; omega)]

theorem serviceDataStep_appends {service : ServiceData} (h : service.data.Given) (e : Encoded) :
    ∃ e', serviceDataStep service e = .ok e' ∧ Appends e (serviceField service).bytes e' := by
  have hhead := heading_appends h e adTypeServiceData service.serviceUuid
  obtain ⟨e', he', htail⟩ := tail_appends h
    (((e.put [1 + UInt8.ofNat (2 + service.data.size.toNat)]).put [adTypeServiceData]).put
      (uint16Encode service.serviceUuid))
  exact ⟨e', he', hhead.trans htail⟩

/-- Service data are put whether there is room or not. -/
theorem serviceDataLoop_appends {services : List ServiceData}
    (h : ∀ service ∈ services, service.data.Given) (e : Encoded) :
    ∃ e', serviceDataLoop services e = .ok e' ∧
      Appends e (wire (services.map serviceField)) e' := by
  induction services generalizing e with
  | nil => exact ⟨e, rfl, Appends.refl e⟩
  | cons service services ih =>
    obtain ⟨e', he', happ'⟩ := serviceDataStep_appends (h service (by simp)) e
    obtain ⟨e'', he'', happ''⟩ := ih (fun s hs => h s (by simp [hs])) e'
    refine ⟨e'', ?_, ?_⟩
    · unfold serviceDataLoop
      rw [he']
      exact he''
    · simpa using happ'.trans happ''

/-- The SoftDevice knows the UUID; it is raw of 2 or 16 bytes. -/
def UuidKnown (port : GapPort σ) (uuid : BleUuid) : Prop :=
  (port.uuidEncode uuid).1 = nrfSuccess ∧
    ((port.uuidEncode uuid).2.length = 2 ∨ (port.uuidEncode uuid).2.length = 16)

def rawOfSize (port : GapPort σ) (size : Nat) (uuids : List BleUuid) : List (List UInt8) :=
  (uuids.map fun uuid => (port.uuidEncode uuid).2).filter fun raw => raw.length = size

/-- One field for all of them, none for none. -/
def rawFields (type : UInt8) (raws : List (List UInt8)) : List Field :=
  if raws = [] then [] else [⟨type, raws.flatten⟩]

def uuidFields (port : GapPort σ) (uuids : List BleUuid) (type16 type128 : UInt8) : List Field :=
  rawFields type16 (rawOfSize port 2 uuids) ++ rawFields type128 (rawOfSize port 16 uuids)

/-- In the loop, after these raw UUIDs: the heading is there with the first of them, its length byte
still what lay in the buffer. -/
def Gathered (e₀ : Encoded) (type : UInt8) (raws : List (List UInt8)) (r : Bool × Encoded) : Prop :=
  (raws = [] ∧ r = (false, e₀)) ∨
    (raws ≠ [] ∧ r.1 = true ∧
      Appends e₀ (e₀.data e₀.len.toNat :: type :: raws.flatten) r.2)

theorem skip_appends (e : Encoded) :
    Appends e [e.data e.len.toNat] { e with len := e.len + 1 } := by
  intro bs hb hlen
  simp only [List.length_cons, List.length_nil] at hlen
  refine ⟨⟨?_, ?_⟩, fun _ _ _ => rfl⟩
  · have hone : (1 : UInt8).toNat = 1 := rfl
    simp only [UInt8.toNat_add, hone, hb.1, List.length_append, List.length_cons, List.length_nil]
    omega
  · rw [hb.1]
    exact hb.2.skip

/-- The length byte is written last. -/
theorem Appends.replace {e e' : Encoded} {old : UInt8} {xs : List UInt8} (new : UInt8)
    (h : Appends e (old :: xs) e') :
    Appends e (new :: xs) { e' with data := copy e'.data e.len.toNat [new] } := by
  intro bs hb hlen
  simp only [List.length_cons] at hlen
  obtain ⟨hb', hframe⟩ := h bs hb (by simpa using hlen)
  refine ⟨⟨?_, ?_⟩, ?_⟩
  · simpa using hb'.1
  · rw [hb.1]
    exact hb'.2.replace new
  · intro a ha hlast
    simp only [List.length_cons] at hlast
    rw [← hframe a ha (by simpa using hlast)]
    apply copy_outside
    rw [hb.1]
    simp only [List.length_cons, List.length_nil]
    omega

theorem rawFields_length (type : UInt8) (raws : List (List UInt8)) :
    (wire (rawFields type raws)).length = if raws = [] then 0 else raws.flatten.length + 2 := by
  unfold rawFields
  split <;> simp

/-- What is in the buffer is as long as the field will be. -/
theorem Gathered.len {e₀ : Encoded} {type : UInt8} {raws : List (List UInt8)} {r : Bool × Encoded}
    (h : Gathered e₀ type raws r) (hroom : raws = [] ∨
      e₀.len.toNat + (wire (rawFields type raws)).length ≤ bleGapAdvMaxSize) :
    r.2.len.toNat = e₀.len.toNat + (wire (rawFields type raws)).length := by
  rw [rawFields_length] at hroom ⊢
  obtain ⟨rfl, rfl⟩ | ⟨hne, -, happ⟩ := h
  · rfl
  · replace hroom := hroom.resolve_left hne
    rw [if_neg hne] at hroom ⊢
    rw [happ.len (by simp only [List.length_cons, bleGapAdvMaxSize] at *; omega)]
    simp only [List.length_cons]

theorem rawFields_push_length (type : UInt8) (raws : List (List UInt8)) (raw : List UInt8) :
    (wire (rawFields type (raws ++ [raw]))).length =
      (wire (rawFields type raws)).length + raw.length + if raws = [] then 2 else 0 := by
  simp only [rawFields_length, List.append_eq_nil_iff, List.cons_ne_self, and_false, if_false,
    List.flatten_append, List.flatten_singleton, List.length_append]
  split
  next h => simp [h]
  next h => omega

section Loop

variable {port : GapPort σ} {type size : UInt8} {uuid : BleUuid} {e₀ : Encoded}
  {raws : List (List UInt8)} {r : Bool × Encoded}

theorem UuidKnown.encodedSize (h : UuidKnown port uuid) :
    (UInt8.ofNat (port.uuidEncode uuid).2.length).toNat = (port.uuidEncode uuid).2.length := by
  rw [UInt8.toNat_ofNat']
  obtain ⟨-, hl | hl⟩ := h <;> rw [hl]

theorem UuidKnown.size_iff (h : UuidKnown port uuid) :
    UInt8.ofNat (port.uuidEncode uuid).2.length = size ↔
      (port.uuidEncode uuid).2.length = size.toNat := by
  rw [← UInt8.toNat_inj, h.encodedSize]

theorem uuidSizedStep_skips (hk : UuidKnown port uuid)
    (hne : (port.uuidEncode uuid).2.length ≠ size.toNat) :
    uuidSizedStep port type size r.1 r.2 uuid = .ok r := by
  unfold uuidSizedStep
  simp only
  rw [if_neg (fun h => h hk.1), if_neg (fun h => hne (hk.size_iff.mp h))]

/-- The heading is counted with the first UUID. -/
theorem Gathered.heading (hg : Gathered e₀ type raws r) :
    (if r.1 = true then 0 else 2) = if raws = [] then 2 else 0 := by
  obtain ⟨rfl, rfl⟩ | ⟨hne, hw, -⟩ := hg
  · rfl
  · rw [hw, if_neg hne]
    rfl

theorem uuidSizedStep_full (hk : UuidKnown port uuid) (hg : Gathered e₀ type raws r)
    (hsize : (port.uuidEncode uuid).2.length = size.toNat)
    (hroom : raws = [] ∨ e₀.len.toNat + (wire (rawFields type raws)).length ≤ bleGapAdvMaxSize)
    (hfull : bleGapAdvMaxSize <
      e₀.len.toNat + (wire (rawFields type (raws ++ [(port.uuidEncode uuid).2]))).length) :
    uuidSizedStep port type size r.1 r.2 uuid = .error nrfErrorDataSize := by
  rw [rawFields_push_length] at hfull
  unfold uuidSizedStep
  simp only
  rw [if_neg (fun h => h hk.1), if_pos (hk.size_iff.mpr hsize), if_pos]
  rw [hk.encodedSize, hg.heading, hg.len hroom]
  omega

theorem uuidSizedStep_gathers (hk : UuidKnown port uuid) (hg : Gathered e₀ type raws r)
    (hsize : (port.uuidEncode uuid).2.length = size.toNat)
    (hroom : e₀.len.toNat + (wire (rawFields type (raws ++ [(port.uuidEncode uuid).2]))).length ≤
      bleGapAdvMaxSize) :
    ∃ r', uuidSizedStep port type size r.1 r.2 uuid = .ok r' ∧
      Gathered e₀ type (raws ++ [(port.uuidEncode uuid).2]) r' := by
  rw [rawFields_push_length] at hroom
  have hfits : ¬ bleGapAdvMaxSize < r.2.len.toNat +
      (UInt8.ofNat (port.uuidEncode uuid).2.length).toNat + (if r.1 = true then 0 else 2) := by
    rw [hk.encodedSize, hg.heading, hg.len (Or.inr (by omega))]
    omega
  have hstep : uuidSizedStep port type size r.1 r.2 uuid =
      .ok (true, (if r.1 then r.2 else ({ r.2 with len := r.2.len + 1 } : Encoded).put [type]).put
        (port.uuidEncode uuid).2) := by
    unfold uuidSizedStep
    simp only
    rw [if_neg (fun h => h hk.1), if_pos (hk.size_iff.mpr hsize), if_neg hfits]
  refine ⟨_, hstep, Or.inr ⟨by simp, rfl, ?_⟩⟩
  obtain ⟨rfl, rfl⟩ | ⟨-, hw, happ⟩ := hg
  · have hhead := (skip_appends e₀).trans (put_appends _ [type])
    have hraw := hhead.trans (put_appends _ (port.uuidEncode uuid).2)
    simpa using hraw
  · have hraw := happ.trans (put_appends _ (port.uuidEncode uuid).2)
    simpa [hw] using hraw

theorem rawOfSize_cons (uuids : List BleUuid) :
    rawOfSize port size.toNat (uuid :: uuids) =
      (if (port.uuidEncode uuid).2.length = size.toNat then [(port.uuidEncode uuid).2] else []) ++
        rawOfSize port size.toNat uuids := by
  unfold rawOfSize
  split <;> simp [*]

theorem rawFields_length_mono (type : UInt8) (raws more : List (List UInt8)) :
    (wire (rawFields type raws)).length ≤ (wire (rawFields type (raws ++ more))).length := by
  simp only [rawFields_length, List.flatten_append, List.length_append, List.append_eq_nil_iff]
  split
  next => omega
  next h =>
    rw [if_neg (fun hn => h hn.1)]
    omega

theorem uuidSizedLoop_fits {uuids : List BleUuid} (hk : ∀ uuid ∈ uuids, UuidKnown port uuid)
    (hg : Gathered e₀ type raws r)
    (hroom : e₀.len.toNat +
        (wire (rawFields type (raws ++ rawOfSize port size.toNat uuids))).length ≤
      bleGapAdvMaxSize) :
    ∃ r', uuidSizedLoop port type size uuids r.1 r.2 = .ok r' ∧
      Gathered e₀ type (raws ++ rawOfSize port size.toNat uuids) r' := by
  induction uuids generalizing raws r with
  | nil => exact ⟨r, rfl, by simpa [rawOfSize] using hg⟩
  | cons uuid uuids ih =>
    have hk' : ∀ u ∈ uuids, UuidKnown port u := fun u hu => hk u (by simp [hu])
    have hkn := hk uuid (by simp)
    rw [rawOfSize_cons, ← List.append_assoc] at hroom ⊢
    unfold uuidSizedLoop
    split at hroom
    next hsize =>
      have hle := rawFields_length_mono type (raws ++ [(port.uuidEncode uuid).2])
        (rawOfSize port size.toNat uuids)
      obtain ⟨r', hr', hg'⟩ := uuidSizedStep_gathers hkn hg hsize (by omega)
      rw [if_pos hsize, hr']
      exact ih hk' hg' hroom
    next hsize =>
      rw [if_neg hsize, uuidSizedStep_skips hkn hsize]
      exact ih hk' (by simpa using hg) hroom

theorem uuidSizedLoop_full {uuids : List BleUuid} (hk : ∀ uuid ∈ uuids, UuidKnown port uuid)
    (hg : Gathered e₀ type raws r)
    (hroom : raws = [] ∨ e₀.len.toNat + (wire (rawFields type raws)).length ≤ bleGapAdvMaxSize)
    (hne : raws ++ rawOfSize port size.toNat uuids ≠ [])
    (hfull : bleGapAdvMaxSize < e₀.len.toNat +
      (wire (rawFields type (raws ++ rawOfSize port size.toNat uuids))).length) :
    uuidSizedLoop port type size uuids r.1 r.2 = .error nrfErrorDataSize := by
  induction uuids generalizing raws r with
  | nil =>
    simp only [rawOfSize, List.map_nil, List.filter_nil, List.append_nil] at hfull hne
    have hlast := hroom.resolve_left hne
    omega
  | cons uuid uuids ih =>
    have hk' : ∀ u ∈ uuids, UuidKnown port u := fun u hu => hk u (by simp [hu])
    have hkn := hk uuid (by simp)
    rw [rawOfSize_cons, ← List.append_assoc] at hfull hne
    unfold uuidSizedLoop
    split at hfull
    next hsize =>
      rw [if_pos hsize] at hne
      by_cases hfit : e₀.len.toNat +
          (wire (rawFields type (raws ++ [(port.uuidEncode uuid).2]))).length ≤ bleGapAdvMaxSize
      · obtain ⟨r', hr', hg'⟩ := uuidSizedStep_gathers hkn hg hsize hfit
        rw [hr']
        exact ih hk' hg' (Or.inr hfit) hne hfull
      · rw [uuidSizedStep_full hkn hg hsize hroom (by omega)]
        rfl
    next hsize =>
      rw [if_neg hsize, List.append_nil] at hne
      rw [uuidSizedStep_skips hkn hsize]
      exact ih hk' hg hroom hne (by simpa using hfull)

theorem uuidSizedLoop_none {uuids : List BleUuid} (hk : ∀ uuid ∈ uuids, UuidKnown port uuid)
    (hnone : rawOfSize port size.toNat uuids = []) :
    uuidSizedLoop port type size uuids r.1 r.2 = .ok r := by
  induction uuids with
  | nil => rfl
  | cons uuid uuids ih =>
    rw [rawOfSize_cons, List.append_eq_nil_iff] at hnone
    have hsize : (port.uuidEncode uuid).2.length ≠ size.toNat := by
      intro heq
      rw [if_pos heq] at hnone
      exact List.cons_ne_nil _ _ hnone.1
    unfold uuidSizedLoop
    rw [uuidSizedStep_skips (hk uuid (by simp)) hsize]
    exact ih (fun u hu => hk u (by simp [hu])) hnone.2

theorem rawFields_eq_nil {type : UInt8} {raws : List (List UInt8)} :
    rawFields type raws = [] ↔ raws = [] := by
  unfold rawFields
  split
  next hnil => exact iff_of_true rfl hnil
  next hne => exact iff_of_false (List.cons_ne_nil _ _) hne

theorem uuidListSizedEncode_emits {uuids : List BleUuid}
    (hk : ∀ uuid ∈ uuids, UuidKnown port uuid) :
    Emits (uuidListSizedEncode port uuids type size)
      (rawFields type (rawOfSize port size.toNat uuids)) := by
  refine ⟨fun e hroom => ?_, fun hne e hfull => ?_, fun hnil e => ?_⟩
  · have hg : Gathered e type [] (false, e) := Or.inl ⟨rfl, rfl⟩
    obtain ⟨r, hr, hgr⟩ := uuidSizedLoop_fits hk hg (by simpa using hroom)
    have hlen := hgr.len (Or.inr (by simpa using hroom))
    simp only [List.nil_append] at hgr hlen
    have hr' : uuidListSizedEncode port uuids type size e =
        if r.1 then
          .ok { r.2 with data := copy r.2.data e.len.toNat [r.2.len - (e.len + 1)] }
        else .ok r.2 := by
      unfold uuidListSizedEncode
      simp only
      rw [hr]
      rfl
    rw [hr']
    obtain ⟨hnil, rfl⟩ | ⟨hne, hw, happ⟩ := hgr
    · refine ⟨e, rfl, ?_⟩
      rw [hnil]
      exact Appends.refl e
    · have hbyte : r.2.len - (e.len + 1) =
          UInt8.ofNat ((rawOfSize port size.toNat uuids).flatten.length + 1) := by
        rw [rawFields_length, if_neg hne] at hlen hroom
        have hone : (1 : UInt8).toNat = 1 := rfl
        apply UInt8.toNat_inj.mp
        rw [UInt8.toNat_sub, UInt8.toNat_add, UInt8.toNat_ofNat', hlen, hone]
        simp only [bleGapAdvMaxSize] at hroom
        omega
      rw [if_pos hw, hbyte]
      refine ⟨_, rfl, ?_⟩
      have hfield := happ.replace
        (UInt8.ofNat ((rawOfSize port size.toNat uuids).flatten.length + 1))
      simpa [rawFields, hne, Field.bytes] using hfield
  · have hg : Gathered e type [] (false, e) := Or.inl ⟨rfl, rfl⟩
    have hraws : rawOfSize port size.toNat uuids ≠ [] := fun hnil => hne (rawFields_eq_nil.mpr hnil)
    have hfails := uuidSizedLoop_full hk hg (Or.inl rfl) (by simpa using hraws) (by simpa using hfull)
    unfold uuidListSizedEncode
    simp only
    rw [hfails]
    rfl
  · have hskips := @uuidSizedLoop_none _ port type size (false, e) _ hk (rawFields_eq_nil.mp hnil)
    unfold uuidListSizedEncode
    simp only
    rw [hskips]
    rfl

end Loop

theorem uuidListEncode_emits {port : GapPort σ} {uuids : List BleUuid} {type16 type128 : UInt8}
    (hk : ∀ uuid ∈ uuids, UuidKnown port uuid) :
    Emits (uuidListEncode port uuids type16 type128) (uuidFields port uuids type16 type128) := by
  have h16 : Emits (uuidListSizedEncode port uuids type16 2)
      (rawFields type16 (rawOfSize port 2 uuids)) := uuidListSizedEncode_emits hk
  have h128 : Emits (uuidListSizedEncode port uuids type128 16)
      (rawFields type128 (rawOfSize port 16 uuids)) := uuidListSizedEncode_emits hk
  exact h16.andThen h128

end BleSpeedSensor
