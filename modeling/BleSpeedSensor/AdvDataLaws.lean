import BleSpeedSensor.AdvDataParser
import BleSpeedSensor.AdvDataRoom
import BleSpeedSensor.AdvertisingData

namespace BleSpeedSensor

open ByteMemory LengthTypeValue

variable {σ : Type}

section Packet

variable {port : GapPort σ} {name : List UInt8} {ad : AdvData} {e e' : Encoded}

theorem start_holding (e : Encoded) : ({ e with len := 0 } : Encoded).Holding [] := by
  refine ⟨rfl, ?_⟩
  intro k hk
  cases hk

theorem advDataEncode_hasRoom (hp : port.Documented name) (hok : advDataEncode port ad e = .ok e') :
    ad.HasRoom port name := by
  apply Classical.not_not.mp
  intro hfull
  rw [advDataEncode_full hp (advDataEncode_encodable hok) hfull e] at hok
  cases hok

theorem advDataEncode_holding (hp : port.Documented name) (hs : ad.Sane port name)
    (hok : advDataEncode port ad e = .ok e') :
    e'.Holding (wire (advFields port name ad)) ∧
      ∀ a, bleGapAdvMaxSize ≤ a → (wire (advFields port name ad)).length ≤ a →
        e'.data a = e.data a := by
  have hv := advDataEncode_encodable hok
  have hroom := (hs.counted.hasRoom_iff hv).mp (advDataEncode_hasRoom hp hok)
  obtain ⟨e₁, he₁, happ⟩ := advDataEncode_fits hp hs.counted hv e hroom
  obtain rfl : e₁ = e' := Except.ok.inj (he₁.symm.trans hok)
  obtain ⟨hb, hframe⟩ := happ [] (start_holding e) (by simpa using hs.size)
  exact ⟨by simpa using hb, fun a ha hlast => hframe a ha (by simpa using hlast)⟩

/-- A descriptor is accepted when its parameters are in order and it has the room that is asked for.
Where the length bytes can count it the packet is its fields in their order, whatever lay in the
buffer, and service data that go past the end of the buffer are written there. -/
theorem advDataEncode_accepts (hp : port.Documented name) (e : Encoded) :
    ((∃ e', advDataEncode port ad e = .ok e') ↔ ad.Encodable port ∧ ad.HasRoom port name) ∧
    (ad.Encodable port → ¬ad.HasRoom port name →
      advDataEncode port ad e = .error nrfErrorDataSize) ∧
    (ad.Sane port name → ∀ e', advDataEncode port ad e = .ok e' →
      e'.bytes = wire (advFields port name ad) ∧
        ∀ a, bleGapAdvMaxSize ≤ a → (wire (advFields port name ad)).length ≤ a →
          e'.data a = e.data a) := by
  refine ⟨⟨?_, ?_⟩, ?_, ?_⟩
  · rintro ⟨e', hok⟩
    exact ⟨advDataEncode_encodable hok, advDataEncode_hasRoom hp hok⟩
  · rintro ⟨hv, hroom⟩
    exact advDataEncode_room hp hv hroom e
  · intro hv hfull
    exact advDataEncode_full hp hv hfull e
  · intro hs e' hok
    obtain ⟨hb, hframe⟩ := advDataEncode_holding hp hs hok
    exact ⟨hb.bytes_eq, hframe⟩

theorem advDataEncode_accepts_sensor :
    ∃ e', advDataEncode speedSensorPort advertisingAdvdata ⟨fun _ => 0xAA, 0⟩ = .ok e' ∧
      e'.bytes = wire (advFields speedSensorPort speedSensorName advertisingAdvdata) := by
  obtain ⟨haccepted, -, hbytes⟩ := @advDataEncode_accepts _ speedSensorPort speedSensorName
    advertisingAdvdata speedSensorPort_documented ⟨fun _ => 0xAA, 0⟩
  obtain ⟨e', hok⟩ := haccepted.mpr
    ⟨advertisingAdvdata_encodable rfl, advertisingAdvdata_hasRoom.mpr (by decide)⟩
  exact ⟨e', hok, (hbytes (advertisingAdvdata_sane (by decide)) e' hok).1⟩

/-- What was encoded is found again: a search for any type gives the payload of the first field of
that type, and so every field but the service data by its own type. -/
theorem advData_found_again (hp : port.Documented name) (hs : ad.Sane port name)
    (hok : advDataEncode port ad e = .ok e') :
    (∀ type, (bleAdvdataParserFieldFind type e'.data e'.len).map (fieldData e'.data) =
      lookup type (advFields port name ad)) ∧
    ∀ f ∈ nameFields ad name ++ checkedFields port ad,
      (bleAdvdataParserFieldFind f.type e'.data e'.len).map (fieldData e'.data) =
        .ok f.payload := by
  obtain ⟨hb, -⟩ := advDataEncode_holding hp hs hok
  refine ⟨fun type => fieldFind_wire hb, ?_⟩
  intro f hf
  rw [fieldFind_wire hb, advFields]
  exact lookup_of_mem (types_nodup port name ad) hf

theorem advData_found_again_sensor :
    ∃ e', advDataEncode speedSensorPort advertisingAdvdata ⟨fun _ => 0xAA, 0⟩ = .ok e' ∧
      (bleAdvdataParserFieldFind adTypeShortLocalName e'.data e'.len).map (fieldData e'.data) =
        .ok speedSensorName := by
  obtain ⟨e', hok⟩ := advDataEncode_room speedSensorPort_documented
    (advertisingAdvdata_encodable rfl) (advertisingAdvdata_hasRoom.mpr (by decide))
    ⟨fun _ => 0xAA, 0⟩
  have hfound := (advData_found_again speedSensorPort_documented
    (advertisingAdvdata_sane (by decide)) hok).1 adTypeShortLocalName
  refine ⟨e', hok, ?_⟩
  rw [hfound, advertisingAdvdata_fields]
  rfl

theorem nameEncode_len {e : Encoded} (hp : port.Documented name)
    (hshort : ad.shortNameLen.toNat ≤ nameRoom) (he : e.len = 0)
    (hok : nameEncode port ad e = .ok e') : e'.bytes.length = ad.nameLen name + 2 := by
  have hle := nameLen_max hp hshort
  rw [nameEncode_empty hp hshort he] at hok
  obtain rfl := Except.ok.inj hok
  simp only [bleGapDevnameMaxLen] at hle
  simp only [Encoded.bytes, List.length_map, List.length_range, UInt8.toNat_ofNat']
  omega

/-- Only the bytes with room are the name's; what lay behind them stays. -/
theorem nameEncode_behind {e : Encoded} (hp : port.Documented name)
    (hshort : ad.shortNameLen.toNat ≤ nameRoom) (he : e.len = 0)
    (hok : nameEncode port ad e = .ok e') : e'.data 31 = e.data 31 := by
  rw [nameEncode_empty hp hshort he] at hok
  obtain rfl := Except.ok.inj hok
  have hhead : ∀ (m : Memory) (dst : Nat) (x : UInt8), dst < 31 → copy m dst [x] 31 = m 31 := by
    intro m dst x hdst
    apply copy_outside
    simp only [List.length_cons, List.length_nil]
    omega
  simp only [hhead _ 1 _ (by omega), hhead _ 0 _ (by omega)]
  apply copy_outside
  rw [List.length_take]
  simp only [nameRoom, bleGapAdvMaxSize, advFlagOffset]
  omega

theorem add_one_ne (x : UInt8) : x + 1 ≠ x := by
  intro heq
  have hnat := congrArg UInt8.toNat heq
  have hlt := x.toNat_lt
  have hone : (1 : UInt8).toNat = 1 := rfl
  rw [UInt8.toNat_add, hone] at hnat
  omega

/-- The name field says what the device is called, whatever lay in the buffer, exactly when the name
fits: a short length beyond the name, or a long name without a short length, sends bytes that nobody
put there. -/
theorem nameEncode_truthful_iff (hp : port.Documented name) :
    (∀ e : Encoded, e.len = 0 → ∃ e' n type, n ≤ name.length ∧ nameEncode port ad e = .ok e' ∧
        e'.bytes = Field.bytes ⟨type, name.take n⟩) ↔
      ad.NameFits name := by
  constructor
  · intro h
    have hshort : ad.shortNameLen.toNat ≤ nameRoom := by
      apply Nat.le_of_not_lt
      intro hlong
      obtain ⟨e', n, type, -, hok, -⟩ := h ⟨fun _ => 0, 0⟩ rfl
      unfold nameEncode at hok
      simp only at hok
      rw [if_pos] at hok
      · cases hok
      · simp only [nameRoom, bleGapAdvMaxSize, advFlagOffset] at hlong
        simp only [bleGapAdvMaxSize, advDataOffset]
        omega
    refine ⟨hshort, ?_⟩
    by_cases hfull : ad.FullName name
    · exact Or.inl hfull
    · right
      -- the byte that a name without room would need comes from the buffer
      obtain ⟨e', n, type, hn, hok, hbytes⟩ := h ⟨fun _ => name.getD 29 0 + 1, 0⟩ rfl
      have hlen := nameEncode_len hp hshort rfl hok
      have hfield := congrArg List.length hbytes
      rw [hlen, Field.bytes_length, List.length_take, Nat.min_eq_left hn] at hfield
      have hcount : ad.nameLen name = n := by omega
      unfold AdvData.nameLen at hcount
      rw [if_neg hfull] at hcount
      by_cases hz : ad.shortNameLen = 0
      · refine Or.inr ⟨hz, ?_⟩
        rw [if_neg (fun hne => hne hz)] at hcount
        subst hcount
        apply Nat.le_of_not_lt
        intro hlong
        simp only [nameRoom, bleGapAdvMaxSize, advFlagOffset] at hlong
        have hbehind := nameEncode_behind hp hshort rfl hok
        have hin : 31 < e'.bytes.length := by omega
        have hread : e'.bytes[31] = e'.data 31 := by simp [Encoded.bytes]
        have hname : e'.bytes[31] = name[29] := by
          simp only [hbytes, Field.bytes, List.getElem_cons_succ, List.take_length]
        rw [hread, hbehind] at hname
        simp only [List.getD_eq_getElem?_getD, List.getElem?_eq_getElem hlong,
          Option.getD_some] at hname
        exact add_one_ne _ hname
      · rw [if_pos hz] at hcount
        exact Or.inl ⟨hz, by omega⟩
  · intro hf e he
    obtain ⟨e', hok, happ⟩ := nameEncode_fits hp hf he
    have hbs : e.Holding [] := by
      refine ⟨by rw [he]; rfl, ?_⟩
      intro k hk
      cases hk
    have hle := hf.nameLen_le
    simp only [nameRoom, bleGapAdvMaxSize, advFlagOffset] at hle
    obtain ⟨hb, -⟩ := happ [] hbs (by
      simp only [nameField, Field.bytes_length, List.length_take, List.length_nil]
      omega)
    exact ⟨e', ad.nameLen name, _, hle.1, hok, hb.bytes_eq⟩

theorem nameEncode_truthful_iff_sensor : ∃ e' n type, n ≤ speedSensorName.length ∧
    nameEncode speedSensorPort advertisingAdvdata ⟨fun _ => 0xAA, 0⟩ = .ok e' ∧
      e'.bytes = Field.bytes ⟨type, speedSensorName.take n⟩ := by
  have hcounted : advertisingAdvdata.Counted speedSensorName :=
    advertisingAdvdata_counted (by decide)
  have hfits := hcounted.name (by decide)
  exact (nameEncode_truthful_iff speedSensorPort_documented).mpr hfits ⟨fun _ => 0xAA, 0⟩ rfl

end Packet

end BleSpeedSensor
