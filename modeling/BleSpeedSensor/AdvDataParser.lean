import BleSpeedSensor.AdvDataPacket

namespace BleSpeedSensor

open ByteMemory LengthTypeValue

/-- The loop from `index` on; the answer is what `*len` and `*pp_field_data` become. -/
def fieldFindLoop (type : UInt8) (advdata : Memory) (len index : Nat) :
    Except ErrCode (UInt8 × Nat) :=
  if index < len then
    let fieldLength := advdata index
    let fieldType := advdata (index + 1)
    if fieldType = type then .ok (fieldLength - 1, index + 2)
    else fieldFindLoop type advdata len (index + (fieldLength.toNat + 1))
  else .error nrfErrorNotFound
  termination_by len - index

def bleAdvdataParserFieldFind (type : UInt8) (advdata : Memory) (len : UInt8) :
    Except ErrCode (UInt8 × Nat) := fieldFindLoop type advdata len.toNat 0

/-- What the caller reads at the field it is given. -/
def fieldData (advdata : Memory) (field : UInt8 × Nat) : List UInt8 :=
  (List.range field.1.toNat).map fun k => advdata (field.2 + k)

/-- The payload of the first field of the type. -/
def lookup (type : UInt8) (fields : List Field) : Except ErrCode (List UInt8) :=
  match fields.find? fun f => f.type = type with
  | none => .error nrfErrorNotFound
  | some f => .ok f.payload

theorem fieldData_eq {m : Memory} {start : Nat} {bytes : List UInt8}
    (hlen : bytes.length ≤ 255) (h : ∀ k (hk : k < bytes.length), m (start + k) = bytes[k]) :
    fieldData m (UInt8.ofNat bytes.length, start) = bytes := by
  have hcount : (UInt8.ofNat bytes.length).toNat = bytes.length := by
    rw [UInt8.toNat_ofNat', Nat.mod_eq_of_lt (by omega)]
  apply List.ext_getElem
  · simp [fieldData, hcount]
  · intro k hk hk'
    simp only [fieldData, List.getElem_map, List.getElem_range]
    exact h k hk'

/-- At the start of a field the loop either takes it or goes on at the next one. -/
theorem fieldFindLoop_wire {type : UInt8} {m : Memory} {done rest : List Field}
    (h : Begins m (wire (done ++ rest))) (hlen : (wire (done ++ rest)).length ≤ 255) :
    (fieldFindLoop type m (wire (done ++ rest)).length (wire done).length).map (fieldData m) =
      lookup type rest := by
  induction rest generalizing done with
  | nil =>
    rw [fieldFindLoop]
    simp [lookup, Except.map]
  | cons f rest ih =>
    have hf : f.payload.length + 2 ≤ (wire (done ++ f :: rest)).length :=
      payload_length_lt_wire (by simp)
    have hnext := @ih (done ++ [f]) (by simpa using h) (by simpa using hlen)
    have hin : (wire done).length < (wire (done ++ f :: rest)).length := by
      simp only [wire_append, wire_cons, List.length_append, Field.bytes_length]
      omega
    have hcount : (UInt8.ofNat (f.payload.length + 1)).toNat = f.payload.length + 1 := by
      rw [UInt8.toNat_ofNat', Nat.mod_eq_of_lt (by omega)]
    rw [fieldFindLoop, if_pos hin]
    simp only [h.length_byte, h.type_byte]
    by_cases ht : f.type = type
    · have hone : UInt8.ofNat (f.payload.length + 1) - 1 = UInt8.ofNat f.payload.length := by
        rw [UInt8.ofNat_add]
        exact UInt8.add_sub_cancel _ _
      rw [if_pos ht, hone]
      simp only [Except.map, lookup, List.find?_cons, ht, decide_true]
      rw [fieldData_eq (by omega) h.payload]
    · rw [if_neg ht, hcount]
      simp only [lookup, List.find?_cons, ht, decide_false] at hnext ⊢
      simpa [Nat.add_assoc] using hnext

theorem fieldFind_wire {type : UInt8} {e : Encoded} {fields : List Field}
    (h : e.Holding (wire fields)) :
    (bleAdvdataParserFieldFind type e.data e.len).map (fieldData e.data) = lookup type fields := by
  have hlen := e.len.toNat_lt
  rw [h.1] at hlen
  have hloop : (fieldFindLoop type e.data (wire ([] ++ fields)).length (wire []).length).map
      (fieldData e.data) = lookup type fields := fieldFindLoop_wire h.2 (by simpa using (by omega))
  unfold bleAdvdataParserFieldFind
  rw [h.1]
  exact hloop

theorem lookup_of_mem {fs gs : List Field} {f : Field} (hn : (fs.map Field.type).Nodup)
    (hf : f ∈ fs) : lookup f.type (fs ++ gs) = .ok f.payload := by
  induction fs with
  | nil => cases hf
  | cons g fs ih =>
    obtain ⟨hg, hn⟩ := List.nodup_cons.mp hn
    obtain rfl | hf := List.mem_cons.mp hf
    · simp [lookup]
    · have hne : g.type ≠ f.type := by
        intro he
        apply hg
        rw [he]
        exact List.mem_map_of_mem hf
      have hrest := ih hn hf
      simp only [lookup, List.cons_append, List.find?_cons, hne, decide_false] at hrest ⊢
      exact hrest

theorem rawFields_types (type : UInt8) (raws : List (List UInt8)) :
    ((rawFields type raws).map Field.type).Sublist [type] := by
  unfold rawFields
  split
  next => exact List.nil_sublist _
  next => exact List.Sublist.refl _

theorem when_types {c : Prop} [Decidable c] (f : Field) :
    ((if c then [f] else []).map Field.type).Sublist [f.type] := by
  split
  next => exact List.Sublist.refl _
  next => exact List.nil_sublist _

theorem given_types {α : Type} {type : UInt8} {field : α → Field} (given : Option α)
    (h : ∀ a, (field a).type = type) :
    ((given.toList.map field).map Field.type).Sublist [type] := by
  cases given with
  | none => exact List.nil_sublist _
  | some a => simp [h a]

variable {σ : Type}

theorem uuidFields_types (port : GapPort σ) (uuids : List BleUuid) (type16 type128 : UInt8) :
    ((uuidFields port uuids type16 type128).map Field.type).Sublist [type16, type128] := by
  simp only [uuidFields, List.map_append]
  exact (rawFields_types type16 _).append (rawFields_types type128 _)

/-- The types in the order of the encoder, for a name of either kind. -/
def typeOrder (nameType : UInt8) : List UInt8 :=
  [nameType] ++ ([adTypeAppearance] ++ ([adTypeFlags] ++ ([adTypeTxPowerLevel] ++
    ([adType16BitServiceUuidMoreAvailable, adType128BitServiceUuidMoreAvailable] ++
      ([adType16BitServiceUuidComplete, adType128BitServiceUuidComplete] ++
        ([adTypeSolicitedServiceUuids16Bit, adTypeSolicitedServiceUuids128Bit] ++
          ([adTypeSlaveConnectionIntervalRange] ++ [adTypeManufacturerSpecificData])))))))

theorem types_sublist (port : GapPort σ) (name : List UInt8) (ad : AdvData) :
    ((nameFields ad name ++ checkedFields port ad).map Field.type).Sublist
      (typeOrder (nameField ad name).type) := by
  simp only [nameFields, checkedFields, frontFields, List.map_append, List.append_assoc]
  have htx : ((ad.pTxPowerLevel.toList.map txPowerField).map Field.type).Sublist
      [adTypeTxPowerLevel] := given_types _ fun _ => rfl
  have hconn : ((ad.pSlaveConnInt.toList.map connIntField).map Field.type).Sublist
      [adTypeSlaveConnectionIntervalRange] := given_types _ fun _ => rfl
  have hmanuf : ((ad.pManufSpecificData.toList.map manufField).map Field.type).Sublist
      [adTypeManufacturerSpecificData] := given_types _ fun _ => rfl
  exact (when_types _).append ((when_types _).append ((when_types _).append (htx.append
    ((uuidFields_types port _ _ _).append ((uuidFields_types port _ _ _).append
      ((uuidFields_types port _ _ _).append (hconn.append hmanuf)))))))

theorem types_nodup (port : GapPort σ) (name : List UInt8) (ad : AdvData) :
    ((nameFields ad name ++ checkedFields port ad).map Field.type).Nodup := by
  apply (types_sublist port name ad).nodup
  unfold nameField
  simp only
  split <;> decide

end BleSpeedSensor
