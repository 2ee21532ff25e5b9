import Fe2o3Amqp.Serde.CompositeRoundTrip
import Fe2o3Amqp.Serde.MapEntries

/-!
# The encoding of a composite by its fields

Every field of a described list is written by a serializer of its own, so that a composite is encoded
exactly when its fields are and their list is not too long.  Leaving out a field, or writing it
shorter, never makes the encoding longer.
-/

namespace Fe2o3Amqp

/-! ## The list of the fields -/

namespace Wire

/-- A field is written no longer than before, or not at all. -/
inductive NoLonger : Option Bytes → Option Bytes → Prop
  | postponed : NoLonger none none
  | leftOut {bytes : Bytes} (h : bytes ≠ []) : NoLonger none (some bytes)
  | written {bytes bytes' : Bytes} (h : bytes.length ≤ bytes'.length) :
      NoLonger (some bytes) (some bytes')

theorem NoLonger.refl (piece : Option Bytes) : NoLonger piece piece := by
  cases piece with
  | none => exact .postponed
  | some bytes => exact .written (Nat.le_refl _)

theorem length_fields_le_nulls (nulls : Nat) (pieces : List (Option Bytes)) :
    (fields nulls pieces).flatten.length ≤ nulls + (fields 0 pieces).flatten.length := by
  rw [fields_eq]
  split
  · simp
  · simp

/-- The null for a field that is left out is not longer than the field. -/
theorem length_fields_le_of_noLonger {pieces pieces' : List (Option Bytes)}
    (h : List.Forall₂ NoLonger pieces pieces') (nulls : Nat) :
    (fields nulls pieces).flatten.length ≤ (fields nulls pieces').flatten.length := by
  induction h generalizing nulls with
  | nil => exact Nat.le_refl _
  | @cons piece piece' pieces pieces' hpiece _ ih =>
      have hrest := ih 0
      cases hpiece with
      | postponed => exact ih (nulls + 1)
      | written hle =>
          simp only [fields, List.flatten_append, List.flatten_cons, List.length_append]
          omega
      | @leftOut bytes hbytes =>
          have hpos := List.length_pos_iff.mpr hbytes
          have hnulls := length_fields_le_nulls (nulls + 1) pieces
          simp only [fields, List.flatten_append, List.flatten_cons, List.length_append,
            List.flatten_replicate_singleton, List.length_replicate]
          omega

theorem length_list_le {num num' : Nat} {buf buf' : Bytes} (h : buf.length ≤ buf'.length) :
    (list num buf).length ≤ (list num' buf').length := by
  have hcompound : (compound .list8 .list32 num buf).length ≤
      (compound .list8 .list32 num' buf').length := by
    simp only [compound, List.length_append]
    by_cases hsmall : buf.length ≤ u8MaxMinus1
    · have hheader : 3 ≤ (if buf'.length ≤ u8MaxMinus1 then
          [EncodingCodes.list8.toU8, UInt8.ofNat (buf'.length + 1), UInt8.ofNat num']
          else EncodingCodes.list32.toU8 :: BigEndian.encode 4 (buf'.length + 4) ++
            BigEndian.encode 4 num').length := by
        split
        · exact Nat.le_refl 3
        · simp only [List.length_append, List.length_cons, BigEndian.length_encode]
          omega
      rw [if_pos hsmall]
      simp only [List.length_cons, List.length_nil]
      omega
    · rw [if_neg hsmall, if_neg (by omega)]
      simp only [List.length_append, List.length_cons, BigEndian.length_encode]
      omega
  simp only [list]
  split_ifs with hbuf hbuf'
  · exact Nat.le_refl _
  · have hlt := length_lt_compound .list8 .list32 num' buf'
    simp only [List.length_cons, List.length_nil]
    omega
  · omega
  · exact hcompound

end Wire

/-! ## The fields -/

/-- What a value writes as a field of a described list. -/
def Ser.asField (t : Ser) : Except Failure Bytes := do
  let se ← t.serialize (Serializer.describedList [])
  return se.writer

/-- The buffer that the field is added to makes no difference. -/
theorem Ser.serialize_describedList (t : Ser) (buf : Bytes) :
    t.serialize (Serializer.describedList buf) =
      t.asField.map fun bytes => ⟨t.flagsAfter .describedList, buf ++ bytes⟩ := by
  have hbeside : Beside .describedList .describedList := ⟨rfl, rfl, rfl, .inl rfl, .inl rfl⟩
  obtain ⟨r, hr⟩ := (t.writtenAlike_self hbeside).1
  have halone : t.serialize (Serializer.describedList []) = _ := (hr []).1
  have hbuf : t.serialize (Serializer.describedList buf) = _ := (hr buf).1
  rw [asField, halone, hbuf]
  cases r <;> rfl

/-- What holds of all bytes that a value serializes to holds of its field. -/
theorem Serializes.asField {t : Ser} {P : Bytes → Prop} (h : Serializes t P) {bytes : Bytes}
    (hbytes : t.asField = .ok bytes) : P bytes := by
  obtain ⟨se, hse, hpure⟩ := Except.bind_eq_ok.mp hbytes
  obtain ⟨written, hwriter, hP⟩ := h _ _ (Serializer.neutral_describedList []) hse
  cases hpure
  rw [hwriter]
  exact hP

namespace CompositeField

/-- What is written for a field; a postponed one writes nothing. -/
def written (field : CompositeField) : Except Failure (Option Bytes) :=
  match field.value with
  | none => .ok none
  | some t => t.asField.map some

theorem serializeStructFields_eq {se : Serializer} (h : se.structEncoding = .describedList)
    (fields : List CompositeField) (nulls : List String) (count : Nat) (buf : Bytes) :
    Ser.serializeStructFields se count buf (compositeFields nulls fields) =
      (fields.mapM written).map fun pieces =>
        (se, count + (Wire.fields nulls.length pieces).length,
          buf ++ (Wire.fields nulls.length pieces).flatten) := by
  induction fields generalizing nulls count buf with
  | nil => simp [compositeFields, Wire.fields, Except.map, pure, Except.pure]
  | cons field fields ih =>
      obtain ⟨name, value⟩ := field
      rw [List.mapM_cons]
      cases value with
      | none =>
          rw [compositeFields, ih]
          simp only [written, Except.ok_bind]
          cases fields.mapM written with
          | error e => rfl
          | ok pieces => simp [Except.map, Except.ok_bind, pure, Except.pure, Wire.fields]
      | some t =>
          rw [compositeFields, Ser.serializeStructFields_nulls h,
            Ser.serializeStructFields_describedList h, Ser.serialize_describedList]
          simp only [written]
          cases t.asField with
          | error e => rfl
          | ok bytes =>
              simp only [Except.ok_bind, Except.map, ih]
              cases fields.mapM written with
              | error e => rfl
              | ok pieces =>
                  simp only [Except.ok_bind, pure, Except.pure, Wire.fields,
                    List.length_append, List.length_replicate, List.length_cons, List.length_nil,
                    List.flatten_append, List.flatten_cons, List.append_assoc]
                  rw [Nat.add_assoc, Nat.add_assoc, Nat.add_comm 1]

end CompositeField

/-- The converse of `Serializer.writeList_eq`. -/
theorem Serializer.writeList_of_le {se : Serializer} (num : Nat) {buf : Bytes}
    (hlen : buf.length ≤ u32MaxMinus4) :
    se.writeList num buf .false = .ok (se.writeAll (Wire.list num buf)) := by
  simp only [writeList, writeCompound, Wire.list, Wire.compound, if_pos hlen]
  split_ifs
  · rfl
  · simp
  · simp

theorem Serializer.writeList_of_gt {se : Serializer} (num : Nat) {buf : Bytes}
    (hlen : ¬buf.length ≤ u32MaxMinus4) : se.writeList num buf .false = .error (.err .tooLong) := by
  have hsmall : ¬buf.length ≤ u8MaxMinus1 := by
    simp only [u32MaxMinus4] at hlen
    simp only [u8MaxMinus1]
    omega
  have hsome : ¬buf.length = 0 := by omega
  simp only [writeList, writeCompound, if_neg hsome, if_neg hsmall, if_neg hlen]

theorem Serializer.serialize_descriptorCode {se : Serializer} (hse : se.Neutral) (code : UInt64) :
    (Descriptor.code code).toSer.serialize se =
      .ok (se.writeAll (Wire.descriptor (.code code))) := by
  simp only [Descriptor.toSer, Ser.serialize, serializeU64, writeAll, hse.isArrayElement,
    Wire.descriptor, Wire.u64]
  split_ifs <;> simp

/-- A composite is encoded when its fields are, unless their list is too long. -/
theorem toVec_composite (code : UInt64) (field : CompositeField) (fields : List CompositeField) :
    toVec (compositeToSer code (field :: fields)) = ((field :: fields).mapM CompositeField.written >>=
      fun pieces =>
        if (Wire.fields 0 pieces).flatten.length ≤ u32MaxMinus4 then
          .ok (Wire.descriptor (.code code) ++
            Wire.list (Wire.fields 0 pieces).length (Wire.fields 0 pieces).flatten)
        else .error (.err .tooLong)) := by
  have hpushed : (Serializer.mk (SizeSerializer.new.pushEncoding .describedList) []).Neutral :=
    ⟨rfl, rfl, rfl⟩
  have hdescriptor := Serializer.serialize_descriptorCode hpushed code
  have hencoding : (Serializer.mk (SizeSerializer.new.pushEncoding .describedList)
      (Wire.descriptor (.code code))).structEncoding = .describedList := rfl
  have hfields := CompositeField.serializeStructFields_eq hencoding (field :: fields) [] 0 []
  simp only [toVec, compositeToSer, Ser.serialize, SizeSerializer.enterStruct, Serializer.new,
    Ser.serializeStructFields, hdescriptor, Except.ok_bind, Serializer.writeAll, List.nil_append,
    hfields]
  cases (field :: fields).mapM CompositeField.written with
  | error e => rfl
  | ok pieces =>
      simp only [Except.map, Except.ok_bind, List.length_nil, Nat.zero_add, Serializer.endStruct,
        hencoding]
      have hplain : (Serializer.mk (SizeSerializer.new.pushEncoding .describedList)
          (Wire.descriptor (.code code))).isArrayElement = .false := rfl
      rw [hplain]
      by_cases hlen : (Wire.fields 0 pieces).flatten.length ≤ u32MaxMinus4
      · rw [Serializer.writeList_of_le _ hlen, if_pos hlen]
        rfl
      · rw [Serializer.writeList_of_gt _ hlen, if_neg hlen]
        rfl

/-! ## Shorter fields -/

namespace CompositeField

/-- Where the other field is written, this one is written no longer. -/
def NoLonger (field field' : CompositeField) : Prop :=
  ∀ piece', field'.written = .ok piece' →
    ∃ piece, field.written = .ok piece ∧ Wire.NoLonger piece piece'

theorem NoLonger.of_eq {field field' : CompositeField} (h : field = field') : field.NoLonger field' := by
  subst h
  exact fun piece' hpiece' => ⟨piece', hpiece', .refl piece'⟩

/-- A field is postponed where the other one may be written. -/
theorem NoLonger.of_none {field field' : CompositeField} (hnone : field.value = none)
    (hsome : ∀ t, field'.value = some t → ∀ bytes, t.asField = .ok bytes → bytes ≠ []) :
    field.NoLonger field' := by
  intro piece' hpiece'
  refine ⟨none, by simp only [written, hnone], ?_⟩
  obtain ⟨name', value'⟩ := field'
  cases value' with
  | none =>
      cases hpiece'
      exact .postponed
  | some t =>
      simp only [written] at hpiece'
      cases hbytes : t.asField with
      | error e =>
          rw [hbytes] at hpiece'
          cases hpiece'
      | ok bytes =>
          rw [hbytes] at hpiece'
          cases hpiece'
          exact .leftOut (hsome t rfl bytes hbytes)

theorem mapM_written_of_noLonger {fields fields' : List CompositeField}
    (h : List.Forall₂ NoLonger fields fields') {pieces' : List (Option Bytes)}
    (hpieces' : fields'.mapM written = .ok pieces') :
    ∃ pieces, fields.mapM written = .ok pieces ∧ List.Forall₂ Wire.NoLonger pieces pieces' := by
  induction h generalizing pieces' with
  | nil =>
      cases hpieces'
      exact ⟨[], rfl, .nil⟩
  | cons hfield _ ih =>
      rw [List.mapM_cons] at hpieces' ⊢
      obtain ⟨piece', hpiece', hrest⟩ := Except.bind_eq_ok.mp hpieces'
      obtain ⟨rest', hrest', hpure⟩ := Except.bind_eq_ok.mp hrest
      cases hpure
      obtain ⟨piece, hpiece, hle⟩ := hfield piece' hpiece'
      obtain ⟨rest, hrest, hles⟩ := ih hrest'
      exact ⟨piece :: rest, by rw [hpiece, hrest]; rfl, .cons hle hles⟩

end CompositeField

/-- A composite with shorter fields is encoded whenever the other one is, to at most as many bytes. -/
theorem toVec_composite_of_noLonger {code : UInt64} {field field' : CompositeField}
    {fields fields' : List CompositeField}
    (h : List.Forall₂ CompositeField.NoLonger (field :: fields) (field' :: fields')) {bytes' : Bytes}
    (hbytes' : toVec (compositeToSer code (field' :: fields')) = .ok bytes') :
    ∃ bytes, toVec (compositeToSer code (field :: fields)) = .ok bytes ∧
      bytes.length ≤ bytes'.length := by
  rw [toVec_composite] at hbytes' ⊢
  obtain ⟨pieces', hpieces', hlist'⟩ := Except.bind_eq_ok.mp hbytes'
  obtain ⟨pieces, hpieces, hles⟩ := CompositeField.mapM_written_of_noLonger h hpieces'
  have hle := Wire.length_fields_le_of_noLonger hles 0
  split at hlist'
  next hlen =>
    cases hlist'
    rw [hpieces, Except.ok_bind, if_pos (hle.trans hlen)]
    refine ⟨_, rfl, ?_⟩
    have hlist : (Wire.list (Wire.fields 0 pieces).length (Wire.fields 0 pieces).flatten).length ≤
        (Wire.list (Wire.fields 0 pieces').length (Wire.fields 0 pieces').flatten).length :=
      Wire.length_list_le hle
    simp only [List.length_append]
    omega
  next => cases hlist'

end Fe2o3Amqp
