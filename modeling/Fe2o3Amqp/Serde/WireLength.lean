import Fe2o3Amqp.Serde.Ser
import Fe2o3Amqp.Util.Except

/-!
# The length of an encoding

The size serializer and the serializer make the same choices as long as no part of a value reads a
flag on which they differ.  They differ in what they hand from one part to another: the serializer
gives the flags that a key leaves to the value behind it, and its own flags to the contents of a
described basic value, where the size serializer starts afresh.
-/

namespace Fe2o3Amqp

/-- Whether a format code is written. -/
def IsArrayElement.coded : IsArrayElement → Bool
  | .otherElement => Bool.false
  | _ => Bool.true

namespace SizeSerializer

/-- The flags with which the serializer writes a field of a tuple struct. -/
def tupleStructField (se : SizeSerializer) : SizeSerializer :=
  match se.structEncoding with
  | .describedList => describedList
  | _ => { new with isArrayElement := se.isArrayElement }

/-- The flags behind the last field of a struct. -/
def leaveStruct (se : SizeSerializer) : SizeSerializer :=
  if se.structEncoding = .none then se else se.popEncoding

end SizeSerializer

namespace Ser

/-- The calls of a descriptor. -/
def isDescriptor : Ser → Bool
  | .newtypeVariant .descriptor _ (.newtypeStruct .symbol (.str _)) => true
  | .newtypeVariant .descriptor _ (.u64 _) => true
  | _ => false

mutual

/-- The flags that the serializer is left with. -/
def flagsAfter : Ser → SizeSerializer → SizeSerializer
  | .str _, se =>
      if se.isArrayElement = .false ∧
          (se.nonNativeType = Option.some .symbol ∨ se.nonNativeType = Option.some .symbolRef) then
        { se with nonNativeType := Option.none }
      else se
  | .bytes _, se =>
      match se.nonNativeType with
      | Option.some .dec32 | Option.some .dec64 | Option.some .dec128 | Option.some .uuid =>
          { se with nonNativeType := Option.none }
      | _ => se
  | .some v, se => v.flagsAfter se
  | .newtypeStruct name v, se => v.flagsAfter (se.enterNewtype name)
  | .newtypeVariant .descriptor _ v, se => v.flagsAfter se
  | .tupleStruct name fields, se =>
      (tupleFlagsAfter (name = .describedBasic ∨ name = .describedList) fields
        (se.enterTupleStruct name)).leaveStruct
  | .struct name fields, se => (fieldsFlagsAfter fields (se.enterStruct name)).leaveStruct
  | _, se => se

/-- Only the descriptor is written by the serializer itself. -/
def tupleFlagsAfter (descriptor : Bool) : List Ser → SizeSerializer → SizeSerializer
  | [], se => se
  | v :: _, se => if descriptor then v.flagsAfter se else se

def fieldsFlagsAfter : List (FieldKey × Ser) → SizeSerializer → SizeSerializer
  | [], se => se
  | (.descriptor, v) :: fields, se => fieldsFlagsAfter fields (v.flagsAfter se)
  | (.name _, v) :: fields, se =>
      fieldsFlagsAfter fields (if se.structEncoding = .describedBasic then v.flagsAfter se else se)

end

mutual

/-- No part of the value reads a flag on which the serializer, started with `se`, and the size
serializer, started with `sz`, differ. -/
def flagsAlike : Ser → (se sz : SizeSerializer) → Bool
  | .bool _, se, sz | .i32 _, se, sz | .u32 _, se, sz | .u64 _, se, sz | .unitVariant _, se, sz =>
      se.isArrayElement == sz.isArrayElement
  | .i8 _, se, sz | .i16 _, se, sz | .u8 _, se, sz | .u16 _, se, sz | .f32 _, se, sz
  | .f64 _, se, sz | .char _, se, sz => se.isArrayElement.coded == sz.isArrayElement.coded
  | .i64 _, se, sz | .str _, se, sz | .bytes _, se, sz =>
      se.isArrayElement == sz.isArrayElement && se.nonNativeType == sz.nonNativeType
  | .none, _, _ | .unit, _, _ => true
  | .some v, se, sz => v.flagsAlike se sz
  | .newtypeStruct name v, se, sz => v.flagsAlike (se.enterNewtype name) (sz.enterNewtype name)
  | .newtypeVariant .descriptor _ v, se, sz => v.flagsAlike se sz
  | .newtypeVariant _ _ v, se, sz =>
      se.isArrayElement.coded == sz.isArrayElement.coded && v.flagsAlike .new .new
  | .seq _ elements, se, sz =>
      se.seqType == sz.seqType && se.isArrayElement.coded == sz.isArrayElement.coded &&
        elementsAlike se.seqType 0 elements
  | .tuple elements, se, sz =>
      se.isArrayElement.coded == sz.isArrayElement.coded && elementsAlike Option.none 0 elements
  | .tupleStruct name fields, se, sz =>
      tupleFieldsAlike (name = .describedBasic ∨ name = .describedList) fields
        (se.enterTupleStruct name) (sz.enterTupleStruct name)
  | .map _ entries, se, sz =>
      se.isArrayElement.coded == sz.isArrayElement.coded && entriesAlike entries
  | .struct name fields, se, sz => fieldsAlike fields (se.enterStruct name) (sz.enterStruct name)
  | .variant _ fields, se, sz =>
      se.isArrayElement.coded == sz.isArrayElement.coded && elementsAlike Option.none 0 fields

/-- The two serializers give the elements of a sequence the same flags. -/
def elementsAlike (seqType : Option SequenceType) (num : Nat) : List Ser → Bool
  | [] => true
  | v :: vs =>
      v.flagsAlike { SizeSerializer.new with isArrayElement := elementMode seqType num }
        { SizeSerializer.new with isArrayElement := elementMode seqType num } &&
      elementsAlike seqType (num + 1) vs

/-- The serializer writes the value of an entry with the flags that the key leaves. -/
def entriesAlike : List (Ser × Ser) → Bool
  | [] => true
  | (key, value) :: entries =>
      key.flagsAlike .new .new && value.flagsAlike (key.flagsAfter .new) .new &&
        entriesAlike entries

/-- The list of a tuple struct is always closed with its format code. -/
def tupleFieldsAlike (descriptor : Bool) : List Ser → (se sz : SizeSerializer) → Bool
  | [], se, sz =>
      se.structEncoding == sz.structEncoding &&
        (se.structEncoding == .describedBasic || sz.isArrayElement.coded)
  | v :: vs, se, sz =>
      if descriptor then v.flagsAlike se .new && tupleFieldsAlike false vs (v.flagsAfter se) sz
      else
        se.structEncoding == sz.structEncoding &&
          v.flagsAlike se.tupleStructField
            (if se.structEncoding = .describedBasic then .new
              else { SizeSerializer.new with isArrayElement := sz.isArrayElement }) &&
          tupleFieldsAlike false vs se sz

/-- The serializer writes the contents of a basic described value with its own flags. -/
def fieldsAlike : List (FieldKey × Ser) → (se sz : SizeSerializer) → Bool
  | [], se, sz =>
      se.structEncoding == sz.structEncoding &&
        (se.structEncoding == .describedBasic ||
          se.isArrayElement.coded == sz.isArrayElement.coded)
  | (.descriptor, v) :: fields, se, sz =>
      v.isDescriptor && v.flagsAlike se sz && fieldsAlike fields (v.flagsAfter se) sz
  | (.name _, v) :: fields, se, sz =>
      se.structEncoding == sz.structEncoding &&
        match se.structEncoding with
        | .none =>
            v.flagsAlike { SizeSerializer.new with isArrayElement := se.isArrayElement }
              { SizeSerializer.new with isArrayElement := sz.isArrayElement } &&
            fieldsAlike fields se sz
        | .describedList => v.flagsAlike .describedList .describedList && fieldsAlike fields se sz
        | .describedMap => v.flagsAlike .describedMap .describedMap && fieldsAlike fields se sz
        | .describedBasic => v.flagsAlike se .new && fieldsAlike fields (v.flagsAfter se) sz

end

/-- No part of the calls is serialized on its own. -/
def isLeaf : Ser → Bool
  | .some _ | .newtypeStruct _ _ | .newtypeVariant _ _ _ | .seq _ _ | .tuple _ | .tupleStruct _ _
  | .map _ _ | .struct _ _ | .variant _ _ => false
  | _ => true

/-- Induction on the calls with hypotheses for the parts. -/
@[elab_as_elim]
theorem induction {motive : Ser → Prop} (leaf : ∀ v, v.isLeaf → motive v)
    (some : ∀ v, motive v → motive (.some v))
    (newtypeStruct : ∀ name v, motive v → motive (.newtypeStruct name v))
    (newtypeVariant : ∀ name index v, motive v → motive (.newtypeVariant name index v))
    (seq : ∀ len vs, (∀ v ∈ vs, motive v) → motive (.seq len vs))
    (tuple : ∀ vs, (∀ v ∈ vs, motive v) → motive (.tuple vs))
    (tupleStruct : ∀ name vs, (∀ v ∈ vs, motive v) → motive (.tupleStruct name vs))
    (map : ∀ len (entries : List (Ser × Ser)),
      (∀ entry ∈ entries, motive entry.1 ∧ motive entry.2) → motive (.map len entries))
    (struct : ∀ name (fields : List (FieldKey × Ser)),
      (∀ field ∈ fields, motive field.2) → motive (.struct name fields))
    (variant : ∀ index vs, (∀ v ∈ vs, motive v) → motive (.variant index vs))
    (v : Ser) : motive v := by
  have ih (v' : Ser) (_ : sizeOf v' < sizeOf v) : motive v' :=
    induction leaf some newtypeStruct newtypeVariant seq tuple tupleStruct map struct variant v'
  have hmem {vs : List Ser} (h : sizeOf vs < sizeOf v) : ∀ v' ∈ vs, motive v' := by
    intro v' hv'
    have hlt := List.sizeOf_lt_of_mem hv'
    exact ih v' (by omega)
  cases hv : v with
  | some v' => exact some v' (ih v' (by rw [hv, Ser.some.sizeOf_spec]; omega))
  | newtypeStruct name v' =>
      exact newtypeStruct name v' (ih v' (by rw [hv, Ser.newtypeStruct.sizeOf_spec]; omega))
  | newtypeVariant name index v' =>
      exact newtypeVariant name index v' (ih v' (by rw [hv, Ser.newtypeVariant.sizeOf_spec]; omega))
  | seq len vs => exact seq len vs (hmem (by rw [hv, Ser.seq.sizeOf_spec]; omega))
  | tuple vs => exact tuple vs (hmem (by rw [hv, Ser.tuple.sizeOf_spec]; omega))
  | tupleStruct name vs => exact tupleStruct name vs (hmem (by rw [hv, Ser.tupleStruct.sizeOf_spec]; omega))
  | map len entries =>
      refine map len entries fun entry hentry => ?_
      have hpair : sizeOf entry = 1 + sizeOf entry.1 + sizeOf entry.2 := rfl
      have hlt := List.sizeOf_lt_of_mem hentry
      have hsize : sizeOf entries < sizeOf v := by rw [hv, Ser.map.sizeOf_spec]; omega
      exact ⟨ih _ (by omega), ih _ (by omega)⟩
  | struct name fields =>
      refine struct name fields fun field hfield => ih _ ?_
      have hpair : sizeOf field = 1 + sizeOf field.1 + sizeOf field.2 := rfl
      have hlt := List.sizeOf_lt_of_mem hfield
      rw [hv, Ser.struct.sizeOf_spec]
      omega
  | variant index vs => exact variant index vs (hmem (by rw [hv, Ser.variant.sizeOf_spec]; omega))
  | _ => exact leaf _ rfl
termination_by sizeOf v

/-! ## Lengths -/

end Ser

namespace SizeSerializer

/-- The length of a number with a code for short values that stand alone. -/
def numberLength (se : SizeSerializer) (alone width : Nat) : Nat :=
  match se.isArrayElement with
  | .false => alone
  | .firstElement => 1 + width
  | .otherElement => width

def uintLength (se : SizeSerializer) (v : UInt32) : Nat :=
  se.numberLength (if v = 0 then 1 else if v.toNat ≤ 255 then 2 else 5) 4

/-- The length of a string, a symbol or a binary of `l` bytes. -/
def sizedLength (se : SizeSerializer) (l : Nat) : Nat :=
  match se.isArrayElement with
  | .false => if l ≤ u8MaxMinus1 then 2 + l else 5 + l
  | .firstElement => 5 + l
  | .otherElement => 4 + l

end SizeSerializer

/-- The length of a compound value around a body of `len` bytes. -/
def compoundLength (len : Nat) (mode : IsArrayElement) : Nat :=
  (if mode.coded then 1 else 0) + (if len ≤ u8MaxMinus1 then 2 else 8) + len

/-- An empty list is its format code. -/
def listLength (len : Nat) (mode : IsArrayElement) : Nat :=
  if len = 0 then 1 else compoundLength len mode

def seqLength (se : SizeSerializer) (len : Nat) : Nat :=
  match se.seqType with
  | none | some .list => listLength len se.isArrayElement
  | some .array => compoundLength len se.isArrayElement
  | some .transparentVec => len

/-- The length of a tuple struct with `front` bytes before the list of its fields. -/
def tupleStructLength (se : SizeSerializer) (front body : Nat) : Nat :=
  match se.structEncoding with
  | .none | .describedList => front + listLength body .false
  | .describedBasic | .describedMap => front + body

/-- The length of a struct with `front` bytes before the list or map of its fields. -/
def structLength (se : SizeSerializer) (front body : Nat) : Nat :=
  match se.structEncoding with
  | .none | .describedList => front + listLength body se.isArrayElement
  | .describedMap => front + compoundLength body se.isArrayElement
  | .describedBasic => front + body

/-- The size serializer counts the bytes in front of the fields as if they stood inside of the list
or map.  It chooses the same header if they make no difference to it. -/
def frontFits (encoding : StructEncoding) (front body : Nat) : Bool :=
  match encoding with
  | .none | .describedList =>
      front = 0 ∨ (0 < body ∧ front + body ≤ u8MaxMinus1) ∨
        (u8MaxMinus1 < body ∧ front + body ≤ u32MaxMinus4)
  | .describedMap =>
      front = 0 ∨ front + body ≤ u8MaxMinus1 ∨
        (u8MaxMinus1 < body ∧ front + body ≤ u32MaxMinus4)
  | .describedBasic => true

namespace Ser

mutual

/-- The number of bytes that the encoding of the value takes. -/
def wireLength : Ser → SizeSerializer → Nat
  | .bool _, se => se.numberLength 1 1
  | .i8 _, se | .u8 _, se => se.fixedSize 1
  | .i16 _, se | .u16 _, se => se.fixedSize 2
  | .i32 v, se => se.numberLength (if -128 ≤ v.toInt ∧ v.toInt ≤ 127 then 2 else 5) 4
  | .i64 v, se =>
      if se.nonNativeType = Option.none then
        se.numberLength (if -128 ≤ v.toInt ∧ v.toInt ≤ 127 then 2 else 9) 8
      else se.fixedSize 8
  | .u32 v, se | .unitVariant v, se => se.uintLength v
  | .u64 v, se => se.numberLength (if v = 0 then 1 else if v.toNat ≤ 255 then 2 else 9) 8
  | .f32 _, se | .char _, se => se.fixedSize 4
  | .f64 _, se => se.fixedSize 8
  | .str v, se => se.sizedLength (utf8Bytes v).length
  | .bytes v, se =>
      match se.nonNativeType with
      | Option.none => se.sizedLength v.length
      | Option.some .lazyValue => v.length
      | _ => se.fixedSize v.length
  | .none, _ | .unit, _ => 1
  | .some v, se => v.wireLength se
  | .newtypeStruct name v, se => v.wireLength (se.enterNewtype name)
  | .newtypeVariant .descriptor _ v, se => v.wireLength se + 1
  | .newtypeVariant _ index v, se =>
      compoundLength (SizeSerializer.new.uintLength index + v.wireLength .new) se.isArrayElement
  | .seq _ vs, se => seqLength se (elementsLength se.seqType 0 vs)
  | .tuple vs, se => listLength (elementsLength Option.none 0 vs) se.isArrayElement
  | .tupleStruct name vs, se =>
      let role : Bool := name = .describedBasic ∨ name = .describedList
      let (front, body) := tupleFieldsLength role vs (se.enterTupleStruct name)
      tupleStructLength (tupleFlagsAfter role vs (se.enterTupleStruct name)) front body
  | .map _ entries, se => compoundLength (entriesLength entries) se.isArrayElement
  | .struct name fields, se =>
      let (front, body) := fieldsLength fields (se.enterStruct name)
      structLength (fieldsFlagsAfter fields (se.enterStruct name)) front body
  | .variant index vs, se =>
      compoundLength (SizeSerializer.new.uintLength index +
        listLength (elementsLength Option.none 0 vs) se.isArrayElement) se.isArrayElement

def elementsLength (seqType : Option SequenceType) (num : Nat) : List Ser → Nat
  | [] => 0
  | v :: vs =>
      v.wireLength { SizeSerializer.new with isArrayElement := elementMode seqType num } +
        elementsLength seqType (num + 1) vs

def entriesLength : List (Ser × Ser) → Nat
  | [] => 0
  | (key, value) :: entries =>
      key.wireLength .new + value.wireLength (key.flagsAfter .new) + entriesLength entries

/-- The bytes of the descriptor, and those of the fields behind it. -/
def tupleFieldsLength (role : Bool) : List Ser → SizeSerializer → Nat × Nat
  | [], _ => (0, 0)
  | v :: vs, se =>
      if role then
        let (front, body) := tupleFieldsLength false vs (v.flagsAfter se)
        (v.wireLength se + front, body)
      else
        let (front, body) := tupleFieldsLength false vs se
        (front, v.wireLength se.tupleStructField + body)

/-- The bytes that the serializer writes itself, and those of the fields that it buffers. -/
def fieldsLength : List (FieldKey × Ser) → SizeSerializer → Nat × Nat
  | [], _ => (0, 0)
  | (.descriptor, v) :: fields, se =>
      let (front, body) := fieldsLength fields (v.flagsAfter se)
      (v.wireLength se + front, body)
  | (.name key, v) :: fields, se =>
      match se.structEncoding with
      | .none =>
          let (front, body) := fieldsLength fields se
          (front, v.wireLength { SizeSerializer.new with isArrayElement := se.isArrayElement } + body)
      | .describedList =>
          let (front, body) := fieldsLength fields se
          (front, v.wireLength .describedList + body)
      | .describedMap =>
          let (front, body) := fieldsLength fields se
          (front, SizeSerializer.describedMap.sizedLength (utf8Bytes key).length + v.wireLength .describedMap + body)
      | .describedBasic =>
          let (front, body) := fieldsLength fields (v.flagsAfter se)
          (v.wireLength se + front, body)

end

mutual

/-- The bytes in front of the fields make no difference to any described list or map in the value. -/
def frontsFit : Ser → SizeSerializer → Bool
  | .some v, se => v.frontsFit se
  | .newtypeStruct name v, se => v.frontsFit (se.enterNewtype name)
  | .newtypeVariant .descriptor _ v, se => v.frontsFit se
  | .newtypeVariant _ _ v, _ => v.frontsFit .new
  | .seq _ vs, se => elementsFit se.seqType 0 vs
  | .tuple vs, _ | .variant _ vs, _ => elementsFit Option.none 0 vs
  | .tupleStruct name vs, se =>
      let role : Bool := name = .describedBasic ∨ name = .describedList
      let (front, body) := tupleFieldsLength role vs (se.enterTupleStruct name)
      tupleFieldsFit role vs (se.enterTupleStruct name) &&
        frontFits (tupleFlagsAfter role vs (se.enterTupleStruct name)).structEncoding front body
  | .map _ entries, _ => entriesFit entries
  | .struct name fields, se =>
      let (front, body) := fieldsLength fields (se.enterStruct name)
      fieldsFit fields (se.enterStruct name) &&
        frontFits (fieldsFlagsAfter fields (se.enterStruct name)).structEncoding front body
  | _, _ => true

def elementsFit (seqType : Option SequenceType) (num : Nat) : List Ser → Bool
  | [] => true
  | v :: vs =>
      v.frontsFit { SizeSerializer.new with isArrayElement := elementMode seqType num } &&
        elementsFit seqType (num + 1) vs

def entriesFit : List (Ser × Ser) → Bool
  | [] => true
  | (key, value) :: entries =>
      key.frontsFit .new && value.frontsFit (key.flagsAfter .new) && entriesFit entries

def tupleFieldsFit (role : Bool) : List Ser → SizeSerializer → Bool
  | [], _ => true
  | v :: vs, se =>
      if role then v.frontsFit se && tupleFieldsFit false vs (v.flagsAfter se)
      else v.frontsFit se.tupleStructField && tupleFieldsFit false vs se

def fieldsFit : List (FieldKey × Ser) → SizeSerializer → Bool
  | [], _ => true
  | (.descriptor, v) :: fields, se => v.frontsFit se && fieldsFit fields (v.flagsAfter se)
  | (.name _, v) :: fields, se =>
      match se.structEncoding with
      | .none =>
          v.frontsFit { SizeSerializer.new with isArrayElement := se.isArrayElement } &&
            fieldsFit fields se
      | .describedList => v.frontsFit .describedList && fieldsFit fields se
      | .describedMap => v.frontsFit .describedMap && fieldsFit fields se
      | .describedBasic => v.frontsFit se && fieldsFit fields (v.flagsAfter se)

end

/-! ## Leaves -/

/-- The serializer wrote as many bytes as were counted, and is left with the flags. -/
def Grew (writer : Bytes) (flags : SizeSerializer) (counted : Nat × SizeSerializer)
    (se : Serializer) : Prop :=
  se.toSizeSerializer = flags ∧ se.writer.length = writer.length + counted.1

/-- Started with `sz`, the size serializer counts what the serializer, started with `se`, writes; or
both fail. -/
def Measured (v : Ser) (se sz : SizeSerializer) : Prop :=
  ∀ writer, Except.Alike (Grew writer (v.flagsAfter se)) (v.size sz) (v.serialize ⟨se, writer⟩)

section Leaves

attribute [local simp] flagsAfter flagsAlike wireLength frontsFit Ser.size Ser.serialize

variable {se sz : SizeSerializer}

theorem measured_of_writeAll {v : Ser} {n : Nat} {bytes : Bytes} {sz' : SizeSerializer}
    (hsize : v.size sz = .ok (n, sz')) (hflags : v.flagsAfter se = se)
    (hserialize : ∀ writer, v.serialize ⟨se, writer⟩ = .ok ⟨se, writer ++ bytes⟩)
    (hlength : bytes.length = n) : v.Measured se sz := by
  intro writer
  rw [hsize, hserialize, hflags]
  exact .ok ⟨rfl, by rw [List.length_append, hlength]⟩

/-- What `writeFixed` writes. -/
def fixedBytes (se : SizeSerializer) (code : EncodingCodes) (bytes : Bytes) : Bytes :=
  if se.isArrayElement.coded then code.toU8 :: bytes else bytes

theorem writeFixed_eq (writer : Bytes) (code : EncodingCodes) (bytes : Bytes) :
    (Serializer.mk se writer).writeFixed code bytes =
      ⟨se, writer ++ fixedBytes se code bytes⟩ := by
  obtain ⟨nonNativeType, seqType, structEncodings, isArrayElement⟩ := se
  cases isArrayElement <;> rfl

theorem length_fixedBytes (h : se.isArrayElement.coded = sz.isArrayElement.coded)
    (code : EncodingCodes) (bytes : Bytes) :
    (fixedBytes se code bytes).length = sz.fixedSize bytes.length := by
  rw [fixedBytes, h, SizeSerializer.fixedSize]
  cases sz.isArrayElement <;> simp [IsArrayElement.coded] <;> omega

theorem measured_fixed {v : Ser} (code : EncodingCodes) (bytes : Bytes)
    (hsize : v.size sz = .ok (sz.fixedSize bytes.length, sz)) (hflags : v.flagsAfter se = se)
    (hserialize : ∀ se : Serializer, v.serialize se = .ok (se.writeFixed code bytes))
    (h : se.isArrayElement.coded = sz.isArrayElement.coded) : v.Measured se sz := by
  apply measured_of_writeAll hsize hflags (fun writer => ?_) (length_fixedBytes h code bytes)
  rw [hserialize, writeFixed_eq]

theorem measured_bool (v : Bool) (h : se.isArrayElement = sz.isArrayElement) :
    (Ser.bool v).Measured se sz := by
  intro writer
  simp only [Ser.size, Ser.serialize, SizeSerializer.serializeBool, Serializer.serializeBool, h]
  cases sz.isArrayElement <;> exact .ok ⟨rfl, by simp [Serializer.writeAll]⟩

theorem measured_i32 (v : Int32) (h : se.isArrayElement = sz.isArrayElement) :
    (Ser.i32 v).Measured se sz := by
  intro writer
  simp only [Ser.size, Ser.serialize, SizeSerializer.serializeI32, Serializer.serializeI32, h]
  cases sz.isArrayElement with
  | false =>
      simp only
      split_ifs <;> exact .ok ⟨rfl, by simp [Serializer.writeAll]⟩
  | firstElement => exact .ok ⟨rfl, by simp [Serializer.writeAll]⟩
  | otherElement => exact .ok ⟨rfl, by simp [Serializer.writeAll]⟩

theorem grew_serializeU32 (v : UInt32) (h : se.isArrayElement = sz.isArrayElement) (writer : Bytes) :
    Grew writer se (sz.serializeU32 v, sz) ((Serializer.mk se writer).serializeU32 v) := by
  simp only [SizeSerializer.serializeU32, Serializer.serializeU32, h]
  cases sz.isArrayElement with
  | false =>
      simp only
      split_ifs <;> exact ⟨rfl, by simp [Serializer.writeAll]⟩
  | firstElement => exact ⟨rfl, by simp [Serializer.writeAll]⟩
  | otherElement => exact ⟨rfl, by simp [Serializer.writeAll]⟩

theorem measured_u64 (v : UInt64) (h : se.isArrayElement = sz.isArrayElement) :
    (Ser.u64 v).Measured se sz := by
  intro writer
  simp only [Ser.size, Ser.serialize, SizeSerializer.serializeU64, Serializer.serializeU64, h]
  cases sz.isArrayElement with
  | false =>
      simp only
      split_ifs <;> exact .ok ⟨rfl, by simp [Serializer.writeAll]⟩
  | firstElement => exact .ok ⟨rfl, by simp [Serializer.writeAll]⟩
  | otherElement => exact .ok ⟨rfl, by simp [Serializer.writeAll]⟩

theorem alike_serializeI64 (v : Int64) (h : se.isArrayElement = sz.isArrayElement)
    (hnative : se.nonNativeType = sz.nonNativeType) (writer : Bytes) :
    Except.Alike (Grew writer se) (do return (← sz.serializeI64 v, sz))
      ((Serializer.mk se writer).serializeI64 v) := by
  simp only [SizeSerializer.serializeI64, Serializer.serializeI64, hnative, h]
  cases sz.nonNativeType with
  | none =>
      cases sz.isArrayElement with
      | false =>
          simp only
          split_ifs <;> exact .ok ⟨rfl, by simp [Serializer.writeAll]⟩
      | firstElement => exact .ok ⟨rfl, by simp [Serializer.writeAll]⟩
      | otherElement => exact .ok ⟨rfl, by simp [Serializer.writeAll]⟩
  | some nonNativeType =>
      cases nonNativeType with
      | timestamp =>
          have hlength := length_fixedBytes (congrArg IsArrayElement.coded h) .timestamp
            (BigEndian.encode 8 v.toUInt64.toNat)
          simp only [writeFixed_eq]
          exact .ok ⟨rfl, by simp [hlength]⟩
      | _ => exact .error _ _

/-- The header of a string, a symbol or a binary is counted with its bytes. -/
theorem alike_writeVariableHeader (code8 code32 : EncodingCodes) (l : Nat) (writer : Bytes) :
    Except.Alike (fun n header => header.toSizeSerializer = se ∧
      header.writer.length + l = writer.length + n) (SizeSerializer.variableSize l)
      ((Serializer.mk se writer).writeVariableHeader code8 code32 l) := by
  simp only [SizeSerializer.variableSize, Serializer.writeVariableHeader]
  split_ifs
  · exact .ok ⟨rfl, by simp [Serializer.writeAll]; omega⟩
  · exact .ok ⟨rfl, by simp [Serializer.writeAll]; omega⟩
  · exact .error _ _

theorem alike_serializeBytes (v : Bytes) (h : se.isArrayElement = sz.isArrayElement)
    (hnative : se.nonNativeType = sz.nonNativeType) (writer : Bytes) :
    Except.Alike (Grew writer ((Ser.bytes v).flagsAfter se)) (do return (← sz.serializeBytes v, sz))
      ((Serializer.mk se writer).serializeBytes v) := by
  obtain ⟨nonNativeType, seqType, structEncodings, isArrayElement⟩ := se
  obtain ⟨nonNativeType', seqType', structEncodings', isArrayElement'⟩ := sz
  obtain rfl : isArrayElement = isArrayElement' := h
  obtain rfl : nonNativeType = nonNativeType' := hnative
  have hfixed (code : EncodingCodes) :
      (fixedBytes ⟨nonNativeType, seqType, structEncodings, isArrayElement⟩ code v).length =
        SizeSerializer.fixedSize ⟨nonNativeType, seqType', structEncodings', isArrayElement⟩
          v.length := length_fixedBytes rfl code v
  simp only [SizeSerializer.serializeBytes, Serializer.serializeBytes, flagsAfter, writeFixed_eq]
  cases nonNativeType with
  | none =>
      cases isArrayElement with
      | false =>
          refine (alike_writeVariableHeader .vbin8 .vbin32 v.length writer).bind fun n header h => ?_
          exact .ok ⟨h.1, by simpa [Serializer.writeAll] using h.2⟩
      | firstElement => exact .ok ⟨rfl, by simp [Serializer.writeAll]; omega⟩
      | otherElement => exact .ok ⟨rfl, by simp [Serializer.writeAll]⟩
  | some nonNativeType =>
      cases nonNativeType with
      | dec32 | dec64 | dec128 | uuid =>
          exact .ok ⟨rfl, by simp [Serializer.resetNonNativeType, hfixed]⟩
      | lazyValue => exact .ok ⟨rfl, by simp [Serializer.writeAll]⟩
      | _ => exact .error _ _

theorem measured_str (v : String) (h : se.isArrayElement = sz.isArrayElement)
    (hnative : se.nonNativeType = sz.nonNativeType) : (Ser.str v).Measured se sz := by
  intro writer
  obtain ⟨nonNativeType, seqType, structEncodings, isArrayElement⟩ := se
  obtain ⟨nonNativeType', seqType', structEncodings', isArrayElement'⟩ := sz
  obtain rfl : isArrayElement = isArrayElement' := h
  obtain rfl : nonNativeType = nonNativeType' := hnative
  simp only [Ser.size, Ser.serialize, SizeSerializer.serializeStr, Serializer.serializeStr, flagsAfter]
  cases isArrayElement with
  | false =>
      cases nonNativeType with
      | none =>
          refine (alike_writeVariableHeader .str8 .str32 _ writer).bind fun n header h => ?_
          exact .ok ⟨by simpa [Serializer.writeAll] using h.1,
            by simpa [Serializer.writeAll] using h.2⟩
      | some nonNativeType =>
          cases nonNativeType with
          | symbol | symbolRef =>
              simp only
              refine (alike_writeVariableHeader .sym8 .sym32 _ writer).bind fun n header h => ?_
              exact .ok ⟨by simp [Serializer.writeAll, Serializer.resetNonNativeType, h.1],
                by simpa [Serializer.writeAll, Serializer.resetNonNativeType] using h.2⟩
          | _ => exact .error _ _
  | firstElement =>
      cases nonNativeType with
      | none => exact .ok ⟨rfl, by simp [Serializer.writeAll]; omega⟩
      | some nonNativeType =>
          cases nonNativeType with
          | symbol | symbolRef => exact .ok ⟨rfl, by simp [Serializer.writeAll]; omega⟩
          | _ => exact .error _ _
  | otherElement =>
      cases nonNativeType with
      | none => exact .ok ⟨rfl, by simp [Serializer.writeAll]⟩
      | some nonNativeType =>
          cases nonNativeType with
          | symbol | symbolRef => exact .ok ⟨rfl, by simp [Serializer.writeAll]⟩
          | _ => exact .error _ _

theorem measured_leaf {v : Ser} (hleaf : v.isLeaf) (halike : v.flagsAlike se sz) :
    v.Measured se sz := by
  cases v with
  | some | newtypeStruct | newtypeVariant | seq | tuple | tupleStruct | map | struct | variant =>
      simp [isLeaf] at hleaf
  | bool v =>
      simp only [flagsAlike, beq_iff_eq] at halike
      exact measured_bool v halike
  | i32 v =>
      simp only [flagsAlike, beq_iff_eq] at halike
      exact measured_i32 v halike
  | u32 v | unitVariant v =>
      simp only [flagsAlike, beq_iff_eq] at halike
      intro writer
      exact .ok (grew_serializeU32 v halike writer)
  | u64 v =>
      simp only [flagsAlike, beq_iff_eq] at halike
      exact measured_u64 v halike
  | i64 v =>
      simp only [flagsAlike, Bool.and_eq_true, beq_iff_eq] at halike
      intro writer
      exact alike_serializeI64 v halike.1 halike.2 writer
  | str v =>
      simp only [flagsAlike, Bool.and_eq_true, beq_iff_eq] at halike
      exact measured_str v halike.1 halike.2
  | bytes v =>
      simp only [flagsAlike, Bool.and_eq_true, beq_iff_eq] at halike
      intro writer
      exact alike_serializeBytes v halike.1 halike.2 writer
  | none | unit =>
      intro writer
      exact .ok ⟨rfl, by simp [Serializer.serializeUnit, Serializer.writeAll]⟩
  | i8 v | u8 v | i16 v | u16 v | f32 v | f64 v | char v =>
      simp only [flagsAlike, beq_iff_eq] at halike
      exact measured_fixed _ _ (by simp [Ser.size]) rfl (fun se => rfl) halike

/-- What is counted of a leaf is its length. -/
theorem size_leaf {v : Ser} (hleaf : v.isLeaf) (halike : v.flagsAlike se sz) {n : Nat}
    {r : SizeSerializer} (hsize : v.size sz = .ok (n, r)) : n = v.wireLength se := by
  obtain ⟨nonNativeType, seqType, structEncodings, isArrayElement⟩ := se
  obtain ⟨nonNativeType', seqType', structEncodings', isArrayElement'⟩ := sz
  have hvariable {l : Nat} (h : SizeSerializer.variableSize l = .ok n) :
      n = SizeSerializer.sizedLength ⟨nonNativeType, seqType, structEncodings, .false⟩ l := by
    simp only [SizeSerializer.variableSize] at h
    split_ifs at h with h8 h32
    · cases h
      simp [SizeSerializer.sizedLength, h8]
    · cases h
      simp [SizeSerializer.sizedLength, h8]
  cases v with
  | some | newtypeStruct | newtypeVariant | seq | tuple | tupleStruct | map | struct | variant =>
      simp [isLeaf] at hleaf
  | bool | i32 | u32 | u64 | unitVariant =>
      simp only [flagsAlike, beq_iff_eq] at halike
      subst halike
      cases hsize
      cases isArrayElement <;> rfl
  | i64 v =>
      simp only [flagsAlike, Bool.and_eq_true, beq_iff_eq] at halike
      obtain ⟨rfl, rfl⟩ := halike
      simp only [size, SizeSerializer.serializeI64] at hsize
      cases nonNativeType with
      | none => cases isArrayElement <;> cases hsize <;> rfl
      | some nonNativeType =>
          cases nonNativeType <;> cases hsize
          rfl
  | str v =>
      simp only [flagsAlike, Bool.and_eq_true, beq_iff_eq] at halike
      obtain ⟨rfl, rfl⟩ := halike
      simp only [size, SizeSerializer.serializeStr] at hsize
      cases isArrayElement with
      | false =>
          cases nonNativeType with
          | none =>
              obtain ⟨len, hlen, hn⟩ := Except.bind_eq_ok.mp hsize
              cases hn
              exact hvariable hlen
          | some nonNativeType =>
              cases nonNativeType with
              | symbol | symbolRef =>
                  obtain ⟨len, hlen, hn⟩ := Except.bind_eq_ok.mp hsize
                  cases hn
                  exact hvariable hlen
              | _ => cases hsize
      | firstElement | otherElement =>
          cases nonNativeType with
          | none =>
              cases hsize
              rfl
          | some nonNativeType => cases nonNativeType <;> cases hsize <;> rfl
  | bytes v =>
      simp only [flagsAlike, Bool.and_eq_true, beq_iff_eq] at halike
      obtain ⟨rfl, rfl⟩ := halike
      simp only [size, SizeSerializer.serializeBytes] at hsize
      cases nonNativeType with
      | none =>
          cases isArrayElement with
          | false =>
              obtain ⟨len, hlen, hn⟩ := Except.bind_eq_ok.mp hsize
              cases hn
              exact hvariable hlen
          | firstElement | otherElement =>
              cases hsize
              rfl
      | some nonNativeType => cases nonNativeType <;> cases hsize <;> rfl
  | none | unit =>
      cases hsize
      rfl
  | i8 v | u8 v | i16 v | u16 v | f32 v | f64 v | char v =>
      simp only [flagsAlike, beq_iff_eq] at halike
      cases hsize
      cases isArrayElement <;> cases isArrayElement' <;> first | rfl | cases halike

end Leaves

/-! ## Compounds -/

section Compounds

variable {len len' : Nat} {mode : IsArrayElement}

theorem compoundSize_eq : compoundSize len mode =
    if len ≤ u32MaxMinus4 then .ok (compoundLength len mode) else .error (.err .tooLong) := by
  by_cases h8 : len ≤ u8MaxMinus1
  · have hfits : len ≤ u32MaxMinus4 := by
      simp only [u8MaxMinus1, u32MaxMinus4] at h8 ⊢
      omega
    cases mode <;> simp [compoundSize, compoundLength, IsArrayElement.coded, h8, hfits]
  · cases mode <;> simp [compoundSize, compoundLength, IsArrayElement.coded, h8]

theorem listSize_eq : listSize len mode =
    if len ≤ u32MaxMinus4 then .ok (listLength len mode) else .error (.err .tooLong) := by
  by_cases hzero : len = 0
  · subst hzero
    rfl
  · simp only [listSize, listLength, hzero, if_false, compoundSize_eq]

theorem le_compoundLength : len ≤ compoundLength len mode := by
  simp only [compoundLength]
  omega

theorem le_listLength : len ≤ listLength len mode := by
  simp only [listLength]
  split_ifs
  · omega
  · exact le_compoundLength

theorem compoundLength_lt (h : len < len') : compoundLength len mode < compoundLength len' mode := by
  simp only [compoundLength]
  split_ifs <;> omega

theorem listLength_lt (h : len < len') : listLength len mode < listLength len' mode := by
  by_cases hzero : len = 0
  · have hlen' : ¬len' = 0 := by omega
    simp only [listLength, hzero, hlen', if_true, if_false, compoundLength]
    split_ifs <;> omega
  · have hlen' : ¬len' = 0 := by omega
    simp only [listLength, hzero, hlen', if_false]
    exact compoundLength_lt h

/-- A compound value is written around its body unless the body is too long. -/
theorem writeCompound_eq (se : SizeSerializer) (code8 code32 : EncodingCodes) (num : Nat)
    (buf writer : Bytes) :
    (Serializer.mk se writer).writeCompound code8 code32 num buf mode =
        .error (.err .tooLong) ∧ u32MaxMinus4 < buf.length ∨
      buf.length ≤ u32MaxMinus4 ∧ ∃ bytes,
        (Serializer.mk se writer).writeCompound code8 code32 num buf mode = .ok ⟨se, writer ++ bytes⟩ ∧
          bytes.length = compoundLength buf.length mode := by
  simp only [Serializer.writeCompound]
  by_cases h8 : buf.length ≤ u8MaxMinus1
  · rw [if_pos h8]
    refine .inr ⟨by simp only [u8MaxMinus1, u32MaxMinus4] at h8 ⊢; omega, _, rfl, ?_⟩
    cases mode <;> simp [compoundLength, h8, IsArrayElement.coded] <;> omega
  · rw [if_neg h8]
    by_cases h32 : buf.length ≤ u32MaxMinus4
    · rw [if_pos h32]
      refine .inr ⟨h32, _, rfl, ?_⟩
      cases mode <;> simp [compoundLength, h8, IsArrayElement.coded] <;> omega
    · rw [if_neg h32]
      exact .inl ⟨rfl, Nat.lt_of_not_le h32⟩

end Compounds

end Ser

end Fe2o3Amqp
