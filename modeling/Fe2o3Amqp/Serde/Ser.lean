import Fe2o3Amqp.Serde.SizeSer

/-!
# The serializer

The interpreter of the data model that writes the AMQP 1.0 wire format.  Compound values are
buffered and written behind their header; the parts of a compound value are written by serializers
of their own, except the descriptor of a described value, the value of a basic described value and
the two halves of a map entry.
-/

namespace Fe2o3Amqp

/-- `Serializer<Vec<u8>>`: the writer and the flags it shares with the size serializer, whose
`is_array_elem` is `isArrayElement` here. -/
structure Serializer extends SizeSerializer where
  writer : Bytes
deriving DecidableEq, Repr

namespace Serializer

def new (writer : Bytes) : Serializer := { SizeSerializer.new with writer }

def describedList (writer : Bytes) : Serializer := { SizeSerializer.describedList with writer }

def describedMap (writer : Bytes) : Serializer := { SizeSerializer.describedMap with writer }

/-- `write_all` on the writer. -/
def writeAll (se : Serializer) (bytes : Bytes) : Serializer :=
  { se with writer := se.writer ++ bytes }

def resetNonNativeType (se : Serializer) : Serializer := { se with nonNativeType := none }

def popEncoding (se : Serializer) : Serializer :=
  { se with toSizeSerializer := se.toSizeSerializer.popEncoding }

/-- Writes a format code and the bytes after it; the elements of an array after the first leave
the code out. -/
def writeFixed (se : Serializer) (code : EncodingCodes) (bytes : Bytes) : Serializer :=
  match se.isArrayElement with
  | .false | .firstElement => se.writeAll (code.toU8 :: bytes)
  | .otherElement => se.writeAll bytes

def serializeBool (se : Serializer) (v : Bool) : Serializer :=
  match se.isArrayElement with
  | .false =>
      se.writeAll [if v then EncodingCodes.booleanTrue.toU8 else EncodingCodes.booleanFalse.toU8]
  | .firstElement => se.writeAll [EncodingCodes.boolean.toU8, if v then 1 else 0]
  | .otherElement => se.writeAll [if v then 1 else 0]

def serializeI8 (se : Serializer) (v : Int8) : Serializer := se.writeFixed .byte [v.toUInt8]

def serializeI16 (se : Serializer) (v : Int16) : Serializer :=
  se.writeFixed .short (BigEndian.encode 2 v.toUInt16.toNat)

def serializeI32 (se : Serializer) (v : Int32) : Serializer :=
  let buf := BigEndian.encode 4 v.toUInt32.toNat
  match se.isArrayElement with
  | .false =>
      if -128 ≤ v.toInt ∧ v.toInt ≤ 127 then
        se.writeAll [EncodingCodes.smallInt.toU8, v.toInt8.toUInt8]
      else se.writeAll (EncodingCodes.int.toU8 :: buf)
  | .firstElement => se.writeAll (EncodingCodes.int.toU8 :: buf)
  | .otherElement => se.writeAll buf

def serializeI64 (se : Serializer) (v : Int64) : Except Failure Serializer :=
  let buf := BigEndian.encode 8 v.toUInt64.toNat
  match se.nonNativeType with
  | none =>
      match se.isArrayElement with
      | .false =>
          if -128 ≤ v.toInt ∧ v.toInt ≤ 127 then
            .ok (se.writeAll [EncodingCodes.smallLong.toU8, v.toInt8.toUInt8])
          else .ok (se.writeAll (EncodingCodes.long.toU8 :: buf))
      | .firstElement => .ok (se.writeAll (EncodingCodes.long.toU8 :: buf))
      | .otherElement => .ok (se.writeAll buf)
  | some .timestamp => .ok (se.writeFixed .timestamp buf)
  | _ => .error .panic

def serializeU8 (se : Serializer) (v : UInt8) : Serializer := se.writeFixed .ubyte [v]

def serializeU16 (se : Serializer) (v : UInt16) : Serializer :=
  se.writeFixed .ushort (BigEndian.encode 2 v.toNat)

def serializeU32 (se : Serializer) (v : UInt32) : Serializer :=
  let buf := BigEndian.encode 4 v.toNat
  match se.isArrayElement with
  | .false =>
      if v = 0 then se.writeAll [EncodingCodes.uint0.toU8]
      else if v.toNat ≤ 255 then se.writeAll [EncodingCodes.smallUint.toU8, v.toUInt8]
      else se.writeAll (EncodingCodes.uint.toU8 :: buf)
  | .firstElement => se.writeAll (EncodingCodes.uint.toU8 :: buf)
  | .otherElement => se.writeAll buf

def serializeU64 (se : Serializer) (v : UInt64) : Serializer :=
  let buf := BigEndian.encode 8 v.toNat
  match se.isArrayElement with
  | .false =>
      if v = 0 then se.writeAll [EncodingCodes.ulong0.toU8]
      else if v.toNat ≤ 255 then se.writeAll [EncodingCodes.smallUlong.toU8, v.toUInt8]
      else se.writeAll (EncodingCodes.ulong.toU8 :: buf)
  | .firstElement => se.writeAll (EncodingCodes.ulong.toU8 :: buf)
  | .otherElement => se.writeAll buf

def serializeF32 (se : Serializer) (bits : UInt32) : Serializer :=
  se.writeFixed .float (BigEndian.encode 4 bits.toNat)

def serializeF64 (se : Serializer) (bits : UInt64) : Serializer :=
  se.writeFixed .double (BigEndian.encode 8 bits.toNat)

def serializeChar (se : Serializer) (v : Char) : Serializer :=
  se.writeFixed .char (BigEndian.encode 4 v.val.toNat)

/-- Writes the code and the width of a string, a symbol or a binary of `l` bytes that is no
element of an array. -/
def writeVariableHeader (se : Serializer) (code8 code32 : EncodingCodes) (l : Nat) :
    Except Failure Serializer :=
  if l ≤ u8MaxMinus1 then .ok (se.writeAll [code8.toU8, UInt8.ofNat l])
  else if l ≤ u32MaxMinus4 then .ok (se.writeAll (code32.toU8 :: BigEndian.encode 4 l))
  else .error (.err .tooLong)

def serializeStr (se : Serializer) (v : String) : Except Failure Serializer := do
  let l := (utf8Bytes v).length
  -- the elements of an array announce the number of characters, not of bytes
  let chars := v.length
  let se ← match se.isArrayElement, se.nonNativeType with
    | .false, some .symbol | .false, some .symbolRef => do
        let se ← se.writeVariableHeader .sym8 .sym32 l
        pure se.resetNonNativeType
    | .false, none => se.writeVariableHeader .str8 .str32 l
    | .firstElement, some .symbol | .firstElement, some .symbolRef =>
        .ok (se.writeAll (EncodingCodes.sym32.toU8 :: BigEndian.encode 4 l))
    | .firstElement, none =>
        .ok (se.writeAll (EncodingCodes.str32.toU8 :: BigEndian.encode 4 chars))
    | .otherElement, some .symbol | .otherElement, some .symbolRef =>
        .ok (se.writeAll (BigEndian.encode 4 l))
    | .otherElement, none => .ok (se.writeAll (BigEndian.encode 4 chars))
    | _, _ => .error .panic
  return se.writeAll (utf8Bytes v)

def serializeBytes (se : Serializer) (v : Bytes) : Except Failure Serializer := do
  let l := v.length
  match se.nonNativeType with
  | none => do
      let se ← match se.isArrayElement with
        | .false => se.writeVariableHeader .vbin8 .vbin32 l
        | .firstElement =>
            .ok (se.writeAll (EncodingCodes.vbin32.toU8 :: BigEndian.encode 4 l))
        | .otherElement => .ok (se.writeAll (BigEndian.encode 4 l))
      return se.writeAll v
  | some .dec32 => .ok (se.writeFixed .decimal32 v).resetNonNativeType
  | some .dec64 => .ok (se.writeFixed .decimal64 v).resetNonNativeType
  | some .dec128 => .ok (se.writeFixed .decimal128 v).resetNonNativeType
  | some .uuid => .ok (se.writeFixed .uuid v).resetNonNativeType
  | some .lazyValue => .ok (se.writeAll v)
  | some .timestamp | some .symbol | some .symbolRef => .error .panic

def serializeUnit (se : Serializer) : Serializer := se.writeAll [EncodingCodes.null.toU8]

/-- Writes a compound value with an 8-bit or a 32-bit header around the buffered body.  The size
field counts the bytes of `num`. -/
def writeCompound (se : Serializer) (code8 code32 : EncodingCodes) (num : Nat) (buf : Bytes)
    (extIsArrayElem : IsArrayElement) : Except Failure Serializer :=
  let len := buf.length
  let code (code : EncodingCodes) : Bytes :=
    match extIsArrayElem with
    | .false | .firstElement => [code.toU8]
    | .otherElement => []
  if len ≤ u8MaxMinus1 then
    .ok (se.writeAll (code code8 ++ [UInt8.ofNat (len + 1), UInt8.ofNat num] ++ buf))
  else if len ≤ u32MaxMinus4 then
    .ok (se.writeAll
      (code code32 ++ BigEndian.encode 4 (len + 4) ++ BigEndian.encode 4 num ++ buf))
  else .error (.err .tooLong)

/-- `write_list`: an empty list is its format code, also inside an array. -/
def writeList (se : Serializer) (num : Nat) (buf : Bytes) (extIsArrayElem : IsArrayElement) :
    Except Failure Serializer :=
  if buf.length = 0 then .ok (se.writeAll [EncodingCodes.list0.toU8])
  else se.writeCompound .list8 .list32 num buf extIsArrayElem

def writeArray (se : Serializer) (num : Nat) (buf : Bytes) (extIsArrayElem : IsArrayElement) :
    Except Failure Serializer :=
  se.writeCompound .array8 .array32 num buf extIsArrayElem

def writeMap (se : Serializer) (num : Nat) (buf : Bytes) (extIsArrayElem : IsArrayElement) :
    Except Failure Serializer :=
  se.writeCompound .map8 .map32 num buf extIsArrayElem

/-- `SeqSerializer::end`. -/
def endSeq (se : Serializer) (num : Nat) (buf : Bytes) : Except Failure Serializer :=
  match se.seqType with
  | none | some .list => se.writeList num buf se.isArrayElement
  | some .array => se.writeArray num buf se.isArrayElement
  | some .transparentVec => .ok (se.writeAll buf)

/-- `TupleStructSerializer::end`. -/
def endTupleStruct (se : Serializer) (count : Nat) (buf : Bytes) : Except Failure Serializer :=
  match se.structEncoding with
  | .none => se.writeList count buf .false
  | .describedBasic => .ok (se.popEncoding.writeAll buf)
  | .describedList => se.popEncoding.writeList count buf .false
  | .describedMap => .error .panic

/-- `StructSerializer::end`. -/
def endStruct (se : Serializer) (count : Nat) (buf : Bytes) : Except Failure Serializer :=
  match se.structEncoding with
  | .none => se.writeList count buf se.isArrayElement
  | .describedBasic => .ok se.popEncoding
  | .describedList => se.popEncoding.writeList count buf se.isArrayElement
  | .describedMap => se.popEncoding.writeMap (count * 2) buf se.isArrayElement

end Serializer

/-- The buffer of a sequence under construction. -/
inductive SeqSerializerState where
  | init (len : Option Nat)
  | buffer (buf : Bytes)

namespace SeqSerializerState

/-- `get_buffer_mut_or_alloc`: with a length hint the first element is measured. -/
def getBufferMutOrAlloc (state : SeqSerializerState) (element : Ser) : Except Failure Bytes :=
  match state with
  | .init (some _) => do
      let _ ← serializedSize element
      return []
  | .init none => .ok []
  | .buffer buf => .ok buf

/-- The buffer that `end` writes out. -/
def intoBuffer : SeqSerializerState → Bytes
  | .init _ => []
  | .buffer buf => buf

end SeqSerializerState

/-- The buffer of a map under construction. -/
inductive MapSerializerState where
  | init (len : Option Nat)
  | keyInit (len : Option Nat) (buf : Bytes)
  | buffer (buf : Bytes)

namespace MapSerializerState

/-- `get_buffer_or_alloc_for_entry`: with a length hint the first entry is measured. -/
def getBufferOrAllocForEntry (state : MapSerializerState) (key value : Ser) :
    Except Failure Bytes :=
  match state with
  | .init (some _) => do
      let _ ← serializedSize key
      let _ ← serializedSize value
      return []
  | .init none => .ok []
  | .keyInit (some len) buf => do
      let keyLen ← serializedSize key
      let valueLen ← serializedSize value
      if len * (keyLen + valueLen) < buf.length then .error .panic else .ok buf
  | .keyInit none buf => .ok buf
  | .buffer buf => .ok buf

def intoBuffer : MapSerializerState → Bytes
  | .init _ => []
  | .keyInit _ buf => buf
  | .buffer buf => buf

end MapSerializerState

mutual

/-- Serializes a value; the parts of compound values are serialized in the order of the calls. -/
def Ser.serialize : Ser → Serializer → Except Failure Serializer
  | .bool v, se => .ok (se.serializeBool v)
  | .i8 v, se => .ok (se.serializeI8 v)
  | .i16 v, se => .ok (se.serializeI16 v)
  | .i32 v, se => .ok (se.serializeI32 v)
  | .i64 v, se => se.serializeI64 v
  | .u8 v, se => .ok (se.serializeU8 v)
  | .u16 v, se => .ok (se.serializeU16 v)
  | .u32 v, se => .ok (se.serializeU32 v)
  | .u64 v, se => .ok (se.serializeU64 v)
  | .f32 bits, se => .ok (se.serializeF32 bits)
  | .f64 bits, se => .ok (se.serializeF64 bits)
  | .char v, se => .ok (se.serializeChar v)
  | .str v, se => se.serializeStr v
  | .bytes v, se => se.serializeBytes v
  | .none, se | .unit, se => .ok se.serializeUnit
  | .some v, se => v.serialize se
  | .unitVariant index, se => .ok (se.serializeU32 index)
  | .newtypeStruct name v, se =>
      v.serialize { se with toSizeSerializer := se.enterNewtype name }
  | .newtypeVariant .descriptor _ v, se =>
      v.serialize (se.writeAll [EncodingCodes.describedType.toU8])
  | .newtypeVariant _ index v, se => do
      let buf ← (MapSerializerState.init (Option.some 1)).getBufferOrAllocForEntry (.u32 index) v
      let inner ← v.serialize ((Serializer.new buf).serializeU32 index)
      se.writeMap 2 inner.writer se.isArrayElement
  | .seq len elements, se => do
      let (num, state) ← Ser.serializeElements se.seqType 0 (.init len) elements
      se.endSeq num state.intoBuffer
  | .tuple elements, se => do
      let buf ← Ser.serializeBuffered [] elements
      se.writeList elements.length buf se.isArrayElement
  | .tupleStruct name fields, se => do
      let se : Serializer := { se with toSizeSerializer := se.enterTupleStruct name }
      let (se, count, buf) ← Ser.serializeTupleStructFields se
        (name = .describedBasic ∨ name = .describedList) 0 [] fields
      se.endTupleStruct count buf
  | .map len entries, se => do
      let (num, state) ← Ser.serializeEntries 0 (.init len) entries
      se.writeMap num state.intoBuffer se.isArrayElement
  | .struct name fields, se => do
      let se : Serializer := { se with toSizeSerializer := se.enterStruct name }
      let (se, count, buf) ← Ser.serializeStructFields se 0 [] fields
      se.endStruct count buf
  | .variant index fields, se => do
      let buf ← Ser.serializeBuffered [] fields
      let kv := (Serializer.new []).serializeU32 index
      let kv ← kv.writeList fields.length buf se.isArrayElement
      se.writeMap 2 kv.writer se.isArrayElement

/-- `SeqSerializer::serialize_element` for every element. -/
def Ser.serializeElements (seqType : Option SequenceType) (num : Nat)
    (state : SeqSerializerState) : List Ser → Except Failure (Nat × SeqSerializerState)
  | [] => .ok (num, state)
  | v :: vs => do
      let buf ← state.getBufferMutOrAlloc v
      let inner ← v.serialize
        { Serializer.new buf with isArrayElement := elementMode seqType num }
      Ser.serializeElements seqType (num + 1) (.buffer inner.writer) vs

/-- `TupleSerializer::serialize_element` and `VariantSerializer::serialize_field`. -/
def Ser.serializeBuffered (buf : Bytes) : List Ser → Except Failure Bytes
  | [] => .ok buf
  | v :: vs => do
      let inner ← v.serialize (Serializer.new buf)
      Ser.serializeBuffered inner.writer vs

/-- `MapSerializer::serialize_entry` for every entry: one serializer writes key and value. -/
def Ser.serializeEntries (num : Nat) (state : MapSerializerState) :
    List (Ser × Ser) → Except Failure (Nat × MapSerializerState)
  | [] => .ok (num, state)
  | (key, value) :: entries => do
      let buf ← state.getBufferOrAllocForEntry key value
      let inner ← key.serialize (Serializer.new buf)
      let inner ← value.serialize inner
      Ser.serializeEntries (num + 2) (.buffer inner.writer) entries

/-- `TupleStructSerializer::serialize_field`; `descriptor` is the field role. -/
def Ser.serializeTupleStructFields (se : Serializer) (descriptor : Bool) (count : Nat)
    (buf : Bytes) : List Ser → Except Failure (Serializer × Nat × Bytes)
  | [] => .ok (se, count, buf)
  | v :: vs =>
      if descriptor then do
        let se ← v.serialize se
        Ser.serializeTupleStructFields se false count buf vs
      else
        match se.structEncoding with
        | .none | .describedBasic => do
            let inner ← v.serialize
              { Serializer.new buf with isArrayElement := se.isArrayElement }
            Ser.serializeTupleStructFields se false (count + 1) inner.writer vs
        | .describedList => do
            let inner ← v.serialize (Serializer.describedList buf)
            Ser.serializeTupleStructFields se false (count + 1) inner.writer vs
        | .describedMap => .error .panic

/-- `StructSerializer::serialize_field`. -/
def Ser.serializeStructFields (se : Serializer) (count : Nat) (buf : Bytes) :
    List (FieldKey × Ser) → Except Failure (Serializer × Nat × Bytes)
  | [] => .ok (se, count, buf)
  | (.descriptor, v) :: fields => do
      let se ← v.serialize se
      Ser.serializeStructFields se count buf fields
  | (.name key, v) :: fields =>
      match se.structEncoding with
      | .none => do
          let inner ← v.serialize { Serializer.new buf with isArrayElement := se.isArrayElement }
          Ser.serializeStructFields se (count + 1) inner.writer fields
      | .describedBasic => do
          let se ← v.serialize se
          Ser.serializeStructFields se (count + 1) buf fields
      | .describedList => do
          let inner ← v.serialize (Serializer.describedList buf)
          Ser.serializeStructFields se (count + 1) inner.writer fields
      | .describedMap => do
          let inner ← (Serializer.describedMap buf).serializeStr key
          let inner ← v.serialize inner
          Ser.serializeStructFields se (count + 1) inner.writer fields

end

@[simp] theorem Ser.serialize_some (v : Ser) (se : Serializer) :
    (Ser.some v).serialize se = v.serialize se := by
  simp only [Ser.serialize]

@[simp] theorem Ser.serializeElements_nil (seqType : Option SequenceType) (num : Nat)
    (state : SeqSerializerState) :
    Ser.serializeElements seqType num state [] = .ok (num, state) := by
  simp only [Ser.serializeElements]

@[simp] theorem Ser.serializeEntries_nil (num : Nat) (state : MapSerializerState) :
    Ser.serializeEntries num state [] = .ok (num, state) := by
  simp only [Ser.serializeEntries]

@[simp] theorem Ser.serializeStructFields_nil (se : Serializer) (count : Nat) (buf : Bytes) :
    Ser.serializeStructFields se count buf [] = .ok (se, count, buf) := by
  simp only [Ser.serializeStructFields]

/-- The fields of a described list are buffered, each by a serializer of its own. -/
theorem Ser.serializeStructFields_describedList {se : Serializer}
    (h : se.structEncoding = .describedList) (count : Nat) (buf : Bytes) (key : String) (v : Ser)
    (fields : List (FieldKey × Ser)) :
    Ser.serializeStructFields se count buf ((.name key, v) :: fields) = (do
      let inner ← v.serialize (Serializer.describedList buf)
      Ser.serializeStructFields se (count + 1) inner.writer fields) := by
  simp only [Ser.serializeStructFields, h]

@[simp] theorem Ser.serializeTupleStructFields_nil (se : Serializer) (descriptor : Bool)
    (count : Nat) (buf : Bytes) :
    Ser.serializeTupleStructFields se descriptor count buf [] = .ok (se, count, buf) := by
  simp only [Ser.serializeTupleStructFields]

/-- `to_vec`. -/
def toVec (value : Ser) : Except Failure Bytes := do
  let se ← value.serialize (Serializer.new [])
  return se.writer

end Fe2o3Amqp
