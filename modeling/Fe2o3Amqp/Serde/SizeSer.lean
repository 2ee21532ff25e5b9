import Fe2o3Amqp.Serde.Format

/-!
# The data model and the size serializer

A `Serialize` implementation describes its value to a serializer by one call of the serde data
model and, for compound values, by the calls it makes on the parts.  `Ser` is the tree of these
calls.  The size serializer of `serde_amqp` is its first interpreter.
-/

namespace Fe2o3Amqp

/-- The key of a struct field: the descriptor or a field name. -/
inductive FieldKey where
  | descriptor
  | name (text : String)
deriving DecidableEq, Repr

/-- The calls a value makes on a serializer.  Floats are given by their bit patterns. -/
inductive Ser where
  | bool (v : Bool)
  | i8 (v : Int8)
  | i16 (v : Int16)
  | i32 (v : Int32)
  | i64 (v : Int64)
  | u8 (v : UInt8)
  | u16 (v : UInt16)
  | u32 (v : UInt32)
  | u64 (v : UInt64)
  | f32 (bits : UInt32)
  | f64 (bits : UInt64)
  | char (v : Char)
  | str (v : String)
  | bytes (v : Bytes)
  | none
  | some (v : Ser)
  | unit
  | unitVariant (index : UInt32)
  | newtypeStruct (name : TypeName) (v : Ser)
  | newtypeVariant (name : TypeName) (index : UInt32) (v : Ser)
  | seq (len : Option Nat) (elements : List Ser)
  | tuple (elements : List Ser)
  | tupleStruct (name : TypeName) (fields : List Ser)
  | map (len : Option Nat) (entries : List (Ser × Ser))
  | struct (name : TypeName) (fields : List (FieldKey × Ser))
  | variant (index : UInt32) (fields : List Ser)

instance : Inhabited Ser := ⟨.unit⟩

def u8Max : Nat := 255
def u8MaxMinus1 : Nat := 254
def u32MaxMinus4 : Nat := 4294967291

/-- The flags of `SizeSerializer`, which `Serializer` has as well.  The last pushed struct
encoding is the head of `structEncodings`. -/
structure SizeSerializer where
  nonNativeType : Option NonNativeType
  seqType : Option SequenceType
  structEncodings : List StructEncoding
  isArrayElement : IsArrayElement
deriving DecidableEq, Repr

namespace SizeSerializer

def new : SizeSerializer where
  nonNativeType := none
  seqType := none
  structEncodings := []
  isArrayElement := .false

def describedList : SizeSerializer := { new with structEncodings := [.describedList] }

def describedMap : SizeSerializer := { new with structEncodings := [.describedMap] }

def structEncoding (se : SizeSerializer) : StructEncoding :=
  se.structEncodings.headD .none

def pushEncoding (se : SizeSerializer) (encoding : StructEncoding) : SizeSerializer :=
  { se with structEncodings := encoding :: se.structEncodings }

def popEncoding (se : SizeSerializer) : SizeSerializer :=
  { se with structEncodings := se.structEncodings.tail }

/-- The flag that `serialize_newtype_struct` sets for the name of a newtype. -/
def enterNewtype (se : SizeSerializer) : TypeName → SizeSerializer
  | .symbol => { se with nonNativeType := some .symbol }
  | .symbolRef => { se with nonNativeType := some .symbolRef }
  | .array => { se with seqType := some .array }
  | .decimal32 => { se with nonNativeType := some .dec32 }
  | .decimal64 => { se with nonNativeType := some .dec64 }
  | .decimal128 => { se with nonNativeType := some .dec128 }
  | .timestamp => { se with nonNativeType := some .timestamp }
  | .uuid => { se with nonNativeType := some .uuid }
  | .transparentVec => { se with seqType := some .transparentVec }
  | .lazyValue => { se with nonNativeType := some .lazyValue }
  | _ => se

/-- The encoding that `serialize_tuple_struct` pushes; a described map is no tuple struct. -/
def enterTupleStruct (se : SizeSerializer) : TypeName → SizeSerializer
  | .describedBasic => se.pushEncoding .describedBasic
  | .describedList => se.pushEncoding .describedList
  | _ => se

/-- The encoding that `serialize_struct` pushes. -/
def enterStruct (se : SizeSerializer) : TypeName → SizeSerializer
  | .describedList => se.pushEncoding .describedList
  | .describedMap => se.pushEncoding .describedMap
  | .describedBasic => se.pushEncoding .describedBasic
  | _ => se

/-- The size of a value of fixed width behind its format code, which only the elements of an
array after the first leave out. -/
def fixedSize (se : SizeSerializer) (width : Nat) : Nat :=
  match se.isArrayElement with
  | .false | .firstElement => 1 + width
  | .otherElement => width

def serializeBool (se : SizeSerializer) (_v : Bool) : Nat :=
  match se.isArrayElement with
  | .false => 1
  | .firstElement => 2
  | .otherElement => 1

def serializeI32 (se : SizeSerializer) (v : Int32) : Nat :=
  match se.isArrayElement with
  | .false => if -128 ≤ v.toInt ∧ v.toInt ≤ 127 then 2 else 5
  | .firstElement => 5
  | .otherElement => 4

def serializeI64 (se : SizeSerializer) (v : Int64) : Except Failure Nat :=
  match se.nonNativeType with
  | none =>
      match se.isArrayElement with
      | .false => .ok (if -128 ≤ v.toInt ∧ v.toInt ≤ 127 then 2 else 9)
      | .firstElement => .ok 9
      | .otherElement => .ok 8
  | some .timestamp => .ok (se.fixedSize 8)
  | _ => .error .panic

def serializeU32 (se : SizeSerializer) (v : UInt32) : Nat :=
  match se.isArrayElement with
  | .false => if v = 0 then 1 else if v.toNat ≤ 255 then 2 else 5
  | .firstElement => 5
  | .otherElement => 4

def serializeU64 (se : SizeSerializer) (v : UInt64) : Nat :=
  match se.isArrayElement with
  | .false => if v = 0 then 1 else if v.toNat ≤ 255 then 2 else 9
  | .firstElement => 9
  | .otherElement => 8

/-- The size of a string, a symbol or a binary of `l` bytes with its own format code. -/
def variableSize (l : Nat) : Except Failure Nat :=
  if l ≤ u8MaxMinus1 then .ok (2 + l)
  else if l ≤ u32MaxMinus4 then .ok (5 + l)
  else .error (.err .tooLong)

def serializeStr (se : SizeSerializer) (v : String) : Except Failure (Nat × SizeSerializer) :=
  let l := (utf8Bytes v).length
  match se.isArrayElement, se.nonNativeType with
  | .false, some .symbol | .false, some .symbolRef => do
      return (← variableSize l, { se with nonNativeType := none })
  | .false, none => do
      return (← variableSize l, se)
  | .firstElement, some .symbol | .firstElement, some .symbolRef | .firstElement, none =>
      .ok (5 + l, se)
  | .otherElement, some .symbol | .otherElement, some .symbolRef | .otherElement, none =>
      .ok (4 + l, se)
  | _, _ => .error .panic

def serializeBytes (se : SizeSerializer) (v : Bytes) : Except Failure Nat :=
  let l := v.length
  match se.nonNativeType with
  | none =>
      match se.isArrayElement with
      | .false => variableSize l
      | .firstElement => .ok (5 + l)
      | .otherElement => .ok (4 + l)
  | some .dec32 | some .dec64 | some .dec128 | some .uuid => .ok (se.fixedSize l)
  | some .lazyValue => .ok l
  | some .timestamp | some .symbol | some .symbolRef => .error .panic

end SizeSerializer

/-- The size of a compound value with an 8-bit or a 32-bit header around a body of `len` bytes. -/
def compoundSize (len : Nat) (isArrayElement : IsArrayElement) : Except Failure Nat :=
  if len ≤ u8MaxMinus1 then
    .ok (match isArrayElement with
      | .false | .firstElement => 1 + 2 + len
      | .otherElement => 2 + len)
  else if len ≤ u32MaxMinus4 then
    .ok (match isArrayElement with
      | .false | .firstElement => 1 + 4 + 4 + len
      | .otherElement => 4 + 4 + len)
  else .error (.err .tooLong)

def listSize (len : Nat) (isArrayElement : IsArrayElement) : Except Failure Nat :=
  if len = 0 then .ok 1 else compoundSize len isArrayElement

def arraySize (len : Nat) (isArrayElement : IsArrayElement) : Except Failure Nat :=
  compoundSize len isArrayElement

def mapSize (len : Nat) (isArrayElement : IsArrayElement) : Except Failure Nat :=
  compoundSize len isArrayElement

def transparentVecSize (len : Nat) : Except Failure Nat := .ok len

/-- The mode of element `num` of a sequence. -/
def elementMode (seqType : Option SequenceType) (num : Nat) : IsArrayElement :=
  match seqType with
  | some .array => if num = 0 then .firstElement else .otherElement
  | _ => .false

def seqSize (se : SizeSerializer) (len : Nat) : Except Failure Nat :=
  match se.seqType with
  | none | some .list => listSize len se.isArrayElement
  | some .array => arraySize len se.isArrayElement
  | some .transparentVec => transparentVecSize len

/-- `TupleStructSerializer::end`. -/
def tupleStructSize (se : SizeSerializer) (len : Nat) : Except Failure (Nat × SizeSerializer) :=
  match se.structEncoding with
  | .none => do return (← listSize len se.isArrayElement, se)
  | .describedList => do return (← listSize len se.isArrayElement, se.popEncoding)
  | .describedBasic => .ok (len, se.popEncoding)
  | .describedMap => .error .panic

/-- `StructSerializer::end`. -/
def structSize (se : SizeSerializer) (len : Nat) : Except Failure (Nat × SizeSerializer) :=
  match se.structEncoding with
  | .none => do return (← listSize len se.isArrayElement, se)
  | .describedList => do return (← listSize len se.isArrayElement, se.popEncoding)
  | .describedMap => do return (← mapSize len se.isArrayElement, se.popEncoding)
  | .describedBasic => .ok (len, se.popEncoding)

/-- The serializer of a field of a tuple struct after the descriptor. -/
def tupleStructFieldSizer (se : SizeSerializer) : Except Failure SizeSerializer :=
  match se.structEncoding with
  | .none | .describedList => .ok { SizeSerializer.new with isArrayElement := se.isArrayElement }
  | .describedBasic => .ok .new
  | .describedMap => .error .panic

mutual

/-- The size that `SizeSerializer` computes for a value, and its flags afterwards. -/
def Ser.size : Ser → SizeSerializer → Except Failure (Nat × SizeSerializer)
  | .bool v, se => .ok (se.serializeBool v, se)
  | .i8 _, se | .u8 _, se => .ok (se.fixedSize 1, se)
  | .i16 _, se | .u16 _, se => .ok (se.fixedSize 2, se)
  | .i32 v, se => .ok (se.serializeI32 v, se)
  | .i64 v, se => do return (← se.serializeI64 v, se)
  | .u32 v, se => .ok (se.serializeU32 v, se)
  | .u64 v, se => .ok (se.serializeU64 v, se)
  | .f32 _, se | .char _, se => .ok (se.fixedSize 4, se)
  | .f64 _, se => .ok (se.fixedSize 8, se)
  | .str v, se => se.serializeStr v
  | .bytes v, se => do return (← se.serializeBytes v, se)
  | .none, se | .unit, se => .ok (1, se)
  | .some v, se => v.size se
  | .unitVariant index, se => .ok (se.serializeU32 index, se)
  | .newtypeStruct name v, se => v.size (se.enterNewtype name)
  | .newtypeVariant .descriptor _ v, se => do
      let (len, se) ← v.size se
      return (len + 1, se)
  | .newtypeVariant _ index v, se => do
      let key := SizeSerializer.new.serializeU32 index
      let (value, _) ← v.size .new
      return (← mapSize (key + value) se.isArrayElement, se)
  | .seq _ elements, se => do
      let len ← Ser.sizeElements se.seqType 0 elements
      return (← seqSize se len, se)
  | .tuple elements, se => do
      let len ← Ser.sizeElements .none 0 elements
      return (← listSize len se.isArrayElement, se)
  | .tupleStruct name fields, se => do
      let se := se.enterTupleStruct name
      let len ← Ser.sizeTupleStructFields se
        (name = .describedBasic ∨ name = .describedList) fields
      tupleStructSize se len
  | .map _ entries, se => do
      let len ← Ser.sizeEntries entries
      return (← mapSize len se.isArrayElement, se)
  | .struct name fields, se => do
      let (len, se) ← Ser.sizeStructFields (se.enterStruct name) fields
      structSize se len
  | .variant index fields, se => do
      let len ← Ser.sizeElements .none 0 fields
      let key := SizeSerializer.new.serializeU32 index
      let value ← listSize len se.isArrayElement
      return (← mapSize (key + value) se.isArrayElement, se)

def Ser.sizeElements (seqType : Option SequenceType) (num : Nat) :
    List Ser → Except Failure Nat
  | [] => .ok 0
  | v :: vs => do
      let (len, _) ← v.size { SizeSerializer.new with isArrayElement := elementMode seqType num }
      let rest ← Ser.sizeElements seqType (num + 1) vs
      return len + rest

def Ser.sizeEntries : List (Ser × Ser) → Except Failure Nat
  | [] => .ok 0
  | (key, value) :: entries => do
      let (keyLen, _) ← key.size .new
      let (valueLen, _) ← value.size .new
      let rest ← Ser.sizeEntries entries
      return keyLen + valueLen + rest

def Ser.sizeTupleStructFields (se : SizeSerializer) (descriptor : Bool) :
    List Ser → Except Failure Nat
  | [] => .ok 0
  | v :: vs => do
      let inner ← if descriptor then .ok .new else tupleStructFieldSizer se
      let (len, _) ← v.size inner
      let rest ← Ser.sizeTupleStructFields se false vs
      return len + rest

def Ser.sizeStructFields : SizeSerializer → List (FieldKey × Ser) →
    Except Failure (Nat × SizeSerializer)
  | se, [] => .ok (0, se)
  | se, (.descriptor, v) :: fields => do
      let (len, se) ← v.size se
      let (rest, se) ← Ser.sizeStructFields se fields
      return (len + rest, se)
  | se, (.name key, v) :: fields => do
      let len ← match se.structEncoding with
        | .none => do
            let (len, _) ← v.size { SizeSerializer.new with isArrayElement := se.isArrayElement }
            pure len
        | .describedList => do
            let (len, _) ← v.size .describedList
            pure len
        | .describedMap => do
            let (keyLen, inner) ← SizeSerializer.describedMap.serializeStr key
            let (len, _) ← v.size inner
            pure (keyLen + len)
        | .describedBasic => do
            let (len, _) ← v.size .new
            pure len
      let (rest, se) ← Ser.sizeStructFields se fields
      return (len + rest, se)

end

@[simp] theorem Ser.size_some (v : Ser) (se : SizeSerializer) : (Ser.some v).size se = v.size se := by
  simp only [Ser.size]

@[simp] theorem Ser.sizeElements_nil (seqType : Option SequenceType) (num : Nat) :
    Ser.sizeElements seqType num [] = .ok 0 := by
  simp only [Ser.sizeElements]

@[simp] theorem Ser.sizeEntries_nil : Ser.sizeEntries [] = .ok 0 := by
  simp only [Ser.sizeEntries]

@[simp] theorem Ser.sizeStructFields_nil (se : SizeSerializer) :
    Ser.sizeStructFields se [] = .ok (0, se) := by
  simp only [Ser.sizeStructFields]

@[simp] theorem Ser.sizeTupleStructFields_nil (se : SizeSerializer) (descriptor : Bool) :
    Ser.sizeTupleStructFields se descriptor [] = .ok 0 := by
  simp only [Ser.sizeTupleStructFields]

/-- `serialized_size`. -/
def serializedSize (value : Ser) : Except Failure Nat := do
  let (len, _) ← value.size .new
  return len

end Fe2o3Amqp
