import Fe2o3Amqp.Serde.Read

/-!
# The deserializer

`Deserializer` and the accesses it hands to visitors.  A `Deserialize` implementation is a program
of type `De`: it runs on the deserializer state and returns a value or a failure together with the
state it leaves.  Subtractions on sizes and counts read from the input panic when they underflow,
as do the `unreachable!()` branches.
-/

namespace Fe2o3Amqp

structure Deserializer (R : Type) where
  reader : R
  nonNativeType : Option NonNativeType
  seqType : Option SequenceType
  enumType : EnumType
  structEncoding : StructEncoding
  elemFormatCode : Option EncodingCodes
deriving DecidableEq, Repr

def Deserializer.new {R : Type} (reader : R) : Deserializer R where
  reader
  nonNativeType := none
  seqType := none
  enumType := .none
  structEncoding := .none
  elemFormatCode := none

abbrev De (R α : Type) := EStateM Failure (Deserializer R) α

/-- What `deserialize_identifier` hands to the visitor. -/
inductive Ident where
  | u8 (v : UInt8)
  | u32 (v : UInt32)
  | u64 (v : UInt64)
  | str (v : String)
deriving DecidableEq, Repr

/-- What a visitor of texts and 64-bit numbers is given; narrower numbers are widened for it. -/
def Ident.nameOrCode : Ident → Descriptor
  | .u8 v => .code v.toUInt64
  | .u32 v => .code v.toUInt64
  | .u64 v => .code v
  | .str v => .name ⟨v⟩

def maxArrayCount : Nat := 65536

namespace De

variable {R : Type} [Read R] {α β : Type}

def err (e : SerdeError) : De R α := throw (.err e)

def panic : De R α := throw .panic

/-- `serde::de::Error::custom`. -/
def custom (text : String) : De R α := err (.message text)

/-- The error of a visitor that is handed a kind of data it does not take. -/
def invalidType : De R α := custom "invalid type"

def ofExcept : Except SerdeError α → De R α
  | .ok a => pure a
  | .error e => err e

/-- Runs an operation of the reader. -/
def read (op : R → Except SerdeError α × R) : De R α := fun de =>
  match op de.reader with
  | (.ok a, reader) => .ok a { de with reader }
  | (.error e, reader) => .error (.err e) { de with reader }

/-- Runs a program and keeps its error; a panic is not caught. -/
def attempt (program : De R α) : De R (Except SerdeError α) := fun de =>
  match program de with
  | .ok a de => .ok (.ok a) de
  | .error (.err e) de => .ok (.error e) de
  | .error failure de => .error failure de

/-- Runs a program with another struct encoding and puts the old one back. -/
def withStructEncoding (encoding : StructEncoding) (program : De R α) : De R α := fun de =>
  match program { de with structEncoding := encoding } with
  | .ok a de' => .ok a { de' with structEncoding := de.structEncoding }
  | .error failure de' => .error failure { de' with structEncoding := de.structEncoding }

/-- Runs a program and puts the old enum type back. -/
def restoringEnumType (program : De R α) : De R α := fun de =>
  match program de with
  | .ok a de' => .ok a { de' with enumType := de.enumType }
  | .error failure de' => .error failure { de' with enumType := de.enumType }

def setEnumType (enumType : EnumType) : De R Unit := modify fun de => { de with enumType }

def setNonNativeType (nonNativeType : Option NonNativeType) : De R Unit :=
  modify fun de => { de with nonNativeType }

def setElemFormatCode (elemFormatCode : Option EncodingCodes) : De R Unit :=
  modify fun de => { de with elemFormatCode }

def peek : De R (Option UInt8) := fun de =>
  let (byte, reader) := Read.peek de.reader
  .ok byte { de with reader }

def bytesConsumed : De R Nat := fun de => .ok (Read.bytesConsumed de.reader) de

/-- The next byte; its absence is the given error. -/
def next (text : String) : De R UInt8 := do
  match ← read Read.next with
  | some byte => return byte
  | none => err (.unexpectedEof text)

/-- `read_const_bytes` and `read_bytes`. -/
def readBytes (n : Nat) : De R Bytes := read (Read.readExact n)

def readU32 : De R Nat := do return BigEndian.decode (← readBytes 4)

def peekBytes (n : Nat) (text : String) : De R Bytes := do
  match ← read (Read.peekBytes n) with
  | some bytes => return bytes
  | none => err (.unexpectedEof text)

/-- `a - b` on `usize`. -/
def sub (a b : Nat) : De R Nat := if a < b then panic else return a - b

/-! ## Format codes -/

def readFormatCode (text : String) : De R EncodingCodes := do
  ofExcept (EncodingCodes.tryFrom (← next text))

def getElemCodeOrReadFormatCode (text : String) : De R EncodingCodes := do
  match (← get).elemFormatCode with
  | some code => return code
  | none => readFormatCode text

def getElemCodeOrPeekByte (text : String) : De R UInt8 := do
  match (← get).elemFormatCode with
  | some code => return code.toU8
  | none =>
      match ← peek with
      | some byte => return byte
      | none => err (.unexpectedEof text)

/-- `get_elem_code_or_peek_byte` turned into a format code. -/
def peekFormatCode (text : String) : De R EncodingCodes := do
  ofExcept (EncodingCodes.tryFrom (← getElemCodeOrPeekByte text))

/-! ## Primitive types -/

def parseBool : De R Bool := do
  match ← getElemCodeOrReadFormatCode "parse_bool" with
  | .boolean =>
      match ← next "Expecting bool byte" with
      | 0 => return false
      | 1 => return true
      | _ => err .invalidValue
  | .booleanTrue => return true
  | .booleanFalse => return false
  | _ => err .invalidFormatCode

def parseI8 : De R Int8 := do
  match ← getElemCodeOrReadFormatCode "parse_i8" with
  | .byte => return (← next "Expecting i8").toInt8
  | _ => err .invalidFormatCode

def parseI16 : De R Int16 := do
  match ← getElemCodeOrReadFormatCode "parse_i16" with
  | .short => return (UInt16.ofNat (BigEndian.decode (← readBytes 2))).toInt16
  | _ => err .invalidFormatCode

def parseI32 : De R Int32 := do
  match ← getElemCodeOrReadFormatCode "parse_i32" with
  | .int => return (UInt32.ofNat (BigEndian.decode (← readBytes 4))).toInt32
  | .smallInt => return (← next "Expecting i32").toInt8.toInt32
  | _ => err .invalidFormatCode

def parseI64 : De R Int64 := do
  match ← getElemCodeOrReadFormatCode "parse_i64" with
  | .long => return (UInt64.ofNat (BigEndian.decode (← readBytes 8))).toInt64
  | .smallLong => return (← next "Expecting i64").toInt8.toInt64
  | _ => err .invalidFormatCode

def parseU8 : De R UInt8 := do
  match ← getElemCodeOrReadFormatCode "parse_u8" with
  | .ubyte => next "Expecting u8"
  | _ => err .invalidFormatCode

def parseU16 : De R UInt16 := do
  match ← getElemCodeOrReadFormatCode "parse_u16" with
  | .ushort => return UInt16.ofNat (BigEndian.decode (← readBytes 2))
  | _ => err .invalidFormatCode

def parseU32 : De R UInt32 := do
  match ← getElemCodeOrReadFormatCode "parse_u32" with
  | .uint => return UInt32.ofNat (BigEndian.decode (← readBytes 4))
  | .smallUint => return (← next "Expecting small u32").toUInt32
  | .uint0 => return 0
  | _ => err .invalidFormatCode

def parseU64 : De R UInt64 := do
  match ← getElemCodeOrReadFormatCode "parse_u64" with
  | .ulong => return UInt64.ofNat (BigEndian.decode (← readBytes 8))
  | .smallUlong => return (← next "Expecting small u64").toUInt64
  | .ulong0 => return 0
  | _ => err .invalidFormatCode

/-- The bit pattern of an `f32`. -/
def parseF32 : De R UInt32 := do
  match ← getElemCodeOrReadFormatCode "parse_f32" with
  | .float => return UInt32.ofNat (BigEndian.decode (← readBytes 4))
  | _ => err .invalidFormatCode

/-- The bit pattern of an `f64`. -/
def parseF64 : De R UInt64 := do
  match ← getElemCodeOrReadFormatCode "parse_f64" with
  | .double => return UInt64.ofNat (BigEndian.decode (← readBytes 8))
  | _ => err .invalidFormatCode

/-- `char::from_u32`. -/
def charFromU32 (n : Nat) : Option Char :=
  if h : n.isValidChar then some (Char.ofNatAux n h) else none

def parseChar : De R Char := do
  match ← getElemCodeOrReadFormatCode "parse_char" with
  | .char =>
      match charFromU32 (BigEndian.decode (← readBytes 4)) with
      | some c => return c
      | none => err .invalidValue
  | _ => err .invalidFormatCode

def stringFromUtf8 (bytes : Bytes) : De R String :=
  match fromUtf8 bytes with
  | some text => pure text
  | none => err .invalidUtf8Encoding

/-- The text of a string or a symbol behind an 8-bit width. -/
def readSmallString (text : String) : De R String := do
  let len ← next text
  stringFromUtf8 (← readBytes len.toNat)

/-- The text of a string or a symbol behind a 32-bit width. -/
def readString : De R String := do
  let len ← readU32
  stringFromUtf8 (← readBytes len)

def parseString : De R String := do
  match ← getElemCodeOrReadFormatCode "parse_string" with
  | .str8 => readSmallString "Expecting str8"
  | .str32 => readString
  | _ => err .invalidFormatCode

def parseSymbol : De R String := do
  match ← getElemCodeOrReadFormatCode "parse_symbol" with
  | .sym8 => readSmallString "Expecting sym8"
  | .sym32 => readString
  | _ => err .invalidFormatCode

def parseBinary : De R Bytes := do
  match ← getElemCodeOrReadFormatCode "parse_byte_buf" with
  | .vbin8 =>
      let len ← next "Expecting len"
      readBytes len.toNat
  | .vbin32 =>
      let len ← readU32
      readBytes len
  | _ => err .invalidFormatCode

def parseDecimal : De R Bytes := do
  match ← getElemCodeOrReadFormatCode "parse_decimal" with
  | .decimal32 => read (Read.forwardReadBytesWithHint 4)
  | .decimal64 => read (Read.forwardReadBytesWithHint 8)
  | .decimal128 => read (Read.forwardReadBytesWithHint 16)
  | _ => err .invalidFormatCode

def parseUuid : De R Bytes := do
  match ← getElemCodeOrReadFormatCode "parse_uuid" with
  | .uuid => read (Read.forwardReadBytesWithHint 16)
  | _ => err .invalidFormatCode

def parseTimestamp : De R Int64 := do
  match ← getElemCodeOrReadFormatCode "parse_timestamp" with
  | .timestamp => return (UInt64.ofNat (BigEndian.decode (← readBytes 8))).toInt64
  | _ => err .invalidFormatCode

def parseUnit : De R Unit := do
  match ← getElemCodeOrReadFormatCode "parse_unit" with
  | .null => return ()
  | _ => err .invalidFormatCode

/-- `parse_described_identifier`: looks at the descriptor of a described value and leaves it. -/
def parseDescribedIdentifier : De R Ident := do
  let buf ← peekBytes 2 "parse_described_identifier"
  match ← ofExcept (EncodingCodes.tryFrom (buf.getD 1 0)) with
  | .sym8 =>
      let buf ← peekBytes 3 ""
      let size := (buf.getD 2 0).toNat
      let buf ← peekBytes (3 + size) ""
      return .str (← stringFromUtf8 (buf.drop 3))
  | .sym32 =>
      let buf ← peekBytes (2 + 4) ""
      let size := BigEndian.decode (buf.drop 2)
      let buf ← peekBytes (6 + size) ""
      return .str (← stringFromUtf8 (buf.drop 6))
  | .ulong0 => return .u64 0
  | .smallUlong =>
      let buf ← peekBytes 3 ""
      return .u64 (buf.getD 2 0).toUInt64
  | .ulong =>
      let buf ← peekBytes (2 + 8) ""
      return .u64 (UInt64.ofNat (BigEndian.decode (buf.drop 2)))
  | _ => err .invalidFormatCode

def deserializeI64 : De R Int64 := do
  match (← get).nonNativeType with
  | some .timestamp =>
      setNonNativeType none
      parseTimestamp
  | _ => parseI64

def deserializeString : De R String := do
  match (← get).nonNativeType with
  | some .symbol =>
      setNonNativeType none
      parseSymbol
  | _ => parseString

def deserializeStr : De R String := do
  let len ← match ← getElemCodeOrReadFormatCode "Expecting format code" with
    | .str8 | .sym8 => do pure (← next "Expecting len").toNat
    | .str32 | .sym32 => readU32
    | _ => err .invalidFormatCode
  read (Read.forwardReadStr len)

/-- The bytes of a value behind a size field of the given width. -/
def readEncodedLenBytes (width : Nat) : De R Bytes := do
  let header ← peekBytes (width + 1) "parse LazyValue"
  readBytes (1 + width + BigEndian.decode (header.drop 1))

/-- The bytes of a primitive value, or what `described` reads for a described one. -/
def readPrimitiveBytesOrElse (described : De R Bytes) : De R Bytes := do
  match ← peek with
  | none => err (.unexpectedEof "parse LazyValue")
  | some byte =>
      match Category.tryFrom (← ofExcept (EncodingCodes.tryFrom byte)) with
      | some (.fixed width) => readBytes (width + 1)
      | some (.variable width) | some (.compound width) | some (.array width) =>
          readEncodedLenBytes width
      | none => described

def readDescribedBytes : De R Bytes := do
  let bytes ← readBytes 1
  let descriptor ← readPrimitiveBytesOrElse (err .invalidFormatCode)
  let value ← readPrimitiveBytesOrElse (err .invalidFormatCode)
  return bytes ++ descriptor ++ value

def deserializeByteBuf : De R Bytes := do
  match (← get).nonNativeType with
  | none => parseBinary
  | some .lazyValue => readPrimitiveBytesOrElse readDescribedBytes
  | some _ => panic

def deserializeBytes : De R Bytes := do
  match (← get).nonNativeType with
  | some .dec32 | some .dec64 | some .dec128 =>
      setNonNativeType none
      parseDecimal
  | some .uuid =>
      setNonNativeType none
      parseUuid
  | some .lazyValue => panic
  | _ =>
      let len ← match ← getElemCodeOrReadFormatCode "Expecting format code" with
        | .vbin8 => do pure (← next "Expecting len").toNat
        | .vbin32 => readU32
        | _ => err .invalidFormatCode
      read (Read.forwardReadBytesWithHint len)

def deserializeOption (some' : De R α) : De R (Option α) := do
  match ← peekFormatCode "Expecting format code" with
  | .null =>
      -- consume the null
      let _ ← getElemCodeOrReadFormatCode "Expecting len"
      return none
  | _ => return some (← some')

/-! ## Sequences and maps -/

/-- The accesses that `deserialize_seq` hands to a visitor; the size of a list is not used. -/
inductive SeqAccess where
  | array (size count startPos : Nat)
  | list (count : Nat)

/-- Starts an array of `count` elements whose size field is `len`; the offset accounts for the
count and the element constructor, which only a non-empty array is read to have. -/
def arrayAccess (offset len count : Nat) : De R SeqAccess := do
  if count > maxArrayCount ∨ count > len then err .invalidValue
  else if count = 0 then
    return .array len count (← bytesConsumed)
  else
    let code ← readFormatCode "Expecting format code"
    setElemFormatCode (some code)
    let len ← sub len offset
    return .array len count (← bytesConsumed)

def seqAccess : De R SeqAccess := do
  match ← getElemCodeOrReadFormatCode "Expecting format code" with
  | .array8 =>
      let len ← next "Expecting len"
      let count ← next "Expecting count"
      arrayAccess 2 len.toNat count.toNat
  | .array32 =>
      let len ← readU32
      let count ← readU32
      arrayAccess 5 len count
  | .list0 => return .list 0
  | .list8 =>
      let len ← next "Expecting len"
      let count ← next "Expecting count"
      let _ ← sub len.toNat 1
      setElemFormatCode none
      return .list count.toNat
  | .list32 =>
      let len ← readU32
      let count ← readU32
      if count > maxArrayCount then err .invalidValue
      else
        let _ ← sub len 4
        setElemFormatCode none
        return .list count
  | _ => err .invalidFormatCode

/-- The elements of a list, one for each count. -/
def listElements (element : De R α) : Nat → De R (List α)
  | 0 => return []
  | count + 1 => do
      let v ← element
      let vs ← listElements element count
      return v :: vs

/-- The elements of an array; the element constructor is dropped after the last one. -/
def arrayElements (element : De R α) (size startPos : Nat) : Nat → De R (List α)
  | 0 => do
      setElemFormatCode none
      return []
  | count + 1 => do
      let v ← element
      let consumed ← bytesConsumed
      if consumed - startPos > size then err .invalidValue
      else
        let vs ← arrayElements element size startPos count
        return v :: vs

/-- `deserialize_seq` with the visitor of `Vec<T>`. -/
def deserializeVec (element : De R α) : De R (List α) := do
  match ← seqAccess with
  | .array size count startPos => arrayElements element size startPos count
  | .list count => listElements element count

/-- The count that `deserialize_map` reads; it counts keys and values. -/
def mapCount : De R Nat := do
  match ← getElemCodeOrReadFormatCode "Expecting format code" with
  | .map8 =>
      let size ← next "Expecting size"
      let count ← next "Expecting count"
      let _ ← sub size.toNat 1
      return count.toNat
  | .map32 =>
      let size ← readU32
      let count ← readU32
      if count > maxArrayCount then err .invalidValue
      else
        let _ ← sub size 4
        return count
  | _ => err .invalidFormatCode

/-- The entries of a map in the order of the wire; a lone key left over by an odd count makes the
count underflow. -/
def mapEntries (eq : α → α → Bool) (key : De R α) (value : De R β) :
    Nat → OrderedMap α β → De R (OrderedMap α β)
  | 0, map => return map
  | 1, _ => panic
  | count + 2, map => do
      let k ← key
      let v ← value
      mapEntries eq key value count (map.insert eq k v)

/-- `deserialize_map` with the visitor of `OrderedMap<K, V>`. -/
def deserializeMap (eq : α → α → Bool) (key : De R α) (value : De R β) :
    De R (OrderedMap α β) := do
  mapEntries eq key value (← mapCount) []

/-! ## Described values -/

/-- `DescribedAccess`: fields yielded and fields announced, the descriptor included. -/
structure DescribedAccess where
  counter : UInt32
  fieldCount : UInt32

def consumeListHeader : De R UInt32 := do
  match ← getElemCodeOrReadFormatCode "Expecting format code" with
  | .list0 => return 0
  | .list8 =>
      let _ ← next "Expecting size"
      return (← next "Expecting count").toUInt32
  | .list32 =>
      let _ ← readU32
      return UInt32.ofNat (← readU32)
  | _ => custom "Invalid format code. Expecting a list"

/-- Adds the announced fields after the descriptor of a described list. -/
def DescribedAccess.announce (access : DescribedAccess) : De R DescribedAccess := do
  if access.counter = 0 ∧ (← get).structEncoding = .describedList then
    let count ← consumeListHeader
    if access.fieldCount.toNat + count.toNat < UInt32.size then
      return { access with fieldCount := access.fieldCount + count }
    else panic
  else return access

/-- `DescribedAccess::next_element`.  The header of a described list is read after the first
element, even when reading that element failed. -/
def DescribedAccess.nextElement (element : De R α) (access : DescribedAccess) :
    De R (Option α × DescribedAccess) := do
  if access.counter ≥ access.fieldCount then return (none, access)
  else
    match ← peek with
    | none => return (none, access)
    | some byte =>
        match ← ofExcept (EncodingCodes.tryFrom byte) with
        | .describedType =>
            let result ← attempt element
            let access ← access.announce
            let v ← ofExcept result
            return (some v, { access with counter := access.counter + 1 })
        | _ =>
            let v ← element
            return (some v, { access with counter := access.counter + 1 })

/-- `deserialize_struct` for the basic and the list encoding, with the visitor's `visit_seq`. -/
def deserializeStruct (encoding : StructEncoding) (fieldCount : UInt32)
    (visitSeq : DescribedAccess → De R α) : De R α :=
  withStructEncoding encoding (visitSeq
    { counter := 0, fieldCount := if encoding = .describedBasic then fieldCount else 1 })

/-- `deserialize_tuple_struct` for the same encodings; here the struct encoding stays. -/
def deserializeTupleStruct (encoding : StructEncoding) (fieldCount : UInt32)
    (visitSeq : DescribedAccess → De R α) : De R α := do
  modify fun de => { de with structEncoding := encoding }
  visitSeq { counter := 0, fieldCount := if encoding = .describedBasic then fieldCount else 1 }

/-! ## Enums -/

/-- The header of a list or map that carries a variant, with a count of two. -/
def variantHeader (wide : Bool) : De R Unit := do
  let _ ← next "Expecting code"
  let count ← if wide then do
      let _ ← readU32
      readU32
    else do
      let _ ← next "Expecting code"
      pure (← next "Expecting count").toNat
  if count ≠ 2 then err .invalidLength

/-- `deserialize_enum`; the visitor's `visit_enum` reads the variant and its content. -/
def deserializeEnum (name : TypeName) (visitEnum : De R α) : De R α :=
  match name with
  | .value => restoringEnumType do setEnumType .value; visitEnum
  | .descriptor => restoringEnumType do setEnumType .descriptor; visitEnum
  | .untaggedEnum => restoringEnumType visitEnum
  | .array => restoringEnumType do setEnumType .array; visitEnum
  | _ => do
      match ← peekFormatCode "Expecting format code" with
      | .list0 => err .invalidFormatCode
      | .list8 | .map8 =>
          variantHeader false
          restoringEnumType visitEnum
      | .list32 | .map32 =>
          variantHeader true
          restoringEnumType visitEnum
      | _ => restoringEnumType visitEnum

/-- `deserialize_identifier`. -/
def deserializeIdentifier : De R Ident := do
  match (← get).enumType with
  | .value | .array => return .u8 (← getElemCodeOrPeekByte "")
  | .descriptor =>
      -- the byte that marks a described type is consumed here
      match ← readFormatCode "Expecting format code" with
      | .describedType =>
          setEnumType .none
          return .u8 (← getElemCodeOrPeekByte "")
      | _ => err .invalidFormatCode
  | .none =>
      let code ← getElemCodeOrPeekByte ""
      match ← ofExcept (EncodingCodes.tryFrom code) with
      | .str32 | .str8 => return .str (← deserializeStr)
      | .uint | .smallUint | .uint0 => return .u32 (← parseU32)
      | .sym32 | .sym8 =>
          setNonNativeType (some .symbol)
          return .str (← deserializeString)
      | .ulong | .smallUlong | .ulong0 => return .u64 (← parseU64)
      | .describedType => parseDescribedIdentifier
      | _ => return .u8 code

end De

/-- `from_slice`. -/
def fromSlice {α : Type} (program : De SliceReader α) (slice : Bytes) : Except Failure α :=
  match program (Deserializer.new (SliceReader.new slice)) with
  | .ok a _ => .ok a
  | .error failure _ => .error failure

end Fe2o3Amqp
