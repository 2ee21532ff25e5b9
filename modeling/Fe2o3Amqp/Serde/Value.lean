import Fe2o3Amqp.Serde.Ser
import Fe2o3Amqp.Serde.De

/-!
# Primitive types and `Value`

The `Serialize` and `Deserialize` implementations of the primitive types of `serde_amqp` and of
`Value`.
-/

namespace Fe2o3Amqp

/-! ## Serialization -/

def Symbol.toSer (v : Symbol) : Ser := .newtypeStruct .symbol (.str v.value)

def Descriptor.toSer : Descriptor → Ser
  | .name value => .newtypeVariant .descriptor 0 value.toSer
  | .code value => .newtypeVariant .descriptor 1 (.u64 value)

/-- `Option<T>`. -/
def optionToSer {α : Type} (toSer : α → Ser) : Option α → Ser
  | none => .none
  | some v => .some (toSer v)

/-- `Vec<T>`. -/
def vecToSer {α : Type} (toSer : α → Ser) (vs : List α) : Ser :=
  .seq (some vs.length) (vs.map toSer)

/-- `Array<T>`. -/
def arrayToSer {α : Type} (toSer : α → Ser) (vs : List α) : Ser :=
  .newtypeStruct .array (vecToSer toSer vs)

/-- `TransparentVec<T>`. -/
def transparentVecToSer {α : Type} (toSer : α → Ser) (vs : List α) : Ser :=
  .newtypeStruct .transparentVec (vecToSer toSer vs)

/-- `OrderedMap<K, V>`. -/
def OrderedMap.toSer {K V : Type} (key : K → Ser) (value : V → Ser) (m : OrderedMap K V) : Ser :=
  .map (some m.length) (m.map fun entry => (key entry.1, value entry.2))

/-- `Described<T>`. -/
def describedToSer (descriptor : Descriptor) (value : Ser) : Ser :=
  .struct .describedBasic [(.descriptor, descriptor.toSer), (.name "value", value)]

mutual

def Value.toSer : Value → Ser
  | .described descriptor value => describedToSer descriptor value.toSer
  | .null => .unit
  | .bool v => .bool v
  | .ubyte v => .u8 v
  | .ushort v => .u16 v
  | .uint v => .u32 v
  | .ulong v => .u64 v
  | .byte v => .i8 v
  | .short v => .i16 v
  | .int v => .i32 v
  | .long v => .i64 v
  | .float bits => .f32 bits
  | .double bits => .f64 bits
  | .decimal32 bytes => .newtypeStruct .decimal32 (.bytes bytes.toList)
  | .decimal64 bytes => .newtypeStruct .decimal64 (.bytes bytes.toList)
  | .decimal128 bytes => .newtypeStruct .decimal128 (.bytes bytes.toList)
  | .char v => .char v
  | .timestamp milliseconds => .newtypeStruct .timestamp (.i64 milliseconds)
  | .uuid bytes => .newtypeStruct .uuid (.bytes bytes.toList)
  | .binary v => .bytes v
  | .string v => .str v
  | .symbol v => v.toSer
  | .list vs => .seq (some vs.length) (Value.listToSer vs)
  | .map entries => .map (some entries.length) (Value.entriesToSer entries)
  | .array vs => .newtypeStruct .array (.seq (some vs.length) (Value.listToSer vs))

def Value.listToSer : List Value → List Ser
  | [] => []
  | v :: vs => v.toSer :: Value.listToSer vs

def Value.entriesToSer : List (Value × Value) → List (Ser × Ser)
  | [] => []
  | (k, v) :: entries => (k.toSer, v.toSer) :: Value.entriesToSer entries

end

/-! ## Deserialization -/

/-- The types of values that their format codes tell apart. -/
inductive ValueType where
  | described | null | bool | ubyte | ushort | uint | ulong | byte | short | int | long | float
  | double | decimal32 | decimal64 | decimal128 | char | timestamp | uuid | binary | string
  | symbol | list | map | array
deriving DecidableEq, Repr

def ValueType.ofCode : EncodingCodes → ValueType
  | .null => .null
  | .boolean | .booleanFalse | .booleanTrue => .bool
  | .ubyte => .ubyte
  | .ushort => .ushort
  | .uint | .uint0 | .smallUint => .uint
  | .ulong | .ulong0 | .smallUlong => .ulong
  | .byte => .byte
  | .short => .short
  | .int | .smallInt => .int
  | .long | .smallLong => .long
  | .float => .float
  | .double => .double
  | .decimal32 => .decimal32
  | .decimal64 => .decimal64
  | .decimal128 => .decimal128
  | .char => .char
  | .timestamp => .timestamp
  | .uuid => .uuid
  | .vbin32 | .vbin8 => .binary
  | .str32 | .str8 => .string
  | .sym32 | .sym8 => .symbol
  | .list0 | .list32 | .list8 => .list
  | .map32 | .map8 => .map
  | .array32 | .array8 => .array
  | .describedType => .described

namespace De

variable {R : Type} [Read R] {α : Type}

/-- The visitor of `ValueType`; it takes the format code only. -/
def valueType : De R ValueType := do
  match ← deserializeIdentifier with
  | .u8 code =>
      match EncodingCodes.tryFrom code with
      | .ok code => return .ofCode code
      | .error e => custom e.toString
  | _ => invalidType

def symbol : De R Symbol := do
  setNonNativeType (some .symbol)
  return ⟨← deserializeString⟩

/-- The decimals and the uuid: bytes that must fill the type. -/
def fixedBytes (nonNativeType : NonNativeType) (n : Nat) : De R (Vector UInt8 n) := do
  setNonNativeType (some nonNativeType)
  let bytes ← deserializeBytes
  if h : bytes.toArray.size = n then return ⟨bytes.toArray, h⟩
  else custom SerdeError.invalidLength.toString

def timestamp : De R Int64 := do
  setNonNativeType (some .timestamp)
  deserializeI64

/-- Whether a descriptor is a symbol or a number. -/
def descriptorIsName : De R Bool := do
  match ← deserializeIdentifier with
  | .u8 code =>
      match EncodingCodes.tryFrom code with
      | .ok .sym32 | .ok .sym8 => return true
      | .ok .ulong | .ok .ulong0 | .ok .smallUlong => return false
      | .ok _ => custom "Invalid format code"
      | .error _ => custom "Unable to convert to EncodingCodes"
  | _ => invalidType

def descriptor : De R Descriptor :=
  deserializeEnum .descriptor do
    if ← descriptorIsName then return .name (← symbol)
    else return .code (← parseU64)

/-- `PeekDescriptor`, which looks at the descriptor without consuming it. -/
def peekDescriptor : De R Descriptor := do return (← deserializeIdentifier).nameOrCode

/-- `Described<T>`. -/
def described (value : De R α) : De R (Descriptor × α) :=
  deserializeStruct .describedBasic 2 fun access => do
    match ← access.nextElement descriptor with
    | (none, _) => custom "Expecting descriptor"
    | (some descriptor, access) =>
        match ← access.nextElement value with
        | (none, _) => custom "Insufficient number of elements. Expecting value"
        | (some value, _) => return (descriptor, value)

/-- Whether an array is written as such or as its single element. -/
def arrayIsMultiple : De R Bool := do
  match ← deserializeIdentifier with
  | .u8 code =>
      match EncodingCodes.tryFrom code with
      | .ok .array8 | .ok .array32 => return true
      | .ok _ => return false
      | .error _ => custom "Unable to convert to EncodingCodes"
  | _ => invalidType

/-- `Array<T>`. -/
def array (element : De R α) : De R (List α) :=
  deserializeEnum .array do
    if ← arrayIsMultiple then deserializeVec element
    else return [← element]

/-- What `TransparentVecAccess` remembers of the elements of a transparent vector. -/
inductive PeekTypeCode where
  | primitive (type : ValueType)
  | composite (descriptor : Descriptor)
deriving DecidableEq, Repr

/-- The type of the next value, without consuming it; `none` at the end of the input. -/
def peekTypeCode : De R (Option PeekTypeCode) := do
  match ← peek with
  | none => return none
  | some byte =>
      match ← ofExcept (EncodingCodes.tryFrom byte) with
      | .describedType => return some (.composite (← peekDescriptor))
      | code => return some (.primitive (.ofCode code))

/-- The elements of a transparent vector up to the first value of another type.  `budget` bounds
the elements, each of which takes at least one byte. -/
def transparentElements (element : De R α) : (budget : Nat) → (cached : Option PeekTypeCode) →
    De R (List α)
  | 0, _ => throw .stack
  | budget + 1, cached => do
      match ← peekTypeCode with
      | none => return []
      | some type =>
          if cached.any (· ≠ type) then return []
          else
            let v ← element
            let vs ← transparentElements element budget (some (cached.getD type))
            return v :: vs

/-- `TransparentVec<T>`. -/
def transparentVec (element : De R α) : De R (List α) := do
  modify fun de => { de with seqType := some .transparentVec }
  transparentElements element (Read.remaining (← get).reader + 1) none

/-- `ValueVisitor::visit_enum` after the type is known; `value` reads the values inside. -/
def visitValue (value : De R Value) : ValueType → De R Value
  | .described => do
      let (descriptor, value) ← described value
      return .described descriptor value
  | .null => do
      parseUnit
      return .null
  | .bool => do return .bool (← parseBool)
  | .ubyte => do return .ubyte (← parseU8)
  | .ushort => do return .ushort (← parseU16)
  | .uint => do return .uint (← parseU32)
  | .ulong => do return .ulong (← parseU64)
  | .byte => do return .byte (← parseI8)
  | .short => do return .short (← parseI16)
  | .int => do return .int (← parseI32)
  | .long => do return .long (← deserializeI64)
  | .float => do return .float (← parseF32)
  | .double => do return .double (← parseF64)
  | .decimal32 => do return .decimal32 (← fixedBytes .dec32 4)
  | .decimal64 => do return .decimal64 (← fixedBytes .dec64 8)
  | .decimal128 => do return .decimal128 (← fixedBytes .dec128 16)
  | .char => do return .char (← parseChar)
  | .timestamp => do return .timestamp (← timestamp)
  | .uuid => do return .uuid (← fixedBytes .uuid 16)
  | .binary => do return .binary (← deserializeByteBuf)
  | .string => do return .string (← deserializeString)
  | .symbol => do return .symbol (← symbol)
  | .list => do return .list (← deserializeVec value)
  | .map => do return .map (← deserializeMap Value.eq value value)
  | .array => do return .array (← array value)

/-- `Value`, with the recursion bounded by `depth`. -/
def valueAtDepth : (depth : Nat) → De R Value
  | 0 => throw .stack
  | depth + 1 => deserializeEnum .value do visitValue (valueAtDepth depth) (← valueType)

/-- `Value`.  Every nested value takes at least one byte, so the bytes that remain bound the
depth. -/
def value : De R Value := do
  valueAtDepth (Read.remaining (← get).reader + 1)

end De

end Fe2o3Amqp
