import Fe2o3Amqp.Primitives
import Fe2o3Amqp.Util.BigEndian

/-!
# Wire format

The encoding codes of `serde_amqp`, its error type, and the flags that the serializer and the
deserializer keep about the value they are working on.
-/

namespace Fe2o3Amqp

/-! ## Errors -/

inductive IoErrorKind where
  | unexpectedEof | other
deriving DecidableEq, Repr

/-- `serde_amqp::Error`. -/
inductive SerdeError where
  | message (text : String)
  | io (kind : IoErrorKind) (text : String)
  | invalidFormatCode
  | invalidValue
  | invalidUtf8Encoding
  | sequenceLengthMismatch
  | invalidLength
deriving DecidableEq, Repr

namespace SerdeError

def tooLong : SerdeError := .io .other "Too long"

def unexpectedEof (text : String) : SerdeError := .io .unexpectedEof text

/-- The `Display` text of the errors that are turned into messages. -/
def toString : SerdeError → String
  | .message text => "Message " ++ text
  | .io _ text => "IO " ++ text
  | .invalidFormatCode => "Invalid format code"
  | .invalidValue => "Invalid value"
  | .invalidUtf8Encoding => "Invalid UTF-8 encoding"
  | .sequenceLengthMismatch => "Sequence length mismatch"
  | .invalidLength => "Invalid length"

end SerdeError

/-- The ways a call can end without a value: it returns `Err`, it panics, or it recurses deeper
than the budget that stands for the call stack. -/
inductive Failure where
  | err (error : SerdeError)
  | panic
  | stack
deriving DecidableEq, Repr

/-! ## Encoding codes -/

inductive EncodingCodes where
  | describedType | null
  | boolean | booleanTrue | booleanFalse
  | ubyte | ushort
  | uint | smallUint | uint0
  | ulong | smallUlong | ulong0
  | byte | short
  | int | smallInt
  | long | smallLong
  | float | double
  | decimal32 | decimal64 | decimal128
  | char | timestamp | uuid
  | vbin8 | vbin32
  | str8 | str32
  | sym8 | sym32
  | list0 | list8 | list32
  | map8 | map32
  | array8 | array32
deriving DecidableEq, Repr

namespace EncodingCodes

/-- `code as u8`. -/
def toU8 : EncodingCodes → UInt8
  | describedType => 0x00
  | null => 0x40
  | boolean => 0x56
  | booleanTrue => 0x41
  | booleanFalse => 0x42
  | ubyte => 0x50
  | ushort => 0x60
  | uint => 0x70
  | smallUint => 0x52
  | uint0 => 0x43
  | ulong => 0x80
  | smallUlong => 0x53
  | ulong0 => 0x44
  | byte => 0x51
  | short => 0x61
  | int => 0x71
  | smallInt => 0x54
  | long => 0x81
  | smallLong => 0x55
  | float => 0x72
  | double => 0x82
  | decimal32 => 0x74
  | decimal64 => 0x84
  | decimal128 => 0x94
  | char => 0x73
  | timestamp => 0x83
  | uuid => 0x98
  | vbin8 => 0xa0
  | vbin32 => 0xb0
  | str8 => 0xa1
  | str32 => 0xb1
  | sym8 => 0xa3
  | sym32 => 0xb3
  | list0 => 0x45
  | list8 => 0xc0
  | list32 => 0xd0
  | map8 => 0xc1
  | map32 => 0xd1
  | array8 => 0xe0
  | array32 => 0xf0

/-- `EncodingCodes::try_from`. -/
def tryFrom (value : UInt8) : Except SerdeError EncodingCodes :=
  match value with
  | 0x00 => .ok describedType
  | 0x40 => .ok null
  | 0x56 => .ok boolean
  | 0x41 => .ok booleanTrue
  | 0x42 => .ok booleanFalse
  | 0x50 => .ok ubyte
  | 0x60 => .ok ushort
  | 0x70 => .ok uint
  | 0x52 => .ok smallUint
  | 0x43 => .ok uint0
  | 0x80 => .ok ulong
  | 0x53 => .ok smallUlong
  | 0x44 => .ok ulong0
  | 0x51 => .ok byte
  | 0x61 => .ok short
  | 0x71 => .ok int
  | 0x54 => .ok smallInt
  | 0x81 => .ok long
  | 0x55 => .ok smallLong
  | 0x72 => .ok float
  | 0x82 => .ok double
  | 0x74 => .ok decimal32
  | 0x84 => .ok decimal64
  | 0x94 => .ok decimal128
  | 0x73 => .ok char
  | 0x83 => .ok timestamp
  | 0x98 => .ok uuid
  | 0xa0 => .ok vbin8
  | 0xb0 => .ok vbin32
  | 0xa1 => .ok str8
  | 0xb1 => .ok str32
  | 0xa3 => .ok sym8
  | 0xb3 => .ok sym32
  | 0x45 => .ok list0
  | 0xc0 => .ok list8
  | 0xd0 => .ok list32
  | 0xc1 => .ok map8
  | 0xd1 => .ok map32
  | 0xe0 => .ok array8
  | 0xf0 => .ok array32
  | _ => .error .invalidFormatCode

@[simp] theorem tryFrom_toU8 (code : EncodingCodes) : tryFrom code.toU8 = .ok code := by
  cases code <;> rfl

end EncodingCodes

/-- How the bytes after a format code are laid out, with the width of the value or of its size
field. -/
inductive Category where
  | fixed (width : Nat)
  | variable (width : Nat)
  | compound (width : Nat)
  | array (width : Nat)
deriving DecidableEq, Repr

/-- `Category::try_from`; only a described type has no category. -/
def Category.tryFrom : EncodingCodes → Option Category
  | .describedType => none
  | .null | .booleanTrue | .booleanFalse | .uint0 | .ulong0 | .list0 => some (.fixed 0)
  | .boolean | .ubyte | .smallUint | .smallUlong | .byte | .smallInt | .smallLong =>
      some (.fixed 1)
  | .ushort | .short => some (.fixed 2)
  | .uint | .int | .float | .decimal32 | .char => some (.fixed 4)
  | .ulong | .long | .double | .decimal64 | .timestamp => some (.fixed 8)
  | .decimal128 | .uuid => some (.fixed 16)
  | .vbin8 | .str8 | .sym8 => some (.variable 1)
  | .vbin32 | .str32 | .sym32 => some (.variable 4)
  | .list8 | .map8 => some (.compound 1)
  | .list32 | .map32 => some (.compound 4)
  | .array8 => some (.array 1)
  | .array32 => some (.array 4)

/-! ## Flags of the two codecs -/

inductive SequenceType where
  | list | array | transparentVec
deriving DecidableEq, Repr

inductive NonNativeType where
  | dec32 | dec64 | dec128 | symbol | symbolRef | timestamp | uuid | lazyValue
deriving DecidableEq, Repr

inductive IsArrayElement where
  | false | firstElement | otherElement
deriving DecidableEq, Repr

inductive EnumType where
  | none | array | descriptor | value
deriving DecidableEq, Repr

inductive StructEncoding where
  | none | describedList | describedMap | describedBasic
deriving DecidableEq, Repr

/-- The type names that the codecs tell apart; every other name is `other`. -/
inductive TypeName where
  | describedBasic | describedList | describedMap | descriptor | untaggedEnum | value | array
  | decimal32 | decimal64 | decimal128 | symbol | symbolRef | timestamp | uuid | transparentVec
  | lazyValue | other
deriving DecidableEq, Repr

/-! ## Text -/

/-- The UTF-8 bytes of a string. -/
def utf8Bytes (s : String) : Bytes := s.toByteArray.data.toList

/-- `String::from_utf8`. -/
def fromUtf8 (bytes : Bytes) : Option String := String.fromUTF8? ⟨bytes.toArray⟩

@[simp] theorem fromUtf8_utf8Bytes (s : String) : fromUtf8 (utf8Bytes s) = some s := by
  have hvalid : s.toByteArray.IsValidUTF8 := s.isValidUTF8
  simp [fromUtf8, utf8Bytes, String.fromUTF8?, hvalid, String.fromUTF8]

end Fe2o3Amqp
