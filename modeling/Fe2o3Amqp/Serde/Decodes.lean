import Mathlib.Data.List.Forall2
import Fe2o3Amqp.Serde.Writes

/-!
# What a deserializer reads

`Decodes e d bytes a` says that the program `d`, run by a deserializer whose flags are clear and
whose enum type is `e`, reads exactly `bytes` from the front of any input, returns `a` and leaves
the deserializer as it was.
-/

namespace Fe2o3Amqp

/-- The deserializer in front of other bytes of its slice. -/
def Deserializer.at (de : Deserializer SliceReader) (bytes : Bytes) : Deserializer SliceReader :=
  { de with reader := { de.reader with slice := bytes } }

namespace Deserializer

variable (de : Deserializer SliceReader) (bytes : Bytes)

@[simp] theorem at_nonNativeType : (de.at bytes).nonNativeType = de.nonNativeType := rfl
@[simp] theorem at_enumType : (de.at bytes).enumType = de.enumType := rfl
@[simp] theorem at_structEncoding : (de.at bytes).structEncoding = de.structEncoding := rfl
@[simp] theorem at_elemFormatCode : (de.at bytes).elemFormatCode = de.elemFormatCode := rfl
@[simp] theorem at_remaining : Read.remaining (de.at bytes).reader = bytes.length := rfl

theorem nonNativeType_none {de : Deserializer SliceReader} (h : de.nonNativeType = none) :
    { de with nonNativeType := none } = de := by
  cases de
  simp_all

theorem elemFormatCode_none {de : Deserializer SliceReader} (h : de.elemFormatCode = none) :
    { de with elemFormatCode := none } = de := by
  cases de
  simp_all

end Deserializer

namespace De

variable {α β : Type}

/-! ## Running the programs of the deserializer -/

section Run

variable {R : Type}

@[simp] theorem bind_run (x : De R α) (f : α → De R β) (de : Deserializer R) :
    (x >>= f) de = match x de with
      | .ok a de => f a de
      | .error failure de => .error failure de := by
  cases h : x de <;> simp [bind, EStateM.bind, h]

@[simp] theorem map_run (f : α → β) (x : De R α) (de : Deserializer R) :
    (f <$> x) de = match x de with
      | .ok a de => .ok (f a) de
      | .error failure de => .error failure de := by
  cases h : x de <;> simp [Functor.map, EStateM.map, h]

@[simp] theorem pure_run (a : α) (de : Deserializer R) : (pure a : De R α) de = .ok a de := rfl

@[simp] theorem get_run (de : Deserializer R) : (get : De R _) de = .ok de de := rfl

@[simp] theorem modify_run (f : Deserializer R → Deserializer R) (de : Deserializer R) :
    (modify f : De R Unit) de = .ok () (f de) := rfl

@[simp] theorem ofExcept_ok (a : α) : (ofExcept (.ok a) : De R α) = pure a := rfl

end Run

variable (de : Deserializer SliceReader) (bytes suffix : Bytes)

@[simp] theorem peek_run (byte : UInt8) :
    peek (de.at (byte :: bytes)) = .ok (some byte) (de.at (byte :: bytes)) := rfl

@[simp] theorem next_run (text : String) (byte : UInt8) :
    next text (de.at (byte :: bytes)) = .ok byte (de.at bytes) := rfl

@[simp] theorem setNonNativeType_run (x : Option NonNativeType) :
    setNonNativeType x (de.at bytes) = .ok () ({ de with nonNativeType := x }.at bytes) := rfl

@[simp] theorem setEnumType_run (x : EnumType) :
    setEnumType x (de.at bytes) = .ok () ({ de with enumType := x }.at bytes) := rfl

@[simp] theorem setElemFormatCode_run (x : Option EncodingCodes) :
    setElemFormatCode x (de.at bytes) = .ok () ({ de with elemFormatCode := x }.at bytes) := rfl

theorem sub_run {a b : Nat} (h : b ≤ a) : sub a b (de.at bytes) = .ok (a - b) (de.at bytes) := by
  simp [sub, Nat.not_lt.mpr h]

theorem readBytes_run {n : Nat} (h : bytes.length = n) :
    readBytes n (de.at (bytes ++ suffix)) = .ok bytes (de.at suffix) := by
  subst h
  simp [readBytes, read, Read.readExact, Deserializer.at]

theorem forwardReadBytes_run {n : Nat} (h : bytes.length = n) :
    read (Read.forwardReadBytesWithHint n) (de.at (bytes ++ suffix)) = .ok bytes (de.at suffix) := by
  subst h
  simp [read, Read.forwardReadBytesWithHint, SliceReader.getByteSlice, Deserializer.at]

@[simp] theorem readBytes_encode (width n : Nat) :
    readBytes width (de.at (BigEndian.encode width n ++ suffix))
      = .ok (BigEndian.encode width n) (de.at suffix) :=
  readBytes_run de _ suffix (by simp)

theorem readU32_run {n : Nat} (h : n < 2 ^ 32) :
    readU32 (de.at (BigEndian.encode 4 n ++ suffix)) = .ok n (de.at suffix) := by
  have hn : BigEndian.decode (BigEndian.encode 4 n) = n :=
    BigEndian.decode_encode_of_lt (by simpa using h)
  simp [readU32, hn]

theorem stringFromUtf8_run (text : String) :
    stringFromUtf8 (utf8Bytes text) (de.at bytes) = .ok text (de.at bytes) := by
  simp [stringFromUtf8]

theorem readSmallString_run (expecting text : String)
    (h : (utf8Bytes text).length ≤ u8MaxMinus1) :
    readSmallString expecting
        (de.at (UInt8.ofNat (utf8Bytes text).length :: (utf8Bytes text ++ suffix)))
      = .ok text (de.at suffix) := by
  have hlen : (UInt8.ofNat (utf8Bytes text).length).toNat = (utf8Bytes text).length :=
    UInt8.toNat_ofNat_of_lt' (by simp only [u8MaxMinus1] at h; simp only [UInt8.size]; omega)
  simp [readSmallString, hlen, readBytes_run de _ suffix rfl, stringFromUtf8_run]

theorem readString_run (text : String) (h : (utf8Bytes text).length ≤ u32MaxMinus4) :
    readString (de.at (BigEndian.encode 4 (utf8Bytes text).length ++ (utf8Bytes text ++ suffix)))
      = .ok text (de.at suffix) := by
  have hlen : (utf8Bytes text).length < 2 ^ 32 := by
    simp only [u32MaxMinus4] at h
    omega
  simp [readString, readU32_run de _ hlen, readBytes_run de _ suffix rfl, stringFromUtf8_run]

theorem withStructEncoding_run {encoding : StructEncoding} {program : De SliceReader α} {a : α}
    (h : program ({ de with structEncoding := encoding }.at bytes)
      = .ok a ({ de with structEncoding := encoding }.at suffix)) :
    withStructEncoding encoding program (de.at bytes) = .ok a (de.at suffix) := by
  have h' : program { de.at bytes with structEncoding := encoding }
      = .ok a ({ de with structEncoding := encoding }.at suffix) := h
  simp only [withStructEncoding, h']
  rfl

theorem restoringEnumType_run (enumType : EnumType) {program : De SliceReader α} {a : α}
    (h : program (de.at bytes) = .ok a ({ de with enumType }.at suffix)) :
    restoringEnumType program (de.at bytes) = .ok a (de.at suffix) := by
  simp only [restoringEnumType, h]
  rfl

variable {de}

@[simp] theorem getElemCodeOrReadFormatCode_run (h : de.elemFormatCode = none) (text : String)
    (code : EncodingCodes) :
    getElemCodeOrReadFormatCode text (de.at (code.toU8 :: bytes)) = .ok code (de.at bytes) := by
  simp [getElemCodeOrReadFormatCode, h, readFormatCode]

@[simp] theorem getElemCodeOrPeekByte_run (h : de.elemFormatCode = none) (text : String)
    (byte : UInt8) :
    getElemCodeOrPeekByte text (de.at (byte :: bytes)) = .ok byte (de.at (byte :: bytes)) := by
  simp [getElemCodeOrPeekByte, h]

@[simp] theorem peekFormatCode_run (h : de.elemFormatCode = none) (text : String)
    (code : EncodingCodes) :
    peekFormatCode text (de.at (code.toU8 :: bytes)) = .ok code (de.at (code.toU8 :: bytes)) := by
  simp [peekFormatCode, h]

/-- An enum whose variant is told by a value that is neither a list nor a map. -/
theorem deserializeEnum_other_run (h : de.elemFormatCode = none) {code : EncodingCodes}
    (hcode : code ∉ [EncodingCodes.list0, .list8, .list32, .map8, .map32])
    {visitEnum : De SliceReader α} {a : α} (suffix : Bytes)
    (hvisit : visitEnum (de.at (code.toU8 :: bytes)) = .ok a (de.at suffix)) :
    deserializeEnum .other visitEnum (de.at (code.toU8 :: bytes)) = .ok a (de.at suffix) := by
  have hrun : restoringEnumType visitEnum (de.at (code.toU8 :: bytes)) = .ok a (de.at suffix) :=
    restoringEnumType_run de _ suffix de.enumType hvisit
  simp only [deserializeEnum, bind_run, peekFormatCode_run _ h]
  cases code <;> first
    | exact hrun
    | exact absurd (by simp) hcode

end De

/-! ## Decoding exactly the bytes of a value -/

/-- The program reads exactly these bytes and returns the value. -/
def Decodes {α : Type} (e : EnumType) (d : De SliceReader α) (bytes : Bytes) (a : α) : Prop :=
  ∀ (de : Deserializer SliceReader) (suffix : Bytes),
    de.nonNativeType = none → de.elemFormatCode = none → de.enumType = e →
      d (de.at (bytes ++ suffix)) = .ok a (de.at suffix)

/-- The bytes start with a format code that meets the condition. -/
def Starts (accepts : EncodingCodes → Prop) (bytes : Bytes) : Prop :=
  ∃ code rest, bytes = code.toU8 :: rest ∧ accepts code

namespace Starts

variable {P Q : EncodingCodes → Prop}

theorem mono {bytes : Bytes} (h : Starts P bytes) (hPQ : ∀ code, P code → Q code) :
    Starts Q bytes := by
  obtain ⟨code, rest, hbytes, hcode⟩ := h
  exact ⟨code, rest, hbytes, hPQ code hcode⟩

theorem append {bytes : Bytes} (h : Starts P bytes) (more : Bytes) : Starts P (bytes ++ more) := by
  obtain ⟨code, rest, rfl, hcode⟩ := h
  exact ⟨code, rest ++ more, rfl, hcode⟩

theorem ne_nil {bytes : Bytes} (h : Starts P bytes) : bytes ≠ [] := by
  obtain ⟨code, rest, rfl, -⟩ := h
  simp

theorem code {code : EncodingCodes} {rest : Bytes} (h : P code) : Starts P (code.toU8 :: rest) :=
  ⟨code, rest, rfl, h⟩

theorem bool {v : Bool} (htrue : P .booleanTrue) (hfalse : P .booleanFalse) :
    Starts P (Wire.bool v) := by
  cases v
  · exact code hfalse
  · exact code htrue

theorem i32 {v : Int32} (hsmall : P .smallInt) (hwide : P .int) : Starts P (Wire.i32 v) := by
  simp only [Wire.i32]
  split
  · exact code hsmall
  · exact code hwide

theorem i64 {v : Int64} (hsmall : P .smallLong) (hwide : P .long) : Starts P (Wire.i64 v) := by
  simp only [Wire.i64]
  split
  · exact code hsmall
  · exact code hwide

theorem u32 {v : UInt32} (hzero : P .uint0) (hsmall : P .smallUint) (hwide : P .uint) :
    Starts P (Wire.u32 v) := by
  simp only [Wire.u32]
  split
  · exact code hzero
  · split
    · exact code hsmall
    · exact code hwide

theorem u64 {v : UInt64} (hzero : P .ulong0) (hsmall : P .smallUlong) (hwide : P .ulong) :
    Starts P (Wire.u64 v) := by
  simp only [Wire.u64]
  split
  · exact code hzero
  · split
    · exact code hsmall
    · exact code hwide

theorem sized {code8 code32 : EncodingCodes} {bytes : Bytes} (hsmall : P code8)
    (hwide : P code32) : Starts P (Wire.sized code8 code32 bytes) := by
  simp only [Wire.sized]
  split
  · exact code hsmall
  · exact code hwide

theorem compound {code8 code32 : EncodingCodes} {n : Nat} {bytes : Bytes} (hsmall : P code8)
    (hwide : P code32) : Starts P (Wire.compound code8 code32 n bytes) := by
  simp only [Wire.compound]
  split
  · exact code hsmall
  · exact code hwide

theorem list {n : Nat} {bytes : Bytes} (hzero : P .list0) (hsmall : P .list8) (hwide : P .list32) :
    Starts P (Wire.list n bytes) := by
  simp only [Wire.list]
  split
  · exact code hzero
  · exact compound hsmall hwide

theorem descriptor {v : Descriptor} (hmark : P .describedType) : Starts P (Wire.descriptor v) := by
  cases v <;> exact code hmark

end Starts

namespace Decodes

variable {e : EnumType}

theorem parseUnit : Decodes e De.parseUnit [EncodingCodes.null.toU8] () := by
  intro de suffix _ helem _
  simp [De.parseUnit, helem]

theorem parseBool (v : Bool) : Decodes e De.parseBool (Wire.bool v) v := by
  intro de suffix _ helem _
  cases v <;> simp [De.parseBool, Wire.bool, helem]

theorem parseU8 (v : UInt8) : Decodes e De.parseU8 [EncodingCodes.ubyte.toU8, v] v := by
  intro de suffix _ helem _
  simp [De.parseU8, helem]

theorem parseI8 (v : Int8) : Decodes e De.parseI8 [EncodingCodes.byte.toU8, v.toUInt8] v := by
  intro de suffix _ helem _
  simp [De.parseI8, helem]

theorem parseU16 (v : UInt16) :
    Decodes e De.parseU16 (EncodingCodes.ushort.toU8 :: BigEndian.encode 2 v.toNat) v := by
  intro de suffix _ helem _
  simp [De.parseU16, helem]

theorem parseI16 (v : Int16) :
    Decodes e De.parseI16 (EncodingCodes.short.toU8 :: BigEndian.encode 2 v.toUInt16.toNat) v := by
  intro de suffix _ helem _
  simp [De.parseI16, helem]

theorem parseU32 (v : UInt32) : Decodes e De.parseU32 (Wire.u32 v) v := by
  intro de suffix _ helem _
  simp only [Wire.u32]
  split
  · next hzero => simp [De.parseU32, helem, hzero]
  · split
    · next hsmall =>
        have hv : v.toUInt8.toUInt32 = v := by
          apply UInt32.toNat_inj.mp
          simp only [UInt8.toNat_toUInt32, UInt32.toNat_toUInt8]
          omega
        simp [De.parseU32, helem, hv]
    · simp [De.parseU32, helem]

theorem parseU64 (v : UInt64) : Decodes e De.parseU64 (Wire.u64 v) v := by
  intro de suffix _ helem _
  simp only [Wire.u64]
  split
  · next hzero => simp [De.parseU64, helem, hzero]
  · split
    · next hsmall =>
        have hv : v.toUInt8.toUInt64 = v := by
          apply UInt64.toNat_inj.mp
          simp only [UInt8.toNat_toUInt64, UInt64.toNat_toUInt8]
          omega
        simp [De.parseU64, helem, hv]
    · simp [De.parseU64, helem]

theorem parseI32 (v : Int32) : Decodes e De.parseI32 (Wire.i32 v) v := by
  intro de suffix _ helem _
  simp only [Wire.i32]
  split
  · next hsmall =>
      have hv : v.toInt8.toInt32 = v := by
        apply Int32.toInt_inj.mp
        simp only [Int8.toInt_toInt32, Int32.toInt_toInt8]
        exact Int.bmod_eq_of_le (by omega) (by omega)
      simp [De.parseI32, helem, hv]
  · simp [De.parseI32, helem]

theorem parseI64 (v : Int64) : Decodes e De.parseI64 (Wire.i64 v) v := by
  intro de suffix _ helem _
  simp only [Wire.i64]
  split
  · next hsmall =>
      have hv : v.toInt8.toInt64 = v := by
        apply Int64.toInt_inj.mp
        simp only [Int8.toInt_toInt64, Int64.toInt_toInt8]
        exact Int.bmod_eq_of_le (by omega) (by omega)
      simp [De.parseI64, helem, hv]
  · simp [De.parseI64, helem]

theorem parseF32 (bits : UInt32) :
    Decodes e De.parseF32 (EncodingCodes.float.toU8 :: BigEndian.encode 4 bits.toNat) bits := by
  intro de suffix _ helem _
  simp [De.parseF32, helem]

theorem parseF64 (bits : UInt64) :
    Decodes e De.parseF64 (EncodingCodes.double.toU8 :: BigEndian.encode 8 bits.toNat) bits := by
  intro de suffix _ helem _
  simp [De.parseF64, helem]

theorem parseChar (v : Char) :
    Decodes e De.parseChar (EncodingCodes.char.toU8 :: BigEndian.encode 4 v.val.toNat) v := by
  intro de suffix _ helem _
  have hdecode : BigEndian.decode (BigEndian.encode 4 v.toNat) = v.toNat :=
    BigEndian.decode_encode_of_lt (v.val.toNat_lt.trans_eq (by norm_num))
  have hchar : De.charFromU32 v.toNat = some v := by
    have hvalid : v.toNat.isValidChar := v.valid
    rw [De.charFromU32, dif_pos hvalid]
    exact congrArg some (Char.ext (UInt32.ofNatLT_toNat v.val))
  simp [De.parseChar, helem, hdecode, hchar]

theorem parseString {v : String} (hlen : (utf8Bytes v).length ≤ u32MaxMinus4) :
    Decodes e De.parseString (Wire.string v) v := by
  intro de suffix _ helem _
  simp only [Wire.string, Wire.sized]
  split
  next hsmall => simp [De.parseString, helem, De.readSmallString_run de suffix _ v hsmall]
  next => simp [De.parseString, helem, De.readString_run de suffix v hlen]

theorem deserializeString {v : String} (hlen : (utf8Bytes v).length ≤ u32MaxMinus4) :
    Decodes e De.deserializeString (Wire.string v) v := by
  intro de suffix hnative helem henum
  have hparse := parseString hlen de suffix hnative helem henum
  simp [De.deserializeString, hnative, hparse]

theorem parseSymbol {v : Symbol} (hlen : (utf8Bytes v.value).length ≤ u32MaxMinus4) :
    Decodes e De.parseSymbol (Wire.symbol v) v.value := by
  intro de suffix _ helem _
  simp only [Wire.symbol, Wire.sized]
  split
  next hsmall => simp [De.parseSymbol, helem, De.readSmallString_run de suffix _ v.value hsmall]
  next => simp [De.parseSymbol, helem, De.readString_run de suffix v.value hlen]

/-- Announcing a symbol and reading it clears the flag again. -/
theorem symbol {v : Symbol} (hlen : (utf8Bytes v.value).length ≤ u32MaxMinus4) :
    Decodes e De.symbol (Wire.symbol v) v := by
  intro de suffix hnative helem henum
  have hparse := parseSymbol hlen de suffix hnative helem henum
  simp [De.symbol, De.deserializeString, Deserializer.nonNativeType_none hnative, hparse]

theorem parseBinary {v : Bytes} (hlen : v.length ≤ u32MaxMinus4) :
    Decodes e De.parseBinary (Wire.binary v) v := by
  intro de suffix _ helem _
  simp only [Wire.binary, Wire.sized]
  split
  next hsmall =>
    have hwidth : (UInt8.ofNat v.length).toNat = v.length :=
      UInt8.toNat_ofNat_of_lt' (by simp only [u8MaxMinus1] at hsmall; simp only [UInt8.size]; omega)
    simp [De.parseBinary, helem, hwidth, De.readBytes_run de v suffix rfl]
  next =>
    have hwidth : v.length < 2 ^ 32 := by
      simp only [u32MaxMinus4] at hlen
      omega
    simp [De.parseBinary, helem, De.readU32_run de _ hwidth, De.readBytes_run de v suffix rfl]

theorem deserializeByteBuf {v : Bytes} (hlen : v.length ≤ u32MaxMinus4) :
    Decodes e De.deserializeByteBuf (Wire.binary v) v := by
  intro de suffix hnative helem henum
  have hparse := parseBinary hlen de suffix hnative helem henum
  simp [De.deserializeByteBuf, hnative, hparse]

theorem deserializeI64 (v : Int64) : Decodes e De.deserializeI64 (Wire.i64 v) v := by
  intro de suffix hnative helem henum
  have hparse := parseI64 v de suffix hnative helem henum
  simp [De.deserializeI64, hnative, hparse]

theorem parseTimestamp (v : Int64) :
    Decodes e De.parseTimestamp
      (EncodingCodes.timestamp.toU8 :: BigEndian.encode 8 v.toUInt64.toNat) v := by
  intro de suffix _ helem _
  simp [De.parseTimestamp, helem]

theorem timestamp (v : Int64) :
    Decodes e De.timestamp
      (EncodingCodes.timestamp.toU8 :: BigEndian.encode 8 v.toUInt64.toNat) v := by
  intro de suffix hnative helem henum
  have hparse := parseTimestamp v de suffix hnative helem henum
  simp only [List.cons_append] at hparse
  simp [De.timestamp, De.deserializeI64, Deserializer.nonNativeType_none hnative, hparse]

/-- The decimals and the uuid, whose flag chooses the parser and is cleared by it. -/
private theorem fixedBytes {n : Nat} {flag : NonNativeType} {code : EncodingCodes}
    (v : Vector UInt8 n) (parse : De SliceReader Bytes)
    (hflag : ∀ de : Deserializer SliceReader, de.nonNativeType = some flag →
      De.deserializeBytes de = parse { de with nonNativeType := none })
    (hparse : Decodes e parse (code.toU8 :: v.toList) v.toList) :
    Decodes e (De.fixedBytes flag n) (code.toU8 :: v.toList) v := by
  intro de suffix hnative helem henum
  have hread : De.deserializeBytes
      ({ de with nonNativeType := some flag }.at (code.toU8 :: v.toList ++ suffix))
        = .ok v.toList (de.at suffix) := by
    rw [hflag _ rfl, ← hparse de suffix hnative helem henum]
    exact congrArg (fun de' => parse (de'.at (code.toU8 :: v.toList ++ suffix)))
      (Deserializer.nonNativeType_none hnative)
  have hsize : v.toList.toArray.size = n := by simp
  simp only [De.fixedBytes, De.bind_run, De.setNonNativeType_run, hread, dif_pos hsize,
    De.pure_run]
  congr 1

private theorem parseDecimal {n : Nat} {code : EncodingCodes} (v : Vector UInt8 n)
    (h : (code, n) ∈ [(EncodingCodes.decimal32, 4), (.decimal64, 8), (.decimal128, 16)]) :
    Decodes e De.parseDecimal (code.toU8 :: v.toList) v.toList := by
  intro de suffix _ helem _
  have hread := De.forwardReadBytes_run de v.toList suffix v.length_toList
  simp only [List.mem_cons, List.not_mem_nil, or_false, Prod.mk.injEq] at h
  rcases h with ⟨rfl, rfl⟩ | ⟨rfl, rfl⟩ | ⟨rfl, rfl⟩ <;> simp [De.parseDecimal, helem, hread]

theorem decimal32 (v : Vector UInt8 4) :
    Decodes e (De.fixedBytes .dec32 4) (EncodingCodes.decimal32.toU8 :: v.toList) v :=
  fixedBytes v De.parseDecimal (fun de h => by simp [De.deserializeBytes, h, De.setNonNativeType])
    (parseDecimal v (by simp))

theorem decimal64 (v : Vector UInt8 8) :
    Decodes e (De.fixedBytes .dec64 8) (EncodingCodes.decimal64.toU8 :: v.toList) v :=
  fixedBytes v De.parseDecimal (fun de h => by simp [De.deserializeBytes, h, De.setNonNativeType])
    (parseDecimal v (by simp))

theorem decimal128 (v : Vector UInt8 16) :
    Decodes e (De.fixedBytes .dec128 16) (EncodingCodes.decimal128.toU8 :: v.toList) v :=
  fixedBytes v De.parseDecimal (fun de h => by simp [De.deserializeBytes, h, De.setNonNativeType])
    (parseDecimal v (by simp))

theorem uuid (v : Vector UInt8 16) :
    Decodes e (De.fixedBytes .uuid 16) (EncodingCodes.uuid.toU8 :: v.toList) v :=
  fixedBytes v De.parseUuid (fun de h => by simp [De.deserializeBytes, h, De.setNonNativeType])
    fun de suffix _ helem _ => by
      simp [De.parseUuid, helem, De.forwardReadBytes_run de v.toList suffix v.length_toList]

/-! ## Options and compound values -/

theorem ofNone {α : Type} (d : De SliceReader α) :
    Decodes e (De.deserializeOption d) [EncodingCodes.null.toU8] none := by
  intro de suffix _ helem _
  simp [De.deserializeOption, helem]

theorem ofSome {α : Type} {d : De SliceReader α} {bytes : Bytes} {a : α} (h : Decodes e d bytes a)
    (hstart : Starts (· ≠ .null) bytes) : Decodes e (De.deserializeOption d) bytes (some a) := by
  intro de suffix hnative helem henum
  obtain ⟨code, rest, rfl, hcode⟩ := hstart
  have hrun := h de suffix hnative helem henum
  cases code <;> first
    | exact absurd rfl hcode
    | simp_all [De.deserializeOption]

theorem listElements {α : Type} {d : De SliceReader α} {vs : List α} {pieces : List Bytes}
    (h : List.Forall₂ (fun v piece => Decodes e d piece v) vs pieces) :
    Decodes e (De.listElements d vs.length) pieces.flatten vs := by
  intro de suffix hnative helem henum
  induction h with
  | nil => simp [De.listElements]
  | cons hv _ ih =>
      have hrun := hv de
      simp [De.listElements, hrun _ hnative helem henum, ih]

/-- The size and the count of a small compound fit a byte each. -/
theorem toNat_ofNat_u8 {n : Nat} (h : n ≤ u8Max) : (UInt8.ofNat n).toNat = n :=
  UInt8.toNat_ofNat_of_lt' (by simp only [u8Max] at h; simp only [UInt8.size]; omega)

/-- The header of a list is read up to its body. -/
theorem seqAccess_list {de : Deserializer SliceReader} (helem : de.elemFormatCode = none) {n : Nat}
    {buf suffix : Bytes} (hcount : n ≤ buf.length) (hcap : n ≤ maxArrayCount)
    (hlen : buf.length ≤ u32MaxMinus4) :
    De.seqAccess (de.at (Wire.list n buf ++ suffix)) = .ok (.list n) (de.at (buf ++ suffix)) := by
  simp only [u32MaxMinus4, maxArrayCount] at hlen hcap
  simp only [Wire.list, Wire.compound]
  split
  next hempty =>
    have hbuf : buf = [] := List.length_eq_zero_iff.mp hempty
    have hn : n = 0 := by omega
    simp [De.seqAccess, helem, hbuf, hn]
  next hfull =>
    split
    next hsmall =>
      simp only [u8MaxMinus1] at hsmall
      have hsize := toNat_ofNat_u8 (n := buf.length + 1) (by simp only [u8Max]; omega)
      have hnum := toNat_ofNat_u8 (n := n) (by simp only [u8Max]; omega)
      have hsub : 1 ≤ (UInt8.ofNat (buf.length + 1)).toNat := by omega
      simp only [De.seqAccess, List.cons_append, List.nil_append, De.bind_run,
        De.getElemCodeOrReadFormatCode_run _ helem, De.next_run, De.sub_run _ _ hsub,
        De.setElemFormatCode_run, De.pure_run, hnum, Deserializer.elemFormatCode_none helem]
    next =>
      have hsize := De.readU32_run de (BigEndian.encode 4 n ++ (buf ++ suffix))
        (n := buf.length + 4) (by omega)
      have hnum := De.readU32_run de (buf ++ suffix) (n := n) (by omega)
      simp only [De.seqAccess, List.cons_append, List.append_assoc, De.bind_run,
        De.getElemCodeOrReadFormatCode_run _ helem, hsize, hnum, maxArrayCount,
        gt_iff_lt, Nat.not_lt.mpr hcap, if_false, De.sub_run _ _ (Nat.le_add_left 4 buf.length),
        De.setElemFormatCode_run, De.pure_run, Deserializer.elemFormatCode_none helem]

/-- A list whose elements take at least one byte each. -/
theorem vec {α : Type} {d : De SliceReader α} {vs : List α} {pieces : List Bytes}
    (h : List.Forall₂ (fun v piece => piece ≠ [] ∧ Decodes e d piece v) vs pieces)
    (hcap : vs.length ≤ maxArrayCount) (hlen : pieces.flatten.length ≤ u32MaxMinus4) :
    Decodes e (De.deserializeVec d) (Wire.list vs.length pieces.flatten) vs := by
  intro de suffix hnative helem henum
  have hcount : vs.length ≤ pieces.flatten.length := by
    clear hcap hlen
    induction h with
    | nil => simp
    | cons hv _ ih =>
        have hpos := List.length_pos_iff.mpr hv.1
        simp only [List.length_cons, List.flatten_cons, List.length_append]
        omega
  have helements := listElements (h.imp fun _ _ hv => hv.2) de suffix hnative helem henum
  simp [De.deserializeVec, seqAccess_list helem hcount hcap hlen, helements]

/-- The header of a map is read up to its body. -/
theorem mapCount {de : Deserializer SliceReader} (helem : de.elemFormatCode = none) {n : Nat}
    {buf suffix : Bytes} (hcount : n ≤ buf.length) (hcap : n ≤ maxArrayCount)
    (hlen : buf.length ≤ u32MaxMinus4) :
    De.mapCount (de.at (Wire.map n buf ++ suffix)) = .ok n (de.at (buf ++ suffix)) := by
  simp only [u32MaxMinus4, maxArrayCount] at hlen hcap
  simp only [Wire.map, Wire.compound]
  split
  next hsmall =>
    simp only [u8MaxMinus1] at hsmall
    have hsize := toNat_ofNat_u8 (n := buf.length + 1) (by simp only [u8Max]; omega)
    have hnum := toNat_ofNat_u8 (n := n) (by simp only [u8Max]; omega)
    have hsub : 1 ≤ (UInt8.ofNat (buf.length + 1)).toNat := by omega
    simp only [De.mapCount, List.cons_append, List.nil_append, De.bind_run,
      De.getElemCodeOrReadFormatCode_run _ helem, De.next_run, De.sub_run _ _ hsub, De.pure_run,
      hnum]
  next =>
    have hsize := De.readU32_run de (BigEndian.encode 4 n ++ (buf ++ suffix))
      (n := buf.length + 4) (by omega)
    have hnum := De.readU32_run de (buf ++ suffix) (n := n) (by omega)
    simp only [De.mapCount, List.cons_append, List.append_assoc, De.bind_run,
      De.getElemCodeOrReadFormatCode_run _ helem, hsize, hnum, maxArrayCount,
      gt_iff_lt, Nat.not_lt.mpr hcap, if_false, De.sub_run _ _ (Nat.le_add_left 4 buf.length), De.pure_run]

/-- The entries of a map are inserted one after another; distinct keys never meet. -/
theorem mapEntries {K V : Type} {eq : K → K → Bool} {key : De SliceReader K}
    {value : De SliceReader V} {m : OrderedMap K V} {pieces : List (Bytes × Bytes)}
    (h : List.Forall₂ (fun entry piece =>
      Decodes e key piece.1 entry.1 ∧ Decodes e value piece.2 entry.2) m pieces)
    (start : OrderedMap K V) (hkeys : OrderedMap.DistinctKeys eq (start ++ m)) :
    Decodes e (De.mapEntries eq key value (2 * m.length) start)
      (pieces.map fun piece => piece.1 ++ piece.2).flatten (start ++ m) := by
  intro de suffix hnative helem henum
  induction h generalizing start with
  | nil => simp [De.mapEntries]
  | @cons entry piece m pieces hentry _ ih =>
      have hkey := hentry.1 de
      have hvalue := hentry.2 de
      have hinsert : OrderedMap.insert eq start entry.1 entry.2 = start ++ [entry] :=
        OrderedMap.insert_eq_append eq start _ _ fun other hother =>
          (List.pairwise_append.mp hkeys).2.2 other hother entry (by simp)
      have hrest := ih (start ++ [entry]) (by simpa using hkeys)
      have hcount : 2 * (entry :: m).length = 2 * m.length + 2 := by
        simp only [List.length_cons]
        omega
      rw [hcount]
      simp [De.mapEntries, hkey _ hnative helem henum, hvalue _ hnative helem henum, hinsert,
        hrest]

/-- A map whose keys and values take at least one byte each. -/
theorem map {K V : Type} {eq : K → K → Bool} {key : De SliceReader K} {value : De SliceReader V}
    {m : OrderedMap K V} {pieces : List (Bytes × Bytes)}
    (h : List.Forall₂ (fun entry piece => (piece.1 ≠ [] ∧ Decodes e key piece.1 entry.1) ∧
      piece.2 ≠ [] ∧ Decodes e value piece.2 entry.2) m pieces)
    (hkeys : OrderedMap.DistinctKeys eq m) (hcap : 2 * m.length ≤ maxArrayCount)
    (hlen : (pieces.map fun piece => piece.1 ++ piece.2).flatten.length ≤ u32MaxMinus4) :
    Decodes e (De.deserializeMap eq key value)
      (Wire.map (2 * m.length) (pieces.map fun piece => piece.1 ++ piece.2).flatten) m := by
  intro de suffix hnative helem henum
  have hcount : 2 * m.length ≤ (pieces.map fun piece => piece.1 ++ piece.2).flatten.length := by
    clear hcap hlen hkeys
    induction h with
    | nil => simp
    | cons hentry _ ih =>
        have hposKey := List.length_pos_iff.mpr hentry.1.1
        have hposValue := List.length_pos_iff.mpr hentry.2.1
        simp only [List.length_cons, List.map_cons, List.flatten_cons, List.length_append]
        omega
  have hentries := mapEntries (h.imp fun _ _ hv => ⟨hv.1.2, hv.2.2⟩) [] hkeys de suffix
    hnative helem henum
  simp only [De.deserializeMap, De.bind_run, mapCount helem hcount hcap hlen, hentries,
    List.nil_append]

/-! ## Enums and described values -/

/-- The enum type is set for the content and put back. -/
theorem ofEnum {α : Type} {name : TypeName} (e' : EnumType) {d : De SliceReader α} {bytes : Bytes}
    {a : α} (h : Decodes e' d bytes a)
    (hname : De.deserializeEnum name d = De.restoringEnumType do De.setEnumType e'; d) :
    Decodes e (De.deserializeEnum name d) bytes a := by
  intro de suffix hnative helem henum
  have hrun := h { de with enumType := e' } suffix hnative helem rfl
  simp only [hname, De.restoringEnumType, De.bind_run, De.setEnumType_run, hrun]
  rfl

/-- The mark of a described value is consumed; the descriptor's format code is looked at. -/
theorem descriptorIsName_run {de : Deserializer SliceReader} (helem : de.elemFormatCode = none)
    (code : EncodingCodes) (rest : Bytes) (isName : Bool)
    (hcode : (isName = true ∧ (code = .sym32 ∨ code = .sym8)) ∨
      (isName = false ∧ (code = .ulong ∨ code = .ulong0 ∨ code = .smallUlong))) :
    De.descriptorIsName ({ de with enumType := .descriptor }.at
        (EncodingCodes.describedType.toU8 :: code.toU8 :: rest))
      = .ok isName ({ de with enumType := .none }.at (code.toU8 :: rest)) := by
  have hident : De.deserializeIdentifier ({ de with enumType := .descriptor }.at
      (EncodingCodes.describedType.toU8 :: code.toU8 :: rest))
        = .ok (.u8 code.toU8) ({ de with enumType := .none }.at (code.toU8 :: rest)) := by
    simp [De.deserializeIdentifier, De.readFormatCode, helem]
  rcases hcode with ⟨rfl, rfl | rfl⟩ | ⟨rfl, rfl | rfl | rfl⟩ <;>
    simp [De.descriptorIsName, hident]

theorem descriptor {v : Descriptor}
    (hlen : ∀ symbol, v = .name symbol → (utf8Bytes symbol.value).length ≤ u32MaxMinus4) :
    Decodes e De.descriptor (Wire.descriptor v) v := by
  intro de suffix hnative helem henum
  cases v with
  | name v =>
      have hstart : Starts (fun code => code = .sym32 ∨ code = .sym8) (Wire.symbol v) :=
        .sized (.inr rfl) (.inl rfl)
      have hread := symbol (hlen v rfl) { de with enumType := .none } suffix hnative helem rfl
      obtain ⟨code, rest, hbytes, hcode⟩ := hstart
      have hname := descriptorIsName_run helem code (rest ++ suffix) true (.inl ⟨rfl, hcode⟩)
      rw [hbytes, List.cons_append] at hread
      simp only [De.descriptor, De.deserializeEnum, De.restoringEnumType, Wire.descriptor, hbytes,
        List.cons_append, De.bind_run, De.setEnumType_run, hname, if_true, hread, De.pure_run]
      rfl
  | code v =>
      have hstart : Starts (fun code => code = .ulong ∨ code = .ulong0 ∨ code = .smallUlong)
          (Wire.u64 v) := .u64 (.inr (.inl rfl)) (.inr (.inr rfl)) (.inl rfl)
      have hread := parseU64 v { de with enumType := .none } suffix hnative helem rfl
      obtain ⟨code, rest, hbytes, hcode⟩ := hstart
      have hname := descriptorIsName_run helem code (rest ++ suffix) false (.inr ⟨rfl, hcode⟩)
      rw [hbytes, List.cons_append] at hread
      simp only [De.descriptor, De.deserializeEnum, De.restoringEnumType, Wire.descriptor, hbytes,
        List.cons_append, De.bind_run, De.setEnumType_run, hname, Bool.false_eq_true, if_false,
        hread, De.pure_run]
      rfl

/-- One element of a described value; the header that follows the descriptor of a described list
is not part of this. -/
theorem nextElement {α : Type} {d : De SliceReader α} {bytes : Bytes} {a : α}
    (h : Decodes e d bytes a) (de : Deserializer SliceReader) (suffix : Bytes)
    (hnative : de.nonNativeType = none) (helem : de.elemFormatCode = none) (henum : de.enumType = e)
    (access : De.DescribedAccess) (hcounter : access.counter < access.fieldCount)
    (hstart : Starts
      (fun code => code = .describedType → access.counter ≠ 0 ∨ de.structEncoding ≠ .describedList)
      bytes) :
    access.nextElement d (de.at (bytes ++ suffix))
      = .ok (some a, { access with counter := access.counter + 1 }) (de.at suffix) := by
  obtain ⟨code, rest, rfl, hcode⟩ := hstart
  have hrun := h de suffix hnative helem henum
  rw [List.cons_append] at hrun ⊢
  simp only [De.DescribedAccess.nextElement, ge_iff_le, UInt32.not_le.mpr hcounter, if_false,
    De.bind_run, De.peek_run, EncodingCodes.tryFrom_toU8, De.ofExcept_ok, De.pure_run]
  split
  next hmark =>
    -- the header of a described list follows its first element only
    have hplain : ¬(access.counter = 0 ∧ de.structEncoding = .describedList) := by
      rintro ⟨hfirst, hlist⟩
      exact (hcode rfl).elim (· hfirst) (· hlist)
    simp [De.attempt, hrun, De.DescribedAccess.announce, hplain]
  next => simp [hrun]

/-- A basic described value. -/
theorem described {α : Type} {v : Descriptor} {d : De SliceReader α} {bytes : Bytes} {a : α}
    (hlen : ∀ symbol, v = .name symbol → (utf8Bytes symbol.value).length ≤ u32MaxMinus4)
    (h : Decodes e d bytes a) (hstart : Starts (fun _ => True) bytes) :
    Decodes e (De.described d) (Wire.descriptor v ++ bytes) (v, a) := by
  intro de suffix hnative helem henum
  have hdescriptor := nextElement (descriptor hlen) { de with structEncoding := .describedBasic }
    (bytes ++ suffix) hnative helem henum { counter := 0, fieldCount := 2 } (by decide)
    (.descriptor fun _ => .inr (by simp))
  have hvalue := nextElement h { de with structEncoding := .describedBasic } suffix hnative helem
    henum { counter := 1, fieldCount := 2 } (by decide) (hstart.mono fun _ _ _ => .inl (by simp))
  refine De.withStructEncoding_run de _ suffix ?_
  rw [List.append_assoc]
  simp only [De.bind_run, if_true, hdescriptor, UInt32.zero_add, hvalue, De.pure_run]

end Decodes

end Fe2o3Amqp
