import Fe2o3Amqp.Serde.Value
import Fe2o3Amqp.Util.Except

/-!
# What the serializer writes

`Wire` gives the bytes of the primitive values and of compound values around their bodies, when
they are no elements of an array.  `Writes` says what a value writes whenever it is serialized
successfully by a serializer whose flags are clear, and which flag it leaves behind.
-/

namespace Fe2o3Amqp

namespace Wire

def bool (v : Bool) : Bytes :=
  [if v then EncodingCodes.booleanTrue.toU8 else EncodingCodes.booleanFalse.toU8]

def i32 (v : Int32) : Bytes :=
  if -128 ≤ v.toInt ∧ v.toInt ≤ 127 then [EncodingCodes.smallInt.toU8, v.toInt8.toUInt8]
  else EncodingCodes.int.toU8 :: BigEndian.encode 4 v.toUInt32.toNat

def i64 (v : Int64) : Bytes :=
  if -128 ≤ v.toInt ∧ v.toInt ≤ 127 then [EncodingCodes.smallLong.toU8, v.toInt8.toUInt8]
  else EncodingCodes.long.toU8 :: BigEndian.encode 8 v.toUInt64.toNat

def u32 (v : UInt32) : Bytes :=
  if v = 0 then [EncodingCodes.uint0.toU8]
  else if v.toNat ≤ 255 then [EncodingCodes.smallUint.toU8, v.toUInt8]
  else EncodingCodes.uint.toU8 :: BigEndian.encode 4 v.toNat

def u64 (v : UInt64) : Bytes :=
  if v = 0 then [EncodingCodes.ulong0.toU8]
  else if v.toNat ≤ 255 then [EncodingCodes.smallUlong.toU8, v.toUInt8]
  else EncodingCodes.ulong.toU8 :: BigEndian.encode 8 v.toNat

/-- A string, a symbol or a binary. -/
def sized (code8 code32 : EncodingCodes) (bytes : Bytes) : Bytes :=
  (if bytes.length ≤ u8MaxMinus1 then [code8.toU8, UInt8.ofNat bytes.length]
    else code32.toU8 :: BigEndian.encode 4 bytes.length) ++ bytes

def string (v : String) : Bytes := sized .str8 .str32 (utf8Bytes v)

def symbol (v : Symbol) : Bytes := sized .sym8 .sym32 (utf8Bytes v.value)

def binary (v : Bytes) : Bytes := sized .vbin8 .vbin32 v

/-- The header of a compound value and its body. -/
def compound (code8 code32 : EncodingCodes) (num : Nat) (buf : Bytes) : Bytes :=
  (if buf.length ≤ u8MaxMinus1 then
      [code8.toU8, UInt8.ofNat (buf.length + 1), UInt8.ofNat num]
    else code32.toU8 :: BigEndian.encode 4 (buf.length + 4) ++ BigEndian.encode 4 num) ++ buf

def list (num : Nat) (buf : Bytes) : Bytes :=
  if buf.length = 0 then [EncodingCodes.list0.toU8] else compound .list8 .list32 num buf

def map (num : Nat) (buf : Bytes) : Bytes := compound .map8 .map32 num buf

def array (num : Nat) (buf : Bytes) : Bytes := compound .array8 .array32 num buf

def descriptor : Descriptor → Bytes
  | .name v => EncodingCodes.describedType.toU8 :: symbol v
  | .code v => EncodingCodes.describedType.toU8 :: u64 v

theorem length_lt_compound (code8 code32 : EncodingCodes) (num : Nat) (buf : Bytes) :
    buf.length < (compound code8 code32 num buf).length := by
  simp only [compound]
  split
  · simp only [List.length_append, List.length_cons]
    omega
  · simp only [List.length_append, List.length_cons, BigEndian.length_encode]
    omega

theorem length_lt_list (num : Nat) (buf : Bytes) : buf.length < (list num buf).length := by
  simp only [list]
  split
  · simp_all
  · exact length_lt_compound _ _ _ _

end Wire

/-- The flags of the serializer are clear; the struct encodings above may be any. -/
structure Serializer.Neutral (se : Serializer) : Prop where
  nonNativeType : se.nonNativeType = none
  seqType : se.seqType = none
  isArrayElement : se.isArrayElement = .false

/-- The serializer after a value that wrote `bytes` and left a flag behind. -/
def Serializer.wrote (se : Serializer) (bytes : Bytes) (leaves : Option NonNativeType) :
    Serializer :=
  { se.writeAll bytes with nonNativeType := leaves }

/-- Whenever the value is serialized from clear flags, the bytes it writes have the property. -/
def Writes (t : Ser) (leaves : Option NonNativeType) (P : Bytes → Prop) : Prop :=
  ∀ se se' : Serializer, se.Neutral → t.serialize se = .ok se' →
    ∃ bytes, se' = se.wrote bytes leaves ∧ P bytes

/-- What `Writes` says of the bytes, when the flags the value leaves behind do not matter. -/
def Serializes (t : Ser) (P : Bytes → Prop) : Prop :=
  ∀ se se' : Serializer, se.Neutral → t.serialize se = .ok se' →
    ∃ bytes, se'.writer = se.writer ++ bytes ∧ P bytes

namespace Serializer

theorem neutral_new (writer : Bytes) : (new writer).Neutral := ⟨rfl, rfl, rfl⟩

theorem neutral_describedList (writer : Bytes) : (describedList writer).Neutral := ⟨rfl, rfl, rfl⟩

@[simp] theorem wrote_writer (se : Serializer) (bytes : Bytes) (leaves : Option NonNativeType) :
    (se.wrote bytes leaves).writer = se.writer ++ bytes := rfl

theorem Neutral.eq_mk {se : Serializer} (h : se.Neutral) :
    ∃ encodings writer, se = ⟨⟨none, none, encodings, .false⟩, writer⟩ := by
  obtain ⟨⟨nonNativeType, seqType, encodings, isArrayElement⟩, writer⟩ := se
  obtain ⟨hnonNative, hseq, hplain⟩ := h
  exact ⟨encodings, writer, by simp_all⟩

theorem Neutral.wrote {se : Serializer} (h : se.Neutral) (bytes : Bytes) :
    (se.wrote bytes none).Neutral := ⟨rfl, h.seqType, h.isArrayElement⟩

theorem Neutral.writeAll {se : Serializer} (h : se.Neutral) (bytes : Bytes) :
    se.writeAll bytes = se.wrote bytes none := by
  simp only [Serializer.wrote, ← h.nonNativeType]
  rfl

@[simp] theorem writeAll_writeAll (se : Serializer) (a b : Bytes) :
    (se.writeAll a).writeAll b = se.writeAll (a ++ b) := by
  simp [Serializer.writeAll]

theorem Neutral.writeAll_neutral {se : Serializer} (h : se.Neutral) (bytes : Bytes) :
    (se.writeAll bytes).Neutral := ⟨h.nonNativeType, h.seqType, h.isArrayElement⟩

theorem writeVariableHeader_eq {se se' : Serializer} {code8 code32 : EncodingCodes} {bytes : Bytes}
    (h : se.writeVariableHeader code8 code32 bytes.length = .ok se') :
    bytes.length ≤ u32MaxMinus4 ∧ se'.writeAll bytes = se.writeAll (Wire.sized code8 code32 bytes)
      := by
  simp only [writeVariableHeader] at h
  split at h
  next hlen =>
    cases h
    constructor
    · simp only [u8MaxMinus1, u32MaxMinus4] at *
      omega
    · simp [Wire.sized, hlen]
  next hlen =>
    split at h
    next hlong =>
      cases h
      exact ⟨hlong, by simp [Wire.sized, hlen]⟩
    next => cases h

theorem writeCompound_eq {se se' : Serializer} {code8 code32 : EncodingCodes} {num : Nat}
    {buf : Bytes} (h : se.writeCompound code8 code32 num buf .false = .ok se') :
    buf.length ≤ u32MaxMinus4 ∧ se' = se.writeAll (Wire.compound code8 code32 num buf) := by
  simp only [writeCompound] at h
  split at h
  next hlen =>
    cases h
    constructor
    · simp only [u8MaxMinus1, u32MaxMinus4] at *
      omega
    · simp [Wire.compound, hlen]
  next hlen =>
    split at h
    next hlong =>
      cases h
      exact ⟨hlong, by simp [Wire.compound, hlen]⟩
    next => cases h

theorem writeList_eq {se se' : Serializer} {num : Nat} {buf : Bytes}
    (h : se.writeList num buf .false = .ok se') :
    buf.length ≤ u32MaxMinus4 ∧ se' = se.writeAll (Wire.list num buf) := by
  simp only [writeList] at h
  split at h
  next hlen =>
    cases h
    simp [Wire.list, hlen]
  next hlen =>
    obtain ⟨hlong, rfl⟩ := writeCompound_eq h
    simp [Wire.list, hlen, hlong]

end Serializer

namespace Writes

variable {P Q : Bytes → Prop} {leaves : Option NonNativeType}

theorem serializes {t : Ser} (h : Writes t leaves P) : Serializes t P := by
  intro se se' hse ht
  obtain ⟨bytes, rfl, hP⟩ := h se se' hse ht
  exact ⟨bytes, rfl, hP⟩

theorem mono {t : Ser} (h : Writes t leaves P) (himp : ∀ bytes, P bytes → Q bytes) :
    Writes t leaves Q := by
  intro se se' hse ht
  obtain ⟨bytes, hse', hP⟩ := h se se' hse ht
  exact ⟨bytes, hse', himp bytes hP⟩

/-- A call that writes fixed bytes on a neutral serializer. -/
private theorem of_eq {t : Ser} {bytes : Bytes}
    (h : ∀ se : Serializer, se.Neutral → t.serialize se = .ok (se.writeAll bytes)) :
    Writes t none (· = bytes) := by
  intro se se' hse ht
  rw [h se hse, Except.ok.injEq] at ht
  exact ⟨bytes, by rw [← ht, hse.writeAll], rfl⟩

theorem bool (v : Bool) : Writes (Ser.bool v) none (· = Wire.bool v) :=
  of_eq fun se hse => by
    simp [Ser.serialize, Serializer.serializeBool, hse.isArrayElement, Wire.bool]

theorem i8 (v : Int8) :
    Writes (Ser.i8 v) none (· = EncodingCodes.byte.toU8 :: [v.toUInt8]) :=
  of_eq fun se hse => by
    simp [Ser.serialize, Serializer.serializeI8, Serializer.writeFixed, hse.isArrayElement]

theorem i16 (v : Int16) :
    Writes (Ser.i16 v) none
      (· = EncodingCodes.short.toU8 :: BigEndian.encode 2 v.toUInt16.toNat) :=
  of_eq fun se hse => by
    simp [Ser.serialize, Serializer.serializeI16, Serializer.writeFixed, hse.isArrayElement]

theorem i32 (v : Int32) : Writes (Ser.i32 v) none (· = Wire.i32 v) :=
  of_eq fun se hse => by
    simp only [Ser.serialize, Serializer.serializeI32, hse.isArrayElement, Wire.i32]
    split <;> rfl

theorem i64 (v : Int64) : Writes (Ser.i64 v) none (· = Wire.i64 v) :=
  of_eq fun se hse => by
    simp only [Ser.serialize, Serializer.serializeI64, hse.isArrayElement, hse.nonNativeType, Wire.i64]
    split <;> rfl

theorem u8 (v : UInt8) : Writes (Ser.u8 v) none (· = EncodingCodes.ubyte.toU8 :: [v]) :=
  of_eq fun se hse => by
    simp [Ser.serialize, Serializer.serializeU8, Serializer.writeFixed, hse.isArrayElement]

theorem u16 (v : UInt16) :
    Writes (Ser.u16 v) none (· = EncodingCodes.ushort.toU8 :: BigEndian.encode 2 v.toNat) :=
  of_eq fun se hse => by
    simp [Ser.serialize, Serializer.serializeU16, Serializer.writeFixed, hse.isArrayElement]

theorem serializeU32_eq {se : Serializer} (hse : se.Neutral) (v : UInt32) :
    se.serializeU32 v = se.writeAll (Wire.u32 v) := by
  simp only [Serializer.serializeU32, hse.isArrayElement, Wire.u32]
  split
  · rfl
  · split <;> rfl

theorem u32 (v : UInt32) : Writes (Ser.u32 v) none (· = Wire.u32 v) :=
  of_eq fun se hse => by rw [Ser.serialize, serializeU32_eq hse]

theorem unitVariant (index : UInt32) :
    Writes (Ser.unitVariant index) none (· = Wire.u32 index) :=
  of_eq fun se hse => by rw [Ser.serialize, serializeU32_eq hse]

theorem u64 (v : UInt64) : Writes (Ser.u64 v) none (· = Wire.u64 v) :=
  of_eq fun se hse => by
    simp only [Ser.serialize, Serializer.serializeU64, hse.isArrayElement, Wire.u64]
    split
    · rfl
    · split <;> rfl

theorem f32 (bits : UInt32) :
    Writes (Ser.f32 bits) none (· = EncodingCodes.float.toU8 :: BigEndian.encode 4 bits.toNat) :=
  of_eq fun se hse => by
    simp [Ser.serialize, Serializer.serializeF32, Serializer.writeFixed, hse.isArrayElement]

theorem f64 (bits : UInt64) :
    Writes (Ser.f64 bits) none (· = EncodingCodes.double.toU8 :: BigEndian.encode 8 bits.toNat) :=
  of_eq fun se hse => by
    simp [Ser.serialize, Serializer.serializeF64, Serializer.writeFixed, hse.isArrayElement]

theorem char (v : Char) :
    Writes (Ser.char v) none (· = EncodingCodes.char.toU8 :: BigEndian.encode 4 v.val.toNat) :=
  of_eq fun se hse => by
    simp [Ser.serialize, Serializer.serializeChar, Serializer.writeFixed, hse.isArrayElement]

theorem unit : Writes .unit none (· = [EncodingCodes.null.toU8]) :=
  of_eq fun se _ => by simp [Ser.serialize, Serializer.serializeUnit]

theorem ofNone : Writes .none none (· = [EncodingCodes.null.toU8]) :=
  of_eq fun se _ => by simp [Ser.serialize, Serializer.serializeUnit]

theorem ofSome {t : Ser} (h : Writes t leaves P) : Writes (.some t) leaves P := by
  intro se se' hse ht
  exact h se se' hse ht

theorem str (v : String) :
    Writes (.str v) none fun bytes =>
      (utf8Bytes v).length ≤ u32MaxMinus4 ∧ bytes = Wire.string v := by
  intro se se' hse ht
  simp only [Ser.serialize, Serializer.serializeStr, hse.isArrayElement, hse.nonNativeType] at ht
  obtain ⟨header, hheader, hret⟩ := Except.bind_eq_ok.mp ht
  cases hret
  obtain ⟨hlen, hwrite⟩ := Serializer.writeVariableHeader_eq hheader
  exact ⟨Wire.string v, by rw [hwrite, hse.writeAll, Wire.string], hlen, rfl⟩

theorem bytes (v : Bytes) :
    Writes (.bytes v) none fun bytes => v.length ≤ u32MaxMinus4 ∧ bytes = Wire.binary v := by
  intro se se' hse ht
  simp only [Ser.serialize, Serializer.serializeBytes, hse.isArrayElement, hse.nonNativeType] at ht
  obtain ⟨header, hheader, hret⟩ := Except.bind_eq_ok.mp ht
  cases hret
  obtain ⟨hlen, hwrite⟩ := Serializer.writeVariableHeader_eq hheader
  exact ⟨Wire.binary v, by rw [hwrite, hse.writeAll, Wire.binary], hlen, rfl⟩

/-- Writing a symbol resets the flag that announced it. -/
theorem symbol (v : Symbol) :
    Writes v.toSer none fun bytes =>
      (utf8Bytes v.value).length ≤ u32MaxMinus4 ∧ bytes = Wire.symbol v := by
  intro se se' hse ht
  obtain ⟨encodings, writer, rfl⟩ := hse.eq_mk
  simp only [Symbol.toSer, Ser.serialize, SizeSerializer.enterNewtype,
    Serializer.serializeStr, pure_bind] at ht
  obtain ⟨header, hheader, hret⟩ := Except.bind_eq_ok.mp ht
  cases hret
  obtain ⟨hlen, hwrite⟩ := Serializer.writeVariableHeader_eq hheader
  refine ⟨Wire.symbol v, ?_, hlen, rfl⟩
  change (header.writeAll (utf8Bytes v.value)).resetNonNativeType = _
  rw [hwrite]
  rfl

/-- The decimals and the uuid: the flag chooses the code and is reset. -/
private theorem fixedBytes {name : TypeName} {flag : NonNativeType} {code : EncodingCodes}
    (v : Bytes) (hflag : ∀ se : SizeSerializer, se.enterNewtype name
      = { se with nonNativeType := some flag })
    (hcode : ∀ se : Serializer, se.nonNativeType = some flag →
      se.serializeBytes v = .ok (se.writeFixed code v).resetNonNativeType) :
    Writes (.newtypeStruct name (.bytes v)) none (· = code.toU8 :: v) := by
  intro se se' hse ht
  simp only [Ser.serialize, hflag] at ht
  rw [hcode _ rfl, Except.ok.injEq] at ht
  refine ⟨code.toU8 :: v, ?_, rfl⟩
  rw [← ht]
  simp [Serializer.writeFixed, hse.isArrayElement, Serializer.resetNonNativeType,
    Serializer.wrote, Serializer.writeAll]

theorem decimal32 (v : Bytes) :
    Writes (.newtypeStruct .decimal32 (.bytes v)) none (· = EncodingCodes.decimal32.toU8 :: v) :=
  fixedBytes v (fun _ => rfl) fun se h => by simp [Serializer.serializeBytes, h]

theorem decimal64 (v : Bytes) :
    Writes (.newtypeStruct .decimal64 (.bytes v)) none (· = EncodingCodes.decimal64.toU8 :: v) :=
  fixedBytes v (fun _ => rfl) fun se h => by simp [Serializer.serializeBytes, h]

theorem decimal128 (v : Bytes) :
    Writes (.newtypeStruct .decimal128 (.bytes v)) none (· = EncodingCodes.decimal128.toU8 :: v) :=
  fixedBytes v (fun _ => rfl) fun se h => by simp [Serializer.serializeBytes, h]

theorem uuid (v : Bytes) :
    Writes (.newtypeStruct .uuid (.bytes v)) none (· = EncodingCodes.uuid.toU8 :: v) :=
  fixedBytes v (fun _ => rfl) fun se h => by simp [Serializer.serializeBytes, h]

/-- Writing a timestamp leaves the flag that announced it. -/
theorem timestamp (v : Int64) :
    Writes (.newtypeStruct .timestamp (.i64 v)) (some .timestamp)
      (· = EncodingCodes.timestamp.toU8 :: BigEndian.encode 8 v.toUInt64.toNat) := by
  intro se se' hse ht
  obtain ⟨encodings, writer, rfl⟩ := hse.eq_mk
  simp only [Ser.serialize, SizeSerializer.enterNewtype, Serializer.serializeI64,
    Serializer.writeFixed, Except.ok.injEq] at ht
  exact ⟨_, ht.symm, rfl⟩

/-! ## Compound values -/

/-- The elements of a list or a transparent vector, each written by a serializer of its own. -/
theorem elements {α : Type} (toSer : α → Ser) (P : α → Bytes → Prop) {vs : List α}
    {seqType : Option SequenceType} (hseq : seqType ≠ some .array)
    (h : ∀ v ∈ vs, Serializes (toSer v) (P v)) {num num' : Nat}
    {state state' : SeqSerializerState}
    (hrun : Ser.serializeElements seqType num state (vs.map toSer) = .ok (num', state')) :
    num' = num + vs.length ∧ ∃ pieces, List.Forall₂ P vs pieces ∧
      state'.intoBuffer = state.intoBuffer ++ pieces.flatten := by
  induction vs generalizing num state with
  | nil =>
      cases hrun
      exact ⟨rfl, [], .nil, by simp⟩
  | cons v vs ih =>
      have hmode : elementMode seqType num = .false := by
        cases seqType with
        | none => rfl
        | some type => cases type <;> first | rfl | exact absurd rfl hseq
      simp only [List.map_cons, Ser.serializeElements, hmode] at hrun
      obtain ⟨buf, hbuf, hrun⟩ := Except.bind_eq_ok.mp hrun
      obtain ⟨inner, hinner, hrun⟩ := Except.bind_eq_ok.mp hrun
      obtain ⟨piece, hwriter, hpiece⟩ := h v (by simp) _ _ (Serializer.neutral_new buf) hinner
      obtain ⟨hnum, pieces, hpieces, hstate⟩ := ih (fun v hv => h v (by simp [hv])) hrun
      refine ⟨by rw [hnum, List.length_cons]; omega, piece :: pieces, .cons hpiece hpieces, ?_⟩
      have hstart : buf = state.intoBuffer := by
        cases state with
        | init len =>
            cases len with
            | none => cases hbuf; rfl
            | some len =>
                obtain ⟨_, _, hret⟩ := Except.bind_eq_ok.mp hbuf
                cases hret
                rfl
        | buffer buf => cases hbuf; rfl
      rw [hstate, SeqSerializerState.intoBuffer, hwriter]
      simp [Serializer.new, hstart]

/-- A list. -/
theorem seq {α : Type} (toSer : α → Ser) (P : α → Bytes → Prop) {vs : List α} {len : Option Nat}
    (h : ∀ v ∈ vs, Serializes (toSer v) (P v)) :
    Writes (.seq len (vs.map toSer)) none fun bytes =>
      ∃ pieces, List.Forall₂ P vs pieces ∧ pieces.flatten.length ≤ u32MaxMinus4 ∧
        bytes = Wire.list vs.length pieces.flatten := by
  intro se se' hse ht
  simp only [Ser.serialize, hse.seqType] at ht
  obtain ⟨⟨num, state⟩, helements, hend⟩ := Except.bind_eq_ok.mp ht
  obtain ⟨hnum, pieces, hpieces, hstate⟩ := elements toSer P (by simp) h helements
  have hbuf : state.intoBuffer = pieces.flatten := by
    simpa [SeqSerializerState.intoBuffer] using hstate
  simp only [Serializer.endSeq, hse.seqType, hse.isArrayElement, hbuf, hnum, Nat.zero_add] at hend
  obtain ⟨hlen, rfl⟩ := Serializer.writeList_eq hend
  exact ⟨_, hse.writeAll _, pieces, hpieces, hlen, rfl⟩

/-- The entries of a map: the value is written by the serializer of the key, so the key must leave
no flag behind. -/
theorem entries {K V : Type} (key : K → Ser) (value : V → Ser) (P : K → Bytes → Prop)
    (Q : V → Bytes → Prop) {m : OrderedMap K V}
    (hkey : ∀ e ∈ m, Writes (key e.1) none (P e.1))
    (hvalue : ∀ e ∈ m, Serializes (value e.2) (Q e.2)) {num num' : Nat}
    {state state' : MapSerializerState}
    (hrun : Ser.serializeEntries num state (m.map fun e => (key e.1, value e.2))
      = .ok (num', state'))
    (hstate : ∀ len buf, state ≠ .keyInit len buf) :
    num' = num + 2 * m.length ∧ ∃ pieces : List (Bytes × Bytes),
      List.Forall₂ (fun e piece => P e.1 piece.1 ∧ Q e.2 piece.2) m pieces ∧
      state'.intoBuffer = state.intoBuffer ++ (pieces.map fun piece => piece.1 ++ piece.2).flatten
      := by
  induction m generalizing num state with
  | nil =>
      cases hrun
      exact ⟨rfl, [], .nil, by simp⟩
  | cons e m ih =>
      simp only [List.map_cons, Ser.serializeEntries] at hrun
      obtain ⟨buf, hbuf, hrun⟩ := Except.bind_eq_ok.mp hrun
      obtain ⟨inner, hinner, hvalues⟩ := Except.bind_eq_ok.mp hrun
      obtain ⟨inner', hinner', hrest⟩ := Except.bind_eq_ok.mp hvalues
      have hneutral := Serializer.neutral_new buf
      obtain ⟨keyPiece, rfl, hkeyPiece⟩ := hkey e (by simp) _ _ hneutral hinner
      obtain ⟨valuePiece, hwriter, hvaluePiece⟩ :=
        hvalue e (by simp) _ _ (hneutral.wrote keyPiece) hinner'
      obtain ⟨hnum, pieces, hpieces, hbuffer⟩ :=
        ih (fun e he => hkey e (by simp [he])) (fun e he => hvalue e (by simp [he])) hrest (by simp)
      refine ⟨by rw [hnum, List.length_cons]; omega, (keyPiece, valuePiece) :: pieces,
        .cons ⟨hkeyPiece, hvaluePiece⟩ hpieces, ?_⟩
      have hstart : buf = state.intoBuffer := by
        cases state with
        | init len =>
            cases len with
            | none => cases hbuf; rfl
            | some len =>
                obtain ⟨_, _, hret⟩ := Except.bind_eq_ok.mp hbuf
                obtain ⟨_, _, hret⟩ := Except.bind_eq_ok.mp hret
                cases hret
                rfl
        | keyInit len buf => exact absurd rfl (hstate len buf)
        | buffer buf => cases hbuf; rfl
      rw [hbuffer, MapSerializerState.intoBuffer, hwriter]
      simp [Serializer.new, hstart]

/-- A map. -/
theorem map {K V : Type} (key : K → Ser) (value : V → Ser) (P : K → Bytes → Prop)
    (Q : V → Bytes → Prop) {m : OrderedMap K V} {len : Option Nat}
    (hkey : ∀ e ∈ m, Writes (key e.1) none (P e.1))
    (hvalue : ∀ e ∈ m, Serializes (value e.2) (Q e.2)) :
    Writes (.map len (m.map fun e => (key e.1, value e.2))) none fun bytes =>
      ∃ pieces : List (Bytes × Bytes),
        List.Forall₂ (fun e piece => P e.1 piece.1 ∧ Q e.2 piece.2) m pieces ∧
        (pieces.map fun piece => piece.1 ++ piece.2).flatten.length ≤ u32MaxMinus4 ∧
        bytes = Wire.map (2 * m.length) (pieces.map fun piece => piece.1 ++ piece.2).flatten := by
  intro se se' hse ht
  simp only [Ser.serialize, hse.isArrayElement] at ht
  obtain ⟨⟨num, state⟩, hentries, hend⟩ := Except.bind_eq_ok.mp ht
  obtain ⟨hnum, pieces, hpieces, hstate⟩ := entries key value P Q hkey hvalue hentries (by simp)
  have hbuf : state.intoBuffer = (pieces.map fun piece => piece.1 ++ piece.2).flatten := by
    simpa [MapSerializerState.intoBuffer] using hstate
  simp only [Serializer.writeMap, hbuf, hnum, Nat.zero_add] at hend
  obtain ⟨hlen, rfl⟩ := Serializer.writeCompound_eq hend
  exact ⟨_, hse.writeAll _, pieces, hpieces, hlen, rfl⟩

theorem descriptor (v : Descriptor) :
    Writes v.toSer none fun bytes =>
      (∀ symbol, v = .name symbol → (utf8Bytes symbol.value).length ≤ u32MaxMinus4) ∧
        bytes = Wire.descriptor v := by
  intro se se' hse ht
  have hmark := hse.writeAll_neutral [EncodingCodes.describedType.toU8]
  cases v with
  | name v =>
      obtain ⟨bytes, rfl, hlen, rfl⟩ := symbol v _ _ hmark ht
      refine ⟨Wire.descriptor (.name v), ?_, by simpa using hlen, rfl⟩
      simp [Serializer.wrote, Serializer.writeAll, Wire.descriptor]
  | code v =>
      obtain ⟨bytes, rfl, rfl⟩ := u64 v _ _ hmark ht
      refine ⟨Wire.descriptor (.code v), ?_, by simp, rfl⟩
      simp [Serializer.wrote, Serializer.writeAll, Wire.descriptor]

/-- A basic described value: the value follows the descriptor. -/
theorem described (descriptor' : Descriptor) {t : Ser} (h : Writes t leaves P) :
    Writes (describedToSer descriptor' t) leaves fun bytes =>
      (∀ symbol, descriptor' = .name symbol → (utf8Bytes symbol.value).length ≤ u32MaxMinus4) ∧
        ∃ value, P value ∧ bytes = Wire.descriptor descriptor' ++ value := by
  intro se se' hse ht
  simp only [describedToSer, Ser.serialize, SizeSerializer.enterStruct,
    SizeSerializer.pushEncoding, Ser.serializeStructFields] at ht
  obtain ⟨⟨se₃, count, buf⟩, hfields, hend⟩ := Except.bind_eq_ok.mp ht
  obtain ⟨se₁, hdescriptor, hfields⟩ := Except.bind_eq_ok.mp hfields
  have hpushed : (⟨⟨se.nonNativeType, se.seqType, .describedBasic :: se.structEncodings,
      se.isArrayElement⟩, se.writer⟩ : Serializer).Neutral :=
    ⟨hse.nonNativeType, hse.seqType, hse.isArrayElement⟩
  obtain ⟨bytes, rfl, hlen, rfl⟩ := descriptor descriptor' _ _ hpushed hdescriptor
  simp only [Serializer.wrote, Serializer.writeAll, SizeSerializer.structEncoding,
    List.headD_cons] at hfields
  obtain ⟨se₂, hvalue, hret⟩ := Except.bind_eq_ok.mp hfields
  cases hret
  obtain ⟨value, rfl, hP⟩ := h _ _ (hpushed.wrote _) hvalue
  simp only [Serializer.wrote, Serializer.writeAll, Serializer.endStruct,
    SizeSerializer.structEncoding, List.headD_cons, Except.ok.injEq] at hend
  refine ⟨Wire.descriptor descriptor' ++ value, ?_, hlen, value, hP, rfl⟩
  rw [← hend]
  simp [Serializer.popEncoding, SizeSerializer.popEncoding, Serializer.wrote,
    Serializer.writeAll]

end Writes

namespace Serializes

variable {P Q : Bytes → Prop} {t : Ser}

theorem mono (h : Serializes t P) (himp : ∀ bytes, P bytes → Q bytes) : Serializes t Q := by
  intro se se' hse ht
  obtain ⟨bytes, hwriter, hP⟩ := h se se' hse ht
  exact ⟨bytes, hwriter, himp bytes hP⟩

theorem ofSome (h : Serializes t P) : Serializes (.some t) P := by
  intro se se' hse ht
  rw [Ser.serialize_some] at ht
  exact h se se' hse ht

/-- What `to_vec` returns. -/
theorem toVec (h : Serializes t P) {bytes : Bytes} (ht : Fe2o3Amqp.toVec t = .ok bytes) :
    P bytes := by
  obtain ⟨se, hse, hret⟩ := Except.bind_eq_ok.mp ht
  obtain ⟨written, hwriter, hP⟩ := h _ _ (Serializer.neutral_new []) hse
  cases hret
  rw [hwriter]
  exact hP

end Serializes

end Fe2o3Amqp
