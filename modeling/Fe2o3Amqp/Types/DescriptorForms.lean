import Fe2o3Amqp.Types.Message
import Fe2o3Amqp.Types.RoundTrip

/-!
# The forms of a descriptor

A described type has a name and a number, and each of them has a short and a long encoding.  A reader
takes any of the four, but what it sees when it only looks at the descriptor is the name or the number.
-/

namespace Fe2o3Amqp

/-! ## Looking at a descriptor and taking it -/

/-- The bytes are seen as the descriptor and are read as it. -/
structure Announces (mark : Bytes) (descriptor : Descriptor) : Prop where
  starts : ∃ tail, mark = EncodingCodes.describedType.toU8 :: tail
  looked : ∀ (de : Deserializer SliceReader) (rest : Bytes), de.elemFormatCode = none →
    de.enumType = .none → ∃ ident : Ident, ident.nameOrCode = descriptor ∧
      De.deserializeIdentifier (de.at (mark ++ rest)) = .ok ident (de.at (mark ++ rest))
  taken : ∀ e, Decodes e De.descriptor mark descriptor

/-- The number in its shortest form. -/
theorem Announces.code (code : UInt64) : Announces (Wire.descriptor (.code code)) (.code code) where
  starts := ⟨_, rfl⟩
  looked de rest helem henum :=
    ⟨.u64 code, rfl, De.deserializeIdentifier_descriptor_run helem henum code rest⟩
  taken e := .descriptor (by simp)

/-- The bytes start with the descriptor in one of its forms. -/
def Announced (descriptor : Descriptor) (bytes : Bytes) : Prop :=
  ∃ mark rest, Announces mark descriptor ∧ bytes = mark ++ rest

namespace Announced

variable {descriptor : Descriptor} {bytes : Bytes}

theorem ofCode {code : UInt64} (h : ∃ content, bytes = Wire.descriptor (.code code) ++ content) :
    Announced (.code code) bytes := by
  obtain ⟨content, rfl⟩ := h
  exact ⟨_, content, .code code, rfl⟩

theorem append (h : Announced descriptor bytes) (rest : Bytes) :
    Announced descriptor (bytes ++ rest) := by
  obtain ⟨mark, content, hmark, rfl⟩ := h
  exact ⟨mark, content ++ rest, hmark, by rw [List.append_assoc]⟩

theorem starts (h : Announced descriptor bytes) :
    ∃ tail, bytes = EncodingCodes.describedType.toU8 :: tail := by
  obtain ⟨_, rest, hmark, rfl⟩ := h
  obtain ⟨tail, rfl⟩ := hmark.starts
  exact ⟨tail ++ rest, rfl⟩

theorem looked (h : Announced descriptor bytes) {de : Deserializer SliceReader}
    (helem : de.elemFormatCode = none) (henum : de.enumType = .none) :
    ∃ ident : Ident, ident.nameOrCode = descriptor ∧
      De.deserializeIdentifier (de.at bytes) = .ok ident (de.at bytes) := by
  obtain ⟨mark, rest, hmark, rfl⟩ := h
  exact hmark.looked de rest helem henum

end Announced

namespace De

variable {de : Deserializer SliceReader}

theorem deserializeIdentifier_described_run (helem : de.elemFormatCode = none)
    (henum : de.enumType = .none) {bytes : Bytes} {ident : Ident}
    (h : parseDescribedIdentifier (de.at (EncodingCodes.describedType.toU8 :: bytes)) =
      .ok ident (de.at (EncodingCodes.describedType.toU8 :: bytes))) :
    deserializeIdentifier (de.at (EncodingCodes.describedType.toU8 :: bytes)) =
      .ok ident (de.at (EncodingCodes.describedType.toU8 :: bytes)) := by
  have hlook : getElemCodeOrPeekByte "" (de.at (EncodingCodes.describedType.toU8 :: bytes))
      = .ok EncodingCodes.describedType.toU8 (de.at (EncodingCodes.describedType.toU8 :: bytes)) := by
    simp [helem]
  simp [deserializeIdentifier, henum, hlook, h]

/-- The format code of the descriptor. -/
theorem peekBytes_mark (second : EncodingCodes) (rest : Bytes) :
    peekBytes 2 "parse_described_identifier"
        (de.at (EncodingCodes.describedType.toU8 :: second.toU8 :: rest))
      = .ok [EncodingCodes.describedType.toU8, second.toU8]
          (de.at (EncodingCodes.describedType.toU8 :: second.toU8 :: rest)) :=
  peekBytes_run de [EncodingCodes.describedType.toU8, second.toU8] rest _ rfl

end De

/-- A number that is taken as a descriptor. -/
theorem Decodes.descriptor_code {code : EncodingCodes} {rest : Bytes} {v : UInt64}
    (hcode : code = .ulong ∨ code = .ulong0 ∨ code = .smallUlong)
    (h : Decodes .none De.parseU64 (code.toU8 :: rest) v) (e : EnumType) :
    Decodes e De.descriptor (EncodingCodes.describedType.toU8 :: code.toU8 :: rest) (.code v) := by
  intro de suffix hnative helem henum
  have hread := h { de with enumType := .none } suffix hnative helem rfl
  have hname := descriptorIsName_run helem code (rest ++ suffix) false (.inr ⟨rfl, hcode⟩)
  rw [List.cons_append] at hread
  simp only [De.descriptor, De.deserializeEnum, De.restoringEnumType, List.cons_append, De.bind_run,
    De.setEnumType_run, hname, Bool.false_eq_true, if_false, hread, De.pure_run]
  rfl

/-- A symbol that is taken as a descriptor. -/
theorem Decodes.descriptor_name {code : EncodingCodes} {rest : Bytes} {v : Symbol}
    (hcode : code = .sym32 ∨ code = .sym8) (h : Decodes .none De.symbol (code.toU8 :: rest) v)
    (e : EnumType) :
    Decodes e De.descriptor (EncodingCodes.describedType.toU8 :: code.toU8 :: rest) (.name v) := by
  intro de suffix hnative helem henum
  have hread := h { de with enumType := .none } suffix hnative helem rfl
  have hname := descriptorIsName_run helem code (rest ++ suffix) true (.inl ⟨rfl, hcode⟩)
  rw [List.cons_append] at hread
  simp only [De.descriptor, De.deserializeEnum, De.restoringEnumType, List.cons_append, De.bind_run,
    De.setEnumType_run, hname, if_true, hread, De.pure_run]
  rfl

/-- Announcing a symbol and reading it clears the flag again. -/
theorem Decodes.symbol_of_parseSymbol {e : EnumType} {bytes : Bytes} {v : Symbol}
    (h : Decodes e De.parseSymbol bytes v.value) : Decodes e De.symbol bytes v := by
  intro de suffix hnative helem henum
  have hparse := h de suffix hnative helem henum
  simp [De.symbol, De.deserializeString, Deserializer.nonNativeType_none hnative, hparse]

/-! ## The forms of a number and of a name -/

/-- The number in eight bytes. -/
theorem Announces.ulong (code : UInt64) :
    Announces (EncodingCodes.describedType.toU8 :: EncodingCodes.ulong.toU8 ::
      BigEndian.encode 8 code.toNat) (.code code) where
  starts := ⟨_, rfl⟩
  looked de rest helem henum := by
    refine ⟨.u64 code, rfl, De.deserializeIdentifier_described_run helem henum ?_⟩
    have hpeek := De.peekBytes_run de (EncodingCodes.describedType.toU8 ::
      EncodingCodes.ulong.toU8 :: BigEndian.encode 8 code.toNat) rest "" (n := 10) (by simp)
    simp only [List.cons_append] at hpeek
    simp [De.parseDescribedIdentifier, De.peekBytes_mark, hpeek]
  taken e := by
    refine .descriptor_code (.inl rfl) ?_ e
    intro de suffix _ helem _
    simp [De.parseU64, helem]

/-- The number in one byte. -/
theorem Announces.smallUlong {code : UInt64} (hzero : code ≠ 0) (h : code.toNat ≤ 255) :
    Announces [EncodingCodes.describedType.toU8, EncodingCodes.smallUlong.toU8, code.toUInt8]
      (.code code) := by
  have hmark : Wire.descriptor (.code code) =
      [EncodingCodes.describedType.toU8, EncodingCodes.smallUlong.toU8, code.toUInt8] := by
    simp only [Wire.descriptor, Wire.u64, if_neg hzero, if_pos h]
  exact hmark ▸ .code code

/-- The name with its length in one byte. -/
theorem Announces.sym8 {name : String} (h : (utf8Bytes name).length ≤ u8MaxMinus1) :
    Announces (EncodingCodes.describedType.toU8 :: EncodingCodes.sym8.toU8 ::
      UInt8.ofNat (utf8Bytes name).length :: utf8Bytes name) (.name ⟨name⟩) where
  starts := ⟨_, rfl⟩
  looked de rest helem henum := by
    refine ⟨.str name, rfl, De.deserializeIdentifier_described_run helem henum ?_⟩
    have hlen : (UInt8.ofNat (utf8Bytes name).length).toNat = (utf8Bytes name).length :=
      UInt8.toNat_ofNat_of_lt' (Nat.lt_of_le_of_lt h (by decide))
    have hsize := De.peekBytes_run de [EncodingCodes.describedType.toU8,
      EncodingCodes.sym8.toU8, UInt8.ofNat (utf8Bytes name).length]
      (utf8Bytes name ++ rest) "" (n := 3) rfl
    have hpeek := De.peekBytes_run de (EncodingCodes.describedType.toU8 ::
      EncodingCodes.sym8.toU8 :: UInt8.ofNat (utf8Bytes name).length :: utf8Bytes name)
      rest "" (n := 3 + (utf8Bytes name).length) (by simp; omega)
    simp only [List.cons_append, List.nil_append] at hpeek hsize
    simp [De.parseDescribedIdentifier, De.peekBytes_mark, hpeek, hsize, hlen, De.stringFromUtf8_run]
  taken e := by
    refine .descriptor_name (.inr rfl) (.symbol_of_parseSymbol ?_) e
    intro de suffix _ helem _
    simp [De.parseSymbol, helem, De.readSmallString_run de suffix _ name h]

/-- The name with its length in four bytes. -/
theorem Announces.sym32 {name : String} (h : (utf8Bytes name).length ≤ u8MaxMinus1) :
    Announces (EncodingCodes.describedType.toU8 :: EncodingCodes.sym32.toU8 ::
      (BigEndian.encode 4 (utf8Bytes name).length ++ utf8Bytes name)) (.name ⟨name⟩) where
  starts := ⟨_, rfl⟩
  looked de rest helem henum := by
    refine ⟨.str name, rfl, De.deserializeIdentifier_described_run helem henum ?_⟩
    have hlen : BigEndian.decode (BigEndian.encode 4 (utf8Bytes name).length)
        = (utf8Bytes name).length :=
      BigEndian.decode_encode_of_lt (Nat.lt_of_le_of_lt h (by decide))
    have hsize := De.peekBytes_run de (EncodingCodes.describedType.toU8 ::
      EncodingCodes.sym32.toU8 :: BigEndian.encode 4 (utf8Bytes name).length)
      (utf8Bytes name ++ rest) "" (n := 6) (by simp)
    have hpeek := De.peekBytes_run de (EncodingCodes.describedType.toU8 ::
      EncodingCodes.sym32.toU8 :: (BigEndian.encode 4 (utf8Bytes name).length
        ++ utf8Bytes name)) rest "" (n := 6 + (utf8Bytes name).length) (by simp; omega)
    have hdrop : List.drop 4 (BigEndian.encode 4 (utf8Bytes name).length
        ++ utf8Bytes name) = utf8Bytes name := List.drop_left' (by simp)
    simp only [List.cons_append, List.append_assoc] at hpeek hsize
    simp [De.parseDescribedIdentifier, De.peekBytes_mark, hpeek, hsize, hlen, hdrop,
      De.stringFromUtf8_run]
  taken e := by
    refine .descriptor_name (.inl rfl) (.symbol_of_parseSymbol ?_) e
    intro de suffix _ helem _
    have hlen : (utf8Bytes name).length ≤ u32MaxMinus4 := h.trans (by decide)
    simp [De.parseSymbol, helem, De.readString_run de suffix name hlen]

/-! ## What follows the descriptor -/

/-- The two descriptors of a type. -/
def Descriptor.OfType (name : String) (code : UInt64) (descriptor : Descriptor) : Prop :=
  descriptor = .name ⟨name⟩ ∨ descriptor = .code code

/-- The visitor goes on with what follows the descriptor, whichever form it had. -/
theorem Announces.visit_run {mark : Bytes} {descriptor : Descriptor} (h : Announces mark descriptor)
    {name : String} {code : UInt64} (htype : descriptor.OfType name code) {fieldCount : UInt32}
    (hcount : 0 < fieldCount) {de : Deserializer SliceReader} (hnative : de.nonNativeType = none)
    (helem : de.elemFormatCode = none) (rest : Bytes) :
    VisitSeq.descriptor name code { counter := 0, fieldCount } (de.at (mark ++ rest))
      = (do
          let access ← De.DescribedAccess.announce { counter := 0, fieldCount }
          return ((), { access with counter := access.counter + 1 })) (de.at rest) := by
  have hread := h.taken de.enumType de rest hnative helem rfl
  obtain ⟨tail, rfl⟩ := h.starts
  rw [List.cons_append] at hread ⊢
  simp only [VisitSeq.descriptor, VisitSeq.bind_run, VisitSeq.nextElement,
    De.DescribedAccess.nextElement, ge_iff_le, UInt32.not_le.mpr hcount, if_false, De.bind_run,
    De.peek_run, EncodingCodes.tryFrom_toU8, De.ofExcept_ok, De.pure_run, De.attempt, hread]
  cases De.DescribedAccess.announce { counter := 0, fieldCount } (de.at rest) with
  | ok access de' =>
      rcases htype with rfl | rfl
      · simp only [ne_eq, not_true_eq_false, if_false, VisitSeq.pure_run]
      · simp only [ne_eq, not_true_eq_false, if_false, VisitSeq.pure_run]
  | error failure de' => rfl

/-- The program reads a value of the type alike whichever form the descriptor has. -/
def AnyForm {α : Type} (name : String) (code : UInt64) (d : De SliceReader α) : Prop :=
  ∀ (mark mark' : Bytes) (descriptor descriptor' : Descriptor), Announces mark descriptor →
    Announces mark' descriptor' → descriptor.OfType name code → descriptor'.OfType name code →
      ∀ (de : Deserializer SliceReader) (rest : Bytes), de.nonNativeType = none →
        de.elemFormatCode = none → d (de.at (mark ++ rest)) = d (de.at (mark' ++ rest))

theorem AnyForm.basic {α : Type} (name : String) (code : UInt64) (field : De SliceReader α) :
    AnyForm name code (De.basic name code field) := by
  intro mark mark' descriptor descriptor' h h' htype htype' de rest hnative helem
  have hmark (bytes : Bytes) : { de.at bytes with structEncoding := .describedBasic }
      = { de with structEncoding := .describedBasic }.at bytes := rfl
  have hcount : (0 : UInt32) < 2 := by decide
  simp only [De.basic, De.deserializeTupleStruct, De.bind_run, De.modify_run, hmark, if_true,
    StateT.run', De.map_run, VisitSeq.bind_run]
  rw [h.visit_run htype hcount (by exact hnative) (by exact helem),
    h'.visit_run htype' hcount (by exact hnative) (by exact helem)]

theorem AnyForm.composite {α : Type} (name : String) (code : UInt64)
    (fields : VisitSeq SliceReader α) : AnyForm name code (De.composite name code fields) := by
  intro mark mark' descriptor descriptor' h h' htype htype' de rest hnative helem
  have hmark (bytes : Bytes) : { de.at bytes with structEncoding := .describedList }
      = { de with structEncoding := .describedList }.at bytes := rfl
  have hcount : (0 : UInt32) < 1 := by decide
  simp only [De.composite, De.deserializeStruct, De.withStructEncoding, hmark, StateT.run',
    De.map_run, VisitSeq.bind_run, reduceCtorEq, if_false]
  rw [h.visit_run htype hcount (by exact hnative) (by exact helem),
    h'.visit_run htype' hcount (by exact hnative) (by exact helem)]
  rfl

/-! ## The sections -/

/-- The sections of a message. -/
inductive SectionKind where
  | header | deliveryAnnotations | messageAnnotations | properties | applicationProperties
  | data | sequence | value | footer
deriving DecidableEq, Repr

namespace SectionKind

def name : SectionKind → String
  | .header => "amqp:header:list"
  | .deliveryAnnotations => "amqp:delivery-annotations:map"
  | .messageAnnotations => "amqp:message-annotations:map"
  | .properties => "amqp:properties:list"
  | .applicationProperties => "amqp:application-properties:map"
  | .data => "amqp:data:binary"
  | .sequence => "amqp:amqp-sequence:list"
  | .value => "amqp:amqp-value:*"
  | .footer => "amqp:footer:map"

def code : SectionKind → UInt64
  | .header => 0x70
  | .deliveryAnnotations => 0x71
  | .messageAnnotations => 0x72
  | .properties => 0x73
  | .applicationProperties => 0x74
  | .data => 0x75
  | .sequence => 0x76
  | .value => 0x77
  | .footer => 0x78

/-- The name of the section in bytes. -/
def nameBytes (kind : SectionKind) : Bytes := utf8Bytes kind.name

theorem length_nameBytes (kind : SectionKind) : kind.nameBytes.length ≤ u8MaxMinus1 := by
  cases kind <;> decide +kernel

end SectionKind

/-- The encodings of a descriptor. -/
inductive DescriptorForm where
  | smallUlong | ulong | sym8 | sym32
deriving DecidableEq, Repr

namespace DescriptorForm

def isName : DescriptorForm → Bool
  | .smallUlong | .ulong => false
  | .sym8 | .sym32 => true

/-- The bytes behind the mark of a described value. -/
def encodeBody (kind : SectionKind) : DescriptorForm → Bytes
  | .smallUlong => [EncodingCodes.smallUlong.toU8, kind.code.toUInt8]
  | .ulong => EncodingCodes.ulong.toU8 :: BigEndian.encode 8 kind.code.toNat
  | .sym8 => EncodingCodes.sym8.toU8 :: UInt8.ofNat kind.nameBytes.length :: kind.nameBytes
  | .sym32 =>
      EncodingCodes.sym32.toU8 :: (BigEndian.encode 4 kind.nameBytes.length ++ kind.nameBytes)

def encode (form : DescriptorForm) (kind : SectionKind) : Bytes :=
  EncodingCodes.describedType.toU8 :: form.encodeBody kind

/-- What a reader sees of the descriptor. -/
def descriptor (form : DescriptorForm) (kind : SectionKind) : Descriptor :=
  if form.isName then .name ⟨kind.name⟩ else .code kind.code

/-- Every form announces the section. -/
theorem announces (form : DescriptorForm) (kind : SectionKind) :
    Announces (form.encode kind) (form.descriptor kind) := by
  cases form with
  | smallUlong => exact .smallUlong (by cases kind <;> decide) (by cases kind <;> decide)
  | ulong => exact .ulong kind.code
  | sym8 => exact .sym8 kind.length_nameBytes
  | sym32 => exact .sym32 kind.length_nameBytes

theorem descriptor_ofType (form : DescriptorForm) (kind : SectionKind) :
    (form.descriptor kind).OfType kind.name kind.code := by
  cases form with
  | smallUlong | ulong => exact .inr rfl
  | sym8 | sym32 => exact .inl rfl

/-- A reader tells two sections apart by the kind and by whether the name or the number is given. -/
theorem descriptor_eq_iff (form form' : DescriptorForm) (kind kind' : SectionKind) :
    form.descriptor kind = form'.descriptor kind' ↔ kind = kind' ∧ form.isName = form'.isName := by
  have hname : kind.name = kind'.name ↔ kind = kind' := by
    cases kind <;> cases kind' <;> decide
  have hcode : kind.code = kind'.code ↔ kind = kind' := by
    cases kind <;> cases kind' <;> decide
  simp only [descriptor]
  cases form.isName <;> cases form'.isName <;> simp [hname, hcode]

end DescriptorForm

end Fe2o3Amqp
