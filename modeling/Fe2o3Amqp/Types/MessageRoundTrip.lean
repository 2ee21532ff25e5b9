import Fe2o3Amqp.Types.DescriptorForms

/-!
# Round trip of messages

The sections of a message are read back one by one.  A batch of body sections ends where the
descriptor changes, so what follows it must be nothing or a section of another kind; every other
section is read wherever it stands.
-/

namespace Fe2o3Amqp

/-! ## What the sections write -/

theorem Descriptor.serialize_code {se : Serializer} (hplain : se.isArrayElement = .false)
    (code : UInt64) :
    (Descriptor.code code).toSer.serialize se
      = .ok (se.writeAll (Wire.descriptor (.code code))) := by
  have hmark : (se.writeAll [EncodingCodes.describedType.toU8]).isArrayElement = .false := hplain
  simp only [Descriptor.toSer, Ser.serialize, Serializer.serializeU64, hmark, Wire.descriptor,
    Wire.u64]
  split
  · simp
  · split <;> simp

/-- What a section writes, from any place in a message: its own encoding.  A batch leaves the
sequence type behind, which the sections after it do not look at. -/
def WritesSection (t : Ser) (P : Bytes → Prop) : Prop :=
  ∀ se se' : Serializer, se.nonNativeType = none → se.isArrayElement = .false →
    t.serialize se = .ok se' →
      ∃ bytes seqType, se' = { se.writeAll bytes with seqType } ∧ toVec t = .ok bytes ∧ P bytes

theorem WritesSection.mono {t : Ser} {P Q : Bytes → Prop} (h : WritesSection t P)
    (himp : ∀ bytes, P bytes → Q bytes) : WritesSection t Q := by
  intro se se' hnative hplain ht
  obtain ⟨bytes, seqType, hse', hvec, hP⟩ := h se se' hnative hplain ht
  exact ⟨bytes, seqType, hse', hvec, himp bytes hP⟩

/-- The content of a basic section is buffered by a serializer of its own. -/
theorem basicToSer_serialize {se : Serializer} (hplain : se.isArrayElement = .false)
    (code : UInt64) (t : Ser) :
    (basicToSer code t).serialize se = (do
      let content ← toVec t
      return se.writeAll (Wire.descriptor (.code code) ++ content)) := by
  obtain ⟨⟨nonNativeType, seqType, encodings, isArrayElement⟩, writer⟩ := se
  cases hplain
  have hdescriptor := @Descriptor.serialize_code
    ⟨⟨nonNativeType, seqType, .describedBasic :: encodings, .false⟩, writer⟩ rfl code
  simp only [basicToSer, Ser.serialize, SizeSerializer.enterTupleStruct,
    SizeSerializer.pushEncoding, Ser.serializeTupleStructFields, true_or, decide_true, if_true,
    hdescriptor, toVec, bind, Except.bind, Serializer.writeAll, SizeSerializer.structEncoding,
    List.headD_cons, Bool.false_eq_true, if_false]
  cases hinner : t.serialize (Serializer.new []) with
  | error failure =>
      simp only [Serializer.new, SizeSerializer.new] at hinner ⊢
      simp only [hinner]
  | ok inner =>
      simp only [Serializer.new, SizeSerializer.new] at hinner ⊢
      simp [hinner, Serializer.endTupleStruct, SizeSerializer.structEncoding,
        Serializer.popEncoding, SizeSerializer.popEncoding, Serializer.writeAll, pure, Except.pure]

theorem WritesSection.basic {t : Ser} {P : Bytes → Prop} (h : Serializes t P) (code : UInt64) :
    WritesSection (basicToSer code t) fun bytes =>
      ∃ content, P content ∧ bytes = Wire.descriptor (.code code) ++ content := by
  intro se se' _ hplain ht
  rw [basicToSer_serialize hplain] at ht
  obtain ⟨content, hcontent, hret⟩ := Except.bind_eq_ok.mp ht
  cases hret
  have hvec : toVec (basicToSer code t) = .ok (Wire.descriptor (.code code) ++ content) := by
    have hnew : (Serializer.new []).isArrayElement = .false := rfl
    simp only [toVec, basicToSer_serialize hnew]
    simp only [toVec] at hcontent
    rw [hcontent]
    rfl
  exact ⟨_, se.seqType, rfl, hvec, content, h.toVec hcontent, rfl⟩

theorem WritesSection.serializes {t : Ser} {P : Bytes → Prop} (h : WritesSection t P) :
    Serializes t P := by
  intro se se' hse ht
  obtain ⟨bytes, _, rfl, -, hP⟩ := h se se' hse.nonNativeType hse.isArrayElement ht
  exact ⟨bytes, rfl, hP⟩

/-- A batch is its elements, one after another. -/
theorem WritesSection.batch {α : Type} {toSer : α → Ser} {P : α → Bytes → Prop} {vs : List α}
    (h : ∀ v ∈ vs, Serializes (toSer v) (P v)) :
    WritesSection (transparentVecToSer toSer vs) fun bytes =>
      ∃ pieces, List.Forall₂ P vs pieces ∧ bytes = pieces.flatten := by
  have hserialize (se : Serializer) : (transparentVecToSer toSer vs).serialize se = (do
      let out ← Ser.serializeElements (some .transparentVec) 0 (.init (some vs.length))
        (vs.map toSer)
      return { se.writeAll out.2.intoBuffer with seqType := some .transparentVec }) := by
    simp only [transparentVecToSer, vecToSer, Ser.serialize, SizeSerializer.enterNewtype,
      Serializer.endSeq]
    rfl
  intro se se' _ _ ht
  rw [hserialize] at ht
  obtain ⟨⟨num, state⟩, helements, hret⟩ := Except.bind_eq_ok.mp ht
  cases hret
  obtain ⟨-, pieces, hpieces, hstate⟩ := Writes.elements toSer P (by simp) h helements
  have hbuffer : state.intoBuffer = pieces.flatten := by
    simpa [SeqSerializerState.intoBuffer] using hstate
  refine ⟨state.intoBuffer, _, rfl, ?_, pieces, hpieces, hbuffer⟩
  simp only [toVec, hserialize, helements]
  rfl

/-! ## What the sections contain -/

theorem Decodes.codeEnum {α : Type} {e : EnumType} {variant : EncodingCodes → Option (De SliceReader α)}
    {d : De SliceReader α} {bytes : Bytes} {a : α}
    (hstart : Starts (fun code => variant code = some d) bytes) (h : Decodes .value d bytes a) :
    Decodes e (De.codeEnum variant) bytes a := by
  refine ofEnum .value ?_ rfl
  intro de suffix hnative helem henum
  obtain ⟨code, rest, rfl, hcode⟩ := hstart
  have hrun := h de suffix hnative helem henum
  rw [List.cons_append] at hrun ⊢
  simp only [De.bind_run, De.deserializeIdentifier, De.get_run, Deserializer.at_enumType, henum,
    De.getElemCodeOrPeekByte_run _ helem, De.pure_run, EncodingCodes.tryFrom_toU8, hcode, hrun]

namespace RoundTrips

variable {e : EnumType}

theorem timestamp (v : Int64) : RoundTrips e (timestampToSer v) De.timestamp v :=
  exactly (.timestamp v) (.code (by simp)) (.timestamp v)

theorem messageId (v : MessageId) : RoundTrips e v.toSer De.messageId v := by
  cases v with
  | ulong v =>
      exact exactly (.u64 v) (.u64 (by simp) (by simp) (by simp))
        (.codeEnum (.u64 rfl rfl rfl) ((Decodes.parseU64 v).wrap MessageId.ulong))
  | uuid v =>
      exact exactly (.uuid v.toList) (.code (by simp))
        (.codeEnum (.code rfl) ((Decodes.uuid v).wrap MessageId.uuid))
  | binary v =>
      refine (Writes.bytes v).serializes.mono ?_
      rintro _ ⟨hlen, rfl⟩
      exact ⟨.sized (by simp) (by simp), .codeEnum (.sized rfl rfl)
        ((Decodes.deserializeByteBuf hlen).wrap MessageId.binary)⟩
  | string v =>
      refine (Writes.str v).serializes.mono ?_
      rintro _ ⟨hlen, rfl⟩
      exact ⟨.sized (by simp) (by simp), .codeEnum (.sized rfl rfl)
        ((Decodes.deserializeString hlen).wrap MessageId.string)⟩

end RoundTrips

theorem Header.roundTrips (v : Header) : CompositeRoundTrips 0x70 v.toSer De.header v := by
  have hpriority : RoundTrips .none v.priority.toSer De.priority v.priority :=
    (RoundTrips.u8 v.priority.value).newtype.wrap Priority.mk
  exact FieldsRoundTrip.composite
    (.cons (.defaulted (.bool _))
    (.cons (.defaulted hpriority)
    (.cons (.optional fun _ _ => .u32 _)
    (.cons (.defaulted (.bool _))
    (.cons (.defaulted (.u32 _)) (.nil _))))))

theorem Properties.roundTrips (v : Properties) :
    CompositeRoundTrips 0x73 v.toSer De.properties v :=
  FieldsRoundTrip.composite
    (.cons (.optional fun _ _ => .messageId _)
    (.cons (.optional fun _ _ => .bytes _)
    (.cons (.optional fun _ _ => .str _)
    (.cons (.optional fun _ _ => .str _)
    (.cons (.optional fun _ _ => .str _)
    (.cons (.optional fun _ _ => .messageId _)
    (.cons (.optional fun _ _ => .symbol _)
    (.cons (.optional fun _ _ => .symbol _)
    (.cons (.optional fun _ _ => .timestamp _)
    (.cons (.optional fun _ _ => .timestamp _)
    (.cons (.optional fun _ _ => .str _)
    (.cons (.optional fun _ _ => .u32 _)
    (.cons (.optional fun _ _ => .str _) (.nil _))))))))))))))

theorem OwnedKey.writes {e : EnumType} (v : OwnedKey) :
    Writes v.toSer none fun bytes => bytes ≠ [] ∧ Decodes e De.ownedKey bytes v := by
  cases v with
  | symbol v =>
      refine (Writes.symbol v).mono ?_
      rintro _ ⟨hlen, rfl⟩
      have hstart : Starts (fun _ => True) (Wire.symbol v) := .sized trivial trivial
      exact ⟨hstart.ne_nil, .codeEnum (.sized rfl rfl)
        ((Decodes.symbol hlen).wrap OwnedKey.symbol)⟩
  | ulong v =>
      refine (Writes.u64 v).mono ?_
      rintro _ rfl
      have hstart : Starts (fun _ => True) (Wire.u64 v) := .u64 trivial trivial trivial
      exact ⟨hstart.ne_nil, .codeEnum (.u64 rfl rfl rfl)
        ((Decodes.parseU64 v).wrap OwnedKey.ulong)⟩

structure Annotations.Codable (v : Annotations) : Prop where
  length : v.length ≤ 32768
  distinct : OrderedMap.DistinctKeys (· == ·) v
  values : ∀ entry ∈ v, entry.2.Codable

theorem Annotations.roundTrips {v : Annotations} (h : Annotations.Codable v) :
    RoundTrips .none (Annotations.toSer v) De.annotations v := by
  refine .orderedMap h.length h.distinct (fun entry _ => OwnedKey.writes entry.1) ?_
  intro entry hentry
  refine (Value.writes (h.values entry hentry)).serializes.mono ?_
  intro bytes hread
  exact ⟨hread.ne_nil, hread.value .none⟩

structure ApplicationProperties.Codable (v : ApplicationProperties) : Prop where
  length : v.length ≤ 32768
  distinct : OrderedMap.DistinctKeys (· == ·) v
  values : ∀ entry ∈ v, entry.2.value.Codable

theorem Decodes.simpleValue {e : EnumType} {v : SimpleValue} {bytes : Bytes}
    (h : v.value.ReadFrom bytes) : Decodes e De.simpleValue bytes v := by
  intro de suffix hnative helem henum
  have hrun := h.value e de suffix hnative helem henum
  simp only [De.simpleValue, De.bind_run, hrun, v.simple, dif_pos, De.pure_run]

theorem ApplicationProperties.roundTrips {v : ApplicationProperties}
    (h : ApplicationProperties.Codable v) :
    RoundTrips .none (OrderedMap.toSer .str SimpleValue.toSer v)
      (De.deserializeMap (· == ·) De.deserializeString De.simpleValue) v := by
  refine .orderedMap h.length h.distinct (fun entry _ => ?_) fun entry hentry => ?_
  · refine (Writes.str entry.1).mono ?_
    rintro _ ⟨hlen, rfl⟩
    have hstart : Starts (fun _ => True) (Wire.string entry.1) := .sized trivial trivial
    exact ⟨hstart.ne_nil, .deserializeString hlen⟩
  · refine (Value.writes (h.values entry hentry)).serializes.mono ?_
    intro bytes hread
    exact ⟨hread.ne_nil, .simpleValue hread⟩

/-- The elements of a sequence section. -/
theorem vec_roundTrips {vs : List Value} (hlength : vs.length ≤ maxArrayCount)
    (hvalues : ∀ v ∈ vs, v.Codable) :
    RoundTrips .none (vecToSer Value.toSer vs) (De.deserializeVec De.value) vs := by
  refine (Writes.seq Value.toSer Value.ReadFrom fun v hv =>
    (Value.writes (hvalues v hv)).serializes).serializes.mono ?_
  rintro _ ⟨pieces, hpieces, hlen, rfl⟩
  refine ⟨.list (by simp) (by simp) (by simp), Decodes.vec (hpieces.imp ?_) hlength hlen⟩
  intro v piece hread
  exact ⟨hread.ne_nil, hread.value .none⟩

/-! ## Reading one section -/

/-- The state of the deserializer between the sections of a message. -/
structure Deserializer.InMessage (de : Deserializer SliceReader) : Prop where
  nonNativeType : de.nonNativeType = none
  elemFormatCode : de.elemFormatCode = none
  enumType : de.enumType = .none
  structEncoding : de.structEncoding = .describedBasic

/-- The program reads exactly the bytes of a section in front of the suffix. -/
def DecodesSection {α : Type} (d : De SliceReader α) (bytes suffix : Bytes) (a : α) : Prop :=
  ∀ de : Deserializer SliceReader, de.InMessage →
    ∃ de' : Deserializer SliceReader, de'.InMessage ∧
      d (de.at (bytes ++ suffix)) = .ok a (de'.at suffix)

namespace DecodesSection

variable {α β : Type} {bytes suffix : Bytes}

theorem ofDecodes {d : De SliceReader α} {a : α} (h : Decodes .none d bytes a) :
    DecodesSection d bytes suffix a := by
  intro de hde
  exact ⟨de, hde, h de suffix hde.nonNativeType hde.elemFormatCode hde.enumType⟩

theorem wrap {d : De SliceReader α} {a : α} (f : α → β) (h : DecodesSection d bytes suffix a) :
    DecodesSection (do return f (← d)) bytes suffix (f a) := by
  intro de hde
  obtain ⟨de', hde', hrun⟩ := h de hde
  exact ⟨de', hde', by simp only [De.bind_run, hrun, De.pure_run]⟩

/-- The descriptor of a basic section, which no header follows. -/
theorem descriptor_run (name : String) (code : UInt64) {de : Deserializer SliceReader}
    (hde : de.InMessage) (rest : Bytes) :
    VisitSeq.descriptor name code { counter := 0, fieldCount := 2 }
        (de.at (Wire.descriptor (.code code) ++ rest))
      = .ok ((), { counter := 1, fieldCount := 2 }) (de.at rest) := by
  have hdecodes := Decodes.descriptor (e := de.enumType) (v := .code code) (by simp)
  have hnext := hdecodes.nextElement de rest hde.nonNativeType hde.elemFormatCode rfl
    { counter := 0, fieldCount := 2 } (by decide)
    (.descriptor fun _ => .inr (by simp [hde.structEncoding]))
  have hvisit : VisitSeq.nextElement De.descriptor { counter := 0, fieldCount := 2 }
      (de.at (Wire.descriptor (.code code) ++ rest))
        = .ok (some (.code code), { counter := 1, fieldCount := 2 }) (de.at rest) := hnext
  simp [VisitSeq.descriptor, VisitSeq.bind_run, hvisit, VisitSeq.pure_run]

theorem basic {d : De SliceReader α} {a : α} (h : Decodes .none d bytes a)
    (hstart : Starts (fun _ => True) bytes) (name : String) (code : UInt64) :
    DecodesSection (De.basic name code d) (Wire.descriptor (.code code) ++ bytes) suffix a := by
  intro de hde
  refine ⟨de, hde, ?_⟩
  have hnext := h.nextElement de suffix hde.nonNativeType hde.elemFormatCode hde.enumType
    { counter := 1, fieldCount := 2 } (by decide) (hstart.mono fun _ _ _ => .inl (by simp))
  have hfield : VisitSeq.nextElement d { counter := 1, fieldCount := 2 } (de.at (bytes ++ suffix))
      = .ok (some a, { counter := 2, fieldCount := 2 }) (de.at suffix) := hnext
  have hsame : { de.at (Wire.descriptor (.code code) ++ (bytes ++ suffix)) with
      structEncoding := .describedBasic } = de.at (Wire.descriptor (.code code) ++ (bytes ++ suffix))
      := by
    rw [← hde.structEncoding]
    rfl
  rw [List.append_assoc]
  simp only [De.basic, De.deserializeTupleStruct, De.bind_run, De.modify_run, hsame, if_true,
    StateT.run', De.map_run, VisitSeq.bind_run, descriptor_run name code hde, VisitSeq.required,
    hfield, VisitSeq.pure_run]

end DecodesSection

/-! ## Batches -/

/-- What may follow a batch of sections: the end of the message or a section of another kind. -/
def EndsBatch (code : UInt64) (suffix : Bytes) : Prop :=
  suffix = [] ∨ ∃ other rest, other ≠ code ∧ suffix = Wire.descriptor (.code other) ++ rest

theorem endsBatch_of_footer {code : UInt64} (hcode : code ≠ 0x78) {suffix : Bytes}
    (h : suffix = [] ∨ ∃ rest, suffix = Wire.descriptor (.code 0x78) ++ rest) :
    EndsBatch code suffix := by
  rcases h with rfl | ⟨rest, rfl⟩
  · exact .inl rfl
  · exact .inr ⟨0x78, rest, hcode.symm, rfl⟩

/-- What may follow sections that announce one descriptor: nothing or another descriptor. -/
def EndsRun (descriptor : Descriptor) (suffix : Bytes) : Prop :=
  suffix = [] ∨ ∃ other, other ≠ descriptor ∧ Announced other suffix

theorem EndsBatch.endsRun {code : UInt64} {suffix : Bytes} (h : EndsBatch code suffix) :
    EndsRun (.code code) suffix := by
  rcases h with rfl | ⟨other, rest, hother, rfl⟩
  · exact .inl rfl
  · exact .inr ⟨.code other, by simpa using hother, .ofCode ⟨rest, rfl⟩⟩

/-- A batch that is not empty starts with the descriptor of its sections. -/
theorem flatten_starts {α : Type} {P : α → Bytes → Prop} {vs : List α} {pieces : List Bytes}
    {code : UInt64} (hne : vs ≠ []) (h : List.Forall₂ P vs pieces)
    (hpiece : ∀ v piece, P v piece → ∃ content, piece = Wire.descriptor (.code code) ++ content) :
    ∃ content, pieces.flatten = Wire.descriptor (.code code) ++ content := by
  cases h with
  | nil => exact absurd rfl hne
  | @cons v piece _ pieces hv _ =>
      obtain ⟨content, rfl⟩ := hpiece v piece hv
      exact ⟨content ++ pieces.flatten, by simp⟩

namespace DecodesSection

variable {α : Type} {element : De SliceReader α} {descriptor : Descriptor} {suffix : Bytes}

theorem peekTypeCode_run {de : Deserializer SliceReader} (hde : de.InMessage)
    {descriptor : Descriptor} {bytes : Bytes} (h : Announced descriptor bytes) :
    De.peekTypeCode (de.at bytes) = .ok (some (.composite descriptor)) (de.at bytes) := by
  obtain ⟨ident, rfl, hident⟩ := h.looked hde.elemFormatCode hde.enumType
  obtain ⟨tail, rfl⟩ := h.starts
  simp only [De.peekTypeCode, De.bind_run, De.peek_run, EncodingCodes.tryFrom_toU8, De.ofExcept_ok,
    De.pure_run, De.peekDescriptor, hident]

/-- Behind the last section of a run the next value is of another type. -/
theorem transparentElements_end {de : Deserializer SliceReader} (hde : de.InMessage)
    (hend : EndsRun descriptor suffix) (budget : Nat) :
    De.transparentElements element (budget + 1) (some (.composite descriptor)) (de.at suffix)
      = .ok [] (de.at suffix) := by
  rcases hend with rfl | ⟨other, hother, hsuffix⟩
  · have hpeek : De.peekTypeCode (de.at []) = .ok none (de.at []) := rfl
    simp only [De.transparentElements, De.bind_run, hpeek, De.pure_run]
  · have hany : (some (De.PeekTypeCode.composite descriptor)).any
        (· ≠ .composite other) = true := by
      simpa using fun h => hother h.symm
    simp only [De.transparentElements, De.bind_run, peekTypeCode_run hde hsuffix, hany, if_true,
      De.pure_run]

/-- The sections of a run after the type of its elements is known. -/
theorem transparentElements {vs : List α} {pieces : List Bytes}
    (h : List.Forall₂ (fun v piece => Announced descriptor piece ∧
      ∀ suffix, DecodesSection element piece suffix v) vs pieces)
    (hend : EndsRun descriptor suffix) {cached : Option De.PeekTypeCode}
    (hcached : cached = some (.composite descriptor) ∨ cached = none ∧ vs ≠ []) {budget : Nat}
    (hbudget : vs.length < budget) :
    DecodesSection (De.transparentElements element budget cached) pieces.flatten suffix vs := by
  induction h generalizing cached budget with
  | nil =>
      intro de hde
      obtain rfl : cached = some (.composite descriptor) := by
        rcases hcached with hcached | ⟨-, hne⟩
        · exact hcached
        · exact absurd rfl hne
      obtain ⟨budget, rfl⟩ := Nat.exists_eq_add_one_of_ne_zero (n := budget) (by omega)
      exact ⟨de, hde, transparentElements_end hde hend budget⟩
  | @cons v piece vs pieces hv _ ih =>
      intro de hde
      obtain ⟨hstart, hv⟩ := hv
      obtain ⟨budget, rfl⟩ := Nat.exists_eq_add_one_of_ne_zero (n := budget) (by omega)
      obtain ⟨de₁, hde₁, hrun₁⟩ := hv (pieces.flatten ++ suffix) de hde
      have hrest : DecodesSection (De.transparentElements element budget
          (some (.composite descriptor))) pieces.flatten suffix vs :=
        ih (.inl rfl) (by simp only [List.length_cons] at hbudget; omega)
      obtain ⟨de₂, hde₂, hrun₂⟩ := hrest de₁ hde₁
      refine ⟨de₂, hde₂, ?_⟩
      have hany : cached.any (· ≠ .composite descriptor) = false := by
        rcases hcached with rfl | ⟨rfl, -⟩ <;> simp
      have hget : cached.getD (.composite descriptor) = .composite descriptor := by
        rcases hcached with rfl | ⟨rfl, -⟩ <;> rfl
      have hpeek := peekTypeCode_run hde (hstart.append (pieces.flatten ++ suffix))
      simp only [List.flatten_cons, List.append_assoc, De.transparentElements, De.bind_run,
        hpeek, hany, Bool.false_eq_true, if_false, hrun₁, hget, hrun₂, De.pure_run]

/-- A run of sections that is not empty ends where another descriptor begins. -/
theorem run {vs : List α} {pieces : List Bytes} (hne : vs ≠ [])
    (h : List.Forall₂ (fun v piece => Announced descriptor piece ∧
      ∀ suffix, DecodesSection element piece suffix v) vs pieces)
    (hend : EndsRun descriptor suffix) :
    DecodesSection (De.transparentVec element) pieces.flatten suffix vs := by
  intro de hde
  have hlength : vs.length ≤ pieces.flatten.length := by
    clear hne
    induction h with
    | nil => simp
    | cons hv _ ih =>
        obtain ⟨tail, rfl⟩ := hv.1.starts
        simp only [List.length_cons, List.flatten_cons, List.length_append]
        omega
  have hbudget : vs.length < (pieces.flatten ++ suffix).length + 1 := by
    rw [List.length_append]
    omega
  have hmarked : ({ de with seqType := some .transparentVec } : Deserializer SliceReader).InMessage :=
    ⟨hde.nonNativeType, hde.elemFormatCode, hde.enumType, hde.structEncoding⟩
  obtain ⟨de', hde', hrun⟩ := transparentElements h hend (.inr ⟨rfl, hne⟩) hbudget _ hmarked
  exact ⟨de', hde', hrun⟩

/-- A batch that is not empty ends where the next section begins. -/
theorem batch {code : UInt64} {vs : List α} {pieces : List Bytes} (hne : vs ≠ [])
    (h : List.Forall₂ (fun v piece => (∃ content, piece = Wire.descriptor (.code code) ++ content) ∧
      ∀ suffix, DecodesSection element piece suffix v) vs pieces)
    (hend : EndsBatch code suffix) :
    DecodesSection (De.transparentVec element) pieces.flatten suffix vs :=
  run hne (h.imp fun _ _ hv => ⟨.ofCode hv.1, hv.2⟩) hend.endsRun

end DecodesSection

/-! ## The body -/

/-- The bodies that survive: an empty body is read back as a null value and an empty batch is not
written at all. -/
def Body.Codable : Body Value → Prop
  | .value v => v.Codable
  | .data batch => batch ≠ []
  | .sequence batch => batch ≠ [] ∧ ∀ vs ∈ batch, vs.length ≤ 65536 ∧ ∀ v ∈ vs, v.Codable
  | .empty => False

/-- The kind of the body is told by its first section. -/
theorem DecodesSection.bodyOf {α : Type} {value : De SliceReader α} {descriptor : Descriptor}
    (field : BodyField) {bytes suffix : Bytes} {a : Body α}
    (hfield : BodyField.ofDescriptor descriptor = some field) (hbytes : Announced descriptor bytes)
    (h : DecodesSection (De.visitBody value field) bytes suffix a) :
    DecodesSection (De.body value) bytes suffix a := by
  intro de hde
  obtain ⟨de', hde', hrun⟩ := h de hde
  obtain ⟨ident, hname, hident⟩ :=
    (hbytes.append suffix).looked hde.elemFormatCode hde.enumType
  refine ⟨{ de' with enumType := .none },
    ⟨hde'.nonNativeType, hde'.elemFormatCode, rfl, hde'.structEncoding⟩, ?_⟩
  have hkind : De.bodyField (de.at (bytes ++ suffix)) = .ok field (de.at (bytes ++ suffix)) := by
    simp only [De.bodyField, De.bind_run, hident, hname, hfield, De.pure_run]
  simp only [De.body, De.deserializeEnum, De.restoringEnumType, De.bind_run, hkind, hrun,
    Deserializer.at_enumType, hde.enumType]
  rfl

theorem DecodesSection.body {α : Type} {value : De SliceReader α} {code : UInt64}
    (field : BodyField) {bytes suffix : Bytes} {a : Body α}
    (hfield : BodyField.ofDescriptor (.code code) = some field)
    (hbytes : ∃ content, bytes = Wire.descriptor (.code code) ++ content)
    (h : DecodesSection (De.visitBody value field) bytes suffix a) :
    DecodesSection (De.body value) bytes suffix a :=
  .bodyOf field hfield (.ofCode hbytes) h

/-- What a body writes is read back in front of the end of the message and of a footer. -/
theorem Body.writes {v : Body Value} (h : v.Codable) :
    WritesSection (v.toSer Value.toSer) fun bytes =>
      (∃ code content, SectionField.ofDescriptor (.code code) = some .body ∧
        bytes = Wire.descriptor (.code code) ++ content) ∧
      ∀ suffix, (suffix = [] ∨ ∃ rest, suffix = Wire.descriptor (.code 0x78) ++ rest) →
        DecodesSection (De.body De.value) bytes suffix v := by
  cases v with
  | value v =>
      refine (WritesSection.basic (Value.writes h).serializes 0x77).mono ?_
      rintro _ ⟨content, hread, rfl⟩
      refine ⟨⟨0x77, content, rfl, rfl⟩, fun suffix _ => ?_⟩
      have hvalue : DecodesSection (De.basic "amqp:amqp-value:*" 0x77 De.value)
          (Wire.descriptor (.code 0x77) ++ content) suffix v :=
        .basic (hread.value .none) (hread.starts.mono fun _ _ => trivial) _ _
      exact .body .value rfl ⟨content, rfl⟩ (hvalue.wrap Body.value)
  | data batch =>
      refine (WritesSection.batch (P := fun v bytes =>
        (∃ content, bytes = Wire.descriptor (.code 0x75) ++ content) ∧
          ∀ suffix, DecodesSection De.data bytes suffix v) fun v _ => ?_).mono ?_
      · refine (WritesSection.basic (RoundTrips.bytes (e := .none) v) 0x75).serializes.mono ?_
        rintro _ ⟨content, ⟨hstart, hdecodes⟩, rfl⟩
        exact ⟨⟨content, rfl⟩, fun suffix =>
          .basic hdecodes (hstart.mono fun _ _ => trivial) "amqp:data:binary" 0x75⟩
      · rintro _ ⟨pieces, hpieces, rfl⟩
        obtain ⟨content, hcontent⟩ := flatten_starts h hpieces fun v piece hv => hv.1
        refine ⟨⟨0x75, content, rfl, hcontent⟩, fun suffix hsuffix => ?_⟩
        have hend : EndsBatch 0x75 suffix := endsBatch_of_footer (by decide) hsuffix
        exact .body .data rfl ⟨content, hcontent⟩
          ((DecodesSection.batch h hpieces hend).wrap Body.data)
  | sequence batch =>
      obtain ⟨hne, hbatch⟩ := h
      refine (WritesSection.batch (P := fun vs bytes =>
        (∃ content, bytes = Wire.descriptor (.code 0x76) ++ content) ∧
          ∀ suffix, DecodesSection (De.amqpSequence De.value) bytes suffix vs)
        fun vs hvs => ?_).mono ?_
      · obtain ⟨hlength, hvalues⟩ := hbatch vs hvs
        refine (WritesSection.basic (vec_roundTrips hlength hvalues) 0x76).serializes.mono ?_
        rintro _ ⟨content, ⟨hstart, hdecodes⟩, rfl⟩
        exact ⟨⟨content, rfl⟩, fun suffix =>
          .basic hdecodes (hstart.mono fun _ _ => trivial) "amqp:amqp-sequence:list" 0x76⟩
      · rintro _ ⟨pieces, hpieces, rfl⟩
        obtain ⟨content, hcontent⟩ := flatten_starts hne hpieces fun v piece hv => hv.1
        refine ⟨⟨0x76, content, rfl, hcontent⟩, fun suffix hsuffix => ?_⟩
        have hend : EndsBatch 0x76 suffix := endsBatch_of_footer (by decide) hsuffix
        exact .body .sequence rfl ⟨content, hcontent⟩
          ((DecodesSection.batch hne hpieces hend).wrap Body.sequence)
  | empty => exact absurd h (by simp [Body.Codable])

/-! ## The loop over the sections -/

/-- The access of a message with `left` sections to go; each takes two elements. -/
structure De.DescribedAccess.Left (access : De.DescribedAccess) (left : Nat) : Prop where
  fieldCount : access.fieldCount.toNat = 14
  counter : access.counter.toNat + 2 * left = 14

theorem De.DescribedAccess.Left.lt {access : De.DescribedAccess} {left : Nat}
    (h : access.Left (left + 1)) : access.counter < access.fieldCount := by
  have hcounter := h.counter
  rw [UInt32.lt_iff_toNat_lt, h.fieldCount]
  omega

/-- A described element of a message, which no list header follows. -/
theorem VisitSeq.nextElement_announced {α : Type} {d : De SliceReader α} {a : α}
    {descriptor : Descriptor} {bytes : Bytes} (hbytes : Announced descriptor bytes)
    {de de' : Deserializer SliceReader} {access : De.DescribedAccess}
    (hlt : access.counter < access.fieldCount) (hrun : d (de.at bytes) = .ok a de')
    (hencoding : de'.structEncoding = .describedBasic) :
    VisitSeq.nextElement d access (de.at bytes)
      = .ok (some a, { access with counter := access.counter + 1 }) de' := by
  obtain ⟨tail, rfl⟩ := hbytes.starts
  simp [VisitSeq.nextElement, De.DescribedAccess.nextElement, UInt32.not_le.mpr hlt, De.attempt,
    hrun, De.DescribedAccess.announce, hencoding]

/-- From one point of the loop to another: `n` bounds the sections in between. -/
def ReadsSections (n : Nat) (input : Bytes) (sections : Sections (Body Value)) (rest : Bytes)
    (sections' : Sections (Body Value)) : Prop :=
  ∀ (left : Nat) (access : De.DescribedAccess) (de : Deserializer SliceReader), n ≤ left →
    access.Left left → de.InMessage →
      ∃ (left' : Nat) (access' : De.DescribedAccess) (de' : Deserializer SliceReader),
        left ≤ left' + n ∧ access'.Left left' ∧ de'.InMessage ∧
          De.readSections (De.body De.value) left sections access (de.at input)
            = De.readSections (De.body De.value) left' sections' access' (de'.at rest)

namespace ReadsSections

variable {input rest : Bytes} {s s' s'' : Sections (Body Value)}

theorem refl (n : Nat) : ReadsSections n input s input s := by
  intro left access de _ hleft hde
  exact ⟨left, access, de, by omega, hleft, hde, rfl⟩

theorem trans {m n : Nat} {middle : Bytes} (h : ReadsSections m input s middle s')
    (h' : ReadsSections n middle s' rest s'') : ReadsSections (m + n) input s rest s'' := by
  intro left access de hn hleft hde
  obtain ⟨left₁, access₁, de₁, hle₁, hleft₁, hde₁, hrun₁⟩ := h left access de (by omega) hleft hde
  obtain ⟨left₂, access₂, de₂, hle₂, hleft₂, hde₂, hrun₂⟩ :=
    h' left₁ access₁ de₁ (by omega) hleft₁ hde₁
  exact ⟨left₂, access₂, de₂, by omega, hleft₂, hde₂, hrun₁.trans hrun₂⟩

/-- One turn of the loop: the descriptor tells the section, which is then read. -/
theorem oneOf {α : Type} {d : De SliceReader α} {descriptor : Descriptor} {field : SectionField}
    {a : α} {bytes : Bytes} {f : Option α → Sections (Body Value)}
    (hfield : SectionField.ofDescriptor descriptor = some field)
    (hread : De.readSection (De.body De.value) s field = do return f (← VisitSeq.nextElement d))
    (hbytes : Announced descriptor bytes) (h : DecodesSection d bytes rest a) :
    ReadsSections 1 (bytes ++ rest) s rest (f (some a)) := by
  intro left access de hn hleft hde
  obtain ⟨left, rfl⟩ := Nat.exists_eq_add_one_of_ne_zero (n := left) (by omega)
  obtain ⟨de', hde', hrun⟩ := h de hde
  obtain ⟨ident, hname, hident⟩ := (hbytes.append rest).looked hde.elemFormatCode hde.enumType
  have hkind : De.sectionField (de.at (bytes ++ rest)) = .ok field (de.at (bytes ++ rest)) := by
    simp only [De.sectionField, De.bind_run, hident, hname, hfield, De.pure_run]
  have hcounter := hleft.counter
  have hfirst : (access.counter + 1).toNat = access.counter.toNat + 1 := by
    rw [UInt32.toNat_add, UInt32.toNat_one]
    exact Nat.mod_eq_of_lt (by omega)
  have hsecond : (access.counter + 1 + 1).toNat = access.counter.toNat + 2 := by
    rw [UInt32.toNat_add, hfirst, UInt32.toNat_one]
    exact Nat.mod_eq_of_lt (by omega)
  have hlt : access.counter + 1 < access.fieldCount := by
    rw [UInt32.lt_iff_toNat_lt, hleft.fieldCount, hfirst]
    omega
  have hpeek := VisitSeq.nextElement_announced (hbytes.append rest) hleft.lt hkind
    hde.structEncoding
  have hsection := @VisitSeq.nextElement_announced _ _ _ _ _ (hbytes.append rest) _ _
    { access with counter := access.counter + 1 } hlt hrun hde'.structEncoding
  refine ⟨left, { access with counter := access.counter + 1 + 1 }, de', by omega,
    ⟨hleft.fieldCount, by rw [hsecond]; omega⟩, hde', ?_⟩
  simp only [De.readSections, VisitSeq.bind_run, hpeek, hread, hsection, VisitSeq.pure_run]

theorem one {α : Type} {d : De SliceReader α} {code : UInt64} {field : SectionField} {a : α}
    {bytes : Bytes} {f : Option α → Sections (Body Value)}
    (hfield : SectionField.ofDescriptor (.code code) = some field)
    (hread : De.readSection (De.body De.value) s field = do return f (← VisitSeq.nextElement d))
    (hbytes : ∃ content, bytes = Wire.descriptor (.code code) ++ content)
    (h : DecodesSection d bytes rest a) : ReadsSections 1 (bytes ++ rest) s rest (f (some a)) :=
  oneOf hfield hread (.ofCode hbytes) h

/-- The loop stops at the end of the message. -/
theorem readSections_end (left : Nat) (access : De.DescribedAccess)
    (de : Deserializer SliceReader) :
    De.readSections (De.body De.value) left s access (de.at []) = .ok (s, access) (de.at []) := by
  cases left with
  | zero => rfl
  | succ left =>
      have hnext : VisitSeq.nextElement De.sectionField access (de.at [])
          = .ok (none, access) (de.at []) := by
        simp only [VisitSeq.nextElement, De.DescribedAccess.nextElement]
        split <;> rfl
      simp only [De.readSections, VisitSeq.bind_run, hnext, VisitSeq.pure_run]

end ReadsSections

/-! ## Messages -/

/-- The messages that survive the round trip. -/
structure Message.Codable (m : Message (Body Value)) : Prop where
  deliveryAnnotations : ∀ v, m.deliveryAnnotations = some v → Annotations.Codable v
  messageAnnotations : ∀ v, m.messageAnnotations = some v → Annotations.Codable v
  applicationProperties : ∀ v, m.applicationProperties = some v → ApplicationProperties.Codable v
  body : m.body.Codable
  footer : ∀ v, m.footer = some v → Annotations.Codable v

/-- A section in front of the body is written when it is there. -/
theorem optionalSection_serialize {α : Type} {toSer : α → Ser} {v : Option α} {name : String}
    {P : Bytes → Prop} (hnone : v = none → P [])
    (hsome : ∀ x, v = some x → Writes (toSer x) none P) {se : Serializer} (hse : se.Neutral)
    (hencoding : se.structEncoding = .describedBasic) {fields : List (FieldKey × Ser)}
    {count : Nat} {buf : Bytes} {r : Serializer × Nat × Bytes}
    (hrun : Ser.serializeStructFields se count buf
      (optionalSection name (v.map toSer) ++ fields) = .ok r) :
    ∃ bytes count', P bytes ∧
      Ser.serializeStructFields (se.wrote bytes none) count' buf fields = .ok r := by
  cases v with
  | none =>
      have hsame : se.wrote [] none = se := by
        rw [← hse.writeAll]
        simp [Serializer.writeAll]
      exact ⟨[], count, hnone rfl, by rw [hsame]; exact hrun⟩
  | some x =>
      simp only [optionalSection, Option.map_some, Option.toList_some, List.cons_append,
        List.nil_append, Ser.serializeStructFields, hencoding] at hrun
      obtain ⟨se', hsection, hrest⟩ := Except.bind_eq_ok.mp hrun
      obtain ⟨bytes, rfl, hP⟩ := hsome x rfl se se' hse hsection
      exact ⟨bytes, count + 1, hP, hrest⟩

/-- A basic section in front of the body. -/
theorem Writes.basic {t : Ser} {P : Bytes → Prop} (h : Serializes t P) (code : UInt64) :
    Writes (basicToSer code t) none fun bytes =>
      ∃ content, P content ∧ bytes = Wire.descriptor (.code code) ++ content := by
  intro se se' hse ht
  rw [basicToSer_serialize hse.isArrayElement] at ht
  obtain ⟨content, hcontent, hret⟩ := Except.bind_eq_ok.mp ht
  cases hret
  exact ⟨_, hse.writeAll _, content, h.toVec hcontent, rfl⟩

/-- One more section in front of the body. -/
theorem ReadsSections.append_optional {α : Type} {toSer : α → Ser} {v : Option α} {name : String}
    {n : Nat} {front : Bytes} {s₀ s : Sections (Body Value)}
    (hfront : ∀ rest, ReadsSections n (front ++ rest) s₀ rest s)
    (f : Option α → Sections (Body Value)) (hnone : f none = s)
    (hsome : ∀ x, v = some x → Writes (toSer x) none fun bytes =>
      ∀ rest, ReadsSections 1 (bytes ++ rest) s rest (f (some x)))
    {se : Serializer} (hse : se.Neutral) (hencoding : se.structEncoding = .describedBasic)
    {fields : List (FieldKey × Ser)} {count : Nat} {buf : Bytes} {r : Serializer × Nat × Bytes}
    (hrun : Ser.serializeStructFields (se.wrote front none) count buf
      (optionalSection name (v.map toSer) ++ fields) = .ok r) :
    ∃ front' count', (∀ rest, ReadsSections (n + 1) (front' ++ rest) s₀ rest (f v)) ∧
      Ser.serializeStructFields (se.wrote front' none) count' buf fields = .ok r := by
  obtain ⟨bytes, count', hbytes, hrest⟩ := optionalSection_serialize
    (P := fun bytes => ∀ rest, ReadsSections 1 (bytes ++ rest) s rest (f v))
    (by rintro rfl rest; rw [hnone]; exact .refl 1)
    (by rintro x rfl; exact hsome x rfl) (hse.wrote front) hencoding hrun
  refine ⟨front ++ bytes, count', fun rest => ?_, ?_⟩
  · rw [List.append_assoc]
    exact (hfront (bytes ++ rest)).trans (hbytes rest)
  · have hwrote : (se.wrote front none).wrote bytes none = se.wrote (front ++ bytes) none := by
      simp [Serializer.wrote, Serializer.writeAll]
    rwa [hwrote] at hrest

section

variable {α : Type} {toSer : α → Ser} {v : Option α} {name : String} {n : Nat} {front : Bytes}
  {s₀ s : Sections (Body Value)} (hfront : ∀ rest, ReadsSections n (front ++ rest) s₀ rest s)
  (f : Option α → Sections (Body Value)) (hnone : f none = s) {code : UInt64} {d : De SliceReader α}
  {field : SectionField} (hfield : SectionField.ofDescriptor (.code code) = some field)
  (hread : De.readSection (De.body De.value) s field = do return f (← VisitSeq.nextElement d))
  {se : Serializer} (hse : se.Neutral) (hencoding : se.structEncoding = .describedBasic)
  {fields : List (FieldKey × Ser)} {count : Nat} {buf : Bytes} {r : Serializer × Nat × Bytes}
  (hrun : Ser.serializeStructFields (se.wrote front none) count buf
    (optionalSection name (v.map toSer) ++ fields) = .ok r)
include hfront hnone hfield hread hse hencoding hrun

/-- A header or a properties section. -/
theorem ReadsSections.append_composite
    (h : ∀ x, v = some x → CompositeRoundTrips code (toSer x) d x) :
    ∃ front' count', (∀ rest, ReadsSections (n + 1) (front' ++ rest) s₀ rest (f v)) ∧
      Ser.serializeStructFields (se.wrote front' none) count' buf fields = .ok r := by
  refine append_optional hfront f hnone (fun x hx => (h x hx).mono ?_) hse hencoding hrun
  rintro bytes ⟨hbytes, hdecodes⟩ rest
  exact .one hfield hread hbytes (.ofDecodes hdecodes)

/-- A section with the basic encoding. -/
theorem ReadsSections.append_basic {descriptor : String} {t : α → Ser} {content : De SliceReader α}
    (ht : toSer = fun x => basicToSer code (t x)) (hd : d = De.basic descriptor code content)
    (h : ∀ x, v = some x → RoundTrips .none (t x) content x) :
    ∃ front' count', (∀ rest, ReadsSections (n + 1) (front' ++ rest) s₀ rest (f v)) ∧
      Ser.serializeStructFields (se.wrote front' none) count' buf fields = .ok r := by
  subst ht hd
  refine append_optional hfront f hnone (fun x hx => (Writes.basic (h x hx) code).mono ?_) hse
    hencoding hrun
  rintro _ ⟨bytes, ⟨hstart, hdecodes⟩, rfl⟩ rest
  exact .one hfield hread ⟨bytes, rfl⟩
    (.basic hdecodes (hstart.mono fun _ _ => trivial) descriptor code)

end

/-- What the loop has read when it comes to the body. -/
def Message.frontSections (m : Message (Body Value)) : Sections (Body Value) where
  header := m.header
  deliveryAnnotations := m.deliveryAnnotations
  messageAnnotations := m.messageAnnotations
  properties := m.properties
  applicationProperties := m.applicationProperties

/-- The sections in front of the body. -/
theorem Message.writes_front {m : Message (Body Value)} (h : m.Codable) {se : Serializer}
    (hse : se.Neutral) (hencoding : se.structEncoding = .describedBasic)
    {fields : List (FieldKey × Ser)} {r : Serializer × Nat × Bytes}
    (hrun : Ser.serializeStructFields se 0 []
      (optionalSection "header" (m.header.map Header.toSer) ++
      (optionalSection "delivery_annotations"
        (m.deliveryAnnotations.map deliveryAnnotationsToSer) ++
      (optionalSection "message_annotations" (m.messageAnnotations.map messageAnnotationsToSer) ++
      (optionalSection "properties" (m.properties.map Properties.toSer) ++
      (optionalSection "application_properties"
        (m.applicationProperties.map ApplicationProperties.toSer) ++ fields))))) = .ok r) :
    ∃ front count, (∀ rest, ReadsSections 5 (front ++ rest) {} rest m.frontSections) ∧
      Ser.serializeStructFields (se.wrote front none) count [] fields = .ok r := by
  have hstart : se.wrote [] none = se := by
    rw [← hse.writeAll]
    simp [Serializer.writeAll]
  rw [← hstart] at hrun
  obtain ⟨_, _, hread₁, hrun₁⟩ := ReadsSections.append_composite (fun rest => .refl 0)
    (fun v => { header := v }) rfl rfl rfl hse hencoding hrun fun x _ => Header.roundTrips x
  obtain ⟨_, _, hread₂, hrun₂⟩ := ReadsSections.append_basic hread₁
    (fun v => { header := m.header, deliveryAnnotations := v }) rfl rfl rfl hse hencoding hrun₁
    rfl rfl fun x hx => Annotations.roundTrips (h.deliveryAnnotations x hx)
  obtain ⟨_, _, hread₃, hrun₃⟩ := ReadsSections.append_basic hread₂
    (fun v => { header := m.header, deliveryAnnotations := m.deliveryAnnotations,
                messageAnnotations := v }) rfl rfl rfl hse hencoding hrun₂
    rfl rfl fun x hx => Annotations.roundTrips (h.messageAnnotations x hx)
  obtain ⟨_, _, hread₄, hrun₄⟩ := ReadsSections.append_composite hread₃
    (fun v => { header := m.header, deliveryAnnotations := m.deliveryAnnotations,
                messageAnnotations := m.messageAnnotations, properties := v }) rfl rfl rfl
    hse hencoding hrun₃ fun x _ => Properties.roundTrips x
  obtain ⟨front, count, hread₅, hrun₅⟩ := ReadsSections.append_basic hread₄
    (fun v => { header := m.header, deliveryAnnotations := m.deliveryAnnotations,
                messageAnnotations := m.messageAnnotations, properties := m.properties,
                applicationProperties := v }) rfl rfl rfl hse hencoding hrun₄
    rfl rfl fun x hx => ApplicationProperties.roundTrips (h.applicationProperties x hx)
  exact ⟨front, count, hread₅, hrun₅⟩

/-- The footer is written behind any body. -/
theorem Message.writes_footer {m : Message (Body Value)} (h : m.Codable) {se : Serializer}
    (hnative : se.nonNativeType = none) (hplain : se.isArrayElement = .false)
    (hencoding : se.structEncoding = .describedBasic) {count : Nat} {buf : Bytes}
    {r : Serializer × Nat × Bytes}
    (hrun : Ser.serializeStructFields se count buf
      (optionalSection "footer" (m.footer.map footerToSer)) = .ok r) :
    ∃ back, r.1.writer = se.writer ++ back ∧ r.1.structEncoding = .describedBasic ∧
      (m.footer = none → back = []) ∧
      (∀ v, m.footer = some v → toVec (footerToSer v) = .ok back) ∧
      (back = [] ∨ ∃ rest, back = Wire.descriptor (.code 0x78) ++ rest) ∧
      ∀ s : Sections (Body Value), s.footer = none →
        ReadsSections 1 back s [] { s with footer := m.footer } := by
  cases hfooter : m.footer with
  | none =>
      rw [hfooter] at hrun
      cases hrun
      refine ⟨[], by simp, hencoding, fun _ => rfl, by simp, .inl rfl, fun s hs => ?_⟩
      rw [← hs]
      exact .refl 1
  | some v =>
      simp only [hfooter, optionalSection, Option.map_some, Option.toList_some,
        Ser.serializeStructFields, hencoding] at hrun
      obtain ⟨se', hsection, hret⟩ := Except.bind_eq_ok.mp hrun
      cases hret
      obtain ⟨back, seqType, rfl, hvec, content, ⟨hstart, hdecodes⟩, rfl⟩ :=
        WritesSection.basic (Annotations.roundTrips (h.footer v hfooter)) 0x78 se se' hnative hplain
          hsection
      refine ⟨_, rfl, hencoding, by simp, ?_, .inr ⟨content, rfl⟩, fun s _ => ?_⟩
      · rintro _ ⟨rfl⟩
        exact hvec
      · have hread : DecodesSection De.footer (Wire.descriptor (.code 0x78) ++ content) [] v :=
          .basic hdecodes (hstart.mono fun _ _ => trivial) "amqp:footer:map" 0x78
        have hone := ReadsSections.one (s := s) (f := fun v => { s with footer := v }) rfl rfl
          ⟨content, rfl⟩ hread
        rwa [List.append_nil] at hone

/-- The message is put together from the sections that the loop has read. -/
theorem Message.run_of_readSections {m : Message (Body Value)} {bytes : Bytes}
    {access : De.DescribedAccess} {de : Deserializer SliceReader}
    (h : De.readSections (De.body De.value) 7 {} { counter := 0, fieldCount := 14 }
      { Deserializer.new (SliceReader.new bytes) with structEncoding := .describedBasic }
      = .ok ({ m.frontSections with body := some m.body, footer := m.footer }, access) de) :
    De.bodyMessage (Deserializer.new (SliceReader.new bytes))
      = .ok m { de with structEncoding := .none } := by
  simp only [De.bodyMessage, De.message, De.deserializeStruct, De.withStructEncoding, De.bind_run,
    if_true, StateT.run', De.map_run, h, De.pure_run]
  rfl

/-- A message is decoded from its own encoding, and the loop over the sections stops at the end of
the bytes.  The bytes split into the sections in front of the body, the body and the footer, and
the decoder of the body stops where the footer begins. -/
theorem Message.decodes_encoding {m : Message (Body Value)} (h : m.Codable) {bytes : Bytes}
    (hbytes : toVec m.bodyToSer = .ok bytes) :
    (∃ de, De.bodyMessage (Deserializer.new (SliceReader.new bytes)) = .ok m de ∧
      de.reader.slice = []) ∧
      ∃ front body back, bytes = front ++ (body ++ back) ∧
        toVec (m.body.toSer Value.toSer) = .ok body ∧
        (m.footer = none → back = []) ∧
        (∀ v, m.footer = some v → toVec (footerToSer v) = .ok back) ∧
        ∃ de, De.body De.value ({ Deserializer.new (SliceReader.new bytes) with
            structEncoding := .describedBasic }.at (body ++ back)) = .ok m.body de ∧
          de.reader.slice = back := by
  simp only [toVec, Message.bodyToSer, Message.toSer, Ser.serialize, SizeSerializer.enterStruct]
    at hbytes
  obtain ⟨se, hse, hret⟩ := Except.bind_eq_ok.mp hbytes
  cases hret
  obtain ⟨⟨se', count, buf⟩, hfields, hend⟩ := Except.bind_eq_ok.mp hse
  -- the sections in front of the body, the body, the footer
  obtain ⟨front, _, hfront, hbody⟩ := Message.writes_front h ⟨rfl, rfl, rfl⟩ rfl hfields
  simp only [Ser.serializeStructFields] at hbody
  obtain ⟨se₁, hsection, hfooter⟩ := Except.bind_eq_ok.mp hbody
  obtain ⟨body, seqType, rfl, hvec, ⟨code, content, hcode, hcontent⟩, hread⟩ :=
    Body.writes h.body _ _ rfl rfl hsection
  obtain ⟨back, hwriter, hencoding, hnone, hsome, hback, hreadBack⟩ :=
    Message.writes_footer h rfl rfl rfl hfooter
  have hwritten : se.writer = front ++ (body ++ back) := by
    simp only [Serializer.endStruct, hencoding, Except.ok.injEq] at hend
    rw [← hend]
    simpa [Serializer.popEncoding, Serializer.writeAll, Serializer.new] using hwriter
  rw [hwritten]
  have hbodySection := hread back hback
  refine ⟨?_, front, body, back, rfl, hvec, hnone, hsome, ?_⟩
  · have hone : ReadsSections 1 (body ++ back) _ back { Message.frontSections m with
        body := some m.body } :=
      .one (f := fun v => { Message.frontSections m with body := v }) hcode rfl ⟨content, hcontent⟩
        hbodySection
    have hall := ((hfront (body ++ back)).trans hone).trans (hreadBack _ rfl)
    obtain ⟨left, access, de, -, -, -, hrun⟩ := hall 7 { counter := 0, fieldCount := 14 }
      { Deserializer.new (SliceReader.new (front ++ (body ++ back))) with
        structEncoding := .describedBasic } (by omega) ⟨rfl, rfl⟩ ⟨rfl, rfl, rfl, rfl⟩
    rw [ReadsSections.readSections_end] at hrun
    exact ⟨_, Message.run_of_readSections hrun, rfl⟩
  · obtain ⟨de, -, hrun⟩ := hbodySection
      { Deserializer.new (SliceReader.new (front ++ (body ++ back))) with
        structEncoding := .describedBasic } ⟨rfl, rfl, rfl, rfl⟩
    exact ⟨_, hrun, rfl⟩

/-- Every section but the message annotations, and two data sections in front of the footer. -/
def Message.sample : Message (Body Value) where
  header := some
    { durable := true, priority := ⟨4⟩, ttl := some 300, firstAcquirer := false, deliveryCount := 0 }
  deliveryAnnotations := some [(.symbol ⟨"x-opt-sent"⟩, .timestamp 1)]
  messageAnnotations := none
  properties := some
    { messageId := some (.ulong 3), userId := none, to' := some "q", subject := none, replyTo := none,
      correlationId := none, contentType := none, contentEncoding := none,
      absoluteExpiryTime := none, creationTime := some 1, groupId := none, groupSequence := none,
      replyToGroupId := none }
  applicationProperties := some [("n", ⟨.uint 3, rfl⟩)]
  body := .data [[1, 2], []]
  footer := some [(.ulong 3, .list [.null])]

theorem Message.sample_decodes_encoding :
    ∃ bytes, toVec sample.bodyToSer = .ok bytes ∧
      ∃ de, De.bodyMessage (Deserializer.new (SliceReader.new bytes)) = .ok sample de ∧
        de.reader.slice = [] := by
  have hcodable : sample.Codable := by
    constructor
    · rintro _ ⟨rfl⟩
      refine ⟨by decide, by decide, ?_⟩
      rintro _ (_ | ⟨_, ⟨⟩⟩)
      exact ⟨by decide, by decide, by decide, by decide⟩
    · rintro _ ⟨⟩
    · rintro _ ⟨rfl⟩
      refine ⟨by decide, by decide, ?_⟩
      rintro _ (_ | ⟨_, ⟨⟩⟩)
      exact ⟨by decide, by decide, by decide, by decide⟩
    · exact List.cons_ne_nil _ _
    · rintro _ ⟨rfl⟩
      refine ⟨by decide, by decide, ?_⟩
      rintro _ (_ | ⟨_, ⟨⟩⟩)
      exact ⟨by decide, by decide, by decide, by decide⟩
  obtain ⟨bytes, hbytes⟩ : ∃ bytes, toVec sample.bodyToSer = .ok bytes := ⟨_, rfl⟩
  exact ⟨bytes, hbytes, (decodes_encoding hcodable hbytes).1⟩

end Fe2o3Amqp
