import Fe2o3Amqp.Types.MessageRoundTrip

/-!
# Sections whose descriptors have different forms

Each section of a message may have its descriptor in any form.  The sections of a batch are taken
together as long as the peeked descriptor stays the same, and a name is never the same as a number.
Where the two meet, the loop over the sections comes back to the body and reads it once more.
-/

namespace Fe2o3Amqp

namespace SectionKind

/-- What a section carries. -/
def Content : SectionKind → Type
  | .header => Header
  | .deliveryAnnotations | .messageAnnotations | .footer => Annotations
  | .properties => Properties
  | .applicationProperties => ApplicationProperties
  | .data => Bytes
  | .sequence => List Value
  | .value => Value

/-- The decoder of a section. -/
def read : (kind : SectionKind) → De SliceReader kind.Content
  | .header => De.header
  | .deliveryAnnotations => De.deliveryAnnotations
  | .messageAnnotations => De.messageAnnotations
  | .properties => De.properties
  | .applicationProperties => De.applicationProperties
  | .data => De.data
  | .sequence => De.amqpSequence De.value
  | .value => De.amqpValue De.value
  | .footer => De.footer

theorem anyForm_read (kind : SectionKind) : AnyForm kind.name kind.code kind.read := by
  cases kind with
  | header | properties => exact .composite _ _ _
  | deliveryAnnotations | messageAnnotations | applicationProperties | data | sequence | value
  | footer => exact .basic _ _ _

/-- The field of the message that the section fills. -/
def field : SectionKind → SectionField
  | .header => .header
  | .deliveryAnnotations => .deliveryAnnotations
  | .messageAnnotations => .messageAnnotations
  | .properties => .properties
  | .applicationProperties => .applicationProperties
  | .data | .sequence | .value => .body
  | .footer => .footer

theorem field_ofDescriptor (kind : SectionKind) (form : DescriptorForm) :
    SectionField.ofDescriptor (form.descriptor kind) = some kind.field := by
  cases kind <;> cases form <;> rfl

end SectionKind

/-! ## Encoded sections -/

/-- A section with its descriptor in one of the forms; the content is what the decoder of the
section reads behind the shortest descriptor. -/
structure EncodedSection (kind : SectionKind) where
  form : DescriptorForm
  content : Bytes
  value : kind.Content
  isContent : ∀ suffix, DecodesSection kind.read
    (DescriptorForm.smallUlong.encode kind ++ content) suffix value

namespace EncodedSection

variable {kind : SectionKind}

def bytes (piece : EncodedSection kind) : Bytes :=
  piece.form.encode kind ++ piece.content

theorem announced (piece : EncodedSection kind) :
    Announced (piece.form.descriptor kind) piece.bytes :=
  ⟨_, _, piece.form.announces kind, rfl⟩

/-- The section is read alike in all forms. -/
theorem decodes (piece : EncodedSection kind) (suffix : Bytes) :
    DecodesSection kind.read piece.bytes suffix piece.value := by
  intro de hde
  obtain ⟨de', hde', hrun⟩ := piece.isContent suffix de hde
  refine ⟨de', hde', ?_⟩
  rw [← hrun, bytes, List.append_assoc, List.append_assoc]
  exact kind.anyForm_read _ _ _ _ (piece.form.announces kind)
    (DescriptorForm.smallUlong.announces kind) (piece.form.descriptor_ofType kind)
    (DescriptorForm.smallUlong.descriptor_ofType kind) de _ hde.nonNativeType hde.elemFormatCode

/-- A section that may be absent. -/
def optionalBytes (piece : Option (EncodedSection kind)) : Bytes :=
  (piece.map bytes).getD []

/-- The sections of a batch, one after another. -/
def batchBytes (batch : List (EncodedSection kind)) : Bytes := (batch.map bytes).flatten

/-- All of them give the name or all of them the number. -/
def OneForm (batch : List (EncodedSection kind)) : Prop :=
  ∀ s ∈ batch, ∀ t ∈ batch, s.form.isName = t.form.isName

/-- A data section. -/
def ofData (form : DescriptorForm) (v : Bytes) (h : v.length ≤ u32MaxMinus4) :
    EncodedSection .data where
  form
  content := Wire.binary v
  value := v
  isContent _ :=
    .basic (Decodes.deserializeByteBuf h) (.sized trivial trivial) "amqp:data:binary" 0x75

end EncodedSection

namespace SectionKind

/-- The encoder of a section. -/
def toSer : (kind : SectionKind) → kind.Content → Ser
  | .header => Header.toSer
  | .deliveryAnnotations => deliveryAnnotationsToSer
  | .messageAnnotations => messageAnnotationsToSer
  | .properties => Properties.toSer
  | .applicationProperties => ApplicationProperties.toSer
  | .data => dataToSer
  | .sequence => amqpSequenceToSer Value.toSer
  | .value => amqpValueToSer Value.toSer
  | .footer => footerToSer

/-- The contents that survive the round trip. -/
def Codable : (kind : SectionKind) → kind.Content → Prop
  | .header | .properties | .data => fun _ => True
  | .deliveryAnnotations | .messageAnnotations | .footer => Annotations.Codable
  | .applicationProperties => ApplicationProperties.Codable
  | .sequence => fun vs : List Value => vs.length ≤ maxArrayCount ∧ ∀ v ∈ vs, v.Codable
  | .value => Value.Codable

/-- What the encoder of a section writes. -/
theorem serializes_section {kind : SectionKind} {v : kind.Content} (h : kind.Codable v) :
    Serializes (kind.toSer v) fun bytes =>
      ∃ content, bytes = DescriptorForm.smallUlong.encode kind ++ content ∧
        ∀ suffix, DecodesSection kind.read bytes suffix v := by
  have hbasic {α : Type} {t : Ser} {d : De SliceReader α} {name : String} {code : UInt64} {a : α}
      (hround : RoundTrips .none t d a) :
      Serializes (basicToSer code t) fun bytes =>
        ∃ content, bytes = Wire.descriptor (.code code) ++ content ∧
          ∀ suffix, DecodesSection (De.basic name code d) bytes suffix a := by
    refine (WritesSection.basic hround code).serializes.mono ?_
    rintro _ ⟨content, ⟨hstart, hdecodes⟩, rfl⟩
    exact ⟨content, rfl, fun suffix => .basic hdecodes (hstart.mono fun _ _ => trivial) name code⟩
  have hcomposite {α : Type} {t : Ser} {d : De SliceReader α} {code : UInt64} {a : α}
      (hround : CompositeRoundTrips code t d a) :
      Serializes t fun bytes =>
        ∃ content, bytes = Wire.descriptor (.code code) ++ content ∧
          ∀ suffix, DecodesSection d bytes suffix a := by
    refine (Writes.serializes hround).mono ?_
    rintro _ ⟨⟨content, rfl⟩, hdecodes⟩
    exact ⟨content, rfl, fun suffix => .ofDecodes hdecodes⟩
  cases kind with
  | header => exact hcomposite (Header.roundTrips v)
  | deliveryAnnotations => exact hbasic (Annotations.roundTrips h)
  | messageAnnotations => exact hbasic (Annotations.roundTrips h)
  | properties => exact hcomposite (Properties.roundTrips v)
  | applicationProperties => exact hbasic (ApplicationProperties.roundTrips h)
  | data => exact hbasic (RoundTrips.bytes v)
  | sequence => exact hbasic (vec_roundTrips h.1 h.2)
  | value =>
      refine (WritesSection.basic (Value.writes h).serializes 0x77).serializes.mono ?_
      rintro _ ⟨content, hread, rfl⟩
      exact ⟨content, rfl, fun suffix =>
        .basic (hread.value .none) (hread.starts.mono fun _ _ => trivial) "amqp:amqp-value:*" 0x77⟩
  | footer => exact hbasic (Annotations.roundTrips h)

/-- The encoder of a section writes one with the shortest descriptor. -/
theorem exists_encodedSection {kind : SectionKind} {v : kind.Content} (h : kind.Codable v)
    {bytes : Bytes} (hbytes : toVec (kind.toSer v) = .ok bytes) :
    ∃ piece : EncodedSection kind, piece.form = .smallUlong ∧ piece.bytes = bytes ∧
      piece.value = v := by
  obtain ⟨content, rfl, hdecodes⟩ := (serializes_section h).toVec hbytes
  exact ⟨⟨.smallUlong, content, v, hdecodes⟩, rfl, rfl, rfl⟩

end SectionKind

/-- The body of an encoded message; a batch without sections is a message without a body. -/
inductive EncodedBody where
  | value (piece : EncodedSection .value)
  | data (batch : List (EncodedSection .data))
  | sequence (batch : List (EncodedSection .sequence))

namespace EncodedBody

def bytes : EncodedBody → Bytes
  | .value piece => piece.bytes
  | .data batch => EncodedSection.batchBytes batch
  | .sequence batch => EncodedSection.batchBytes batch

/-- The body with all of its sections, if there is one. -/
def body : EncodedBody → Option (Body Value)
  | .value piece => some (.value piece.value)
  | .data [] | .sequence [] => none
  | .data batch => some (.data (batch.map EncodedSection.value))
  | .sequence batch => some (.sequence (batch.map EncodedSection.value))

def OneForm : EncodedBody → Prop
  | .value _ => True
  | .data batch => EncodedSection.OneForm batch
  | .sequence batch => EncodedSection.OneForm batch

end EncodedBody

/-- The sections of a message in the order of the specification. -/
structure EncodedMessage where
  header : Option (EncodedSection .header)
  deliveryAnnotations : Option (EncodedSection .deliveryAnnotations)
  messageAnnotations : Option (EncodedSection .messageAnnotations)
  properties : Option (EncodedSection .properties)
  applicationProperties : Option (EncodedSection .applicationProperties)
  body : EncodedBody
  footer : Option (EncodedSection .footer)

namespace EncodedMessage

open EncodedSection

def frontBytes (m : EncodedMessage) : Bytes :=
  optionalBytes m.header ++ (optionalBytes m.deliveryAnnotations ++
    (optionalBytes m.messageAnnotations ++ (optionalBytes m.properties ++
      optionalBytes m.applicationProperties)))

def bytes (m : EncodedMessage) : Bytes :=
  m.frontBytes ++ (m.body.bytes ++ optionalBytes m.footer)

/-- The message with the content of every section. -/
def message (m : EncodedMessage) : Message (Body Value) where
  header := m.header.map EncodedSection.value
  deliveryAnnotations := m.deliveryAnnotations.map EncodedSection.value
  messageAnnotations := m.messageAnnotations.map EncodedSection.value
  properties := m.properties.map EncodedSection.value
  applicationProperties := m.applicationProperties.map EncodedSection.value
  body := m.body.body.getD .empty
  footer := m.footer.map EncodedSection.value

/-- A successful decoder has kept every section, whichever forms the descriptors have. -/
def SectionsKept (m : EncodedMessage) : Prop :=
  ∀ decoded, fromSlice De.bodyMessage m.bytes = .ok decoded → decoded = m.message

end EncodedMessage

/-! ## Reading the sections around the body -/

namespace ReadsSections

variable {kind : SectionKind} {s : Sections (Body Value)}

theorem encoded (piece : EncodedSection kind) {f : Option kind.Content → Sections (Body Value)}
    (hread : De.readSection (De.body De.value) s kind.field
      = do return f (← VisitSeq.nextElement kind.read)) (rest : Bytes) :
    ReadsSections 1 (piece.bytes ++ rest) s rest (f (some piece.value)) :=
  .oneOf (kind.field_ofDescriptor piece.form) hread piece.announced (piece.decodes rest)

/-- A section that may be absent is read when it is there. -/
theorem optional (piece : Option (EncodedSection kind))
    {f : Option kind.Content → Sections (Body Value)} (hnone : f none = s)
    (hread : De.readSection (De.body De.value) s kind.field
      = do return f (← VisitSeq.nextElement kind.read)) (rest : Bytes) :
    ReadsSections 1 (EncodedSection.optionalBytes piece ++ rest) s rest
      (f (piece.map EncodedSection.value)) := by
  cases piece with
  | none =>
      simp only [EncodedSection.optionalBytes, Option.map_none, Option.getD_none, List.nil_append,
        hnone]
      exact .refl 1
  | some piece => exact .encoded piece hread rest

end ReadsSections

namespace EncodedMessage

/-- What the loop has read when it comes to the body. -/
theorem reads_front (m : EncodedMessage) (rest : Bytes) :
    ReadsSections 5 (m.frontBytes ++ rest) {} rest m.message.frontSections := by
  have h₁ := ReadsSections.optional (s := {}) m.header (f := fun v => { header := v }) rfl rfl
    (EncodedSection.optionalBytes m.deliveryAnnotations ++
      (EncodedSection.optionalBytes m.messageAnnotations ++
        (EncodedSection.optionalBytes m.properties ++
          (EncodedSection.optionalBytes m.applicationProperties ++ rest))))
  have h₂ := ReadsSections.optional m.deliveryAnnotations
    (f := fun v => { header := m.message.header, deliveryAnnotations := v }) rfl rfl
    (EncodedSection.optionalBytes m.messageAnnotations ++
      (EncodedSection.optionalBytes m.properties ++
        (EncodedSection.optionalBytes m.applicationProperties ++ rest)))
  have h₃ := ReadsSections.optional m.messageAnnotations
    (f := fun v => { header := m.message.header,
                     deliveryAnnotations := m.message.deliveryAnnotations,
                     messageAnnotations := v }) rfl rfl
    (EncodedSection.optionalBytes m.properties ++
      (EncodedSection.optionalBytes m.applicationProperties ++ rest))
  have h₄ := ReadsSections.optional m.properties
    (f := fun v => { header := m.message.header,
                     deliveryAnnotations := m.message.deliveryAnnotations,
                     messageAnnotations := m.message.messageAnnotations,
                     properties := v }) rfl rfl
    (EncodedSection.optionalBytes m.applicationProperties ++ rest)
  have h₅ := ReadsSections.optional m.applicationProperties
    (f := fun v => { header := m.message.header,
                     deliveryAnnotations := m.message.deliveryAnnotations,
                     messageAnnotations := m.message.messageAnnotations,
                     properties := m.message.properties,
                     applicationProperties := v }) rfl rfl rest
  have hall := (((h₁.trans h₂).trans h₃).trans h₄).trans h₅
  simp only [frontBytes, List.append_assoc]
  exact hall

end EncodedMessage

/-! ## Reading a batch -/

/-- A kind of section of which a body may have many. -/
structure SectionKind.Batched (kind : SectionKind) (field : BodyField)
    (ctor : List kind.Content → Body Value) : Prop where
  ofDescriptor : ∀ form : DescriptorForm, BodyField.ofDescriptor (form.descriptor kind) = some field
  field_eq : kind.field = .body
  ne_footer : kind ≠ .footer
  visit : De.visitBody De.value field = do return ctor (← De.transparentVec kind.read)

theorem SectionKind.batched_data : SectionKind.Batched .data .data .data where
  ofDescriptor form := by cases form <;> rfl
  field_eq := rfl
  ne_footer := by decide
  visit := rfl

theorem SectionKind.batched_sequence : SectionKind.Batched .sequence .sequence .sequence where
  ofDescriptor form := by cases form <;> rfl
  field_eq := rfl
  ne_footer := by decide
  visit := rfl

namespace EncodedSection

variable {kind : SectionKind}

/-- What is written behind the body: nothing or the footer. -/
theorem optional_footer_ends {form : DescriptorForm} (hkind : kind ≠ .footer)
    (footer : Option (EncodedSection .footer)) :
    EndsRun (form.descriptor kind) (optionalBytes footer) := by
  cases footer with
  | none => exact .inl rfl
  | some footer =>
      refine .inr ⟨footer.form.descriptor .footer, ?_, footer.announced⟩
      intro heq
      exact hkind ((DescriptorForm.descriptor_eq_iff _ _ _ _).mp heq).1.symm

/-- The first sections of a batch are taken together up to the first one of the other form. -/
theorem exists_run (s : EncodedSection kind) (batch : List (EncodedSection kind)) :
    ∃ run rest, batch = run ++ rest ∧ (∀ t ∈ run, t.form.isName = s.form.isName) ∧
      (rest = [] ∨ ∃ t rest', rest = t :: rest' ∧ t.form.isName ≠ s.form.isName) := by
  induction batch with
  | nil => exact ⟨[], [], rfl, by simp, .inl rfl⟩
  | cons t batch ih =>
      by_cases h : t.form.isName = s.form.isName
      · obtain ⟨run, rest, rfl, hrun, hrest⟩ := ih
        refine ⟨t :: run, rest, rfl, ?_, hrest⟩
        intro u hu
        rcases List.mem_cons.mp hu with rfl | hu
        · exact h
        · exact hrun u hu
      · exact ⟨[], t :: batch, rfl, by simp, .inr ⟨t, batch, rfl, h⟩⟩

theorem isName_eq_of_mem {s : EncodedSection kind} {run : List (EncodedSection kind)}
    (hrun : ∀ t ∈ run, t.form.isName = s.form.isName) :
    ∀ t ∈ s :: run, t.form.isName = s.form.isName := by
  intro t ht
  rcases List.mem_cons.mp ht with rfl | ht
  · rfl
  · exact hrun t ht

/-- Sections of one form are read as one body. -/
theorem reads_run {field : BodyField} {ctor : List kind.Content → Body Value}
    (hkind : kind.Batched field ctor) (s : EncodedSection kind) {run : List (EncodedSection kind)}
    (hrun : ∀ t ∈ run, t.form.isName = s.form.isName) {suffix : Bytes}
    (hend : EndsRun (s.form.descriptor kind) suffix) (sections : Sections (Body Value)) :
    ReadsSections 1 (batchBytes (s :: run) ++ suffix) sections suffix
      { sections with body := some (ctor ((s :: run).map value)) } := by
  have hpieces : List.Forall₂ (fun v piece => Announced (s.form.descriptor kind) piece ∧
      ∀ suffix, DecodesSection kind.read piece suffix v) ((s :: run).map value)
        ((s :: run).map bytes) := by
    rw [List.forall₂_map_left_iff, List.forall₂_map_right_iff, List.forall₂_same]
    intro t ht
    have hdescriptor : t.form.descriptor kind = s.form.descriptor kind :=
      (DescriptorForm.descriptor_eq_iff _ _ _ _).mpr ⟨rfl, isName_eq_of_mem hrun t ht⟩
    exact ⟨hdescriptor ▸ t.announced, t.decodes⟩
  have hbatch := DecodesSection.run (by simp) hpieces hend
  have hstart : Announced (s.form.descriptor kind) (batchBytes (s :: run)) := by
    simpa only [batchBytes, List.map_cons, List.flatten_cons] using
      s.announced.append (run.map bytes).flatten
  have hbody : DecodesSection (De.body De.value) (batchBytes (s :: run)) suffix
      (ctor ((s :: run).map value)) := by
    refine .bodyOf field (hkind.ofDescriptor s.form) hstart ?_
    rw [hkind.visit]
    exact hbatch.wrap ctor
  exact .oneOf (f := fun v => { sections with body := v })
    (by rw [kind.field_ofDescriptor, hkind.field_eq]) rfl hstart hbody

/-- Behind the body there is at most the footer, which leaves the body alone. -/
theorem reads_footer (footer : Option (EncodedSection .footer)) (sections : Sections (Body Value))
    {left : Nat} {access : De.DescribedAccess} {de : Deserializer SliceReader}
    (hleft : access.Left left) (hde : de.InMessage) :
    ∃ sections' access' de', De.readSections (De.body De.value) left sections access
        (de.at (optionalBytes footer)) = .ok (sections', access') de' ∧
      sections'.body = sections.body := by
  cases left with
  | zero => exact ⟨_, _, _, rfl, rfl⟩
  | succ left =>
      cases footer with
      | none => exact ⟨_, _, _, ReadsSections.readSections_end _ _ _, rfl⟩
      | some footer =>
          have hread := ReadsSections.encoded (s := sections) footer
            (f := fun v => { sections with footer := v }) rfl []
          rw [List.append_nil] at hread
          obtain ⟨left', access', de', -, -, -, hrun⟩ :=
            hread (left + 1) access de (by omega) hleft hde
          rw [ReadsSections.readSections_end] at hrun
          exact ⟨_, _, _, hrun, rfl⟩

/-- The loop ends with a part of the batch as the body, and with less than the batch when not all of
the sections have one form. -/
theorem reads_part {field : BodyField} {ctor : List kind.Content → Body Value}
    (hkind : kind.Batched field ctor) (footer : Option (EncodedSection .footer))
    (s : EncodedSection kind) (batch : List (EncodedSection kind))
    (sections : Sections (Body Value)) {left : Nat} {access : De.DescribedAccess}
    {de : Deserializer SliceReader} (hpos : 1 ≤ left) (hleft : access.Left left)
    (hde : de.InMessage) :
    ∃ sections' access' de', De.readSections (De.body De.value) left sections access
        (de.at (batchBytes (s :: batch) ++ optionalBytes footer)) = .ok (sections', access') de' ∧
      ∃ part, sections'.body = some (ctor part) ∧ part.length ≤ batch.length + 1 ∧
        (part.length = batch.length + 1 → OneForm (s :: batch)) := by
  induction hlength : batch.length using Nat.strong_induction_on
    generalizing s batch sections left access de with
  | _ n ih =>
      obtain ⟨run, rest, rfl, hrun, hrest⟩ := exists_run s batch
      have hbytes : batchBytes (s :: (run ++ rest)) ++ optionalBytes footer
          = batchBytes (s :: run) ++ (batchBytes rest ++ optionalBytes footer) := by
        simp [batchBytes]
      rw [hbytes]
      simp only [List.length_append] at hlength
      rcases hrest with rfl | ⟨t, rest, rfl, ht⟩
      · -- the whole batch has one form
        have hread := reads_run hkind s hrun (optional_footer_ends hkind.ne_footer footer) sections
        obtain ⟨left', access', de', -, hleft', hde', heq⟩ := hread left access de hpos hleft hde
        obtain ⟨sections', access'', de'', hfooter, hbody⟩ := reads_footer footer
          { sections with body := some (ctor ((s :: run).map value)) } hleft' hde'
        refine ⟨sections', access'', de'', heq.trans hfooter, _, hbody, ?_, ?_⟩
        · simp
          omega
        · intro _ t ht u hu
          rw [List.append_nil] at ht hu
          rw [isName_eq_of_mem hrun t ht, isName_eq_of_mem hrun u hu]
      · have hother : t.form.descriptor kind ≠ s.form.descriptor kind := fun h =>
          ht ((DescriptorForm.descriptor_eq_iff _ _ _ _).mp h).2
        have hstart : Announced (t.form.descriptor kind)
            (batchBytes (t :: rest) ++ optionalBytes footer) := by
          have happend := t.announced.append ((rest.map bytes).flatten ++ optionalBytes footer)
          simpa only [batchBytes, List.map_cons, List.flatten_cons, List.append_assoc] using happend
        have hread := reads_run hkind s hrun (.inr ⟨_, hother, hstart⟩) sections
        obtain ⟨left', access', de', -, hleft', hde', heq⟩ := hread left access de hpos hleft hde
        rw [heq]
        simp only [List.length_cons] at hlength
        cases left' with
        | zero =>
            refine ⟨_, _, _, rfl, _, rfl, ?_, ?_⟩
            · simp
              omega
            · simp
              omega
        | succ left' =>
            obtain ⟨sections', access'', de'', hend, part, hbody, hle, -⟩ :=
              ih rest.length (by omega) t rest _ (by omega) hleft' hde' rfl
            exact ⟨sections', access'', de'', hend, part, hbody, by omega, by omega⟩

end EncodedSection

/-- A body of one form is read at once. -/
theorem EncodedBody.reads {body : EncodedBody} (h : body.OneForm)
    (footer : Option (EncodedSection .footer)) {sections : Sections (Body Value)}
    (hnone : sections.body = none) :
    ReadsSections 1 (body.bytes ++ EncodedSection.optionalBytes footer) sections
      (EncodedSection.optionalBytes footer) { sections with body := body.body } := by
  cases body with
  | value piece =>
      refine .oneOf (f := fun v => { sections with body := v })
        (SectionKind.value.field_ofDescriptor piece.form) rfl piece.announced ?_
      refine .bodyOf .value ?_ piece.announced ((piece.decodes _).wrap Body.value)
      cases piece.form <;> rfl
  | data batch =>
      cases batch with
      | nil =>
          have hsame : { sections with body := none } = sections := by rw [← hnone]
          simp only [EncodedBody.bytes, EncodedBody.body, EncodedSection.batchBytes, List.map_nil,
            List.flatten_nil, List.nil_append, hsame]
          exact .refl 1
      | cons s batch =>
          exact EncodedSection.reads_run SectionKind.batched_data s
            (fun t ht => h t (List.mem_cons_of_mem _ ht) s List.mem_cons_self)
            (EncodedSection.optional_footer_ends SectionKind.batched_data.ne_footer footer) sections
  | sequence batch =>
      cases batch with
      | nil =>
          have hsame : { sections with body := none } = sections := by rw [← hnone]
          simp only [EncodedBody.bytes, EncodedBody.body, EncodedSection.batchBytes, List.map_nil,
            List.flatten_nil, List.nil_append, hsame]
          exact .refl 1
      | cons s batch =>
          exact EncodedSection.reads_run SectionKind.batched_sequence s
            (fun t ht => h t (List.mem_cons_of_mem _ ht) s List.mem_cons_self)
            (EncodedSection.optional_footer_ends SectionKind.batched_sequence.ne_footer footer)
            sections

/-! ## Messages -/

/-- The message that is put together from the sections. -/
def Sections.message (sections : Sections (Body Value)) : Message (Body Value) where
  header := sections.header
  deliveryAnnotations := sections.deliveryAnnotations
  messageAnnotations := sections.messageAnnotations
  properties := sections.properties
  applicationProperties := sections.applicationProperties
  body := sections.body.getD .empty
  footer := sections.footer

namespace EncodedMessage

/-- The deserializer in front of the first section. -/
def start (bytes : Bytes) : Deserializer SliceReader :=
  { Deserializer.new (SliceReader.new bytes) with structEncoding := .describedBasic }

theorem inMessage_start (bytes : Bytes) : (start bytes).InMessage := ⟨rfl, rfl, rfl, rfl⟩

/-- The message is what the loop has read. -/
theorem fromSlice_of_readSections {bytes : Bytes} {sections : Sections (Body Value)}
    {access : De.DescribedAccess} {de : Deserializer SliceReader}
    (h : De.readSections (De.body De.value) 7 {} { counter := 0, fieldCount := 14 } (start bytes)
      = .ok (sections, access) de) :
    fromSlice De.bodyMessage bytes = .ok sections.message := by
  simp only [start] at h
  simp only [fromSlice, De.bodyMessage, De.message, De.deserializeStruct, De.withStructEncoding,
    De.bind_run, if_true, StateT.run', De.map_run, h]
  cases hbody : sections.body <;> simp [Sections.message, hbody]

/-- A message of one form is decoded to itself. -/
theorem decodes_of_oneForm {m : EncodedMessage} (h : m.body.OneForm) :
    fromSlice De.bodyMessage m.bytes = .ok m.message := by
  have hfront := m.reads_front (m.body.bytes ++ EncodedSection.optionalBytes m.footer)
  have hbody := @EncodedBody.reads m.body h m.footer m.message.frontSections rfl
  have hfooter := ReadsSections.optional (s := { m.message.frontSections with body := m.body.body })
    m.footer (f := fun v => { m.message.frontSections with body := m.body.body, footer := v })
    rfl rfl []
  rw [List.append_nil] at hfooter
  obtain ⟨left, access, de, -, -, -, hrun⟩ := ((hfront.trans hbody).trans hfooter) 7
    { counter := 0, fieldCount := 14 } (start m.bytes) (by omega) ⟨rfl, rfl⟩ (inMessage_start _)
  rw [ReadsSections.readSections_end] at hrun
  exact fromSlice_of_readSections hrun

/-- Of a batch in both forms only a part is decoded. -/
theorem decodes_part {kind : SectionKind} {field : BodyField} {ctor : List kind.Content → Body Value}
    (hkind : kind.Batched field ctor) {m : EncodedMessage} {batch : List (EncodedSection kind)}
    (hbytes : m.body.bytes = EncodedSection.batchBytes batch)
    (hmixed : ¬EncodedSection.OneForm batch) :
    ∃ decoded part, fromSlice De.bodyMessage m.bytes = .ok decoded ∧ decoded.body = ctor part ∧
      part ≠ batch.map EncodedSection.value := by
  cases batch with
  | nil => exact absurd (by simp [EncodedSection.OneForm]) hmixed
  | cons s batch =>
      have hfront := m.reads_front (m.body.bytes ++ EncodedSection.optionalBytes m.footer)
      obtain ⟨left, access, de, _, hleft, hde, hrun⟩ := hfront 7
        { counter := 0, fieldCount := 14 } (start m.bytes) (by omega) ⟨rfl, rfl⟩ (inMessage_start _)
      obtain ⟨sections, access', de', hend, part, hbody, -, hone⟩ :=
        EncodedSection.reads_part hkind m.footer s batch m.message.frontSections (by omega)
          hleft hde
      rw [← hbytes] at hend
      refine ⟨_, part, fromSlice_of_readSections (hrun.trans hend), ?_, ?_⟩
      · simp only [Sections.message, hbody, Option.getD_some]
      · rintro rfl
        exact hmixed (hone (by rw [List.length_map, List.length_cons]))

theorem not_sectionsKept_of_mixed {m : EncodedMessage} (hmixed : ¬m.body.OneForm) :
    ¬m.SectionsKept := by
  intro h
  cases hbody : m.body with
  | value piece => exact hmixed (by rw [hbody]; trivial)
  | data batch =>
      rw [hbody] at hmixed
      obtain ⟨decoded, part, hdecoded, hpart, hne⟩ :=
        decodes_part SectionKind.batched_data
          (show m.body.bytes = EncodedSection.batchBytes batch by rw [hbody]; rfl) hmixed
      have hkept := congrArg Message.body (h decoded hdecoded)
      rw [hpart, message, hbody] at hkept
      cases batch with
      | nil => cases hkept
      | cons s batch => exact hne (Body.data.inj hkept)
  | sequence batch =>
      rw [hbody] at hmixed
      obtain ⟨decoded, part, hdecoded, hpart, hne⟩ :=
        decodes_part SectionKind.batched_sequence
          (show m.body.bytes = EncodedSection.batchBytes batch by rw [hbody]; rfl) hmixed
      have hkept := congrArg Message.body (h decoded hdecoded)
      rw [hpart, message, hbody] at hkept
      cases batch with
      | nil => cases hkept
      | cons s batch => exact hne (Body.sequence.inj hkept)

/-- All sections of a message are kept exactly when its body sections all give the name of their
type or all give its number. -/
theorem sectionsKept_iff_oneForm (m : EncodedMessage) : m.SectionsKept ↔ m.body.OneForm := by
  constructor
  · intro h
    by_contra hmixed
    exact not_sectionsKept_of_mixed hmixed h
  · intro h decoded hdecoded
    rw [decodes_of_oneForm h] at hdecoded
    exact (Except.ok.inj hdecoded).symm

/-- Two data sections, one with the number and one with the name. -/
def twoForms : EncodedMessage where
  header := none
  deliveryAnnotations := none
  messageAnnotations := none
  properties := none
  applicationProperties := none
  body := .data [.ofData .smallUlong [1] (by decide), .ofData .sym8 [2] (by decide)]
  footer := none

theorem twoForms_not_sectionsKept : ¬twoForms.SectionsKept := by
  apply not_sectionsKept_of_mixed
  intro h
  have hsame := h (.ofData .smallUlong [1] (by decide)) List.mem_cons_self
    (.ofData .sym8 [2] (by decide)) (List.mem_cons_of_mem _ List.mem_cons_self)
  cases hsame

end EncodedMessage

end Fe2o3Amqp
