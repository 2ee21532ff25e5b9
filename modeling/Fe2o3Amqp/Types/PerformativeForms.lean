import Fe2o3Amqp.Frames.Cutting
import Fe2o3Amqp.Types.DescriptorForms

/-!
# The forms of a performative's descriptor

The encoder writes the number of a performative in one byte; a peer may write it in eight, or the name
with a short or a long length.  A frame is decoded alike in each of them.
-/

namespace Fe2o3Amqp

/-! ## Enumerations -/

/-- The variant that is chosen does not depend on the form, so neither does what it reads. -/
theorem AnyForm.describedEnum {α : Type} {name : String} {code : UInt64} {d : De SliceReader α}
    {variants : List (String × UInt64 × De SliceReader α)} {wrongName : String}
    {wrongCode : UInt64 → String} (h : AnyForm name code d)
    (hname : variants.find? (·.1 == name) = some (name, code, d))
    (hcode : variants.find? (·.2.1 == code) = some (name, code, d)) {mark mark' : Bytes}
    {descriptor descriptor' : Descriptor} (hmark : Announces mark descriptor)
    (hmark' : Announces mark' descriptor') (htype : descriptor.OfType name code)
    (htype' : descriptor'.OfType name code) (de : Deserializer SliceReader) (rest : Bytes)
    (hnative : de.nonNativeType = none) (helem : de.elemFormatCode = none) (henum : de.enumType = .none) :
    De.describedEnum variants wrongName wrongCode (de.at (mark ++ rest)) =
      De.describedEnum variants wrongName wrongCode (de.at (mark' ++ rest)) := by
  -- what is read behind the descriptor in any of its forms
  have hread : ∀ {mark : Bytes} {descriptor : Descriptor}, Announces mark descriptor →
      descriptor.OfType name code → De.describedEnum variants wrongName wrongCode (de.at (mark ++ rest)) =
        De.restoringEnumType d (de.at (mark ++ rest)) := by
    intro mark descriptor hmark htype
    obtain ⟨ident, hident, hlooked⟩ := hmark.looked de rest helem henum
    obtain ⟨tail, rfl⟩ := hmark.starts
    rw [List.cons_append] at hlooked ⊢
    simp only [De.describedEnum, De.deserializeEnum, De.bind_run, De.peekFormatCode_run _ helem,
      De.restoringEnumType, hlooked, hident]
    rcases htype with rfl | rfl <;> simp only [hname, hcode]
  rw [hread hmark htype, hread hmark' htype']
  simp only [De.restoringEnumType, h mark mark' descriptor descriptor' hmark hmark' htype htype' de rest
    hnative helem]
  rfl

/-- What is made of the value does not matter. -/
theorem AnyForm.map {α β : Type} {name : String} {code : UInt64} {d : De SliceReader α} (f : α → β)
    (h : AnyForm name code d) : AnyForm name code (do return f (← d)) := by
  intro mark mark' descriptor descriptor' hmark hmark' htype htype' de rest hnative helem
  have hsame := h mark mark' descriptor descriptor' hmark hmark' htype htype' de rest hnative helem
  simp only [De.bind_run, hsame]

namespace DescriptorForm

/-- The descriptor of a type in one of its forms. -/
def ofType (name : String) (code : UInt64) : DescriptorForm → Bytes
  | .smallUlong =>
      [EncodingCodes.describedType.toU8, EncodingCodes.smallUlong.toU8, code.toUInt8]
  | .ulong =>
      EncodingCodes.describedType.toU8 :: EncodingCodes.ulong.toU8 :: BigEndian.encode 8 code.toNat
  | .sym8 =>
      EncodingCodes.describedType.toU8 :: EncodingCodes.sym8.toU8 ::
        UInt8.ofNat (utf8Bytes name).length :: utf8Bytes name
  | .sym32 =>
      EncodingCodes.describedType.toU8 :: EncodingCodes.sym32.toU8 ::
        (BigEndian.encode 4 (utf8Bytes name).length ++ utf8Bytes name)

theorem ofType_announces {name : String} {code : UInt64} (hzero : code ≠ 0) (hcode : code.toNat ≤ 255)
    (hname : (utf8Bytes name).length ≤ u8MaxMinus1) (form : DescriptorForm) :
    ∃ descriptor : Descriptor, descriptor.OfType name code ∧
      Announces (form.ofType name code) descriptor := by
  cases form with
  | smallUlong => exact ⟨.code code, .inr rfl, .smallUlong hzero hcode⟩
  | ulong => exact ⟨.code code, .inr rfl, .ulong code⟩
  | sym8 => exact ⟨.name ⟨name⟩, .inl rfl, .sym8 hname⟩
  | sym32 => exact ⟨.name ⟨name⟩, .inl rfl, .sym32 hname⟩

end DescriptorForm

/-! ## Performatives -/

inductive PerformativeKind where
  | open | begin | attach | flow | transfer | disposition | detach | end | close
deriving DecidableEq, Repr

namespace PerformativeKind

def name : PerformativeKind → String
  | .open => "amqp:open:list"
  | .begin => "amqp:begin:list"
  | .attach => "amqp:attach:list"
  | .flow => "amqp:flow:list"
  | .transfer => "amqp:transfer:list"
  | .disposition => "amqp:disposition:list"
  | .detach => "amqp:detach:list"
  | .end => "amqp:end:list"
  | .close => "amqp:close:list"

def code : PerformativeKind → UInt64
  | .open => 0x10
  | .begin => 0x11
  | .attach => 0x12
  | .flow => 0x13
  | .transfer => 0x14
  | .disposition => 0x15
  | .detach => 0x16
  | .end => 0x17
  | .close => 0x18

theorem announces (kind : PerformativeKind) (form : DescriptorForm) :
    ∃ descriptor : Descriptor, descriptor.OfType kind.name kind.code ∧
      Announces (form.ofType kind.name kind.code) descriptor :=
  form.ofType_announces (by cases kind <;> decide) (by cases kind <;> decide)
    (by cases kind <;> decide +kernel)

variable (kind : PerformativeKind) (form form' : DescriptorForm)

theorem performative_anyForm (rest : Bytes) {de : Deserializer SliceReader}
    (hnative : de.nonNativeType = none) (helem : de.elemFormatCode = none)
    (henum : de.enumType = .none) :
    De.performative (de.at (form.ofType kind.name kind.code ++ rest)) =
      De.performative (de.at (form'.ofType kind.name kind.code ++ rest)) := by
  obtain ⟨descriptor, htype, hmark⟩ := kind.announces form
  obtain ⟨descriptor', htype', hmark'⟩ := kind.announces form'
  cases kind with
  | «open» =>
      exact AnyForm.describedEnum ((AnyForm.composite _ _ _).map Performative.open) rfl rfl
        hmark hmark' htype htype' de rest hnative helem henum
  | begin =>
      exact AnyForm.describedEnum ((AnyForm.composite _ _ _).map Performative.begin) rfl rfl
        hmark hmark' htype htype' de rest hnative helem henum
  | attach =>
      exact AnyForm.describedEnum ((AnyForm.composite _ _ _).map Performative.attach) rfl rfl
        hmark hmark' htype htype' de rest hnative helem henum
  | flow =>
      exact AnyForm.describedEnum ((AnyForm.composite _ _ _).map Performative.flow) rfl rfl
        hmark hmark' htype htype' de rest hnative helem henum
  | transfer =>
      exact AnyForm.describedEnum ((AnyForm.composite _ _ _).map Performative.transfer) rfl rfl
        hmark hmark' htype htype' de rest hnative helem henum
  | disposition =>
      exact AnyForm.describedEnum ((AnyForm.composite _ _ _).map Performative.disposition) rfl rfl
        hmark hmark' htype htype' de rest hnative helem henum
  | detach =>
      exact AnyForm.describedEnum ((AnyForm.composite _ _ _).map Performative.detach) rfl rfl
        hmark hmark' htype htype' de rest hnative helem henum
  | «end» =>
      exact AnyForm.describedEnum ((AnyForm.composite _ _ _).map Performative.end) rfl rfl
        hmark hmark' htype htype' de rest hnative helem henum
  | close =>
      exact AnyForm.describedEnum ((AnyForm.composite _ _ _).map Performative.close) rfl rfl
        hmark hmark' htype htype' de rest hnative helem henum

end PerformativeKind

namespace Performative

def kind : Performative → PerformativeKind
  | .open _ => .open
  | .begin _ => .begin
  | .attach _ => .attach
  | .flow _ => .flow
  | .transfer _ => .transfer
  | .disposition _ => .disposition
  | .detach _ => .detach
  | .end _ => .end
  | .close _ => .close

/-- The encoding of a performative is its descriptor and what is read behind it. -/
structure EncodedAs (performative read : Performative) (buf : Bytes) : Prop where
  starts : ∃ body, buf = Wire.descriptor (.code performative.kind.code) ++ body
  decodes : Decodes .none De.performative buf read

theorem encodedAs_of_roundTrips {α : Type} {code : UInt64} {t : Ser} {d : De SliceReader α} {a : α}
    {f : α → Performative} {performative : Performative} (h : CompositeRoundTrips code t d a)
    (hvariant : RoundTrips .none t De.performative (f a)) {buf : Bytes} (hbuf : toVec t = .ok buf)
    (hcode : performative.kind.code = code) : performative.EncodedAs (f a) buf := by
  subst hcode
  exact ⟨(h.serializes.toVec hbuf).1, (Serializes.toVec hvariant hbuf).2⟩

theorem encodedAs {performative : Performative} (h : performative.Codable) {buf : Bytes}
    (hbuf : toVec performative.toSer = .ok buf) : performative.EncodedAs performative.readBack buf := by
  cases performative with
  | «open» v =>
      exact encodedAs_of_roundTrips (Open.roundTrips h)
        (.variant Performative.open (Open.roundTrips h) rfl) hbuf rfl
  | begin v =>
      exact encodedAs_of_roundTrips (Begin.roundTrips h)
        (.variant Performative.begin (Begin.roundTrips h) rfl) hbuf rfl
  | attach v =>
      exact encodedAs_of_roundTrips (Attach.roundTrips h)
        (.variant Performative.attach (Attach.roundTrips h) rfl) hbuf rfl
  | flow v =>
      exact encodedAs_of_roundTrips (Flow.roundTrips h)
        (.variant Performative.flow (Flow.roundTrips h) rfl) hbuf rfl
  | transfer v =>
      exact encodedAs_of_roundTrips (Transfer.roundTrips h)
        (.variant Performative.transfer (Transfer.roundTrips h) rfl) hbuf rfl
  | disposition v =>
      exact encodedAs_of_roundTrips (Disposition.roundTrips h)
        (.variant Performative.disposition (Disposition.roundTrips h) rfl) hbuf rfl
  | detach v =>
      exact encodedAs_of_roundTrips (Detach.roundTrips h)
        (.variant Performative.detach (Detach.roundTrips h) rfl) hbuf rfl
  | «end» v =>
      exact encodedAs_of_roundTrips (End.roundTrips h)
        (.variant Performative.end (End.roundTrips h) rfl) hbuf rfl
  | close v =>
      exact encodedAs_of_roundTrips (Close.roundTrips h)
        (.variant Performative.close (Close.roundTrips h) rfl) hbuf rfl

end Performative

/-! ## Frames -/

/-- The body of a frame behind the descriptor that the encoder writes is read alike behind the
descriptor in any of its forms; what follows a transfer is its payload. -/
theorem frame_read_in_any_form {performative : Performative} (h : performative.Codable) {buf : Bytes}
    (hbuf : toVec performative.toSer = .ok buf) :
    ∃ body, buf = DescriptorForm.smallUlong.ofType performative.kind.name performative.kind.code ++ body ∧
      ∀ (form : DescriptorForm) (channel : UInt16) (payload : Payload),
        FrameDecoder.decode (frameHeader channel ++
            (form.ofType performative.kind.name performative.kind.code ++ body ++ payload)) =
          .ok ⟨channel, performative.readBack.toFrameBody payload⟩ := by
  obtain ⟨⟨body, hbody⟩, hdecodes⟩ := Performative.encodedAs h hbuf
  have hmark : Wire.descriptor (.code performative.kind.code) =
      DescriptorForm.smallUlong.ofType performative.kind.name performative.kind.code := by
    cases performative <;> rfl
  rw [hmark] at hbody
  refine ⟨body, hbody, fun form channel payload => ?_⟩
  have hne : form.ofType performative.kind.name performative.kind.code ++ body ++ payload ≠ [] := by
    cases form <;> simp [DescriptorForm.ofType]
  let de : Deserializer SliceReader := Deserializer.new (SliceReader.new
    (form.ofType performative.kind.name performative.kind.code ++ body ++ payload))
  have hread : De.performative (de.at (buf ++ payload)) =
      .ok performative.readBack (de.at payload) := hdecodes de payload rfl rfl rfl
  rw [hbody, List.append_assoc, performative.kind.performative_anyForm _ form (body ++ payload)
    rfl rfl rfl, ← List.append_assoc] at hread
  have hdecode : FrameDecoder.decodeBody
      (form.ofType performative.kind.name performative.kind.code ++ body ++ payload) =
        .ok (performative.readBack.toFrameBody payload) :=
    (FrameDecoder.decodeBody_eq_ok hne).mpr ⟨_, payload, ⟨_, hread, rfl⟩, rfl⟩
  rw [FrameDecoder.decode_header, hdecode]
  rfl

/-- The descriptor of an attach by its name. -/
theorem attach_read_by_name :
    ∃ buf body, toVec Performative.sampleAttach.toSer = .ok buf ∧
      buf = DescriptorForm.smallUlong.ofType "amqp:attach:list" 0x12 ++ body ∧
      ∀ (form : DescriptorForm) (channel : UInt16) (payload : Payload),
        FrameDecoder.decode (frameHeader channel ++
            (form.ofType "amqp:attach:list" 0x12 ++ body ++ payload)) =
          .ok ⟨channel, Performative.sampleAttach.readBack.toFrameBody payload⟩ := by
  obtain ⟨buf, hbuf⟩ : ∃ buf, toVec Performative.sampleAttach.toSer = .ok buf := ⟨_, rfl⟩
  obtain ⟨body, hbody⟩ := frame_read_in_any_form Performative.sampleAttach_codable hbuf
  exact ⟨buf, body, hbuf, hbody⟩

end Fe2o3Amqp
