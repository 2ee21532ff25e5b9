import Fe2o3Amqp.Serde.Mirror

/-!
# The readers agree

Every operation of the deserializer does the same over a slice as over a stream that delivers the bytes
of the slice.  Here are those for primitive values, sequences and maps, with what each leaves of the
bytes that were peeked.
-/

namespace Fe2o3Amqp

namespace ReadersAgree

variable {strict : Bool} {α : Type}

/-- The program reads one value: nothing that was peeked in front of it is left. -/
def Reads (strict : Bool) (p : De SliceReader α) (q : De IoReader α) : Prop :=
  ∀ e, Agree (At strict e (Agree.ready e)) p q fun _ => At strict e 0

namespace Reads

open Agree

theorem parseBool : Reads strict De.parseBool De.parseBool := by
  intro e
  apply Agree.bind formatCode
  intro code
  cases code with
  | boolean =>
      refine Agree.bind next_at fun byte => ?_
      split
      · exact .pure fun _ h => h
      · exact .pure fun _ h => h
      · exact .err
  | booleanTrue => exact .pure fun _ h => h
  | booleanFalse => exact .pure fun _ h => h
  | _ => exact .err

theorem parseI8 : Reads strict De.parseI8 De.parseI8 := by
  intro e
  apply Agree.bind formatCode
  intro code
  cases code with
  | byte => exact Agree.bind next_at fun _ => .pure fun _ h => h
  | _ => exact .err

theorem parseI16 : Reads strict De.parseI16 De.parseI16 := by
  intro e
  apply Agree.bind formatCode
  intro code
  cases code with
  | short => exact (readBytes_at 2).bind fun _ => .pure fun _ h => h
  | _ => exact .err

theorem parseI32 : Reads strict De.parseI32 De.parseI32 := by
  intro e
  apply Agree.bind formatCode
  intro code
  cases code with
  | int => exact (readBytes_at 4).bind fun _ => .pure fun _ h => h
  | smallInt => exact Agree.bind next_at fun _ => .pure fun _ h => h
  | _ => exact .err

theorem parseI64 : Reads strict De.parseI64 De.parseI64 := by
  intro e
  apply Agree.bind formatCode
  intro code
  cases code with
  | long => exact (readBytes_at 8).bind fun _ => .pure fun _ h => h
  | smallLong => exact Agree.bind next_at fun _ => .pure fun _ h => h
  | _ => exact .err

theorem parseU8 : Reads strict De.parseU8 De.parseU8 := by
  intro e
  apply Agree.bind formatCode
  intro code
  cases code with
  | ubyte => exact next_at
  | _ => exact .err

theorem parseU16 : Reads strict De.parseU16 De.parseU16 := by
  intro e
  apply Agree.bind formatCode
  intro code
  cases code with
  | ushort => exact (readBytes_at 2).bind fun _ => .pure fun _ h => h
  | _ => exact .err

theorem parseU32 : Reads strict De.parseU32 De.parseU32 := by
  intro e
  apply Agree.bind formatCode
  intro code
  cases code with
  | uint => exact (readBytes_at 4).bind fun _ => .pure fun _ h => h
  | smallUint => exact Agree.bind next_at fun _ => .pure fun _ h => h
  | uint0 => exact .pure fun _ h => h
  | _ => exact .err

theorem parseU64 : Reads strict De.parseU64 De.parseU64 := by
  intro e
  apply Agree.bind formatCode
  intro code
  cases code with
  | ulong => exact (readBytes_at 8).bind fun _ => .pure fun _ h => h
  | smallUlong => exact Agree.bind next_at fun _ => .pure fun _ h => h
  | ulong0 => exact .pure fun _ h => h
  | _ => exact .err

theorem parseF32 : Reads strict De.parseF32 De.parseF32 := by
  intro e
  apply Agree.bind formatCode
  intro code
  cases code with
  | float => exact (readBytes_at 4).bind fun _ => .pure fun _ h => h
  | _ => exact .err

theorem parseF64 : Reads strict De.parseF64 De.parseF64 := by
  intro e
  apply Agree.bind formatCode
  intro code
  cases code with
  | double => exact (readBytes_at 8).bind fun _ => .pure fun _ h => h
  | _ => exact .err

theorem parseChar : Reads strict De.parseChar De.parseChar := by
  intro e
  apply Agree.bind formatCode
  intro code
  cases code with
  | char =>
      refine (readBytes_at 4).bind fun bytes => ?_
      cases De.charFromU32 (BigEndian.decode bytes) with
      | none => exact .err
      | some c => exact .pure fun _ h => h
  | _ => exact .err

theorem stringFromUtf8 (bytes : Bytes) {e : Option EncodingCodes} :
    Agree (At strict e 0) (De.stringFromUtf8 bytes) (De.stringFromUtf8 bytes)
      fun _ => At strict e 0 := by
  simp only [De.stringFromUtf8]
  cases fromUtf8 bytes with
  | none => exact .err
  | some text => exact .pure fun _ h => h

theorem readSmallString {text : String} {e : Option EncodingCodes} :
    Agree (At strict e 0) (De.readSmallString text) (De.readSmallString text)
      fun _ => At strict e 0 :=
  Agree.bind next_at fun len => (readBytes_at len.toNat).bind fun bytes =>
    (stringFromUtf8 bytes).pre fun _ h => by simpa using h

theorem readString {e : Option EncodingCodes} :
    Agree (At strict e 0) De.readString De.readString fun _ => At strict e 0 :=
  readU32.bind fun len => (readBytes_at len).bind fun bytes =>
    (stringFromUtf8 bytes).pre fun _ h => by simpa using h

theorem parseString : Reads strict De.parseString De.parseString := by
  intro e
  apply Agree.bind formatCode
  intro code
  cases code with
  | str8 => exact readSmallString
  | str32 => exact readString
  | _ => exact .err

theorem parseSymbol : Reads strict De.parseSymbol De.parseSymbol := by
  intro e
  apply Agree.bind formatCode
  intro code
  cases code with
  | sym8 => exact readSmallString
  | sym32 => exact readString
  | _ => exact .err

/-- Bytes behind a length. -/
theorem sized {p : De SliceReader Bytes} {q : De IoReader Bytes} {e : Option EncodingCodes} {n : Nat}
    (h : Agree (At strict e 0) p q fun _ => At strict e (0 - n)) :
    Agree (At strict e 0) p q fun _ => At strict e 0 :=
  h.post fun _ t ht => by simpa using ht

theorem parseBinary : Reads strict De.parseBinary De.parseBinary := by
  intro e
  apply Agree.bind formatCode
  intro code
  cases code with
  | vbin8 => exact Agree.bind next_at fun len => sized (readBytes_at len.toNat)
  | vbin32 => exact readU32.bind fun len => sized (readBytes_at len)
  | _ => exact .err

theorem forward_at (n : Nat) {e : Option EncodingCodes} :
    Agree (At strict e 0) (De.read (Read.forwardReadBytesWithHint n))
      (De.read (Read.forwardReadBytesWithHint n)) fun _ => At strict e 0 :=
  sized (of_bytes fun _ => (forwardReadBytesWithHint n).post fun _ _ h => h.1)

theorem parseDecimal : Reads strict De.parseDecimal De.parseDecimal := by
  intro e
  apply Agree.bind formatCode
  intro code
  cases code with
  | decimal32 => exact forward_at 4
  | decimal64 => exact forward_at 8
  | decimal128 => exact forward_at 16
  | _ => exact .err

theorem parseUuid : Reads strict De.parseUuid De.parseUuid := by
  intro e
  apply Agree.bind formatCode
  intro code
  cases code with
  | uuid => exact forward_at 16
  | _ => exact .err

theorem parseTimestamp : Reads strict De.parseTimestamp De.parseTimestamp := by
  intro e
  apply Agree.bind formatCode
  intro code
  cases code with
  | timestamp => exact (readBytes_at 8).bind fun _ => .pure fun _ h => h
  | _ => exact .err

theorem parseUnit : Reads strict De.parseUnit De.parseUnit := by
  intro e
  apply Agree.bind formatCode
  intro code
  cases code with
  | null => exact .pure fun _ h => h
  | _ => exact .err

theorem setNonNativeType (nonNativeType : Option NonNativeType) {e : Option EncodingCodes} {k : Nat} :
    Agree (At strict e k) (De.setNonNativeType nonNativeType) (De.setNonNativeType nonNativeType)
      fun _ => At strict e k :=
  modify fun _ _ h hat =>
    ⟨⟨h.reader, rfl, h.seqType, h.enumType, h.structEncoding, h.elemFormatCode⟩, hat.code, hat.peeked⟩

theorem setEnumType (enumType : EnumType) {e : Option EncodingCodes} {k : Nat} :
    Agree (At strict e k) (De.setEnumType enumType) (De.setEnumType enumType)
      fun _ t => At strict e k t ∧ t.enumType = enumType :=
  modify fun _ _ h hat =>
    ⟨⟨h.reader, h.nonNativeType, h.seqType, rfl, h.structEncoding, h.elemFormatCode⟩,
      ⟨hat.code, hat.peeked⟩, rfl⟩

theorem setElemFormatCode (e' : Option EncodingCodes) {e : Option EncodingCodes} {k : Nat} :
    Agree (At strict e k) (De.setElemFormatCode e') (De.setElemFormatCode e')
      fun _ => At strict e' k :=
  modify fun _ _ h hat =>
    ⟨⟨h.reader, h.nonNativeType, h.seqType, h.enumType, h.structEncoding, rfl⟩, rfl, hat.peeked⟩

theorem deserializeI64 : Reads strict De.deserializeI64 De.deserializeI64 := by
  intro e
  apply get_choose
  intro s t hmirrors
  rw [hmirrors.nonNativeType]
  split
  · exact (setNonNativeType none).bind fun _ => parseTimestamp e
  · exact parseI64 e

theorem deserializeString : Reads strict De.deserializeString De.deserializeString := by
  intro e
  apply get_choose
  intro s t hmirrors
  rw [hmirrors.nonNativeType]
  split
  · exact (setNonNativeType none).bind fun _ => parseSymbol e
  · exact parseString e

theorem deserializeStr : Reads strict De.deserializeStr De.deserializeStr := by
  intro e
  have hforward : ∀ n, Agree (At strict e 0) (De.read (Read.forwardReadStr n))
      (De.read (Read.forwardReadStr n)) fun _ => At strict e 0 := fun n =>
    (forwardReadStr n).post fun _ _ h => by simpa using h
  apply Agree.bind formatCode
  intro code
  cases code with
  | str8 | sym8 => exact Agree.bind next_at fun len => hforward len.toNat
  | str32 | sym32 => exact readU32.bind hforward
  | _ => exact Agree.err.bind hforward

/-! ## Whole values -/

theorem readEncodedLenBytes (width : Nat) {e : Option EncodingCodes} :
    Agree (At strict e 1) (De.readEncodedLenBytes width) (De.readEncodedLenBytes width)
      fun _ => At strict e 0 := by
  apply of_bytes
  intro bytes
  refine (peekBytes (width + 1)).bind fun header => ?_
  exact (readBytes_at _).mono (fun _ h => h.1) fun _ _ h => h.le (by omega)

theorem readPrimitiveBytesOrElse {described : De SliceReader Bytes} {described' : De IoReader Bytes}
    {e : Option EncodingCodes}
    (hdescribed : Agree (At strict e 1) described described' fun _ => At strict e 0) :
    Agree (At strict e 1) (De.readPrimitiveBytesOrElse described)
      (De.readPrimitiveBytesOrElse described') fun _ => At strict e 0 := by
  refine Agree.bind peek_at fun byte => ?_
  cases byte with
  | none => exact .err
  | some byte =>
      refine (ofExcept _ fun _ _ h => h).bind fun code => ?_
      cases Category.tryFrom code with
      | none => exact hdescribed
      | some category =>
          rcases category with width | width | width | width
          · exact (readBytes_at _).post fun _ _ h => h.le (by omega)
          · exact readEncodedLenBytes width
          · exact readEncodedLenBytes width
          · exact readEncodedLenBytes width

theorem readDescribedBytes {e : Option EncodingCodes} :
    Agree (At strict e 1) De.readDescribedBytes De.readDescribedBytes fun _ => At strict e 0 := by
  have hprimitive : Agree (At strict e 0) (De.readPrimitiveBytesOrElse (De.err .invalidFormatCode))
      (De.readPrimitiveBytesOrElse (De.err .invalidFormatCode)) fun _ => At strict e 0 :=
    (readPrimitiveBytesOrElse .err).pre fun _ h => h.le (Nat.zero_le 1)
  exact (readBytes_at 1).bind fun _ => hprimitive.bind fun _ => hprimitive.bind fun _ =>
    .pure fun _ h => h

theorem deserializeByteBuf : Reads strict De.deserializeByteBuf De.deserializeByteBuf := by
  intro e
  apply get_choose
  intro s t hmirrors
  rw [hmirrors.nonNativeType]
  split
  · exact parseBinary e
  · exact (readPrimitiveBytesOrElse readDescribedBytes).pre fun _ h => h.le (ready_le e)
  · exact .panic

theorem deserializeBytes : Reads strict De.deserializeBytes De.deserializeBytes := by
  intro e
  apply get_choose
  intro s t hmirrors
  rw [hmirrors.nonNativeType]
  split
  · exact (setNonNativeType none).bind fun _ => parseDecimal e
  · exact (setNonNativeType none).bind fun _ => parseDecimal e
  · exact (setNonNativeType none).bind fun _ => parseDecimal e
  · exact (setNonNativeType none).bind fun _ => parseUuid e
  · exact .panic
  · apply Agree.bind formatCode
    intro code
    cases code with
    | vbin8 => exact Agree.bind next_at fun len => forward_at len.toNat
    | vbin32 => exact readU32.bind fun len => forward_at len
    | _ => exact Agree.err.bind fun len => forward_at len

end Reads

/-! ## Sequences and maps -/

/-- Nothing is left peeked. -/
def Settled (strict : Bool) (t : Deserializer IoReader) : Prop := At strict t.elemFormatCode 0 t

/-- A value is read: nothing is left peeked, and no element code where there was none before. -/
structure Left (strict : Bool) (e : Option EncodingCodes) (t : Deserializer IoReader) : Prop where
  settled : Settled strict t
  code : e = none → t.elemFormatCode = none

/-- The program reads one value, and ends the arrays that it enters. -/
def Nested (strict : Bool) (p : De SliceReader α) (q : De IoReader α) : Prop :=
  ∀ e, Agree (At strict e (Agree.ready e)) p q fun _ => Left strict e

/-- The program reads one value outside of arrays. -/
def Plain (strict : Bool) (p : De SliceReader α) (q : De IoReader α) : Prop :=
  Agree (At strict none 1) p q fun _ => At strict none 0

section

variable {β : Type} {e : Option EncodingCodes} {p : De SliceReader α} {q : De IoReader α}
  {p' : De SliceReader β} {q' : De IoReader β}

theorem At.left {t : Deserializer IoReader} (h : At strict e 0 t) : Left strict e t := by
  obtain ⟨rfl, hpeeked⟩ := h
  exact ⟨⟨rfl, hpeeked⟩, fun hnone => hnone⟩

theorem Left.at_none {t : Deserializer IoReader} (h : Left strict none t) : At strict none 0 t :=
  ⟨h.code rfl, h.settled.peeked⟩

theorem Reads.nested (h : Reads strict p q) : Nested strict p q := fun e => (h e).post fun _ _ ht => ht.left

theorem Nested.plain (h : Nested strict p q) : Plain strict p q := (h none).post fun _ _ ht => ht.at_none

theorem Reads.plain (h : Reads strict p q) : Plain strict p q := h.nested.plain

/-- A value behind another one. -/
theorem Nested.after (h : Nested strict p q) : Agree (Left strict e) p q fun _ => Left strict e := by
  apply Agree.of_forall
  intro t₀ hleft
  refine (h t₀.elemFormatCode).mono ?_ fun _ t ht => ⟨ht.settled, fun hnone => ht.code (hleft.code hnone)⟩
  rintro _ rfl
  exact hleft.settled.le (Nat.zero_le _)

theorem Nested.settled (h : Nested strict p q) : Agree (Settled strict) p q fun _ => Settled strict := by
  apply Agree.of_forall
  intro t₀ hsettled
  refine (h t₀.elemFormatCode).mono ?_ fun _ t ht => ht.settled
  rintro _ rfl
  exact hsettled.le (Nat.zero_le _)

namespace Agree

theorem bytesConsumed {P : Deserializer IoReader → Prop} :
    Agree P De.bytesConsumed De.bytesConsumed fun _ => P := by
  rintro s t ⟨hmirrors, hP⟩
  have hsame : Read.bytesConsumed s.reader = Read.bytesConsumed t.reader := by
    have hconsumed := hmirrors.reader.consumed
    simp only [Read.bytesConsumed]
    omega
  simp only [De.bytesConsumed, hsame]
  exact .ok ⟨hmirrors, hP⟩

theorem sub {P : Deserializer IoReader → Prop} (a b : Nat) :
    Agree P (De.sub a b) (De.sub a b) fun _ => P := by
  simp only [De.sub]
  split_ifs
  · exact panic
  · exact .pure fun _ h => h

end Agree

open Agree in
theorem arrayAccess (offset len count : Nat) :
    Agree (At strict e 0) (De.arrayAccess offset len count) (De.arrayAccess offset len count)
      fun access t => Settled strict t ∧ ∀ count, access ≠ .list count := by
  have hsettled : ∀ {e t}, At strict e 0 t → Settled strict t := fun h => h.left.settled
  simp only [De.arrayAccess]
  split_ifs
  · exact .err
  · exact Agree.bind bytesConsumed fun startPos => .pure fun t h => ⟨hsettled h, by simp⟩
  · exact Agree.bind readFormatCode fun code => (Reads.setElemFormatCode (some code)).bind fun _ =>
      (sub len offset).bind fun len => Agree.bind bytesConsumed fun startPos =>
        .pure fun t h => ⟨hsettled h, by simp⟩

open Agree in
theorem seqAccess :
    Agree (At strict e (ready e)) De.seqAccess De.seqAccess
      fun access t => Settled strict t ∧ ∀ count, access = .list count → Left strict e t := by
  have harray : ∀ {e : Option EncodingCodes} (offset len count : Nat),
      Agree (At strict e 0) (De.arrayAccess offset len count) (De.arrayAccess offset len count)
        fun access t => Settled strict t ∧ ∀ count, access = .list count → Left strict e t := by
    intro e offset len count
    exact (arrayAccess offset len count).post fun access t h =>
      ⟨h.1, fun count hlist => absurd hlist (h.2 count)⟩
  have hnone : ∀ {t}, At strict none 0 t → Settled strict t ∧ Left strict e t := fun h =>
    ⟨h.left.settled, h.left.settled, fun _ => h.code⟩
  apply Agree.bind formatCode
  intro code
  cases code with
  | array8 => exact Agree.bind next_at fun len => Agree.bind next_at fun count => harray _ _ _
  | array32 => exact readU32.bind fun len => readU32.bind fun count => harray _ _ _
  | list0 => exact .pure fun t h => ⟨h.left.settled, fun _ _ => h.left⟩
  | list8 =>
      exact Agree.bind next_at fun len => Agree.bind next_at fun count => (sub _ _).bind fun _ =>
        (Reads.setElemFormatCode none).bind fun _ => .pure fun t h => ⟨(hnone h).1, fun _ _ => (hnone h).2⟩
  | list32 =>
      refine readU32.bind fun len => readU32.bind fun count => ?_
      split_ifs
      · exact .err
      · exact (sub _ _).bind fun _ => (Reads.setElemFormatCode none).bind fun _ =>
          .pure fun t h => ⟨(hnone h).1, fun _ _ => (hnone h).2⟩
  | _ => exact .err

namespace Nested

theorem listElements (h : Nested strict p q) (count : Nat) :
    Agree (Left strict e) (De.listElements p count) (De.listElements q count)
      fun _ => Left strict e := by
  induction count with
  | zero => exact .pure fun _ ht => ht
  | succ count ih => exact h.after.bind fun _ => ih.bind fun _ => .pure fun _ ht => ht

theorem arrayElements (h : Nested strict p q) (size startPos count : Nat) :
    Agree (Settled strict) (De.arrayElements p size startPos count)
      (De.arrayElements q size startPos count) fun _ => At strict none 0 := by
  induction count with
  | zero =>
      apply Agree.of_forall
      intro t₀ hsettled
      refine Agree.pre ?_ (M := At strict t₀.elemFormatCode 0) ?_
      · exact (Reads.setElemFormatCode none).bind fun _ => .pure fun _ ht => ht
      · rintro _ rfl
        exact hsettled
  | succ count ih =>
      refine h.settled.bind fun _ => Agree.bind Agree.bytesConsumed fun consumed => ?_
      split_ifs
      · exact .err
      · exact ih.bind fun _ => .pure fun _ ht => ht

theorem deserializeVec (h : Nested strict p q) :
    Nested strict (De.deserializeVec p) (De.deserializeVec q) := by
  intro e
  apply seqAccess.bind
  intro access
  cases access with
  | array size count startPos =>
      exact (h.arrayElements size startPos count).mono (fun _ ht => ht.1) fun _ _ ht =>
        ⟨ht.left.settled, fun _ => ht.code⟩
  | list count => exact (h.listElements count).pre fun _ ht => ht.2 count rfl

end Nested

theorem mapCount : Reads strict De.mapCount De.mapCount := by
  intro e
  apply Agree.bind Agree.formatCode
  intro code
  cases code with
  | map8 =>
      exact Agree.bind Agree.next_at fun size => Agree.bind Agree.next_at fun count => (Agree.sub _ _).bind fun _ =>
        .pure fun _ h => h
  | map32 =>
      refine Agree.readU32.bind fun size => Agree.readU32.bind fun count => ?_
      split_ifs
      · exact .err
      · exact (Agree.sub _ _).bind fun _ => .pure fun _ h => h
  | _ => exact .err

theorem mapEntries (eq : α → α → Bool) {I : Deserializer IoReader → Prop}
    (hkey : Agree I p q fun _ => I) (hvalue : Agree I p' q' fun _ => I) (count : Nat)
    (map : OrderedMap α β) :
    Agree I (De.mapEntries eq p p' count map) (De.mapEntries eq q q' count map) fun _ => I := by
  induction count using Nat.twoStepInduction generalizing map with
  | zero => exact .pure fun _ h => h
  | one => exact .panic
  | more count ih _ => exact hkey.bind fun k => hvalue.bind fun v => ih (map.insert eq k v)

theorem deserializeMap (eq : α → α → Bool) (hkey : Nested strict p q) (hvalue : Nested strict p' q') :
    Nested strict (De.deserializeMap eq p p') (De.deserializeMap eq q q') := fun e =>
  (mapCount e).bind fun count => (mapEntries eq hkey.after hvalue.after count []).pre fun _ h => h.left

theorem Plain.deserializeMap (eq : α → α → Bool) (hkey : Plain strict p q) (hvalue : Plain strict p' q') :
    Plain strict (De.deserializeMap eq p p') (De.deserializeMap eq q q') :=
  (mapCount none).bind fun count => mapEntries eq (hkey.pre fun _ h => h.le (Nat.zero_le 1))
    (hvalue.pre fun _ h => h.le (Nat.zero_le 1)) count []

end

end ReadersAgree

end Fe2o3Amqp
