import Fe2o3Amqp.Types.PerformativesAgree

/-!
# Decoding from a stream

A value is decoded alike by `from_slice` and by `from_reader`, whatever chunks the stream hands out;
except that no `LazyValue` is decoded from a stream.
-/

namespace Fe2o3Amqp

/-- The types that are decoded from either reader. -/
inductive Decodable where
  | value | symbol | lazyValue | performative
  | open | begin | attach | flow | transfer | disposition | detach | «end» | close
deriving DecidableEq, Repr

namespace Decodable

def Result : Decodable → Type
  | .value => Value
  | .symbol => Symbol
  | .lazyValue => Bytes
  | .performative => Performative
  | .open => Open
  | .begin => Begin
  | .attach => Attach
  | .flow => Flow
  | .transfer => Transfer
  | .disposition => Disposition
  | .detach => Detach
  | .end => End
  | .close => Close

def decode {R : Type} [Read R] : (t : Decodable) → De R t.Result
  | .value => De.value
  | .symbol => De.symbol
  | .lazyValue => De.lazyValue
  | .performative => De.performative
  | .open => De.openPerformative
  | .begin => De.beginPerformative
  | .attach => De.attach
  | .flow => De.flow
  | .transfer => De.transfer
  | .disposition => De.disposition
  | .detach => De.detach
  | .end => De.endPerformative
  | .close => De.close

/-- Whether the value holds the durability of a terminus, which may be looked at without being read. -/
def holdsTerminus : (t : Decodable) → t.Result → Bool
  | .attach, _ => true
  | .performative, v => Performative.isAttach v
  | _, _ => false

/-- `from_slice` and `from_reader` return the same value and leave the same bytes unread, or both fail.
What the stream's reader has not handed out is unread, and none of it is in the buffer unless the value
holds a terminus. -/
def DecodesAlike (t : Decodable) (bytes : Bytes) (source : ChunkSource) : Prop :=
  Outcomes (fun a s t' => s.reader.slice = t'.reader.unread ∧
      (t.holdsTerminus a = false → t'.reader.buf = []))
    (t.decode (Deserializer.new (SliceReader.new bytes)))
    (t.decode (Deserializer.new (IoReader.new source)))

end Decodable

/-! ## Encoded values -/

/-- The length of the primitive value that the bytes start with, its constructor included. -/
def primitiveLength : Bytes → Option Nat
  | [] => none
  | code :: rest =>
      match EncodingCodes.tryFrom code with
      | .error _ => none
      | .ok code =>
          match Category.tryFrom code with
          | some (.fixed width) => some (1 + width)
          | some (.variable width) | some (.compound width) | some (.array width) =>
              if rest.length < width then none
              else some (1 + width + BigEndian.decode (rest.take width))
          | none => none

/-- What follows the primitive value that the bytes start with. -/
def behindPrimitive (bytes : Bytes) : Option Bytes :=
  (primitiveLength bytes).bind fun n => if n ≤ bytes.length then some (bytes.drop n) else none

/-- The bytes start with a whole value: a primitive one, or one described by a primitive one. -/
def StartsWithValue (bytes : Bytes) : Prop :=
  (behindPrimitive bytes).isSome ∨
    ∃ rest, bytes = 0 :: rest ∧ ((behindPrimitive rest).bind behindPrimitive).isSome

namespace De

theorem eq_zero_of_describedType {code : UInt8}
    (h : EncodingCodes.tryFrom code = .ok .describedType) : code = 0 := by
  unfold EncodingCodes.tryFrom at h
  split at h <;> first | rfl | cases h

/-- The slice behind a value. -/
def atSlice (s : Deserializer SliceReader) (slice : Bytes) : Deserializer SliceReader :=
  { s with reader := { s.reader with slice } }

theorem readBytes_slice (n : Nat) (s : Deserializer SliceReader) :
    (n ≤ s.reader.slice.length ∧
        readBytes n s = .ok (s.reader.slice.take n) (atSlice s (s.reader.slice.drop n))) ∨
      (s.reader.slice.length < n ∧ ∃ failure s', readBytes n s = .error failure s') := by
  simp only [readBytes, read, Read.readExact]
  by_cases hle : n ≤ s.reader.slice.length
  · rw [if_pos hle]
    exact .inl ⟨hle, rfl⟩
  · rw [if_neg hle]
    exact .inr ⟨not_le.mp hle, _, _, rfl⟩

theorem behindPrimitive_of_length {bytes : Bytes} {n : Nat} (h : primitiveLength bytes = some n) :
    (n ≤ bytes.length → behindPrimitive bytes = some (bytes.drop n)) ∧
      (bytes.length < n → behindPrimitive bytes = none) := by
  simp only [behindPrimitive, h, Option.bind_some]
  exact ⟨fun hle => if_pos hle, fun hlt => if_neg (not_le.mpr hlt)⟩

/-- A value of a fixed width. -/
theorem readFixed_slice (width : Nat) (s : Deserializer SliceReader)
    (hlength : primitiveLength s.reader.slice = some (1 + width)) :
    (∃ rest bytes, behindPrimitive s.reader.slice = some rest ∧
        readBytes (width + 1) s = .ok bytes (atSlice s rest)) ∨
      (behindPrimitive s.reader.slice = none ∧
        ∃ failure s', readBytes (width + 1) s = .error failure s') := by
  rw [Nat.add_comm] at hlength
  rcases readBytes_slice (width + 1) s with ⟨hle, hread⟩ | ⟨hlt, hread⟩
  · exact .inl ⟨_, _, (behindPrimitive_of_length hlength).1 hle, hread⟩
  · exact .inr ⟨(behindPrimitive_of_length hlength).2 hlt, hread⟩

/-- A value behind a size field. -/
theorem readEncodedLenBytes_slice (width : Nat) (s : Deserializer SliceReader) {code : UInt8}
    {rest : Bytes} (hslice : s.reader.slice = code :: rest)
    (hlength : primitiveLength s.reader.slice = if rest.length < width then none
      else some (1 + width + BigEndian.decode (rest.take width))) :
    (∃ rest' bytes, behindPrimitive s.reader.slice = some rest' ∧
        readEncodedLenBytes width s = .ok bytes (atSlice s rest')) ∨
      (behindPrimitive s.reader.slice = none ∧
        ∃ failure s', readEncodedLenBytes width s = .error failure s') := by
  have hpeek : readEncodedLenBytes width s = if rest.length < width then
      .error (.err (.unexpectedEof "parse LazyValue")) s
    else readBytes (1 + width + BigEndian.decode (rest.take width)) s := by
    simp only [readEncodedLenBytes, peekBytes, read, bind, EStateM.bind, Read.peekBytes, hslice,
      List.length_cons]
    by_cases hshort : rest.length < width
    · rw [if_pos hshort, if_neg (by omega)]
      rfl
    · rw [if_neg hshort, if_pos (by omega)]
      rfl
  rw [hpeek]
  by_cases hshort : rest.length < width
  · rw [if_pos hshort] at hlength ⊢
    exact .inr ⟨by simp only [behindPrimitive, hlength, Option.bind_none], _, _, rfl⟩
  · rw [if_neg hshort] at hlength ⊢
    rcases readBytes_slice (1 + width + BigEndian.decode (rest.take width)) s with ⟨hle, hread⟩ |
      ⟨hlt, hread⟩
    · exact .inl ⟨_, _, (behindPrimitive_of_length hlength).1 hle, hread⟩
    · exact .inr ⟨(behindPrimitive_of_length hlength).2 hlt, hread⟩

/-- Over a slice, a primitive value is read where the bytes start with one. -/
theorem readPrimitiveBytesOrElse_slice (described : De SliceReader Bytes)
    (s : Deserializer SliceReader) :
    (∃ rest bytes, behindPrimitive s.reader.slice = some rest ∧
        readPrimitiveBytesOrElse described s = .ok bytes (atSlice s rest)) ∨
      (behindPrimitive s.reader.slice = none ∧
        ((∃ rest, s.reader.slice = 0 :: rest ∧ readPrimitiveBytesOrElse described s = described s) ∨
          (∀ rest, s.reader.slice ≠ 0 :: rest) ∧
            ∃ failure s', readPrimitiveBytesOrElse described s = .error failure s')) := by
  cases hslice : s.reader.slice with
  | nil =>
      refine .inr ⟨rfl, .inr ⟨by simp, .err (.unexpectedEof "parse LazyValue"), s, ?_⟩⟩
      simp only [readPrimitiveBytesOrElse, peek, bind, EStateM.bind, Read.peek, hslice, List.head?_nil]
      rfl
  | cons code rest =>
      cases hcode : EncodingCodes.tryFrom code with
      | error e =>
          have hnonzero : ∀ rest', code :: rest ≠ 0 :: rest' := by
            rintro rest' h
            rw [(List.cons.inj h).1] at hcode
            cases hcode
          refine .inr ⟨by simp [behindPrimitive, primitiveLength, hcode], .inr ⟨hnonzero, .err e, s, ?_⟩⟩
          simp only [readPrimitiveBytesOrElse, peek, bind, EStateM.bind, Read.peek, hslice,
            List.head?_cons, hcode, ofExcept]
          rfl
      | ok format =>
          cases hcategory : Category.tryFrom format with
          | none =>
              have hrun : readPrimitiveBytesOrElse described s = described s := by
                simp only [readPrimitiveBytesOrElse, peek, bind, EStateM.bind, Read.peek, hslice,
                  List.head?_cons, hcode, ofExcept, pure, EStateM.pure, hcategory]
              obtain rfl : format = .describedType := by
                cases format <;> first | rfl | cases hcategory
              obtain rfl := eq_zero_of_describedType hcode
              exact .inr ⟨by simp [behindPrimitive, primitiveLength, hcode, hcategory],
                .inl ⟨rest, rfl, hrun⟩⟩
          | some category =>
              have hnonzero : ∀ rest', code :: rest ≠ 0 :: rest' := by
                rintro rest' h
                rw [(List.cons.inj h).1] at hcode
                cases hcode
                cases hcategory
              rw [← hslice] at hnonzero ⊢
              refine Or.imp_right (fun h => ⟨h.1, .inr ⟨hnonzero, h.2⟩⟩) (?_ :
                (∃ rest bytes, behindPrimitive s.reader.slice = some rest ∧
                  readPrimitiveBytesOrElse described s = .ok bytes (atSlice s rest)) ∨
                (behindPrimitive s.reader.slice = none ∧
                  ∃ failure s', readPrimitiveBytesOrElse described s = .error failure s'))
              simp only [readPrimitiveBytesOrElse, peek, bind, EStateM.bind, Read.peek, hslice,
                List.head?_cons, hcode, ofExcept, pure, EStateM.pure, hcategory]
              rw [← hslice]
              rcases category with width | width | width | width
              · exact readFixed_slice width s (by simp only [hslice, primitiveLength, hcode, hcategory])
              · exact readEncodedLenBytes_slice width s hslice
                  (by simp only [hslice, primitiveLength, hcode, hcategory])
              · exact readEncodedLenBytes_slice width s hslice
                  (by simp only [hslice, primitiveLength, hcode, hcategory])
              · exact readEncodedLenBytes_slice width s hslice
                  (by simp only [hslice, primitiveLength, hcode, hcategory])

/-- A primitive value only. -/
theorem readPrimitive_slice (s : Deserializer SliceReader) :
    (∃ rest bytes, behindPrimitive s.reader.slice = some rest ∧
        readPrimitiveBytesOrElse (err .invalidFormatCode) s = .ok bytes (atSlice s rest)) ∨
      (behindPrimitive s.reader.slice = none ∧
        ∃ failure s', readPrimitiveBytesOrElse (err .invalidFormatCode) s = .error failure s') := by
  rcases readPrimitiveBytesOrElse_slice (err .invalidFormatCode) s with
    hread | ⟨hnone, ⟨rest, -, hdescribed⟩ | ⟨-, hfails⟩⟩
  · exact .inl hread
  · exact .inr ⟨hnone, _, _, hdescribed⟩
  · exact .inr ⟨hnone, hfails⟩

theorem readDescribedBytes_slice (s : Deserializer SliceReader) (rest : Bytes)
    (hslice : s.reader.slice = 0 :: rest) :
    (∃ bytes s', readDescribedBytes s = .ok bytes s') ↔
      ((behindPrimitive rest).bind behindPrimitive).isSome := by
  have hmark : readBytes 1 s = .ok [0] (atSlice s rest) := by
    rcases readBytes_slice 1 s with ⟨-, hread⟩ | ⟨hshort, -⟩
    · rw [hread, hslice]
      rfl
    · rw [hslice, List.length_cons] at hshort
      omega
  simp only [readDescribedBytes, bind, EStateM.bind, hmark]
  rcases readPrimitive_slice (atSlice s rest) with ⟨rest', descriptor, hbehind, hread⟩ |
    ⟨hbehind, failure, s', hread⟩
  · have hsome : behindPrimitive rest = some rest' := hbehind
    simp only [hread, hsome, Option.bind_some]
    rcases readPrimitive_slice (atSlice (atSlice s rest) rest') with ⟨rest'', value, hbehind, hread⟩ |
      ⟨hbehind, failure, s', hread⟩
    · have hsome : behindPrimitive rest' = some rest'' := hbehind
      rw [hread, hsome]
      exact ⟨fun _ => rfl, fun _ => ⟨_, _, rfl⟩⟩
    · have hnone : behindPrimitive rest' = none := hbehind
      rw [hread, hnone]
      simp
  · have hnone : behindPrimitive rest = none := hbehind
    rw [hread, hnone]
    simp

/-- Over a slice, a `LazyValue` is decoded where the bytes start with a whole value. -/
theorem lazyValue_slice (bytes : Bytes) :
    (∃ v s', lazyValue (Deserializer.new (SliceReader.new bytes)) = .ok v s') ↔
      StartsWithValue bytes := by
  generalize hs : ({ Deserializer.new (SliceReader.new bytes) with
    nonNativeType := some .lazyValue } : Deserializer SliceReader) = s
  have hslice : s.reader.slice = bytes := by
    rw [← hs]
    rfl
  have hrun : (∃ v s', lazyValue (Deserializer.new (SliceReader.new bytes)) = .ok v s') ↔
      ∃ v s', readPrimitiveBytesOrElse readDescribedBytes s = .ok v s' := by
    have heq : lazyValue (Deserializer.new (SliceReader.new bytes)) =
        (readPrimitiveBytesOrElse readDescribedBytes >>= pure) s := by
      rw [← hs]
      rfl
    rw [heq, bind_pure]
  rw [hrun, StartsWithValue]
  rcases readPrimitiveBytesOrElse_slice readDescribedBytes s with
    ⟨rest, v, hbehind, hread⟩ | ⟨hnone, ⟨rest, hzero, hdescribed⟩ | ⟨hnonzero, failure, s', hfails⟩⟩
  · rw [hslice] at hbehind
    rw [hread, hbehind]
    exact ⟨fun _ => .inl rfl, fun _ => ⟨_, _, rfl⟩⟩
  · rw [hdescribed, readDescribedBytes_slice s rest hzero]
    rw [hslice] at hnone hzero
    rw [hnone, hzero]
    constructor
    · exact fun h => .inr ⟨rest, rfl, h⟩
    · rintro (h | ⟨rest', hrest, h⟩)
      · cases h
      · rw [(List.cons.inj hrest).2]
        exact h
  · rw [hslice] at hnone hnonzero
    rw [hfails, hnone]
    constructor
    · rintro ⟨_, _, ⟨⟩⟩
    · rintro (h | ⟨rest, hrest, -⟩)
      · cases h
      · exact absurd hrest (hnonzero rest)

/-- Over a stream, the visitor of `LazyValue` is handed bytes that it does not take. -/
theorem lazyValue_stream (t : Deserializer IoReader) :
    ∃ failure t', lazyValue t = .error failure t' := by
  have hrun : lazyValue t = (deserializeByteBuf >>= fun _ => invalidType)
      { t with nonNativeType := some .lazyValue } := rfl
  rw [hrun]
  simp only [bind, EStateM.bind]
  cases deserializeByteBuf { t with nonNativeType := some .lazyValue } with
  | ok bytes t' => exact ⟨_, _, rfl⟩
  | error failure t' => exact ⟨_, _, rfl⟩

end De

/-! ## Both readers -/

namespace Decodable

open ReadersAgree

/-- The readers at their start. -/
theorem mirrors_new (source : ChunkSource) :
    Mirrors (Deserializer.new (SliceReader.new source.bytes)) (Deserializer.new (IoReader.new source)) ∧
      At true none 1 (Deserializer.new (IoReader.new source)) :=
  ⟨⟨⟨rfl, (Nat.zero_add _).symm⟩, rfl, rfl, rfl, rfl, rfl⟩, rfl, fun _ => Nat.zero_le 1⟩

/-- A program of which the readers agree that it reads one value. -/
theorem decodesAlike_of_agree {t : Decodable} {source : ChunkSource}
    (h : Agree (At true none 1) t.decode t.decode fun a t' =>
      t.holdsTerminus a = false → At true none 0 t') : t.DecodesAlike source.bytes source := by
  refine Outcomes.mono ?_ (h _ _ (mirrors_new source))
  rintro a s t' ⟨hmirrors, hat⟩
  refine ⟨hmirrors.reader.unread, fun hother => ?_⟩
  have hlength := (hat hother).peeked rfl
  exact List.eq_nil_of_length_eq_zero (Nat.le_zero.mp hlength)

theorem decodesAlike_of_plain {t : Decodable} {source : ChunkSource}
    (h : Plain true (t.decode (R := SliceReader)) (t.decode (R := IoReader))) :
    t.DecodesAlike source.bytes source :=
  decodesAlike_of_agree (h.post fun _ _ ht _ => ht)

theorem lazyValue_decodesAlike (source : ChunkSource) :
    DecodesAlike .lazyValue source.bytes source ↔ ¬StartsWithValue source.bytes := by
  rw [← De.lazyValue_slice]
  obtain ⟨failure, t', hstream⟩ := De.lazyValue_stream (Deserializer.new (IoReader.new source))
  simp only [DecodesAlike, decode, hstream]
  cases De.lazyValue (Deserializer.new (SliceReader.new source.bytes)) with
  | ok v s' =>
      constructor
      · rintro ⟨⟩
      · exact fun h => absurd ⟨v, s', rfl⟩ h
  | error failure' s' =>
      constructor
      · rintro - ⟨_, _, ⟨⟩⟩
      · exact fun _ => .error

/-- Every type is decoded alike from a slice and from a stream that delivers its bytes, in whatever
chunks; but for lazy values, which are not decoded from a stream at all. -/
theorem decodesAlike_iff (t : Decodable) (source : ChunkSource) :
    t.DecodesAlike source.bytes source ↔ (t = .lazyValue → ¬StartsWithValue source.bytes) := by
  by_cases hlazy : t = .lazyValue
  · subst hlazy
    rw [lazyValue_decodesAlike]
    exact ⟨fun h _ => h, fun h => h rfl⟩
  · refine ⟨fun _ h => absurd h hlazy, fun _ => ?_⟩
    cases t with
    | lazyValue => exact absurd rfl hlazy
    | value => exact decodesAlike_of_plain ReadersAgree.value.plain
    | symbol => exact decodesAlike_of_plain ReadersAgree.symbol.plain
    | performative => exact decodesAlike_of_agree ReadersAgree.performative
    | «open» => exact decodesAlike_of_plain ReadersAgree.openPerformative.plain
    | begin => exact decodesAlike_of_plain ReadersAgree.beginPerformative.plain
    | attach =>
        refine decodesAlike_of_agree (ReadersAgree.attach.plain.mono (fun t ht => ⟨ht.code, by simp⟩) ?_)
        rintro _ _ _ ⟨⟩
    | flow => exact decodesAlike_of_plain ReadersAgree.flow.plain
    | transfer => exact decodesAlike_of_plain ReadersAgree.transfer.plain
    | disposition => exact decodesAlike_of_plain ReadersAgree.disposition.plain
    | detach => exact decodesAlike_of_plain ReadersAgree.detach.plain
    | «end» => exact decodesAlike_of_plain ReadersAgree.endPerformative.plain
    | close => exact decodesAlike_of_plain ReadersAgree.close.plain

/-- The null value as a `LazyValue`. -/
theorem lazy_null_differs : ¬DecodesAlike .lazyValue [0x40] [⟨[0x40], by decide⟩] := by
  intro h
  obtain ⟨failure, t', hstream⟩ := De.lazyValue_stream
    (Deserializer.new (IoReader.new [⟨[0x40], by decide⟩]))
  simp only [DecodesAlike, decode, hstream] at h
  cases h

end Decodable

end Fe2o3Amqp
