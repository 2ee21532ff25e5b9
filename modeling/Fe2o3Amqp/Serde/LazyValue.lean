import Fe2o3Amqp.Serde.Decodes
import Fe2o3Amqp.Serde.Grammar
import Fe2o3Amqp.Serde.Mirror

/-!
# Capturing a value unread

`LazyValue` takes the bytes of the next value from a reader: the format code says how long the value
is, or where its length stands.  A described value is taken as its mark, its descriptor and the value
behind it, neither of which may be described again.
-/

namespace Fe2o3Amqp

/-- `LazyValue::from_reader`. -/
def LazyValue.fromReader {R : Type} [Read R] (reader : R) : Except Failure Bytes × R :=
  match De.readPrimitiveBytesOrElse De.readDescribedBytes (Deserializer.new reader) with
  | .ok bytes de => (.ok bytes, de.reader)
  | .error failure de => (.error failure, de.reader)

/-! ## Readers that hand out their bytes in order -/

/-- What a reader hands out while it has enough bytes. -/
class LawfulRead (R : Type) [Read R] where
  unread : R → Bytes
  peek_spec : ∀ r : R, ∃ r', Read.peek r = ((unread r).head?, r') ∧ unread r' = unread r
  peekBytes_spec : ∀ (n : Nat) (r : R), n ≤ (unread r).length →
    ∃ r', Read.peekBytes n r = (.ok (some ((unread r).take n)), r') ∧ unread r' = unread r
  readExact_spec : ∀ (n : Nat) (r : R), n ≤ (unread r).length →
    ∃ r', Read.readExact n r = (.ok ((unread r).take n), r') ∧ unread r' = (unread r).drop n

instance : LawfulRead SliceReader where
  unread r := r.slice
  peek_spec r := ⟨r, rfl, rfl⟩
  peekBytes_spec n r h := ⟨r, by simp only [Read.peekBytes, if_pos h], rfl⟩
  readExact_spec n r h := ⟨_, by simp only [Read.readExact, if_pos h]; rfl, rfl⟩

instance : LawfulRead IoReader where
  unread := IoReader.unread
  peek_spec r := by
    obtain ⟨r', hpeek, hunread, -⟩ := r.peek_spec
    exact ⟨r', hpeek, hunread⟩
  peekBytes_spec n r h := by
    simp only [Read.peekBytes]
    obtain ⟨-, r', hfill, hunread, -, hbuf, -⟩ | ⟨hlt, -⟩ := r.fillBuffer_cases n
    · rw [hfill]
      refine ⟨r', ?_, hunread⟩
      dsimp only
      rw [IoReader.take_buf hbuf, hunread]
    · omega
  readExact_spec n r h := by
    obtain ⟨-, r', hread, hunread, -⟩ | ⟨hlt, -⟩ := r.readExact_spec n
    · exact ⟨r', hread, hunread⟩
    · omega

namespace De

variable {R : Type} [Read R] [LawfulRead R] {α β : Type}

open LawfulRead (unread)

/-- In front of the bytes `before` the program returns `a` and leaves the bytes `after`; it changes
nothing but the reader. -/
def Takes (program : De R α) (a : α) (before after : Bytes) : Prop :=
  ∀ de : Deserializer R, unread de.reader = before →
    ∃ reader, program de = .ok a { de with reader } ∧ unread reader = after

/-- In front of the bytes the program fails. -/
def Refuses (program : De R α) (before : Bytes) : Prop :=
  ∀ de : Deserializer R, unread de.reader = before → ∃ failure de', program de = .error failure de'

section Rules

variable {p : De R α} {f : α → De R β} {a : α} {b : β} {before middle after : Bytes}

theorem Takes.pure (a : α) (before : Bytes) : Takes (Pure.pure a : De R α) a before before :=
  fun de h => ⟨de.reader, rfl, h⟩

theorem Takes.bind (h : Takes p a before middle) (h' : Takes (f a) b middle after) :
    Takes (p >>= f) b before after := by
  intro de hde
  obtain ⟨reader, hrun, hunread⟩ := h de hde
  obtain ⟨reader', hrun', hunread'⟩ := h' { de with reader } hunread
  exact ⟨reader', by rw [bind_run, hrun]; exact hrun', hunread'⟩

theorem Takes.bind_refuses (h : Takes p a before middle) (h' : Refuses (f a) middle) :
    Refuses (p >>= f) before := by
  intro de hde
  obtain ⟨reader, hrun, hunread⟩ := h de hde
  obtain ⟨failure, de', hrun'⟩ := h' { de with reader } hunread
  exact ⟨failure, de', by rw [bind_run, hrun]; exact hrun'⟩

theorem Refuses.bind (h : Refuses p before) : Refuses (p >>= f) before := by
  intro de hde
  obtain ⟨failure, de', hrun⟩ := h de hde
  exact ⟨failure, de', by rw [bind_run, hrun]⟩

theorem refuses_err (e : SerdeError) (before : Bytes) : Refuses (err e : De R α) before :=
  fun de _ => ⟨.err e, de, rfl⟩

end Rules

section Reading

variable {bytes rest : Bytes}

theorem takes_peek (byte : UInt8) (rest : Bytes) :
    Takes (R := R) peek (some byte) (byte :: rest) (byte :: rest) := by
  intro de hde
  obtain ⟨reader, hpeek, hunread⟩ := LawfulRead.peek_spec de.reader
  rw [hde] at hpeek hunread
  exact ⟨reader, by simp only [peek, hpeek, List.head?_cons], hunread⟩

theorem takes_readBytes (bytes rest : Bytes) :
    Takes (R := R) (readBytes bytes.length) bytes (bytes ++ rest) rest := by
  intro de hde
  have henough : bytes.length ≤ (unread de.reader).length := by simp [hde]
  obtain ⟨reader, hread, hunread⟩ := LawfulRead.readExact_spec bytes.length de.reader henough
  rw [hde, List.take_left] at hread
  rw [hde, List.drop_left] at hunread
  exact ⟨reader, by simp only [readBytes, read, hread], hunread⟩

theorem takes_peekBytes (bytes rest : Bytes) (text : String) :
    Takes (R := R) (peekBytes bytes.length text) bytes (bytes ++ rest) (bytes ++ rest) := by
  intro de hde
  have henough : bytes.length ≤ (unread de.reader).length := by simp [hde]
  obtain ⟨reader, hpeek, hunread⟩ := LawfulRead.peekBytes_spec bytes.length de.reader henough
  rw [hde, List.take_left] at hpeek
  rw [hde] at hunread
  refine ⟨reader, ?_, hunread⟩
  simp only [peekBytes, bind_run, read, hpeek, pure_run]

/-- A size field and as many bytes as it says. -/
theorem takes_readEncodedLenBytes (code : UInt8) {width : Nat} {body : Bytes}
    (hbody : body.length < 256 ^ width) (rest : Bytes) :
    Takes (R := R) (readEncodedLenBytes width)
      (code :: (BigEndian.encode width body.length ++ body))
      (code :: (BigEndian.encode width body.length ++ body) ++ rest) rest := by
  have hheader := takes_peekBytes (R := R) (code :: BigEndian.encode width body.length)
    (body ++ rest) "parse LazyValue"
  have hwhole := takes_readBytes (R := R) (code :: (BigEndian.encode width body.length ++ body)) rest
  have hsplit : code :: (BigEndian.encode width body.length ++ body) ++ rest =
      code :: BigEndian.encode width body.length ++ (body ++ rest) := by simp
  have hlength : (code :: (BigEndian.encode width body.length ++ body)).length =
      1 + width + body.length := by
    simp only [List.length_cons, List.length_append, BigEndian.length_encode]
    omega
  rw [← hsplit, List.length_cons, BigEndian.length_encode] at hheader
  rw [hlength] at hwhole
  refine hheader.bind ?_
  rw [List.drop_succ_cons, List.drop_zero, BigEndian.decode_encode_of_lt hbody]
  exact hwhole

end Reading

section Values

variable {v descriptor value : Encoded} {op : De R Bytes}

/-- A value of a fixed width is read whole. -/
theorem takes_fixed {code : EncodingCodes} {data : Bytes}
    (hcode : Category.tryFrom code = some (.fixed data.length)) (op : De R Bytes) (rest : Bytes) :
    Takes (readPrimitiveBytesOrElse op) (code.toU8 :: data) (code.toU8 :: data ++ rest) rest := by
  refine (takes_peek code.toU8 (data ++ rest)).bind ?_
  simp only [EncodingCodes.tryFrom_toU8, ofExcept_ok, pure_bind, hcode]
  have hread := takes_readBytes (R := R) (code.toU8 :: data) rest
  rwa [List.length_cons] at hread

/-- So is a value behind a size field. -/
theorem takes_sized {code : EncodingCodes} {width : Nat} {body : Bytes}
    (hcode : Category.tryFrom code = some (.variable width) ∨
      Category.tryFrom code = some (.compound width) ∨ Category.tryFrom code = some (.array width))
    (hbody : body.length < 256 ^ width) (op : De R Bytes) (rest : Bytes) :
    Takes (readPrimitiveBytesOrElse op)
      (code.toU8 :: (BigEndian.encode width body.length ++ body))
      (code.toU8 :: (BigEndian.encode width body.length ++ body) ++ rest) rest := by
  refine (takes_peek code.toU8 (BigEndian.encode width body.length ++ body ++ rest)).bind ?_
  have hread := takes_readEncodedLenBytes (R := R) code.toU8 hbody rest
  rcases hcode with hcode | hcode | hcode <;>
    simp only [EncodingCodes.tryFrom_toU8, ofExcept_ok, pure_bind, hcode] <;> exact hread

theorem takes_primitive (hv : v.WellFormed) (hprimitive : v.isDescribed = false) (op : De R Bytes)
    (suffix : Bytes) :
    Takes (readPrimitiveBytesOrElse op) v.bytes (v.bytes ++ suffix) suffix := by
  cases v with
  | fixed code data => exact takes_fixed hv op suffix
  | «variable» code data =>
      obtain ⟨hcode, hlength⟩ := hv
      exact takes_sized (.inl hcode) hlength op suffix
  | compound code items =>
      obtain ⟨hcode, -, hsize, -⟩ := hv
      refine takes_sized (.inr (.inl hcode)) ?_ op suffix
      rwa [List.length_append, BigEndian.length_encode]
  | array code model elements =>
      obtain ⟨hcode, -, hsize, -⟩ := hv
      refine takes_sized (.inr (.inr hcode)) ?_ op suffix
      rwa [List.append_assoc, List.length_append, BigEndian.length_encode]
  | described descriptor value => cases hprimitive

/-- In front of a described value the reader does what it is told for one. -/
theorem takes_described {a : Bytes} {rest after : Bytes}
    (h : Takes op a (EncodingCodes.describedType.toU8 :: rest) after) :
    Takes (readPrimitiveBytesOrElse op) a (EncodingCodes.describedType.toU8 :: rest) after := by
  refine (takes_peek EncodingCodes.describedType.toU8 rest).bind ?_
  simp only [EncodingCodes.tryFrom_toU8, ofExcept_ok, pure_bind]
  exact h

theorem refuses_described {rest : Bytes}
    (h : Refuses op (EncodingCodes.describedType.toU8 :: rest)) :
    Refuses (readPrimitiveBytesOrElse op) (EncodingCodes.describedType.toU8 :: rest) := by
  refine (takes_peek EncodingCodes.describedType.toU8 rest).bind_refuses ?_
  simp only [EncodingCodes.tryFrom_toU8, ofExcept_ok, pure_bind]
  exact h

theorem bytes_described (descriptor value : Encoded) : (Encoded.described descriptor value).bytes =
    EncodingCodes.describedType.toU8 :: (descriptor.bytes ++ value.bytes) := by
  simp [Encoded.bytes, Encoded.constructor, Encoded.data]

theorem exists_bytes_of_isDescribed (h : v.isDescribed = true) :
    ∃ rest, v.bytes = EncodingCodes.describedType.toU8 :: rest := by
  cases v with
  | described descriptor value => exact ⟨_, bytes_described descriptor value⟩
  | fixed code data => cases h
  | «variable» code data => cases h
  | compound code items => cases h
  | array code model elements => cases h

theorem refuses_nested (h : v.isDescribed = true) (suffix : Bytes) :
    Refuses (readPrimitiveBytesOrElse (err .invalidFormatCode : De R Bytes))
      (v.bytes ++ suffix) := by
  obtain ⟨rest, hbytes⟩ := exists_bytes_of_isDescribed h
  rw [hbytes]
  exact refuses_described (refuses_err _ _)

theorem takes_readDescribedBytes (hdescriptor : descriptor.WellFormed) (hvalue : value.WellFormed)
    (hd : descriptor.isDescribed = false) (hv : value.isDescribed = false) (suffix : Bytes) :
    Takes (R := R) readDescribedBytes (Encoded.described descriptor value).bytes
      ((Encoded.described descriptor value).bytes ++ suffix) suffix := by
  rw [bytes_described, List.cons_append, List.append_assoc]
  refine (takes_readBytes [EncodingCodes.describedType.toU8] _).bind ?_
  refine (takes_primitive hdescriptor hd _ _).bind ?_
  refine (takes_primitive hvalue hv _ _).bind ?_
  exact Takes.pure _ _

theorem refuses_readDescribedBytes (hdescriptor : descriptor.WellFormed)
    (hnested : descriptor.isDescribed = true ∨ value.isDescribed = true) (suffix : Bytes) :
    Refuses (R := R) readDescribedBytes ((Encoded.described descriptor value).bytes ++ suffix) := by
  rw [bytes_described, List.cons_append, List.append_assoc]
  refine (takes_readBytes [EncodingCodes.describedType.toU8] _).bind_refuses ?_
  cases hd : descriptor.isDescribed with
  | true => exact (refuses_nested hd _).bind
  | false =>
      have hv := hnested.resolve_left (by simp [hd])
      refine (takes_primitive hdescriptor hd _ _).bind_refuses ?_
      exact (refuses_nested hv _).bind

end Values

end De

/-- The value is not described, or neither its descriptor nor the value behind it is. -/
def Encoded.Flat : Encoded → Prop
  | .described descriptor value => descriptor.isDescribed = false ∧ value.isDescribed = false
  | _ => True

section Capture

variable {R : Type} [Read R] [LawfulRead R] {v : Encoded}

open LawfulRead (unread)

theorem De.takes_or_refuses (hv : v.WellFormed) (suffix : Bytes) :
    (v.Flat ∧ Takes (R := R) (readPrimitiveBytesOrElse readDescribedBytes) v.bytes
        (v.bytes ++ suffix) suffix) ∨
      (¬v.Flat ∧
        Refuses (R := R) (readPrimitiveBytesOrElse readDescribedBytes) (v.bytes ++ suffix)) := by
  by_cases hdescribed : v.isDescribed = true
  · cases v with
    | described descriptor value =>
        obtain ⟨hdescriptor, hvalue⟩ := hv
        have hbytes := bytes_described descriptor value
        by_cases hflat : (Encoded.described descriptor value).Flat
        · refine .inl ⟨hflat, ?_⟩
          have htakes := takes_readDescribedBytes (R := R) hdescriptor hvalue hflat.1 hflat.2 suffix
          rw [hbytes] at htakes ⊢
          exact takes_described htakes
        · refine .inr ⟨hflat, ?_⟩
          have hnested : descriptor.isDescribed = true ∨ value.isDescribed = true := by
            by_contra hneither
            simp only [not_or, Bool.not_eq_true] at hneither
            exact hflat hneither
          have hrefuses := refuses_readDescribedBytes (R := R) hdescriptor hnested suffix
          rw [hbytes] at hrefuses ⊢
          exact refuses_described hrefuses
    | fixed code data => cases hdescribed
    | «variable» code data => cases hdescribed
    | compound code items => cases hdescribed
    | array code model elements => cases hdescribed
  · have hprimitive := Bool.not_eq_true _ ▸ hdescribed
    refine .inl ⟨?_, takes_primitive hv hprimitive _ suffix⟩
    cases v with
    | described descriptor value => cases hprimitive
    | fixed code data => trivial
    | «variable» code data => trivial
    | compound code items => trivial
    | array code model elements => trivial

omit [LawfulRead R] in
theorem De.lazyValue_eq (de : Deserializer R) :
    De.lazyValue de = (readPrimitiveBytesOrElse readDescribedBytes >>= fun bytes =>
      if Read.forwardReadByteBuf R = .byteBuf then pure bytes else invalidType)
        { de with nonNativeType := some .lazyValue } := by
  have hset : (setNonNativeType (some .lazyValue) : De R Unit) de =
      .ok () { de with nonNativeType := some .lazyValue } := rfl
  have hbuf : (deserializeByteBuf : De R Bytes) { de with nonNativeType := some .lazyValue } =
      readPrimitiveBytesOrElse readDescribedBytes { de with nonNativeType := some .lazyValue } := rfl
  simp only [lazyValue, bind_run, hset, hbuf]
  cases Read.forwardReadByteBuf R <;> rfl

/-- A value in front of any suffix is captured, byte for byte and no further, exactly if no described
value stands inside its description; through a `Deserialize` implementation it must also be read from
a slice. -/
theorem captured_iff_flat (hv : v.WellFormed) (suffix : Bytes) (reader : R)
    (hreader : unread reader = v.bytes ++ suffix) :
    ((∃ reader', LazyValue.fromReader reader = (.ok v.bytes, reader') ∧ unread reader' = suffix) ↔
        v.Flat) ∧
      ((∃ de, De.lazyValue (Deserializer.new reader) = .ok v.bytes de ∧ unread de.reader = suffix) ↔
        v.Flat ∧ Read.forwardReadByteBuf R = .byteBuf) := by
  rw [De.lazyValue_eq]
  obtain ⟨hflat, htakes⟩ | ⟨hflat, hrefuses⟩ := De.takes_or_refuses (R := R) hv suffix
  · obtain ⟨reader', hrun, hunread⟩ := htakes (Deserializer.new reader) hreader
    obtain ⟨reader'', hrun', hunread'⟩ :=
      htakes { Deserializer.new reader with nonNativeType := some .lazyValue } hreader
    refine ⟨⟨fun _ => hflat, fun _ => ⟨reader', ?_, hunread⟩⟩, ?_⟩
    · simp only [LazyValue.fromReader, hrun]
    · simp only [De.bind_run, hrun']
      by_cases hforward : Read.forwardReadByteBuf R = .byteBuf
      · rw [if_pos hforward]
        exact ⟨fun _ => ⟨hflat, hforward⟩, fun _ => ⟨_, rfl, hunread'⟩⟩
      · rw [if_neg hforward]
        refine ⟨?_, fun h => absurd h.2 hforward⟩
        rintro ⟨de, hok, -⟩
        cases hok
  · obtain ⟨failure, de', hrun⟩ := hrefuses (Deserializer.new reader) hreader
    obtain ⟨failure', de'', hrun'⟩ :=
      hrefuses { Deserializer.new reader with nonNativeType := some .lazyValue } hreader
    refine ⟨⟨?_, fun h => absurd h hflat⟩, ⟨?_, fun h => absurd h.1 hflat⟩⟩
    · rintro ⟨reader', hok, -⟩
      simp only [LazyValue.fromReader, hrun, Prod.mk.injEq, reduceCtorEq, false_and] at hok
    · rintro ⟨de, hok, -⟩
      simp only [De.bind_run, hrun', reduceCtorEq] at hok

end Capture

section Witnesses

/-- A null behind a descriptor, in front of two more bytes. -/
private def describedNull : Encoded :=
  .described (.fixed .smallUlong [1]) (.fixed .null [])

theorem describedNull_captured_iff_flat :
    ((∃ reader', LazyValue.fromReader (SliceReader.new (describedNull.bytes ++ [1, 2])) =
          (.ok describedNull.bytes, reader') ∧ LawfulRead.unread reader' = [1, 2]) ↔
        describedNull.Flat) ∧
      ((∃ de, De.lazyValue
            (Deserializer.new (SliceReader.new (describedNull.bytes ++ [1, 2]))) =
          .ok describedNull.bytes de ∧ LawfulRead.unread de.reader = [1, 2]) ↔
        describedNull.Flat ∧ Read.forwardReadByteBuf SliceReader = .byteBuf) := by
  have hwellFormed : describedNull.WellFormed := ⟨rfl, rfl⟩
  exact captured_iff_flat hwellFormed [1, 2] (SliceReader.new (describedNull.bytes ++ [1, 2])) rfl

/-- A described value inside a described value is refused. -/
theorem nested_not_captured :
    ¬∀ (v : Encoded) (suffix : Bytes), v.WellFormed →
      ∃ reader', LazyValue.fromReader (SliceReader.new (v.bytes ++ suffix)) =
        (.ok v.bytes, reader') ∧ LawfulRead.unread reader' = suffix := by
  intro hclaim
  obtain ⟨reader', hcaptured, -⟩ :=
    hclaim (.described (.fixed .smallUlong [2]) describedNull) [] ⟨rfl, rfl, rfl⟩
  have hrefused : (LazyValue.fromReader (SliceReader.new
      ((Encoded.described (.fixed .smallUlong [2]) describedNull).bytes ++ []))).1 =
        .error (.err .invalidFormatCode) := rfl
  rw [hcaptured] at hrefused
  cases hrefused

end Witnesses

end Fe2o3Amqp
