import Fe2o3Amqp.Serde.Composite
import Fe2o3Amqp.Serde.ValueRoundTrip

/-!
# Round trip of composites

A composite is read back field by field.  The rules below go through the derived encoder and the
derived decoder at once: one rule a kind of field, which asks for the round trip of the field's
value and leaves that of the remaining fields.
-/

namespace Fe2o3Amqp

namespace Wire

/-- The elements of the list that holds the fields; `none` stands for a postponed field and `nulls`
counts those before. -/
def fields (nulls : Nat) : List (Option Bytes) → List Bytes
  | [] => []
  | none :: pieces => fields (nulls + 1) pieces
  | some piece :: pieces =>
      List.replicate nulls [EncodingCodes.null.toU8] ++ piece :: fields 0 pieces

/-- Postponed fields come to nothing unless a field is written after them. -/
theorem fields_eq (nulls : Nat) (pieces : List (Option Bytes)) :
    fields nulls pieces = if fields 0 pieces = [] then []
      else List.replicate nulls [EncodingCodes.null.toU8] ++ fields 0 pieces := by
  induction pieces generalizing nulls with
  | nil => rfl
  | cons piece pieces ih =>
      cases piece with
      | none =>
          have hone := ih 1
          simp only [fields, ih (nulls + 1), Nat.zero_add, hone]
          split
          · rfl
          · simp [List.replicate_succ']
      | some piece => simp [fields]

end Wire

/-! ## What a composite writes -/

/-- What is written for a field satisfies the property; a postponed field writes nothing. -/
def CompositeField.Writes (field : CompositeField) (P : Option Bytes → Prop) : Prop :=
  match field.value with
  | none => P none
  | some t => Serializes t fun bytes => P (some bytes)

theorem Ser.serializeStructFields_nulls {se : Serializer}
    (h : se.structEncoding = .describedList) (nulls : List String) (count : Nat) (buf : Bytes)
    (fields : List (FieldKey × Ser)) :
    Ser.serializeStructFields se count buf
        (nulls.map (fun null => (FieldKey.name null, Ser.unit)) ++ fields)
      = Ser.serializeStructFields se (count + nulls.length)
          (buf ++ (List.replicate nulls.length [EncodingCodes.null.toU8]).flatten) fields := by
  induction nulls generalizing count buf with
  | nil => simp
  | cons null nulls ih =>
      rw [List.map_cons, List.cons_append, Ser.serializeStructFields_describedList h]
      have hunit : Ser.unit.serialize (Serializer.describedList buf)
          = .ok ((Serializer.describedList buf).writeAll [EncodingCodes.null.toU8]) := by
        simp [Ser.serialize, Serializer.serializeUnit]
      have hwriter : ((Serializer.describedList buf).writeAll [EncodingCodes.null.toU8]).writer
          = buf ++ [EncodingCodes.null.toU8] := rfl
      simp only [hunit, bind, Except.bind, hwriter, ih, List.length_cons, List.replicate_succ,
        List.flatten_cons, List.append_assoc]
      rw [Nat.add_assoc, Nat.add_comm 1]

theorem CompositeField.writes_fields {se : Serializer} (hse : se.structEncoding = .describedList)
    {fields : List CompositeField} {Ps : List (Option Bytes → Prop)}
    (h : List.Forall₂ CompositeField.Writes fields Ps) {nulls : List String} {count : Nat}
    {buf : Bytes} {r : Serializer × Nat × Bytes}
    (hrun : Ser.serializeStructFields se count buf (compositeFields nulls fields) = .ok r) :
    ∃ pieces, List.Forall₂ (fun P piece => P piece) Ps pieces ∧
      r = (se, count + (Wire.fields nulls.length pieces).length,
        buf ++ (Wire.fields nulls.length pieces).flatten) := by
  induction h generalizing nulls count buf with
  | nil =>
      cases hrun
      exact ⟨[], .nil, by simp [Wire.fields]⟩
  | @cons field P fields Ps hfield _ ih =>
      obtain ⟨name, value⟩ := field
      cases value with
      | none =>
          obtain ⟨pieces, hpieces, rfl⟩ := ih hrun
          exact ⟨none :: pieces, .cons hfield hpieces, by simp [Wire.fields]⟩
      | some t =>
          rw [compositeFields, Ser.serializeStructFields_nulls hse,
            Ser.serializeStructFields_describedList hse] at hrun
          obtain ⟨inner, hinner, hrun⟩ := Except.bind_eq_ok.mp hrun
          obtain ⟨piece, hwriter, hpiece⟩ :=
            hfield _ _ (Serializer.neutral_describedList _) hinner
          rw [hwriter] at hrun
          obtain ⟨pieces, hpieces, rfl⟩ := ih hrun
          refine ⟨some piece :: pieces, .cons hpiece hpieces, ?_⟩
          simp [Wire.fields, Serializer.describedList]
          omega

/-- Leaving a described list: the encoding pushed for it is taken back. -/
private theorem endList_wrote {se se' : Serializer} (hse : se.Neutral) {code : UInt64} {n : Nat}
    {buf : Bytes}
    (h : (Serializer.wrote { se with toSizeSerializer := se.pushEncoding .describedList }
      (Wire.descriptor (.code code)) none).popEncoding.writeList n buf .false = .ok se') :
    buf.length ≤ u32MaxMinus4 ∧
      se' = se.wrote (Wire.descriptor (.code code) ++ Wire.list n buf) none := by
  obtain ⟨hlen, rfl⟩ := Serializer.writeList_eq h
  refine ⟨hlen, ?_⟩
  obtain ⟨encodings, writer, rfl⟩ := hse.eq_mk
  simp [Serializer.wrote, Serializer.popEncoding, SizeSerializer.popEncoding,
    SizeSerializer.pushEncoding, Serializer.writeAll]

/-- A composite is its descriptor and the list of its fields. -/
theorem Writes.composite {code : UInt64} {fields : List CompositeField}
    {Ps : List (Option Bytes → Prop)} (h : List.Forall₂ CompositeField.Writes fields Ps) :
    Writes (compositeToSer code fields) none fun bytes =>
      ∃ pieces, List.Forall₂ (fun P piece => P piece) Ps pieces ∧
        (Wire.fields 0 pieces).flatten.length ≤ u32MaxMinus4 ∧
        bytes = Wire.descriptor (.code code) ++
          Wire.list (Wire.fields 0 pieces).length (Wire.fields 0 pieces).flatten := by
  intro se se' hse ht
  have hpushed : (⟨se.pushEncoding .describedList, se.writer⟩ : Serializer).Neutral :=
    ⟨hse.nonNativeType, hse.seqType, hse.isArrayElement⟩
  cases fields with
  | nil =>
      cases h
      simp only [compositeToSer, Ser.serialize, SizeSerializer.enterTupleStruct,
        Ser.serializeTupleStructFields] at ht
      obtain ⟨⟨se₂, count, buf⟩, hfields, hend⟩ := Except.bind_eq_ok.mp ht
      simp only [or_true, decide_true, if_true] at hfields
      obtain ⟨se₁, hdescriptor, hret⟩ := Except.bind_eq_ok.mp hfields
      obtain ⟨_, rfl, -, rfl⟩ := Writes.descriptor (.code code) _ _ hpushed hdescriptor
      cases hret
      obtain ⟨hlen, rfl⟩ := endList_wrote hse hend
      exact ⟨_, rfl, [], .nil, hlen, rfl⟩
  | cons field fields =>
      simp only [compositeToSer, Ser.serialize, SizeSerializer.enterStruct,
        Ser.serializeStructFields] at ht
      obtain ⟨⟨se₂, count, buf⟩, hfields, hend⟩ := Except.bind_eq_ok.mp ht
      obtain ⟨se₁, hdescriptor, hfields⟩ := Except.bind_eq_ok.mp hfields
      obtain ⟨_, rfl, -, rfl⟩ := Writes.descriptor (.code code) _ _ hpushed hdescriptor
      obtain ⟨pieces, hpieces, hr⟩ := CompositeField.writes_fields rfl h hfields
      simp only [Prod.mk.injEq] at hr
      obtain ⟨rfl, rfl, rfl⟩ := hr
      have hplain : (Serializer.wrote ⟨se.pushEncoding .describedList, se.writer⟩
          (Wire.descriptor (.code code)) none).isArrayElement = .false := hse.isArrayElement
      have hencoding : (Serializer.wrote ⟨se.pushEncoding .describedList, se.writer⟩
          (Wire.descriptor (.code code)) none).structEncoding = .describedList := rfl
      simp only [Serializer.endStruct, hencoding, hplain, Nat.zero_add, List.nil_append,
        List.length_nil] at hend
      obtain ⟨hlen, rfl⟩ := endList_wrote hse hend
      exact ⟨_, rfl, pieces, hpieces, hlen, rfl⟩

/-! ## What a visitor reads -/

/-- The access has yielded the descriptor and `n` elements are left. -/
structure De.DescribedAccess.Before (access : De.DescribedAccess) (n : Nat) : Prop where
  started : access.counter ≠ 0
  left : access.fieldCount.toNat = access.counter.toNat + n

namespace VisitSeq

variable {α β : Type}

theorem bind_run {R : Type} (x : VisitSeq R α) (f : α → VisitSeq R β) (access : De.DescribedAccess)
    (de : Deserializer R) :
    (x >>= f) access de = match x access de with
      | .ok (a, access) de => f a access de
      | .error failure de => .error failure de := by
  cases h : x access de with
  | ok p de' => simp [bind, StateT.bind, EStateM.bind, h]
  | error failure de' => simp [bind, StateT.bind, EStateM.bind, h]

theorem pure_run {R : Type} (a : α) (access : De.DescribedAccess) (de : Deserializer R) :
    (pure a : VisitSeq R α) access de = .ok (a, access) de := rfl

/-- The visitor reads one field and stops in front of the next. -/
def ReadsField (visit : VisitSeq SliceReader α) (piece : Option Bytes) (v : α) : Prop :=
  ∀ (pieces : List (Option Bytes)) (de : Deserializer SliceReader) (suffix : Bytes)
    (access : De.DescribedAccess),
    de.nonNativeType = none → de.elemFormatCode = none → de.enumType = .none →
      access.Before (Wire.fields 0 (piece :: pieces)).length →
        ∃ access' : De.DescribedAccess,
          visit access (de.at ((Wire.fields 0 (piece :: pieces)).flatten ++ suffix))
            = .ok (v, access') (de.at ((Wire.fields 0 pieces).flatten ++ suffix)) ∧
          access'.Before (Wire.fields 0 pieces).length

/-- The visitor reads the fields that are left. -/
def ReadsFields (visit : VisitSeq SliceReader α) (pieces : List (Option Bytes)) (a : α) : Prop :=
  ∀ (de : Deserializer SliceReader) (suffix : Bytes) (access : De.DescribedAccess),
    de.nonNativeType = none → de.elemFormatCode = none → de.enumType = .none →
      access.Before (Wire.fields 0 pieces).length →
        ∃ access', visit access (de.at ((Wire.fields 0 pieces).flatten ++ suffix))
          = .ok (a, access') (de.at suffix)

theorem ReadsFields.nil (a : α) : ReadsFields (pure a) [] a := by
  intro de suffix access _ _ _ _
  exact ⟨access, rfl⟩

theorem ReadsFields.cons {visit : VisitSeq SliceReader α} {k : α → VisitSeq SliceReader β}
    {piece : Option Bytes} {pieces : List (Option Bytes)} {v : α} {a : β}
    (h : ReadsField visit piece v) (hrest : ReadsFields (k v) pieces a) :
    ReadsFields (visit >>= k) (piece :: pieces) a := by
  intro de suffix access hnative helem henum hbefore
  obtain ⟨access', hrun, hbefore'⟩ := h pieces de suffix access hnative helem henum hbefore
  obtain ⟨access'', hrest⟩ := hrest de suffix access' hnative helem henum hbefore'
  exact ⟨access'', by simp only [bind_run, hrun, hrest]⟩

/-- An element that is there is read and counted. -/
theorem nextElement_run {d : De SliceReader α} {bytes : Bytes} {a : α}
    (h : Decodes .none d bytes a) (hstart : Starts (fun _ => True) bytes)
    {de : Deserializer SliceReader} (hnative : de.nonNativeType = none)
    (helem : de.elemFormatCode = none) (henum : de.enumType = .none) (suffix : Bytes)
    {access : De.DescribedAccess} {n : Nat} (hbefore : access.Before (n + 1)) :
    ∃ access', nextElement d access (de.at (bytes ++ suffix)) = .ok (some a, access') (de.at suffix) ∧
      access'.Before n := by
  have hlt : access.counter < access.fieldCount := by
    rw [UInt32.lt_iff_toNat_lt, hbefore.left]
    omega
  have hnext : (access.counter + 1).toNat = access.counter.toNat + 1 := by
    have hleft := hbefore.left
    have hbound := access.fieldCount.toNat_lt
    rw [UInt32.toNat_add, UInt32.toNat_one]
    exact Nat.mod_eq_of_lt (by omega)
  refine ⟨{ access with counter := access.counter + 1 }, ?_, ?_, ?_⟩
  · exact h.nextElement de suffix hnative helem henum access hlt
      (hstart.mono fun _ _ _ => .inl hbefore.started)
  · intro hzero
    have := congrArg UInt32.toNat hzero
    rw [hnext] at this
    simp at this
  · rw [hnext, hbefore.left]
    omega

/-- No element is left. -/
theorem nextElement_end (d : De SliceReader α) {access : De.DescribedAccess}
    (hbefore : access.Before 0) (de : Deserializer SliceReader) :
    nextElement d access de = .ok (none, access) de := by
  have hge : access.counter ≥ access.fieldCount := by
    rw [ge_iff_le, UInt32.le_iff_toNat_le, hbefore.left]
    omega
  simp [nextElement, De.DescribedAccess.nextElement, hge]

theorem fields_none_cons (pieces : List (Option Bytes)) :
    Wire.fields 0 (none :: pieces) = if Wire.fields 0 pieces = [] then []
      else [EncodingCodes.null.toU8] :: Wire.fields 0 pieces := by
  rw [Wire.fields, Wire.fields_eq]
  rfl

theorem ReadsField.required {d : De SliceReader α} {bytes : Bytes} {v : α}
    (h : Decodes .none d bytes v) (hstart : Starts (fun _ => True) bytes) :
    ReadsField (VisitSeq.required d) (some bytes) v := by
  intro pieces de suffix access hnative helem henum hbefore
  obtain ⟨access', hrun, hbefore'⟩ := nextElement_run h hstart hnative helem henum
    ((Wire.fields 0 pieces).flatten ++ suffix) hbefore
  refine ⟨access', ?_, hbefore'⟩
  simp only [VisitSeq.required, bind_run, Wire.fields, List.replicate_zero, List.nil_append,
    List.flatten_cons, List.append_assoc, hrun, pure_run]

theorem ReadsField.optional_some {d : De SliceReader α} {bytes : Bytes} {v : α}
    (h : Decodes .none d bytes v) (hstart : Starts (· ≠ .null) bytes) :
    ReadsField (VisitSeq.optional d) (some bytes) (some v) := by
  intro pieces de suffix access hnative helem henum hbefore
  obtain ⟨access', hrun, hbefore'⟩ := nextElement_run (.ofSome h hstart)
    (hstart.mono fun _ _ => trivial) hnative helem henum
    ((Wire.fields 0 pieces).flatten ++ suffix) hbefore
  refine ⟨access', ?_, hbefore'⟩
  simp only [VisitSeq.optional, bind_run, Wire.fields, List.replicate_zero, List.nil_append,
    List.flatten_cons, List.append_assoc, hrun, pure_run]

/-- A postponed field is a null, or nothing when no field is written after it. -/
theorem ReadsField.optional_none (d : De SliceReader α) :
    ReadsField (VisitSeq.optional d) none none := by
  intro pieces de suffix access hnative helem henum hbefore
  rw [fields_none_cons] at hbefore ⊢
  split at hbefore
  next hempty =>
    refine ⟨access, ?_, by rwa [hempty]⟩
    simp only [VisitSeq.optional, bind_run, hempty, if_true, nextElement_end _ hbefore, pure_run]
  next hsome =>
    obtain ⟨access', hrun, hbefore'⟩ := nextElement_run (Decodes.ofNone d) (.code trivial)
      hnative helem henum ((Wire.fields 0 pieces).flatten ++ suffix) hbefore
    refine ⟨access', ?_, hbefore'⟩
    simp only [VisitSeq.optional, bind_run, if_neg hsome, List.flatten_cons, List.append_assoc,
      hrun, pure_run]

theorem ReadsField.wrap {visit : VisitSeq SliceReader α} {piece : Option Bytes} {v : α} (f : α → β)
    (h : ReadsField visit piece v) : ReadsField (do return f (← visit)) piece (f v) := by
  intro pieces de suffix access hnative helem henum hbefore
  obtain ⟨access', hrun, hbefore'⟩ := h pieces de suffix access hnative helem henum hbefore
  exact ⟨access', by simp only [bind_run, hrun, pure_run], hbefore'⟩

end VisitSeq

/-! ## The header of a composite -/

theorem Wire.length_fields_le (nulls : Nat) {pieces : List (Option Bytes)}
    (h : ∀ bytes, some bytes ∈ pieces → bytes ≠ []) :
    (Wire.fields nulls pieces).length ≤ (Wire.fields nulls pieces).flatten.length := by
  induction pieces generalizing nulls with
  | nil => simp [Wire.fields]
  | cons piece pieces ih =>
      have ih (nulls) := ih nulls fun bytes hmem => h bytes (List.mem_cons_of_mem _ hmem)
      cases piece with
      | none => exact ih (nulls + 1)
      | some bytes =>
          have hpos := List.length_pos_iff.mpr (h bytes (by simp))
          have hrest := ih 0
          simp only [Wire.fields, List.length_append, List.length_replicate, List.length_cons,
            List.flatten_append, List.flatten_replicate_singleton, List.flatten_cons]
          omega

/-- The header of the list of fields is read up to its body. -/
theorem De.consumeListHeader_run {de : Deserializer SliceReader} (helem : de.elemFormatCode = none)
    {n : Nat} {buf : Bytes} (suffix : Bytes) (hcount : n ≤ buf.length)
    (hlen : buf.length ≤ u32MaxMinus4) :
    De.consumeListHeader (de.at (Wire.list n buf ++ suffix))
      = .ok (UInt32.ofNat n) (de.at (buf ++ suffix)) := by
  simp only [u32MaxMinus4] at hlen
  simp only [Wire.list, Wire.compound]
  split
  next hempty =>
    have hbuf : buf = [] := List.length_eq_zero_iff.mp hempty
    have hn : n = 0 := by omega
    simp [De.consumeListHeader, helem, hbuf, hn]
  next =>
    split
    next hsmall =>
      simp only [u8MaxMinus1] at hsmall
      have hnum : (UInt8.ofNat n).toUInt32 = UInt32.ofNat n := by
        apply UInt32.toNat_inj.mp
        rw [UInt8.toNat_toUInt32, Decodes.toNat_ofNat_u8 (by simp only [u8Max]; omega),
          UInt32.toNat_ofNat_of_lt' (by simp only [UInt32.size]; omega)]
      simp only [De.consumeListHeader, List.cons_append, List.nil_append, De.bind_run,
        De.getElemCodeOrReadFormatCode_run _ helem, De.next_run, De.pure_run, hnum]
    next =>
      have hsize := De.readU32_run de (BigEndian.encode 4 n ++ (buf ++ suffix))
        (n := buf.length + 4) (by omega)
      have hnum := De.readU32_run de (buf ++ suffix) (n := n) (by omega)
      simp only [De.consumeListHeader, List.cons_append, List.append_assoc, De.bind_run,
        De.getElemCodeOrReadFormatCode_run _ helem, hsize, hnum, De.pure_run]

/-- The descriptor is checked and the number of fields is learned from the header behind it. -/
theorem VisitSeq.descriptor_run (name : String) (code : UInt64) (de : Deserializer SliceReader)
    (hnative : de.nonNativeType = none) (helem : de.elemFormatCode = none)
    (hencoding : de.structEncoding = .describedList) {n : Nat} {buf : Bytes} (suffix : Bytes)
    (hcount : n ≤ buf.length) (hlen : buf.length ≤ u32MaxMinus4) :
    ∃ access, VisitSeq.descriptor name code { counter := 0, fieldCount := 1 }
        (de.at (Wire.descriptor (.code code) ++ (Wire.list n buf ++ suffix)))
        = .ok ((), access) (de.at (buf ++ suffix)) ∧ access.Before n := by
  have hread := Decodes.descriptor (e := de.enumType) (v := .code code) (by simp) de
    (Wire.list n buf ++ suffix) hnative helem rfl
  have hheader := De.consumeListHeader_run helem suffix hcount hlen
  simp only [u32MaxMinus4] at hlen
  have hn : (UInt32.ofNat n).toNat = n :=
    UInt32.toNat_ofNat_of_lt' (by simp only [UInt32.size]; omega)
  have hfits : 1 + n % 4294967296 < UInt32.size := by
    simp only [UInt32.size]
    omega
  refine ⟨{ counter := 1, fieldCount := 1 + UInt32.ofNat n }, ?_, ?_⟩
  · have hnext : VisitSeq.nextElement De.descriptor { counter := 0, fieldCount := 1 }
        (de.at (Wire.descriptor (.code code) ++ (Wire.list n buf ++ suffix)))
          = .ok (some (.code code), { counter := 1, fieldCount := 1 + UInt32.ofNat n })
              (de.at (buf ++ suffix)) := by
      simp only [Wire.descriptor, List.cons_append] at hread ⊢
      simp [VisitSeq.nextElement, De.DescribedAccess.nextElement, De.attempt, hread,
        De.DescribedAccess.announce, hencoding, hheader, hfits]
    simp [VisitSeq.descriptor, VisitSeq.bind_run, hnext, VisitSeq.pure_run]
  · constructor
    · simp
    · rw [UInt32.toNat_add, hn, UInt32.toNat_one]
      exact Nat.mod_eq_of_lt (by omega)

/-! ## Round trips -/

/-- Whatever the value writes is not a null and is decoded by the program to `a`. -/
def RoundTrips {α : Type} (e : EnumType) (t : Ser) (d : De SliceReader α) (a : α) : Prop :=
  Serializes t fun bytes => Starts (· ≠ .null) bytes ∧ Decodes e d bytes a

/-- The same of a composite, which starts with its descriptor. -/
def CompositeRoundTrips {α : Type} (code : UInt64) (t : Ser) (d : De SliceReader α) (a : α) :
    Prop :=
  Writes t none fun bytes =>
    (∃ body, bytes = Wire.descriptor (.code code) ++ body) ∧ Decodes .none d bytes a

def FieldRoundTrips {α : Type} (field : CompositeField) (visit : VisitSeq SliceReader α) (v : α) :
    Prop :=
  field.Writes fun piece =>
    (∀ bytes, piece = some bytes → bytes ≠ []) ∧ VisitSeq.ReadsField visit piece v

def FieldsRoundTrip {α : Type} (fields : List CompositeField) (visit : VisitSeq SliceReader α)
    (a : α) : Prop :=
  ∃ Ps, List.Forall₂ CompositeField.Writes fields Ps ∧
    ∀ pieces, List.Forall₂ (fun P piece => P piece) Ps pieces →
      (∀ bytes, some bytes ∈ pieces → bytes ≠ []) ∧ VisitSeq.ReadsFields visit pieces a

variable {α β : Type}

namespace FieldRoundTrips

variable {name : String}

theorem required {t : Ser} {d : De SliceReader α} {v : α} (h : RoundTrips .none t d v) :
    FieldRoundTrips (.required name t) (VisitSeq.required d) v := by
  refine h.mono ?_
  rintro bytes ⟨hstart, hdecodes⟩
  refine ⟨?_, .required hdecodes (hstart.mono fun _ _ => trivial)⟩
  rintro _ ⟨rfl⟩
  exact hstart.ne_nil

/-- An optional field, whose value is read back as `f` of it. -/
theorem optional_map {toSer : α → Ser} {d : De SliceReader β} (f : α → β) {v : Option α}
    (h : ∀ x, v = some x → RoundTrips .none (toSer x) d (f x)) :
    FieldRoundTrips (.optional name (v.map toSer)) (VisitSeq.optional d) (v.map f) := by
  cases v with
  | none => exact ⟨by simp, .optional_none d⟩
  | some x =>
      refine (h x rfl).ofSome.mono ?_
      rintro bytes ⟨hstart, hdecodes⟩
      refine ⟨?_, .optional_some hdecodes hstart⟩
      rintro _ ⟨rfl⟩
      exact hstart.ne_nil

theorem optional {toSer : α → Ser} {d : De SliceReader α} {v : Option α}
    (h : ∀ x, v = some x → RoundTrips .none (toSer x) d x) :
    FieldRoundTrips (.optional name (v.map toSer)) (VisitSeq.optional d) v := by
  have hmap : FieldRoundTrips (.optional name (v.map toSer)) (VisitSeq.optional d) (v.map id) :=
    optional_map id h
  rwa [Option.map_id] at hmap

theorem defaulted [DecidableEq α] {toSer : α → Ser} {d : De SliceReader α} {default v : α}
    (h : RoundTrips .none (toSer v) d v) :
    FieldRoundTrips (.defaulted name toSer default v) (VisitSeq.defaulted default d) v := by
  simp only [FieldRoundTrips, CompositeField.Writes, CompositeField.defaulted]
  by_cases hdefault : v = default
  · simp only [hdefault, ne_eq, not_true_eq_false, if_false]
    exact ⟨by simp, (VisitSeq.ReadsField.optional_none d).wrap fun v : Option α => v.getD default⟩
  · simp only [hdefault, ne_eq, not_false_eq_true, if_true]
    refine h.mono ?_
    rintro bytes ⟨hstart, hdecodes⟩
    refine ⟨?_, (VisitSeq.ReadsField.optional_some hdecodes hstart).wrap
      fun v : Option α => v.getD default⟩
    rintro _ ⟨rfl⟩
    exact hstart.ne_nil

/-- A field marked `multiple`: an empty array is read back as absent. -/
theorem multiple {toSer : List α → Ser} {d : De SliceReader α} {v : Option (List α)}
    (h : ∀ vs, v = some vs → RoundTrips .none (toSer vs) (De.array d) vs) :
    FieldRoundTrips (.optional name (v.map toSer)) (VisitSeq.multiple d)
      (v.filter fun vs => !vs.isEmpty) := by
  cases v with
  | none =>
      exact ⟨by simp, (VisitSeq.ReadsField.optional_none _).wrap
        (Option.filter fun vs : List α => !vs.isEmpty)⟩
  | some vs =>
      refine (h vs rfl).ofSome.mono ?_
      rintro bytes ⟨hstart, hdecodes⟩
      refine ⟨?_, (VisitSeq.ReadsField.optional_some hdecodes hstart).wrap
        (Option.filter fun vs : List α => !vs.isEmpty)⟩
      rintro _ ⟨rfl⟩
      exact hstart.ne_nil

end FieldRoundTrips

namespace FieldsRoundTrip

theorem nil (a : α) : FieldsRoundTrip [] (pure a) a :=
  ⟨[], .nil, fun pieces hpieces => by
    cases hpieces
    exact ⟨by simp, .nil a⟩⟩

theorem cons {field : CompositeField} {fields : List CompositeField}
    {visit : VisitSeq SliceReader α} {k : α → VisitSeq SliceReader β} {v : α} {a : β}
    (h : FieldRoundTrips field visit v) (hrest : FieldsRoundTrip fields (k v) a) :
    FieldsRoundTrip (field :: fields) (visit >>= k) a := by
  obtain ⟨Ps, hwrites, hreads⟩ := hrest
  refine ⟨_ :: Ps, .cons h hwrites, ?_⟩
  rintro _ (_ | ⟨⟨hpiece, hread⟩, hpieces⟩)
  obtain ⟨hrest, hreads⟩ := hreads _ hpieces
  refine ⟨?_, .cons hread hreads⟩
  intro bytes hmem
  rcases List.mem_cons.mp hmem with hhead | htail
  · exact hpiece bytes hhead.symm
  · exact hrest bytes htail

/-- A composite is read back when its fields are. -/
theorem composite {name : String} {code : UInt64} {fields : List CompositeField}
    {visit : VisitSeq SliceReader α} {a : α} (h : FieldsRoundTrip fields visit a) :
    CompositeRoundTrips code (compositeToSer code fields) (De.composite name code visit) a := by
  obtain ⟨Ps, hwrites, hreads⟩ := h
  refine (Writes.composite hwrites).mono ?_
  rintro bytes ⟨pieces, hpieces, hlen, rfl⟩
  obtain ⟨hne, hread⟩ := hreads pieces hpieces
  refine ⟨⟨_, rfl⟩, ?_⟩
  intro de suffix hnative helem henum
  refine De.withStructEncoding_run de _ suffix ?_
  obtain ⟨access, hdescriptor, hbefore⟩ := VisitSeq.descriptor_run name code
    { de with structEncoding := .describedList } hnative helem rfl suffix
    (Wire.length_fields_le 0 hne) hlen
  obtain ⟨access', hrun⟩ := hread { de with structEncoding := .describedList } suffix access hnative
    helem henum hbefore
  have hvisit : (do VisitSeq.descriptor name code; visit) { counter := 0, fieldCount := 1 }
      ({ de with structEncoding := .describedList }.at (Wire.descriptor (.code code) ++
        (Wire.list (Wire.fields 0 pieces).length (Wire.fields 0 pieces).flatten ++ suffix)))
        = .ok (a, access') ({ de with structEncoding := .describedList }.at suffix) := by
    simp only [VisitSeq.bind_run, hdescriptor, hrun]
  rw [List.append_assoc]
  simp only [StateT.run', De.map_run, reduceCtorEq, if_false, hvisit]

end FieldsRoundTrip

theorem CompositeRoundTrips.roundTrips {code : UInt64} {t : Ser} {d : De SliceReader α} {a : α}
    (h : CompositeRoundTrips code t d a) : RoundTrips .none t d a := by
  refine h.serializes.mono ?_
  rintro bytes ⟨⟨body, rfl⟩, hdecodes⟩
  exact ⟨(Starts.descriptor (by simp)).append body, hdecodes⟩

end Fe2o3Amqp
