import Fe2o3Amqp.Serde.Decodes

/-!
# Arrays

An array writes the constructor of its elements once, in front of the first one.  `WritesElement`
says what a value writes as an element of an array, `DecodesElement` what a program reads when the
constructor has been read before, and the array rules put the two together.
-/

namespace Fe2o3Amqp

/-- The serializer of an element of an array. -/
def Serializer.element (buf : Bytes) (mode : IsArrayElement) : Serializer :=
  { Serializer.new buf with isArrayElement := mode }

/-- As the first element of an array the value writes the code in front of its bytes, as another
element it writes its bytes only. -/
structure WritesElement (t : Ser) (code : EncodingCodes) (P : Bytes → Prop) : Prop where
  first : ∀ buf se, t.serialize (.element buf .firstElement) = .ok se →
    ∃ bytes, se.writer = buf ++ code.toU8 :: bytes ∧ P bytes
  other : ∀ buf se, t.serialize (.element buf .otherElement) = .ok se →
    ∃ bytes, se.writer = buf ++ bytes ∧ P bytes

namespace WritesElement

variable {α : Type} {code : EncodingCodes}

/-- The elements after the first. -/
theorem others {toSer : α → Ser} {P : α → Bytes → Prop} {vs : List α}
    (h : ∀ v ∈ vs, WritesElement (toSer v) code (P v)) {num num' : Nat} {buf : Bytes}
    {state : SeqSerializerState}
    (hrun : Ser.serializeElements (some .array) (num + 1) (.buffer buf) (vs.map toSer)
      = .ok (num', state)) :
    num' = num + 1 + vs.length ∧ ∃ pieces, List.Forall₂ P vs pieces ∧
      state.intoBuffer = buf ++ pieces.flatten := by
  induction vs generalizing num buf with
  | nil =>
      cases hrun
      exact ⟨rfl, [], .nil, by simp [SeqSerializerState.intoBuffer]⟩
  | cons v vs ih =>
      simp only [List.map_cons, Ser.serializeElements] at hrun
      obtain ⟨_, hbuf, hrun⟩ := Except.bind_eq_ok.mp hrun
      cases hbuf
      obtain ⟨inner, hinner, hrun⟩ := Except.bind_eq_ok.mp hrun
      obtain ⟨piece, hwriter, hpiece⟩ := (h v (by simp)).other _ _ hinner
      obtain ⟨hnum, pieces, hpieces, hstate⟩ := ih (fun v hv => h v (by simp [hv])) hrun
      refine ⟨by rw [hnum, List.length_cons]; omega, piece :: pieces, .cons hpiece hpieces, ?_⟩
      rw [hstate, hwriter]
      simp

/-- All elements; those of an empty array are nothing at all. -/
theorem elements {toSer : α → Ser} {P : α → Bytes → Prop} {vs : List α}
    (h : ∀ v ∈ vs, WritesElement (toSer v) code (P v)) {len : Option Nat} {num : Nat}
    {state : SeqSerializerState}
    (hrun : Ser.serializeElements (some .array) 0 (.init len) (vs.map toSer) = .ok (num, state)) :
    num = vs.length ∧ ∃ pieces, List.Forall₂ P vs pieces ∧
      state.intoBuffer = if vs = [] then [] else code.toU8 :: pieces.flatten := by
  cases vs with
  | nil =>
      cases hrun
      exact ⟨rfl, [], .nil, rfl⟩
  | cons v vs =>
      simp only [List.map_cons, Ser.serializeElements] at hrun
      obtain ⟨buf, hbuf, hrest⟩ := Except.bind_eq_ok.mp hrun
      obtain ⟨inner, hinner, hothers⟩ := Except.bind_eq_ok.mp hrest
      have hstart : buf = [] := by
        cases len with
        | none => cases hbuf; rfl
        | some len =>
            obtain ⟨_, _, hret⟩ := Except.bind_eq_ok.mp hbuf
            cases hret
            rfl
      subst hstart
      obtain ⟨piece, hwriter, hpiece⟩ := (h v (by simp)).first _ _ hinner
      obtain ⟨hnum, pieces, hpieces, hstate⟩ := others (fun v hv => h v (by simp [hv])) hothers
      refine ⟨by rw [hnum, List.length_cons]; omega, piece :: pieces, .cons hpiece hpieces, ?_⟩
      rw [hstate, hwriter]
      simp

end WritesElement

/-- An array that is no element of an array itself. -/
theorem Serializes.array {α : Type} {code : EncodingCodes} {toSer : α → Ser}
    {P : α → Bytes → Prop} {vs : List α} {len : Option Nat}
    (h : ∀ v ∈ vs, WritesElement (toSer v) code (P v)) :
    Serializes (.newtypeStruct .array (.seq len (vs.map toSer))) fun bytes =>
      ∃ pieces buf, List.Forall₂ P vs pieces ∧
        buf = (if vs = [] then [] else code.toU8 :: pieces.flatten) ∧
        buf.length ≤ u32MaxMinus4 ∧ bytes = Wire.array vs.length buf := by
  intro se se' hse ht
  obtain ⟨encodings, writer, rfl⟩ := hse.eq_mk
  simp only [Ser.serialize, SizeSerializer.enterNewtype] at ht
  obtain ⟨⟨num, state⟩, helements, hend⟩ := Except.bind_eq_ok.mp ht
  obtain ⟨rfl, pieces, hpieces, hstate⟩ := WritesElement.elements h helements
  simp only [Serializer.endSeq, Serializer.writeArray] at hend
  obtain ⟨hlen, rfl⟩ := Serializer.writeCompound_eq hend
  exact ⟨_, rfl, pieces, _, hpieces, hstate, hlen, rfl⟩

/-- The program reads exactly these bytes when the format code has been read before. -/
def DecodesElement {α : Type} (e : EnumType) (code : EncodingCodes) (d : De SliceReader α)
    (bytes : Bytes) (a : α) : Prop :=
  ∀ (de : Deserializer SliceReader) (suffix : Bytes),
    de.nonNativeType = none → de.elemFormatCode = some code → de.enumType = e →
      d (de.at (bytes ++ suffix)) = .ok a (de.at suffix)

namespace De

variable {de : Deserializer SliceReader} {code : EncodingCodes} (h : de.elemFormatCode = some code)
include h

theorem getElemCodeOrReadFormatCode_elem (text : String) (bytes : Bytes) :
    getElemCodeOrReadFormatCode text (de.at bytes) = .ok code (de.at bytes) := by
  simp [getElemCodeOrReadFormatCode, h]

end De

namespace DecodesElement

variable {α : Type} {e : EnumType} {code : EncodingCodes} {d : De SliceReader α}

/-- The elements of an array, whose size is not exceeded on the way. -/
theorem elements {vs : List α} {pieces : List Bytes}
    (h : List.Forall₂ (fun v piece => DecodesElement e code d piece v) vs pieces)
    (de : Deserializer SliceReader) (hnative : de.nonNativeType = none)
    (helem : de.elemFormatCode = some code) (henum : de.enumType = e) (suffix : Bytes)
    (size startPos : Nat) (hsize : de.reader.initialLen - suffix.length - startPos ≤ size) :
    De.arrayElements d size startPos vs.length (de.at (pieces.flatten ++ suffix))
      = .ok vs ({ de with elemFormatCode := none }.at suffix) := by
  induction h with
  | nil => simp [De.arrayElements]
  | @cons v piece vs pieces hv _ ih =>
      have hrun := hv de (pieces.flatten ++ suffix) hnative helem henum
      have hconsumed : De.bytesConsumed (de.at (pieces.flatten ++ suffix))
          = .ok (de.reader.initialLen - (pieces.flatten ++ suffix).length)
              (de.at (pieces.flatten ++ suffix)) := rfl
      have hfits : ¬de.reader.initialLen - (pieces.flatten ++ suffix).length - startPos > size := by
        rw [List.length_append]
        omega
      simp only [List.length_cons, De.arrayElements, List.flatten_cons, List.append_assoc,
        De.bind_run, hrun, hconsumed, if_neg hfits, ih, De.pure_run]

/-- The header of an array with elements is read up to the bytes of the first. -/
theorem seqAccess_array {de : Deserializer SliceReader} (helem : de.elemFormatCode = none) {n : Nat}
    {body : Bytes} (suffix : Bytes) (hpos : n ≠ 0) (hcount : n ≤ body.length + 2)
    (hcap : n ≤ maxArrayCount) (hlen : (code.toU8 :: body).length ≤ u32MaxMinus4) :
    De.seqAccess (de.at (Wire.array n (code.toU8 :: body) ++ suffix))
      = .ok (.array body.length n (de.reader.initialLen - (body ++ suffix).length))
          ({ de with elemFormatCode := some code }.at (body ++ suffix)) := by
  have hconsumed : De.bytesConsumed ({ de with elemFormatCode := some code }.at (body ++ suffix))
      = .ok (de.reader.initialLen - (body ++ suffix).length)
          ({ de with elemFormatCode := some code }.at (body ++ suffix)) := rfl
  have haccess (offset : Nat) (hoffset : 2 ≤ offset) :
      De.arrayAccess offset (body.length + offset) n (de.at (code.toU8 :: (body ++ suffix)))
        = .ok (.array body.length n (de.reader.initialLen - (body ++ suffix).length))
            ({ de with elemFormatCode := some code }.at (body ++ suffix)) := by
    have hfits : ¬(n > maxArrayCount ∨ n > body.length + offset) := by omega
    have hsub := De.sub_run { de with elemFormatCode := some code } (body ++ suffix)
      (Nat.le_add_left offset body.length)
    simp only [De.arrayAccess, if_neg hfits, if_neg hpos, De.bind_run, De.readFormatCode,
      De.next_run, EncodingCodes.tryFrom_toU8, De.ofExcept_ok, De.pure_run,
      De.setElemFormatCode_run, hsub, Nat.add_sub_cancel, hconsumed]
  simp only [u32MaxMinus4, List.length_cons] at hlen
  simp only [Wire.array, Wire.compound]
  split
  next hsmall =>
    simp only [u8MaxMinus1, List.length_cons] at hsmall
    have hsize := Decodes.toNat_ofNat_u8 (n := body.length + 2) (by simp only [u8Max]; omega)
    have hnum := Decodes.toNat_ofNat_u8 (n := n) (by simp only [u8Max]; omega)
    simp only [De.seqAccess, List.cons_append, List.nil_append, De.bind_run,
      De.getElemCodeOrReadFormatCode_run _ helem, De.next_run, List.length_cons, hsize, hnum,
      haccess 2 le_rfl]
  next =>
    have hsize := De.readU32_run de (BigEndian.encode 4 n ++ (code.toU8 :: body ++ suffix))
      (n := body.length + 5) (by omega)
    have hnum := De.readU32_run de (code.toU8 :: body ++ suffix) (n := n) (by omega)
    simp only [List.cons_append] at hsize hnum
    simp only [De.seqAccess, List.cons_append, List.append_assoc, De.bind_run,
      De.getElemCodeOrReadFormatCode_run _ helem, List.length_cons, hsize, hnum,
      haccess 5 (by omega)]

end DecodesElement

namespace Decodes

variable {α : Type} {e : EnumType} {code : EncodingCodes} {d : De SliceReader α}

/-- A sequence written as an array with elements. -/
theorem vec_array {vs : List α} {pieces : List Bytes} (hne : vs ≠ [])
    (h : List.Forall₂ (fun v piece => DecodesElement e code d piece v) vs pieces)
    (hcount : vs.length ≤ pieces.flatten.length + 2) (hcap : vs.length ≤ maxArrayCount)
    (hlen : (code.toU8 :: pieces.flatten).length ≤ u32MaxMinus4) :
    Decodes e (De.deserializeVec d) (Wire.array vs.length (code.toU8 :: pieces.flatten)) vs := by
  intro de suffix hnative helem henum
  have hpos : vs.length ≠ 0 := by simpa using hne
  have haccess := DecodesElement.seqAccess_array helem suffix hpos hcount hcap hlen
  have helements := DecodesElement.elements h { de with elemFormatCode := some code } hnative rfl
    henum suffix pieces.flatten.length (de.reader.initialLen - (pieces.flatten ++ suffix).length)
    (by simp only [List.length_append]; omega)
  simp only [De.deserializeVec, De.bind_run, haccess, helements]
  rw [Deserializer.elemFormatCode_none helem]

/-- The bytes of an array tell that it is one. -/
theorem array {vs : List α} {bytes : Bytes}
    (hstart : Starts (fun code => code = .array8 ∨ code = .array32) bytes)
    (h : Decodes .array (De.deserializeVec d) bytes vs) : Decodes e (De.array d) bytes vs := by
  refine ofEnum .array ?_ rfl
  intro de suffix hnative helem henum
  obtain ⟨code, rest, rfl, hcode⟩ := hstart
  have hrun := h de suffix hnative helem henum
  have hmultiple : De.arrayIsMultiple (de.at (code.toU8 :: rest ++ suffix))
      = .ok true (de.at (code.toU8 :: rest ++ suffix)) := by
    rcases hcode with rfl | rfl <;>
      simp [De.arrayIsMultiple, De.deserializeIdentifier, henum, helem]
  simp only [De.bind_run, hmultiple, if_true, hrun]

theorem array_empty : Decodes e (De.array d) (Wire.array 0 []) [] := by
  refine array (.compound (.inl rfl) (.inr rfl)) ?_
  intro de suffix hnative helem henum
  simp [Wire.array, Wire.compound, De.deserializeVec, De.seqAccess, De.arrayAccess, helem,
    De.bytesConsumed, De.arrayElements, Deserializer.elemFormatCode_none helem, u8MaxMinus1]

end Decodes

/-- An array whose elements write fixed bytes behind the common code is read back. -/
theorem Serializes.array_decodes {α : Type} {e : EnumType} {code : EncodingCodes} {toSer : α → Ser}
    {d : De SliceReader α} {piece : α → Bytes} {vs : List α}
    (hwrites : ∀ v ∈ vs, WritesElement (toSer v) code (· = piece v))
    (hdecodes : ∀ v ∈ vs, (piece v).length ≤ u32MaxMinus4 →
      DecodesElement .array code d (piece v) v)
    (hpos : ∀ v ∈ vs, piece v ≠ []) (hcap : vs.length ≤ maxArrayCount) :
    Serializes (arrayToSer toSer vs) fun bytes =>
      Starts (fun code => code = .array8 ∨ code = .array32) bytes ∧
        Decodes e (De.array d) bytes vs := by
  refine (Serializes.array hwrites).mono ?_
  rintro _ ⟨pieces, buf, hpieces, rfl, hlen, rfl⟩
  refine ⟨.compound (.inl rfl) (.inr rfl), ?_⟩
  have hmap : pieces = vs.map piece := by
    clear hlen hcap hwrites hdecodes hpos
    induction hpieces with
    | nil => rfl
    | cons hv _ ih => rw [List.map_cons, hv, ih]
  subst hmap
  by_cases hempty : vs = []
  · subst hempty
    exact Decodes.array_empty
  · rw [if_neg hempty] at hlen ⊢
    have hbound (v : α) (hv : v ∈ vs) : (piece v).length ≤ (vs.map piece).flatten.length :=
      (List.sublist_flatten_of_mem (List.mem_map_of_mem hv)).length_le
    have hcount : vs.length ≤ (vs.map piece).flatten.length := by
      clear hpieces hlen hcap hwrites hdecodes hempty hbound
      induction vs with
      | nil => simp
      | cons v vs ih =>
          have hv := List.length_pos_iff.mpr (hpos v (by simp))
          have ih := ih fun v hv => hpos v (by simp [hv])
          simp only [List.length_cons, List.map_cons, List.flatten_cons, List.length_append]
          omega
    have helements : List.Forall₂ (fun v piece => DecodesElement .array code d piece v) vs
        (vs.map piece) := by
      rw [List.forall₂_map_right_iff, List.forall₂_same]
      intro v hv
      refine hdecodes v hv ?_
      have := hbound v hv
      simp only [List.length_cons] at hlen
      omega
    exact Decodes.array (.compound (.inl rfl) (.inr rfl))
      (Decodes.vec_array hempty helements (by omega) hcap hlen)

/-! ## Symbols -/

/-- A symbol behind the code `sym32`. -/
def Wire.symbolElement (v : Symbol) : Bytes :=
  BigEndian.encode 4 (utf8Bytes v.value).length ++ utf8Bytes v.value

theorem WritesElement.symbol (v : Symbol) :
    WritesElement v.toSer .sym32 (· = Wire.symbolElement v) where
  first buf se h := by
    simp only [Symbol.toSer, Ser.serialize, SizeSerializer.enterNewtype, Serializer.element,
      Serializer.serializeStr] at h
    cases h
    exact ⟨_, by simp [Serializer.writeAll, Wire.symbolElement, Serializer.new], rfl⟩
  other buf se h := by
    simp only [Symbol.toSer, Ser.serialize, SizeSerializer.enterNewtype, Serializer.element,
      Serializer.serializeStr] at h
    cases h
    exact ⟨_, by simp [Serializer.writeAll, Wire.symbolElement, Serializer.new], rfl⟩

theorem DecodesElement.symbol {e : EnumType} {v : Symbol}
    (hlen : (Wire.symbolElement v).length ≤ u32MaxMinus4) :
    DecodesElement e .sym32 De.symbol (Wire.symbolElement v) v := by
  intro de suffix hnative helem henum
  have hread := De.readString_run de suffix v.value (by
    simp only [Wire.symbolElement, List.length_append] at hlen
    omega)
  simp only [De.symbol, De.deserializeString, De.parseSymbol, De.bind_run, De.setNonNativeType_run,
    De.get_run, Deserializer.at_nonNativeType, Deserializer.nonNativeType_none hnative,
    De.getElemCodeOrReadFormatCode_elem helem, Wire.symbolElement, List.append_assoc, hread,
    De.pure_run]

end Fe2o3Amqp
