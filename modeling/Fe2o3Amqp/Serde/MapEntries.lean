import Fe2o3Amqp.Serde.WireLength

/-!
# The entries of a map, written together or apart

`serialize_entry` writes the key and the value of an entry with one serializer, `serialize_key` and
`serialize_value` write each with a serializer of its own.  The paths agree as long as no value
reads a flag that its key has left set.
-/

namespace Fe2o3Amqp

namespace MapSerializerState

/-- `get_buffer_or_alloc_for_key`: the first key is measured. -/
def getBufferOrAllocForKey (state : MapSerializerState) (key : Ser) :
    Except Failure MapSerializerState :=
  match state with
  | .init len => do
      let _ ← serializedSize key
      return .keyInit len []
  | state => .ok state

/-- `get_buffer_or_alloc_for_value`: the first value is measured, and the space for the other
entries is reserved. -/
def getBufferOrAllocForValue (state : MapSerializerState) (value : Ser) :
    Except Failure MapSerializerState :=
  match state with
  | .init (some _) => do
      let _ ← serializedSize value
      return .buffer []
  | .init none => .ok (.buffer [])
  | .keyInit (some len) buf => do
      let valLen ← serializedSize value
      if len * (buf.length + valLen) < buf.length then .error .panic else .ok (.buffer buf)
  | .keyInit none buf => do
      let _ ← serializedSize value
      return .buffer buf
  | .buffer buf => .ok (.buffer buf)

def withBuffer : MapSerializerState → Bytes → MapSerializerState
  | .keyInit len _, buf => .keyInit len buf
  | _, buf => .buffer buf

end MapSerializerState

namespace Ser

def serializeKey (num : Nat) (state : MapSerializerState) (key : Ser) :
    Except Failure (Nat × MapSerializerState) := do
  let state ← state.getBufferOrAllocForKey key
  let inner ← key.serialize (Serializer.new state.intoBuffer)
  return (num + 1, state.withBuffer inner.writer)

def serializeValue (num : Nat) (state : MapSerializerState) (value : Ser) :
    Except Failure (Nat × MapSerializerState) := do
  let state ← state.getBufferOrAllocForValue value
  let inner ← value.serialize (Serializer.new state.intoBuffer)
  return (num + 1, state.withBuffer inner.writer)

/-- `serialize_key` and `serialize_value` for every entry. -/
def serializeKeysValues (num : Nat) (state : MapSerializerState) :
    List (Ser × Ser) → Except Failure (Nat × MapSerializerState)
  | [] => .ok (num, state)
  | (key, value) :: entries => do
      let (num, state) ← serializeKey num state key
      let (num, state) ← serializeValue num state value
      serializeKeysValues num state entries

/-- The body that `serialize_entry` writes. -/
def entryBody (len : Option Nat) (entries : List (Ser × Ser)) : Except Failure Bytes := do
  let (_, state) ← serializeEntries 0 (.init len) entries
  return state.intoBuffer

/-- The body that `serialize_key` and `serialize_value` write. -/
def keyValueBody (len : Option Nat) (entries : List (Ser × Ser)) : Except Failure Bytes := do
  let (_, state) ← serializeKeysValues 0 (.init len) entries
  return state.intoBuffer

/-- The encodings of the keys and values, one behind the other. -/
def standAlone : List (Ser × Ser) → Except Failure Bytes
  | [] => .ok []
  | (key, value) :: entries => do
      let keyBytes ← toVec key
      let valueBytes ← toVec value
      let rest ← standAlone entries
      return keyBytes ++ valueBytes ++ rest

/-- Whichever entries have been written, either path has written the encodings of their keys and
values. -/
def EncodedIndependently (len : Option Nat) (entries : List (Ser × Ser)) : Prop :=
  ∀ written, written <+: entries → ∃ body, standAlone written = .ok body ∧
    entryBody len written = .ok body ∧ keyValueBody len written = .ok body

/-! ## Flags that a value reads -/

mutual

/-- No part of the value reads a flag on which two serializers differ. -/
def readsAlike : Ser → (a b : SizeSerializer) → Bool
  | .i64 _, a, b | .str _, a, b | .bytes _, a, b => a.nonNativeType == b.nonNativeType
  | .seq _ _, a, b => a.seqType.getD .list == b.seqType.getD .list
  | .some v, a, b => v.readsAlike a b
  | .newtypeStruct name v, a, b => v.readsAlike (a.enterNewtype name) (b.enterNewtype name)
  | .newtypeVariant .descriptor _ v, a, b => v.readsAlike a b
  | .tupleStruct name fields, a, b =>
      tupleReadsAlike (name = .describedBasic ∨ name = .describedList) fields
        (a.enterTupleStruct name) (b.enterTupleStruct name)
  | .struct name fields, a, b => fieldsReadAlike fields (a.enterStruct name) (b.enterStruct name)
  | _, _, _ => true

/-- Only the descriptor is written by the serializer itself. -/
def tupleReadsAlike (descriptor : Bool) : List Ser → (a b : SizeSerializer) → Bool
  | [], _, _ => true
  | v :: _, a, b => !descriptor || v.readsAlike a b

/-- So are the descriptor of a struct and the contents of a basic described value. -/
def fieldsReadAlike : List (FieldKey × Ser) → (a b : SizeSerializer) → Bool
  | [], _, _ => true
  | (.descriptor, v) :: fields, a, b =>
      v.readsAlike a b && fieldsReadAlike fields (v.flagsAfter a) (v.flagsAfter b)
  | (.name _, v) :: fields, a, b =>
      if a.structEncoding = .describedBasic then
        v.readsAlike a b && fieldsReadAlike fields (v.flagsAfter a) (v.flagsAfter b)
      else fieldsReadAlike fields a b

end

mutual

/-- At most one part of the value reads the flags of the serializer. -/
def readsOnce : Ser → SizeSerializer → Bool
  | .some v, se => v.readsOnce se
  | .newtypeStruct name v, se => v.readsOnce (se.enterNewtype name)
  | .newtypeVariant .descriptor _ v, se => v.readsOnce se
  | .tupleStruct name fields, se => tupleReadsOnce fields (se.enterTupleStruct name)
  | .struct name fields, se => fieldsReadOnce fields (se.enterStruct name)
  | _, _ => true

def tupleReadsOnce : List Ser → SizeSerializer → Bool
  | [], _ => true
  | v :: _, se => v.readsOnce se

/-- The descriptor is a symbol or a number, and a basic described value has one content. -/
def fieldsReadOnce : List (FieldKey × Ser) → SizeSerializer → Bool
  | [], _ => true
  | (.descriptor, v) :: fields, se => v.isDescriptor && fieldsReadOnce fields (v.flagsAfter se)
  | (.name _, v) :: fields, se =>
      if se.structEncoding = .describedBasic then v.readsOnce se && fields.isEmpty
      else fieldsReadOnce fields se

end

end Ser

/-! ## What a value leaves behind -/

/-- The first serializer may have been left with flags that the second is not. -/
structure Beside (a b : SizeSerializer) : Prop where
  alone : a.isArrayElement = .false
  alone' : b.isArrayElement = .false
  structEncodings : a.structEncodings = b.structEncodings
  nonNativeType : b.nonNativeType = none ∨ b.nonNativeType = a.nonNativeType
  seqType : b.seqType = none ∨ b.seqType = a.seqType

namespace Beside

variable {a b : SizeSerializer}

theorem structEncoding (h : Beside a b) : a.structEncoding = b.structEncoding := by
  simp only [SizeSerializer.structEncoding, h.structEncodings]

theorem enterNewtype (h : Beside a b) (name : TypeName) :
    Beside (a.enterNewtype name) (b.enterNewtype name) := by
  obtain ⟨halone, halone', hencodings, hnonNative, hseq⟩ := h
  cases name <;> exact ⟨halone, halone', hencodings,
    by first | exact hnonNative | exact .inr rfl, by first | exact hseq | exact .inr rfl⟩

theorem pushEncoding (h : Beside a b) (encoding : StructEncoding) :
    Beside (a.pushEncoding encoding) (b.pushEncoding encoding) where
  alone := h.alone
  alone' := h.alone'
  structEncodings := by simp only [SizeSerializer.pushEncoding, h.structEncodings]
  nonNativeType := h.nonNativeType
  seqType := h.seqType

theorem popEncoding (h : Beside a b) : Beside a.popEncoding b.popEncoding where
  alone := h.alone
  alone' := h.alone'
  structEncodings := by simp only [SizeSerializer.popEncoding, h.structEncodings]
  nonNativeType := h.nonNativeType
  seqType := h.seqType

theorem enterTupleStruct (h : Beside a b) (name : TypeName) :
    Beside (a.enterTupleStruct name) (b.enterTupleStruct name) := by
  cases name <;> first | exact h | exact h.pushEncoding _

theorem enterStruct (h : Beside a b) (name : TypeName) :
    Beside (a.enterStruct name) (b.enterStruct name) := by
  cases name <;> first | exact h | exact h.pushEncoding _

theorem leaveStruct (h : Beside a b) : Beside a.leaveStruct b.leaveStruct := by
  simp only [SizeSerializer.leaveStruct, h.structEncoding]
  split_ifs
  · exact h
  · exact h.popEncoding

/-- Both serializers stand alone, and what the second has set the first has as well. -/
theorem eq_mk (h : Beside a b) : ∃ n n' q q' encodings,
    a = ⟨n, q, encodings, .false⟩ ∧ b = ⟨n', q', encodings, .false⟩ ∧
      (n' = none ∨ n' = n) ∧ (q' = none ∨ q' = q) := by
  obtain ⟨n, q, encodings, alone⟩ := a
  obtain ⟨n', q', encodings', alone'⟩ := b
  obtain ⟨halone, halone', hencodings, hnonNative, hseq⟩ := h
  simp only at halone halone' hencodings hnonNative hseq
  subst halone halone' hencodings
  exact ⟨n, n', q, q', encodings, rfl, rfl, hnonNative, hseq⟩

theorem flagsAfter_reader {v : Ser} (hv : (∃ text, v = .str text) ∨ ∃ bytes, v = .bytes bytes)
    (h : Beside a b) : Beside (v.flagsAfter a) (v.flagsAfter b) := by
  obtain ⟨n, n', q, q', encodings, rfl, rfl, hn, hq⟩ := h.eq_mk
  have hleft : n' = n ∨ (n' = none ∧ n ≠ none) := by grind
  obtain rfl | ⟨rfl, hn⟩ := hleft
  · obtain ⟨text, rfl⟩ | ⟨bytes, rfl⟩ := hv <;> rcases n' with _ | ⟨⟨⟩⟩ <;>
      exact ⟨rfl, rfl, rfl, .inr rfl, hq⟩
  · obtain ⟨text, rfl⟩ | ⟨bytes, rfl⟩ := hv <;> rcases n with _ | ⟨⟨⟩⟩ <;>
      exact ⟨rfl, rfl, rfl, .inl rfl, hq⟩

theorem flagsAfter_leaf {v : Ser} (hleaf : v.isLeaf) (h : Beside a b) :
    Beside (v.flagsAfter a) (v.flagsAfter b) := by
  cases v with
  | str text => exact h.flagsAfter_reader (.inl ⟨text, rfl⟩)
  | bytes bytes => exact h.flagsAfter_reader (.inr ⟨bytes, rfl⟩)
  | some | newtypeStruct | newtypeVariant | seq | tuple | tupleStruct | map | struct | variant =>
      cases hleaf
  | _ => simpa only [Ser.flagsAfter] using h

end Beside

namespace Ser

/-- Two serializers that differ in the flags they have been left with still do so behind a value. -/
theorem beside_flagsAfter (v : Ser) :
    ∀ a b : SizeSerializer, Beside a b → Beside (v.flagsAfter a) (v.flagsAfter b) := by
  induction v using Ser.induction with
  | leaf v hleaf => exact fun a b h => h.flagsAfter_leaf hleaf
  | some v ih => simpa only [flagsAfter] using ih
  | newtypeStruct name v ih =>
      intro a b h
      simpa only [flagsAfter] using ih _ _ (h.enterNewtype name)
  | newtypeVariant name index v ih =>
      intro a b h
      cases name with
      | descriptor => simpa only [flagsAfter] using ih a b h
      | _ => simpa only [flagsAfter] using h
  | tupleStruct name vs ih =>
      intro a b h
      simp only [flagsAfter]
      apply Beside.leaveStruct
      have henter := h.enterTupleStruct name
      cases vs with
      | nil => simpa only [tupleFlagsAfter] using henter
      | cons v vs =>
          simp only [tupleFlagsAfter]
          split_ifs
          · exact ih v List.mem_cons_self _ _ henter
          · exact henter
  | struct name fields ih =>
      intro a b h
      simp only [flagsAfter]
      apply Beside.leaveStruct
      replace h := h.enterStruct name
      generalize a.enterStruct name = a at h
      generalize b.enterStruct name = b at h
      induction fields generalizing a b with
      | nil => simpa only [fieldsFlagsAfter] using h
      | cons field fields ihfields =>
          obtain ⟨key, v⟩ := field
          have hv := ih (key, v) List.mem_cons_self
          have hfields := fun a b => ihfields (fun field hfield => ih field (List.mem_cons_of_mem _ hfield)) a b
          cases key with
          | descriptor => simpa only [fieldsFlagsAfter] using hfields _ _ (hv a b h)
          | name text =>
              simp only [fieldsFlagsAfter, ← h.structEncoding]
              apply hfields
              split_ifs
              · exact hv a b h
              · exact h
  | _ => intro a b h; simpa only [flagsAfter] using h

/-- At most one encoding has been pushed. -/
structure Pushed (se inner : SizeSerializer) : Prop where
  pushed : StructEncoding.none ∉ inner.structEncodings
  rest : inner.structEncodings = se.structEncodings ∨
    ∃ encoding, inner.structEncodings = encoding :: se.structEncodings

theorem pushed_enterTupleStruct {se : SizeSerializer} (h : StructEncoding.none ∉ se.structEncodings)
    (name : TypeName) : Pushed se (se.enterTupleStruct name) := by
  cases name <;> first
    | exact ⟨h, .inl rfl⟩
    | exact ⟨by simpa [SizeSerializer.enterTupleStruct, SizeSerializer.pushEncoding] using h,
        .inr ⟨_, rfl⟩⟩

theorem pushed_enterStruct {se : SizeSerializer} (h : StructEncoding.none ∉ se.structEncodings)
    (name : TypeName) : Pushed se (se.enterStruct name) := by
  cases name <;> first
    | exact ⟨h, .inl rfl⟩
    | exact ⟨by simpa [SizeSerializer.enterStruct, SizeSerializer.pushEncoding] using h,
        .inr ⟨_, rfl⟩⟩

/-- The end of a struct takes the pushed encoding off, if the parts have left it. -/
theorem Pushed.leaveStruct {se inner after : SizeSerializer} (h : Pushed se inner)
    (hafter : after.structEncodings <:+ inner.structEncodings) :
    after.leaveStruct.structEncodings <:+ se.structEncodings := by
  obtain ⟨nonNativeType, seqType, encodings, isArrayElement⟩ := after
  simp only at hafter
  cases encodings with
  | nil => exact List.nil_suffix
  | cons encoding encodings =>
      have hencoding : encoding ≠ .none := by
        rintro rfl
        exact h.pushed (hafter.subset List.mem_cons_self)
      have hpop : (SizeSerializer.mk nonNativeType seqType (encoding :: encodings)
          isArrayElement).leaveStruct.structEncodings = encodings := by
        simp only [SizeSerializer.leaveStruct, SizeSerializer.structEncoding, List.headD_cons,
          hencoding, if_false, SizeSerializer.popEncoding, List.tail_cons]
      rw [hpop]
      obtain heq | ⟨pushed, heq⟩ := h.rest
      · rw [heq] at hafter
        exact (List.suffix_cons _ _).trans hafter
      · rw [heq] at hafter
        obtain heq | hafter := List.suffix_cons_iff.mp hafter
        · cases heq
          exact List.suffix_refl _
        · exact (List.suffix_cons _ _).trans hafter

/-- What a value pushes on the stack of the struct encodings it takes off. -/
theorem structEncodings_flagsAfter (v : Ser) : ∀ se : SizeSerializer,
    StructEncoding.none ∉ se.structEncodings →
      (v.flagsAfter se).structEncodings <:+ se.structEncodings := by
  induction v using Ser.induction with
  | leaf v hleaf =>
      intro se _
      cases v with
      | str text => simp only [flagsAfter]; split_ifs <;> exact List.suffix_refl _
      | bytes bytes => simp only [flagsAfter]; split <;> exact List.suffix_refl _
      | some | newtypeStruct | newtypeVariant | seq | tuple | tupleStruct | map | struct | variant =>
          cases hleaf
      | _ => simp only [flagsAfter]; exact List.suffix_refl _
  | some v ih => simpa only [flagsAfter] using ih
  | newtypeStruct name v ih =>
      intro se hse
      have henter : (se.enterNewtype name).structEncodings = se.structEncodings := by
        cases name <;> rfl
      rw [← henter] at hse ⊢
      simpa only [flagsAfter] using ih _ hse
  | newtypeVariant name index v ih =>
      intro se hse
      cases name with
      | descriptor => simpa only [flagsAfter] using ih se hse
      | _ => simp only [flagsAfter]; exact List.suffix_refl _
  | tupleStruct name vs ih =>
      intro se hse
      have hinner := pushed_enterTupleStruct hse name
      simp only [flagsAfter]
      apply hinner.leaveStruct
      cases vs with
      | nil => simp only [tupleFlagsAfter]; exact List.suffix_refl _
      | cons v vs =>
          simp only [tupleFlagsAfter]
          split_ifs
          · exact ih v List.mem_cons_self _ hinner.pushed
          · exact List.suffix_refl _
  | struct name fields ih =>
      intro se hse
      have hinner := pushed_enterStruct hse name
      simp only [flagsAfter]
      apply hinner.leaveStruct
      replace hinner := hinner.pushed
      generalize se.enterStruct name = inner at hinner
      induction fields generalizing inner with
      | nil => simp only [fieldsFlagsAfter]; exact List.suffix_refl _
      | cons field fields ihfields =>
          obtain ⟨key, v⟩ := field
          have hv := ih (key, v) List.mem_cons_self inner hinner
          have hfields := ihfields fun field hfield => ih field (List.mem_cons_of_mem _ hfield)
          have hkept := fun hnone => hinner (hv.subset hnone)
          cases key with
          | descriptor =>
              simp only [fieldsFlagsAfter]
              exact (hfields _ hkept).trans hv
          | name text =>
              simp only [fieldsFlagsAfter]
              split_ifs
              · exact (hfields _ hkept).trans hv
              · exact hfields inner hinner
  | _ => intro se _; simp only [flagsAfter]; exact List.suffix_refl _

/-- A key leaves the serializer as it was but for the flags of its types. -/
theorem beside_key (key : Ser) : Beside (key.flagsAfter .new) .new where
  alone := (key.beside_flagsAfter .new .new ⟨rfl, rfl, rfl, .inl rfl, .inl rfl⟩).alone
  alone' := rfl
  structEncodings := by
    have hsuffix := key.structEncodings_flagsAfter .new (by simp [SizeSerializer.new])
    exact List.suffix_nil.mp hsuffix
  nonNativeType := .inl rfl
  seqType := .inl rfl

end Ser

/-! ## Values that write alike -/

/-- Whatever has been written before, the two append the same bytes, or fail alike, and are left
with the flags. -/
def AppendAlike (x y : Bytes → Except Failure Serializer) (a b : SizeSerializer) : Prop :=
  ∃ r : Except Failure Bytes, ∀ writer,
    x writer = r.map (fun bytes => ⟨a, writer ++ bytes⟩) ∧
    y writer = r.map (fun bytes => ⟨b, writer ++ bytes⟩)

namespace AppendAlike

variable {x y : Bytes → Except Failure Serializer} {a b a' b' : SizeSerializer}

theorem writeAll (bytes : Bytes) :
    AppendAlike (fun writer => .ok ((Serializer.mk a writer).writeAll bytes))
      (fun writer => .ok ((Serializer.mk b writer).writeAll bytes)) a b :=
  ⟨.ok bytes, fun _ => ⟨rfl, rfl⟩⟩

theorem failed (e : Failure) : AppendAlike (fun _ => .error e) (fun _ => .error e) a b :=
  ⟨.error e, fun _ => ⟨rfl, rfl⟩⟩

theorem bind {f g : Serializer → Except Failure Serializer} (h : AppendAlike x y a b)
    (hrest : AppendAlike (fun writer => f ⟨a, writer⟩) (fun writer => g ⟨b, writer⟩) a' b') :
    AppendAlike (fun writer => x writer >>= f) (fun writer => y writer >>= g) a' b' := by
  obtain ⟨r, hr⟩ := h
  obtain ⟨rest, hrest⟩ := hrest
  cases r with
  | error e =>
      refine ⟨.error e, fun writer => ?_⟩
      beta_reduce
      rw [(hr writer).1, (hr writer).2]
      exact ⟨rfl, rfl⟩
  | ok front =>
      refine ⟨rest.map (front ++ ·), fun writer => ?_⟩
      have hbehind := hrest (writer ++ front)
      beta_reduce
      rw [(hr writer).1, (hr writer).2]
      cases rest with
      | error e => exact hbehind
      | ok bytes =>
          simp only [Except.map, List.append_assoc] at hbehind
          exact hbehind

/-- What is computed before, on neither of the writers, they have in common. -/
theorem apart {α : Type} (z : Except Failure α) {f g : α → Bytes → Except Failure Serializer}
    (h : ∀ c, AppendAlike (f c) (g c) a b) :
    AppendAlike (fun writer => z >>= fun c => f c writer) (fun writer => z >>= fun c => g c writer)
      a b := by
  cases z with
  | error e => exact failed e
  | ok c => exact h c

theorem resetNonNativeType :
    AppendAlike (fun writer => .ok (Serializer.mk a writer).resetNonNativeType)
      (fun writer => .ok (Serializer.mk b writer).resetNonNativeType)
      { a with nonNativeType := none } { b with nonNativeType := none } := by
  refine ⟨.ok [], fun writer => ?_⟩
  simp only [Except.map, List.append_nil]
  exact ⟨rfl, rfl⟩

theorem writeVariableHeader (code8 code32 : EncodingCodes) (l : Nat) :
    AppendAlike (fun writer => (Serializer.mk a writer).writeVariableHeader code8 code32 l)
      (fun writer => (Serializer.mk b writer).writeVariableHeader code8 code32 l) a b := by
  simp only [Serializer.writeVariableHeader]
  split_ifs
  · exact writeAll _
  · exact writeAll _
  · exact failed _

theorem writeCompound (code8 code32 : EncodingCodes) (num : Nat) (buf : Bytes)
    (mode : IsArrayElement) :
    AppendAlike (fun writer => (Serializer.mk a writer).writeCompound code8 code32 num buf mode)
      (fun writer => (Serializer.mk b writer).writeCompound code8 code32 num buf mode) a b := by
  simp only [Serializer.writeCompound]
  split_ifs
  · exact writeAll _
  · exact writeAll _
  · exact failed _

theorem writeList (num : Nat) (buf : Bytes) (mode : IsArrayElement) :
    AppendAlike (fun writer => (Serializer.mk a writer).writeList num buf mode)
      (fun writer => (Serializer.mk b writer).writeList num buf mode) a b := by
  simp only [Serializer.writeList]
  split_ifs
  · exact writeAll _
  · exact writeCompound ..

end AppendAlike

namespace Ser

variable {v : Ser} {a b : SizeSerializer}

/-- The value is written alike by two serializers. -/
def WrittenAlike (v : Ser) (a b : SizeSerializer) : Prop :=
  AppendAlike (fun writer => v.serialize ⟨a, writer⟩) (fun writer => v.serialize ⟨b, writer⟩)
    (v.flagsAfter a) (v.flagsAfter b)

theorem writtenAlike_reader (hv : (∃ n, v = .i64 n) ∨ (∃ text, v = .str text) ∨ ∃ bytes, v = .bytes bytes)
    (h : Beside a b) (halike : v.readsAlike a b) : v.WrittenAlike a b := by
  obtain ⟨n, n', q, q', encodings, rfl, rfl, _, _⟩ := h.eq_mk
  have hn : n = n' := by
    obtain ⟨_, rfl⟩ | ⟨_, rfl⟩ | ⟨_, rfl⟩ := hv <;> simpa [readsAlike] using halike
  subst hn
  obtain ⟨n', rfl⟩ | ⟨text, rfl⟩ | ⟨bytes, rfl⟩ := hv
  · simp only [WrittenAlike, serialize, Serializer.serializeI64, flagsAfter]
    rcases n with _ | ⟨⟨⟩⟩ <;> (try split_ifs) <;>
      first | exact AppendAlike.writeAll _ | exact AppendAlike.failed _
  · simp only [WrittenAlike, serialize, Serializer.serializeStr]
    have hheader (code8 code32 : EncodingCodes) := AppendAlike.writeVariableHeader
      (a := ⟨n, q, encodings, .false⟩) (b := ⟨n, q', encodings, .false⟩) code8 code32
      (utf8Bytes text).length
    rcases n with _ | ⟨⟨⟩⟩
    case none => exact (hheader ..).bind (.writeAll _)
    case some.symbol | some.symbolRef =>
      refine (hheader ..).bind ?_
      exact AppendAlike.resetNonNativeType.bind (.writeAll _)
    all_goals exact .failed _
  · simp only [WrittenAlike, serialize, Serializer.serializeBytes]
    rcases n with _ | ⟨⟨⟩⟩
    case none => exact (AppendAlike.writeVariableHeader ..).bind (.writeAll _)
    all_goals
      first
      | exact AppendAlike.failed _
      | exact .writeAll _
      | exact ⟨.ok _, fun _ => ⟨rfl, rfl⟩⟩

theorem writtenAlike_leaf (hleaf : v.isLeaf) (h : Beside a b) (halike : v.readsAlike a b) :
    v.WrittenAlike a b := by
  cases v with
  | i64 n => exact writtenAlike_reader (.inl ⟨n, rfl⟩) h halike
  | str text => exact writtenAlike_reader (.inr (.inl ⟨text, rfl⟩)) h halike
  | bytes bytes => exact writtenAlike_reader (.inr (.inr ⟨bytes, rfl⟩)) h halike
  | some | newtypeStruct | newtypeVariant | seq | tuple | tupleStruct | map | struct | variant =>
      cases hleaf
  | i32 | u32 | u64 | unitVariant =>
      obtain ⟨n, n', q, q', encodings, rfl, rfl, _, _⟩ := h.eq_mk
      simp only [WrittenAlike, serialize, Serializer.serializeI32, Serializer.serializeU32,
        Serializer.serializeU64, flagsAfter]
      split_ifs <;> exact .writeAll _
  | _ =>
      obtain ⟨n, n', q, q', encodings, rfl, rfl, _, _⟩ := h.eq_mk
      simp only [WrittenAlike, serialize, flagsAfter]
      exact .writeAll _

theorem serializeElements_congr {q q' : Option SequenceType}
    (h : ∀ num, elementMode q num = elementMode q' num) (vs : List Ser) (num : Nat)
    (state : SeqSerializerState) :
    serializeElements q num state vs = serializeElements q' num state vs := by
  induction vs generalizing num state with
  | nil => simp only [serializeElements]
  | cons v vs ih => simp only [serializeElements, h, ih]

theorem writtenAlike_seq {len : Option Nat} {vs : List Ser} (h : Beside a b)
    (halike : (Ser.seq len vs).readsAlike a b) : (Ser.seq len vs).WrittenAlike a b := by
  obtain ⟨n, n', q, q', encodings, rfl, rfl, _, _⟩ := h.eq_mk
  simp only [readsAlike, beq_iff_eq] at halike
  have hmode (num : Nat) : elementMode q num = elementMode q' num := by
    rcases q with _ | ⟨⟨⟩⟩ <;> rcases q' with _ | ⟨⟨⟩⟩ <;> first | rfl | cases halike
  simp only [WrittenAlike, serialize, flagsAfter, serializeElements_congr hmode vs]
  apply AppendAlike.apart
  rintro ⟨num, state⟩
  simp only [Serializer.endSeq, Serializer.writeArray]
  rcases q with _ | ⟨⟨⟩⟩ <;> rcases q' with _ | ⟨⟨⟩⟩ <;> first
    | exact .writeList ..
    | exact .writeCompound ..
    | exact .writeAll state.intoBuffer
    | cases halike

/-- The body of a tuple struct, once its fields are behind. -/
theorem endTupleStruct_alike (h : Beside a b) (count : Nat) (buf : Bytes) :
    AppendAlike (fun writer => (Serializer.mk a writer).endTupleStruct count buf)
      (fun writer => (Serializer.mk b writer).endTupleStruct count buf)
      a.leaveStruct b.leaveStruct := by
  have hencoding := h.structEncoding
  simp only [Serializer.endTupleStruct, SizeSerializer.leaveStruct, hencoding]
  cases b.structEncoding with
  | none => exact .writeList ..
  | describedBasic => exact AppendAlike.writeAll (a := a.popEncoding) (b := b.popEncoding) buf
  | describedList => exact AppendAlike.writeList (a := a.popEncoding) (b := b.popEncoding) ..
  | describedMap => exact .failed _

theorem endStruct_alike (h : Beside a b) (count : Nat) (buf : Bytes) :
    AppendAlike (fun writer => (Serializer.mk a writer).endStruct count buf)
      (fun writer => (Serializer.mk b writer).endStruct count buf) a.leaveStruct b.leaveStruct := by
  have hencoding := h.structEncoding
  simp only [Serializer.endStruct, SizeSerializer.leaveStruct, hencoding, h.alone, h.alone']
  cases b.structEncoding with
  | none => exact .writeList ..
  | describedBasic =>
      refine ⟨.ok [], fun writer => ?_⟩
      simp only [Except.map, List.append_nil]
      exact ⟨rfl, rfl⟩
  | describedList => exact AppendAlike.writeList (a := a.popEncoding) (b := b.popEncoding) ..
  | describedMap => exact AppendAlike.writeCompound (a := a.popEncoding) (b := b.popEncoding) ..

/-- The fields behind the descriptor are written by serializers of their own. -/
theorem tupleFields_alike (h : Beside a b) (vs : List Ser) (count : Nat) (buf : Bytes) :
    AppendAlike
      (fun writer => do
        let (se, count, buf) ← serializeTupleStructFields ⟨a, writer⟩ false count buf vs
        se.endTupleStruct count buf)
      (fun writer => do
        let (se, count, buf) ← serializeTupleStructFields ⟨b, writer⟩ false count buf vs
        se.endTupleStruct count buf) a.leaveStruct b.leaveStruct := by
  induction vs generalizing count buf with
  | nil =>
      simpa only [serializeTupleStructFields_nil, Except.ok_bind] using endTupleStruct_alike h count buf
  | cons v vs ih =>
      have hencoding := h.structEncoding
      simp only [serializeTupleStructFields, Bool.false_eq_true, if_false, hencoding, h.alone, h.alone']
      cases b.structEncoding with
      | none | describedBasic | describedList =>
          simp only [bind_assoc]
          exact .apart _ fun inner => ih (count + 1) inner.writer
      | describedMap => exact .failed _

theorem writtenAlike_tupleStruct {name : TypeName} {vs : List Ser}
    (ih : ∀ v ∈ vs, ∀ a b, Beside a b → v.readsAlike a b → v.WrittenAlike a b) (h : Beside a b)
    (halike : (Ser.tupleStruct name vs).readsAlike a b) : (Ser.tupleStruct name vs).WrittenAlike a b := by
  simp only [readsAlike] at halike
  simp only [WrittenAlike, serialize, flagsAfter]
  replace h := h.enterTupleStruct name
  generalize a.enterTupleStruct name = a at h halike
  generalize b.enterTupleStruct name = b at h halike
  generalize decide (name = .describedBasic ∨ name = .describedList) = role at halike
  cases vs with
  | nil =>
      simpa only [serializeTupleStructFields_nil, tupleFlagsAfter, Except.ok_bind] using
        endTupleStruct_alike h 0 []
  | cons v vs =>
      cases role with
      | false => simpa only [tupleFlagsAfter, Bool.false_eq_true, if_false] using
          tupleFields_alike h (v :: vs) 0 []
      | true =>
          simp only [tupleReadsAlike, Bool.not_true, Bool.false_or] at halike
          simp only [serializeTupleStructFields, tupleFlagsAfter, if_true, bind_assoc]
          exact (ih v List.mem_cons_self a b h halike).bind
            (tupleFields_alike (v.beside_flagsAfter a b h) vs 0 [])

theorem writtenAlike_fields {fields : List (FieldKey × Ser)}
    (ih : ∀ field ∈ fields, ∀ a b, Beside a b → field.2.readsAlike a b → field.2.WrittenAlike a b)
    (h : Beside a b) (halike : fieldsReadAlike fields a b) (count : Nat) (buf : Bytes) :
    AppendAlike
      (fun writer => do
        let (se, count, buf) ← serializeStructFields ⟨a, writer⟩ count buf fields
        se.endStruct count buf)
      (fun writer => do
        let (se, count, buf) ← serializeStructFields ⟨b, writer⟩ count buf fields
        se.endStruct count buf)
      (fieldsFlagsAfter fields a).leaveStruct (fieldsFlagsAfter fields b).leaveStruct := by
  induction fields generalizing a b count buf with
  | nil =>
      simpa only [serializeStructFields_nil, fieldsFlagsAfter, Except.ok_bind] using
        endStruct_alike h count buf
  | cons field fields ihfields =>
      obtain ⟨key, v⟩ := field
      have hv := ih (key, v) List.mem_cons_self a b h
      have hafter := v.beside_flagsAfter a b h
      have hrest {a b : SizeSerializer} :=
        @ihfields a b fun field hfield => ih field (List.mem_cons_of_mem _ hfield)
      cases key with
      | descriptor =>
          simp only [fieldsReadAlike, Bool.and_eq_true] at halike
          simp only [serializeStructFields, fieldsFlagsAfter, bind_assoc]
          exact (hv halike.1).bind (hrest hafter halike.2 count buf)
      | name text =>
          have hencoding := h.structEncoding
          simp only [fieldsReadAlike, hencoding] at halike
          simp only [serializeStructFields, fieldsFlagsAfter, hencoding, h.alone, h.alone']
          cases hb : b.structEncoding with
          | describedBasic =>
              simp only [hb, if_true, Bool.and_eq_true] at halike
              simp only [bind_assoc, if_true]
              exact (hv halike.1).bind (hrest hafter halike.2 (count + 1) buf)
          | none | describedList =>
              simp only [hb, reduceCtorEq, if_false] at halike
              simp only [bind_assoc, reduceCtorEq, if_false]
              exact .apart _ fun inner => hrest h halike (count + 1) inner.writer
          | describedMap =>
              simp only [hb, reduceCtorEq, if_false] at halike
              simp only [bind_assoc, reduceCtorEq, if_false]
              exact .apart _ fun key => .apart _ fun inner => hrest h halike (count + 1) inner.writer

/-- A value that reads no flag on which two serializers differ is written alike by both. -/
theorem writtenAlike (v : Ser) :
    ∀ a b : SizeSerializer, Beside a b → v.readsAlike a b → v.WrittenAlike a b := by
  induction v using Ser.induction with
  | leaf v hleaf => exact fun a b => writtenAlike_leaf hleaf
  | some v ih => simpa only [WrittenAlike, serialize_some, flagsAfter, readsAlike] using ih
  | newtypeStruct name v ih =>
      intro a b h halike
      simp only [readsAlike] at halike
      simp only [WrittenAlike, serialize, flagsAfter]
      exact ih _ _ (h.enterNewtype name) halike
  | newtypeVariant name index v ih =>
      intro a b h halike
      cases name with
      | descriptor =>
          simp only [readsAlike] at halike
          simp only [WrittenAlike, serialize, flagsAfter]
          exact (AppendAlike.writeAll [EncodingCodes.describedType.toU8]).bind (ih a b h halike)
      | _ =>
          simp only [WrittenAlike, serialize, flagsAfter, h.alone, h.alone']
          exact .apart _ fun _ => .apart _ fun _ => .writeCompound ..
  | seq len vs ih => exact fun a b => writtenAlike_seq
  | tuple vs ih =>
      intro a b h _
      simp only [WrittenAlike, serialize, flagsAfter, h.alone, h.alone']
      exact .apart _ fun _ => .writeList ..
  | tupleStruct name vs ih => exact fun a b => writtenAlike_tupleStruct ih
  | map len entries ih =>
      intro a b h _
      simp only [WrittenAlike, serialize, flagsAfter, h.alone, h.alone']
      exact .apart _ fun _ => .writeCompound ..
  | struct name fields ih =>
      intro a b h halike
      simp only [readsAlike] at halike
      simp only [WrittenAlike, serialize, flagsAfter]
      exact writtenAlike_fields ih (h.enterStruct name) halike 0 []
  | variant index vs ih =>
      intro a b h _
      simp only [WrittenAlike, serialize, flagsAfter, h.alone, h.alone']
      exact .apart _ fun _ => .apart _ fun _ => .writeCompound ..

end Ser

/-! ## Values that write differently -/

/-- Where the two succeed, they have not written the same. -/
def AppendApart (x y : Bytes → Except Failure Serializer) : Prop :=
  ∀ writer s t, x writer = .ok s → y writer = .ok t → s.writer ≠ t.writer

/-- The first byte that is written is one of the format codes. -/
def Headed (codes : List EncodingCodes) (x : Bytes → Except Failure Serializer) : Prop :=
  ∀ writer s, x writer = .ok s → ∃ code ∈ codes, ∃ rest, s.writer = writer ++ code.toU8 :: rest

section Apart

variable {x y : Bytes → Except Failure Serializer} {a b a' b' : SizeSerializer}
  {f g : Serializer → Except Failure Serializer}

theorem AppendApart.of_headed (codes codes' : List EncodingCodes) (hx : Headed codes x)
    (hy : Headed codes' y) (hcodes : ∀ c ∈ codes, ∀ c' ∈ codes', c.toU8 ≠ c'.toU8) :
    AppendApart x y := by
  intro writer s t hs ht heq
  obtain ⟨c, hc, rest, hrest⟩ := hx writer s hs
  obtain ⟨c', hc', rest', hrest'⟩ := hy writer t ht
  rw [hrest, hrest', List.append_cancel_left_eq, List.cons.injEq] at heq
  exact hcodes c hc c' hc' heq.1

/-- Where one of the two fails nothing is to be compared. -/
theorem AppendApart.of_failed {e : Failure} (hx : ∀ writer, x writer = .error e) :
    AppendApart x y := by
  intro writer s t hs _
  rw [hx writer] at hs
  cases hs

theorem AppendApart.apart {α : Type} (z : Except Failure α)
    {f g : α → Bytes → Except Failure Serializer} (h : ∀ c, z = .ok c → AppendApart (f c) (g c)) :
    AppendApart (fun writer => z >>= fun c => f c writer)
      (fun writer => z >>= fun c => g c writer) := by
  intro writer s t hs ht
  cases z with
  | error e => cases hs
  | ok c => exact h c rfl writer s t hs ht

/-- What is written in front is the same. -/
theorem AppendAlike.bind_apart (h : AppendAlike x y a b)
    (hrest : AppendApart (fun writer => f ⟨a, writer⟩) (fun writer => g ⟨b, writer⟩)) :
    AppendApart (fun writer => x writer >>= f) (fun writer => y writer >>= g) := by
  intro writer s t hs ht
  obtain ⟨r, hr⟩ := h
  beta_reduce at hs ht
  rw [(hr writer).1] at hs
  rw [(hr writer).2] at ht
  cases r with
  | error e => cases hs
  | ok front => exact hrest (writer ++ front) s t hs ht

/-- What is written behind is the same. -/
theorem AppendApart.bind (hx : AppendAlike x x a a) (hy : AppendAlike y y b b)
    (h : AppendApart x y)
    (hrest : AppendAlike (fun writer => f ⟨a, writer⟩) (fun writer => g ⟨b, writer⟩) a' b') :
    AppendApart (fun writer => x writer >>= f) (fun writer => y writer >>= g) := by
  intro writer s t hs ht heq
  obtain ⟨⟨sx, hsx, hs⟩, ⟨ty, hty, ht⟩⟩ := And.intro (Except.bind_eq_ok.mp hs) (Except.bind_eq_ok.mp ht)
  have hfront := h writer sx ty hsx hty
  obtain ⟨rx, hrx⟩ := hx
  obtain ⟨ry, hry⟩ := hy
  obtain ⟨r, hr⟩ := hrest
  rw [(hrx writer).1] at hsx
  rw [(hry writer).1] at hty
  cases rx with
  | error e => cases hsx
  | ok p =>
    cases ry with
    | error e => cases hty
    | ok q =>
      cases hsx
      cases hty
      have hp := (hr (writer ++ p)).1
      have hq := (hr (writer ++ q)).2
      beta_reduce at hp hq
      rw [hs] at hp
      rw [ht] at hq
      cases r with
      | error e => cases hp
      | ok behind =>
          cases hp
          cases hq
          exact hfront (List.append_cancel_right heq)

theorem headed_writeAll (code : EncodingCodes) (bytes : Bytes) :
    Headed [code] (fun writer => .ok ((Serializer.mk a writer).writeAll (code.toU8 :: bytes))) := by
  intro writer s hs
  cases hs
  exact ⟨code, List.mem_singleton_self code, bytes, rfl⟩

theorem Headed.mono {codes codes' : List EncodingCodes} (h : Headed codes x)
    (hsubset : codes ⊆ codes') : Headed codes' x := by
  intro writer s hs
  obtain ⟨code, hcode, hrest⟩ := h writer s hs
  exact ⟨code, hsubset hcode, hrest⟩

theorem headed_writeCompound (code8 code32 : EncodingCodes) (num : Nat) (buf : Bytes) :
    Headed [code8, code32]
      (fun writer => (Serializer.mk a writer).writeCompound code8 code32 num buf .false) := by
  simp only [Serializer.writeCompound]
  split_ifs
  · exact (headed_writeAll _ _).mono (by simp)
  · exact (headed_writeAll _ _).mono (by simp)
  · exact fun writer s hs => by cases hs

/-- A list is longer than its body. -/
theorem length_lt_writeList {num : Nat} {buf writer : Bytes} {s : Serializer}
    (hs : (Serializer.mk a writer).writeList num buf .false = .ok s) :
    writer.length + buf.length < s.writer.length := by
  simp only [Serializer.writeList, Serializer.writeCompound] at hs
  split_ifs at hs <;> cases hs <;>
    simp only [Serializer.writeAll, List.length_append, List.length_cons] <;> omega

theorem headed_writeList (num : Nat) (buf : Bytes) :
    Headed [.list0, .list8, .list32]
      (fun writer => (Serializer.mk a writer).writeList num buf .false) := by
  simp only [Serializer.writeList]
  split_ifs
  · exact (headed_writeAll _ _).mono (by simp)
  · exact (headed_writeCompound _ _ _ _).mono (by simp)

theorem Headed.apart {α : Type} {codes : List EncodingCodes} (z : Except Failure α)
    {f : α → Bytes → Except Failure Serializer} (h : ∀ c, Headed codes (f c)) :
    Headed codes (fun writer => z >>= fun c => f c writer) := by
  intro writer s hs
  obtain ⟨c, _, hs⟩ := Except.bind_eq_ok.mp hs
  exact h c writer s hs

/-- What is written behind a format code does not change it. -/
theorem Headed.bind {codes : List EncodingCodes} (h : Headed codes x)
    (hrest : ∀ s t, f s = .ok t → ∃ bytes, t.writer = s.writer ++ bytes) :
    Headed codes (fun writer => x writer >>= f) := by
  intro writer t ht
  obtain ⟨s, hs, ht⟩ := Except.bind_eq_ok.mp ht
  obtain ⟨code, hcode, rest, hrest'⟩ := h writer s hs
  obtain ⟨bytes, hbytes⟩ := hrest s t ht
  exact ⟨code, hcode, rest ++ bytes, by rw [hbytes, hrest']; simp⟩

theorem headed_writeVariableHeader (code8 code32 : EncodingCodes) (l : Nat) :
    Headed [code8, code32]
      (fun writer => (Serializer.mk a writer).writeVariableHeader code8 code32 l) := by
  simp only [Serializer.writeVariableHeader]
  split_ifs
  · exact (headed_writeAll _ _).mono (by simp)
  · exact (headed_writeAll _ _).mono (by simp)
  · exact fun writer s hs => by cases hs

end Apart

namespace Ser

variable {v : Ser} {a b : SizeSerializer}

/-- The value is not written alike by two serializers. -/
def WrittenApart (v : Ser) (a b : SizeSerializer) : Prop :=
  AppendApart (fun writer => v.serialize ⟨a, writer⟩) (fun writer => v.serialize ⟨b, writer⟩)

/-- A number is no timestamp. -/
theorem writtenApart_i64 {n : Int64} (h : Beside a b) (hdiffer : a.nonNativeType ≠ b.nonNativeType) :
    (Ser.i64 n).WrittenApart a b := by
  obtain ⟨m, m', q, q', encodings, rfl, rfl, hm, _⟩ := h.eq_mk
  simp only [ne_eq] at hdiffer
  obtain rfl | rfl := hm
  · have hplain : Headed [.smallLong, .long] fun writer =>
        (Serializer.mk ⟨Option.none, q', encodings, .false⟩ writer).serializeI64 n := by
      simp only [Serializer.serializeI64]
      split_ifs
      · exact (headed_writeAll .smallLong _).mono (by simp)
      · exact (headed_writeAll .long _).mono (by simp)
    simp only [WrittenApart, serialize]
    rcases m with _ | ⟨⟨⟩⟩
    case none => exact absurd rfl hdiffer
    case some.timestamp => exact .of_headed [.timestamp] _ (headed_writeAll .timestamp _) hplain (by decide)
    all_goals exact .of_failed fun _ => rfl
  · exact absurd rfl hdiffer

/-- A string is no symbol. -/
theorem writtenApart_str {text : String} (h : Beside a b)
    (hdiffer : a.nonNativeType ≠ b.nonNativeType) : (Ser.str text).WrittenApart a b := by
  obtain ⟨m, m', q, q', encodings, rfl, rfl, hm, _⟩ := h.eq_mk
  simp only [ne_eq] at hdiffer
  obtain rfl | rfl := hm
  · have htext (s t : Serializer) (hst : .ok (s.writeAll (utf8Bytes text)) = (.ok t : Except Failure _)) :
        ∃ bytes, t.writer = s.writer ++ bytes := by
      cases hst
      exact ⟨_, rfl⟩
    have hplain : Headed [.str8, .str32] fun writer =>
        (Serializer.mk ⟨Option.none, q', encodings, .false⟩ writer).serializeStr text :=
      (headed_writeVariableHeader _ _ _).bind htext
    simp only [WrittenApart, serialize]
    rcases m with _ | ⟨⟨⟩⟩
    case none => exact absurd rfl hdiffer
    case some.symbol | some.symbolRef =>
      refine .of_headed [.sym8, .sym32] _ ?_ hplain (by decide)
      simp only [Serializer.serializeStr]
      exact (headed_writeVariableHeader _ _ _).bind fun s t => htext s.resetNonNativeType t
    all_goals exact .of_failed fun _ => rfl
  · exact absurd rfl hdiffer

/-- A binary is longer than the bytes of a value of fixed width, and than bytes that are an encoding
already. -/
theorem writtenApart_bytes {bytes : Bytes} (h : Beside a b)
    (hdiffer : a.nonNativeType ≠ b.nonNativeType) : (Ser.bytes bytes).WrittenApart a b := by
  obtain ⟨m, m', q, q', encodings, rfl, rfl, hm, _⟩ := h.eq_mk
  simp only [ne_eq] at hdiffer
  obtain rfl | rfl := hm
  · intro writer s t hs ht heq
    have hplain : writer.length + 2 + bytes.length ≤ t.writer.length := by
      simp only [serialize, Serializer.serializeBytes, Serializer.writeVariableHeader] at ht
      split_ifs at ht
      · cases ht
        simp only [Serializer.writeAll, List.length_append, List.length_cons]
        omega
      · cases ht
        simp only [Serializer.writeAll, List.length_append, List.length_cons, BigEndian.length_encode]
        omega
      · cases ht
    have hraw : s.writer.length ≤ writer.length + 1 + bytes.length := by
      simp only [serialize, Serializer.serializeBytes] at hs
      rcases m with _ | ⟨⟨⟩⟩
      case none => exact absurd rfl hdiffer
      all_goals
        cases hs <;>
          simp only [Serializer.writeFixed, Serializer.writeAll, Serializer.resetNonNativeType,
            List.length_append, List.length_cons] <;>
          omega
    rw [heq] at hraw
    omega
  · exact absurd rfl hdiffer

/-- A list is no array, and has a header. -/
theorem writtenApart_seq {len : Option Nat} {vs : List Ser} (h : Beside a b)
    (hdiffer : a.seqType.getD .list ≠ b.seqType.getD .list) : (Ser.seq len vs).WrittenApart a b := by
  obtain ⟨m, m', q, q', encodings, rfl, rfl, _, hq⟩ := h.eq_mk
  simp only [ne_eq] at hdiffer
  obtain rfl | rfl := hq
  · simp only [WrittenApart, serialize, Serializer.endSeq, Serializer.writeArray]
    rcases q with _ | ⟨⟨⟩⟩
    case none => exact absurd rfl hdiffer
    case some.list => exact absurd rfl hdiffer
    case some.array =>
      refine .of_headed [.array8, .array32] [.list0, .list8, .list32] ?_ ?_ (by decide)
      · exact .apart _ fun result => headed_writeCompound _ _ _ _
      · exact .apart _ fun result => headed_writeList _ _
    case some.transparentVec =>
      have hmode : ∀ num, elementMode (Option.some .transparentVec) num = elementMode Option.none num :=
        fun _ => rfl
      rw [serializeElements_congr hmode]
      refine .apart _ fun result _ => ?_
      intro writer s t hs ht heq
      cases hs
      have hlt := length_lt_writeList ht
      simp only [Serializer.writeAll] at heq
      rw [← heq, List.length_append] at hlt
      omega
  · exact absurd rfl hdiffer

theorem readsAlike_self (v : Ser) : ∀ a : SizeSerializer, v.readsAlike a a := by
  induction v using Ser.induction with
  | leaf v hleaf =>
      intro a
      cases v with
      | some | newtypeStruct | newtypeVariant | seq | tuple | tupleStruct | map | struct | variant =>
          cases hleaf
      | _ => simp only [readsAlike, beq_self_eq_true]
  | some v ih => simpa only [readsAlike] using ih
  | newtypeStruct name v ih => intro a; simpa only [readsAlike] using ih _
  | newtypeVariant name index v ih =>
      intro a
      cases name with
      | descriptor => simpa only [readsAlike] using ih a
      | _ => simp only [readsAlike]
  | tupleStruct name vs ih =>
      intro a
      simp only [readsAlike]
      cases vs with
      | nil => simp only [tupleReadsAlike]
      | cons v vs => simp only [tupleReadsAlike, ih v List.mem_cons_self, Bool.or_true]
  | struct name fields ih =>
      intro a
      simp only [readsAlike]
      generalize a.enterStruct name = a
      induction fields generalizing a with
      | nil => simp only [fieldsReadAlike]
      | cons field fields ihfields =>
          obtain ⟨key, v⟩ := field
          have hv := ih (key, v) List.mem_cons_self
          have hrest := ihfields fun field hfield => ih field (List.mem_cons_of_mem _ hfield)
          cases key with
          | descriptor => simp only [fieldsReadAlike, hv, hrest, Bool.and_self]
          | name text => simp only [fieldsReadAlike, hv, hrest, Bool.and_self, ite_self]
  | _ => intro a; simp only [readsAlike, beq_self_eq_true]

/-- A descriptor reads no flag but the one it has set. -/
theorem readsAlike_of_isDescriptor {v : Ser} (h : v.isDescriptor) (a b : SizeSerializer) :
    v.readsAlike a b := by
  unfold isDescriptor at h
  split at h
  · simp only [readsAlike, SizeSerializer.enterNewtype, beq_self_eq_true]
  · simp only [readsAlike]
  · cases h

theorem writtenAlike_self (v : Ser) (h : Beside a b) : v.WrittenAlike a a ∧ v.WrittenAlike b b :=
  ⟨v.writtenAlike a a ⟨h.alone, h.alone, rfl, .inr rfl, .inr rfl⟩ (v.readsAlike_self a),
    v.writtenAlike b b ⟨h.alone', h.alone', rfl, .inr rfl, .inr rfl⟩ (v.readsAlike_self b)⟩

theorem writtenApart_leaf (hleaf : v.isLeaf) (h : Beside a b) (hdiffer : v.readsAlike a b = false) :
    v.WrittenApart a b := by
  cases v with
  | i64 n => exact writtenApart_i64 h (by simpa [readsAlike] using hdiffer)
  | str text => exact writtenApart_str h (by simpa [readsAlike] using hdiffer)
  | bytes bytes => exact writtenApart_bytes h (by simpa [readsAlike] using hdiffer)
  | some | newtypeStruct | newtypeVariant | seq | tuple | tupleStruct | map | struct | variant =>
      cases hleaf
  | _ => simp [readsAlike] at hdiffer

theorem writtenApart_fields {fields : List (FieldKey × Ser)}
    (ih : ∀ field ∈ fields, ∀ a b, Beside a b → field.2.readsOnce b →
      field.2.readsAlike a b = false → field.2.WrittenApart a b)
    (h : Beside a b) (honce : fieldsReadOnce fields b) (hdiffer : fieldsReadAlike fields a b = false)
    (count : Nat) (buf : Bytes) :
    AppendApart
      (fun writer => do
        let (se, count, buf) ← serializeStructFields ⟨a, writer⟩ count buf fields
        se.endStruct count buf)
      (fun writer => do
        let (se, count, buf) ← serializeStructFields ⟨b, writer⟩ count buf fields
        se.endStruct count buf) := by
  induction fields generalizing a b count buf with
  | nil => simp only [fieldsReadAlike, reduceCtorEq] at hdiffer
  | cons field fields ihfields =>
      obtain ⟨key, v⟩ := field
      have hv := ih (key, v) List.mem_cons_self a b h
      have hafter := v.beside_flagsAfter a b h
      have hrest {a b : SizeSerializer} :=
        @ihfields a b fun field hfield => ih field (List.mem_cons_of_mem _ hfield)
      cases key with
      | descriptor =>
          simp only [fieldsReadOnce, Bool.and_eq_true] at honce
          have halike := readsAlike_of_isDescriptor honce.1 a b
          simp only [fieldsReadAlike, halike, Bool.true_and] at hdiffer
          simp only [serializeStructFields, bind_assoc]
          exact (v.writtenAlike a b h halike).bind_apart (hrest hafter honce.2 hdiffer count buf)
      | name text =>
          have hencoding := h.structEncoding
          simp only [fieldsReadOnce] at honce
          simp only [fieldsReadAlike, hencoding] at hdiffer
          simp only [serializeStructFields, hencoding, h.alone, h.alone']
          cases hb : b.structEncoding with
          | describedBasic =>
              simp only [hb, if_true, Bool.and_eq_true, List.isEmpty_iff] at honce
              obtain ⟨honce, rfl⟩ := honce
              simp only [hb, if_true, fieldsReadAlike, Bool.and_true] at hdiffer
              simp only [bind_assoc, serializeStructFields_nil, Except.ok_bind]
              have hself := v.writtenAlike_self h
              exact (hv honce hdiffer).bind hself.1 hself.2 (endStruct_alike hafter (count + 1) buf)
          | none | describedList =>
              simp only [hb, reduceCtorEq, if_false] at honce hdiffer
              simp only [bind_assoc]
              exact .apart _ fun inner _ => hrest h honce hdiffer (count + 1) inner.writer
          | describedMap =>
              simp only [hb, reduceCtorEq, if_false] at honce hdiffer
              simp only [bind_assoc]
              exact .apart _ fun key _ => .apart _ fun inner _ =>
                hrest h honce hdiffer (count + 1) inner.writer

/-- A value that reads a flag on which two serializers differ, once, is written alike by no two. -/
theorem writtenApart (v : Ser) : ∀ a b : SizeSerializer, Beside a b → v.readsOnce b →
    v.readsAlike a b = false → v.WrittenApart a b := by
  induction v using Ser.induction with
  | leaf v hleaf => exact fun a b h _ => writtenApart_leaf hleaf h
  | some v ih => simpa only [WrittenApart, serialize_some, readsOnce, readsAlike] using ih
  | newtypeStruct name v ih =>
      intro a b h honce hdiffer
      simp only [readsAlike] at hdiffer
      simp only [readsOnce] at honce
      simp only [WrittenApart, serialize]
      exact ih _ _ (h.enterNewtype name) honce hdiffer
  | newtypeVariant name index v ih =>
      intro a b h honce hdiffer
      cases name with
      | descriptor =>
          simp only [readsAlike] at hdiffer
          simp only [readsOnce] at honce
          simp only [WrittenApart, serialize]
          exact (AppendAlike.writeAll [EncodingCodes.describedType.toU8]).bind_apart
            (ih a b h honce hdiffer)
      | _ => simp only [readsAlike, reduceCtorEq] at hdiffer
  | seq len vs ih =>
      intro a b h _ hdiffer
      exact writtenApart_seq h (by simpa [readsAlike] using hdiffer)
  | tupleStruct name vs ih =>
      intro a b h honce hdiffer
      simp only [readsAlike] at hdiffer
      simp only [readsOnce] at honce
      simp only [WrittenApart, serialize]
      replace h := h.enterTupleStruct name
      generalize a.enterTupleStruct name = a at h hdiffer
      generalize b.enterTupleStruct name = b at h honce hdiffer
      generalize decide (name = .describedBasic ∨ name = .describedList) = role at hdiffer
      cases vs with
      | nil => simp only [tupleReadsAlike, reduceCtorEq] at hdiffer
      | cons v vs =>
          simp only [tupleReadsAlike, Bool.or_eq_false_iff, Bool.not_eq_false'] at hdiffer
          simp only [tupleReadsOnce] at honce
          obtain ⟨rfl, hdiffer⟩ := hdiffer
          simp only [serializeTupleStructFields, if_true, bind_assoc]
          have hself := v.writtenAlike_self h
          exact (ih v List.mem_cons_self a b h honce hdiffer).bind hself.1 hself.2
            (tupleFields_alike (v.beside_flagsAfter a b h) vs 0 [])
  | struct name fields ih =>
      intro a b h honce hdiffer
      simp only [readsAlike] at hdiffer
      simp only [readsOnce] at honce
      simp only [WrittenApart, serialize]
      exact writtenApart_fields ih (h.enterStruct name) honce hdiffer 0 []
  | _ => intro a b _ _ hdiffer; simp only [readsAlike, reduceCtorEq] at hdiffer

/-! ## The entries -/

/-- Each key and each value has an encoding, the first ones a size, and the number of entries is not
announced to be zero. -/
structure Writable (len : Option Nat) (entries : List (Ser × Ser)) : Prop where
  encoded : ∀ entry ∈ entries, (∃ bytes, toVec entry.1 = .ok bytes) ∧
    ∃ bytes, toVec entry.2 = .ok bytes
  measured : ∀ entry ∈ entries.head?, (∃ n, serializedSize entry.1 = .ok n) ∧
    ∃ n, serializedSize entry.2 = .ok n
  announced : len = Option.some 0 → ∀ entry ∈ entries.head?, toVec entry.1 = .ok []

/-- No value reads a flag that its key has left set. -/
def ValuesUnaffected (entries : List (Ser × Ser)) : Prop :=
  ∀ entry ∈ entries, entry.2.readsAlike (entry.1.flagsAfter .new) .new

theorem beside_new : Beside .new .new := ⟨rfl, rfl, rfl, .inl rfl, .inl rfl⟩

/-- A serializer of its own appends the stand-alone encoding. -/
theorem serialize_new (v : Ser) (buf : Bytes) : v.serialize (Serializer.new buf) =
    (toVec v).map fun bytes => ⟨v.flagsAfter .new, buf ++ bytes⟩ := by
  obtain ⟨r, hr⟩ := (v.writtenAlike_self beside_new).1
  have halone : v.serialize (Serializer.new []) = _ := (hr []).1
  have hbuf : v.serialize (Serializer.new buf) = _ := (hr buf).1
  rw [toVec, halone, hbuf]
  cases r <;> rfl

/-- So does the serializer of the key, if the value reads no flag that it has left set. -/
theorem serialize_behind {key value : Ser} (h : value.readsAlike (key.flagsAfter .new) .new)
    (writer : Bytes) : ∃ flags, value.serialize ⟨key.flagsAfter .new, writer⟩ =
      (toVec value).map fun bytes => ⟨flags, writer ++ bytes⟩ := by
  obtain ⟨r, hr⟩ := value.writtenAlike _ _ key.beside_key h
  refine ⟨value.flagsAfter (key.flagsAfter .new), ?_⟩
  have halone : value.serialize (Serializer.new []) = _ := (hr []).2
  rw [toVec, halone]
  refine (hr writer).1.trans ?_
  cases r <;> rfl

theorem serializeEntries_buffer {entries : List (Ser × Ser)} (h : ValuesUnaffected entries)
    (num : Nat) (buf : Bytes) : serializeEntries num (.buffer buf) entries =
      (standAlone entries).map fun body => (num + 2 * entries.length, .buffer (buf ++ body)) := by
  induction entries generalizing num buf with
  | nil => simp [standAlone, Except.map]
  | cons entry entries ih =>
      obtain ⟨key, value⟩ := entry
      have hrest := fun num buf => ih (fun entry hentry => h entry (List.mem_cons_of_mem _ hentry)) num buf
      simp only [serializeEntries, MapSerializerState.getBufferOrAllocForEntry, Except.ok_bind,
        serialize_new key, standAlone]
      cases toVec key with
      | error e => rfl
      | ok keyBytes =>
          obtain ⟨flags, hvalue⟩ := serialize_behind (h (key, value) List.mem_cons_self)
            (buf ++ keyBytes)
          simp only [Except.map, Except.ok_bind, hvalue]
          cases toVec value with
          | error e => rfl
          | ok valueBytes =>
              simp only [Except.ok_bind, hrest]
              cases standAlone entries with
              | error e => rfl
              | ok body =>
                  simp only [Except.map, Except.ok_bind, pure, Except.pure, List.length_cons,
                    List.append_assoc, Except.ok.injEq, Prod.mk.injEq, and_true]
                  omega

theorem serializeKeysValues_buffer (entries : List (Ser × Ser)) (num : Nat) (buf : Bytes) :
    serializeKeysValues num (.buffer buf) entries =
      (standAlone entries).map fun body => (num + 2 * entries.length, .buffer (buf ++ body)) := by
  induction entries generalizing num buf with
  | nil => simp [serializeKeysValues, standAlone, Except.map]
  | cons entry entries ih =>
      obtain ⟨key, value⟩ := entry
      simp only [serializeKeysValues, serializeKey, serializeValue,
        MapSerializerState.getBufferOrAllocForKey, MapSerializerState.getBufferOrAllocForValue,
        MapSerializerState.intoBuffer, MapSerializerState.withBuffer, Except.ok_bind, serialize_new,
        standAlone]
      cases toVec key with
      | error e => rfl
      | ok keyBytes =>
          cases toVec value with
          | error e => rfl
          | ok valueBytes =>
              simp only [Except.map, Except.ok_bind, pure, Except.pure, ih]
              cases standAlone entries with
              | error e => rfl
              | ok body =>
                  simp only [Except.ok_bind, List.length_cons, List.append_assoc, Except.ok.injEq,
                    Prod.mk.injEq, and_true]
                  omega

/-- The first entry is measured before it is written. -/
theorem serializeEntries_start {len : Option Nat} {entries : List (Ser × Ser)}
    (h : Writable len entries) (hentries : entries ≠ []) :
    serializeEntries 0 (.init len) entries = serializeEntries 0 (.buffer []) entries := by
  cases entries with
  | nil => exact absurd rfl hentries
  | cons entry entries =>
      obtain ⟨key, value⟩ := entry
      obtain ⟨⟨n, hkey⟩, m, hvalue⟩ := h.measured (key, value) rfl
      cases len <;>
        simp only [serializeEntries, MapSerializerState.getBufferOrAllocForEntry, hkey, hvalue,
          Except.ok_bind, pure, Except.pure]

theorem serializeKeysValues_start {len : Option Nat} {entries : List (Ser × Ser)}
    (h : Writable len entries) (hentries : entries ≠ []) :
    serializeKeysValues 0 (.init len) entries = serializeKeysValues 0 (.buffer []) entries := by
  cases entries with
  | nil => exact absurd rfl hentries
  | cons entry entries =>
      obtain ⟨key, value⟩ := entry
      obtain ⟨⟨n, hkey⟩, m, hvalue⟩ := h.measured (key, value) rfl
      obtain ⟨⟨keyBytes, hkeyBytes⟩, -⟩ := h.encoded (key, value) List.mem_cons_self
      simp only [serializeKeysValues, serializeKey, serializeValue,
        MapSerializerState.getBufferOrAllocForKey, MapSerializerState.getBufferOrAllocForValue,
        MapSerializerState.intoBuffer, MapSerializerState.withBuffer, hkey, hvalue, Except.ok_bind,
        pure, Except.pure, serialize_new, hkeyBytes, Except.map]
      cases len with
      | none => rfl
      | some len =>
          have hreserve : ¬len * (keyBytes.length + m) < keyBytes.length := by
            cases len with
            | zero =>
                have hempty := h.announced rfl (key, value) rfl
                rw [hkeyBytes] at hempty
                cases hempty
                simp
            | succ len =>
                have hle : keyBytes.length + m ≤ (len + 1) * (keyBytes.length + m) :=
                  Nat.le_mul_of_pos_left _ (Nat.succ_pos len)
                omega
          simp only [List.nil_append, hreserve, if_false, Except.ok_bind]

/-- The encodings of the keys and values exist if each of them has one. -/
theorem standAlone_of_encoded {entries : List (Ser × Ser)}
    (h : ∀ entry ∈ entries, (∃ bytes, toVec entry.1 = .ok bytes) ∧ ∃ bytes, toVec entry.2 = .ok bytes) :
    ∃ body, standAlone entries = .ok body := by
  induction entries with
  | nil => exact ⟨[], by simp [standAlone]⟩
  | cons entry entries ih =>
      obtain ⟨⟨keyBytes, hkey⟩, valueBytes, hvalue⟩ := h entry List.mem_cons_self
      obtain ⟨body, hbody⟩ := ih fun entry hentry => h entry (List.mem_cons_of_mem _ hentry)
      exact ⟨keyBytes ++ valueBytes ++ body, by
        simp only [standAlone, hkey, hvalue, hbody, Except.ok_bind]; rfl⟩

theorem encoded_of_standAlone {entries : List (Ser × Ser)} {body : Bytes}
    (h : standAlone entries = .ok body) : ∀ entry ∈ entries,
      (∃ bytes, toVec entry.1 = .ok bytes) ∧ ∃ bytes, toVec entry.2 = .ok bytes := by
  induction entries generalizing body with
  | nil => exact fun entry hentry => absurd hentry List.not_mem_nil
  | cons entry entries ih =>
      obtain ⟨key, value⟩ := entry
      simp only [standAlone] at h
      obtain ⟨keyBytes, hkey, h⟩ := Except.bind_eq_ok.mp h
      obtain ⟨valueBytes, hvalue, h⟩ := Except.bind_eq_ok.mp h
      obtain ⟨rest, hrest, -⟩ := Except.bind_eq_ok.mp h
      intro entry hentry
      obtain rfl | hentry := List.mem_cons.mp hentry
      · exact ⟨⟨keyBytes, hkey⟩, valueBytes, hvalue⟩
      · exact ih hrest entry hentry

theorem Writable.of_prefix {len : Option Nat} {written entries : List (Ser × Ser)}
    (h : Writable len entries) (hwritten : written <+: entries) : Writable len written := by
  have hhead : ∀ entry ∈ written.head?, entry ∈ entries.head? := by
    obtain ⟨rest, rfl⟩ := hwritten
    cases written with
    | nil => simp
    | cons entry written => simp
  exact ⟨fun entry hentry => h.encoded entry (hwritten.subset hentry),
    fun entry hentry => h.measured entry (hhead entry hentry),
    fun hlen entry hentry => h.announced hlen entry (hhead entry hentry)⟩

/-- Both paths write the encodings of the keys and values, one behind the other. -/
theorem bodies_of_unaffected {len : Option Nat} {entries : List (Ser × Ser)}
    (h : Writable len entries) (hunaffected : ValuesUnaffected entries) :
    ∃ body, standAlone entries = .ok body ∧ entryBody len entries = .ok body ∧
      keyValueBody len entries = .ok body := by
  obtain ⟨body, hbody⟩ := standAlone_of_encoded h.encoded
  refine ⟨body, hbody, ?_, ?_⟩
  · by_cases hentries : entries = []
    · subst hentries
      simp only [standAlone, Except.ok.injEq] at hbody
      simp only [entryBody, serializeEntries_nil, Except.ok_bind, MapSerializerState.intoBuffer, hbody]
      rfl
    · rw [entryBody, serializeEntries_start h hentries, serializeEntries_buffer hunaffected, hbody]
      rfl
  · by_cases hentries : entries = []
    · subst hentries
      simp only [standAlone, Except.ok.injEq] at hbody
      simp only [keyValueBody, serializeKeysValues, Except.ok_bind, MapSerializerState.intoBuffer, hbody]
      rfl
    · rw [keyValueBody, serializeKeysValues_start h hentries, serializeKeysValues_buffer, hbody]
      rfl

theorem serializeEntries_append (written entries : List (Ser × Ser)) (num : Nat)
    (state : MapSerializerState) : serializeEntries num state (written ++ entries) = (do
      let (num, state) ← serializeEntries num state written
      serializeEntries num state entries) := by
  induction written generalizing num state with
  | nil => simp only [List.nil_append, serializeEntries_nil, Except.ok_bind]
  | cons entry written ih =>
      obtain ⟨key, value⟩ := entry
      simp only [List.cons_append, serializeEntries, bind_assoc, ih]

theorem standAlone_append {written entries : List (Ser × Ser)} {body : Bytes}
    (h : standAlone written = .ok body) :
    standAlone (written ++ entries) = (standAlone entries).map (body ++ ·) := by
  induction written generalizing body with
  | nil =>
      simp only [standAlone, Except.ok.injEq] at h
      subst h
      simp only [List.nil_append]
      cases standAlone entries <;> rfl
  | cons entry written ih =>
      obtain ⟨key, value⟩ := entry
      simp only [standAlone] at h
      obtain ⟨keyBytes, hkey, h⟩ := Except.bind_eq_ok.mp h
      obtain ⟨valueBytes, hvalue, h⟩ := Except.bind_eq_ok.mp h
      obtain ⟨rest, hrest, h⟩ := Except.bind_eq_ok.mp h
      cases h
      simp only [List.cons_append, standAlone, hkey, hvalue, Except.ok_bind, ih hrest]
      cases standAlone entries with
      | error e => rfl
      | ok body => simp [Except.map, pure, Except.pure, Except.ok_bind]

/-- An entry goes on the buffer of those before it. -/
theorem serializeEntries_singleton {num num' : Nat} {state state' : MapSerializerState}
    {key value : Ser} (h : serializeEntries num state [(key, value)] = .ok (num', state')) :
    ∃ inner after, key.serialize (Serializer.new state.intoBuffer) = .ok inner ∧
      value.serialize inner = .ok after ∧ state'.intoBuffer = after.writer := by
  simp only [serializeEntries] at h
  obtain ⟨buf, hbuf, h⟩ := Except.bind_eq_ok.mp h
  obtain ⟨inner, hinner, h⟩ := Except.bind_eq_ok.mp h
  obtain ⟨after, hafter, h⟩ := Except.bind_eq_ok.mp h
  cases h
  have hstate : buf = state.intoBuffer := by
    cases state with
    | init len =>
        cases len with
        | none => cases hbuf; rfl
        | some len =>
            obtain ⟨_, _, hbuf⟩ := Except.bind_eq_ok.mp hbuf
            obtain ⟨_, _, hbuf⟩ := Except.bind_eq_ok.mp hbuf
            cases hbuf
            rfl
    | keyInit len inner =>
        cases len with
        | none => cases hbuf; rfl
        | some len =>
            obtain ⟨_, _, hbuf⟩ := Except.bind_eq_ok.mp hbuf
            obtain ⟨_, _, hbuf⟩ := Except.bind_eq_ok.mp hbuf
            split at hbuf
            · cases hbuf
            · cases hbuf
              rfl
    | buffer inner => cases hbuf; rfl
  rw [hstate] at hinner
  exact ⟨inner, after, hinner, hafter, rfl⟩

theorem EncodedIndependently.writable {len : Option Nat} {entries : List (Ser × Ser)}
    (h : EncodedIndependently len entries) : Writable len entries := by
  obtain ⟨body, hbody, -, hkeyValue⟩ := h entries (List.prefix_refl _)
  have hencoded := encoded_of_standAlone hbody
  cases entries with
  | nil => exact ⟨hencoded, by simp, by simp⟩
  | cons entry entries =>
      obtain ⟨key, value⟩ := entry
      obtain ⟨⟨keyBytes, hkeyBytes⟩, -⟩ := hencoded (key, value) List.mem_cons_self
      simp only [keyValueBody, serializeKeysValues, serializeKey, serializeValue,
        MapSerializerState.getBufferOrAllocForKey, bind_assoc] at hkeyValue
      obtain ⟨n, hkey, hkeyValue⟩ := Except.bind_eq_ok.mp hkeyValue
      simp only [pure_bind, MapSerializerState.intoBuffer, serialize_new, hkeyBytes, Except.map,
        Except.ok_bind, MapSerializerState.withBuffer, List.nil_append] at hkeyValue
      obtain ⟨state, hstate, -⟩ := Except.bind_eq_ok.mp hkeyValue
      have hmeasured : (∃ m, serializedSize value = .ok m) ∧ (len = Option.some 0 → keyBytes = []) := by
        cases len with
        | none =>
            obtain ⟨m, hm, -⟩ := Except.bind_eq_ok.mp hstate
            exact ⟨⟨m, hm⟩, fun hlen => by cases hlen⟩
        | some len =>
            obtain ⟨m, hm, hstate⟩ := Except.bind_eq_ok.mp hstate
            refine ⟨⟨m, hm⟩, fun hlen => ?_⟩
            cases hlen
            split_ifs at hstate with hreserve
            simpa using hreserve
      refine ⟨hencoded, ?_, ?_⟩
      · intro entry hentry
        cases hentry
        exact ⟨⟨n, hkey⟩, hmeasured.1⟩
      · intro hlen entry hentry
        cases hentry
        rw [hkeyBytes, hmeasured.2 hlen]

theorem EncodedIndependently.valuesUnaffected {len : Option Nat} {entries : List (Ser × Ser)}
    (h : EncodedIndependently len entries) (honce : ∀ entry ∈ entries, entry.2.readsOnce .new) :
    ValuesUnaffected entries := by
  intro entry hentry
  obtain ⟨before, behind, rfl⟩ := List.append_of_mem hentry
  obtain ⟨key, value⟩ := entry
  obtain ⟨body, hbody, hbodyEntries, -⟩ := h before (List.prefix_append _ _)
  obtain ⟨body', hbody', hbodyEntries', -⟩ := h (before ++ [(key, value)]) ⟨behind, by simp⟩
  obtain ⟨⟨keyBytes, hkey⟩, valueBytes, hvalue⟩ := encoded_of_standAlone hbody' (key, value) (by simp)
  -- what the two paths have written behind the entry
  have hwhole : body' = body ++ keyBytes ++ valueBytes := by
    rw [standAlone_append hbody] at hbody'
    simp only [standAlone, hkey, hvalue, Except.ok_bind, pure, Except.pure, Except.map,
      Except.ok.injEq] at hbody'
    simpa using hbody'.symm
  simp only [entryBody] at hbodyEntries hbodyEntries'
  obtain ⟨⟨num, state⟩, hbefore, hstate⟩ := Except.bind_eq_ok.mp hbodyEntries
  cases hstate
  rw [serializeEntries_append, hbefore, Except.ok_bind] at hbodyEntries'
  obtain ⟨⟨num', state'⟩, hlast, hstate'⟩ := Except.bind_eq_ok.mp hbodyEntries'
  obtain ⟨inner, after, hinner, hafter, hwriter⟩ := serializeEntries_singleton hlast
  rw [serialize_new, hkey] at hinner
  cases hinner
  by_contra hdiffer
  have hapart := value.writtenApart _ _ key.beside_key (honce (key, value) (by simp))
    (by simpa using hdiffer)
  refine hapart _ after ⟨value.flagsAfter .new, state.intoBuffer ++ keyBytes ++ valueBytes⟩ hafter ?_ ?_
  · have hown := serialize_new value (state.intoBuffer ++ keyBytes)
    rw [hvalue] at hown
    exact hown
  · rw [← hwhole, ← hwriter]
    cases hstate'
    rfl

/-- The entries of a map are encoded independently where no value reads a flag of its key; values
that read their flags once are encoded independently only there. -/
theorem encodedIndependently_when (len : Option Nat) (entries : List (Ser × Ser)) :
    (Writable len entries ∧ ValuesUnaffected entries → EncodedIndependently len entries) ∧
      ((∀ entry ∈ entries, entry.2.readsOnce .new) → EncodedIndependently len entries →
        Writable len entries ∧ ValuesUnaffected entries) := by
  constructor
  · rintro ⟨hwritable, hunaffected⟩ written hwritten
    exact bodies_of_unaffected (hwritable.of_prefix hwritten)
      fun entry hentry => hunaffected entry (hwritten.subset hentry)
  · intro honce h
    exact ⟨h.writable, h.valuesUnaffected honce⟩

theorem number_key_encodedIndependently :
    EncodedIndependently (Option.some 1) [(.u32 1, .i64 1)] ∧
      ValuesUnaffected [(.u32 1, .i64 1)] := by
  have hwritable : Writable (Option.some 1) [(.u32 1, .i64 1)] := by
    refine ⟨?_, ?_, ?_⟩
    · intro entry hentry
      obtain rfl := List.mem_singleton.mp hentry
      exact ⟨⟨_, rfl⟩, _, rfl⟩
    · intro entry hentry
      cases hentry
      exact ⟨⟨_, rfl⟩, _, rfl⟩
    · intro hlen
      cases hlen
  have hunaffected : ValuesUnaffected [(.u32 1, .i64 1)] := by
    intro entry hentry
    obtain rfl := List.mem_singleton.mp hentry
    rfl
  have h := (encodedIndependently_when (Option.some 1) [(.u32 1, .i64 1)]).1 ⟨hwritable, hunaffected⟩
  refine ⟨h, ((encodedIndependently_when _ _).2 ?_ h).2⟩
  intro entry hentry
  obtain rfl := List.mem_singleton.mp hentry
  rfl

/-- Behind a timestamp a long is written as a timestamp, and a string panics. -/
theorem timestamp_key_not_independent :
    ¬EncodedIndependently (Option.some 1) [(.newtypeStruct .timestamp (.i64 0), .i64 1)] ∧
      entryBody (Option.some 1) [(.newtypeStruct .timestamp (.i64 0), .str "")] = .error .panic := by
  constructor
  · intro h
    obtain ⟨body, hbody, hentry, -⟩ := h _ (List.prefix_refl _)
    rw [← hbody] at hentry
    exact absurd hentry (by decide)
  · rfl

end Ser

end Fe2o3Amqp
