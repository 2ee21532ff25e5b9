import Fe2o3Amqp.Serde.WireLength

/-!
# The first element of an array

Before the first element of an array is written it is measured as if it stood alone.  What has a size
there fits, and takes no more bytes.
-/

namespace Fe2o3Amqp

namespace Ser

/-- The flags of two size serializers, the first of which counts the first element of an array and
the second a value that stands alone. -/
structure FirstAndAlone (sz sz' : SizeSerializer) : Prop where
  first : sz.isArrayElement = .firstElement
  alone : sz'.isArrayElement = .false
  structEncodings : sz.structEncodings = sz'.structEncodings

theorem FirstAndAlone.structEncoding {sz sz' : SizeSerializer} (h : FirstAndAlone sz sz') :
    sz.structEncoding = sz'.structEncoding := by
  rw [SizeSerializer.structEncoding, h.structEncodings]
  rfl

theorem compoundSize_ok {len n : Nat} {mode : IsArrayElement} (hsize : compoundSize len mode = .ok n) :
    len ≤ u32MaxMinus4 ∧ n = compoundLength len mode := by
  rw [compoundSize_eq] at hsize
  split_ifs at hsize with hfits
  cases hsize
  exact ⟨hfits, rfl⟩

theorem listSize_ok {len n : Nat} {mode : IsArrayElement} (hsize : listSize len mode = .ok n) :
    len ≤ u32MaxMinus4 ∧ n = listLength len mode := by
  rw [listSize_eq] at hsize
  split_ifs at hsize with hfits
  cases hsize
  exact ⟨hfits, rfl⟩

theorem le_of_listSize {len n : Nat} {mode : IsArrayElement} (hsize : listSize len mode = .ok n) :
    len ≤ n := by
  obtain ⟨-, rfl⟩ := listSize_ok hsize
  exact le_listLength

theorem le_of_mapSize {len n : Nat} {mode : IsArrayElement} (hsize : mapSize len mode = .ok n) :
    len ≤ n := by
  obtain ⟨-, rfl⟩ := compoundSize_ok hsize
  exact le_compoundLength

/-- A shorter list has a size as well, and it is no larger. -/
theorem listSize_mono {len len' n : Nat} (hle : len' ≤ len)
    (hsize : listSize len .firstElement = .ok n) : ∃ n', listSize len' .false = .ok n' ∧ n' ≤ n := by
  obtain ⟨hfits, rfl⟩ := listSize_ok hsize
  refine ⟨listLength len' .false, ?_, ?_⟩
  · rw [listSize_eq, if_pos (Nat.le_trans hle hfits)]
  · rcases Nat.eq_or_lt_of_le hle with rfl | hlt
    · exact Nat.le_refl _
    · exact Nat.le_of_lt (listLength_lt hlt)

theorem mapSize_mono {len len' n : Nat} (hle : len' ≤ len)
    (hsize : mapSize len .firstElement = .ok n) : ∃ n', mapSize len' .false = .ok n' ∧ n' ≤ n := by
  obtain ⟨hfits, rfl⟩ := compoundSize_ok hsize
  refine ⟨compoundLength len' .false, ?_, ?_⟩
  · rw [mapSize, compoundSize_eq, if_pos (Nat.le_trans hle hfits)]
  · rcases Nat.eq_or_lt_of_le hle with rfl | hlt
    · exact Nat.le_refl _
    · exact Nat.le_of_lt (compoundLength_lt hlt)

/-- Alone the value has a size as well if the size as a first element is not too long. -/
def Shrinks (v : Ser) (sz sz' : SizeSerializer) : Prop :=
  ∀ n r, v.size sz = .ok (n, r) → n ≤ u32MaxMinus4 → ∃ n' r', v.size sz' = .ok (n', r') ∧ n' ≤ n

theorem shrinks_leaf {v : Ser} (hleaf : v.isLeaf) {sz sz' : SizeSerializer}
    (h : FirstAndAlone sz sz') (hnative : sz.nonNativeType = sz'.nonNativeType) :
    v.Shrinks sz sz' := by
  intro n r hsize hfits
  obtain ⟨nonNativeType, seqType, structEncodings, isArrayElement⟩ := sz
  obtain ⟨nonNativeType', seqType', structEncodings', isArrayElement'⟩ := sz'
  obtain rfl : nonNativeType = nonNativeType' := hnative
  obtain rfl : isArrayElement = .firstElement := h.first
  obtain rfl : isArrayElement' = .false := h.alone
  have hvariable {l : Nat} (hl : 5 + l ≤ u32MaxMinus4) :
      ∃ n', SizeSerializer.variableSize l = .ok n' ∧ n' ≤ 5 + l := by
    simp only [SizeSerializer.variableSize]
    split_ifs
    · exact ⟨2 + l, rfl, by omega⟩
    · exact ⟨5 + l, rfl, Nat.le_refl _⟩
    · omega
  cases v with
  | some | newtypeStruct | newtypeVariant | seq | tuple | tupleStruct | map | struct | variant =>
      simp [isLeaf] at hleaf
  | i64 v =>
      simp only [Ser.size, SizeSerializer.serializeI64] at hsize ⊢
      cases nonNativeType with
      | none =>
          cases hsize
          refine ⟨_, _, rfl, ?_⟩
          split_ifs <;> omega
      | some nonNativeType =>
          cases nonNativeType <;> cases hsize
          exact ⟨_, _, rfl, Nat.le_refl _⟩
  | str v =>
      simp only [Ser.size, SizeSerializer.serializeStr] at hsize ⊢
      cases nonNativeType with
      | none =>
          cases hsize
          obtain ⟨n', hn', hle⟩ := hvariable hfits
          simp only [hn']
          exact ⟨n', _, rfl, hle⟩
      | some nonNativeType =>
          cases nonNativeType <;> cases hsize <;>
          · obtain ⟨n', hn', hle⟩ := hvariable hfits
            simp only [hn']
            exact ⟨n', _, rfl, hle⟩
  | bytes v =>
      simp only [Ser.size, SizeSerializer.serializeBytes] at hsize ⊢
      cases nonNativeType with
      | none =>
          cases hsize
          obtain ⟨n', hn', hle⟩ := hvariable hfits
          simp only [hn']
          exact ⟨n', _, rfl, hle⟩
      | some nonNativeType =>
          cases nonNativeType <;> cases hsize <;> exact ⟨_, _, rfl, Nat.le_refl _⟩
  | i32 v | u32 v | u64 v | unitVariant v =>
      cases hsize
      refine ⟨_, _, rfl, ?_⟩
      simp only [SizeSerializer.serializeI32, SizeSerializer.serializeU32,
        SizeSerializer.serializeU64]
      split_ifs <;> omega
  | _ =>
      cases hsize
      refine ⟨_, _, rfl, ?_⟩
      simp [SizeSerializer.fixedSize, SizeSerializer.serializeBool]

/-- Apart from the mode the flags are the same. -/
structure SameButMode (sz sz' : SizeSerializer) : Prop extends FirstAndAlone sz sz' where
  nonNativeType : sz.nonNativeType = sz'.nonNativeType
  seqType : sz.seqType = sz'.seqType

theorem sameButMode_new : SameButMode { SizeSerializer.new with isArrayElement := .firstElement } .new :=
  ⟨⟨rfl, rfl, rfl⟩, rfl, rfl⟩

theorem SameButMode.enterNewtype {sz sz' : SizeSerializer} (h : SameButMode sz sz')
    (name : TypeName) : SameButMode (sz.enterNewtype name) (sz'.enterNewtype name) := by
  obtain ⟨⟨hfirst, halone, hencodings⟩, hnative, hseq⟩ := h
  cases name <;> exact ⟨⟨hfirst, halone, hencodings⟩, by first | rfl | exact hnative,
    by first | rfl | exact hseq⟩

theorem FirstAndAlone.enterStruct {sz sz' : SizeSerializer} (h : FirstAndAlone sz sz')
    (name : TypeName) : FirstAndAlone (sz.enterStruct name) (sz'.enterStruct name) := by
  obtain ⟨hfirst, halone, hencodings⟩ := h
  cases name <;> exact ⟨hfirst, halone, by
    simp [SizeSerializer.enterStruct, SizeSerializer.pushEncoding, hencodings]⟩

theorem FirstAndAlone.enterTupleStruct {sz sz' : SizeSerializer} (h : FirstAndAlone sz sz')
    (name : TypeName) : FirstAndAlone (sz.enterTupleStruct name) (sz'.enterTupleStruct name) := by
  obtain ⟨hfirst, halone, hencodings⟩ := h
  cases name <;> exact ⟨hfirst, halone, by
    simp [SizeSerializer.enterTupleStruct, SizeSerializer.pushEncoding, hencodings]⟩

/-- The motive of the induction: where the two serializers run alike, the size shrinks. -/
def AlwaysShrinks (v : Ser) : Prop :=
  ∀ se sz sz', v.flagsAlike se sz → SameButMode sz sz' → v.Shrinks sz sz'

theorem shrinks_tupleFields {vs : List Ser} (ih : ∀ v ∈ vs, v.AlwaysShrinks) {role : Bool}
    {se sz sz' : SizeSerializer} (halike : tupleFieldsAlike role vs se sz)
    (h : FirstAndAlone sz sz') {n : Nat} (hsize : sizeTupleStructFields sz role vs = .ok n)
    (hfits : n ≤ u32MaxMinus4) :
    ∃ n', sizeTupleStructFields sz' role vs = .ok n' ∧ n' ≤ n := by
  induction vs generalizing role se n with
  | nil =>
      cases hsize
      exact ⟨0, rfl, Nat.le_refl _⟩
  | cons v vs ihvs =>
      have hvs := fun v hv => ih v (List.mem_cons_of_mem _ hv)
      cases role with
      | true =>
          -- the descriptor is counted by a serializer of its own
          simp only [tupleFieldsAlike, if_true, Bool.and_eq_true] at halike
          simp only [sizeTupleStructFields, if_true, Except.ok_bind] at hsize ⊢
          obtain ⟨⟨len, r⟩, hlen, hsize⟩ := Except.bind_eq_ok.mp hsize
          obtain ⟨rest, hrest, hsize⟩ := Except.bind_eq_ok.mp hsize
          cases hsize
          obtain ⟨rest', hrest', hle⟩ := ihvs hvs halike.2 hrest (by omega)
          refine ⟨len + rest', ?_, by omega⟩
          simp only [hlen, hrest', Except.ok_bind]
          rfl
      | false =>
          simp only [tupleFieldsAlike, Bool.false_eq_true, if_false, Bool.and_eq_true,
            beq_iff_eq] at halike
          simp only [sizeTupleStructFields, Bool.false_eq_true, if_false] at hsize ⊢
          obtain ⟨inner, hinner, hsize⟩ := Except.bind_eq_ok.mp hsize
          obtain ⟨⟨len, r⟩, hlen, hsize⟩ := Except.bind_eq_ok.mp hsize
          obtain ⟨rest, hrest, hsize⟩ := Except.bind_eq_ok.mp hsize
          cases hsize
          obtain ⟨rest', hrest', hle⟩ := ihvs hvs halike.2 hrest (by omega)
          have hfield : ∃ inner' len' r', tupleStructFieldSizer sz' = .ok inner' ∧
              v.size inner' = .ok (len', r') ∧ len' ≤ len := by
            obtain ⟨⟨hencoding, hv⟩, -⟩ := halike
            have hmode := ih v (List.mem_cons_self ..) _ _ .new hv
            simp only [tupleStructFieldSizer, ← h.structEncoding, h.first, h.alone] at hinner ⊢
            rw [hencoding] at hmode
            cases hsz : sz.structEncoding with
            | describedMap =>
                rw [hsz] at hinner
                cases hinner
            | describedBasic =>
                rw [hsz] at hinner
                cases hinner
                exact ⟨_, len, r, rfl, hlen, Nat.le_refl _⟩
            | none | describedList =>
                rw [hsz] at hinner hmode
                cases hinner
                simp only [reduceCtorEq, if_false, h.first] at hmode
                obtain ⟨len', r', hlen', hle⟩ := hmode sameButMode_new len r hlen (by omega)
                exact ⟨_, len', r', rfl, hlen', hle⟩
          obtain ⟨inner', len', r', hinner', hlen', hle'⟩ := hfield
          refine ⟨len' + rest', ?_, by omega⟩
          simp only [hinner', hlen', hrest', Except.ok_bind]
          rfl

/-- A descriptor leaves the flags that the size serializer reads behind it. -/
theorem size_descriptor_keeps {v : Ser} (hdescriptor : v.isDescriptor) {sz r : SizeSerializer} {n : Nat}
    (hsize : v.size sz = .ok (n, r)) :
    r.structEncodings = sz.structEncodings ∧ r.isArrayElement = sz.isArrayElement := by
  obtain ⟨nonNativeType, seqType, structEncodings, isArrayElement⟩ := sz
  unfold isDescriptor at hdescriptor
  split at hdescriptor
  · simp only [Ser.size, SizeSerializer.enterNewtype, SizeSerializer.serializeStr] at hsize
    obtain ⟨⟨len, r'⟩, hlen, hsize⟩ := Except.bind_eq_ok.mp hsize
    cases hsize
    cases isArrayElement with
    | false =>
        obtain ⟨len', -, hlen⟩ := Except.bind_eq_ok.mp hlen
        cases hlen
        exact ⟨rfl, rfl⟩
    | firstElement | otherElement =>
        cases hlen
        exact ⟨rfl, rfl⟩
  · cases hsize
    exact ⟨rfl, rfl⟩
  · cases hdescriptor

theorem shrinks_descriptor {v : Ser} (hdescriptor : v.isDescriptor) {sz sz' : SizeSerializer}
    (h : FirstAndAlone sz sz') : v.Shrinks sz sz' := by
  intro n r hsize hfits
  obtain ⟨nonNativeType, seqType, structEncodings, isArrayElement⟩ := sz
  obtain ⟨nonNativeType', seqType', structEncodings', isArrayElement'⟩ := sz'
  obtain ⟨rfl, rfl, rfl⟩ := h
  unfold isDescriptor at hdescriptor
  split at hdescriptor
  · rename_i index name
    cases hsize
    have hfits : 5 + (utf8Bytes name).length ≤ u32MaxMinus4 := by omega
    simp only [Ser.size, SizeSerializer.enterNewtype, SizeSerializer.serializeStr,
      SizeSerializer.variableSize]
    split_ifs
    · exact ⟨_, _, rfl, by omega⟩
    · exact ⟨_, _, rfl, by omega⟩
    · omega
  · rename_i index code
    cases hsize
    refine ⟨_, _, rfl, ?_⟩
    simp only [SizeSerializer.serializeU64]
    split_ifs <;> omega
  · cases hdescriptor

/-- The size of a named field of a struct. -/
def sizeField (sz : SizeSerializer) (key : String) (v : Ser) : Except Failure Nat :=
  match sz.structEncoding with
  | .none => do
      let (len, _) ← v.size { SizeSerializer.new with isArrayElement := sz.isArrayElement }
      return len
  | .describedList => do
      let (len, _) ← v.size .describedList
      return len
  | .describedMap => do
      let (keyLen, inner) ← SizeSerializer.describedMap.serializeStr key
      let (len, _) ← v.size inner
      return keyLen + len
  | .describedBasic => do
      let (len, _) ← v.size .new
      return len

theorem sizeStructFields_name (sz : SizeSerializer) (key : String) (v : Ser)
    (fields : List (FieldKey × Ser)) :
    sizeStructFields sz ((.name key, v) :: fields) = (do
      let len ← sizeField sz key v
      let (rest, sz) ← sizeStructFields sz fields
      return (len + rest, sz)) := by
  simp only [sizeStructFields, sizeField]
  cases sz.structEncoding <;> simp only [bind_assoc, pure_bind]

theorem shrinks_field {v : Ser} (ih : v.AlwaysShrinks) {se sz sz' sz₀ : SizeSerializer} {key : String}
    {fields : List (FieldKey × Ser)} (halike : fieldsAlike ((.name key, v) :: fields) se sz₀)
    (hsame : sz₀.structEncoding = sz.structEncoding) (h : FirstAndAlone sz sz')
    (h₀ : sz₀.isArrayElement = .firstElement) {n : Nat} (hsize : sizeField sz key v = .ok n)
    (hfits : n ≤ u32MaxMinus4) :
    ∃ n', sizeField sz' key v = .ok n' ∧ n' ≤ n := by
  simp only [fieldsAlike, Bool.and_eq_true, beq_iff_eq, hsame] at halike
  obtain ⟨hse, halike⟩ := halike
  simp only [sizeField, ← h.structEncoding, h.first, h.alone] at hsize ⊢
  rw [hse] at halike
  cases hsz : sz.structEncoding with
  | none =>
      simp only [hsz, Bool.and_eq_true, h₀] at halike hsize ⊢
      obtain ⟨⟨len, r⟩, hlen, hn⟩ := Except.bind_eq_ok.mp hsize
      cases hn
      obtain ⟨len', r', hlen', hle⟩ := ih _ _ .new halike.1 sameButMode_new len r hlen hfits
      refine ⟨len', ?_, hle⟩
      rw [show ({ SizeSerializer.new with isArrayElement := .false } : SizeSerializer) = .new from rfl,
        hlen']
      rfl
  | _ =>
      simp only [hsz] at hsize ⊢
      exact ⟨n, hsize, Nat.le_refl _⟩

theorem fieldsAlike_tail {field : FieldKey × Ser} {fields : List (FieldKey × Ser)}
    {se sz : SizeSerializer} (h : fieldsAlike (field :: fields) se sz) :
    ∃ se', fieldsAlike fields se' sz := by
  obtain ⟨key, v⟩ := field
  cases key with
  | descriptor =>
      simp only [fieldsAlike, Bool.and_eq_true] at h
      exact ⟨_, h.2⟩
  | name key =>
      simp only [fieldsAlike, Bool.and_eq_true, beq_iff_eq] at h
      obtain ⟨-, h⟩ := h
      cases hse : se.structEncoding <;> simp only [hse, Bool.and_eq_true] at h <;> exact ⟨_, h.2⟩

/-- The fields of a struct leave the flags that its end reads. -/
theorem sizeStructFields_keeps {fields : List (FieldKey × Ser)} {se sz₀ sz r : SizeSerializer}
    (halike : fieldsAlike fields se sz₀) {n : Nat} (hsize : sizeStructFields sz fields = .ok (n, r)) :
    r.structEncodings = sz.structEncodings ∧ r.isArrayElement = sz.isArrayElement := by
  induction fields generalizing se sz n with
  | nil =>
      cases hsize
      exact ⟨rfl, rfl⟩
  | cons field fields ih =>
      obtain ⟨se', htail⟩ := fieldsAlike_tail halike
      obtain ⟨key, v⟩ := field
      cases key with
      | descriptor =>
          simp only [fieldsAlike, Bool.and_eq_true] at halike
          simp only [sizeStructFields] at hsize
          obtain ⟨⟨len, mid⟩, hlen, hsize⟩ := Except.bind_eq_ok.mp hsize
          obtain ⟨⟨rest, r⟩, hrest, hsize⟩ := Except.bind_eq_ok.mp hsize
          cases hsize
          obtain ⟨hencodings, hmode⟩ := size_descriptor_keeps halike.1.1 hlen
          obtain ⟨hencodings', hmode'⟩ := ih htail hrest
          exact ⟨hencodings'.trans hencodings, hmode'.trans hmode⟩
      | name key =>
          rw [sizeStructFields_name] at hsize
          obtain ⟨len, hlen, hsize⟩ := Except.bind_eq_ok.mp hsize
          obtain ⟨⟨rest, r⟩, hrest, hsize⟩ := Except.bind_eq_ok.mp hsize
          cases hsize
          exact ih htail hrest

theorem shrinks_fields {fields : List (FieldKey × Ser)}
    (ih : ∀ field ∈ fields, field.2.AlwaysShrinks) {se sz sz' sz₀ : SizeSerializer}
    (halike : fieldsAlike fields se sz₀) (hsame : sz₀.structEncodings = sz.structEncodings)
    (h : FirstAndAlone sz sz') (h₀ : sz₀.isArrayElement = .firstElement) {n : Nat} {r : SizeSerializer}
    (hsize : sizeStructFields sz fields = .ok (n, r)) (hfits : n ≤ u32MaxMinus4) :
    ∃ n' r', sizeStructFields sz' fields = .ok (n', r') ∧ n' ≤ n ∧ FirstAndAlone r r' := by
  induction fields generalizing se sz sz' n with
  | nil =>
      cases hsize
      exact ⟨0, sz', rfl, Nat.le_refl _, h⟩
  | cons field fields ihfields =>
      have hfields := fun field hfield => ih field (List.mem_cons_of_mem _ hfield)
      obtain ⟨se', htail⟩ := fieldsAlike_tail halike
      obtain ⟨key, v⟩ := field
      cases key with
      | descriptor =>
          simp only [fieldsAlike, Bool.and_eq_true] at halike
          simp only [sizeStructFields] at hsize ⊢
          obtain ⟨⟨len, mid⟩, hlen, hsize⟩ := Except.bind_eq_ok.mp hsize
          obtain ⟨⟨rest, r⟩, hrest, hsize⟩ := Except.bind_eq_ok.mp hsize
          cases hsize
          obtain ⟨len', mid', hlen', hle⟩ := shrinks_descriptor halike.1.1 h len mid hlen (by omega)
          obtain ⟨hencodings, hmode⟩ := size_descriptor_keeps halike.1.1 hlen
          obtain ⟨hencodings', hmode'⟩ := size_descriptor_keeps halike.1.1 hlen'
          have hmid : FirstAndAlone mid mid' := by
            constructor
            · rw [hmode, h.first]
            · rw [hmode', h.alone]
            · rw [hencodings, hencodings', h.structEncodings]
          obtain ⟨rest', r', hrest', hle', hr⟩ := ihfields hfields htail
            (hsame.trans hencodings.symm) hmid hrest (by omega)
          refine ⟨len' + rest', r', ?_, by omega, hr⟩
          simp only [hlen', hrest', Except.ok_bind]
          rfl
      | name key =>
          have hencoding : sz₀.structEncoding = sz.structEncoding := by
            rw [SizeSerializer.structEncoding, hsame]
            rfl
          rw [sizeStructFields_name] at hsize ⊢
          obtain ⟨len, hlen, hsize⟩ := Except.bind_eq_ok.mp hsize
          obtain ⟨⟨rest, r⟩, hrest, hsize⟩ := Except.bind_eq_ok.mp hsize
          cases hsize
          obtain ⟨len', hlen', hle⟩ := shrinks_field (ih (.name key, v) (List.mem_cons_self ..)) halike
            hencoding h h₀ hlen (by omega)
          obtain ⟨rest', r', hrest', hle', hr⟩ := ihfields hfields htail hsame h hrest (by omega)
          refine ⟨len' + rest', r', ?_, by omega, hr⟩
          simp only [hlen', hrest', Except.ok_bind]
          rfl

theorem le_of_tupleStructSize {sz r : SizeSerializer} {len n : Nat}
    (hsize : tupleStructSize sz len = .ok (n, r)) : len ≤ n := by
  simp only [tupleStructSize] at hsize
  cases hsz : sz.structEncoding with
  | none | describedList =>
      simp only [hsz] at hsize
      obtain ⟨total, htotal, hsize⟩ := Except.bind_eq_ok.mp hsize
      cases hsize
      exact le_of_listSize htotal
  | describedBasic =>
      simp only [hsz] at hsize
      cases hsize
      exact Nat.le_refl _
  | describedMap =>
      simp only [hsz] at hsize
      cases hsize

theorem le_of_structSize {sz r : SizeSerializer} {len n : Nat}
    (hsize : structSize sz len = .ok (n, r)) : len ≤ n := by
  simp only [structSize] at hsize
  cases hsz : sz.structEncoding with
  | none | describedList =>
      simp only [hsz] at hsize
      obtain ⟨total, htotal, hsize⟩ := Except.bind_eq_ok.mp hsize
      cases hsize
      exact le_of_listSize htotal
  | describedMap =>
      simp only [hsz] at hsize
      obtain ⟨total, htotal, hsize⟩ := Except.bind_eq_ok.mp hsize
      cases hsize
      exact le_of_mapSize htotal
  | describedBasic =>
      simp only [hsz] at hsize
      cases hsize
      exact Nat.le_refl _

/-- The end of a tuple struct around a body that takes no more bytes. -/
theorem shrinks_tupleStructSize {sz sz' r : SizeSerializer} (h : FirstAndAlone sz sz')
    {len len' n : Nat} (hle : len' ≤ len) (hsize : tupleStructSize sz len = .ok (n, r)) :
    ∃ n' r', tupleStructSize sz' len' = .ok (n', r') ∧ n' ≤ n := by
  simp only [tupleStructSize, ← h.structEncoding, h.first, h.alone] at hsize ⊢
  cases hsz : sz.structEncoding with
  | none | describedList =>
      simp only [hsz] at hsize ⊢
      obtain ⟨total, htotal, hsize⟩ := Except.bind_eq_ok.mp hsize
      cases hsize
      obtain ⟨n', hn', hle'⟩ := listSize_mono hle htotal
      exact ⟨n', _, Except.bind_eq_ok.mpr ⟨n', hn', rfl⟩, hle'⟩
  | describedBasic =>
      simp only [hsz] at hsize ⊢
      cases hsize
      exact ⟨len', _, rfl, hle⟩
  | describedMap =>
      simp only [hsz] at hsize
      cases hsize

theorem shrinks_structSize {sz sz' r : SizeSerializer} (h : FirstAndAlone sz sz')
    {len len' n : Nat} (hle : len' ≤ len) (hsize : structSize sz len = .ok (n, r)) :
    ∃ n' r', structSize sz' len' = .ok (n', r') ∧ n' ≤ n := by
  simp only [structSize, ← h.structEncoding, h.first, h.alone] at hsize ⊢
  cases hsz : sz.structEncoding with
  | none | describedList =>
      simp only [hsz] at hsize ⊢
      obtain ⟨total, htotal, hsize⟩ := Except.bind_eq_ok.mp hsize
      cases hsize
      obtain ⟨n', hn', hle'⟩ := listSize_mono hle htotal
      exact ⟨n', _, Except.bind_eq_ok.mpr ⟨n', hn', rfl⟩, hle'⟩
  | describedMap =>
      simp only [hsz] at hsize ⊢
      obtain ⟨total, htotal, hsize⟩ := Except.bind_eq_ok.mp hsize
      cases hsize
      obtain ⟨n', hn', hle'⟩ := mapSize_mono hle htotal
      exact ⟨n', _, Except.bind_eq_ok.mpr ⟨n', hn', rfl⟩, hle'⟩
  | describedBasic =>
      simp only [hsz] at hsize ⊢
      cases hsize
      exact ⟨len', _, rfl, hle⟩

theorem alwaysShrinks (v : Ser) : v.AlwaysShrinks := by
  induction v using Ser.induction with
  | leaf v hleaf =>
      intro se sz sz' _ h
      exact shrinks_leaf hleaf h.toFirstAndAlone h.nonNativeType
  | some v ih =>
      intro se sz sz' halike h n r hsize hfits
      simp only [size_some] at hsize ⊢
      simp only [flagsAlike] at halike
      exact ih se sz sz' halike h n r hsize hfits
  | newtypeStruct name v ih =>
      intro se sz sz' halike h n r hsize hfits
      simp only [size] at hsize ⊢
      simp only [flagsAlike] at halike
      exact ih _ _ _ halike (h.enterNewtype name) n r hsize hfits
  | newtypeVariant name index v ih =>
      intro se sz sz' halike h n r hsize hfits
      cases name with
      | descriptor =>
          simp only [size] at hsize ⊢
          simp only [flagsAlike] at halike
          obtain ⟨⟨len, mid⟩, hlen, hsize⟩ := Except.bind_eq_ok.mp hsize
          cases hsize
          obtain ⟨len', r', hlen', hle⟩ := ih _ _ _ halike h len _ hlen (by omega)
          refine ⟨len' + 1, r', ?_, by omega⟩
          simp only [hlen', Except.ok_bind]
          rfl
      | _ =>
          simp only [size, h.first, h.alone] at hsize ⊢
          obtain ⟨⟨len, mid⟩, hlen, hsize⟩ := Except.bind_eq_ok.mp hsize
          obtain ⟨total, htotal, hsize⟩ := Except.bind_eq_ok.mp hsize
          cases hsize
          refine ⟨n, sz', ?_, Nat.le_refl _⟩
          simp only [hlen, Except.ok_bind]
          exact Except.bind_eq_ok.mpr ⟨n, htotal, rfl⟩
  | seq len vs ih =>
      intro se sz sz' halike h n r hsize hfits
      simp only [size, ← h.seqType] at hsize ⊢
      obtain ⟨body, hbody, hsize⟩ := Except.bind_eq_ok.mp hsize
      obtain ⟨total, htotal, hsize⟩ := Except.bind_eq_ok.mp hsize
      cases hsize
      have hsame : seqSize sz' body = seqSize sz body := by
        simp only [seqSize, h.seqType, h.first, h.alone]
        rfl
      refine ⟨n, sz', ?_, Nat.le_refl _⟩
      simp only [hbody, hsame, htotal, Except.ok_bind]
      rfl
  | tuple vs ih =>
      intro se sz sz' halike h n r hsize hfits
      simp only [size, h.first, h.alone] at hsize ⊢
      obtain ⟨body, hbody, hsize⟩ := Except.bind_eq_ok.mp hsize
      obtain ⟨total, htotal, hsize⟩ := Except.bind_eq_ok.mp hsize
      cases hsize
      refine ⟨n, sz', ?_, Nat.le_refl _⟩
      simp only [hbody, Except.ok_bind]
      exact Except.bind_eq_ok.mpr ⟨n, htotal, rfl⟩
  | tupleStruct name vs ih =>
      intro se sz sz' halike h n r hsize hfits
      simp only [size] at hsize ⊢
      simp only [flagsAlike] at halike
      have hentered := h.toFirstAndAlone.enterTupleStruct name
      obtain ⟨body, hbody, hsize⟩ := Except.bind_eq_ok.mp hsize
      have hle := le_of_tupleStructSize hsize
      obtain ⟨body', hbody', hle'⟩ := shrinks_tupleFields ih halike hentered hbody (by omega)
      obtain ⟨n', r', hn', hshrinks⟩ := shrinks_tupleStructSize hentered hle' hsize
      exact ⟨n', r', Except.bind_eq_ok.mpr ⟨body', hbody', hn'⟩, hshrinks⟩
  | map len entries ih =>
      intro se sz sz' halike h n r hsize hfits
      simp only [size, h.first, h.alone] at hsize ⊢
      obtain ⟨body, hbody, hsize⟩ := Except.bind_eq_ok.mp hsize
      obtain ⟨total, htotal, hsize⟩ := Except.bind_eq_ok.mp hsize
      cases hsize
      refine ⟨n, sz', ?_, Nat.le_refl _⟩
      simp only [hbody, Except.ok_bind]
      exact Except.bind_eq_ok.mpr ⟨n, htotal, rfl⟩
  | struct name fields ih =>
      intro se sz sz' halike h n r hsize hfits
      simp only [size] at hsize ⊢
      simp only [flagsAlike] at halike
      have hentered := h.toFirstAndAlone.enterStruct name
      obtain ⟨⟨body, mid⟩, hbody, hsize⟩ := Except.bind_eq_ok.mp hsize
      have hle := le_of_structSize hsize
      obtain ⟨body', mid', hbody', hle', hmid⟩ :=
        shrinks_fields ih halike rfl hentered hentered.first hbody (by omega)
      obtain ⟨n', r', hn', hshrinks⟩ := shrinks_structSize hmid hle' hsize
      exact ⟨n', r', Except.bind_eq_ok.mpr ⟨(body', mid'), hbody', hn'⟩, hshrinks⟩
  | variant index vs ih =>
      intro se sz sz' halike h n r hsize hfits
      simp only [size, h.first, h.alone] at hsize ⊢
      obtain ⟨body, hbody, hsize⟩ := Except.bind_eq_ok.mp hsize
      obtain ⟨value, hvalue, hsize⟩ := Except.bind_eq_ok.mp hsize
      obtain ⟨total, htotal, hsize⟩ := Except.bind_eq_ok.mp hsize
      cases hsize
      refine ⟨n, sz', ?_, Nat.le_refl _⟩
      simp only [hbody, Except.ok_bind]
      exact Except.bind_eq_ok.mpr ⟨value, hvalue, Except.bind_eq_ok.mpr ⟨n, htotal, rfl⟩⟩

end Ser

end Fe2o3Amqp
