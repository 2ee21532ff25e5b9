import Fe2o3Amqp.Serde.Decodes

/-!
# Round trip of values

Every value without arrays is read back from the bytes it is written as.  The induction over the
value runs on the serializer's side: whatever a value writes starts with a format code of its type
and is decoded to the value again, at any depth that its bytes bound.
-/

namespace Fe2o3Amqp

namespace Value

/-- Lists and maps have no more elements than the deserializer takes. -/
def WithinCaps (v : Value) : Prop :=
  v.all fun
    | .list vs => decide (vs.length ≤ 65536)
    | .map entries => decide (entries.length ≤ 32768)
    | _ => true

instance (v : Value) : Decidable v.WithinCaps := inferInstanceAs (Decidable (_ = true))

/-- The values that survive the round trip. -/
structure Codable (v : Value) : Prop where
  wellFormed : v.WellFormed
  arrayFree : v.ArrayFree
  withinCaps : v.WithinCaps
  keysTimestampFree : v.KeysTimestampFree

namespace Codable

theorem described {descriptor : Descriptor} {v : Value}
    (h : (Value.described descriptor v).Codable) : v.Codable where
  wellFormed := (all_described.mp h.wellFormed).2
  arrayFree := (all_described.mp h.arrayFree).2
  withinCaps := (all_described.mp h.withinCaps).2
  keysTimestampFree := (all_described.mp h.keysTimestampFree).2

theorem list {vs : List Value} (h : (Value.list vs).Codable) :
    vs.length ≤ maxArrayCount ∧ ∀ v ∈ vs, v.Codable := by
  constructor
  · simpa [maxArrayCount] using (all_list.mp h.withinCaps).1
  · intro v hv
    exact ⟨(all_list.mp h.wellFormed).2 v hv, (all_list.mp h.arrayFree).2 v hv,
      (all_list.mp h.withinCaps).2 v hv, (all_list.mp h.keysTimestampFree).2 v hv⟩

theorem map {entries : List (Value × Value)} (h : (Value.map entries).Codable) :
    2 * entries.length ≤ maxArrayCount ∧ OrderedMap.DistinctKeys Value.eq entries ∧
      ∀ entry ∈ entries, entry.1.Codable ∧ entry.1.TimestampFree ∧ entry.2.Codable := by
  have hcap : entries.length ≤ 32768 := by simpa using (all_map.mp h.withinCaps).1
  have hkeys : ∀ entry ∈ entries, entry.1.TimestampFree := by
    intro entry hentry
    have hall := (all_map.mp h.keysTimestampFree).1
    simp only [List.all_eq_true, decide_eq_true_eq] at hall
    exact hall entry hentry
  refine ⟨by simp only [maxArrayCount]; omega, by simpa using (all_map.mp h.wellFormed).1, ?_⟩
  intro entry hentry
  have hwellFormed := (all_map.mp h.wellFormed).2 entry hentry
  have harrayFree := (all_map.mp h.arrayFree).2 entry hentry
  have hwithinCaps := (all_map.mp h.withinCaps).2 entry hentry
  have hkeysFree := (all_map.mp h.keysTimestampFree).2 entry hentry
  exact ⟨⟨hwellFormed.1, harrayFree.1, hwithinCaps.1, hkeysFree.1⟩, hkeys entry hentry,
    ⟨hwellFormed.2, harrayFree.2, hwithinCaps.2, hkeysFree.2⟩⟩

end Codable

/-- The type that the format codes of a value tell. -/
def type : Value → ValueType
  | .described .. => .described
  | .null => .null
  | .bool _ => .bool
  | .ubyte _ => .ubyte
  | .ushort _ => .ushort
  | .uint _ => .uint
  | .ulong _ => .ulong
  | .byte _ => .byte
  | .short _ => .short
  | .int _ => .int
  | .long _ => .long
  | .float _ => .float
  | .double _ => .double
  | .decimal32 _ => .decimal32
  | .decimal64 _ => .decimal64
  | .decimal128 _ => .decimal128
  | .char _ => .char
  | .timestamp _ => .timestamp
  | .uuid _ => .uuid
  | .binary _ => .binary
  | .string _ => .string
  | .symbol _ => .symbol
  | .list _ => .list
  | .map _ => .map
  | .array _ => .array

/-- The flag that serializing the value leaves behind: a timestamp does not take back its own. -/
def leaves : Value → Option NonNativeType
  | .timestamp _ => some .timestamp
  | .described _ v => v.leaves
  | _ => none

theorem leaves_of_timestampFree {v : Value} (h : v.TimestampFree) : v.leaves = none := by
  fun_induction leaves v with
  | case1 => exact absurd h (by simp [TimestampFree, all])
  | case2 _ v ih => exact ih (all_described.mp h).2
  | case3 => rfl

theorem listToSer_eq_map (vs : List Value) : listToSer vs = vs.map toSer := by
  induction vs with
  | nil => rfl
  | cons v vs ih => simp [listToSer, ih]

theorem entriesToSer_eq_map (entries : List (Value × Value)) :
    entriesToSer entries = entries.map fun entry => (entry.1.toSer, entry.2.toSer) := by
  induction entries with
  | nil => rfl
  | cons entry entries ih => simp [entriesToSer, ih]

/-- The bytes start with a code of the value's type and are decoded to the value, whatever the
enum type around it and at any depth that the bytes bound. -/
structure ReadFrom (v : Value) (bytes : Bytes) : Prop where
  starts : Starts (ValueType.ofCode · = v.type) bytes
  decodes : ∀ depth e, bytes.length ≤ depth → Decodes e (De.valueAtDepth depth) bytes v

end Value

namespace Decodes

variable {e : EnumType}

/-- The format code chooses the type of the value; it is looked at only. -/
theorem valueAtDepth {v : Value} {bytes : Bytes} (hstart : Starts (ValueType.ofCode · = v.type) bytes)
    {depth : Nat} (h : Decodes .value (De.visitValue (De.valueAtDepth depth) v.type) bytes v) :
    Decodes e (De.valueAtDepth (depth + 1)) bytes v := by
  refine ofEnum .value ?_ rfl
  intro de suffix hnative helem henum
  obtain ⟨code, rest, rfl, hcode⟩ := hstart
  have hrun := h de suffix hnative helem henum
  have htype : De.valueType (de.at (code.toU8 :: rest ++ suffix))
      = .ok v.type (de.at (code.toU8 :: rest ++ suffix)) := by
    simp [De.valueType, De.deserializeIdentifier, henum, helem, hcode]
  simp only [De.bind_run, htype, hrun]

theorem wrap {α β : Type} {d : De SliceReader α} {bytes : Bytes} {a : α} (f : α → β)
    (h : Decodes e d bytes a) : Decodes e (do return f (← d)) bytes (f a) := by
  intro de suffix hnative helem henum
  simp only [De.bind_run, h de suffix hnative helem henum, De.pure_run]

end Decodes

namespace Decodes

/-- A deserializer built over the bytes and any suffix stops in front of the suffix. -/
theorem run_new {α : Type} {d : De SliceReader α} {bytes : Bytes} {a : α}
    (h : Decodes .none d bytes a) (suffix : Bytes) :
    d (.new (.new (bytes ++ suffix)))
      = .ok a ((Deserializer.new (SliceReader.new (bytes ++ suffix))).at suffix) :=
  h (.new (.new (bytes ++ suffix))) suffix rfl rfl rfl

theorem fromSlice {α : Type} {d : De SliceReader α} {bytes : Bytes} {a : α}
    (h : Decodes .none d bytes a) : Fe2o3Amqp.fromSlice d bytes = .ok a := by
  have hrun := h.run_new []
  rw [List.append_nil] at hrun
  simp only [Fe2o3Amqp.fromSlice, hrun]

end Decodes

namespace Value

theorem ReadFrom.intro {v : Value} {bytes : Bytes}
    (hstart : Starts (ValueType.ofCode · = v.type) bytes)
    (h : ∀ depth, bytes.length ≤ depth + 1 →
      Decodes .value (De.visitValue (De.valueAtDepth depth) v.type) bytes v) :
    v.ReadFrom bytes where
  starts := hstart
  decodes depth e hdepth := by
    have hpos := List.length_pos_iff.mpr hstart.ne_nil
    obtain ⟨depth, rfl⟩ := Nat.exists_eq_add_one_of_ne_zero (n := depth) (by omega)
    exact Decodes.valueAtDepth hstart (h depth hdepth)

theorem ReadFrom.ne_nil {v : Value} {bytes : Bytes} (h : v.ReadFrom bytes) : bytes ≠ [] :=
  h.starts.ne_nil

/-- The leaves of a value: their bytes do not depend on the depth. -/
theorem ReadFrom.leaf {α : Type} {v : Value} {bytes : Bytes} {a : α} {d : De SliceReader α}
    {f : α → Value} (hstart : Starts (ValueType.ofCode · = v.type) bytes)
    (hvisit : ∀ value, De.visitValue value v.type = do return f (← d)) (hv : f a = v)
    (h : Decodes .value d bytes a) : v.ReadFrom bytes :=
  .intro hstart fun depth _ => by
    rw [hvisit, ← hv]
    exact h.wrap f

/-- The elements of a list, at a depth that bounds all of them. -/
theorem decodes_elements {e : EnumType} {vs : List Value} {pieces : List Bytes} {depth : Nat}
    (h : List.Forall₂ ReadFrom vs pieces) (hdepth : pieces.flatten.length ≤ depth) :
    List.Forall₂ (fun v piece => piece ≠ [] ∧ Decodes e (De.valueAtDepth depth) piece v) vs pieces
      := by
  induction h with
  | nil => exact .nil
  | cons hv _ ih =>
      simp only [List.flatten_cons, List.length_append] at hdepth
      exact .cons ⟨hv.ne_nil, hv.decodes depth e (by omega)⟩ (ih (by omega))

theorem decodes_entries {e : EnumType} {entries : List (Value × Value)}
    {pieces : List (Bytes × Bytes)} {depth : Nat}
    (h : List.Forall₂ (fun entry piece => entry.1.ReadFrom piece.1 ∧ entry.2.ReadFrom piece.2)
      entries pieces)
    (hdepth : (pieces.map fun piece => piece.1 ++ piece.2).flatten.length ≤ depth) :
    List.Forall₂ (fun entry piece =>
      (piece.1 ≠ [] ∧ Decodes e (De.valueAtDepth depth) piece.1 entry.1) ∧
        piece.2 ≠ [] ∧ Decodes e (De.valueAtDepth depth) piece.2 entry.2) entries pieces := by
  induction h with
  | nil => exact .nil
  | cons hentry _ ih =>
      simp only [List.map_cons, List.flatten_cons, List.length_append] at hdepth
      obtain ⟨hk, hv⟩ := hentry
      exact .cons ⟨⟨hk.ne_nil, hk.decodes depth e (by omega)⟩,
        hv.ne_nil, hv.decodes depth e (by omega)⟩ (ih (by omega))

theorem writes_list {vs : List Value} (hcap : vs.length ≤ maxArrayCount)
    (h : ∀ v ∈ vs, Writes v.toSer v.leaves v.ReadFrom) :
    Writes (Value.list vs).toSer none (Value.list vs).ReadFrom := by
  rw [toSer, listToSer_eq_map]
  refine (Writes.seq toSer ReadFrom fun v hv => (h v hv).serializes).mono ?_
  rintro bytes ⟨pieces, hpieces, hlen, rfl⟩
  refine .intro (.list rfl rfl rfl) fun depth hdepth => ?_
  have hbound := Wire.length_lt_list vs.length pieces.flatten
  exact (Decodes.vec (decodes_elements hpieces (by omega)) hcap hlen).wrap _

theorem writes_map {entries : List (Value × Value)} (hcap : 2 * entries.length ≤ maxArrayCount)
    (hkeys : OrderedMap.DistinctKeys Value.eq entries)
    (hkey : ∀ entry ∈ entries, Writes entry.1.toSer none entry.1.ReadFrom)
    (hvalue : ∀ entry ∈ entries, Writes entry.2.toSer entry.2.leaves entry.2.ReadFrom) :
    Writes (Value.map entries).toSer none (Value.map entries).ReadFrom := by
  rw [toSer, entriesToSer_eq_map]
  refine (Writes.map toSer toSer ReadFrom ReadFrom hkey fun entry hentry =>
    (hvalue entry hentry).serializes).mono ?_
  rintro bytes ⟨pieces, hpieces, hlen, rfl⟩
  refine .intro (.compound rfl rfl) fun depth hdepth => ?_
  have hbound := Wire.length_lt_compound .map8 .map32 (2 * entries.length)
    (pieces.map fun piece => piece.1 ++ piece.2).flatten
  simp only [Wire.map] at hdepth
  exact (Decodes.map (decodes_entries hpieces (by omega)) hkeys hcap hlen).wrap _

theorem writes_described {descriptor : Descriptor} {v : Value}
    (h : Writes v.toSer v.leaves v.ReadFrom) :
    Writes (Value.described descriptor v).toSer v.leaves (Value.described descriptor v).ReadFrom
      := by
  rw [toSer]
  refine (Writes.described descriptor h).mono ?_
  rintro bytes ⟨hlen, value, hvalue, rfl⟩
  have hstart : Starts (ValueType.ofCode · = .described) (Wire.descriptor descriptor) :=
    .descriptor rfl
  have hpos := List.length_pos_iff.mpr hstart.ne_nil
  refine .intro (hstart.append value) fun depth hdepth => ?_
  rw [List.length_append] at hdepth
  have hdecodes := hvalue.decodes depth .value (by omega)
  exact (Decodes.described hlen hdecodes (hvalue.starts.mono fun _ _ => trivial)).wrap
    fun pair => Value.described pair.1 pair.2

/-- A leaf that always writes the same bytes. -/
theorem writes_exactly {v : Value} {t : Ser} {leaves : Option NonNativeType} {bytes : Bytes}
    (hwrites : Writes t leaves (· = bytes)) (hread : v.ReadFrom bytes) :
    Writes t leaves v.ReadFrom :=
  hwrites.mono fun _ hbytes => hbytes ▸ hread

theorem writes_leaf {v : Value} (hdescribed : ∀ descriptor v', v ≠ .described descriptor v')
    (hlist : ∀ vs, v ≠ .list vs) (hmap : ∀ entries, v ≠ .map entries)
    (harray : ∀ vs, v ≠ .array vs) : Writes v.toSer v.leaves v.ReadFrom := by
  cases v with
  | described descriptor v => exact absurd rfl (hdescribed descriptor v)
  | list vs => exact absurd rfl (hlist vs)
  | map entries => exact absurd rfl (hmap entries)
  | array vs => exact absurd rfl (harray vs)
  | null =>
      refine writes_exactly Writes.unit (.intro (.code rfl) fun _ _ => ?_)
      exact Decodes.parseUnit.wrap fun _ => Value.null
  | bool v => exact writes_exactly (.bool v) (.leaf (.bool rfl rfl) (fun _ => rfl) rfl (.parseBool v))
  | ubyte v => exact writes_exactly (.u8 v) (.leaf (.code rfl) (fun _ => rfl) rfl (.parseU8 v))
  | ushort v => exact writes_exactly (.u16 v) (.leaf (.code rfl) (fun _ => rfl) rfl (.parseU16 v))
  | uint v =>
      exact writes_exactly (.u32 v) (.leaf (.u32 rfl rfl rfl) (fun _ => rfl) rfl (.parseU32 v))
  | ulong v =>
      exact writes_exactly (.u64 v) (.leaf (.u64 rfl rfl rfl) (fun _ => rfl) rfl (.parseU64 v))
  | byte v => exact writes_exactly (.i8 v) (.leaf (.code rfl) (fun _ => rfl) rfl (.parseI8 v))
  | short v => exact writes_exactly (.i16 v) (.leaf (.code rfl) (fun _ => rfl) rfl (.parseI16 v))
  | int v => exact writes_exactly (.i32 v) (.leaf (.i32 rfl rfl) (fun _ => rfl) rfl (.parseI32 v))
  | long v =>
      exact writes_exactly (.i64 v) (.leaf (.i64 rfl rfl) (fun _ => rfl) rfl (.deserializeI64 v))
  | float bits =>
      exact writes_exactly (.f32 bits) (.leaf (.code rfl) (fun _ => rfl) rfl (.parseF32 bits))
  | double bits =>
      exact writes_exactly (.f64 bits) (.leaf (.code rfl) (fun _ => rfl) rfl (.parseF64 bits))
  | decimal32 bytes =>
      exact writes_exactly (.decimal32 bytes.toList)
        (.leaf (.code rfl) (fun _ => rfl) rfl (.decimal32 bytes))
  | decimal64 bytes =>
      exact writes_exactly (.decimal64 bytes.toList)
        (.leaf (.code rfl) (fun _ => rfl) rfl (.decimal64 bytes))
  | decimal128 bytes =>
      exact writes_exactly (.decimal128 bytes.toList)
        (.leaf (.code rfl) (fun _ => rfl) rfl (.decimal128 bytes))
  | char v => exact writes_exactly (.char v) (.leaf (.code rfl) (fun _ => rfl) rfl (.parseChar v))
  | timestamp milliseconds =>
      exact writes_exactly (.timestamp milliseconds)
        (.leaf (.code rfl) (fun _ => rfl) rfl (.timestamp milliseconds))
  | uuid bytes =>
      exact writes_exactly (.uuid bytes.toList)
        (.leaf (.code rfl) (fun _ => rfl) rfl (.uuid bytes))
  | binary v =>
      refine (Writes.bytes v).mono ?_
      rintro _ ⟨hlen, rfl⟩
      exact .leaf (.sized rfl rfl) (fun _ => rfl) rfl (.deserializeByteBuf hlen)
  | string v =>
      refine (Writes.str v).mono ?_
      rintro _ ⟨hlen, rfl⟩
      exact .leaf (.sized rfl rfl) (fun _ => rfl) rfl (.deserializeString hlen)
  | symbol v =>
      refine (Writes.symbol v).mono ?_
      rintro _ ⟨hlen, rfl⟩
      exact .leaf (.sized rfl rfl) (fun _ => rfl) rfl (.symbol hlen)

/-- Whatever a value writes is read back as the value. -/
theorem writes {v : Value} (h : v.Codable) : Writes v.toSer v.leaves v.ReadFrom := by
  induction v using Value.induction with
  | described descriptor v ih => exact writes_described (ih h.described)
  | list vs ih =>
      obtain ⟨hcap, hvs⟩ := h.list
      exact writes_list hcap fun v hv => ih v hv (hvs v hv)
  | map entries ih =>
      obtain ⟨hcap, hkeys, hentries⟩ := h.map
      refine writes_map hcap hkeys (fun entry hentry => ?_) fun entry hentry => ?_
      · obtain ⟨hk, hfree, -⟩ := hentries entry hentry
        have hwrites := (ih entry hentry).1 hk
        rwa [leaves_of_timestampFree hfree] at hwrites
      · exact (ih entry hentry).2 (hentries entry hentry).2.2
  | array vs _ => exact absurd h.arrayFree (by simp [ArrayFree])
  | leaf v hdescribed hlist hmap harray => exact writes_leaf hdescribed hlist hmap harray

theorem ReadFrom.value {v : Value} {bytes : Bytes} (h : v.ReadFrom bytes) (e : EnumType) :
    Decodes e De.value bytes v := by
  intro de suffix hnative helem henum
  have hdepth : bytes.length ≤ (bytes ++ suffix).length + 1 := by
    rw [List.length_append]
    omega
  simp only [De.value, De.bind_run, De.get_run, Deserializer.at_remaining]
  exact h.decodes _ e hdepth de suffix hnative helem henum

/-- A value without arrays is decoded from its own encoding, and what follows the encoding is left
where it is. -/
theorem fromSlice_toVec {v : Value} (hwellFormed : v.WellFormed) (harray : v.ArrayFree)
    (hcaps : v.WithinCaps) (hkeys : v.KeysTimestampFree) {bytes : Bytes}
    (h : toVec v.toSer = .ok bytes) :
    fromSlice De.value bytes = .ok v ∧
      ∀ suffix, De.value (.new (.new (bytes ++ suffix)))
        = .ok v ((Deserializer.new (SliceReader.new (bytes ++ suffix))).at suffix) := by
  have hread := ((writes ⟨hwellFormed, harray, hcaps, hkeys⟩).serializes.toVec h).value .none
  exact ⟨hread.fromSlice, hread.run_new⟩

/-- A described map with a symbol key, a timestamp among its values and a nested list. -/
def sample : Value :=
  .described (.code 0x70) (.map [(.symbol ⟨"sent"⟩, .timestamp 1), (.uint 300, .list [.null])])

theorem sample_fromSlice_toVec :
    ∃ bytes, toVec sample.toSer = .ok bytes ∧ fromSlice De.value bytes = .ok sample := by
  obtain ⟨bytes, hbytes⟩ : ∃ bytes, toVec sample.toSer = .ok bytes := ⟨_, rfl⟩
  exact ⟨bytes, hbytes,
    (fromSlice_toVec (by decide) (by decide) (by decide) (by decide) hbytes).1⟩

end Value

end Fe2o3Amqp
