import Fe2o3Amqp.Serde.ValueSer
import Fe2o3Amqp.Util.Except

/-!
# The deserializer out of a `Value`

A `Value` is deserialized again by the visitor that reads it from the wire.  There the visitor is
given a variant; here it is given the contents alone.
-/

namespace Fe2o3Amqp

/-- `Value::format_code`. -/
def Value.formatCode : Value → UInt8
  | .described _ _ => EncodingCodes.describedType.toU8
  | .null => EncodingCodes.null.toU8
  | .bool _ => EncodingCodes.boolean.toU8
  | .ubyte _ => EncodingCodes.ubyte.toU8
  | .ushort _ => EncodingCodes.ushort.toU8
  | .uint _ => EncodingCodes.uint.toU8
  | .ulong _ => EncodingCodes.ulong.toU8
  | .byte _ => EncodingCodes.byte.toU8
  | .short _ => EncodingCodes.short.toU8
  | .int _ => EncodingCodes.int.toU8
  | .long _ => EncodingCodes.long.toU8
  | .float _ => EncodingCodes.float.toU8
  | .double _ => EncodingCodes.double.toU8
  | .decimal32 _ => EncodingCodes.decimal32.toU8
  | .decimal64 _ => EncodingCodes.decimal64.toU8
  | .decimal128 _ => EncodingCodes.decimal128.toU8
  | .char _ => EncodingCodes.char.toU8
  | .timestamp _ => EncodingCodes.timestamp.toU8
  | .uuid _ => EncodingCodes.uuid.toU8
  | .binary _ => EncodingCodes.vbin32.toU8
  | .string _ => EncodingCodes.str32.toU8
  | .symbol _ => EncodingCodes.sym32.toU8
  | .list _ => EncodingCodes.list32.toU8
  | .map _ => EncodingCodes.map32.toU8
  | .array _ => EncodingCodes.array32.toU8

/-- `value::Deserializer`. -/
structure ValueDeserializer where
  nonNativeType : Option NonNativeType
  seqType : Option SequenceType
  value : Value

/-- What the deserializer hands to the visitor. -/
inductive Visit where
  | bool (v : Bool)
  | i8 (v : Int8)
  | i16 (v : Int16)
  | i32 (v : Int32)
  | i64 (v : Int64)
  | u8 (v : UInt8)
  | u16 (v : UInt16)
  | u32 (v : UInt32)
  | u64 (v : UInt64)
  | f32 (bits : UInt32)
  | f64 (bits : UInt64)
  | char (v : Char)
  | string (v : String)
  | bytes (v : Bytes)
  | byteBuf (v : Bytes)
  | unit
  | newtypeStruct (de : ValueDeserializer)
  | seq (elements : List Value) (seqType : SequenceType)
  | map (entries : OrderedMap Value Value)

namespace ValueDeserializer

def new (value : Value) : ValueDeserializer where
  nonNativeType := none
  seqType := none
  value := value

/-- The deserializer of an element of an array. -/
def array (value : Value) : ValueDeserializer := { new value with seqType := some .array }

/-- The methods that take one kind of value and refuse every other. -/
def only (de : ValueDeserializer) (visit : Value → Option Visit) : Except Failure Visit :=
  match visit de.value with
  | some v => .ok v
  | none => .error (.err .invalidValue)

def deserializeBool (de : ValueDeserializer) : Except Failure Visit :=
  de.only fun | .bool v => some (.bool v) | _ => none

def deserializeI8 (de : ValueDeserializer) : Except Failure Visit :=
  de.only fun | .byte v => some (.i8 v) | _ => none

def deserializeI16 (de : ValueDeserializer) : Except Failure Visit :=
  de.only fun | .short v => some (.i16 v) | _ => none

def deserializeI32 (de : ValueDeserializer) : Except Failure Visit :=
  de.only fun | .int v => some (.i32 v) | _ => none

def deserializeI64 (de : ValueDeserializer) : Except Failure Visit :=
  match de.nonNativeType with
  | none => de.only fun | .long v => some (.i64 v) | _ => none
  | some .timestamp => de.only fun | .timestamp v => some (.i64 v) | _ => none
  | _ => .error (.err .invalidValue)

def deserializeU8 (de : ValueDeserializer) : Except Failure Visit :=
  de.only fun | .ubyte v => some (.u8 v) | _ => none

def deserializeU16 (de : ValueDeserializer) : Except Failure Visit :=
  de.only fun | .ushort v => some (.u16 v) | _ => none

def deserializeU32 (de : ValueDeserializer) : Except Failure Visit :=
  de.only fun | .uint v => some (.u32 v) | _ => none

def deserializeU64 (de : ValueDeserializer) : Except Failure Visit :=
  de.only fun | .ulong v => some (.u64 v) | _ => none

def deserializeF32 (de : ValueDeserializer) : Except Failure Visit :=
  de.only fun | .float bits => some (.f32 bits) | _ => none

def deserializeF64 (de : ValueDeserializer) : Except Failure Visit :=
  de.only fun | .double bits => some (.f64 bits) | _ => none

def deserializeChar (de : ValueDeserializer) : Except Failure Visit :=
  de.only fun | .char v => some (.char v) | _ => none

/-- A symbol is visited as the string that it wraps. -/
def deserializeString (de : ValueDeserializer) : Except Failure Visit :=
  match de.nonNativeType with
  | none => de.only fun | .string v => some (.string v) | _ => none
  | some .symbol => de.only fun | .symbol v => some (.string v.value) | _ => none
  | _ => .error (.err .invalidValue)

def deserializeByteBuf (de : ValueDeserializer) : Except Failure Visit :=
  match de.nonNativeType with
  | none => de.only fun | .binary v => some (.byteBuf v) | _ => none
  | _ => .error (.err .invalidValue)

def deserializeBytes (de : ValueDeserializer) : Except Failure Visit :=
  match de.nonNativeType with
  | some .dec32 => de.only fun | .decimal32 v => some (.bytes v.toList) | _ => none
  | some .dec64 => de.only fun | .decimal64 v => some (.bytes v.toList) | _ => none
  | some .dec128 => de.only fun | .decimal128 v => some (.bytes v.toList) | _ => none
  | some .uuid => de.only fun | .uuid v => some (.bytes v.toList) | _ => none
  | some .lazyValue => do return .byteBuf (← toVec de.value.toSer)
  | _ => de.deserializeByteBuf

def deserializeUnit (de : ValueDeserializer) : Except Failure Visit :=
  de.only fun | .null => some .unit | _ => none

def deserializeSeq (de : ValueDeserializer) : Except Failure Visit :=
  match de.seqType with
  | none | some .list => de.only fun | .list vs => some (.seq vs .list) | _ => none
  | some .array => de.only fun | .array vs => some (.seq vs .array) | _ => none
  | some .transparentVec => .error (.err .invalidValue)

def deserializeMap (de : ValueDeserializer) : Except Failure Visit :=
  de.only fun | .map entries => some (.map entries) | _ => none

/-- `deserialize_struct`; the name is not looked at. -/
def deserializeStruct (de : ValueDeserializer) : Except Failure Visit := de.deserializeSeq

def deserializeNewtypeStruct (de : ValueDeserializer) : TypeName → Except Failure Visit
  | .symbol => deserializeString { de with nonNativeType := some .symbol }
  | .decimal32 => deserializeBytes { de with nonNativeType := some .dec32 }
  | .decimal64 => deserializeBytes { de with nonNativeType := some .dec64 }
  | .decimal128 => deserializeBytes { de with nonNativeType := some .dec128 }
  | .uuid => deserializeBytes { de with nonNativeType := some .uuid }
  | .timestamp => deserializeI64 { de with nonNativeType := some .timestamp }
  | .array => deserializeSeq { de with seqType := some .array }
  | .lazyValue => deserializeBytes { de with nonNativeType := some .lazyValue }
  | _ => .ok (.newtypeStruct de)

def deserializeAny (de : ValueDeserializer) : Except Failure Visit :=
  match de.value with
  | .described _ _ => de.deserializeStruct
  | .null => de.deserializeUnit
  | .bool _ => de.deserializeBool
  | .ubyte _ => de.deserializeU8
  | .ushort _ => de.deserializeU16
  | .uint _ => de.deserializeU32
  | .ulong _ => de.deserializeU64
  | .byte _ => de.deserializeI8
  | .short _ => de.deserializeI16
  | .int _ => de.deserializeI32
  | .long _ => de.deserializeI64
  | .float _ => de.deserializeF32
  | .double _ => de.deserializeF64
  | .decimal32 _ => de.deserializeNewtypeStruct .decimal32
  | .decimal64 _ => de.deserializeNewtypeStruct .decimal64
  | .decimal128 _ => de.deserializeNewtypeStruct .decimal128
  | .char _ => de.deserializeChar
  | .timestamp _ => de.deserializeNewtypeStruct .timestamp
  | .uuid _ => de.deserializeNewtypeStruct .uuid
  | .binary _ => de.deserializeByteBuf
  | .string _ => de.deserializeString
  | .symbol _ => de.deserializeNewtypeStruct .symbol
  | .list _ => de.deserializeSeq
  | .map _ => de.deserializeMap
  | .array _ => de.deserializeNewtypeStruct .array

end ValueDeserializer

/-! ## The visitor -/

namespace ValueVisitor

/-- `SeqAccess::next_element_seed`. -/
def elementDeserializer (seqType : SequenceType) (element : Value) : ValueDeserializer :=
  match seqType with
  | .array => .array element
  | _ => .new element

/-- Whether all values have the format code of the first. -/
def allTheSameType : List Value → Bool
  | [] => false
  | first :: rest => rest.all fun v => v.formatCode == first.formatCode

/-- `visit_seq`, which the visitor has with the `json` feature only: the elements make an array if
their types are the same. -/
def visitSeq (json : Bool) (value : ValueDeserializer → Except Failure Value)
    (elements : List Value) (seqType : SequenceType) : Except Failure Value :=
  if json then
    match elements with
    | [] => .ok (.list [])
    | first :: rest => do
        match ← value (elementDeserializer seqType first) with
        | .described descriptor v => return .described descriptor v
        | first => do
            let rest ← rest.mapM fun v => value (elementDeserializer seqType v)
            if allTheSameType (first :: rest) then return .array (first :: rest)
            else return .list (first :: rest)
  else .error (.err (.message "invalid type: sequence, expected enum Value"))

/-- `visit_map`. -/
def visitMap (value : ValueDeserializer → Except Failure Value) (m : OrderedMap Value Value) :
    List (Value × Value) → Except Failure (OrderedMap Value Value)
  | [] => .ok m
  | (key, v) :: entries => do
      let key ← value (.new key)
      let v ← value (.new v)
      visitMap value (m.insert Value.eq key v) entries

/-- `ValueVisitor`; `json` is the feature and `value` deserializes the values inside. -/
def visit (json : Bool) (value : ValueDeserializer → Except Failure Value) :
    Visit → Except Failure Value
  | .bool v => .ok (.bool v)
  | .i8 v => .ok (.byte v)
  | .i16 v => .ok (.short v)
  | .i32 v => .ok (.int v)
  | .i64 v => .ok (.long v)
  | .u8 v => .ok (.ubyte v)
  | .u16 v => .ok (.ushort v)
  | .u32 v => .ok (.uint v)
  | .u64 v => .ok (.ulong v)
  | .f32 bits => .ok (.float bits)
  | .f64 bits => .ok (.double bits)
  | .char v => .ok (.char v)
  | .string v => .ok (.string v)
  | .bytes v | .byteBuf v => .ok (.binary v)
  | .unit => .ok .null
  | .newtypeStruct de => value de
  | .seq elements seqType => visitSeq json value elements seqType
  | .map entries => do return .map (← visitMap value [] entries)

end ValueVisitor

/-- `Value` out of a deserializer, with the recursion bounded by `depth`.  `deserialize_enum` asks
for anything at the name of `Value`. -/
def ValueDeserializer.valueAtDepth (json : Bool) : Nat → ValueDeserializer → Except Failure Value
  | 0, _ => .error .stack
  | depth + 1, de => do
      ValueVisitor.visit json (valueAtDepth json depth) (← de.deserializeAny)

mutual

/-- How deep the values in a value are nested. -/
def Value.depth : Value → Nat
  | .described _ v => v.depth + 1
  | .list vs | .array vs => Value.elementsDepth vs + 1
  | .map entries => Value.entriesDepth entries + 1
  | _ => 1

def Value.elementsDepth : List Value → Nat
  | [] => 0
  | v :: vs => max v.depth (Value.elementsDepth vs)

def Value.entriesDepth : List (Value × Value) → Nat
  | [] => 0
  | (k, v) :: entries => max (max k.depth v.depth) (Value.entriesDepth entries)

end

/-- `from_value` at the type `Value`. -/
def fromValue (json : Bool) (value : Value) : Except Failure Value :=
  ValueDeserializer.valueAtDepth json value.depth (.new value)

/-! ## Values that come back as themselves -/

namespace Value

open ValueVisitor (allTheSameType)

mutual

/-- Whether the visitor is given enough to tell the type of the value, and of all values inside;
`element` is whether the value stands in an array. -/
def TypeVisited (json element : Bool) : Value → Bool
  | .described _ _ | .decimal32 _ | .decimal64 _ | .decimal128 _ | .timestamp _ | .uuid _
  | .symbol _ => false
  | .list vs => json && !element && !allTheSameType vs && elementsTypeVisited json false vs
  | .map entries => entriesTypeVisited json entries
  | .array vs => json && allTheSameType vs && elementsTypeVisited json true vs
  | _ => true

def elementsTypeVisited (json element : Bool) : List Value → Bool
  | [] => true
  | v :: vs => TypeVisited json element v && elementsTypeVisited json element vs

def entriesTypeVisited (json : Bool) : List (Value × Value) → Bool
  | [] => true
  | (k, v) :: entries =>
      TypeVisited json false k && TypeVisited json false v && entriesTypeVisited json entries

end

variable {json element : Bool}

theorem elementsTypeVisited_iff {vs : List Value} :
    elementsTypeVisited json element vs ↔ ∀ v ∈ vs, TypeVisited json element v := by
  induction vs with
  | nil => simp [elementsTypeVisited]
  | cons v vs ih => simp [elementsTypeVisited, ih]

theorem entriesTypeVisited_iff {entries : List (Value × Value)} :
    entriesTypeVisited json entries ↔
      ∀ entry ∈ entries, TypeVisited json false entry.1 ∧ TypeVisited json false entry.2 := by
  induction entries with
  | nil => simp [entriesTypeVisited]
  | cons entry entries ih => simp [entriesTypeVisited, ih, and_assoc]

theorem depth_le_elementsDepth {vs : List Value} {v : Value} (h : v ∈ vs) :
    v.depth ≤ elementsDepth vs := by
  induction vs with
  | nil => cases h
  | cons first rest ih =>
      simp only [elementsDepth]
      obtain rfl | h := List.mem_cons.mp h
      · omega
      · have hrest := ih h
        omega

theorem depth_le_entriesDepth {entries : List (Value × Value)} {entry : Value × Value}
    (h : entry ∈ entries) :
    entry.1.depth ≤ entriesDepth entries ∧ entry.2.depth ≤ entriesDepth entries := by
  induction entries with
  | nil => cases h
  | cons first rest ih =>
      simp only [entriesDepth]
      obtain rfl | h := List.mem_cons.mp h
      · omega
      · have hrest := ih h
        omega

end Value

namespace ValueVisitor

variable {value : ValueDeserializer → Except Failure Value}

/-- The elements are deserialized to themselves together exactly when each of them is. -/
theorem mapM_eq_self_iff {A : Type} {f : A → Except Failure A} {as : List A} :
    as.mapM f = .ok as ↔ ∀ a ∈ as, f a = .ok a := by
  induction as with
  | nil => simp [Pure.pure, Except.pure]
  | cons a as ih =>
      rw [List.mapM_cons, List.forall_mem_cons, ← ih]
      cases hfirst : f a with
      | error failure => simp [Bind.bind, Except.bind]
      | ok a' =>
          cases hrest : as.mapM f with
          | error failure => simp [Bind.bind, Except.bind]
          | ok as' => simp [Bind.bind, Except.bind, Pure.pure, Except.pure]

theorem length_of_mapM {A : Type} {f : A → Except Failure A} {as as' : List A}
    (h : as.mapM f = .ok as') : as'.length = as.length := by
  induction as generalizing as' with
  | nil =>
      cases h
      rfl
  | cons a as ih =>
      rw [List.mapM_cons] at h
      obtain ⟨first, -, h⟩ := Except.bind_eq_ok.mp h
      obtain ⟨rest, hrest, h⟩ := Except.bind_eq_ok.mp h
      cases h
      rw [List.length_cons, List.length_cons, ih hrest]

theorem visitSeq_cons {first : Value} {rest : List Value} {seqType : SequenceType} {v : Value}
    (h : visitSeq true value (first :: rest) seqType = .ok v) :
    (∃ descriptor inner, v = .described descriptor inner) ∨
      ∃ vs, (first :: rest).mapM (fun v => value (elementDeserializer seqType v)) = .ok vs ∧
        v = if allTheSameType vs then .array vs else .list vs := by
  simp only [visitSeq, if_true] at h
  obtain ⟨first', hfirst, h⟩ := Except.bind_eq_ok.mp h
  split at h
  · cases h
    exact .inl ⟨_, _, rfl⟩
  · obtain ⟨rest', hrest, h⟩ := Except.bind_eq_ok.mp h
    right
    refine ⟨first' :: rest', ?_, ?_⟩
    · rw [List.mapM_cons, hfirst]
      simp [hrest, Bind.bind, Except.bind, Pure.pure, Except.pure]
    · split_ifs at h ⊢ <;> cases h <;> rfl

/-- The elements come back as they are: those of one type as an array, any others as a list. -/
theorem visitSeq_of_forall {vs : List Value} {seqType : SequenceType}
    (h : ∀ v ∈ vs, value (elementDeserializer seqType v) = .ok v)
    (hplain : ∀ v ∈ vs, ∀ descriptor inner, v ≠ .described descriptor inner) :
    visitSeq true value vs seqType = .ok (if allTheSameType vs then .array vs else .list vs) := by
  cases vs with
  | nil => rfl
  | cons first rest =>
      have hfirst := h first (List.mem_cons_self ..)
      have hrest : rest.mapM (fun v => value (elementDeserializer seqType v)) = .ok rest :=
        mapM_eq_self_iff.mpr fun v hv => h v (List.mem_cons_of_mem _ hv)
      simp only [visitSeq, if_true, hfirst, Bind.bind, Except.bind]
      split
      · exact absurd rfl (hplain _ (List.mem_cons_self ..) _ _)
      · simp only [hrest]
        split_ifs <;> rfl

theorem visitMap_eq (m : OrderedMap Value Value) (entries : List (Value × Value)) :
    visitMap value m entries = (do
      let entries ← entries.mapM fun entry => do
        let key ← value (.new entry.1)
        let v ← value (.new entry.2)
        pure (key, v)
      .ok (OrderedMap.insertAll Value.eq m entries)) := by
  induction entries generalizing m with
  | nil => rfl
  | cons entry entries ih =>
      obtain ⟨k, v⟩ := entry
      simp only [visitMap, List.mapM_cons, ih, bind_assoc, pure_bind]
      rfl

/-- The entries of a map with distinct keys come back as they are exactly when each of them does. -/
theorem visitMap_eq_self_iff (value : ValueDeserializer → Except Failure Value)
    {entries : List (Value × Value)} (hkeys : OrderedMap.DistinctKeys Value.eq entries) :
    visitMap value [] entries = .ok entries ↔ ∀ entry ∈ entries,
      value (.new entry.1) = .ok entry.1 ∧ value (.new entry.2) = .ok entry.2 := by
  have hentry (entry : Value × Value) : (do
      let key ← value (.new entry.1)
      let v ← value (.new entry.2)
      pure (key, v)) = Except.ok entry ↔
        value (.new entry.1) = .ok entry.1 ∧ value (.new entry.2) = .ok entry.2 := by
    obtain ⟨k, v⟩ := entry
    cases value (.new k) <;> cases value (.new v) <;>
      simp [Bind.bind, Except.bind, Pure.pure, Except.pure]
  rw [visitMap_eq]
  constructor
  · intro h
    obtain ⟨entries', hmapM, h⟩ := Except.bind_eq_ok.mp h
    cases (OrderedMap.insertAll_eq_iff hkeys (length_of_mapM hmapM)).mp (Except.ok.inj h)
    intro entry hmem
    exact (hentry entry).mp (mapM_eq_self_iff.mp hmapM entry hmem)
  · intro h
    rw [mapM_eq_self_iff.mpr fun entry hmem => (hentry entry).mpr (h entry hmem)]
    exact congrArg Except.ok ((OrderedMap.insertAll_eq_iff hkeys rfl).mpr rfl)

end ValueVisitor

namespace Value

open ValueVisitor

variable {json element : Bool}

/-- The deserializer of a value, or of an element of an array. -/
def deserializer (element : Bool) (v : Value) : ValueDeserializer :=
  if element then .array v else .new v

theorem not_described_of_typeVisited {v : Value} (h : TypeVisited json element v)
    (descriptor : Descriptor) (inner : Value) : v ≠ .described descriptor inner := by
  rintro rfl
  simp [TypeVisited] at h

theorem deserializeAny_described (descriptor : Descriptor) (v : Value) :
    (deserializer element (.described descriptor v)).deserializeAny = .error (.err .invalidValue) := by
  cases element <;> rfl

theorem deserializeAny_list (vs : List Value) :
    (deserializer element (.list vs)).deserializeAny =
      if element then .error (.err .invalidValue) else .ok (.seq vs .list) := by
  cases element <;> rfl

theorem deserializeAny_map (entries : List (Value × Value)) :
    (deserializer element (.map entries)).deserializeAny = .ok (.map entries) := by
  cases element <;> rfl

theorem deserializeAny_array (vs : List Value) :
    (deserializer element (.array vs)).deserializeAny = .ok (.seq vs .array) := by
  cases element <;> rfl

theorem valueAtDepth_succ (depth : Nat) (de : ValueDeserializer) :
    ValueDeserializer.valueAtDepth json (depth + 1) de =
      de.deserializeAny >>= visit json (ValueDeserializer.valueAtDepth json depth) := rfl

/-- The elements of a sequence come back together exactly when each of them does. -/
theorem visitSeq_eq_self_iff {value : ValueDeserializer → Except Failure Value} {vs : List Value}
    (h : ∀ v ∈ vs, value (deserializer element v) = .ok v ↔ TypeVisited json element v)
    {seqType : SequenceType} (hseq : elementDeserializer seqType = deserializer element) (v : Value)
    (hv : v = if allTheSameType vs then .array vs else .list vs) :
    visitSeq json value vs seqType = .ok v ↔ json ∧ elementsTypeVisited json element vs := by
  cases json with
  | false => simp [visitSeq]
  | true =>
      rw [elementsTypeVisited_iff, and_iff_right rfl]
      constructor
      · intro hvisit
        cases vs with
        | nil => simp
        | cons first rest =>
            obtain ⟨descriptor, inner, hdescribed⟩ | ⟨vs', hmapM, hv'⟩ := visitSeq_cons hvisit
            · rw [hv] at hdescribed
              split_ifs at hdescribed
            · have hsame : vs' = first :: rest := by
                rw [hv] at hv'
                split_ifs at hv' <;> cases hv' <;> rfl
              rw [hsame, hseq] at hmapM
              intro v hmem
              exact (h v hmem).mp (mapM_eq_self_iff.mp hmapM v hmem)
      · intro hall
        rw [hv]
        apply visitSeq_of_forall
        · intro v hmem
          rw [hseq]
          exact (h v hmem).mpr (hall v hmem)
        · intro v hmem
          exact not_described_of_typeVisited (hall v hmem)

theorem visit_map_iff (json : Bool) {value : ValueDeserializer → Except Failure Value}
    {entries entries' : List (Value × Value)} :
    visit json value (.map entries) = .ok (.map entries') ↔
      visitMap value [] entries = .ok entries' := by
  simp only [visit]
  cases visitMap value [] entries <;> simp [Bind.bind, Except.bind, Pure.pure, Except.pure]

/-- What comes back of a sequence is an array or a list, as the types of the elements tell. -/
theorem visitSeq_kind {value : ValueDeserializer → Except Failure Value} {vs vs' : List Value}
    {seqType : SequenceType} {v : Value} (h : visitSeq json value vs seqType = .ok v) :
    (v = .array vs' → allTheSameType vs') ∧ (v = .list vs' → ¬allTheSameType vs') := by
  cases json with
  | false => cases h
  | true =>
      cases vs with
      | nil =>
          cases h
          exact ⟨fun h => absurd h (by simp), fun h => by cases h; simp [allTheSameType]⟩
      | cons first rest =>
          obtain ⟨descriptor, inner, rfl⟩ | ⟨vs'', -, rfl⟩ := visitSeq_cons h
          · exact ⟨fun h => absurd h (by simp), fun h => absurd h (by simp)⟩
          · constructor
            · intro h
              split_ifs at h with hsame
              cases h
              exact hsame
            · intro h
              split_ifs at h with hsame
              cases h
              exact hsame

/-- At any depth that is enough, the visitor takes a value to itself exactly when it is told all
types. -/
theorem valueAtDepth_eq_self_iff {v : Value} (hwf : v.WellFormed) :
    ∀ element depth, v.depth ≤ depth →
      (ValueDeserializer.valueAtDepth json depth (deserializer element v) = .ok v ↔
        TypeVisited json element v) := by
  induction v using Value.induction with
  | described descriptor v ih =>
      intro element depth hdepth
      cases depth with
      | zero => simp [Value.depth] at hdepth
      | succ depth =>
          rw [valueAtDepth_succ, deserializeAny_described]
          simp [TypeVisited, Bind.bind, Except.bind]
  | list vs ih =>
      intro element depth hdepth
      cases depth with
      | zero => simp [Value.depth] at hdepth
      | succ depth =>
          have hvs (v) (hmem : v ∈ vs) := ih v hmem ((all_list.mp hwf).2 v hmem) false depth (by
            have := depth_le_elementsDepth hmem
            simp only [Value.depth] at hdepth
            omega)
          rw [valueAtDepth_succ, deserializeAny_list]
          cases element with
          | true => simp [TypeVisited, Bind.bind, Except.bind]
          | false =>
              have hvisit : visitSeq json (ValueDeserializer.valueAtDepth json depth) vs .list =
                  .ok (.list vs) ↔ TypeVisited json false (.list vs) := by
                simp only [TypeVisited, Bool.and_eq_true, Bool.not_eq_true', Bool.not_false]
                by_cases hsame : allTheSameType vs
                · exact ⟨fun h => absurd hsame ((visitSeq_kind h).2 rfl), by simp [hsame]⟩
                · rw [visitSeq_eq_self_iff hvs rfl (.list vs) (by simp [hsame])]
                  simp [hsame]
              exact hvisit
  | map entries ih =>
      intro element depth hdepth
      cases depth with
      | zero => simp [Value.depth] at hdepth
      | succ depth =>
          obtain ⟨hkeys, hentries⟩ := all_map.mp hwf
          have hvisited := visitMap_eq_self_iff (ValueDeserializer.valueAtDepth json depth)
            (by simpa using hkeys)
          have hself (entry) (hmem : entry ∈ entries) := by
            have hdepths := depth_le_entriesDepth hmem
            simp only [Value.depth] at hdepth
            exact and_congr
              ((ih entry hmem).1 (hentries entry hmem).1 false depth (by omega))
              ((ih entry hmem).2 (hentries entry hmem).2 false depth (by omega))
          rw [valueAtDepth_succ, deserializeAny_map, TypeVisited, entriesTypeVisited_iff,
            ← forall₂_congr hself]
          exact (visit_map_iff json).trans hvisited
  | array vs ih =>
      intro element depth hdepth
      cases depth with
      | zero => simp [Value.depth] at hdepth
      | succ depth =>
          have hvs (v) (hmem : v ∈ vs) := ih v hmem ((all_array.mp hwf).2 v hmem) true depth (by
            have := depth_le_elementsDepth hmem
            simp only [Value.depth] at hdepth
            omega)
          have hvisit : visitSeq json (ValueDeserializer.valueAtDepth json depth) vs .array =
              .ok (.array vs) ↔ TypeVisited json element (.array vs) := by
            simp only [TypeVisited, Bool.and_eq_true]
            by_cases hsame : allTheSameType vs
            · rw [visitSeq_eq_self_iff hvs rfl (.array vs) (by simp [hsame])]
              simp [hsame]
            · exact ⟨fun h => absurd ((visitSeq_kind h).1 rfl) hsame, by simp [hsame]⟩
          rw [valueAtDepth_succ, deserializeAny_array]
          exact hvisit
  | leaf v hdescribed hlist hmap harray =>
      intro element depth hdepth
      cases depth with
      | zero => cases v <;> simp [Value.depth] at hdepth
      | succ depth =>
          rw [valueAtDepth_succ]
          cases v with
          | described | list | map | array => simp_all
          -- the wrapped bytes, numbers and strings are visited without their wrapper
          | decimal32 | decimal64 | decimal128 | timestamp | uuid | symbol =>
              refine iff_of_false ?_ (by simp [TypeVisited])
              cases element <;> intro h <;> cases h
          | _ =>
              refine iff_of_true ?_ rfl
              cases element <;> rfl

theorem fromValue_eq_self_iff {v : Value} (hwf : v.WellFormed) :
    fromValue json v = .ok v ↔ TypeVisited json false v :=
  valueAtDepth_eq_self_iff hwf false v.depth (Nat.le_refl _)

/-- The value is taken to itself in both directions. -/
def CodecAgrees (json : Bool) (v : Value) : Prop :=
  toValue v.toSer = .ok v ∧ fromValue json v = .ok v

/-- Without the `json` feature the visitor knows no sequences. -/
theorem codecAgrees_iff (json : Bool) (v : Value) (hwf : v.WellFormed) :
    v.CodecAgrees json ↔ v.NoListBehindArray ∧ TypeVisited json false v := by
  rw [CodecAgrees, toValue_toSer_iff hwf, fromValue_eq_self_iff hwf]

theorem map_codecAgrees :
    (Value.map [(.string "a", .long 1), (.uint 2, .map [])]).CodecAgrees false :=
  (codecAgrees_iff false _ (by decide)).mpr (by decide)

/-- A symbol comes back as a string. -/
theorem symbol_codec_differs :
    fromValue false (.symbol ⟨"amqp"⟩) = .ok (.string "amqp") ∧
      ¬(Value.symbol ⟨"amqp"⟩).CodecAgrees false ∧ ¬(Value.symbol ⟨"amqp"⟩).CodecAgrees true := by
  refine ⟨rfl, fun h => ?_, fun h => ?_⟩
  · cases h.2
  · cases h.2

/-- A list behind an array in a map is serialized to an array. -/
example : toValue (Value.map [(.array [], .list [.null])]).toSer =
    .ok (.map [(.array [], .array [.null])]) := rfl

end Value

end Fe2o3Amqp
