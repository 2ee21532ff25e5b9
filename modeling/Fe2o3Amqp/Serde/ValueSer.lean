import Fe2o3Amqp.Serde.Value

/-!
# The serializer into a `Value`

The second interpreter of the data model builds a `Value` in memory.  It has flags of its own, and
the key and the value of a map entry share one serializer.
-/

namespace Fe2o3Amqp

namespace OrderedMap

variable {K V : Type} {eq : K → K → Bool}

/-- Inserts the entries one after another. -/
def insertAll (eq : K → K → Bool) (m : OrderedMap K V) (entries : List (K × V)) :
    OrderedMap K V :=
  entries.foldl (fun m entry => insert eq m entry.1 entry.2) m

@[simp] theorem insertAll_nil (m : OrderedMap K V) : insertAll eq m [] = m := rfl

@[simp] theorem insertAll_cons (m : OrderedMap K V) (entry : K × V) (entries : List (K × V)) :
    insertAll eq m (entry :: entries) = insertAll eq (insert eq m entry.1 entry.2) entries := rfl

theorem insert_cases (eq : K → K → Bool) (m : OrderedMap K V) (key : K) (value : V) :
    (insert eq m key value).length = m.length ∨ insert eq m key value = m ++ [(key, value)] := by
  induction m with
  | nil => exact .inr rfl
  | cons entry m ih =>
      simp only [insert]
      split_ifs
      · exact .inl rfl
      · obtain hlength | happend := ih
        · left
          rw [List.length_cons, List.length_cons, hlength]
        · right
          rw [happend]
          rfl

theorem insertAll_length_le (eq : K → K → Bool) (m : OrderedMap K V) (entries : List (K × V)) :
    (insertAll eq m entries).length ≤ m.length + entries.length := by
  induction entries generalizing m with
  | nil => exact Nat.le_refl _
  | cons entry entries ih =>
      have hrest := ih (insert eq m entry.1 entry.2)
      have hone : (insert eq m entry.1 entry.2).length ≤ m.length + 1 := by
        obtain hlength | happend := insert_cases eq m entry.1 entry.2
        · omega
        · rw [happend, List.length_append]
          exact Nat.le_refl _
      rw [insertAll_cons, List.length_cons]
      omega

/-- An entry that meets an earlier one does not lengthen the map. -/
theorem insertAll_eq_append_of_length {m : OrderedMap K V} {entries : List (K × V)}
    (h : (insertAll eq m entries).length = m.length + entries.length) :
    insertAll eq m entries = m ++ entries := by
  induction entries generalizing m with
  | nil => simp
  | cons entry entries ih =>
      rw [insertAll_cons, List.length_cons] at h
      have hrest := insertAll_length_le eq (insert eq m entry.1 entry.2) entries
      obtain hlength | happend := insert_cases eq m entry.1 entry.2
      · omega
      · rw [happend] at h
        have htail := ih (m := m ++ [(entry.1, entry.2)])
          (by rw [h, List.length_append, List.length_singleton]; omega)
        rw [insertAll_cons, happend, htail, List.append_assoc]
        rfl

theorem insertAll_of_distinctKeys {m : OrderedMap K V} {entries : List (K × V)}
    (h : DistinctKeys eq (m ++ entries)) : insertAll eq m entries = m ++ entries := by
  induction entries generalizing m with
  | nil => simp
  | cons entry entries ih =>
      have hinsert : insert eq m entry.1 entry.2 = m ++ [entry] :=
        insert_eq_append eq m _ _ fun other hother =>
          (List.pairwise_append.mp h).2.2 other hother entry (List.mem_cons_self ..)
      rw [insertAll_cons, hinsert, ih (by simpa using h)]
      simp

/-- As many entries give a map with distinct keys exactly when they are its entries. -/
theorem insertAll_eq_iff {m : OrderedMap K V} (h : DistinctKeys eq m) {entries : List (K × V)}
    (hlength : entries.length = m.length) : insertAll eq [] entries = m ↔ entries = m := by
  constructor
  · intro hm
    have hall : (insertAll eq [] entries).length = ([] : OrderedMap K V).length + entries.length := by
      rw [hm, hlength, List.length_nil, Nat.zero_add]
    have happend := insertAll_eq_append_of_length hall
    rwa [hm, List.nil_append, eq_comm] at happend
  · rintro rfl
    exact insertAll_of_distinctKeys (m := []) h

end OrderedMap

/-- `value::Serializer`. -/
structure ValueSerializer where
  nonNativeType : Option NonNativeType
  seqType : Option SequenceType
deriving DecidableEq, Repr

namespace ValueSerializer

def new : ValueSerializer where
  nonNativeType := none
  seqType := none

def resetNonNativeType (se : ValueSerializer) : ValueSerializer := { se with nonNativeType := none }

/-- The flag that `serialize_newtype_struct` sets; unlike the serializers of the wire format it
knows no transparent vector. -/
def enterNewtype (se : ValueSerializer) : TypeName → ValueSerializer
  | .symbol => { se with nonNativeType := some .symbol }
  | .symbolRef => { se with nonNativeType := some .symbolRef }
  | .array => { se with seqType := some .array }
  | .decimal32 => { se with nonNativeType := some .dec32 }
  | .decimal64 => { se with nonNativeType := some .dec64 }
  | .decimal128 => { se with nonNativeType := some .dec128 }
  | .timestamp => { se with nonNativeType := some .timestamp }
  | .uuid => { se with nonNativeType := some .uuid }
  | .lazyValue => { se with nonNativeType := some .lazyValue }
  | _ => se

def serializeI64 (se : ValueSerializer) (v : Int64) : Except Failure (Value × ValueSerializer) :=
  match se.nonNativeType with
  | none => .ok (.long v, se)
  | some .timestamp => .ok (.timestamp v, se.resetNonNativeType)
  | _ => .error (.err .invalidValue)

def serializeStr (se : ValueSerializer) (v : String) : Except Failure (Value × ValueSerializer) :=
  match se.nonNativeType with
  | none => .ok (.string v, se)
  | some .symbol | some .symbolRef => .ok (.symbol ⟨v⟩, se.resetNonNativeType)
  | _ => .error (.err .invalidValue)

/-- `try_from` of the decimals and the uuid. -/
def fixedTryFrom (n : Nat) (v : Bytes) : Except Failure (Vector UInt8 n) :=
  if h : v.toArray.size = n then .ok ⟨v.toArray, h⟩ else .error (.err .invalidLength)

theorem fixedTryFrom_toList {n : Nat} (v : Vector UInt8 n) : fixedTryFrom n v.toList = .ok v := by
  simp [fixedTryFrom, Vector.toList]

def serializeBytes (se : ValueSerializer) (v : Bytes) : Except Failure (Value × ValueSerializer) :=
  match se.nonNativeType with
  | none => .ok (.binary v, se)
  | some .dec32 => do return (.decimal32 (← fixedTryFrom 4 v), se.resetNonNativeType)
  | some .dec64 => do return (.decimal64 (← fixedTryFrom 8 v), se.resetNonNativeType)
  | some .dec128 => do return (.decimal128 (← fixedTryFrom 16 v), se.resetNonNativeType)
  | some .uuid => do return (.uuid (← fixedTryFrom 16 v), se.resetNonNativeType)
  | some .lazyValue => do return (← fromSlice De.value v, se)
  | some .timestamp | some .symbol | some .symbolRef => .error (.err .invalidValue)

/-- `SeqSerializer::end` of a sequence. -/
def endSeq (se : ValueSerializer) (vs : List Value) : Except Failure (Value × ValueSerializer) :=
  match se.seqType with
  | none | some .list => .ok (.list vs, se)
  | some .array => .ok (.array vs, se)
  | some .transparentVec => .error (.err .invalidValue)

/-- The descriptor that the serialized descriptor field stands for. -/
def descriptorOf : Value → Except Failure Descriptor
  | .symbol name => .ok (.name name)
  | .ulong code => .ok (.code code)
  | _ => .error (.err .invalidValue)

def describe (descriptor : Option Descriptor) (value : Value) : Value :=
  match descriptor with
  | some descriptor => .described descriptor value
  | none => value

/-- `StructSerializer::end` and `TupleStructSerializer::end` behind the fields. -/
def endStruct (se : ValueSerializer) (name : TypeName) (descriptor : Option Descriptor)
    (fields : List (String × Value)) : Except Failure (Value × ValueSerializer) := do
  let value ← match name with
    | .describedBasic =>
        match fields.getLast? with
        | some (_, value) => .ok value
        | none => .error (.err .invalidValue)
    | .describedMap =>
        .ok (.map (OrderedMap.insertAll Value.eq []
          (fields.map fun field => (.string field.1, field.2))))
    | _ => do
        let (value, _) ← se.endSeq (fields.map Prod.snd)
        .ok value
  return (describe descriptor value, se)

end ValueSerializer

open ValueSerializer (descriptorOf)

mutual

/-- Serializes a value into a `Value`; the flags afterwards are read by the value of a map entry
behind its key. -/
def Ser.toValue : Ser → ValueSerializer → Except Failure (Value × ValueSerializer)
  | .bool v, se => .ok (.bool v, se)
  | .i8 v, se => .ok (.byte v, se)
  | .i16 v, se => .ok (.short v, se)
  | .i32 v, se => .ok (.int v, se)
  | .i64 v, se => se.serializeI64 v
  | .u8 v, se => .ok (.ubyte v, se)
  | .u16 v, se => .ok (.ushort v, se)
  | .u32 v, se => .ok (.uint v, se)
  | .u64 v, se => .ok (.ulong v, se)
  | .f32 bits, se => .ok (.float bits, se)
  | .f64 bits, se => .ok (.double bits, se)
  | .char v, se => .ok (.char v, se)
  | .str v, se => se.serializeStr v
  | .bytes v, se => se.serializeBytes v
  | .none, se | .unit, se => .ok (.null, se)
  | .some v, se => v.toValue se
  | .unitVariant index, se => .ok (.uint index, se)
  | .newtypeStruct name v, se => v.toValue (se.enterNewtype name)
  | .newtypeVariant .descriptor _ v, se | .newtypeVariant .value _ v, se => v.toValue se
  | .newtypeVariant _ index v, se => do
      let (value, _) ← v.toValue .new
      se.endSeq [.uint index, value]
  | .seq _ elements, se => do se.endSeq (← Ser.toValues elements)
  | .tuple elements, se => do return (.list (← Ser.toValues elements), se)
  | .tupleStruct name fields, se => do
      let (se, descriptor, values) ← Ser.tupleFieldsToValues se
        (name = .describedBasic ∨ name = .describedList) Option.none fields
      -- a described map is no tuple struct: any other name keeps the fields as a list
      let name := if name = .describedBasic then .describedBasic else .other
      se.endStruct name descriptor (values.map fun value => ("", value))
  | .map _ entries, se => do return (.map (← Ser.entriesToValues [] entries), se)
  | .struct name fields, se => do
      let (se, descriptor, values) ← Ser.fieldsToValues se Option.none [] fields
      se.endStruct name descriptor values
  | .variant index fields, se => do
      return (.list [.uint index, .list (← Ser.toValues fields)], se)

/-- The elements of a sequence and the fields of a variant, each by a serializer of its own. -/
def Ser.toValues : List Ser → Except Failure (List Value)
  | [] => .ok []
  | v :: vs => do
      let (value, _) ← v.toValue .new
      let values ← Ser.toValues vs
      return value :: values

/-- `MapSerializer::serialize_entry` for every entry. -/
def Ser.entriesToValues (m : OrderedMap Value Value) :
    List (Ser × Ser) → Except Failure (OrderedMap Value Value)
  | [] => .ok m
  | (key, value) :: entries => do
      let (key, se) ← key.toValue .new
      let (value, _) ← value.toValue se
      Ser.entriesToValues (m.insert Value.eq key value) entries

/-- `TupleStructSerializer::serialize_field`; the first field may be the descriptor. -/
def Ser.tupleFieldsToValues (se : ValueSerializer) (role : Bool) (descriptor : Option Descriptor) :
    List Ser → Except Failure (ValueSerializer × Option Descriptor × List Value)
  | [] => .ok (se, descriptor, [])
  | v :: vs =>
      if role then do
        let (value, se) ← v.toValue se
        let descriptor ← descriptorOf value
        Ser.tupleFieldsToValues se false (Option.some descriptor) vs
      else do
        let (value, _) ← v.toValue .new
        let (se, descriptor, values) ← Ser.tupleFieldsToValues se false descriptor vs
        return (se, descriptor, value :: values)

/-- `StructSerializer::serialize_field`.  The key of a field is a string and leaves no flag to its
value. -/
def Ser.fieldsToValues (se : ValueSerializer) (descriptor : Option Descriptor)
    (values : List (String × Value)) : List (FieldKey × Ser) →
    Except Failure (ValueSerializer × Option Descriptor × List (String × Value))
  | [] => .ok (se, descriptor, values)
  | (.descriptor, v) :: fields => do
      let (value, se) ← v.toValue se
      let descriptor ← descriptorOf value
      Ser.fieldsToValues se (Option.some descriptor) values fields
  | (.name key, v) :: fields => do
      let (value, _) ← v.toValue .new
      Ser.fieldsToValues se descriptor (values ++ [(key, value)]) fields

end

/-- `to_value`. -/
def toValue (val : Ser) : Except Failure Value := do
  let (value, _) ← val.toValue .new
  return value

/-! ## Serializing a `Value` -/

namespace Value

def isArray : Value → Bool
  | .array _ => true
  | _ => false

def isList : Value → Bool
  | .list _ => true
  | _ => false

/-- No map in the value has an entry with an array for its key and a list for its value. -/
def NoListBehindArray (v : Value) : Prop :=
  v.all fun
    | .map entries => entries.all fun entry => !(entry.1.isArray && entry.2.isList)
    | _ => true

instance (v : Value) : Decidable v.NoListBehindArray := inferInstanceAs (Decidable (_ = true))

/-- What a descriptor is serialized to. -/
def ofDescriptor : Descriptor → Value
  | .name name => .symbol name
  | .code code => .ulong code

/-- The flags that the serializer is left with. -/
def flagsBehind (v : Value) (se : ValueSerializer) : ValueSerializer :=
  if v.isArray then { se with seqType := some .array } else se

/-- The value is serialized to itself unless it is a list and the serializer is left from an array. -/
def ToSelf (v : Value) : Prop :=
  ∀ se : ValueSerializer, se.nonNativeType = none → se.seqType = none ∨ se.seqType = some .array →
    ∃ v', v.toSer.toValue se = .ok (v', v.flagsBehind se) ∧
      (v' = v ↔ v.NoListBehindArray ∧ ¬(se.seqType = some .array ∧ v.isList))

theorem toSelf_new {v : Value} (h : v.ToSelf) :
    ∃ v', v.toSer.toValue .new = .ok (v', v.flagsBehind .new) ∧ (v' = v ↔ v.NoListBehindArray) := by
  obtain ⟨v', hrun, hself⟩ := h .new rfl (.inl rfl)
  refine ⟨v', hrun, hself.trans ?_⟩
  simp [ValueSerializer.new]

theorem toValues_listToSer {vs : List Value} (h : ∀ v ∈ vs, v.ToSelf) :
    ∃ vs', Ser.toValues (listToSer vs) = .ok vs' ∧ (vs' = vs ↔ ∀ v ∈ vs, v.NoListBehindArray) := by
  induction vs with
  | nil => exact ⟨[], rfl, by simp⟩
  | cons v vs ih =>
      obtain ⟨v', hv, hself⟩ := toSelf_new (h v (List.mem_cons_self ..))
      obtain ⟨vs', hvs, hrest⟩ := ih fun v hv => h v (List.mem_cons_of_mem _ hv)
      refine ⟨v' :: vs', ?_, ?_⟩
      · simp only [listToSer, Ser.toValues, hv, hvs]
        rfl
      · rw [List.cons.injEq, hself, hrest, List.forall_mem_cons]

theorem entriesToValues_entriesToSer {entries : List (Value × Value)}
    (h : ∀ entry ∈ entries, entry.1.ToSelf ∧ entry.2.ToSelf) :
    ∃ entries' : List (Value × Value), entries'.length = entries.length ∧
      (∀ m, Ser.entriesToValues m (entriesToSer entries) =
        .ok (OrderedMap.insertAll Value.eq m entries')) ∧
      (entries' = entries ↔ ∀ entry ∈ entries, entry.1.NoListBehindArray ∧
        entry.2.NoListBehindArray ∧ ¬(entry.1.isArray ∧ entry.2.isList)) := by
  induction entries with
  | nil => exact ⟨[], rfl, fun m => rfl, by simp⟩
  | cons entry entries ih =>
      obtain ⟨k, v⟩ := entry
      obtain ⟨entries', hlength, hentries, hrest⟩ :=
        ih fun entry hentry => h entry (List.mem_cons_of_mem _ hentry)
      obtain ⟨k', hk, hkey⟩ := toSelf_new (h (k, v) (List.mem_cons_self ..)).1
      -- the value is serialized with what the key left in the flags
      have hflags : (k.flagsBehind .new).nonNativeType = none ∧
          ((k.flagsBehind .new).seqType = none ∨ (k.flagsBehind .new).seqType = some .array) := by
        unfold flagsBehind
        split_ifs
        · exact ⟨rfl, .inr rfl⟩
        · exact ⟨rfl, .inl rfl⟩
      have harray : (k.flagsBehind .new).seqType = some .array ↔ k.isArray := by
        unfold flagsBehind
        split_ifs with hk
        · simp [hk]
        · simp [hk, ValueSerializer.new]
      obtain ⟨v', hv, hvalue⟩ := (h (k, v) (List.mem_cons_self ..)).2 _ hflags.1 hflags.2
      refine ⟨(k', v') :: entries', ?_, fun m => ?_, ?_⟩
      · rw [List.length_cons, List.length_cons, hlength]
      · simp only [entriesToSer, Ser.entriesToValues, hk, hv, Bind.bind, Except.bind]
        exact hentries _
      · rw [List.cons.injEq, Prod.mk.injEq, hkey, hvalue, harray, hrest, List.forall_mem_cons,
          and_assoc]

theorem toSelf_described {descriptor : Descriptor} {v : Value} (h : v.ToSelf) :
    (Value.described descriptor v).ToSelf := by
  intro se hnative hseq
  obtain ⟨v', hv, hself⟩ := toSelf_new h
  have hdescriptor : descriptor.toSer.toValue se = .ok (ofDescriptor descriptor, se) := by
    obtain ⟨nonNativeType, seqType⟩ := se
    obtain rfl : nonNativeType = none := hnative
    cases descriptor <;> rfl
  refine ⟨.described descriptor v', ?_, ?_⟩
  · cases descriptor <;>
      simp [toSer, describedToSer, Ser.toValue, Ser.fieldsToValues, hdescriptor, hv, descriptorOf,
        ValueSerializer.endStruct, ValueSerializer.describe, flagsBehind, isArray, Bind.bind,
        ofDescriptor, Except.bind, Pure.pure, Except.pure]
  · simp [hself, NoListBehindArray, isList]

/-- Every value is serialized, and the flags tell whether the outcome is the value itself. -/
theorem toSelf_of_wellFormed (v : Value) (hwf : v.WellFormed) : v.ToSelf := by
  induction v using Value.induction with
  | described descriptor v ih => exact toSelf_described (ih (all_described.mp hwf).2)
  | list vs ih =>
      intro se hnative hseq
      have hvs := (all_list.mp hwf).2
      obtain ⟨vs', hrun, hself⟩ := toValues_listToSer fun v hv => ih v hv (hvs v hv)
      obtain hnone | harray := hseq
      · refine ⟨.list vs', ?_, ?_⟩
        · simp [toSer, Ser.toValue, hrun, ValueSerializer.endSeq, hnone, flagsBehind, isArray,
            Bind.bind, Except.bind]
        · simp [hself, NoListBehindArray, hnone]
      · refine ⟨.array vs', ?_, ?_⟩
        · simp [toSer, Ser.toValue, hrun, ValueSerializer.endSeq, harray, flagsBehind, isArray,
            Bind.bind, Except.bind]
        · simp [harray, isList]
  | map entries ih =>
      intro se hnative hseq
      obtain ⟨hkeys, hentries⟩ := all_map.mp hwf
      obtain ⟨entries', hlength, hrun, hself⟩ := entriesToValues_entriesToSer fun entry hentry =>
        ⟨(ih entry hentry).1 (hentries entry hentry).1, (ih entry hentry).2 (hentries entry hentry).2⟩
      refine ⟨.map (OrderedMap.insertAll Value.eq [] entries'), ?_, ?_⟩
      · simp [toSer, Ser.toValue, hrun, flagsBehind, isArray, Bind.bind, Except.bind, Pure.pure,
          Except.pure]
      · rw [Value.map.injEq, OrderedMap.insertAll_eq_iff (by simpa using hkeys) hlength, hself]
        simp only [NoListBehindArray, all_map, List.all_eq_true, isList]
        grind
  | array vs ih =>
      intro se hnative hseq
      have hvs := (all_array.mp hwf).2
      obtain ⟨vs', hrun, hself⟩ := toValues_listToSer fun v hv => ih v hv (hvs v hv)
      refine ⟨.array vs', ?_, ?_⟩
      · simp [toSer, Ser.toValue, hrun, ValueSerializer.endSeq, ValueSerializer.enterNewtype,
          flagsBehind, isArray, Bind.bind, Except.bind]
      · simp [hself, NoListBehindArray, isList]
  | leaf v hdescribed hlist hmap harray =>
      intro se hnative hseq
      obtain ⟨nonNativeType, seqType⟩ := se
      obtain rfl : nonNativeType = none := hnative
      refine ⟨v, ?_, ?_⟩
      · cases v with
        | decimal32 bytes | decimal64 bytes | decimal128 bytes | uuid bytes =>
            simp [toSer, Ser.toValue, ValueSerializer.enterNewtype, ValueSerializer.serializeBytes,
              ValueSerializer.fixedTryFrom_toList, ValueSerializer.resetNonNativeType,
              flagsBehind, isArray, Bind.bind, Except.bind, Pure.pure, Except.pure]
        | described | list | map | array => simp_all
        | _ => rfl
      · cases v <;> simp_all [NoListBehindArray, all, isList]

/-- `to_value` takes a value to itself exactly when no list stands behind an array in a map. -/
theorem toValue_toSer_iff {v : Value} (hwf : v.WellFormed) :
    Fe2o3Amqp.toValue v.toSer = .ok v ↔ v.NoListBehindArray := by
  obtain ⟨v', hrun, hself⟩ := toSelf_new (toSelf_of_wellFormed v hwf)
  simp [Fe2o3Amqp.toValue, hrun, ← hself, Bind.bind, Except.bind, Pure.pure, Except.pure]

end Value

end Fe2o3Amqp
