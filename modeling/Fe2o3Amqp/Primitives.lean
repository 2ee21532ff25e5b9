import Mathlib.Data.List.Basic

/-!
# AMQP primitive values

The `Value` tree of `serde_amqp` together with the primitive types it is built from.  Machine
integers keep their widths, floats and decimals are kept as bit patterns, and an ordered map is
the list of its entries in insertion order.  That the keys of an ordered map are pairwise distinct
is the separate predicate `Value.WellFormed`, because the key comparison is defined on values.
-/

namespace Fe2o3Amqp

/-- A byte string (`ByteBuf`, `Vec<u8>`, `Bytes`). -/
abbrev Bytes := List UInt8

/-- The symbol newtype around a string. -/
structure Symbol where
  value : String
deriving DecidableEq, Repr

inductive Descriptor where
  | name (symbol : Symbol)
  | code (code : UInt64)
deriving DecidableEq, Repr

/-- `serde_amqp::Value`.  `Float` and `Double` carry their IEEE bit patterns. -/
inductive Value where
  | described (descriptor : Descriptor) (value : Value)
  | null
  | bool (v : Bool)
  | ubyte (v : UInt8)
  | ushort (v : UInt16)
  | uint (v : UInt32)
  | ulong (v : UInt64)
  | byte (v : Int8)
  | short (v : Int16)
  | int (v : Int32)
  | long (v : Int64)
  | float (bits : UInt32)
  | double (bits : UInt64)
  | decimal32 (bytes : Vector UInt8 4)
  | decimal64 (bytes : Vector UInt8 8)
  | decimal128 (bytes : Vector UInt8 16)
  | char (v : Char)
  | timestamp (milliseconds : Int64)
  | uuid (bytes : Vector UInt8 16)
  | binary (v : Bytes)
  | string (v : String)
  | symbol (v : Symbol)
  | list (vs : List Value)
  | map (entries : List (Value × Value))
  | array (vs : List Value)

instance : Inhabited Value := ⟨.null⟩

/-- Equality of `OrderedFloat<f32>`: all NaNs are equal and so are the two zeros. -/
def orderedFloat32Eq (a b : UInt32) : Bool :=
  let nan (x : UInt32) : Bool := x &&& 0x7fffffff > 0x7f800000
  (nan a && nan b) || (!nan a && !nan b && (a == b || (a &&& 0x7fffffff) ||| (b &&& 0x7fffffff) == 0))

/-- Equality of `OrderedFloat<f64>`. -/
def orderedFloat64Eq (a b : UInt64) : Bool :=
  let nan (x : UInt64) : Bool := x &&& 0x7fffffffffffffff > 0x7ff0000000000000
  (nan a && nan b) ||
    (!nan a && !nan b && (a == b || (a &&& 0x7fffffffffffffff) ||| (b &&& 0x7fffffffffffffff) == 0))

mutual

/-- The derived `PartialEq` of `Value`; it decides which keys an ordered map identifies. -/
def Value.eq : Value → Value → Bool
  | .described d v, .described d' v' => d == d' && Value.eq v v'
  | .null, .null => true
  | .bool v, .bool v' => v == v'
  | .ubyte v, .ubyte v' => v == v'
  | .ushort v, .ushort v' => v == v'
  | .uint v, .uint v' => v == v'
  | .ulong v, .ulong v' => v == v'
  | .byte v, .byte v' => v == v'
  | .short v, .short v' => v == v'
  | .int v, .int v' => v == v'
  | .long v, .long v' => v == v'
  | .float v, .float v' => orderedFloat32Eq v v'
  | .double v, .double v' => orderedFloat64Eq v v'
  | .decimal32 v, .decimal32 v' => v == v'
  | .decimal64 v, .decimal64 v' => v == v'
  | .decimal128 v, .decimal128 v' => v == v'
  | .char v, .char v' => v == v'
  | .timestamp v, .timestamp v' => v == v'
  | .uuid v, .uuid v' => v == v'
  | .binary v, .binary v' => v == v'
  | .string v, .string v' => v == v'
  | .symbol v, .symbol v' => v == v'
  | .list vs, .list vs' => Value.listEq vs vs'
  | .map es, .map es' => Value.entriesEq es es'
  | .array vs, .array vs' => Value.listEq vs vs'
  | _, _ => false

def Value.listEq : List Value → List Value → Bool
  | [], [] => true
  | v :: vs, v' :: vs' => Value.eq v v' && Value.listEq vs vs'
  | _, _ => false

def Value.entriesEq : List (Value × Value) → List (Value × Value) → Bool
  | [], [] => true
  | (k, v) :: es, (k', v') :: es' =>
      Value.eq k k' && Value.eq v v' && Value.entriesEq es es'
  | _, _ => false

end

/-- `OrderedMap<K, V>`: entries in insertion order. -/
abbrev OrderedMap (K V : Type) := List (K × V)

namespace OrderedMap

variable {K V : Type}

/-- `IndexMap::insert`: an existing key keeps its place and takes the new value. -/
def insert (eq : K → K → Bool) (m : OrderedMap K V) (key : K) (value : V) : OrderedMap K V :=
  match m with
  | [] => [(key, value)]
  | (k, v) :: m =>
      if eq k key then (k, value) :: m else (k, v) :: insert eq m key value

def get (eq : K → K → Bool) (m : OrderedMap K V) (key : K) : Option V :=
  (m.find? fun entry => eq entry.1 key).map Prod.snd

/-- No two keys of the map are identified by the key comparison. -/
def DistinctKeys (eq : K → K → Bool) (m : OrderedMap K V) : Prop :=
  m.Pairwise fun a b => eq a.1 b.1 = false

theorem insert_eq_append (eq : K → K → Bool) (m : OrderedMap K V) (key : K) (value : V)
    (h : ∀ e ∈ m, eq e.1 key = false) : insert eq m key value = m ++ [(key, value)] := by
  induction m with
  | nil => rfl
  | cons e m ih =>
      have he : eq e.1 key = false := h e (by simp)
      have ih := ih fun e he => h e (by simp [he])
      simp [insert, he, ih]

instance (eq : K → K → Bool) (m : OrderedMap K V) : Decidable (m.DistinctKeys eq) :=
  inferInstanceAs (Decidable (List.Pairwise _ m))

end OrderedMap

/-- `OrderedMap<Symbol, Value>`. -/
abbrev Fields := OrderedMap Symbol Value

/-! ## Properties of every value inside a value -/

mutual

/-- Whether the test passes for the value and for every value inside it. -/
def Value.all (p : Value → Bool) : Value → Bool
  | .described descriptor v => p (.described descriptor v) && Value.all p v
  | .list vs => p (.list vs) && Value.allElements p vs
  | .map entries => p (.map entries) && Value.allEntries p entries
  | .array vs => p (.array vs) && Value.allElements p vs
  | v => p v

def Value.allElements (p : Value → Bool) : List Value → Bool
  | [] => true
  | v :: vs => Value.all p v && Value.allElements p vs

def Value.allEntries (p : Value → Bool) : List (Value × Value) → Bool
  | [] => true
  | (k, v) :: entries => Value.all p k && Value.all p v && Value.allEntries p entries

end

namespace Value

variable {p : Value → Bool}

theorem allElements_iff {vs : List Value} : allElements p vs ↔ ∀ v ∈ vs, all p v := by
  induction vs with
  | nil => simp [allElements]
  | cons v vs ih => simp [allElements, ih]

theorem allEntries_iff {entries : List (Value × Value)} :
    allEntries p entries ↔ ∀ entry ∈ entries, all p entry.1 ∧ all p entry.2 := by
  induction entries with
  | nil => simp [allEntries]
  | cons entry entries ih => simp [allEntries, ih, and_assoc]

@[simp] theorem all_described {descriptor : Descriptor} {v : Value} :
    all p (.described descriptor v) ↔ p (.described descriptor v) ∧ all p v := by
  simp [all]

@[simp] theorem all_list {vs : List Value} :
    all p (.list vs) ↔ p (.list vs) ∧ ∀ v ∈ vs, all p v := by
  simp [all, allElements_iff]

@[simp] theorem all_map {entries : List (Value × Value)} :
    all p (.map entries) ↔ p (.map entries) ∧
      ∀ entry ∈ entries, all p entry.1 ∧ all p entry.2 := by
  simp [all, allEntries_iff]

@[simp] theorem all_array {vs : List Value} :
    all p (.array vs) ↔ p (.array vs) ∧ ∀ v ∈ vs, all p v := by
  simp [all, allElements_iff]

/-- No array anywhere in the value. -/
def ArrayFree (v : Value) : Prop := v.all fun | .array _ => false | _ => true

/-- No timestamp anywhere in the value. -/
def TimestampFree (v : Value) : Prop := v.all fun | .timestamp _ => false | _ => true

/-- The keys of every map in the value are distinct, as those of an `OrderedMap` are. -/
def WellFormed (v : Value) : Prop :=
  v.all fun | .map entries => decide (OrderedMap.DistinctKeys Value.eq entries) | _ => true

instance (v : Value) : Decidable v.ArrayFree := inferInstanceAs (Decidable (_ = true))
instance (v : Value) : Decidable v.TimestampFree := inferInstanceAs (Decidable (_ = true))
instance (v : Value) : Decidable v.WellFormed := inferInstanceAs (Decidable (_ = true))

/-- No timestamp anywhere inside a key of a map. -/
def KeysTimestampFree (v : Value) : Prop :=
  v.all fun
    | .map entries => entries.all fun entry => decide entry.1.TimestampFree
    | _ => true

instance (v : Value) : Decidable v.KeysTimestampFree := inferInstanceAs (Decidable (_ = true))

/-- Induction on a value with hypotheses for the elements of its compounds. -/
@[elab_as_elim]
theorem induction {motive : Value → Prop}
    (described : ∀ descriptor v, motive v → motive (.described descriptor v))
    (list : ∀ vs, (∀ v ∈ vs, motive v) → motive (.list vs))
    (map : ∀ entries : List (Value × Value),
      (∀ entry ∈ entries, motive entry.1 ∧ motive entry.2) → motive (.map entries))
    (array : ∀ vs, (∀ v ∈ vs, motive v) → motive (.array vs))
    (leaf : ∀ v, (∀ descriptor v', v ≠ .described descriptor v') → (∀ vs, v ≠ .list vs) →
      (∀ entries, v ≠ .map entries) → (∀ vs, v ≠ .array vs) → motive v)
    (v : Value) : motive v := by
  have ih (v' : Value) (_ : sizeOf v' < sizeOf v) : motive v' :=
    induction described list map array leaf v'
  cases hv : v with
  | described descriptor v' =>
      refine described descriptor v' (ih v' ?_)
      rw [hv, Value.described.sizeOf_spec]
      omega
  | list vs =>
      refine list vs fun v' hmem => ih v' ?_
      have := List.sizeOf_lt_of_mem hmem
      rw [hv, Value.list.sizeOf_spec]
      omega
  | map entries =>
      have hlt (entry) (hmem : entry ∈ entries) :
          sizeOf entry.1 < sizeOf v ∧ sizeOf entry.2 < sizeOf v := by
        have hentry : sizeOf entry = 1 + sizeOf entry.1 + sizeOf entry.2 := rfl
        have := List.sizeOf_lt_of_mem hmem
        rw [hv, Value.map.sizeOf_spec]
        omega
      exact map entries fun entry hmem =>
        ⟨ih entry.1 (hlt entry hmem).1, ih entry.2 (hlt entry hmem).2⟩
  | array vs =>
      refine array vs fun v' hmem => ih v' ?_
      have := List.sizeOf_lt_of_mem hmem
      rw [hv, Value.array.sizeOf_spec]
      omega
  | _ => apply leaf <;> simp
termination_by sizeOf v

end Value

end Fe2o3Amqp
