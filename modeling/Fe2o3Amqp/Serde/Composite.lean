import Fe2o3Amqp.Serde.Value

/-!
# Derived composites

What the derive macros of `serde_amqp_derive` make of a struct with the list encoding.  The encoder
postpones the fields that are absent or equal to their default and writes them as nulls in front of
the next field that is written; the decoder supplies them again by position.
-/

namespace Fe2o3Amqp

/-! ## The derived encoder -/

/-- A field as the encoder treats it: its value is postponed when it is `none`. -/
structure CompositeField where
  name : String
  value : Option Ser

namespace CompositeField

def required (name : String) (v : Ser) : CompositeField := { name, value := some v }

/-- `buffer_if_none!`. -/
def optional (name : String) (v : Option Ser) : CompositeField :=
  { name, value := v.map Ser.some }

/-- `buffer_if_eq_default!`. -/
def defaulted {α : Type} [DecidableEq α] (name : String) (toSer : α → Ser) (default v : α) :
    CompositeField :=
  { name, value := if v ≠ default then some (toSer v) else none }

end CompositeField

/-- The calls of `serialize_field`; `nulls` are the names of the postponed fields. -/
def compositeFields (nulls : List String) : List CompositeField → List (FieldKey × Ser)
  | [] => []
  | ⟨name, none⟩ :: fields => compositeFields (nulls ++ [name]) fields
  | ⟨name, some v⟩ :: fields =>
      nulls.map (fun null => (FieldKey.name null, Ser.unit)) ++
        (FieldKey.name name, v) :: compositeFields [] fields

/-- `#[derive(SerializeComposite)]` with `encoding = "list"`; a struct without fields is described
as a tuple struct. -/
def compositeToSer (code : UInt64) : List CompositeField → Ser
  | [] => .tupleStruct .describedList [(Descriptor.code code).toSer]
  | fields =>
      .struct .describedList
        ((.descriptor, (Descriptor.code code).toSer) :: compositeFields [] fields)

/-! ## The derived decoder -/

/-- The body of `visit_seq`, which takes the elements of a described value one by one. -/
abbrev VisitSeq (R α : Type) := StateT De.DescribedAccess (De R) α

namespace VisitSeq

variable {R : Type} [Read R] {α : Type}

def nextElement (element : De R α) : VisitSeq R (Option α) := fun access =>
  access.nextElement element

def custom (text : String) : VisitSeq R α := StateT.lift (De.custom text)

/-- The descriptor is the first element and must be one of the type's two. -/
def descriptor (name : String) (code : UInt64) : VisitSeq R Unit := do
  match ← nextElement De.descriptor with
  | none => custom "Expecting descriptor"
  | some (.name symbol) => if symbol.value ≠ name then custom "Descriptor mismatch"
  | some (.code c) => if c ≠ code then custom "Descriptor mismatch"

/-- `unwrap_or_none!` for a type that is not optional. -/
def required (element : De R α) : VisitSeq R α := do
  match ← nextElement element with
  | some v => return v
  | none => custom "Insufficient number of items"

/-- `unwrap_or_none!` for an `Option`. -/
def optional (element : De R α) : VisitSeq R (Option α) := do
  match ← nextElement (De.deserializeOption element) with
  | some v => return v
  | none => return none

/-- `unwrap_or_default!`. -/
def defaulted (default : α) (element : De R α) : VisitSeq R α := do
  return (← optional element).getD default

/-- A field marked `multiple`: an empty array is read as absent. -/
def multiple (element : De R α) : VisitSeq R (Option (List α)) := do
  return (← optional (De.array element)).filter fun vs => !vs.isEmpty

end VisitSeq

/-- `#[derive(DeserializeComposite)]` with `encoding = "list"`. -/
def De.composite {R : Type} [Read R] {α : Type} (name : String) (code : UInt64)
    (fields : VisitSeq R α) : De R α :=
  De.deserializeStruct .describedList 1 fun access =>
    StateT.run' (do VisitSeq.descriptor name code; fields) access

end Fe2o3Amqp
