import Fe2o3Amqp.Serde.DescribedAgree
import Fe2o3Amqp.Types.Codec
import Mathlib.Data.List.Forall2

/-!
# The readers agree on the AMQP types

The composites of the transport, messaging and transaction layers are read alike over a slice and over a
stream.  Only a durability that is written as a described value is looked at without being read.
-/

namespace Fe2o3Amqp

namespace ReadersAgree

variable {strict : Bool} {α β : Type}

/-! ## Composites -/

/-- The fields of a composite behind its descriptor. -/
def FieldsAgree (strict : Bool) (p : VisitSeq SliceReader α) (q : VisitSeq IoReader α) : Prop :=
  ∀ access, Agree (At strict none 0) (p access) (q access) fun _ => At strict none 0

namespace FieldsAgree

variable {p : VisitSeq SliceReader α} {q : VisitSeq IoReader α} {element : De SliceReader α}
  {element' : De IoReader α}

theorem pure (a : α) : FieldsAgree strict (Pure.pure a) (Pure.pure a) := fun _ => .pure fun _ h => h

theorem custom (text : String) : FieldsAgree strict (VisitSeq.custom text : VisitSeq SliceReader α)
    (VisitSeq.custom text) := fun _ _ _ _ => .error

theorem bind {f : α → VisitSeq SliceReader β} {g : α → VisitSeq IoReader β} (h : FieldsAgree strict p q)
    (hrest : ∀ a, FieldsAgree strict (f a) (g a)) : FieldsAgree strict (p >>= f) (q >>= g) := by
  intro access
  refine Agree.bind (h access) fun next => ?_
  rcases next with ⟨a, access⟩
  exact hrest a access

theorem nextElement (h : Plain strict element element') :
    FieldsAgree strict (VisitSeq.nextElement element) (VisitSeq.nextElement element') :=
  h.nextElement

theorem required (h : Plain strict element element') :
    FieldsAgree strict (VisitSeq.required element) (VisitSeq.required element') := by
  refine (nextElement h).bind fun next => ?_
  cases next with
  | none => exact custom _
  | some v => exact pure v

theorem optional (h : Plain strict element element') :
    FieldsAgree strict (VisitSeq.optional element) (VisitSeq.optional element') := by
  refine (nextElement h.deserializeOption).bind fun next => ?_
  cases next with
  | none => exact pure none
  | some v => exact pure v

theorem defaulted (default : α) (h : Plain strict element element') :
    FieldsAgree strict (VisitSeq.defaulted default element) (VisitSeq.defaulted default element') :=
  (optional h).bind fun _ => pure _

theorem multiple (h : Nested strict element element') :
    FieldsAgree strict (VisitSeq.multiple element) (VisitSeq.multiple element') :=
  (optional h.array.plain).bind fun _ => pure _

end FieldsAgree

/-- The program reads a value of which the descriptor may be peeked. -/
def Described (strict : Bool) (p : De SliceReader α) (q : De IoReader α) : Prop :=
  Agree (Peeked strict) p q fun _ => At strict none 0

theorem Described.plain {p : De SliceReader α} {q : De IoReader α} (h : Described strict p q) :
    Plain strict p q :=
  h.pre fun _ ht => ht.peeked_descriptor

/-- The descriptor of a composite is its first element. -/
theorem visitDescriptor (name : String) (code : UInt64) (access : De.DescribedAccess) :
    Agree (Peeked strict) (VisitSeq.descriptor name code access) (VisitSeq.descriptor name code access)
      fun _ => At strict none 0 := by
  refine Agree.bind (nextElement_descriptor access) fun next => ?_
  rcases next with ⟨next, access⟩
  cases next with
  | none => exact fun _ _ _ => .error
  | some descriptor =>
      refine Agree.pre ?_ fun t h => h rfl
      cases descriptor with
      | name symbol =>
          dsimp only
          split_ifs
          · exact fun _ _ _ => .error
          · exact .pure fun _ h => h
      | code c =>
          dsimp only
          split_ifs
          · exact fun _ _ _ => .error
          · exact .pure fun _ h => h

theorem Described.composite {p : VisitSeq SliceReader α} {q : VisitSeq IoReader α}
    (h : FieldsAgree strict p q) (name : String) (code : UInt64) :
    Described strict (De.composite name code p) (De.composite name code q) := by
  refine withStructEncoding .describedList ?_ (fun _ _ ht => ⟨ht.code, ht.peeked⟩)
    fun _ _ _ ht => ⟨ht.code, ht.peeked⟩
  have hvisit : ∀ access, Agree (Peeked strict)
      (StateT.run (do VisitSeq.descriptor name code; p) access)
      (StateT.run (do VisitSeq.descriptor name code; q) access) fun _ => At strict none 0 := by
    intro access
    refine Agree.bind (visitDescriptor name code access) fun next => ?_
    rcases next with ⟨_, access⟩
    exact h access
  exact (hvisit _).map Prod.fst

/-! ## Enumerations -/

theorem variantHeader (wide : Bool) :
    Agree (At strict none 1) (De.variantHeader wide) (De.variantHeader wide)
      fun _ => At strict none 0 := by
  have hlength : ∀ count : Nat, Agree (At strict none 0)
      (if count ≠ 2 then De.err .invalidLength else pure ()) (if count ≠ 2 then De.err .invalidLength else pure ())
      fun _ => At strict none 0 := by
    intro count
    split_ifs
    · exact .err
    · exact .pure fun _ h => h
  refine Agree.bind Agree.next_at fun code => ?_
  cases wide with
  | true => exact Agree.readU32.bind fun _ => Agree.readU32.bind hlength
  | false => exact Agree.bind Agree.next_at fun _ => Agree.bind Agree.next_at fun count => hlength count.toNat

theorem deserializeEnum {p : De SliceReader α} {q : De IoReader α}
    {Q : α → Deserializer IoReader → Prop} (h : Agree (At strict none 1) p q Q)
    (hQ : ∀ a t enumType, Q a t → Q a { t with enumType }) :
    Agree (At strict none 1) (De.deserializeEnum .other p) (De.deserializeEnum .other q) Q := by
  have hvisit : Agree (At strict none 1) (De.restoringEnumType p) (De.restoringEnumType q) Q :=
    restoringEnumType h hQ
  have hcode : Agree (At strict none 1) (De.peekFormatCode "Expecting format code")
      (De.peekFormatCode "Expecting format code") fun _ => At strict none 1 := peekFormatCode
  refine hcode.bind fun code => ?_
  have hcarried : ∀ wide, Agree (At strict none 1)
      (do De.variantHeader wide; De.restoringEnumType p)
      (do De.variantHeader wide; De.restoringEnumType q) Q := fun wide =>
    (variantHeader wide).bind fun _ => hvisit.pre fun _ ht => ht.le (Nat.zero_le 1)
  cases code with
  | list0 => exact .err
  | list8 | map8 => exact hcarried false
  | list32 | map32 => exact hcarried true
  | _ => exact hvisit

/-- A variant over a slice and over a stream. -/
structure VariantAgrees (strict : Bool) (Q : α → Deserializer IoReader → Prop)
    (v : String × UInt64 × De SliceReader α) (w : String × UInt64 × De IoReader α) : Prop where
  name : v.1 = w.1
  code : v.2.1 = w.2.1
  agrees : Agree (Peeked strict) v.2.2 w.2.2 Q

theorem find_variant {Q : α → Deserializer IoReader → Prop}
    {variants : List (String × UInt64 × De SliceReader α)}
    {variants' : List (String × UInt64 × De IoReader α)}
    (h : List.Forall₂ (VariantAgrees strict Q) variants variants') (accepts : String → UInt64 → Bool) :
    (variants.find? (fun v => accepts v.1 v.2.1) = none ∧
        variants'.find? (fun v => accepts v.1 v.2.1) = none) ∨
      ∃ v w, variants.find? (fun v => accepts v.1 v.2.1) = some v ∧
        variants'.find? (fun v => accepts v.1 v.2.1) = some w ∧ VariantAgrees strict Q v w := by
  induction h with
  | nil => exact .inl ⟨rfl, rfl⟩
  | cons hvariant _ ih =>
      simp only [List.find?_cons, hvariant.name, hvariant.code]
      split
      · exact .inr ⟨_, _, rfl, rfl, hvariant⟩
      · exact ih

theorem describedEnum {Q : α → Deserializer IoReader → Prop}
    {variants : List (String × UInt64 × De SliceReader α)}
    {variants' : List (String × UInt64 × De IoReader α)}
    (h : List.Forall₂ (VariantAgrees strict Q) variants variants')
    (hQ : ∀ a t enumType, Q a t → Q a { t with enumType }) (wrongName : String)
    (wrongCode : UInt64 → String) :
    Agree (At strict none 1) (De.describedEnum variants wrongName wrongCode)
      (De.describedEnum variants' wrongName wrongCode) Q := by
  refine deserializeEnum (Agree.bind identifier_peeked fun ident => ?_) hQ
  cases ident.nameOrCode with
  | name symbol =>
      dsimp only
      rcases find_variant h fun name _ => name == symbol.value with ⟨hv, hw⟩ | ⟨v, w, hv, hw, hagrees⟩
      · rw [hv, hw]
        exact .custom
      · rw [hv, hw]
        exact hagrees.agrees
  | code code =>
      dsimp only
      rcases find_variant h fun _ c => c == code with ⟨hv, hw⟩ | ⟨v, w, hv, hw, hagrees⟩
      · rw [hv, hw]
        exact .custom
      · rw [hv, hw]
        exact hagrees.agrees

/-! ## Errors, delivery states and termini -/

theorem fields : Nested strict De.fields De.fields := deserializeMap _ symbol.nested value

theorem symbolEnum (tryFrom : String → Option α) (name : String) :
    Reads strict (De.symbolEnum tryFrom name) (De.symbolEnum tryFrom name) := by
  intro e
  refine (symbol e).bind fun v => ?_
  cases tryFrom v.value with
  | none => exact .custom
  | some v => exact .pure fun _ h => h

theorem role : Reads strict De.role De.role := fun e =>
  (Reads.parseBool e).bind fun _ => .pure fun _ h => h

theorem senderSettleMode : Reads strict De.senderSettleMode De.senderSettleMode := by
  intro e
  refine (Reads.parseU8 e).bind fun v => ?_
  split
  · exact .pure fun _ h => h
  · exact .pure fun _ h => h
  · exact .pure fun _ h => h
  · exact .custom

theorem receiverSettleMode : Reads strict De.receiverSettleMode De.receiverSettleMode := by
  intro e
  refine (Reads.parseU8 e).bind fun v => ?_
  split
  · exact .pure fun _ h => h
  · exact .pure fun _ h => h
  · exact .custom

theorem errorCondition : Reads strict De.errorCondition De.errorCondition := fun e =>
  (symbol e).bind fun _ => .pure fun _ h => h

open FieldsAgree

theorem error : Described strict De.error De.error :=
  .composite ((required errorCondition.plain).bind fun _ =>
    (optional Reads.deserializeString.plain).bind fun _ =>
    (optional fields.plain).bind fun _ => pure _) _ _

theorem received : Described strict De.received De.received :=
  .composite ((required Reads.parseU32.plain).bind fun _ =>
    (required Reads.parseU64.plain).bind fun _ => pure _) _ _

theorem accepted : Described strict De.accepted De.accepted := .composite (pure _) _ _

theorem rejected : Described strict De.rejected De.rejected :=
  .composite ((optional error.plain).bind fun _ => pure _) _ _

theorem released : Described strict De.released De.released := .composite (pure _) _ _

theorem modified : Described strict De.modified De.modified :=
  .composite ((optional Reads.parseBool.plain).bind fun _ =>
    (optional Reads.parseBool.plain).bind fun _ =>
    (optional fields.plain).bind fun _ => pure _) _ _

theorem declared : Described strict De.declared De.declared :=
  .composite ((required Reads.deserializeByteBuf.plain).bind fun _ => pure _) _ _

/-- A variant that wraps a composite. -/
theorem Described.variant {p : De SliceReader α} {q : De IoReader α} (h : Described strict p q)
    (f : α → β) (name : String) (code : UInt64) :
    VariantAgrees strict (fun _ => At strict none 0) (name, code, do return f (← p))
      (name, code, do return f (← q)) :=
  ⟨rfl, rfl, Agree.bind h fun _ => .pure fun _ ht => ht⟩

theorem at_enumType (k : Nat) (_ : α) (t : Deserializer IoReader) (enumType : EnumType)
    (h : At strict none k t) : At strict none k { t with enumType } :=
  ⟨h.code, h.peeked⟩

theorem outcome : Plain strict De.outcome De.outcome :=
  describedEnum
    (.cons (accepted.variant _ _ _) <| .cons (rejected.variant _ _ _) <|
      .cons (released.variant _ _ _) <| .cons (modified.variant _ _ _) <|
      .cons (declared.variant _ _ _) .nil)
    (at_enumType 0) _ _

theorem transactionalState : Described strict De.transactionalState De.transactionalState :=
  .composite ((required Reads.deserializeByteBuf.plain).bind fun _ =>
    (optional outcome).bind fun _ => pure _) _ _

theorem deliveryState : Plain strict De.deliveryState De.deliveryState :=
  describedEnum
    (.cons (received.variant _ _ _) <| .cons (accepted.variant _ _ _) <|
      .cons (rejected.variant _ _ _) <| .cons (released.variant _ _ _) <|
      .cons (modified.variant _ _ _) <| .cons (declared.variant _ _ _) <|
      .cons (transactionalState.variant _ _ _) .nil)
    (at_enumType 0) _ _

/-- A durability may be a described value, which is looked at and left. -/
theorem terminusDurability : Plain false De.terminusDurability De.terminusDurability := by
  refine deserializeEnum (Agree.bind identifier_peeked fun ident => ?_) (at_enumType 0)
  have hpure : ∀ v : TerminusDurability, Agree (Peeked false) (Pure.pure v) (Pure.pure v)
      fun _ => At false none 0 := fun v => .pure fun t h => ⟨h.code, by simp⟩
  split
  · dsimp only
    split <;> first | exact hpure _ | exact .custom
  · dsimp only
    split <;> first | exact hpure _ | exact .custom
  · dsimp only
    split <;> first | exact hpure _ | exact .custom
  · exact hpure _
  · exact hpure _
  · exact hpure _
  · exact .custom

theorem source : Described false De.source De.source :=
  .composite ((optional Reads.deserializeString.plain).bind fun _ =>
    (defaulted _ terminusDurability).bind fun _ =>
    (defaulted _ (symbolEnum _ _).plain).bind fun _ =>
    (defaulted _ Reads.parseU32.plain).bind fun _ =>
    (defaulted _ Reads.parseBool.plain).bind fun _ =>
    (optional fields.plain).bind fun _ =>
    (optional (symbolEnum _ _).plain).bind fun _ =>
    (optional fields.plain).bind fun _ =>
    (optional outcome).bind fun _ =>
    (multiple symbol.nested).bind fun _ =>
    (multiple symbol.nested).bind fun _ =>
    pure _) _ _

theorem target : Described false De.target De.target :=
  .composite ((optional Reads.deserializeString.plain).bind fun _ =>
    (defaulted _ terminusDurability).bind fun _ =>
    (defaulted _ (symbolEnum _ _).plain).bind fun _ =>
    (defaulted _ Reads.parseU32.plain).bind fun _ =>
    (defaulted _ Reads.parseBool.plain).bind fun _ =>
    (optional fields.plain).bind fun _ =>
    (multiple symbol.nested).bind fun _ =>
    pure _) _ _

theorem coordinator : Described strict De.coordinator De.coordinator :=
  .composite ((multiple (symbolEnum _ _).nested).bind fun _ =>
    pure _) _ _

theorem targetArchetype : Plain false De.targetArchetype De.targetArchetype :=
  describedEnum (.cons (target.variant _ _ _) <| .cons (coordinator.variant _ _ _) .nil)
    (at_enumType 0) _ _

/-! ## Performatives -/

theorem unsettled : Plain strict De.unsettled De.unsettled :=
  Plain.deserializeMap _ Reads.deserializeByteBuf.plain (Plain.deserializeOption deliveryState)

theorem openPerformative : Described strict De.openPerformative De.openPerformative :=
  .composite ((required Reads.deserializeString.plain).bind fun _ =>
    (optional Reads.deserializeString.plain).bind fun _ =>
    (defaulted _ Reads.parseU32.plain).bind fun _ =>
    (defaulted _ Reads.parseU16.plain).bind fun _ =>
    (optional Reads.parseU32.plain).bind fun _ =>
    (multiple symbol.nested).bind fun _ =>
    (multiple symbol.nested).bind fun _ =>
    (multiple symbol.nested).bind fun _ =>
    (multiple symbol.nested).bind fun _ =>
    (optional fields.plain).bind fun _ =>
    pure _) _ _

theorem beginPerformative : Described strict De.beginPerformative De.beginPerformative :=
  .composite ((optional Reads.parseU16.plain).bind fun _ =>
    (required Reads.parseU32.plain).bind fun _ =>
    (required Reads.parseU32.plain).bind fun _ =>
    (required Reads.parseU32.plain).bind fun _ =>
    (defaulted _ Reads.parseU32.plain).bind fun _ =>
    (multiple symbol.nested).bind fun _ =>
    (multiple symbol.nested).bind fun _ =>
    (optional fields.plain).bind fun _ =>
    pure _) _ _

theorem attach : Described false De.attach De.attach :=
  .composite ((required Reads.deserializeString.plain).bind fun _ =>
    (required Reads.parseU32.plain).bind fun _ =>
    (required role.plain).bind fun _ =>
    (defaulted _ senderSettleMode.plain).bind fun _ =>
    (defaulted _ receiverSettleMode.plain).bind fun _ =>
    (optional source.plain).bind fun _ =>
    (optional targetArchetype).bind fun _ =>
    (optional unsettled).bind fun _ =>
    (defaulted _ Reads.parseBool.plain).bind fun _ =>
    (optional Reads.parseU32.plain).bind fun _ =>
    (optional Reads.parseU64.plain).bind fun _ =>
    (multiple symbol.nested).bind fun _ =>
    (multiple symbol.nested).bind fun _ =>
    (optional fields.plain).bind fun _ =>
    pure _) _ _

theorem flow : Described strict De.flow De.flow :=
  .composite ((optional Reads.parseU32.plain).bind fun _ =>
    (required Reads.parseU32.plain).bind fun _ =>
    (required Reads.parseU32.plain).bind fun _ =>
    (required Reads.parseU32.plain).bind fun _ =>
    (optional Reads.parseU32.plain).bind fun _ =>
    (optional Reads.parseU32.plain).bind fun _ =>
    (optional Reads.parseU32.plain).bind fun _ =>
    (optional Reads.parseU32.plain).bind fun _ =>
    (defaulted _ Reads.parseBool.plain).bind fun _ =>
    (defaulted _ Reads.parseBool.plain).bind fun _ =>
    (optional fields.plain).bind fun _ =>
    pure _) _ _

theorem transfer : Described strict De.transfer De.transfer :=
  .composite ((required Reads.parseU32.plain).bind fun _ =>
    (optional Reads.parseU32.plain).bind fun _ =>
    (optional Reads.deserializeByteBuf.plain).bind fun _ =>
    (optional Reads.parseU32.plain).bind fun _ =>
    (optional Reads.parseBool.plain).bind fun _ =>
    (defaulted _ Reads.parseBool.plain).bind fun _ =>
    (optional receiverSettleMode.plain).bind fun _ =>
    (optional deliveryState).bind fun _ =>
    (defaulted _ Reads.parseBool.plain).bind fun _ =>
    (defaulted _ Reads.parseBool.plain).bind fun _ =>
    (defaulted _ Reads.parseBool.plain).bind fun _ =>
    pure _) _ _

theorem disposition : Described strict De.disposition De.disposition :=
  .composite ((required role.plain).bind fun _ =>
    (required Reads.parseU32.plain).bind fun _ =>
    (optional Reads.parseU32.plain).bind fun _ =>
    (defaulted _ Reads.parseBool.plain).bind fun _ =>
    (optional deliveryState).bind fun _ =>
    (defaulted _ Reads.parseBool.plain).bind fun _ =>
    pure _) _ _

theorem detach : Described strict De.detach De.detach :=
  .composite ((required Reads.parseU32.plain).bind fun _ =>
    (defaulted _ Reads.parseBool.plain).bind fun _ =>
    (optional error.plain).bind fun _ =>
    pure _) _ _

theorem endPerformative : Described strict De.endPerformative De.endPerformative :=
  .composite ((optional error.plain).bind fun _ =>
    pure _) _ _

theorem close : Described strict De.close De.close :=
  .composite ((optional error.plain).bind fun _ =>
    pure _) _ _

end ReadersAgree

def Performative.isAttach : Performative → Bool
  | .attach _ => true
  | _ => false

open ReadersAgree in
/-- Nothing is held back in the buffer behind a performative other than an attach. -/
theorem ReadersAgree.performative : Agree (At true none 1) De.performative De.performative
    fun a t => a.isAttach = false → At true none 0 t := by
  have hvariant : ∀ {γ : Type} {p : De SliceReader γ} {q : De IoReader γ} (h : Described true p q)
      (f : γ → Performative) (name : String) (code : UInt64),
      VariantAgrees true (fun (a : Performative) t => a.isAttach = false → At true none 0 t)
        (name, code, do return f (← p)) (name, code, do return f (← q)) := fun h f name code =>
    ⟨rfl, rfl, Agree.bind h fun _ => .pure fun _ ht _ => ht⟩
  have hattach : VariantAgrees true (fun (a : Performative) t => a.isAttach = false → At true none 0 t)
      ("amqp:attach:list", 0x12, do return .attach (← De.attach))
      ("amqp:attach:list", 0x12, do return .attach (← De.attach)) := by
    refine ⟨rfl, rfl, Agree.bind (attach.pre fun t h => ⟨h.code, by simp⟩) fun _ => .pure ?_⟩
    rintro t _ ⟨⟩
  exact describedEnum
    (.cons (hvariant openPerformative _ _ _) <| .cons (hvariant beginPerformative _ _ _) <|
      .cons hattach <| .cons (hvariant flow _ _ _) <| .cons (hvariant transfer _ _ _) <|
      .cons (hvariant disposition _ _ _) <| .cons (hvariant detach _ _ _) <|
      .cons (hvariant endPerformative _ _ _) <| .cons (hvariant close _ _ _) .nil)
    (fun _ _ _ h hother => ⟨(h hother).code, (h hother).peeked⟩) _ _

end Fe2o3Amqp
