import Fe2o3Amqp.Serde.Arrays
import Fe2o3Amqp.Serde.CompositeRoundTrip
import Fe2o3Amqp.Types.Codec

/-!
# Round trip of the AMQP types

Each type is read back from the bytes it is written as, up to the fields marked `multiple`, where
an empty array is read as absent.  The bounds are those of the decoder; a custom error condition
must not be spelled like one of the specification, which the decoder would take it for.
-/

namespace Fe2o3Amqp

/-! ## Common forms -/

namespace RoundTrips

variable {α β : Type} {e : EnumType}

/-- A value that always writes the same bytes. -/
theorem exactly {t : Ser} {leaves : Option NonNativeType} {d : De SliceReader α} {bytes : Bytes}
    {a : α} (hwrites : Writes t leaves (· = bytes)) (hstart : Starts (· ≠ .null) bytes)
    (hdecodes : Decodes e d bytes a) : RoundTrips e t d a := by
  refine hwrites.serializes.mono ?_
  rintro _ rfl
  exact ⟨hstart, hdecodes⟩

theorem bool (v : Bool) : RoundTrips e (.bool v) De.parseBool v :=
  exactly (.bool v) (.bool (by simp) (by simp)) (.parseBool v)

theorem u8 (v : UInt8) : RoundTrips e (.u8 v) De.parseU8 v :=
  exactly (.u8 v) (.code (by simp)) (.parseU8 v)

theorem u16 (v : UInt16) : RoundTrips e (.u16 v) De.parseU16 v :=
  exactly (.u16 v) (.code (by simp)) (.parseU16 v)

theorem u32 (v : UInt32) : RoundTrips e (.u32 v) De.parseU32 v :=
  exactly (.u32 v) (.u32 (by simp) (by simp) (by simp)) (.parseU32 v)

theorem u64 (v : UInt64) : RoundTrips e (.u64 v) De.parseU64 v :=
  exactly (.u64 v) (.u64 (by simp) (by simp) (by simp)) (.parseU64 v)

theorem str (v : String) : RoundTrips e (.str v) De.deserializeString v := by
  refine (Writes.str v).serializes.mono ?_
  rintro _ ⟨hlen, rfl⟩
  exact ⟨.sized (by simp) (by simp), .deserializeString hlen⟩

theorem bytes (v : Bytes) : RoundTrips e (.bytes v) De.deserializeByteBuf v := by
  refine (Writes.bytes v).serializes.mono ?_
  rintro _ ⟨hlen, rfl⟩
  exact ⟨.sized (by simp) (by simp), .deserializeByteBuf hlen⟩

theorem symbol (v : Symbol) : RoundTrips e v.toSer De.symbol v := by
  refine (Writes.symbol v).serializes.mono ?_
  rintro _ ⟨hlen, rfl⟩
  exact ⟨.sized (by simp) (by simp), .symbol hlen⟩

/-- A decoder that converts what another one reads. -/
theorem convert {t : Ser} {d : De SliceReader α} {d' : De SliceReader β} {a : α} {b : β}
    (h : RoundTrips e t d a)
    (hd : ∀ de de' : Deserializer SliceReader, d de = .ok a de' → d' de = .ok b de') :
    RoundTrips e t d' b := by
  refine Serializes.mono h ?_
  rintro bytes ⟨hstart, hdecodes⟩
  exact ⟨hstart, fun de suffix hnative helem henum =>
    hd _ _ (hdecodes de suffix hnative helem henum)⟩

theorem wrap {t : Ser} {d : De SliceReader α} {a : α} (f : α → β) (h : RoundTrips e t d a) :
    RoundTrips e t (do return f (← d)) (f a) :=
  h.convert fun de de' hrun => by simp only [De.bind_run, hrun, De.pure_run]

theorem newtype {t : Ser} {d : De SliceReader α} {a : α} (h : RoundTrips e t d a) :
    RoundTrips e (newtypeToSer t) d a := by
  intro se se' hse ht
  simp only [newtypeToSer, Ser.serialize, SizeSerializer.enterNewtype] at ht
  exact h se se' hse ht

/-- An enumeration that is written as a symbol. -/
theorem symbolEnum {tryFrom : String → Option α} {name text : String} {v : α}
    (h : tryFrom text = some v) : RoundTrips e (Symbol.toSer ⟨text⟩) (De.symbolEnum tryFrom name) v :=
  (symbol ⟨text⟩).convert fun de de' hrun => by
    simp only [De.symbolEnum, De.bind_run, hrun, h, De.pure_run]

end RoundTrips

/-- What the values of a map of fields must be like to survive. -/
structure Fields.Codable (v : Fields) : Prop where
  length : v.length ≤ 32768
  distinct : OrderedMap.DistinctKeys (· == ·) v
  values : ∀ entry ∈ v, entry.2.Codable

namespace RoundTrips

variable {α : Type} {e : EnumType}

/-- A map; the keys must leave no flag behind, for the value is written by the same serializer. -/
theorem orderedMap {K V : Type} {key : K → Ser} {value : V → Ser} {eq : K → K → Bool}
    {dk : De SliceReader K} {dv : De SliceReader V} {m : OrderedMap K V} (hlength : m.length ≤ 32768)
    (hdistinct : OrderedMap.DistinctKeys eq m)
    (hkey : ∀ entry ∈ m,
      Writes (key entry.1) none fun bytes => bytes ≠ [] ∧ Decodes e dk bytes entry.1)
    (hvalue : ∀ entry ∈ m,
      Serializes (value entry.2) fun bytes => bytes ≠ [] ∧ Decodes e dv bytes entry.2) :
    RoundTrips e (m.toSer key value) (De.deserializeMap eq dk dv) m := by
  refine (Writes.map key value (fun k bytes => bytes ≠ [] ∧ Decodes e dk bytes k)
    (fun v bytes => bytes ≠ [] ∧ Decodes e dv bytes v) hkey hvalue).serializes.mono ?_
  rintro _ ⟨pieces, hpieces, hlen, rfl⟩
  refine ⟨.compound (by simp) (by simp), ?_⟩
  exact Decodes.map hpieces hdistinct (by simp only [maxArrayCount]; omega) hlen

theorem fields {v : Fields} (h : Fields.Codable v) : RoundTrips e (Fields.toSer v) De.fields v := by
  refine orderedMap h.length h.distinct (fun entry _ => ?_) fun entry hentry => ?_
  · refine (Writes.symbol entry.1).mono ?_
    rintro _ ⟨hlen, rfl⟩
    have hstart : Starts (fun _ => True) (Wire.symbol entry.1) := .sized trivial trivial
    exact ⟨hstart.ne_nil, .symbol hlen⟩
  · refine (Value.writes (h.values entry hentry)).serializes.mono ?_
    intro bytes hread
    exact ⟨hread.ne_nil, hread.value e⟩

/-- An array of symbols, or of values that are written as symbols. -/
theorem symbolArray (toSymbol : α → Symbol) {d : De SliceReader α} {vs : List α}
    (hd : ∀ v ∈ vs, ∀ de de' : Deserializer SliceReader,
      De.symbol de = .ok (toSymbol v) de' → d de = .ok v de')
    (hcap : vs.length ≤ maxArrayCount) :
    RoundTrips e (arrayToSer (Symbol.toSer ∘ toSymbol) vs) (De.array d) vs := by
  have hdecodes (v) (hv : v ∈ vs)
      (hlen : (Wire.symbolElement (toSymbol v)).length ≤ u32MaxMinus4) :
      DecodesElement .array .sym32 d (Wire.symbolElement (toSymbol v)) v :=
    fun de suffix hnative helem henum =>
      hd v hv _ _ (DecodesElement.symbol hlen de suffix hnative helem henum)
  have hpos (v) (_ : v ∈ vs) : Wire.symbolElement (toSymbol v) ≠ [] := by
    rw [Wire.symbolElement, ← List.length_pos_iff, List.length_append, BigEndian.length_encode]
    omega
  refine (Serializes.array_decodes (e := e) (fun v _ => .symbol (toSymbol v)) hdecodes hpos hcap).mono ?_
  rintro bytes ⟨hstart, hread⟩
  refine ⟨hstart.mono ?_, hread⟩
  rintro code (rfl | rfl) <;> simp

theorem symbols {vs : List Symbol} (hcap : vs.length ≤ maxArrayCount) :
    RoundTrips e (symbolArrayToSer vs) (De.array De.symbol) vs :=
  symbolArray id (fun _ _ _ _ h => h) hcap

end RoundTrips

/-! ## Enumerations of composites -/

namespace De

variable {de : Deserializer SliceReader}

theorem peekBytes_run (de : Deserializer SliceReader) (bytes suffix : Bytes) (text : String) {n : Nat} (h : bytes.length = n) :
    peekBytes n text (de.at (bytes ++ suffix)) = .ok bytes (de.at (bytes ++ suffix)) := by
  subst h
  simp [peekBytes, read, Read.peekBytes, Deserializer.at]

/-- The code of a described value is looked at and left in place. -/
theorem parseDescribedIdentifier_run (code : UInt64) (rest : Bytes) :
    parseDescribedIdentifier (de.at (Wire.descriptor (.code code) ++ rest))
      = .ok (.u64 code) (de.at (Wire.descriptor (.code code) ++ rest)) := by
  have hmark (second : EncodingCodes) (rest : Bytes) :
      peekBytes 2 "parse_described_identifier"
        (de.at (EncodingCodes.describedType.toU8 :: second.toU8 :: rest))
        = .ok [EncodingCodes.describedType.toU8, second.toU8]
            (de.at (EncodingCodes.describedType.toU8 :: second.toU8 :: rest)) :=
    peekBytes_run de [EncodingCodes.describedType.toU8, second.toU8] rest _ rfl
  simp only [Wire.descriptor, Wire.u64]
  split
  next hzero => simp [parseDescribedIdentifier, hmark, hzero]
  next =>
    split
    next hsmall =>
      have hpeek := peekBytes_run de [EncodingCodes.describedType.toU8,
        EncodingCodes.smallUlong.toU8, code.toUInt8] rest "" (n := 3) rfl
      have hcode : code.toUInt8.toUInt64 = code := by
        apply UInt64.toNat_inj.mp
        simp only [UInt8.toNat_toUInt64, UInt64.toNat_toUInt8]
        omega
      simp only [List.cons_append, List.nil_append] at hpeek
      simp [parseDescribedIdentifier, hmark, hpeek, hcode]
    next =>
      have hpeek := peekBytes_run de (EncodingCodes.describedType.toU8 ::
        EncodingCodes.ulong.toU8 :: BigEndian.encode 8 code.toNat) rest "" (n := 10) (by simp)
      simp only [List.cons_append] at hpeek
      simp [parseDescribedIdentifier, hmark, hpeek]

/-- So does a visitor that asks for an identifier. -/
theorem deserializeIdentifier_descriptor_run (helem : de.elemFormatCode = none)
    (henum : de.enumType = .none) (code : UInt64) (rest : Bytes) :
    deserializeIdentifier (de.at (Wire.descriptor (.code code) ++ rest))
      = .ok (.u64 code) (de.at (Wire.descriptor (.code code) ++ rest)) := by
  have hlook : getElemCodeOrPeekByte "" (de.at (Wire.descriptor (.code code) ++ rest))
      = .ok EncodingCodes.describedType.toU8 (de.at (Wire.descriptor (.code code) ++ rest)) := by
    simp [Wire.descriptor, helem]
  simp [deserializeIdentifier, henum, hlook, parseDescribedIdentifier_run]

/-- The variant is the one whose code the value has. -/
theorem describedEnum_run {α : Type} {variants : List (String × UInt64 × De SliceReader α)}
    {wrongName : String} {wrongCode : UInt64 → String} {code : UInt64}
    {entry : String × UInt64 × De SliceReader α}
    (hfind : variants.find? (·.2.1 == code) = some entry) (helem : de.elemFormatCode = none)
    (henum : de.enumType = .none) {body suffix : Bytes} {a : α}
    (h : entry.2.2 (de.at (Wire.descriptor (.code code) ++ body)) = .ok a (de.at suffix)) :
    describedEnum variants wrongName wrongCode (de.at (Wire.descriptor (.code code) ++ body))
      = .ok a (de.at suffix) := by
  have hident := deserializeIdentifier_descriptor_run helem henum code body
  have hbytes : Wire.descriptor (.code code) ++ body
      = EncodingCodes.describedType.toU8 :: (Wire.u64 code ++ body) := rfl
  rw [hbytes] at hident h ⊢
  refine deserializeEnum_other_run _ helem (by simp) suffix ?_
  simp only [bind_run, hident, Ident.nameOrCode, hfind, h]

end De

/-- A variant of an enumeration is chosen by its code. -/
theorem RoundTrips.variant {α β : Type} {code : UInt64} {t : Ser} {d : De SliceReader α} {a : α}
    {variants : List (String × UInt64 × De SliceReader β)} {wrongName : String}
    {wrongCode : UInt64 → String} {name : String} (f : α → β) (h : CompositeRoundTrips code t d a)
    (hfind : variants.find? (·.2.1 == code) = some (name, code, do return f (← d))) :
    RoundTrips .none t (De.describedEnum variants wrongName wrongCode) (f a) := by
  refine h.serializes.mono ?_
  rintro _ ⟨⟨body, rfl⟩, hdecodes⟩
  refine ⟨(Starts.descriptor (by simp)).append body, ?_⟩
  intro de suffix hnative helem henum
  have hrun := hdecodes.wrap f de suffix hnative helem henum
  rw [List.append_assoc] at hrun ⊢
  exact De.describedEnum_run hfind helem henum hrun

/-! ## Errors -/

/-- A custom condition is none of those the specification names. -/
def ErrorCondition.Proper : ErrorCondition → Prop
  | .custom symbol =>
      AmqpError.tryFrom symbol.value = none ∧ ConnectionError.tryFrom symbol.value = none ∧
        SessionError.tryFrom symbol.value = none ∧ LinkError.tryFrom symbol.value = none ∧
        TransactionError.tryFrom symbol.value = none
  | _ => True

theorem ErrorCondition.ofSymbol_symbol {v : ErrorCondition} (h : v.Proper) :
    ofSymbol v.symbol = v := by
  cases v with
  | custom symbol =>
      obtain ⟨hamqp, hconnection, hsession, hlink, htransaction⟩ := h
      simp [ofSymbol, ErrorCondition.symbol, hamqp, hconnection, hsession, hlink, htransaction]
  | amqpError error => cases error <;> rfl
  | connectionError error => cases error <;> rfl
  | sessionError error => cases error <;> rfl
  | linkError error => cases error <;> rfl
  | transactionError error => cases error <;> rfl

structure Error.Codable (v : Error) : Prop where
  condition : v.condition.Proper
  info : ∀ info, v.info = some info → Fields.Codable info

theorem Error.roundTrips {v : Error} (h : v.Codable) :
    CompositeRoundTrips 0x1d v.toSer De.error v := by
  have hcondition : RoundTrips .none v.condition.toSer De.errorCondition v.condition := by
    have hsymbol := (RoundTrips.symbol (e := .none) v.condition.symbol).wrap ErrorCondition.ofSymbol
    rwa [ErrorCondition.ofSymbol_symbol h.condition] at hsymbol
  exact FieldsRoundTrip.composite
    (.cons (.required hcondition)
    (.cons (.optional fun _ _ => .str _)
    (.cons (.optional fun info hinfo => .fields (h.info info hinfo)) (.nil _))))

/-! ## Delivery states and outcomes -/

def Rejected.Codable (v : Rejected) : Prop := ∀ error, v.error = some error → error.Codable

def Modified.Codable (v : Modified) : Prop :=
  ∀ annotations, v.messageAnnotations = some annotations → Fields.Codable annotations

def Outcome.Codable : Outcome → Prop
  | .rejected v => v.Codable
  | .modified v => v.Codable
  | _ => True

def TransactionalState.Codable (v : TransactionalState) : Prop :=
  ∀ outcome, v.outcome = some outcome → outcome.Codable

def DeliveryState.Codable : DeliveryState → Prop
  | .rejected v => v.Codable
  | .modified v => v.Codable
  | .transactionalState v => v.Codable
  | _ => True

theorem Received.roundTrips (v : Received) : CompositeRoundTrips 0x23 v.toSer De.received v :=
  FieldsRoundTrip.composite (.cons (.required (.u32 _)) (.cons (.required (.u64 _)) (.nil _)))

theorem accepted_roundTrips : CompositeRoundTrips 0x24 acceptedToSer De.accepted () :=
  FieldsRoundTrip.composite (.nil _)

theorem Rejected.roundTrips {v : Rejected} (h : v.Codable) :
    CompositeRoundTrips 0x25 v.toSer De.rejected v :=
  FieldsRoundTrip.composite
    (.cons (.optional fun error herror => (Error.roundTrips (h error herror)).roundTrips) (.nil _))

theorem released_roundTrips : CompositeRoundTrips 0x26 releasedToSer De.released () :=
  FieldsRoundTrip.composite (.nil _)

theorem Modified.roundTrips {v : Modified} (h : v.Codable) :
    CompositeRoundTrips 0x27 v.toSer De.modified v :=
  FieldsRoundTrip.composite
    (.cons (.optional fun _ _ => .bool _)
    (.cons (.optional fun _ _ => .bool _)
    (.cons (.optional fun annotations hannotations => .fields (h annotations hannotations))
      (.nil _))))

theorem Declared.roundTrips (v : Declared) : CompositeRoundTrips 0x33 v.toSer De.declared v :=
  FieldsRoundTrip.composite (.cons (.required (.bytes _)) (.nil _))

theorem Outcome.roundTrips {v : Outcome} (h : v.Codable) :
    RoundTrips .none v.toSer De.outcome v := by
  cases v with
  | accepted => exact .variant (fun _ => Outcome.accepted) accepted_roundTrips rfl
  | rejected v => exact .variant Outcome.rejected (Rejected.roundTrips h) rfl
  | released => exact .variant (fun _ => Outcome.released) released_roundTrips rfl
  | modified v => exact .variant Outcome.modified (Modified.roundTrips h) rfl
  | declared v => exact .variant Outcome.declared (Declared.roundTrips v) rfl

theorem TransactionalState.roundTrips {v : TransactionalState} (h : v.Codable) :
    CompositeRoundTrips 0x34 v.toSer De.transactionalState v :=
  FieldsRoundTrip.composite
    (.cons (.required (.bytes _))
    (.cons (.optional fun outcome houtcome => Outcome.roundTrips (h outcome houtcome)) (.nil _)))

theorem DeliveryState.roundTrips {v : DeliveryState} (h : v.Codable) :
    RoundTrips .none v.toSer De.deliveryState v := by
  cases v with
  | received v => exact .variant DeliveryState.received (Received.roundTrips v) rfl
  | accepted => exact .variant (fun _ => DeliveryState.accepted) accepted_roundTrips rfl
  | rejected v => exact .variant DeliveryState.rejected (Rejected.roundTrips h) rfl
  | released => exact .variant (fun _ => DeliveryState.released) released_roundTrips rfl
  | modified v => exact .variant DeliveryState.modified (Modified.roundTrips h) rfl
  | declared v => exact .variant DeliveryState.declared (Declared.roundTrips v) rfl
  | transactionalState v =>
      exact .variant DeliveryState.transactionalState (TransactionalState.roundTrips h) rfl

/-! ## Termini -/

theorem TerminusDurability.roundTrips (v : TerminusDurability) :
    RoundTrips .none v.toSer De.terminusDurability v := by
  refine .exactly (.unitVariant v.index) (.u32 (by simp) (by simp) (by simp)) ?_
  intro de suffix hnative helem henum
  have hread := Decodes.parseU32 v.index de suffix hnative helem henum
  have hstart : Starts (fun code => code = .uint0 ∨ code = .smallUint ∨ code = .uint)
      (Wire.u32 v.index) := .u32 (.inl rfl) (.inr (.inl rfl)) (.inr (.inr rfl))
  obtain ⟨code, rest, hbytes, hcode⟩ := hstart
  rw [hbytes, List.cons_append] at hread ⊢
  have hident : De.deserializeIdentifier (de.at (code.toU8 :: (rest ++ suffix)))
      = .ok (.u32 v.index) (de.at suffix) := by
    rcases hcode with rfl | rfl | rfl <;> simp [De.deserializeIdentifier, henum, helem, hread]
  refine De.deserializeEnum_other_run _ helem ?_ suffix ?_
  · rcases hcode with rfl | rfl | rfl <;> simp
  · simp only [De.bind_run, hident]
    cases v <;> rfl

/-- The arrays of a field marked `multiple` have no more elements than the decoder takes. -/
def MultipleCodable {α : Type} (v : Option (List α)) : Prop := ∀ vs, v = some vs → vs.length ≤ 65536

/-- How a field marked `multiple` is read back. -/
def readMultiple {α : Type} (v : Option (List α)) : Option (List α) :=
  v.filter fun vs => !vs.isEmpty

theorem FieldRoundTrips.symbols {name : String} {v : Option (List Symbol)} (h : MultipleCodable v) :
    FieldRoundTrips (.optional name (v.map symbolArrayToSer)) (VisitSeq.multiple De.symbol)
      (readMultiple v) :=
  .multiple fun vs hvs => .symbols (h vs hvs)

structure Source.Codable (v : Source) : Prop where
  dynamicNodeProperties : ∀ m, v.dynamicNodeProperties = some m → Fields.Codable m
  filter : ∀ m, v.filter = some m → Fields.Codable m
  defaultOutcome : ∀ outcome, v.defaultOutcome = some outcome → outcome.Codable
  outcomes : MultipleCodable v.outcomes
  capabilities : MultipleCodable v.capabilities

def Source.readBack (v : Source) : Source :=
  { v with outcomes := readMultiple v.outcomes, capabilities := readMultiple v.capabilities }

theorem Source.roundTrips {v : Source} (h : v.Codable) :
    CompositeRoundTrips 0x28 v.toSer De.source v.readBack :=
  FieldsRoundTrip.composite
    (.cons (.optional fun _ _ => .str _)
    (.cons (.defaulted (TerminusDurability.roundTrips _))
    (.cons (.defaulted (.symbolEnum (by cases v.expiryPolicy <;> rfl)))
    (.cons (.defaulted (.u32 _))
    (.cons (.defaulted (.bool _))
    (.cons (.optional fun m hm => .fields (h.dynamicNodeProperties m hm))
    (.cons (.optional fun mode _ => .symbolEnum (by cases mode <;> rfl))
    (.cons (.optional fun m hm => .fields (h.filter m hm))
    (.cons (.optional fun outcome houtcome => Outcome.roundTrips (h.defaultOutcome outcome houtcome))
    (.cons (.symbols h.outcomes)
    (.cons (.symbols h.capabilities) (.nil _))))))))))))

structure Target.Codable (v : Target) : Prop where
  dynamicNodeProperties : ∀ m, v.dynamicNodeProperties = some m → Fields.Codable m
  capabilities : MultipleCodable v.capabilities

def Target.readBack (v : Target) : Target :=
  { v with capabilities := readMultiple v.capabilities }

theorem Target.roundTrips {v : Target} (h : v.Codable) :
    CompositeRoundTrips 0x29 v.toSer De.target v.readBack :=
  FieldsRoundTrip.composite
    (.cons (.optional fun _ _ => .str _)
    (.cons (.defaulted (TerminusDurability.roundTrips _))
    (.cons (.defaulted (.symbolEnum (by cases v.expiryPolicy <;> rfl)))
    (.cons (.defaulted (.u32 _))
    (.cons (.defaulted (.bool _))
    (.cons (.optional fun m hm => .fields (h.dynamicNodeProperties m hm))
    (.cons (.symbols h.capabilities) (.nil _))))))))

def Coordinator.Codable (v : Coordinator) : Prop := MultipleCodable v.capabilities

def Coordinator.readBack (v : Coordinator) : Coordinator :=
  { capabilities := readMultiple v.capabilities }

theorem Coordinator.roundTrips {v : Coordinator} (h : v.Codable) :
    CompositeRoundTrips 0x30 v.toSer De.coordinator v.readBack := by
  refine FieldsRoundTrip.composite (.cons (.multiple fun vs hvs => ?_) (.nil _))
  refine .symbolArray (fun v => ⟨v.symbol⟩) ?_ (h vs hvs)
  intro v _ de de' hrun
  have htry : TxnCapability.tryFrom v.symbol = some v := by cases v <;> rfl
  simp only [De.txnCapability, De.symbolEnum, De.bind_run, hrun, htry, De.pure_run]

def TargetArchetype.Codable : TargetArchetype → Prop
  | .target v => v.Codable
  | .coordinator v => v.Codable

def TargetArchetype.readBack : TargetArchetype → TargetArchetype
  | .target v => .target v.readBack
  | .coordinator v => .coordinator v.readBack

theorem TargetArchetype.roundTrips {v : TargetArchetype} (h : v.Codable) :
    RoundTrips .none v.toSer De.targetArchetype v.readBack := by
  cases v with
  | target v => exact .variant TargetArchetype.target (Target.roundTrips h) rfl
  | coordinator v => exact .variant TargetArchetype.coordinator (Coordinator.roundTrips h) rfl

/-! ## Performatives -/

structure Open.Codable (v : Open) : Prop where
  outgoingLocales : MultipleCodable v.outgoingLocales
  incomingLocales : MultipleCodable v.incomingLocales
  offeredCapabilities : MultipleCodable v.offeredCapabilities
  desiredCapabilities : MultipleCodable v.desiredCapabilities
  properties : ∀ m, v.properties = some m → Fields.Codable m

def Open.readBack (v : Open) : Open :=
  { v with
    outgoingLocales := readMultiple v.outgoingLocales
    incomingLocales := readMultiple v.incomingLocales
    offeredCapabilities := readMultiple v.offeredCapabilities
    desiredCapabilities := readMultiple v.desiredCapabilities }

theorem Open.roundTrips {v : Open} (h : v.Codable) :
    CompositeRoundTrips 0x10 v.toSer De.openPerformative v.readBack :=
  FieldsRoundTrip.composite
    (.cons (.required (.str _))
    (.cons (.optional fun _ _ => .str _)
    (.cons (.defaulted (.newtype (.u32 _)))
    (.cons (.defaulted (.newtype (.u16 _)))
    (.cons (.optional fun _ _ => .u32 _)
    (.cons (.symbols h.outgoingLocales)
    (.cons (.symbols h.incomingLocales)
    (.cons (.symbols h.offeredCapabilities)
    (.cons (.symbols h.desiredCapabilities)
    (.cons (.optional fun m hm => .fields (h.properties m hm)) (.nil _)))))))))))

structure Begin.Codable (v : Begin) : Prop where
  offeredCapabilities : MultipleCodable v.offeredCapabilities
  desiredCapabilities : MultipleCodable v.desiredCapabilities
  properties : ∀ m, v.properties = some m → Fields.Codable m

def Begin.readBack (v : Begin) : Begin :=
  { v with
    offeredCapabilities := readMultiple v.offeredCapabilities
    desiredCapabilities := readMultiple v.desiredCapabilities }

theorem Begin.roundTrips {v : Begin} (h : v.Codable) :
    CompositeRoundTrips 0x11 v.toSer De.beginPerformative v.readBack :=
  FieldsRoundTrip.composite
    (.cons (.optional fun _ _ => .u16 _)
    (.cons (.required (.u32 _))
    (.cons (.required (.u32 _))
    (.cons (.required (.u32 _))
    (.cons (.defaulted (.newtype (.u32 _)))
    (.cons (.symbols h.offeredCapabilities)
    (.cons (.symbols h.desiredCapabilities)
    (.cons (.optional fun m hm => .fields (h.properties m hm)) (.nil _)))))))))

structure UnsettledCodable (v : OrderedMap DeliveryTag (Option DeliveryState)) : Prop where
  length : v.length ≤ 32768
  distinct : OrderedMap.DistinctKeys (· == ·) v
  states : ∀ entry ∈ v, ∀ state, entry.2 = some state → state.Codable

theorem unsettled_roundTrips {v : OrderedMap DeliveryTag (Option DeliveryState)}
    (h : UnsettledCodable v) : RoundTrips .none (unsettledToSer v) De.unsettled v := by
  have hvalue (entry) (hentry : entry ∈ v) : Serializes (optionToSer DeliveryState.toSer entry.2)
      fun bytes => bytes ≠ [] ∧
        Decodes .none (De.deserializeOption De.deliveryState) bytes entry.2 := by
    cases hstate : entry.2 with
    | none =>
        refine Writes.ofNone.serializes.mono ?_
        rintro _ rfl
        exact ⟨by simp, .ofNone _⟩
    | some state =>
        have hread := DeliveryState.roundTrips (h.states entry hentry state hstate)
        refine hread.ofSome.mono ?_
        rintro _ ⟨hstart, hdecodes⟩
        exact ⟨hstart.ne_nil, .ofSome hdecodes hstart⟩
  refine (Writes.map .bytes (optionToSer DeliveryState.toSer) (fun key bytes =>
    key.length ≤ u32MaxMinus4 ∧ bytes = Wire.binary key) (fun state bytes => bytes ≠ [] ∧
      Decodes .none (De.deserializeOption De.deliveryState) bytes state)
    (fun entry _ => Writes.bytes entry.1) hvalue).serializes.mono ?_
  rintro _ ⟨pieces, hpieces, hlen, rfl⟩
  refine ⟨.compound (by simp) (by simp), ?_⟩
  have hlength := h.length
  refine Decodes.map (hpieces.imp ?_) h.distinct (by simp only [maxArrayCount]; omega) hlen
  rintro entry piece ⟨⟨htag, hbytes⟩, hstate⟩
  have hstart : Starts (fun _ => True) (Wire.binary entry.1) := .sized trivial trivial
  rw [hbytes]
  exact ⟨⟨hstart.ne_nil, .deserializeByteBuf htag⟩, hstate⟩

structure Attach.Codable (v : Attach) : Prop where
  source : ∀ source, v.source = some source → source.Codable
  target : ∀ target, v.target = some target → target.Codable
  unsettled : ∀ m, v.unsettled = some m → UnsettledCodable m
  offeredCapabilities : MultipleCodable v.offeredCapabilities
  desiredCapabilities : MultipleCodable v.desiredCapabilities
  properties : ∀ m, v.properties = some m → Fields.Codable m

def Attach.readBack (v : Attach) : Attach :=
  { v with
    source := v.source.map Source.readBack
    target := v.target.map TargetArchetype.readBack
    offeredCapabilities := readMultiple v.offeredCapabilities
    desiredCapabilities := readMultiple v.desiredCapabilities }

theorem SenderSettleMode.roundTrips (v : SenderSettleMode) :
    RoundTrips .none v.toSer De.senderSettleMode v :=
  (RoundTrips.u8 v.toU8).convert fun de de' hrun => by
    simp only [De.senderSettleMode, De.bind_run, hrun]
    cases v <;> rfl

theorem ReceiverSettleMode.roundTrips (v : ReceiverSettleMode) :
    RoundTrips .none v.toSer De.receiverSettleMode v :=
  (RoundTrips.u8 v.toU8).convert fun de de' hrun => by
    simp only [De.receiverSettleMode, De.bind_run, hrun]
    cases v <;> rfl

theorem Role.roundTrips (v : Role) : RoundTrips .none v.toSer De.role v :=
  (RoundTrips.bool v.toBool).convert fun de de' hrun => by
    simp only [De.role, De.bind_run, hrun]
    cases v <;> rfl

theorem Attach.roundTrips {v : Attach} (h : v.Codable) :
    CompositeRoundTrips 0x12 v.toSer De.attach v.readBack :=
  FieldsRoundTrip.composite
    (.cons (.required (.str _))
    (.cons (.required (.newtype (.u32 _)))
    (.cons (.required (Role.roundTrips _))
    (.cons (.defaulted (SenderSettleMode.roundTrips _))
    (.cons (.defaulted (ReceiverSettleMode.roundTrips _))
    (.cons (.optional_map _ fun source hsource =>
      (Source.roundTrips (h.source source hsource)).roundTrips)
    (.cons (.optional_map _ fun target htarget => TargetArchetype.roundTrips (h.target target htarget))
    (.cons (.optional fun m hm => unsettled_roundTrips (h.unsettled m hm))
    (.cons (.defaulted (.bool _))
    (.cons (.optional fun _ _ => .u32 _)
    (.cons (.optional fun _ _ => .u64 _)
    (.cons (.symbols h.offeredCapabilities)
    (.cons (.symbols h.desiredCapabilities)
    (.cons (.optional fun m hm => .fields (h.properties m hm)) (.nil _)))))))))))))))

def Flow.Codable (v : Flow) : Prop := ∀ m, v.properties = some m → Fields.Codable m

theorem Flow.roundTrips {v : Flow} (h : v.Codable) : CompositeRoundTrips 0x13 v.toSer De.flow v :=
  FieldsRoundTrip.composite
    (.cons (.optional fun _ _ => .u32 _)
    (.cons (.required (.u32 _))
    (.cons (.required (.u32 _))
    (.cons (.required (.u32 _))
    (.cons (.optional fun _ _ => .newtype (.u32 _))
    (.cons (.optional fun _ _ => .u32 _)
    (.cons (.optional fun _ _ => .u32 _)
    (.cons (.optional fun _ _ => .u32 _)
    (.cons (.defaulted (.bool _))
    (.cons (.defaulted (.bool _))
    (.cons (.optional fun m hm => .fields (h m hm)) (.nil _))))))))))))

def Transfer.Codable (v : Transfer) : Prop := ∀ state, v.state = some state → state.Codable

theorem Transfer.roundTrips {v : Transfer} (h : v.Codable) :
    CompositeRoundTrips 0x14 v.toSer De.transfer v :=
  FieldsRoundTrip.composite
    (.cons (.required (.newtype (.u32 _)))
    (.cons (.optional fun _ _ => .u32 _)
    (.cons (.optional fun _ _ => .bytes _)
    (.cons (.optional fun _ _ => .u32 _)
    (.cons (.optional fun _ _ => .bool _)
    (.cons (.defaulted (.bool _))
    (.cons (.optional fun _ _ => ReceiverSettleMode.roundTrips _)
    (.cons (.optional fun state hstate => DeliveryState.roundTrips (h state hstate))
    (.cons (.defaulted (.bool _))
    (.cons (.defaulted (.bool _))
    (.cons (.defaulted (.bool _)) (.nil _))))))))))))

def Disposition.Codable (v : Disposition) : Prop := ∀ state, v.state = some state → state.Codable

theorem Disposition.roundTrips {v : Disposition} (h : v.Codable) :
    CompositeRoundTrips 0x15 v.toSer De.disposition v :=
  FieldsRoundTrip.composite
    (.cons (.required (Role.roundTrips _))
    (.cons (.required (.u32 _))
    (.cons (.optional fun _ _ => .u32 _)
    (.cons (.defaulted (.bool _))
    (.cons (.optional fun state hstate => DeliveryState.roundTrips (h state hstate))
    (.cons (.defaulted (.bool _)) (.nil _)))))))

/-- The condition shared by the performatives that end something. -/
def ErrorCodable (v : Option Error) : Prop := ∀ error, v = some error → error.Codable

theorem FieldRoundTrips.error {name : String} {v : Option Error} (h : ErrorCodable v) :
    FieldRoundTrips (.optional name (v.map Error.toSer)) (VisitSeq.optional De.error) v :=
  .optional fun error herror => (Error.roundTrips (h error herror)).roundTrips

theorem Detach.roundTrips {v : Detach} (h : ErrorCodable v.error) :
    CompositeRoundTrips 0x16 v.toSer De.detach v :=
  FieldsRoundTrip.composite
    (.cons (.required (.newtype (.u32 _)))
    (.cons (.defaulted (.bool _))
    (.cons (.error h) (.nil _))))

theorem End.roundTrips {v : End} (h : ErrorCodable v.error) :
    CompositeRoundTrips 0x17 v.toSer De.endPerformative v :=
  FieldsRoundTrip.composite (.cons (.error h) (.nil _))

theorem Close.roundTrips {v : Close} (h : ErrorCodable v.error) :
    CompositeRoundTrips 0x18 v.toSer De.close v :=
  FieldsRoundTrip.composite (.cons (.error h) (.nil _))

namespace Performative

/-- The maps and arrays stay within what the decoder takes, the values in the maps are such that
they survive, and no custom error condition is spelled like one of the specification. -/
def Codable : Performative → Prop
  | .open v => v.Codable
  | .begin v => v.Codable
  | .attach v => v.Codable
  | .flow v => v.Codable
  | .transfer v => v.Codable
  | .disposition v => v.Codable
  | .detach v => ErrorCodable v.error
  | .end v => ErrorCodable v.error
  | .close v => ErrorCodable v.error

/-- The performative with its empty fields marked `multiple` taken as absent. -/
def readBack : Performative → Performative
  | .open v => .open v.readBack
  | .begin v => .begin v.readBack
  | .attach v => .attach v.readBack
  | v => v

/-- `from_slice` at the type of the performative. -/
def fromSliceAs : Performative → Bytes → Except Failure Performative
  | .open _, bytes => .open <$> fromSlice De.openPerformative bytes
  | .begin _, bytes => .begin <$> fromSlice De.beginPerformative bytes
  | .attach _, bytes => .attach <$> fromSlice De.attach bytes
  | .flow _, bytes => .flow <$> fromSlice De.flow bytes
  | .transfer _, bytes => .transfer <$> fromSlice De.transfer bytes
  | .disposition _, bytes => .disposition <$> fromSlice De.disposition bytes
  | .detach _, bytes => .detach <$> fromSlice De.detach bytes
  | .end _, bytes => .end <$> fromSlice De.endPerformative bytes
  | .close _, bytes => .close <$> fromSlice De.close bytes

/-- Both ways to read a performative, given the round trip of its type. -/
theorem fromSlice_of_roundTrips {α : Type} {code : UInt64} {t : Ser} {d : De SliceReader α} {a : α}
    {f : α → Performative} (h : CompositeRoundTrips code t d a)
    (hvariant : RoundTrips .none t De.performative (f a)) {bytes : Bytes}
    (hbytes : toVec t = .ok bytes) :
    f <$> fromSlice d bytes = .ok (f a) ∧ fromSlice De.performative bytes = .ok (f a) := by
  constructor
  · rw [(h.serializes.toVec hbytes).2.fromSlice]
    rfl
  · exact (Serializes.toVec hvariant hbytes).2.fromSlice

/-- Decoding the encoding of a performative, at its own type or as any performative, gives it back
with its empty fields marked `multiple` absent. -/
theorem fromSlice_eq_readBack {p : Performative} (h : p.Codable) {bytes : Bytes}
    (hbytes : toVec p.toSer = .ok bytes) :
    p.fromSliceAs bytes = .ok p.readBack ∧ fromSlice De.performative bytes = .ok p.readBack := by
  cases p with
  | «open» v =>
      exact fromSlice_of_roundTrips (Open.roundTrips h)
        (.variant Performative.open (Open.roundTrips h) rfl) hbytes
  | begin v =>
      exact fromSlice_of_roundTrips (Begin.roundTrips h)
        (.variant Performative.begin (Begin.roundTrips h) rfl) hbytes
  | attach v =>
      exact fromSlice_of_roundTrips (Attach.roundTrips h)
        (.variant Performative.attach (Attach.roundTrips h) rfl) hbytes
  | flow v =>
      exact fromSlice_of_roundTrips (Flow.roundTrips h)
        (.variant Performative.flow (Flow.roundTrips h) rfl) hbytes
  | transfer v =>
      exact fromSlice_of_roundTrips (Transfer.roundTrips h)
        (.variant Performative.transfer (Transfer.roundTrips h) rfl) hbytes
  | disposition v =>
      exact fromSlice_of_roundTrips (Disposition.roundTrips h)
        (.variant Performative.disposition (Disposition.roundTrips h) rfl) hbytes
  | detach v =>
      exact fromSlice_of_roundTrips (Detach.roundTrips h)
        (.variant Performative.detach (Detach.roundTrips h) rfl) hbytes
  | «end» v =>
      exact fromSlice_of_roundTrips (End.roundTrips h)
        (.variant Performative.end (End.roundTrips h) rfl) hbytes
  | close v =>
      exact fromSlice_of_roundTrips (Close.roundTrips h)
        (.variant Performative.close (Close.roundTrips h) rfl) hbytes

/-- An attach with a custom condition in its unsettled map, an empty array and elided defaults. -/
def sampleAttach : Performative :=
  .attach {
    name := "link"
    handle := 0
    role := .sender
    sndSettleMode := .mixed
    rcvSettleMode := .second
    source := none
    target := some (.coordinator { capabilities := some [.localTransactions] })
    unsettled := some [([1], some (.rejected
      { error := some { condition := .custom ⟨"app:full"⟩, description := none, info := none } }))]
    incompleteUnsettled := false
    initialDeliveryCount := some 0
    maxMessageSize := none
    offeredCapabilities := some []
    desiredCapabilities := none
    properties := some [(⟨"k"⟩, .list [.null])] }

theorem sampleAttach_codable : sampleAttach.Codable where
  source := by simp
  target := by simp [TargetArchetype.Codable, Coordinator.Codable, MultipleCodable]
  unsettled := by
    intro m hm
    simp only [Option.some.injEq] at hm
    subst hm
    exact ⟨by simp, by simp [OrderedMap.DistinctKeys], by
      simp only [List.mem_singleton, forall_eq, Option.some.injEq, forall_eq',
        DeliveryState.Codable, Rejected.Codable]
      exact ⟨⟨rfl, rfl, rfl, rfl, rfl⟩, by simp⟩⟩
  offeredCapabilities := by simp [MultipleCodable]
  desiredCapabilities := by simp [MultipleCodable]
  properties := by
    intro m hm
    simp only [Option.some.injEq] at hm
    subst hm
    exact ⟨by simp, by simp [OrderedMap.DistinctKeys], by
      simp only [List.mem_singleton, forall_eq]
      exact ⟨by decide, by decide, by decide, by decide⟩⟩

theorem sampleAttach_fromSlice : ∃ bytes, toVec sampleAttach.toSer = .ok bytes ∧
    fromSlice De.performative bytes = .ok sampleAttach.readBack := by
  obtain ⟨bytes, hbytes⟩ : ∃ bytes, toVec sampleAttach.toSer = .ok bytes := ⟨_, rfl⟩
  exact ⟨bytes, hbytes, (fromSlice_eq_readBack sampleAttach_codable hbytes).2⟩

/-- A custom condition that is spelled like one of the specification is read back as that one. -/
theorem custom_condition_not_read_back :
    ∃ bytes, toVec (End.toSer ⟨some ⟨.custom ⟨"amqp:not-found"⟩, none, none⟩⟩) = .ok bytes ∧
      fromSlice De.endPerformative bytes ≠ .ok ⟨some ⟨.custom ⟨"amqp:not-found"⟩, none, none⟩⟩ := by
  refine ⟨[0, 83, 23, 192, 23, 1, 0, 83, 29, 192, 17, 1, 163, 14, 97, 109, 113, 112, 58, 110, 111,
    116, 45, 102, 111, 117, 110, 100], rfl, ?_⟩
  have hread : fromSlice De.endPerformative [0, 83, 23, 192, 23, 1, 0, 83, 29, 192, 17, 1, 163, 14,
      97, 109, 113, 112, 58, 110, 111, 116, 45, 102, 111, 117, 110, 100]
        = .ok ⟨some ⟨.amqpError .notFound, none, none⟩⟩ := rfl
  rw [hread]
  simp

end Performative

end Fe2o3Amqp
