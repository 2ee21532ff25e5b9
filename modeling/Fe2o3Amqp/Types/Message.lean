import Fe2o3Amqp.Types.Codec

/-!
# Messages

The sections of a message with their encoders and decoders.  A message has no encoding of its own:
its sections are written one after another, and the decoder tells them apart by looking at the
descriptor of the next one.
-/

namespace Fe2o3Amqp

/-! ## Sections -/

structure Priority where
  value : UInt8
deriving DecidableEq, Repr

structure Header where
  durable : Bool
  priority : Priority
  ttl : Option Milliseconds
  firstAcquirer : Bool
  deliveryCount : UInt32

inductive MessageId where
  | ulong (v : UInt64)
  | uuid (bytes : Vector UInt8 16)
  | binary (v : Bytes)
  | string (v : String)

structure Properties where
  messageId : Option MessageId
  userId : Option Bytes
  to' : Option Address
  subject : Option String
  replyTo : Option Address
  correlationId : Option MessageId
  contentType : Option Symbol
  contentEncoding : Option Symbol
  absoluteExpiryTime : Option Int64
  creationTime : Option Int64
  groupId : Option String
  groupSequence : Option SequenceNo
  replyToGroupId : Option String

/-- The keys of annotations. -/
inductive OwnedKey where
  | symbol (v : Symbol)
  | ulong (v : UInt64)
deriving DecidableEq, Repr

abbrev Annotations := OrderedMap OwnedKey Value

/-- Whether a value is neither a list, a map nor an array. -/
def Value.isSimple : Value → Bool
  | .list _ | .map _ | .array _ => false
  | _ => true

/-- The values of application properties. -/
structure SimpleValue where
  value : Value
  simple : value.isSimple = true

abbrev ApplicationProperties := OrderedMap String SimpleValue

inductive Body (α : Type) where
  | value (v : α)
  | data (batch : List Bytes)
  | sequence (batch : List (List α))
  | empty

structure Message (B : Type) where
  header : Option Header
  deliveryAnnotations : Option Annotations
  messageAnnotations : Option Annotations
  properties : Option Properties
  applicationProperties : Option ApplicationProperties
  body : B
  footer : Option Annotations

/-! ## Encoders -/

/-- `#[derive(SerializeComposite)]` of a struct with one field and the basic encoding. -/
def basicToSer (code : UInt64) (field : Ser) : Ser :=
  .tupleStruct .describedBasic [(Descriptor.code code).toSer, field]

def Priority.default : Priority := ⟨4⟩

def Priority.toSer (v : Priority) : Ser := newtypeToSer (.u8 v.value)

def Header.toSer (v : Header) : Ser :=
  compositeToSer 0x70 [
    .defaulted "durable" .bool false v.durable,
    .defaulted "priority" Priority.toSer .default v.priority,
    .optional "ttl" (v.ttl.map .u32),
    .defaulted "first-acquirer" .bool false v.firstAcquirer,
    .defaulted "delivery-count" .u32 0 v.deliveryCount]

def timestampToSer (milliseconds : Int64) : Ser := .newtypeStruct .timestamp (.i64 milliseconds)

def MessageId.toSer : MessageId → Ser
  | .ulong v => .u64 v
  | .uuid bytes => .newtypeStruct .uuid (.bytes bytes.toList)
  | .binary v => .bytes v
  | .string v => .str v

def Properties.toSer (v : Properties) : Ser :=
  compositeToSer 0x73 [
    .optional "message-id" (v.messageId.map MessageId.toSer),
    .optional "user-id" (v.userId.map .bytes),
    .optional "to" (v.to'.map .str),
    .optional "subject" (v.subject.map .str),
    .optional "reply-to" (v.replyTo.map .str),
    .optional "correlation-id" (v.correlationId.map MessageId.toSer),
    .optional "content-type" (v.contentType.map Symbol.toSer),
    .optional "content-encoding" (v.contentEncoding.map Symbol.toSer),
    .optional "absolute-expiry-time" (v.absoluteExpiryTime.map timestampToSer),
    .optional "creation-time" (v.creationTime.map timestampToSer),
    .optional "group-id" (v.groupId.map .str),
    .optional "group-sequence" (v.groupSequence.map .u32),
    .optional "reply-to-group-id" (v.replyToGroupId.map .str)]

def OwnedKey.toSer : OwnedKey → Ser
  | .symbol v => v.toSer
  | .ulong v => .u64 v

def Annotations.toSer (v : Annotations) : Ser := OrderedMap.toSer OwnedKey.toSer Value.toSer v

def SimpleValue.toSer (v : SimpleValue) : Ser := v.value.toSer

def deliveryAnnotationsToSer (v : Annotations) : Ser := basicToSer 0x71 (Annotations.toSer v)

def messageAnnotationsToSer (v : Annotations) : Ser := basicToSer 0x72 (Annotations.toSer v)

def ApplicationProperties.toSer (v : ApplicationProperties) : Ser :=
  basicToSer 0x74 (OrderedMap.toSer .str SimpleValue.toSer v)

def footerToSer (v : Annotations) : Ser := basicToSer 0x78 (Annotations.toSer v)

def dataToSer (v : Bytes) : Ser := basicToSer 0x75 (.bytes v)

def amqpSequenceToSer {α : Type} (toSer : α → Ser) (vs : List α) : Ser :=
  basicToSer 0x76 (vecToSer toSer vs)

def amqpValueToSer {α : Type} (toSer : α → Ser) (v : α) : Ser := basicToSer 0x77 (toSer v)

/-- An empty body is written as a null value. -/
def Body.toSer {α : Type} (toSer : α → Ser) : Body α → Ser
  | .data batch => transparentVecToSer dataToSer batch
  | .sequence batch => transparentVecToSer (amqpSequenceToSer toSer) batch
  | .value v => amqpValueToSer toSer v
  | .empty => amqpValueToSer (fun _ : Unit => .unit) ()

/-- A section that is written when it is there. -/
def optionalSection (name : String) (section' : Option Ser) : List (FieldKey × Ser) :=
  (section'.map fun t => (FieldKey.name name, t)).toList

def Message.toSer {B : Type} (body : B → Ser) (v : Message B) : Ser :=
  .struct .describedBasic (
    optionalSection "header" (v.header.map Header.toSer) ++
    (optionalSection "delivery_annotations" (v.deliveryAnnotations.map deliveryAnnotationsToSer) ++
    (optionalSection "message_annotations" (v.messageAnnotations.map messageAnnotationsToSer) ++
    (optionalSection "properties" (v.properties.map Properties.toSer) ++
    (optionalSection "application_properties"
      (v.applicationProperties.map ApplicationProperties.toSer) ++
    (.name "body", body v.body) ::
    optionalSection "footer" (v.footer.map footerToSer))))))

/-! ## Decoders -/

namespace De

variable {R : Type} [Read R] {α B : Type}

/-- `#[derive(DeserializeComposite)]` of a struct with one field and the basic encoding. -/
def basic (name : String) (code : UInt64) (field : De R α) : De R α :=
  deserializeTupleStruct .describedBasic 2 fun access =>
    StateT.run' (do VisitSeq.descriptor name code; VisitSeq.required field) access

def priority : De R Priority := do return ⟨← parseU8⟩

def header : De R Header :=
  composite "amqp:header:list" 0x70 do
    let durable ← VisitSeq.defaulted false parseBool
    let priority ← VisitSeq.defaulted .default priority
    let ttl ← VisitSeq.optional parseU32
    let firstAcquirer ← VisitSeq.defaulted false parseBool
    let deliveryCount ← VisitSeq.defaulted 0 parseU32
    return { durable, priority, ttl, firstAcquirer, deliveryCount }

/-- An enumeration that is told by the format code of the next value. -/
def codeEnum (variant : EncodingCodes → Option (De R α)) : De R α :=
  deserializeEnum .value do
    match ← deserializeIdentifier with
    | .u8 code =>
        match EncodingCodes.tryFrom code with
        | .ok code =>
            match variant code with
            | some content => content
            | none => custom "Invalid format code"
        | .error _ => custom "Unable to convert to EncodingCodes"
    | _ => invalidType

def messageId : De R MessageId :=
  codeEnum fun
    | .ulong0 | .smallUlong | .ulong => some do return .ulong (← parseU64)
    | .uuid => some do return .uuid (← fixedBytes .uuid 16)
    | .vbin8 | .vbin32 => some do return .binary (← deserializeByteBuf)
    | .str8 | .str32 => some do return .string (← deserializeString)
    | _ => none

def properties : De R Properties :=
  composite "amqp:properties:list" 0x73 do
    let messageId' ← VisitSeq.optional messageId
    let userId ← VisitSeq.optional deserializeByteBuf
    let to' ← VisitSeq.optional deserializeString
    let subject ← VisitSeq.optional deserializeString
    let replyTo ← VisitSeq.optional deserializeString
    let correlationId ← VisitSeq.optional messageId
    let contentType ← VisitSeq.optional symbol
    let contentEncoding ← VisitSeq.optional symbol
    let absoluteExpiryTime ← VisitSeq.optional timestamp
    let creationTime ← VisitSeq.optional timestamp
    let groupId ← VisitSeq.optional deserializeString
    let groupSequence ← VisitSeq.optional parseU32
    let replyToGroupId ← VisitSeq.optional deserializeString
    return { messageId := messageId', userId, to', subject, replyTo, correlationId, contentType,
             contentEncoding, absoluteExpiryTime, creationTime, groupId, groupSequence,
             replyToGroupId }

def ownedKey : De R OwnedKey :=
  codeEnum fun
    | .sym8 | .sym32 => some do return .symbol (← symbol)
    | .ulong0 | .smallUlong | .ulong => some do return .ulong (← parseU64)
    | _ => none

def annotations : De R Annotations := deserializeMap (· == ·) ownedKey value

def simpleValue : De R SimpleValue := do
  let v ← value
  if h : v.isSimple then return ⟨v, h⟩
  else custom "Invalid value for SimpleValue"

def deliveryAnnotations : De R Annotations :=
  basic "amqp:delivery-annotations:map" 0x71 annotations

def messageAnnotations : De R Annotations := basic "amqp:message-annotations:map" 0x72 annotations

def applicationProperties : De R ApplicationProperties :=
  basic "amqp:application-properties:map" 0x74
    (deserializeMap (· == ·) deserializeString simpleValue)

def footer : De R Annotations := basic "amqp:footer:map" 0x78 annotations

def data : De R Bytes := basic "amqp:data:binary" 0x75 deserializeByteBuf

def amqpSequence (element : De R α) : De R (List α) :=
  basic "amqp:amqp-sequence:list" 0x76 (deserializeVec element)

def amqpValue (value : De R α) : De R α := basic "amqp:amqp-value:*" 0x77 value

end De

/-- `body::Field`: what the descriptor of a body section tells. -/
inductive BodyField where
  | data | sequence | value
deriving DecidableEq, Repr

def BodyField.ofDescriptor : Descriptor → Option BodyField
  | .name ⟨"amqp:data:binary"⟩ | .code 0x75 => some .data
  | .name ⟨"amqp:amqp-sequence:list"⟩ | .code 0x76 => some .sequence
  | .name ⟨"amqp:amqp-value:*"⟩ | .code 0x77 => some .value
  | _ => none

/-- `message::Field`: what the descriptor of a section tells. -/
inductive SectionField where
  | header | deliveryAnnotations | messageAnnotations | properties | applicationProperties | body
  | footer
deriving DecidableEq, Repr

def SectionField.ofDescriptor : Descriptor → Option SectionField
  | .name ⟨"amqp:header:list"⟩ | .code 0x70 => some .header
  | .name ⟨"amqp:delivery-annotations:map"⟩ | .code 0x71 => some .deliveryAnnotations
  | .name ⟨"amqp:message-annotations:map"⟩ | .code 0x72 => some .messageAnnotations
  | .name ⟨"amqp:properties:list"⟩ | .code 0x73 => some .properties
  | .name ⟨"amqp:application-properties:map"⟩ | .code 0x74 => some .applicationProperties
  | .name ⟨"amqp:data:binary"⟩ | .name ⟨"amqp:amqp-sequence:list"⟩ | .name ⟨"amqp:amqp-value:*"⟩
  | .code 0x75 | .code 0x76 | .code 0x77 => some .body
  | .name ⟨"amqp:footer:map"⟩ | .code 0x78 => some .footer
  | _ => none

/-- The variables of `visit_seq`: the sections that have been read. -/
structure Sections (B : Type) where
  header : Option Header := none
  deliveryAnnotations : Option Annotations := none
  messageAnnotations : Option Annotations := none
  properties : Option Properties := none
  applicationProperties : Option ApplicationProperties := none
  body : Option B := none
  footer : Option Annotations := none

namespace De

variable {R : Type} [Read R] {α B : Type}

def bodyField : De R BodyField := do
  match BodyField.ofDescriptor (← deserializeIdentifier).nameOrCode with
  | some field => return field
  | none => custom "Invalid descriptor code"

/-- `visit_enum` after the kind of the body is known. -/
def visitBody (value : De R α) : BodyField → De R (Body α)
  | .data => do return .data (← transparentVec data)
  | .sequence => do return .sequence (← transparentVec (amqpSequence value))
  | .value => do return .value (← amqpValue value)

def body (value : De R α) : De R (Body α) :=
  deserializeEnum .untaggedEnum do visitBody value (← bodyField)

def sectionField : De R SectionField := do
  match SectionField.ofDescriptor (← deserializeIdentifier).nameOrCode with
  | some field => return field
  | none => custom "Unknown identifier"

/-- Reads the section that the descriptor announced; one read twice replaces the first. -/
def readSection (body : De R B) (sections : Sections B) : SectionField → VisitSeq R (Sections B)
  | .header => do return { sections with header := ← VisitSeq.nextElement header }
  | .deliveryAnnotations => do
      return { sections with deliveryAnnotations := ← VisitSeq.nextElement deliveryAnnotations }
  | .messageAnnotations => do
      return { sections with messageAnnotations := ← VisitSeq.nextElement messageAnnotations }
  | .properties => do return { sections with properties := ← VisitSeq.nextElement properties }
  | .applicationProperties => do
      return { sections with applicationProperties := ← VisitSeq.nextElement applicationProperties }
  | .body => do return { sections with body := ← VisitSeq.nextElement body }
  | .footer => do return { sections with footer := ← VisitSeq.nextElement footer }

/-- The loop of `visit_seq`; `left` counts down from seven sections. -/
def readSections (body : De R B) : (left : Nat) → Sections B → VisitSeq R (Sections B)
  | 0, sections => return sections
  | left + 1, sections => do
      match ← VisitSeq.nextElement sectionField with
      | none => return sections
      | some field => readSections body left (← readSection body sections field)

/-- `Message<B>`; `empty` is the body of a message without a body section. -/
def message (body : De R B) (empty : De R B) : De R (Message B) :=
  deserializeStruct .describedBasic 14 fun access => do
    let sections ← StateT.run' (readSections body 7 {}) access
    let body ← match sections.body with
      | some body => pure body
      | none => empty
    return { header := sections.header
             deliveryAnnotations := sections.deliveryAnnotations
             messageAnnotations := sections.messageAnnotations
             properties := sections.properties
             applicationProperties := sections.applicationProperties
             body
             footer := sections.footer }

/-- A message whose body may be of any of the three kinds. -/
def bodyMessage : De R (Message (Body Value)) := message (body value) (pure .empty)

end De

/-- The encoder of such a message. -/
def Message.bodyToSer (v : Message (Body Value)) : Ser := v.toSer (Body.toSer Value.toSer)

end Fe2o3Amqp
