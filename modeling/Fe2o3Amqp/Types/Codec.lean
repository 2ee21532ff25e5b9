import Fe2o3Amqp.Serde.Composite
import Fe2o3Amqp.Types

/-!
# Encoders and decoders of the AMQP types

The `Serialize` and `Deserialize` implementations of the types of the transport, messaging and
transaction layers.  Those of the composites are derived from their field lists.
-/

namespace Fe2o3Amqp

/-! ## Common forms -/

def Fields.toSer (v : Fields) : Ser := OrderedMap.toSer Symbol.toSer Value.toSer v

/-- The derived implementation of a newtype struct, which stands for its content. -/
def newtypeToSer (v : Ser) : Ser := .newtypeStruct .other v

def symbolArrayToSer (vs : List Symbol) : Ser := arrayToSer Symbol.toSer vs

/-- A descriptor code as `{:#x?}` shows it. -/
def hexText (code : UInt64) : String := "0x" ++ String.ofList (Nat.toDigits 16 code.toNat)

namespace De

variable {R : Type} [Read R] {α : Type}

def fields : De R Fields := deserializeMap (· == ·) symbol value

/-- An enumeration that is written as a symbol. -/
def symbolEnum (tryFrom : String → Option α) (name : String) : De R α := do
  match tryFrom (← symbol).value with
  | some v => return v
  | none => custom ("Invalid symbol value for " ++ name)

/-- An enumeration of composites, given by the descriptors and the decoders of its variants.  The
descriptor of the next value chooses the variant and is left for the variant to read. -/
def describedEnum (variants : List (String × UInt64 × De R α)) (wrongName : String)
    (wrongCode : UInt64 → String) : De R α :=
  deserializeEnum .other do
    match (← deserializeIdentifier).nameOrCode with
    | .name symbol =>
        match variants.find? (·.1 == symbol.value) with
        | some v => v.2.2
        | none => custom wrongName
    | .code code =>
        match variants.find? (·.2.1 == code) with
        | some v => v.2.2
        | none => custom (wrongCode code)

end De

def wrongDescriptorName : String := "Wrong symbol value for descriptor"

def wrongDescriptorCode (code : UInt64) : String :=
  "Wrong code value for descriptor, found " ++ hexText code

/-! ## Definitions -/

def Role.toBool : Role → Bool
  | .sender => false
  | .receiver => true

def Role.ofBool : Bool → Role
  | false => .sender
  | true => .receiver

def Role.toSer (v : Role) : Ser := .bool v.toBool

def SenderSettleMode.default : SenderSettleMode := .mixed

def SenderSettleMode.toU8 : SenderSettleMode → UInt8
  | .unsettled => 0
  | .settled => 1
  | .mixed => 2

def SenderSettleMode.toSer (v : SenderSettleMode) : Ser := .u8 v.toU8

def ReceiverSettleMode.default : ReceiverSettleMode := .first

def ReceiverSettleMode.toU8 : ReceiverSettleMode → UInt8
  | .first => 0
  | .second => 1

def ReceiverSettleMode.toSer (v : ReceiverSettleMode) : Ser := .u8 v.toU8

namespace De

variable {R : Type} [Read R]

def role : De R Role := do return .ofBool (← parseBool)

def senderSettleMode : De R SenderSettleMode := do
  match ← parseU8 with
  | 0 => return .unsettled
  | 1 => return .settled
  | 2 => return .mixed
  | _ => custom "Invalid value for SenderSettleMode"

def receiverSettleMode : De R ReceiverSettleMode := do
  match ← parseU8 with
  | 0 => return .first
  | 1 => return .second
  | _ => custom "Invalid value for ReceiverSettleMode"

end De

/-! ## Errors -/

def AmqpError.symbol : AmqpError → String
  | .internalError => "amqp:internal-error"
  | .notFound => "amqp:not-found"
  | .unauthorizedAccess => "amqp:unauthorized-access"
  | .decodeError => "amqp:decode-error"
  | .resourceLimitExceeded => "amqp:resource-limit-exceeded"
  | .notAllowed => "amqp:not-allowed"
  | .invalidField => "amqp:invalid-field"
  | .notImplemented => "amqp:not-implemented"
  | .resourceLocked => "amqp:resource-locked"
  | .preconditionFailed => "amqp:precondition-failed"
  | .resourceDeleted => "amqp:resource-deleted"
  | .illegalState => "amqp:illegal-state"
  | .frameSizeTooSmall => "amqp:frame-size-too-small"

def AmqpError.tryFrom : String → Option AmqpError
  | "amqp:internal-error" => some .internalError
  | "amqp:not-found" => some .notFound
  | "amqp:unauthorized-access" => some .unauthorizedAccess
  | "amqp:decode-error" => some .decodeError
  | "amqp:resource-limit-exceeded" => some .resourceLimitExceeded
  | "amqp:not-allowed" => some .notAllowed
  | "amqp:invalid-field" => some .invalidField
  | "amqp:not-implemented" => some .notImplemented
  | "amqp:resource-locked" => some .resourceLocked
  | "amqp:precondition-failed" => some .preconditionFailed
  | "amqp:resource-deleted" => some .resourceDeleted
  | "amqp:illegal-state" => some .illegalState
  | "amqp:frame-size-too-small" => some .frameSizeTooSmall
  | _ => none

def ConnectionError.symbol : ConnectionError → String
  | .connectionForced => "amqp:connection:forced"
  | .framingError => "amqp:connection:framing-error"
  | .redirect => "amqp:connection:redirect"

def ConnectionError.tryFrom : String → Option ConnectionError
  | "amqp:connection:forced" => some .connectionForced
  | "amqp:connection:framing-error" => some .framingError
  | "amqp:connection:redirect" => some .redirect
  | _ => none

def SessionError.symbol : SessionError → String
  | .windowViolation => "amqp:session:window-violation"
  | .errantLink => "amqp:session:errant-link"
  | .handleInUse => "amqp:session:handle-in-use"
  | .unattachedHandle => "amqp:session:unattached-handle"

def SessionError.tryFrom : String → Option SessionError
  | "amqp:session:window-violation" => some .windowViolation
  | "amqp:session:errant-link" => some .errantLink
  | "amqp:session:handle-in-use" => some .handleInUse
  | "amqp:session:unattached-handle" => some .unattachedHandle
  | _ => none

def LinkError.symbol : LinkError → String
  | .detachForced => "amqp:link:detach-forced"
  | .transferLimitExceeded => "amqp:link:transfer-limit-exceeded"
  | .messageSizeExceeded => "amqp:link:message-size-exceeded"
  | .redirect => "amqp:link:redirect"
  | .stolen => "amqp:link:stolen"

def LinkError.tryFrom : String → Option LinkError
  | "amqp:link:detach-forced" => some .detachForced
  | "amqp:link:transfer-limit-exceeded" => some .transferLimitExceeded
  | "amqp:link:message-size-exceeded" => some .messageSizeExceeded
  | "amqp:link:redirect" => some .redirect
  | "amqp:link:stolen" => some .stolen
  | _ => none

def TransactionError.symbol : TransactionError → String
  | .unknownId => "amqp:transaction:unknown-id"
  | .rollback => "amqp:transaction:rollback"
  | .timeout => "amqp:transaction:timeout"

def TransactionError.tryFrom : String → Option TransactionError
  | "amqp:transaction:unknown-id" => some .unknownId
  | "amqp:transaction:rollback" => some .rollback
  | "amqp:transaction:timeout" => some .timeout
  | _ => none

namespace ErrorCondition

def symbol : ErrorCondition → Symbol
  | .amqpError error => ⟨error.symbol⟩
  | .connectionError error => ⟨error.symbol⟩
  | .sessionError error => ⟨error.symbol⟩
  | .linkError error => ⟨error.symbol⟩
  | .custom symbol => symbol
  | .transactionError error => ⟨error.symbol⟩

def toSer (v : ErrorCondition) : Ser := v.symbol.toSer

/-- The conditions of the specification are tried one kind after another. -/
def ofSymbol (v : Symbol) : ErrorCondition :=
  match AmqpError.tryFrom v.value with
  | some error => .amqpError error
  | none =>
  match ConnectionError.tryFrom v.value with
  | some error => .connectionError error
  | none =>
  match SessionError.tryFrom v.value with
  | some error => .sessionError error
  | none =>
  match LinkError.tryFrom v.value with
  | some error => .linkError error
  | none =>
  match TransactionError.tryFrom v.value with
  | some error => .transactionError error
  | none => .custom v

end ErrorCondition

def Error.toSer (v : Error) : Ser :=
  compositeToSer 0x1d [
    .required "condition" v.condition.toSer,
    .optional "description" (v.description.map .str),
    .optional "info" (v.info.map Fields.toSer)]

namespace De

variable {R : Type} [Read R]

def errorCondition : De R ErrorCondition := do return .ofSymbol (← symbol)

def error : De R Error :=
  composite "amqp:error:list" 0x1d do
    let condition ← VisitSeq.required errorCondition
    let description ← VisitSeq.optional deserializeString
    let info ← VisitSeq.optional fields
    return { condition, description, info }

end De

/-! ## Delivery states and outcomes -/

def Received.toSer (v : Received) : Ser :=
  compositeToSer 0x23 [
    .required "section-number" (.u32 v.sectionNumber),
    .required "section-offset" (.u64 v.sectionOffset)]

def acceptedToSer : Ser := compositeToSer 0x24 []

def Rejected.toSer (v : Rejected) : Ser :=
  compositeToSer 0x25 [.optional "error" (v.error.map Error.toSer)]

def releasedToSer : Ser := compositeToSer 0x26 []

def Modified.toSer (v : Modified) : Ser :=
  compositeToSer 0x27 [
    .optional "delivery-failed" (v.deliveryFailed.map .bool),
    .optional "undeliverable-here" (v.undeliverableHere.map .bool),
    .optional "message-annotations" (v.messageAnnotations.map Fields.toSer)]

def Declared.toSer (v : Declared) : Ser :=
  compositeToSer 0x33 [.required "txn-id" (.bytes v.txnId)]

def Outcome.toSer : Outcome → Ser
  | .accepted => acceptedToSer
  | .rejected v => v.toSer
  | .released => releasedToSer
  | .modified v => v.toSer
  | .declared v => v.toSer

def TransactionalState.toSer (v : TransactionalState) : Ser :=
  compositeToSer 0x34 [
    .required "txn-id" (.bytes v.txnId),
    .optional "outcome" (v.outcome.map Outcome.toSer)]

def DeliveryState.toSer : DeliveryState → Ser
  | .received v => v.toSer
  | .accepted => acceptedToSer
  | .rejected v => v.toSer
  | .released => releasedToSer
  | .modified v => v.toSer
  | .declared v => v.toSer
  | .transactionalState v => v.toSer

namespace De

variable {R : Type} [Read R]

def received : De R Received :=
  composite "amqp:received:list" 0x23 do
    let sectionNumber ← VisitSeq.required parseU32
    let sectionOffset ← VisitSeq.required parseU64
    return { sectionNumber, sectionOffset }

def accepted : De R Unit := composite "amqp:accepted:list" 0x24 (return ())

def rejected : De R Rejected :=
  composite "amqp:rejected:list" 0x25 do
    let error ← VisitSeq.optional error
    return { error }

def released : De R Unit := composite "amqp:released:list" 0x26 (return ())

def modified : De R Modified :=
  composite "amqp:modified:list" 0x27 do
    let deliveryFailed ← VisitSeq.optional parseBool
    let undeliverableHere ← VisitSeq.optional parseBool
    let messageAnnotations ← VisitSeq.optional fields
    return { deliveryFailed, undeliverableHere, messageAnnotations }

def declared : De R Declared :=
  composite "amqp:declared:list" 0x33 do
    let txnId ← VisitSeq.required deserializeByteBuf
    return { txnId }

def outcome : De R Outcome :=
  describedEnum [
    ("amqp:accepted:list", 0x24, do accepted; return .accepted),
    ("amqp:rejected:list", 0x25, do return .rejected (← rejected)),
    ("amqp:released:list", 0x26, do released; return .released),
    ("amqp:modified:list", 0x27, do return .modified (← modified)),
    ("amqp:declared:list", 0x33, do return .declared (← declared))]
    wrongDescriptorName wrongDescriptorCode

def transactionalState : De R TransactionalState :=
  composite "amqp:transactional-state:list" 0x34 do
    let txnId ← VisitSeq.required deserializeByteBuf
    let outcome ← VisitSeq.optional outcome
    return { txnId, outcome }

def deliveryState : De R DeliveryState :=
  describedEnum [
    ("amqp:received:list", 0x23, do return .received (← received)),
    ("amqp:accepted:list", 0x24, do accepted; return .accepted),
    ("amqp:rejected:list", 0x25, do return .rejected (← rejected)),
    ("amqp:released:list", 0x26, do released; return .released),
    ("amqp:modified:list", 0x27, do return .modified (← modified)),
    ("amqp:declared:list", 0x33, do return .declared (← declared)),
    ("amqp:transactional-state:list", 0x34, do
      return .transactionalState (← transactionalState))]
    wrongDescriptorName wrongDescriptorCode

end De

/-! ## Termini -/

def TerminusDurability.default : TerminusDurability := .none

def TerminusDurability.index : TerminusDurability → UInt32
  | .none => 0
  | .configuration => 1
  | .unsettledState => 2

/-- The derived implementation: the index of the variant. -/
def TerminusDurability.toSer (v : TerminusDurability) : Ser := .unitVariant v.index

def TerminusExpiryPolicy.default : TerminusExpiryPolicy := .sessionEnd

def TerminusExpiryPolicy.symbol : TerminusExpiryPolicy → String
  | .linkDetach => "link-detach"
  | .sessionEnd => "session-end"
  | .connectionClose => "connection-close"
  | .never => "never"

def TerminusExpiryPolicy.tryFrom : String → Option TerminusExpiryPolicy
  | "link-detach" => some .linkDetach
  | "session-end" => some .sessionEnd
  | "connection-close" => some .connectionClose
  | "never" => some .never
  | _ => none

def TerminusExpiryPolicy.toSer (v : TerminusExpiryPolicy) : Ser := Symbol.toSer ⟨v.symbol⟩

def DistributionMode.symbol : DistributionMode → String
  | .move => "move"
  | .copy => "copy"

def DistributionMode.tryFrom : String → Option DistributionMode
  | "move" => some .move
  | "copy" => some .copy
  | _ => none

def DistributionMode.toSer (v : DistributionMode) : Ser := Symbol.toSer ⟨v.symbol⟩

def TxnCapability.symbol : TxnCapability → String
  | .localTransactions => "amqp:local-transactions"
  | .distributedTransactions => "amqp:distributed-transactions"
  | .promotableTransactions => "amqp:promotable-transactions"
  | .multiTxnsPerSsn => "amqp:multi-txns-per-ssn"
  | .multiSsnsPerTxn => "amqp:multi-ssns-per-txn"

def TxnCapability.tryFrom : String → Option TxnCapability
  | "amqp:local-transactions" => some .localTransactions
  | "amqp:distributed-transactions" => some .distributedTransactions
  | "amqp:promotable-transactions" => some .promotableTransactions
  | "amqp:multi-txns-per-ssn" => some .multiTxnsPerSsn
  | "amqp:multi-ssns-per-txn" => some .multiSsnsPerTxn
  | _ => none

def TxnCapability.toSer (v : TxnCapability) : Ser := Symbol.toSer ⟨v.symbol⟩

def Source.toSer (v : Source) : Ser :=
  compositeToSer 0x28 [
    .optional "address" (v.address.map .str),
    .defaulted "durable" TerminusDurability.toSer .default v.durable,
    .defaulted "expiry-policy" TerminusExpiryPolicy.toSer .default v.expiryPolicy,
    .defaulted "timeout" .u32 0 v.timeout,
    .defaulted "dynamic" .bool false v.dynamic,
    .optional "dynamic-node-properties" (v.dynamicNodeProperties.map Fields.toSer),
    .optional "distribution-mode" (v.distributionMode.map DistributionMode.toSer),
    .optional "filter" (v.filter.map Fields.toSer),
    .optional "default-outcome" (v.defaultOutcome.map Outcome.toSer),
    .optional "outcomes" (v.outcomes.map symbolArrayToSer),
    .optional "capabilities" (v.capabilities.map symbolArrayToSer)]

def Target.toSer (v : Target) : Ser :=
  compositeToSer 0x29 [
    .optional "address" (v.address.map .str),
    .defaulted "durable" TerminusDurability.toSer .default v.durable,
    .defaulted "expiry-policy" TerminusExpiryPolicy.toSer .default v.expiryPolicy,
    .defaulted "timeout" .u32 0 v.timeout,
    .defaulted "dynamic" .bool false v.dynamic,
    .optional "dynamic-node-properties" (v.dynamicNodeProperties.map Fields.toSer),
    .optional "capabilities" (v.capabilities.map symbolArrayToSer)]

def Coordinator.toSer (v : Coordinator) : Ser :=
  compositeToSer 0x30 [.optional "capabilities" (v.capabilities.map (arrayToSer TxnCapability.toSer))]

def TargetArchetype.toSer : TargetArchetype → Ser
  | .target v => v.toSer
  | .coordinator v => v.toSer

namespace De

variable {R : Type} [Read R]

/-- The derived implementation: a variant is given by its index or by its name. -/
def terminusDurability : De R TerminusDurability :=
  deserializeEnum .other do
    let ofIndex (index : Nat) : De R TerminusDurability :=
      match index with
      | 0 => return .none
      | 1 => return .configuration
      | 2 => return .unsettledState
      | _ => custom "invalid value"
    match ← deserializeIdentifier with
    | .u8 index => ofIndex index.toNat
    | .u32 index => ofIndex index.toNat
    | .u64 index => ofIndex index.toNat
    | .str "None" => return .none
    | .str "Configuration" => return .configuration
    | .str "UnsettledState" => return .unsettledState
    | .str _ => custom "unknown variant"

def terminusExpiryPolicy : De R TerminusExpiryPolicy :=
  symbolEnum TerminusExpiryPolicy.tryFrom "TerminusExpiryPolicy"

def distributionMode : De R DistributionMode :=
  symbolEnum DistributionMode.tryFrom "DistributionMode"

def txnCapability : De R TxnCapability := symbolEnum TxnCapability.tryFrom "TxnCapability"

def source : De R Source :=
  composite "amqp:source:list" 0x28 do
    let address ← VisitSeq.optional deserializeString
    let durable ← VisitSeq.defaulted .default terminusDurability
    let expiryPolicy ← VisitSeq.defaulted .default terminusExpiryPolicy
    let timeout ← VisitSeq.defaulted 0 parseU32
    let dynamic ← VisitSeq.defaulted false parseBool
    let dynamicNodeProperties ← VisitSeq.optional fields
    let distributionMode ← VisitSeq.optional distributionMode
    let filter ← VisitSeq.optional fields
    let defaultOutcome ← VisitSeq.optional outcome
    let outcomes ← VisitSeq.multiple symbol
    let capabilities ← VisitSeq.multiple symbol
    return { address, durable, expiryPolicy, timeout, dynamic, dynamicNodeProperties,
             distributionMode, filter, defaultOutcome, outcomes, capabilities }

def target : De R Target :=
  composite "amqp:target:list" 0x29 do
    let address ← VisitSeq.optional deserializeString
    let durable ← VisitSeq.defaulted .default terminusDurability
    let expiryPolicy ← VisitSeq.defaulted .default terminusExpiryPolicy
    let timeout ← VisitSeq.defaulted 0 parseU32
    let dynamic ← VisitSeq.defaulted false parseBool
    let dynamicNodeProperties ← VisitSeq.optional fields
    let capabilities ← VisitSeq.multiple symbol
    return { address, durable, expiryPolicy, timeout, dynamic, dynamicNodeProperties, capabilities }

def coordinator : De R Coordinator :=
  composite "amqp:coordinator:list" 0x30 do
    let capabilities ← VisitSeq.multiple txnCapability
    return { capabilities }

def targetArchetype : De R TargetArchetype :=
  describedEnum [
    ("amqp:target:list", 0x29, do return .target (← target)),
    ("amqp:coordinator:list", 0x30, do return .coordinator (← coordinator))]
    "Wrong descriptor symbol value for Target archetype"
    fun _ => "Wrong descriptor code value for Target archetype"

end De

/-! ## Performatives -/

def Open.toSer (v : Open) : Ser :=
  compositeToSer 0x10 [
    .required "container-id" (.str v.containerId),
    .optional "hostname" (v.hostname.map .str),
    .defaulted "max-frame-size" (newtypeToSer ∘ .u32) 0xffffffff v.maxFrameSize,
    .defaulted "channel-max" (newtypeToSer ∘ .u16) 0xffff v.channelMax,
    .optional "idle-time-out" (v.idleTimeOut.map .u32),
    .optional "outgoing-locales" (v.outgoingLocales.map symbolArrayToSer),
    .optional "incoming-locales" (v.incomingLocales.map symbolArrayToSer),
    .optional "offered-capabilities" (v.offeredCapabilities.map symbolArrayToSer),
    .optional "desired-capabilities" (v.desiredCapabilities.map symbolArrayToSer),
    .optional "properties" (v.properties.map Fields.toSer)]

def Handle.toSer (v : Handle) : Ser := newtypeToSer (.u32 v)

def Begin.toSer (v : Begin) : Ser :=
  compositeToSer 0x11 [
    .optional "remote-channel" (v.remoteChannel.map .u16),
    .required "next-outgoing-id" (.u32 v.nextOutgoingId),
    .required "incoming-window" (.u32 v.incomingWindow),
    .required "outgoing-window" (.u32 v.outgoingWindow),
    .defaulted "handle-max" Handle.toSer 0xffffffff v.handleMax,
    .optional "offered-capabilities" (v.offeredCapabilities.map symbolArrayToSer),
    .optional "desired-capabilities" (v.desiredCapabilities.map symbolArrayToSer),
    .optional "properties" (v.properties.map Fields.toSer)]

def unsettledToSer (v : OrderedMap DeliveryTag (Option DeliveryState)) : Ser :=
  OrderedMap.toSer .bytes (optionToSer DeliveryState.toSer) v

def Attach.toSer (v : Attach) : Ser :=
  compositeToSer 0x12 [
    .required "name" (.str v.name),
    .required "handle" v.handle.toSer,
    .required "role" v.role.toSer,
    .defaulted "snd-settle-mode" SenderSettleMode.toSer .default v.sndSettleMode,
    .defaulted "rcv-settle-mode" ReceiverSettleMode.toSer .default v.rcvSettleMode,
    .optional "source" (v.source.map Source.toSer),
    .optional "target" (v.target.map TargetArchetype.toSer),
    .optional "unsettled" (v.unsettled.map unsettledToSer),
    .defaulted "incomplete-unsettled" .bool false v.incompleteUnsettled,
    .optional "initial-delivery-count" (v.initialDeliveryCount.map .u32),
    .optional "max-message-size" (v.maxMessageSize.map .u64),
    .optional "offered-capabilities" (v.offeredCapabilities.map symbolArrayToSer),
    .optional "desired-capabilities" (v.desiredCapabilities.map symbolArrayToSer),
    .optional "properties" (v.properties.map Fields.toSer)]

def Flow.toSer (v : Flow) : Ser :=
  compositeToSer 0x13 [
    .optional "next-incoming-id" (v.nextIncomingId.map .u32),
    .required "incoming-window" (.u32 v.incomingWindow),
    .required "next-outgoing-id" (.u32 v.nextOutgoingId),
    .required "outgoing-window" (.u32 v.outgoingWindow),
    .optional "handle" (v.handle.map Handle.toSer),
    .optional "delivery-count" (v.deliveryCount.map .u32),
    .optional "link-credit" (v.linkCredit.map .u32),
    .optional "available" (v.available.map .u32),
    .defaulted "drain" .bool false v.drain,
    .defaulted "echo" .bool false v.echo,
    .optional "properties" (v.properties.map Fields.toSer)]

def Transfer.toSer (v : Transfer) : Ser :=
  compositeToSer 0x14 [
    .required "handle" v.handle.toSer,
    .optional "delivery-id" (v.deliveryId.map .u32),
    .optional "delivery-tag" (v.deliveryTag.map .bytes),
    .optional "message-format" (v.messageFormat.map .u32),
    .optional "settled" (v.settled.map .bool),
    .defaulted "more" .bool false v.more,
    .optional "rcv-settle-mode" (v.rcvSettleMode.map ReceiverSettleMode.toSer),
    .optional "state" (v.state.map DeliveryState.toSer),
    .defaulted "resume" .bool false v.resume,
    .defaulted "aborted" .bool false v.aborted,
    .defaulted "batchable" .bool false v.batchable]

def Disposition.toSer (v : Disposition) : Ser :=
  compositeToSer 0x15 [
    .required "role" v.role.toSer,
    .required "first" (.u32 v.first),
    .optional "last" (v.last.map .u32),
    .defaulted "settled" .bool false v.settled,
    .optional "state" (v.state.map DeliveryState.toSer),
    .defaulted "batchable" .bool false v.batchable]

def Detach.toSer (v : Detach) : Ser :=
  compositeToSer 0x16 [
    .required "handle" v.handle.toSer,
    .defaulted "closed" .bool false v.closed,
    .optional "error" (v.error.map Error.toSer)]

def End.toSer (v : End) : Ser := compositeToSer 0x17 [.optional "error" (v.error.map Error.toSer)]

def Close.toSer (v : Close) : Ser := compositeToSer 0x18 [.optional "error" (v.error.map Error.toSer)]

inductive Performative where
  | open (v : Open)
  | begin (v : Begin)
  | attach (v : Attach)
  | flow (v : Flow)
  | transfer (v : Transfer)
  | disposition (v : Disposition)
  | detach (v : Detach)
  | end (v : End)
  | close (v : Close)

def Performative.toSer : Performative → Ser
  | .open v => v.toSer
  | .begin v => v.toSer
  | .attach v => v.toSer
  | .flow v => v.toSer
  | .transfer v => v.toSer
  | .disposition v => v.toSer
  | .detach v => v.toSer
  | .end v => v.toSer
  | .close v => v.toSer

namespace De

variable {R : Type} [Read R]

def openPerformative : De R Open :=
  composite "amqp:open:list" 0x10 do
    let containerId ← VisitSeq.required deserializeString
    let hostname ← VisitSeq.optional deserializeString
    let maxFrameSize ← VisitSeq.defaulted 0xffffffff parseU32
    let channelMax ← VisitSeq.defaulted 0xffff parseU16
    let idleTimeOut ← VisitSeq.optional parseU32
    let outgoingLocales ← VisitSeq.multiple symbol
    let incomingLocales ← VisitSeq.multiple symbol
    let offeredCapabilities ← VisitSeq.multiple symbol
    let desiredCapabilities ← VisitSeq.multiple symbol
    let properties ← VisitSeq.optional fields
    return { containerId, hostname, maxFrameSize, channelMax, idleTimeOut, outgoingLocales,
             incomingLocales, offeredCapabilities, desiredCapabilities, properties }

def beginPerformative : De R Begin :=
  composite "amqp:begin:list" 0x11 do
    let remoteChannel ← VisitSeq.optional parseU16
    let nextOutgoingId ← VisitSeq.required parseU32
    let incomingWindow ← VisitSeq.required parseU32
    let outgoingWindow ← VisitSeq.required parseU32
    let handleMax ← VisitSeq.defaulted 0xffffffff parseU32
    let offeredCapabilities ← VisitSeq.multiple symbol
    let desiredCapabilities ← VisitSeq.multiple symbol
    let properties ← VisitSeq.optional fields
    return { remoteChannel, nextOutgoingId, incomingWindow, outgoingWindow, handleMax,
             offeredCapabilities, desiredCapabilities, properties }

def unsettled : De R (OrderedMap DeliveryTag (Option DeliveryState)) :=
  deserializeMap (· == ·) deserializeByteBuf (deserializeOption deliveryState)

def attach : De R Attach :=
  composite "amqp:attach:list" 0x12 do
    let name ← VisitSeq.required deserializeString
    let handle ← VisitSeq.required parseU32
    let role ← VisitSeq.required role
    let sndSettleMode ← VisitSeq.defaulted .default senderSettleMode
    let rcvSettleMode ← VisitSeq.defaulted .default receiverSettleMode
    let source ← VisitSeq.optional source
    let target ← VisitSeq.optional targetArchetype
    let unsettled ← VisitSeq.optional unsettled
    let incompleteUnsettled ← VisitSeq.defaulted false parseBool
    let initialDeliveryCount ← VisitSeq.optional parseU32
    let maxMessageSize ← VisitSeq.optional parseU64
    let offeredCapabilities ← VisitSeq.multiple symbol
    let desiredCapabilities ← VisitSeq.multiple symbol
    let properties ← VisitSeq.optional fields
    return { name, handle, role, sndSettleMode, rcvSettleMode, source, target, unsettled,
             incompleteUnsettled, initialDeliveryCount, maxMessageSize, offeredCapabilities,
             desiredCapabilities, properties }

def flow : De R Flow :=
  composite "amqp:flow:list" 0x13 do
    let nextIncomingId ← VisitSeq.optional parseU32
    let incomingWindow ← VisitSeq.required parseU32
    let nextOutgoingId ← VisitSeq.required parseU32
    let outgoingWindow ← VisitSeq.required parseU32
    let handle ← VisitSeq.optional parseU32
    let deliveryCount ← VisitSeq.optional parseU32
    let linkCredit ← VisitSeq.optional parseU32
    let available ← VisitSeq.optional parseU32
    let drain ← VisitSeq.defaulted false parseBool
    let echo ← VisitSeq.defaulted false parseBool
    let properties ← VisitSeq.optional fields
    return { nextIncomingId, incomingWindow, nextOutgoingId, outgoingWindow, handle, deliveryCount,
             linkCredit, available, drain, echo, properties }

def transfer : De R Transfer :=
  composite "amqp:transfer:list" 0x14 do
    let handle ← VisitSeq.required parseU32
    let deliveryId ← VisitSeq.optional parseU32
    let deliveryTag ← VisitSeq.optional deserializeByteBuf
    let messageFormat ← VisitSeq.optional parseU32
    let settled ← VisitSeq.optional parseBool
    let more ← VisitSeq.defaulted false parseBool
    let rcvSettleMode ← VisitSeq.optional receiverSettleMode
    let state ← VisitSeq.optional deliveryState
    let resume ← VisitSeq.defaulted false parseBool
    let aborted ← VisitSeq.defaulted false parseBool
    let batchable ← VisitSeq.defaulted false parseBool
    return { handle, deliveryId, deliveryTag, messageFormat, settled, more, rcvSettleMode, state,
             resume, aborted, batchable }

def disposition : De R Disposition :=
  composite "amqp:disposition:list" 0x15 do
    let role ← VisitSeq.required role
    let first ← VisitSeq.required parseU32
    let last ← VisitSeq.optional parseU32
    let settled ← VisitSeq.defaulted false parseBool
    let state ← VisitSeq.optional deliveryState
    let batchable ← VisitSeq.defaulted false parseBool
    return { role, first, last, settled, state, batchable }

def detach : De R Detach :=
  composite "amqp:detach:list" 0x16 do
    let handle ← VisitSeq.required parseU32
    let closed ← VisitSeq.defaulted false parseBool
    let error ← VisitSeq.optional error
    return { handle, closed, error }

def endPerformative : De R End :=
  composite "amqp:end:list" 0x17 do
    let error ← VisitSeq.optional error
    return { error }

def close : De R Close :=
  composite "amqp:close:list" 0x18 do
    let error ← VisitSeq.optional error
    return { error }

def performative : De R Performative :=
  describedEnum [
    ("amqp:open:list", 0x10, do return .open (← openPerformative)),
    ("amqp:begin:list", 0x11, do return .begin (← beginPerformative)),
    ("amqp:attach:list", 0x12, do return .attach (← attach)),
    ("amqp:flow:list", 0x13, do return .flow (← flow)),
    ("amqp:transfer:list", 0x14, do return .transfer (← transfer)),
    ("amqp:disposition:list", 0x15, do return .disposition (← disposition)),
    ("amqp:detach:list", 0x16, do return .detach (← detach)),
    ("amqp:end:list", 0x17, do return .end (← endPerformative)),
    ("amqp:close:list", 0x18, do return .close (← close))]
    wrongDescriptorName wrongDescriptorCode

end De

end Fe2o3Amqp
