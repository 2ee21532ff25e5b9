import Fe2o3Amqp.Primitives

/-!
# AMQP transport, messaging and transaction types

The composite types of `fe2o3-amqp-types` that the performatives are built from.  The structures
keep the field order of the source, which is also the order of the fields on the wire.
-/

namespace Fe2o3Amqp

abbrev Handle := UInt32
abbrev Seconds := UInt32
abbrev Milliseconds := UInt32
abbrev SequenceNo := UInt32
abbrev DeliveryNumber := SequenceNo
abbrev TransferNumber := SequenceNo
abbrev MessageFormat := UInt32
abbrev DeliveryTag := Bytes
abbrev TransactionId := Bytes
abbrev Address := String

inductive Role where
  | sender | receiver
deriving DecidableEq, Repr

inductive SenderSettleMode where
  | unsettled | settled | mixed
deriving DecidableEq, Repr

inductive ReceiverSettleMode where
  | first | second
deriving DecidableEq, Repr

/-! ## Errors -/

inductive AmqpError where
  | internalError | notFound | unauthorizedAccess | decodeError | resourceLimitExceeded | notAllowed
  | invalidField | notImplemented | resourceLocked | preconditionFailed | resourceDeleted
  | illegalState | frameSizeTooSmall
deriving DecidableEq, Repr

inductive ConnectionError where
  | connectionForced | framingError | redirect
deriving DecidableEq, Repr

inductive SessionError where
  | windowViolation | errantLink | handleInUse | unattachedHandle
deriving DecidableEq, Repr

inductive LinkError where
  | detachForced | transferLimitExceeded | messageSizeExceeded | redirect | stolen
deriving DecidableEq, Repr

inductive TransactionError where
  | unknownId | rollback | timeout
deriving DecidableEq, Repr

inductive ErrorCondition where
  | amqpError (error : AmqpError)
  | connectionError (error : ConnectionError)
  | sessionError (error : SessionError)
  | linkError (error : LinkError)
  | custom (symbol : Symbol)
  | transactionError (error : TransactionError)
deriving DecidableEq, Repr

/-- `definitions::Error`. -/
structure Error where
  condition : ErrorCondition
  description : Option String
  info : Option Fields

/-! ## Delivery states and outcomes -/

structure Received where
  sectionNumber : UInt32
  sectionOffset : UInt64

structure Rejected where
  error : Option Error

structure Modified where
  deliveryFailed : Option Bool
  undeliverableHere : Option Bool
  messageAnnotations : Option Fields

structure Declared where
  txnId : TransactionId

inductive Outcome where
  | accepted
  | rejected (v : Rejected)
  | released
  | modified (v : Modified)
  | declared (v : Declared)

structure TransactionalState where
  txnId : TransactionId
  outcome : Option Outcome

inductive DeliveryState where
  | received (v : Received)
  | accepted
  | rejected (v : Rejected)
  | released
  | modified (v : Modified)
  | declared (v : Declared)
  | transactionalState (v : TransactionalState)

/-- `From<Outcome> for DeliveryState`. -/
def Outcome.toDeliveryState : Outcome → DeliveryState
  | .accepted => .accepted
  | .rejected v => .rejected v
  | .released => .released
  | .modified v => .modified v
  | .declared v => .declared v

def DeliveryState.isTerminal : DeliveryState → Bool
  | .accepted | .rejected _ | .released | .modified _ => true
  | .received _ => false
  | .declared _ => true
  | .transactionalState _ => false

/-! ## Termini -/

inductive TerminusDurability where
  | none | configuration | unsettledState
deriving DecidableEq, Repr

inductive TerminusExpiryPolicy where
  | linkDetach | sessionEnd | connectionClose | never
deriving DecidableEq, Repr

inductive DistributionMode where
  | move | copy
deriving DecidableEq, Repr

inductive TxnCapability where
  | localTransactions | distributedTransactions | promotableTransactions | multiTxnsPerSsn
  | multiSsnsPerTxn
deriving DecidableEq, Repr

structure Source where
  address : Option Address
  durable : TerminusDurability
  expiryPolicy : TerminusExpiryPolicy
  timeout : Seconds
  dynamic : Bool
  dynamicNodeProperties : Option Fields
  distributionMode : Option DistributionMode
  filter : Option Fields
  defaultOutcome : Option Outcome
  outcomes : Option (List Symbol)
  capabilities : Option (List Symbol)

structure Target where
  address : Option Address
  durable : TerminusDurability
  expiryPolicy : TerminusExpiryPolicy
  timeout : Seconds
  dynamic : Bool
  dynamicNodeProperties : Option Fields
  capabilities : Option (List Symbol)

structure Coordinator where
  capabilities : Option (List TxnCapability)

inductive TargetArchetype where
  | target (v : Target)
  | coordinator (v : Coordinator)

/-! ## Performatives -/

structure Open where
  containerId : String
  hostname : Option String
  maxFrameSize : UInt32
  channelMax : UInt16
  idleTimeOut : Option Milliseconds
  outgoingLocales : Option (List Symbol)
  incomingLocales : Option (List Symbol)
  offeredCapabilities : Option (List Symbol)
  desiredCapabilities : Option (List Symbol)
  properties : Option Fields

structure Begin where
  remoteChannel : Option UInt16
  nextOutgoingId : TransferNumber
  incomingWindow : UInt32
  outgoingWindow : UInt32
  handleMax : Handle
  offeredCapabilities : Option (List Symbol)
  desiredCapabilities : Option (List Symbol)
  properties : Option Fields

structure Attach where
  name : String
  handle : Handle
  role : Role
  sndSettleMode : SenderSettleMode
  rcvSettleMode : ReceiverSettleMode
  source : Option Source
  target : Option TargetArchetype
  unsettled : Option (OrderedMap DeliveryTag (Option DeliveryState))
  incompleteUnsettled : Bool
  initialDeliveryCount : Option SequenceNo
  maxMessageSize : Option UInt64
  offeredCapabilities : Option (List Symbol)
  desiredCapabilities : Option (List Symbol)
  properties : Option Fields

structure Flow where
  nextIncomingId : Option TransferNumber
  incomingWindow : UInt32
  nextOutgoingId : TransferNumber
  outgoingWindow : UInt32
  handle : Option Handle
  deliveryCount : Option SequenceNo
  linkCredit : Option UInt32
  available : Option UInt32
  drain : Bool
  echo : Bool
  properties : Option Fields

structure Transfer where
  handle : Handle
  deliveryId : Option DeliveryNumber
  deliveryTag : Option DeliveryTag
  messageFormat : Option MessageFormat
  settled : Option Bool
  more : Bool
  rcvSettleMode : Option ReceiverSettleMode
  state : Option DeliveryState
  resume : Bool
  aborted : Bool
  batchable : Bool

structure Disposition where
  role : Role
  first : DeliveryNumber
  last : Option DeliveryNumber
  settled : Bool
  state : Option DeliveryState
  batchable : Bool

structure Detach where
  handle : Handle
  closed : Bool
  error : Option Error

structure End where
  error : Option Error

structure Close where
  error : Option Error

end Fe2o3Amqp
