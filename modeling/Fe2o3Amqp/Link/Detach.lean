import Fe2o3Amqp.Link.ReceiverLink

/-!
# Accepting an Attach, and detaching

The methods of `Link` that check an incoming Attach and that send and answer a Detach, for both roles.
A method that returns `Result` is a function to `Except … ×` the link as the source leaves it at the
failing statement.
-/

namespace Fe2o3Amqp

/-! ## The termini of an incoming Attach -/

/-- `SenderAttachError` and `ReceiverAttachError`, without those of an attach that never started. -/
inductive AttachError where
  | illegalState
  | nonAttachFrameReceived
  | incomingSourceIsNone
  | incomingTargetIsNone
  | initialDeliveryCountIsNone
  | coordinatorIsNotImplemented
  | sndSettleModeNotSupported
  | sourceAddressIsSomeWhenDynamicIsTrue
  | sourceAddressIsNoneWhenDynamicIsTrue
  | targetAddressIsNoneWhenDynamicIsTrue
  | targetAddressIsSomeWhenDynamicIsTrue
  | dynamicNodePropertiesIsSomeWhenDynamicIsFalse
  | desiredFilterNotSupported (notSupported : List Symbol)
  | desireTxnCapabilitiesNotSupported
deriving DecidableEq, Repr

namespace Source

def verifyAsSender (other : Source) : Except AttachError Unit :=
  if other.dynamic ∧ other.address.isSome then .error .sourceAddressIsSomeWhenDynamicIsTrue
  else if ¬other.dynamic ∧ other.dynamicNodeProperties.isSome then
    .error .dynamicNodePropertiesIsSomeWhenDynamicIsFalse
  else .ok ()

/-- The desired filters that are not in place. -/
def unsupportedFilters (desired supported : Option Fields) : List Symbol :=
  ((desired.getD []).map Prod.fst).filter fun key =>
    match supported.bind fun m => OrderedMap.get (· == ·) m key with
    | none | some .null => true
    | some _ => false

def verifyAsReceiver (source other : Source) : Except AttachError Unit :=
  match unsupportedFilters source.filter other.filter with
  | key :: keys => .error (.desiredFilterNotSupported (key :: keys))
  | [] =>
      if other.dynamic ∧ other.address.isNone then .error .sourceAddressIsNoneWhenDynamicIsTrue
      else if ¬other.dynamic ∧ other.dynamicNodeProperties.isSome then
        .error .dynamicNodePropertiesIsSomeWhenDynamicIsFalse
      else .ok ()

end Source

namespace Target

def verifyAsSender (other : Target) : Except AttachError Unit :=
  if other.dynamic ∧ other.address.isNone then .error .targetAddressIsNoneWhenDynamicIsTrue
  else if ¬other.dynamic ∧ other.dynamicNodeProperties.isSome then
    .error .dynamicNodePropertiesIsSomeWhenDynamicIsFalse
  else .ok ()

def verifyAsReceiver (other : Target) : Except AttachError Unit :=
  if other.dynamic ∧ other.address.isSome then .error .targetAddressIsSomeWhenDynamicIsTrue
  else if ¬other.dynamic ∧ other.dynamicNodeProperties.isSome then
    .error .dynamicNodePropertiesIsSomeWhenDynamicIsFalse
  else .ok ()

end Target

/-- The capabilities that a controller asks for have to be provided. -/
def Coordinator.verifyAsSender (coordinator other : Coordinator) : Except AttachError Unit :=
  match coordinator.capabilities, other.capabilities with
  | some desired, some provided =>
      if desired.all (provided.contains ·) then .ok ()
      else .error .desireTxnCapabilitiesNotSupported
  | some desired, none =>
      if desired.isEmpty then .ok () else .error .desireTxnCapabilitiesNotSupported
  | none, _ => .ok ()

/-- The type of a link's target. -/
inductive TargetKind where
  | target | coordinator
deriving DecidableEq, Repr

def TargetKind.tryFrom : TargetKind → TargetArchetype → Except AttachError TargetArchetype
  | .target, .target v => .ok (.target v)
  | .coordinator, .coordinator v => .ok (.coordinator v)
  | _, _ => .error .coordinatorIsNotImplemented

namespace TargetArchetype

def verifyAsSender : TargetArchetype → TargetArchetype → Except AttachError Unit
  | .target _, .target other => other.verifyAsSender
  | .coordinator v, .coordinator other => v.verifyAsSender other
  | _, _ => .ok ()

def verifyAsReceiver : TargetArchetype → TargetArchetype → Except AttachError Unit
  | .target _, .target other => other.verifyAsReceiver
  | _, _ => .ok ()

end TargetArchetype

/-! ## The link -/

structure LinkEndpoint where
  name : String
  role : Role
  localState : LinkState
  outputHandle : Option OutputHandle
  inputHandle : Option InputHandle
  sndSettleMode : SenderSettleMode
  rcvSettleMode : ReceiverSettleMode
  source : Option Source
  targetKind : TargetKind
  target : Option TargetArchetype
  maxMessageSize : UInt64
  offeredCapabilities : Option (List Symbol)
  desiredCapabilities : Option (List Symbol)
  verifyIncomingSource : Bool
  verifyIncomingTarget : Bool

/-- `get_max_message_size`: the smaller of the two limits that are set. -/
def getMaxMessageSize (localSize : UInt64) (remoteSize : Option UInt64) : UInt64 :=
  let remoteMaxMsgSize := remoteSize.getD 0
  if localSize = 0 then remoteMaxMsgSize
  else if remoteMaxMsgSize = 0 then localSize
  else min localSize remoteMaxMsgSize

namespace LinkEndpoint

/-- The state that an incoming Attach leads to. -/
def attachState (localState : LinkState) (incompleteUnsettled : Bool) : Option LinkState :=
  match localState, incompleteUnsettled with
  | .attachSent, false => some .attached
  | .incompleteAttachSent, false => some .incompleteAttachExchanged
  | .unattached, false | .detached, false => some .attachReceived
  | .attachSent, true | .incompleteAttachSent, true => some .incompleteAttachExchanged
  | .unattached, true | .detached, true => some .incompleteAttachReceived
  | _, _ => none

/-- The target of an incoming Attach, once a sender has checked the termini. -/
def checkAsSender (l : LinkEndpoint) (remoteAttach : Attach) :
    Except AttachError TargetArchetype := do
  match l.source, remoteAttach.source with
  | some _, some remoteSource =>
      if l.verifyIncomingSource then remoteSource.verifyAsSender
  | _, _ => pure ()
  match ← remoteAttach.target.mapM l.targetKind.tryFrom with
  | none => throw .incomingTargetIsNone
  | some remoteTarget =>
      match l.target with
      | some localTarget =>
          if l.verifyIncomingTarget then localTarget.verifyAsSender remoteTarget
      | none => pure ()
      return remoteTarget

def acceptAsSender (l : LinkEndpoint) (remoteAttach : Attach) :
    Except AttachError Unit × LinkEndpoint :=
  match l.checkAsSender remoteAttach with
  | .error e => (.error e, l)
  | .ok target =>
      let l := { l with target := some target, rcvSettleMode := remoteAttach.rcvSettleMode }
      -- neither side is `mixed` and they differ
      if l.sndSettleMode ≠ .mixed ∧ remoteAttach.sndSettleMode ≠ .mixed ∧
          l.sndSettleMode ≠ remoteAttach.sndSettleMode then
        (.error .sndSettleModeNotSupported, l)
      else (.ok (), l)

/-- The source of an incoming Attach, once a receiver has checked it. -/
def checkSource (l : LinkEndpoint) (remoteAttach : Attach) : Except AttachError Source := do
  match remoteAttach.source with
  | none => throw .incomingSourceIsNone
  | some remoteSource =>
      match l.source with
      | some localSource =>
          if l.verifyIncomingSource then localSource.verifyAsReceiver remoteSource
      | none => pure ()
      return remoteSource

/-- The delivery count that an incoming Attach tells a receiver, once it has checked the target. -/
def checkTarget (l : LinkEndpoint) (remoteAttach : Attach) : Except AttachError SequenceNo := do
  match remoteAttach.initialDeliveryCount with
  | none => throw .initialDeliveryCountIsNone
  | some initialDeliveryCount =>
      match l.target, ← remoteAttach.target.mapM l.targetKind.tryFrom with
      | some localTarget, some remoteTarget =>
          if l.verifyIncomingTarget then localTarget.verifyAsReceiver remoteTarget
      | _, _ => pure ()
      return initialDeliveryCount

def acceptAsReceiver (l : LinkEndpoint) (remoteAttach : Attach) :
    Except AttachError SequenceNo × LinkEndpoint :=
  match l.checkSource remoteAttach with
  | .error e => (.error e, l)
  | .ok remoteSource =>
      let l := { l with source := some remoteSource, sndSettleMode := remoteAttach.sndSettleMode }
      (l.checkTarget remoteAttach, l)

/-- The properties of the peer are added to the link's own. -/
def extendProperties (own remote : Option Fields) : Option Fields :=
  match remote with
  | none => own
  | some remote =>
      some (remote.foldl (fun m entry => OrderedMap.insert (· == ·) m entry.1 entry.2) (own.getD []))

/-- The error with which `handle_attach_error` closes a link whose Attach it refuses; `none` where it
sends nothing.  Its description is the debug text of the refusal. -/
def refusal : AttachError → Option (Option Error)
  | .sndSettleModeNotSupported | .incomingTargetIsNone | .incomingSourceIsNone => some none
  | .coordinatorIsNotImplemented =>
      some (some ⟨.amqpError .notImplemented, some "CoordinatorIsNotImplemented", none⟩)
  | .sourceAddressIsSomeWhenDynamicIsTrue => invalidField "SourceAddressIsSomeWhenDynamicIsTrue"
  | .sourceAddressIsNoneWhenDynamicIsTrue => invalidField "SourceAddressIsNoneWhenDynamicIsTrue"
  | .targetAddressIsNoneWhenDynamicIsTrue => invalidField "TargetAddressIsNoneWhenDynamicIsTrue"
  | .targetAddressIsSomeWhenDynamicIsTrue => invalidField "TargetAddressIsSomeWhenDynamicIsTrue"
  | .dynamicNodePropertiesIsSomeWhenDynamicIsFalse =>
      invalidField "DynamicNodePropertiesIsSomeWhenDynamicIsFalse"
  | .initialDeliveryCountIsNone => invalidField "InitialDeliveryCountIsNone"
  | .illegalState | .nonAttachFrameReceived | .desiredFilterNotSupported _
  | .desireTxnCapabilitiesNotSupported => none
where
  invalidField (description : String) : Option (Option Error) :=
    some (some ⟨.amqpError .invalidField, some description, none⟩)

/-! ## Detach -/

/-- `send_detach`: the state changes whether or not there is a handle to send the Detach with. -/
def sendDetach (l : LinkEndpoint) (closed : Bool) (error : Option Error) :
    Except DetachError Detach × LinkEndpoint :=
  match l.localState with
  | .attached =>
      let l := { l with localState := if closed then .closeSent else .detachSent }
      match l.outputHandle with
      | some handle =>
          (.ok { handle := handle.handle, closed, error }, { l with outputHandle := none })
      | none => (.error .illegalState, l)
  | _ => (.error .illegalState, l)

/-- The result of a Detach that carries an error, or none. -/
def detachResult (detach : Detach) : Except DetachError Unit :=
  match detach.closed, detach.error with
  | true, some error => .error (.remoteClosedWithError error)
  | false, some error => .error (.remoteDetachedWithError error)
  | _, none => .ok ()

def applyRemoteDetachOutcome (l : LinkEndpoint) (detach : Detach) :
    Except DetachError Unit × LinkEndpoint :=
  match l.localState with
  | .attached | .attachSent | .attachReceived | .incompleteAttachExchanged | .incompleteAttachSent
  | .incompleteAttachReceived | .detachSent | .closeSent =>
      (detachResult detach,
        { l with
          localState := if detach.closed then .closed else .detached
          outputHandle := none })
  | _ => (.error .illegalState, l)

/-- A crossing Detach is not applied here: the link is reattached first. -/
def onDetachReply (l : LinkEndpoint) (detach : Detach) : Except DetachError Unit × LinkEndpoint :=
  match l.localState, detach.closed with
  | .detachSent, false | .closeSent, true => l.applyRemoteDetachOutcome detach
  | _, _ => (.error .illegalState, l)

end LinkEndpoint

end Fe2o3Amqp
