import Fe2o3Amqp.Link.Relay
import Fe2o3Amqp.Util.Slab

/-!
# The session endpoint

The state of `session::Session` and the methods of its `endpoint::Session` implementation, in the
order of the source.  A method that returns `Result` is a function to `Except … × Session`: the
session that an error leaves behind is the one mutated up to the failing statement.  Hash maps are
functions to `Option`, the exhausted-window buffer is a list with its front first, and `links` is
the store that the relays share with their link endpoints.
-/

namespace Fe2o3Amqp

inductive SessionState where
  | unmapped | beginSent | beginReceived | mapped | endSent | endReceived | discarding
deriving DecidableEq, Repr

inductive SessionInnerError where
  | unattachedHandle
  | remoteAttachingLinkNameNotFound
  | handleInUse
  | illegalState
  | connectionStopped (reason : ConnectionStopReason)
  | transferFrameToSender
  | remoteEnded
  | remoteEndedWithError (error : Error)
  | unknownTxnId

def SessionInnerError.ofLinkRelayError : LinkRelayError → SessionInnerError
  | .unattachedHandle => .unattachedHandle
  | .transferFrameToSender => .transferFrameToSender

inductive AllocLinkError where
  | sessionNotMapped
  | sessionStopped (reason : SessionStopReason)
  | duplicatedLinkName

inductive SessionFrameBody where
  | attach (attach : Attach)
  | flow (flow : Flow)
  | transfer (performative : Transfer) (payload : Payload)
  | disposition (disposition : Disposition)
  | detach (detach : Detach)
  | begin (begin : Begin)
  | «end» (end' : End)

structure SessionFrame where
  channel : UInt16
  body : SessionFrameBody

inductive SessionOutgoingItem where
  | singleFrame (frame : SessionFrame)
  | multipleFrames (frames : List SessionFrame)

/-- A transfer held back because the remote incoming window is exhausted. -/
structure BufferedTransfer where
  inputHandle : InputHandle
  transfer : Transfer
  payload : Payload
  isFirst : Bool

structure Session where
  outgoingChannel : UInt16
  sessionStopReason : Option SessionStopReason
  connectionStopReason : Option ConnectionStopReason
  localState : SessionState
  initialOutgoingId : TransferNumber
  nextOutgoingId : TransferNumber
  nextOutgoingDeliveryId : DeliveryNumber
  incomingWindow : TransferNumber
  outgoingWindow : TransferNumber
  handleMax : Handle
  incomingChannel : Option UInt16
  nextIncomingId : TransferNumber
  needFlowCount : UInt32
  remoteIncomingWindow : SequenceNo
  remoteIncomingWindowExhaustedBuffer : List BufferedTransfer
  remoteOutgoingWindow : SequenceNo
  offeredCapabilities : Option (List Symbol)
  desiredCapabilities : Option (List Symbol)
  properties : Option Fields
  linkNameByOutputHandle : Slab String
  linkByName : String → Option (Option (LinkRelay OutputHandle))
  linkByInputHandle : InputHandle → Option (LinkRelay OutputHandle)
  closePending : OutputHandle → Bool
  deliveryTagById : Role × DeliveryNumber → Option (InputHandle × DeliveryTag)
  links : LinkStore

/-! ## Builder -/

def defaultWindow : UInt32 := 5000

/-- `session::Builder`, without the size of the engine's queues. -/
structure SessionBuilder where
  nextOutgoingId : TransferNumber := 0
  incomingWindow : TransferNumber := defaultWindow
  outgoingWindow : TransferNumber := defaultWindow
  handleMax : Handle := 0xffffffff
  offeredCapabilities : Option (List Symbol) := none
  desiredCapabilities : Option (List Symbol) := none
  properties : Option Fields := none

/-- `Builder::into_session`; `links` is the store of the links that will use the session. -/
def SessionBuilder.intoSession (builder : SessionBuilder) (outgoingChannel : UInt16)
    (localState : SessionState) (links : LinkStore) : Session where
  outgoingChannel := outgoingChannel
  sessionStopReason := none
  connectionStopReason := none
  localState := localState
  initialOutgoingId := builder.nextOutgoingId
  nextOutgoingId := builder.nextOutgoingId
  nextOutgoingDeliveryId := 0
  incomingWindow := builder.incomingWindow
  outgoingWindow := builder.outgoingWindow
  handleMax := builder.handleMax
  incomingChannel := none
  nextIncomingId := 0
  needFlowCount := 0
  remoteIncomingWindow := 0
  remoteIncomingWindowExhaustedBuffer := []
  remoteOutgoingWindow := 0
  offeredCapabilities := builder.offeredCapabilities
  desiredCapabilities := builder.desiredCapabilities
  properties := builder.properties
  linkNameByOutputHandle := Slab.empty
  linkByName := fun _ => none
  linkByInputHandle := fun _ => none
  closePending := fun _ => false
  deliveryTagById := fun _ => none
  links := links

namespace Session

/-! ## Outgoing transfers -/

def onOutgoingTransferInner (s : Session) (item : BufferedTransfer) :
    Except SessionInnerError SessionFrame × Session :=
  let settled := item.transfer.settled.getD false
  -- what follows the assignment of the delivery-id
  let sent (s : Session) (transfer : Transfer) : Except SessionInnerError SessionFrame × Session :=
    (.ok ⟨s.outgoingChannel, .transfer transfer item.payload⟩,
      { s with
        nextOutgoingId := s.nextOutgoingId + 1
        remoteIncomingWindow := s.remoteIncomingWindow.saturatingSub 1 })
  if item.isFirst then
    match item.transfer.deliveryTag with
    | none => (.error .illegalState, s)
    | some deliveryTag =>
        let deliveryId := s.nextOutgoingDeliveryId
        let s := { s with nextOutgoingDeliveryId := s.nextOutgoingDeliveryId + 1 }
        let transfer := { item.transfer with deliveryId := some deliveryId }
        let s :=
          if settled then s
          else
            { s with
              deliveryTagById := Function.update s.deliveryTagById (.receiver, deliveryId)
                (some (item.inputHandle, deliveryTag)) }
        sent s transfer
  else sent s item.transfer

/-- The loop of `prepare_session_frames_from_buffered_transfers` over the buffered transfers. -/
def drainBuffer (s : Session) : List BufferedTransfer → List SessionFrame →
    Except SessionInnerError (List SessionFrame) × Session
  | [], frames => (.ok frames, { s with remoteIncomingWindowExhaustedBuffer := [] })
  | item :: buffer, frames =>
      if s.remoteIncomingWindow > 0 then
        match onOutgoingTransferInner s item with
        | (.ok frame, s) => drainBuffer s buffer (frames ++ [frame])
        | (.error e, s) => (.error e, { s with remoteIncomingWindowExhaustedBuffer := buffer })
      else (.ok frames, { s with remoteIncomingWindowExhaustedBuffer := item :: buffer })

def prepareSessionFramesFromBufferedTransfers (s : Session) (outputFrameBuffer : List SessionFrame) :
    Except SessionInnerError (List SessionFrame) × Session :=
  drainBuffer s s.remoteIncomingWindowExhaustedBuffer outputFrameBuffer

def pushBuffer (s : Session) (item : BufferedTransfer) : Session :=
  { s with
    remoteIncomingWindowExhaustedBuffer := s.remoteIncomingWindowExhaustedBuffer ++ [item] }

def prepareSessionFramesFromBufferedAndCurrentTransfers (s : Session)
    (outputFrameBuffer : List SessionFrame) (cur : BufferedTransfer) :
    Except SessionInnerError (List SessionFrame) × Session :=
  match prepareSessionFramesFromBufferedTransfers s outputFrameBuffer with
  | (.error e, s) => (.error e, s)
  | (.ok frames, s) =>
      if s.remoteIncomingWindow > 0 then
        match onOutgoingTransferInner s cur with
        | (.ok frame, s) => (.ok (frames ++ [frame]), s)
        | (.error e, s) => (.error e, s)
      else (.ok frames, s.pushBuffer cur)

def onOutgoingTransfer (s : Session) (item : BufferedTransfer) :
    Except SessionInnerError (Option SessionOutgoingItem) × Session :=
  if s.remoteIncomingWindow = 0 then (.ok none, s.pushBuffer item)
  else if s.remoteIncomingWindowExhaustedBuffer = [] then
    match onOutgoingTransferInner s item with
    | (.ok frame, s) => (.ok (some (.singleFrame frame)), s)
    | (.error e, s) => (.error e, s)
  else
    match prepareSessionFramesFromBufferedAndCurrentTransfers s [] item with
    | (.ok frames, s) => (.ok (some (.multipleFrames frames)), s)
    | (.error e, s) => (.error e, s)

/-! ## Flows -/

def onOutgoingSessionFlow (s : Session) : SessionFrame :=
  ⟨s.outgoingChannel, .flow
    { nextIncomingId := some s.nextIncomingId
      incomingWindow := s.incomingWindow
      nextOutgoingId := s.nextOutgoingId
      outgoingWindow := s.outgoingWindow
      handle := none
      deliveryCount := none
      linkCredit := none
      available := none
      drain := false
      echo := false
      properties := none }⟩

def onOutgoingFlow (s : Session) (flow : LinkFlow) : SessionFrame :=
  ⟨s.outgoingChannel, .flow
    { nextIncomingId := some s.nextIncomingId
      incomingWindow := s.incomingWindow
      nextOutgoingId := s.nextOutgoingId
      outgoingWindow := s.outgoingWindow
      handle := some flow.handle
      deliveryCount := flow.deliveryCount
      linkCredit := flow.linkCredit
      available := flow.available
      drain := flow.drain
      echo := flow.echo
      properties := flow.properties }⟩

/-- The session part of an incoming flow: the three remote counters. -/
def applySessionFlow (s : Session) (flow : Flow) : Session :=
  { s with
    nextIncomingId := flow.nextOutgoingId
    remoteOutgoingWindow := flow.outgoingWindow
    remoteIncomingWindow :=
      match flow.nextIncomingId with
      | some flowNextIncomingId =>
          (flowNextIncomingId.saturatingAdd flow.incomingWindow).saturatingSub s.nextOutgoingId
      | none =>
          (s.initialOutgoingId.saturatingAdd flow.incomingWindow).saturatingSub s.nextOutgoingId }

def onIncomingFlowInner (s : Session) (flow : Flow) :
    Except SessionInnerError (Option LinkFlow) × Session :=
  let s := s.applySessionFlow flow
  match LinkFlow.tryFrom flow with
  | none => (.ok none, s)
  | some linkFlow =>
      match s.linkByInputHandle ⟨linkFlow.handle⟩ with
      | none => (.error .unattachedHandle, s)
      | some relay =>
          match relay.onIncomingFlow s.links linkFlow with
          | (.ok reply, links) => (.ok reply, { s with links })
          | (.error e, links) => (.error (.ofLinkRelayError e), { s with links })

def onIncomingFlow (s : Session) (flow : Flow) :
    Except SessionInnerError (Option SessionOutgoingItem) × Session :=
  match onIncomingFlowInner s flow with
  | (.error e, s) => (.error e, s)
  | (.ok outgoingLinkFlow, s) =>
      -- the reply is built from the counters before the buffer is drained
      let outgoingSessionFlow := outgoingLinkFlow.map s.onOutgoingFlow
      if s.remoteIncomingWindow > 0 ∧ s.remoteIncomingWindowExhaustedBuffer ≠ [] then
        match prepareSessionFramesFromBufferedTransfers s outgoingSessionFlow.toList with
        | (.ok frames, s) => (.ok (some (.multipleFrames frames)), s)
        | (.error e, s) => (.error e, s)
      else (.ok (outgoingSessionFlow.map .singleFrame), s)

def maybeOutgoingSessionFlow (s : Session) : Option SessionOutgoingItem × Session :=
  if s.localState ≠ .mapped then (none, s)
  else if s.needFlowCount ≥ s.incomingWindow / 2 then
    let s := { s with needFlowCount := 0 }
    (some (.singleFrame s.onOutgoingSessionFlow), s)
  else (none, s)

end Session

end Fe2o3Amqp
