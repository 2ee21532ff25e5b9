import Fe2o3Amqp.Types
import Fe2o3Amqp.Util.IndexMap
import Fe2o3Amqp.Util.Saturating

/-!
# Link relays

The session side of a link: the relay that the session keeps for every attached link and the state
it shares with the link endpoint.  What the source shares through `Arc`s and a channel (the flow
state, the unsettled map, the queue of incoming frames) is one `LinkCell` of a store addressed by
`LinkId`; a relay holds the address.  Sending into the queue fails once the endpoint has dropped its
receiving half.  Back-pressure of the bounded queue is not modelled.
-/

namespace Fe2o3Amqp

abbrev Payload := Bytes

/-- `InputHandle`: the handle chosen by the peer. -/
structure InputHandle where
  handle : Handle
deriving DecidableEq, Repr

/-- `OutputHandle`: the handle chosen locally. -/
structure OutputHandle where
  handle : Handle
deriving DecidableEq, Repr

/-- The link part of a `Flow`. -/
structure LinkFlow where
  handle : Handle
  deliveryCount : Option SequenceNo
  linkCredit : Option UInt32
  available : Option UInt32
  drain : Bool
  echo : Bool
  properties : Option Fields

/-- `TryFrom<Flow> for LinkFlow`: only a flow with a handle has a link part. -/
def LinkFlow.tryFrom (value : Flow) : Option LinkFlow :=
  value.handle.map fun handle =>
    { handle
      deliveryCount := value.deliveryCount
      linkCredit := value.linkCredit
      available := value.available
      drain := value.drain
      echo := value.echo
      properties := value.properties }

structure LinkTransfer where
  inputHandle : InputHandle
  performative : Transfer
  payload : Payload

inductive LinkFrame where
  | attach (attach : Attach)
  | flow (flow : LinkFlow)
  | remoteTransfer (frame : LinkTransfer)
  | firstTransfer (frame : LinkTransfer)
  | transferContinuation (frame : LinkTransfer)
  | disposition (disposition : Disposition)
  | detach (detach : Detach)
  | acquisition (txnId : TransactionId)

/-! ## Link flow state -/

structure LinkFlowStateInner where
  initialDeliveryCount : SequenceNo
  deliveryCount : SequenceNo
  linkCredit : UInt32
  available : UInt32
  drain : Bool
  properties : Option Fields

namespace LinkFlowStateInner

def asLinkFlow (state : LinkFlowStateInner) (outputHandle : OutputHandle)
    (echo includeProperties : Bool) : LinkFlow where
  handle := outputHandle.handle
  deliveryCount := some state.deliveryCount
  linkCredit := some state.linkCredit
  available := some state.available
  drain := state.drain
  echo := echo
  properties := if includeProperties then state.properties else none

/-- `LinkFlowState<SenderMarker>::on_incoming_flow`. -/
def senderOnIncomingFlow (state : LinkFlowStateInner) (flow : LinkFlow)
    (outputHandle : OutputHandle) : LinkFlowStateInner × Option LinkFlow :=
  let deliveryCountRcv := flow.deliveryCount.getD state.initialDeliveryCount
  let state :=
    match flow.linkCredit with
    | some linkCreditRcv =>
        { state with
          linkCredit := (deliveryCountRcv.saturatingAdd linkCreditRcv).saturatingSub
            state.deliveryCount }
    | none => state
  let state := { state with drain := flow.drain }
  if flow.drain then
    let state :=
      { state with deliveryCount := state.deliveryCount + state.linkCredit, linkCredit := 0 }
    (state, some (state.asLinkFlow outputHandle false false))
  else if flow.echo then (state, some (state.asLinkFlow outputHandle false false))
  else (state, none)

/-- `LinkFlowState<ReceiverMarker>::on_incoming_flow`. -/
def receiverOnIncomingFlow (state : LinkFlowStateInner) (flow : LinkFlow)
    (outputHandle : OutputHandle) : LinkFlowStateInner × Option LinkFlow :=
  let state := { state with deliveryCount := flow.deliveryCount.getD state.deliveryCount }
  let state := { state with available := flow.available.getD state.available }
  if flow.echo then (state, some (state.asLinkFlow outputHandle false false)) else (state, none)

end LinkFlowStateInner

/-! ## Shared link state -/

inductive ConnectionStopReason where
  | closed
  | closedWithError (error : Error)
  | remoteClosed
  | remoteClosedWithError (error : Error)

inductive SessionStopReason where
  | ended
  | endedWithError (error : Error)
  | remoteEnded
  | remoteEndedWithError (error : Error)
  | connectionStopped (reason : ConnectionStopReason)

inductive LinkStateError where
  | illegalState
  | sessionStopped (reason : SessionStopReason)
  | remoteDetached
  | remoteDetachedWithError (error : Error)
  | remoteClosed
  | remoteClosedWithError (error : Error)
  | expectImmediateDetach

/-- The oneshot channel on which the outcome of one sent delivery is reported.  It identifies the
delivery. -/
abbrev OneshotId := Nat

/-- `UnsettledMessage`: a sent delivery that the peer has not settled. -/
structure UnsettledMessage where
  payload : Payload
  state : Option DeliveryState
  messageFormat : UInt32
  sender : OneshotId

abbrev LinkId := Nat

/-- What a relay shares with its link endpoint. -/
structure LinkCell where
  flowState : LinkFlowStateInner
  senderUnsettled : Option (IndexMap DeliveryTag UnsettledMessage)
  receiverUnsettled : Option (IndexMap DeliveryTag (Option DeliveryState))
  incoming : List LinkFrame
  endpointDropped : Bool

/-- The cells of all links, and the results sent on the oneshot channels so far. -/
structure LinkStore where
  cell : LinkId → LinkCell
  outcomes : OneshotId → Option (Except LinkStateError (Option DeliveryState))

namespace LinkStore

def modify (store : LinkStore) (link : LinkId) (f : LinkCell → LinkCell) : LinkStore :=
  { store with cell := Function.update store.cell link (f (store.cell link)) }

/-- `mpsc::Sender::send`. -/
def send (store : LinkStore) (link : LinkId) (frame : LinkFrame) : Option LinkStore :=
  if (store.cell link).endpointDropped then none
  else some (store.modify link fun cell => { cell with incoming := cell.incoming ++ [frame] })

/-- `oneshot::Sender::send`. -/
def resolve (store : LinkStore) (sender : OneshotId)
    (result : Except LinkStateError (Option DeliveryState)) : LinkStore :=
  { store with outcomes := Function.update store.outcomes sender (some result) }

/-- `m.swap_remove(&delivery_tag).map(|msg| msg.settle_with_state(state))` on a sender link. -/
def settle (store : LinkStore) (link : LinkId) (tag : DeliveryTag) (state : Option DeliveryState) :
    LinkStore :=
  match (store.cell link).senderUnsettled with
  | none => store
  | some m =>
      match m.get tag with
      | none => store
      | some msg =>
          (store.modify link fun cell =>
            { cell with senderUnsettled := some (m.swapRemove tag) }).resolve msg.sender (.ok state)

/-- `fail_pending_unsettled`: take the map and fail every entry. -/
def failPendingUnsettled (store : LinkStore) (link : LinkId) (detach : Detach) : LinkStore :=
  match (store.cell link).senderUnsettled with
  | none => store
  | some m =>
      let error :=
        match detach.error with
        | some error => LinkStateError.remoteClosedWithError error
        | none => LinkStateError.remoteClosed
      m.entries.foldl (fun store entry => store.resolve entry.2.sender (.error error))
        (store.modify link fun cell => { cell with senderUnsettled := none })

end LinkStore

/-! ## The relay -/

/-- `LinkRelay<O>`. -/
inductive LinkRelay (O : Type) where
  | sender (link : LinkId) (outputHandle : O) (receiverSettleMode : ReceiverSettleMode)
  | receiver (link : LinkId) (outputHandle : O) (receiverSettleMode : ReceiverSettleMode)
      (more : Bool)

inductive LinkRelayError where
  | unattachedHandle | transferFrameToSender

/-- The symbol under which a flow names the transaction of an acquisition. -/
def txnIdKey : Symbol := ⟨"txn-id"⟩

namespace LinkRelay

def link {O : Type} : LinkRelay O → LinkId
  | .sender link _ _ | .receiver link _ _ _ => link

def outputHandle {O : Type} : LinkRelay O → O
  | .sender _ outputHandle _ | .receiver _ outputHandle _ _ => outputHandle

def withOutputHandle (relay : LinkRelay Unit) (outputHandle : OutputHandle) :
    LinkRelay OutputHandle :=
  match relay with
  | .sender link _ mode => .sender link outputHandle mode
  | .receiver link _ mode more => .receiver link outputHandle mode more

/-- The transaction id of a transactional acquisition request. -/
def acquisitionTxnId (flow : LinkFlow) : Option TransactionId :=
  match flow.properties.bind fun m => OrderedMap.get (· == ·) m txnIdKey with
  | some (.binary txnId) => some txnId
  | _ => none

def onIncomingFlow (relay : LinkRelay OutputHandle) (store : LinkStore) (flow : LinkFlow) :
    Except LinkRelayError (Option LinkFlow) × LinkStore :=
  match relay with
  | .sender link outputHandle _ =>
      let sent :=
        match acquisitionTxnId flow with
        | some txnId => store.send link (.acquisition txnId)
        | none => some store
      match sent with
      | none => (.error .unattachedHandle, store)
      | some store =>
          let (state, reply) := (store.cell link).flowState.senderOnIncomingFlow flow outputHandle
          (.ok reply, store.modify link fun cell => { cell with flowState := state })
  | .receiver link outputHandle _ _ =>
      let (state, reply) := (store.cell link).flowState.receiverOnIncomingFlow flow outputHandle
      (.ok reply, store.modify link fun cell => { cell with flowState := state })

/-- Returns whether an echo is needed. -/
def onIncomingDisposition (relay : LinkRelay OutputHandle) (store : LinkStore) (settled : Bool)
    (state : Option DeliveryState) (deliveryTag : DeliveryTag) : Bool × LinkStore :=
  match relay with
  | .sender link _ receiverSettleMode =>
      if settled then (false, store.settle link deliveryTag state)
      else
        let isTerminal :=
          match state with
          | some s => s.isTerminal
          | none => false
        let store :=
          if isTerminal then store.settle link deliveryTag state
          else
            store.modify link fun cell =>
              { cell with
                senderUnsettled := cell.senderUnsettled.map fun m =>
                  m.modify deliveryTag fun msg => { msg with state } }
        (receiverSettleMode == .second, store)
  | .receiver link _ _ _ =>
      let update := fun m : IndexMap DeliveryTag (Option DeliveryState) =>
        if settled then m.swapRemove deliveryTag else m.modify deliveryTag fun _ => state
      (false, store.modify link fun cell =>
        { cell with receiverUnsettled := cell.receiverUnsettled.map update })

/-- The delivery-id and tag that the session has to remember for a receiver that settles second,
with the relay's new state. -/
def onIncomingTransfer (relay : LinkRelay OutputHandle) (store : LinkStore) (transfer : Transfer)
    (payload : Payload) :
    Except LinkRelayError (Option (DeliveryNumber × DeliveryTag)) × LinkRelay OutputHandle ×
      LinkStore :=
  match relay with
  | .sender .. => (.error .transferFrameToSender, relay, store)
  | .receiver link outputHandle mode more =>
      let frame : LinkTransfer :=
        { inputHandle := ⟨transfer.handle⟩, performative := transfer, payload }
      match store.send link (.remoteTransfer frame) with
      | none => (.error .unattachedHandle, relay, store)
      | some store =>
          if transfer.settled.getD false then (.ok none, relay, store)
          else
            match mode with
            | .first => (.ok none, relay, store)
            | .second =>
                if more then (.ok none, .receiver link outputHandle mode transfer.more, store)
                else
                  match transfer.deliveryId, transfer.deliveryTag with
                  | some id, some tag => (.ok (some (id, tag)), relay, store)
                  | _, _ => (.ok none, relay, store)

def onIncomingDetach (relay : LinkRelay OutputHandle) (store : LinkStore) (detach : Detach)
    (remoteInitiated : Bool) : Option Detach × LinkStore :=
  let forwarded := store.send relay.link (.detach detach)
  let store' := forwarded.getD store
  let reply : Detach :=
    { handle := relay.outputHandle.handle, closed := detach.closed, error := detach.error }
  match relay with
  | .sender link _ _ =>
      if remoteInitiated then
        (some reply, if detach.closed then store'.failPendingUnsettled link detach else store')
      else if forwarded.isNone && detach.closed then
        (none, store'.failPendingUnsettled link detach)
      else (none, store')
  | .receiver .. => (if remoteInitiated then some reply else none, store')

end LinkRelay

end Fe2o3Amqp
