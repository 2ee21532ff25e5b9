import Fe2o3Amqp.Link.Relay

/-!
# The receiving link endpoint

`ReceiverLink`: what the link does with a complete or a partial delivery and how it disposes of one.
The flow state and the unsettled map are the ones that the relay shares with the link.  The writer
is the channel to the session: the frames handed over so far, and whether the session still listens.
Decoding a message is a parameter: it is given the bytes that the reader over the chunks yields.
-/

namespace Fe2o3Amqp

inductive LinkState where
  | unattached | attachSent | incompleteAttachSent | attachReceived | incompleteAttachReceived
  | attached | incompleteAttachExchanged | detachSent | detached | closeSent | closed
deriving DecidableEq, Repr

/-! ## Errors -/

inductive DetachError where
  | illegalState
  | sessionStopped (reason : SessionStopReason)
  | remoteDetachedWithError (error : Error)
  | closedByRemote
  | detachedByRemote
  | remoteClosedWithError (error : Error)

inductive IllegalLinkStateError where
  | illegalState
  | sessionStopped (reason : SessionStopReason)

def LinkStateError.ofDetachError : DetachError → LinkStateError
  | .illegalState => .illegalState
  | .sessionStopped reason => .sessionStopped reason
  | .remoteDetachedWithError error => .remoteDetachedWithError error
  | .closedByRemote => .remoteClosed
  | .detachedByRemote => .remoteDetached
  | .remoteClosedWithError error => .remoteClosedWithError error

def LinkStateError.ofIllegalLinkStateError : IllegalLinkStateError → LinkStateError
  | .illegalState => .illegalState
  | .sessionStopped reason => .sessionStopped reason

structure DeliveryInfo where
  deliveryId : DeliveryNumber
  deliveryTag : DeliveryTag
  rcvSettleMode : Option ReceiverSettleMode

structure MessageDecodeError (E : Type) where
  info : DeliveryInfo
  source : E

inductive ReceiverTransferError (E : Type) where
  | illegalState
  | transferLimitExceeded
  | deliveryIdIsNone
  | deliveryTagIsNone
  | messageDecode (error : MessageDecodeError E)
  | illegalRcvSettleModeInTransfer
  | inconsistentFieldInMultiFrameDelivery

/-- The text of the error. -/
def ReceiverTransferError.toString {E : Type} : ReceiverTransferError E → String
  | .illegalState => "Illegal local state"
  | .transferLimitExceeded =>
      "The peer sent more message transfers than currently allowed on the link"
  | .deliveryIdIsNone => "Delivery ID is not found in Transfer"
  | .deliveryTagIsNone => "Delivery tag is not found in Transfer"
  | .messageDecode _ => "Decoding Message failed"
  | .illegalRcvSettleModeInTransfer =>
      "Negotiated value is first. Setting mode to second is illegal"
  | .inconsistentFieldInMultiFrameDelivery => "Field is inconsisten in multi-frame delivery"

/-! ## The channel to the session -/

structure LinkWriter where
  sent : List LinkFrame
  closed : Bool

/-- `mpsc::Sender::send`. -/
def LinkWriter.send (writer : LinkWriter) (frame : LinkFrame) : Option LinkWriter :=
  if writer.closed then none else some { writer with sent := writer.sent ++ [frame] }

def LinkFrame.isDetach : LinkFrame → Bool
  | .detach _ => true
  | _ => false

/-- How many Detaches the link has handed over. -/
def LinkWriter.detaches (writer : LinkWriter) : Nat := writer.sent.countP (·.isDetach)

/-! ## Sections -/

/-- The constructor of a section: a described type whose descriptor is one of the nine section codes,
written as smallulong or (its first byte) as ulong. -/
def isSectionHeader (b0 b1 b2 : UInt8) : Bool :=
  b0 == 0x00 && (b1 == 0x53 || b1 == 0x80) && (0x70 ≤ b2 && b2 ≤ 0x78)

/-- The positions at which three consecutive bytes look like a section header. -/
def sectionHeaders (bytes : Bytes) : List Nat :=
  (bytes.zip ((bytes.drop 1).zip (bytes.drop 2))).zipIdx.filterMap fun ((b0, b1, b2), i) =>
    if isSectionHeader b0 b1 b2 then some i else none

def countNumberOfSectionsAndOffset (bytes : Bytes) : UInt32 × UInt64 :=
  let headers := sectionHeaders bytes
  let lastPos := headers.getLast?.getD 0
  (UInt32.ofNat headers.length, UInt64.ofNat (bytes.length - lastPos))

/-! ## The link -/

abbrev ReceiverUnsettledMap := IndexMap DeliveryTag (Option DeliveryState)

structure ReceiverLink where
  localState : LinkState
  outputHandle : Option OutputHandle
  rcvSettleMode : ReceiverSettleMode
  maxMessageSize : UInt64
  flowState : LinkFlowStateInner
  unsettled : Option ReceiverUnsettledMap
  sessionStopReason : Option SessionStopReason

structure Delivery (M : Type) where
  linkOutputHandle : Handle
  deliveryId : DeliveryNumber
  deliveryTag : DeliveryTag
  messageFormat : Option MessageFormat
  rcvSettleMode : Option ReceiverSettleMode
  message : M

def Delivery.info {M : Type} (delivery : Delivery M) : DeliveryInfo :=
  ⟨delivery.deliveryId, delivery.deliveryTag, delivery.rcvSettleMode⟩

namespace ReceiverLink

variable {M E : Type}

/-- The `max_message_size` accessor: zero means no limit. -/
def maxMessageSize? (link : ReceiverLink) : Option UInt64 :=
  if link.maxMessageSize = 0 then none else some link.maxMessageSize

/-- The error of a send on the channel of a session that is gone. -/
def stopped (link : ReceiverLink) : IllegalLinkStateError :=
  match link.sessionStopReason with
  | some reason => .sessionStopped reason
  | none => .illegalState

/-- `lock.get_or_insert(OrderedMap::new()).insert(delivery_tag, state)`. -/
def insertUnsettled (link : ReceiverLink) (tag : DeliveryTag) (state : Option DeliveryState) :
    ReceiverLink :=
  { link with unsettled := some ((link.unsettled.getD IndexMap.empty).insert tag state) }

/-- `LinkFlowState<ReceiverMarker>::consume`. -/
def consume (link : ReceiverLink) (count : UInt32) :
    Except (ReceiverTransferError E) ReceiverLink :=
  if link.flowState.linkCredit < count then .error .transferLimitExceeded
  else
    .ok { link with
      flowState :=
        { link.flowState with
          deliveryCount := link.flowState.deliveryCount + count
          linkCredit := link.flowState.linkCredit.saturatingSub count } }

def getLinkFlow (link : ReceiverLink) (handle : Handle) (linkCredit : Option UInt32)
    (drain : Option Bool) (echo includeProperties : Bool) : LinkFlow × ReceiverLink :=
  let flowState :=
    { link.flowState with
      linkCredit := linkCredit.getD link.flowState.linkCredit
      drain := drain.getD link.flowState.drain }
  ({ handle
     deliveryCount := some flowState.deliveryCount
     linkCredit := some flowState.linkCredit
     available := none
     drain := flowState.drain
     echo
     properties := if includeProperties then flowState.properties else none },
    { link with flowState })

def sendFlow (link : ReceiverLink) (writer : LinkWriter) (linkCredit : Option UInt32)
    (drain : Option Bool) (echo includeProperties : Bool) :
    Except IllegalLinkStateError LinkWriter × ReceiverLink :=
  match link.outputHandle with
  | none => (.error .illegalState, link)
  | some handle =>
      let (flow, link) := link.getLinkFlow handle.handle linkCredit drain echo includeProperties
      match writer.send (.flow flow) with
      | none => (.error link.stopped, link)
      | some writer => (.ok writer, link)

def onTransferState (link : ReceiverLink) (deliveryTag : Option DeliveryTag) (settled : Option Bool)
    (state : DeliveryState) : Except (ReceiverTransferError E) ReceiverLink :=
  match deliveryTag with
  | none => .error .deliveryTagIsNone
  | some deliveryTag =>
      let map := link.unsettled.getD IndexMap.empty
      if settled = some true then .ok { link with unsettled := some (map.swapRemove deliveryTag) }
      else
        match map.get deliveryTag with
        | none => .ok { link with unsettled := some (map.insert deliveryTag (some state)) }
        | some value =>
            -- no later transfer can alter a terminal state
            if (value.map DeliveryState.isTerminal).getD false then
              .ok { link with unsettled := some map }
            else
              .ok { link with unsettled := some (map.modify deliveryTag fun _ => some state) }

def onIncompleteTransfer (link : ReceiverLink) (deliveryTag : DeliveryTag) (sectionNumber : UInt32)
    (sectionOffset : UInt64) : ReceiverLink :=
  link.insertUnsettled deliveryTag (some (.received ⟨sectionNumber, sectionOffset⟩))

/-- The mode that an unsettled delivery is disposed of in, if the transfer names one. -/
def transferSettleMode (link : ReceiverLink) (transfer : Transfer) :
    Except (ReceiverTransferError E) (Option ReceiverSettleMode) :=
  match transfer.rcvSettleMode with
  | none => .ok none
  | some mode =>
      if link.rcvSettleMode = .first ∧ mode = .second then .error .illegalRcvSettleModeInTransfer
      else .ok (some mode)

/-- The end of `on_complete_transfer`, once the payload is decoded. -/
def handOver (link : ReceiverLink) (info : DeliveryInfo) (messageFormat : Option MessageFormat)
    (result : Except E M) : Except (ReceiverTransferError E) (Delivery M) :=
  match result with
  | .error source => .error (.messageDecode ⟨info, source⟩)
  | .ok message =>
      match link.outputHandle with
      | none => .error .illegalState
      | some handle =>
          .ok
            { linkOutputHandle := handle.handle
              deliveryId := info.deliveryId
              deliveryTag := info.deliveryTag
              messageFormat
              rcvSettleMode := info.rcvSettleMode
              message }

def onCompleteTransfer (decode : Bytes → Except E M) (link : ReceiverLink) (transfer : Transfer)
    (payload : List Payload) (sectionNumber : UInt32) (sectionOffset : UInt64) :
    Except (ReceiverTransferError E) (Delivery M) × ReceiverLink :=
  if link.localState ≠ .attached ∧ link.localState ≠ .incompleteAttachExchanged then
    (.error .illegalState, link)
  else
    match link.consume 1 with
    | .error e => (.error e, link)
    | .ok link =>
        let settledBySender := transfer.settled.getD false
        match transfer.deliveryId, transfer.deliveryTag with
        | none, _ => (.error .deliveryIdIsNone, link)
        | some _, none => (.error .deliveryTagIsNone, link)
        | some deliveryId, some deliveryTag =>
            if settledBySender then
              (link.handOver ⟨deliveryId, deliveryTag, none⟩ transfer.messageFormat
                (decode payload.flatten), link)
            else
              match link.transferSettleMode transfer with
              | .error e => (.error e, link)
              | .ok mode =>
                  let link := link.insertUnsettled deliveryTag
                    (some (.received ⟨sectionNumber, sectionOffset⟩))
                  (link.handOver ⟨deliveryId, deliveryTag, mode⟩ transfer.messageFormat
                    (decode payload.flatten), link)

/-- `settled.unwrap_or(..)` of `dispose`: by default the settle mode decides. -/
def disposesSettled (link : ReceiverLink) (info : DeliveryInfo) (settled : Option Bool) : Bool :=
  settled.getD (info.rcvSettleMode.getD link.rcvSettleMode == .first)

def dispose (link : ReceiverLink) (writer : LinkWriter) (info : DeliveryInfo)
    (settled : Option Bool) (state : DeliveryState) (batchable : Bool) :
    Except IllegalLinkStateError LinkWriter × ReceiverLink :=
  let settled := link.disposesSettled info settled
  let known := (link.unsettled.bind (·.get info.deliveryTag)).isSome
  let link :=
    if settled then { link with unsettled := link.unsettled.map (·.swapRemove info.deliveryTag) }
    else link.insertUnsettled info.deliveryTag (some state)
  if known then
    match writer.send (.disposition
      { role := .receiver, first := info.deliveryId, last := none, settled, state := some state
        batchable }) with
    | none => (.error link.stopped, link)
    | some writer => (.ok writer, link)
  else (.ok writer, link)

end ReceiverLink

end Fe2o3Amqp
