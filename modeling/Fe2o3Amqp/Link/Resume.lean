import Fe2o3Amqp.Link.Attach
import Fe2o3Amqp.Link.SenderLink
import Fe2o3Amqp.Session.Model
import Fe2o3Amqp.Util.Run

/-!
# Resuming a sender

`resume_incoming_attach` of a sender: attaches are exchanged, the deliveries of the unsettled map are
resumed one by one, and the link is detached and attached again until there is nothing to resume.
The procedure is kept at its await points and at the head of its loops; in between, the relay of the
link may change what it shares with the link.  A detach that the peer answers by closing leads into
`reattach_then_close`.
-/

namespace Fe2o3Amqp

/-- `SenderResumeErrorKind`, with the errors of the allocation of a handle apart. -/
inductive ResumeFailure where
  | allocation (error : AllocLinkError)
  | attach (failure : AttachFailure)
  | send (failure : SendFailure)
  | detach (error : DetachError)

/-- A delivery whose frames are handed over, with what becomes of its oneshot channel afterwards. -/
inductive OnTheWay where
  | aborted (sender : Option OneshotId)
  | settled (message : UnsettledMessage)
  /-- The delivery is in the unsettled map; the registration is withdrawn if the send fails. -/
  | registered (deliveryTag : DeliveryTag) (sender : OneshotId)

def OnTheWay.sender : OnTheWay → Option OneshotId
  | .aborted sender => sender
  | .settled message => some message.sender
  | .registered _ sender => some sender

/-- What is left of a round of deliveries: of the loop over the resuming deliveries, or of the one
over the resend buffer. -/
inductive Remaining where
  | deliveries (rest : List (DeliveryTag × ResumingDelivery)) (incomplete : Bool)
  | resends (rest : List UnsettledMessage)

/-- The oneshot channels of the deliveries that are left. -/
def Remaining.senders : Remaining → List OneshotId
  | .deliveries rest _ => rest.filterMap fun entry => entry.2.sender
  | .resends rest => rest.map (·.sender)

/-- Inside `reattach_then_close`. -/
inductive ClosingAwait where
  | allocation
  | exchange
  | attachSend (attach : Attach)
  | remoteAttach
  /-- `handle_attach_error` refuses the Attach. -/
  | refusalSend (detach : Detach)
  | refusalReply
  | detachSend (detach : Detach)
  | detachReply

inductive ResumeAwait where
  /-- `reallocate_output_handle`. -/
  | allocation
  /-- The head of the loop. -/
  | exchange
  | attachSend (attach : Attach)
  | remoteAttach
  | next (remaining : Remaining)
  | transfer (split : TransferSplit) (delivery : OnTheWay) (remaining : Remaining)
  /-- `get_delivery_tag_or_detached` of a delivery that is sent again. -/
  | credit (message : UnsettledMessage) (rest : List UnsettledMessage)
  | detachSend (detach : Detach)
  | detachReply
  | closing (awaiting : ClosingAwait)
  | returned (result : Except ResumeFailure Unit)

/-- What the procedure does that can be seen from outside. -/
inductive ResumeOutput where
  | attach (attach : Attach)
  /-- The Attach of the peer was accepted, with these deliveries in the unsettled map. -/
  | exchanged (remoteAttach : Attach) (unsettled : List OneshotId)
  | transfer (frame : LinkFrame) (sender : Option OneshotId)
  | detach (detach : Detach)
  /-- A frame of `reattach_then_close`. -/
  | closing (frame : LinkFrame)

structure ResumeTask where
  link : SenderLink
  id : LinkId
  store : LinkStore
  isReattaching : Bool
  /-- `initial_remote_attach`. -/
  remoteAttach : Option Attach
  resendBuf : List UnsettledMessage
  writerClosed : Bool
  incomingClosed : Bool
  awaiting : ResumeAwait

/-- The performative of a delivery that is resumed or aborted. -/
def resumingTransfer (handle : OutputHandle) (deliveryTag : DeliveryTag)
    (messageFormat : MessageFormat) (settled : Option Bool) (state : Option DeliveryState)
    (aborted : Bool) : Transfer where
  handle := handle.handle
  deliveryId := none
  deliveryTag := some deliveryTag
  messageFormat := some messageFormat
  settled := settled
  more := false
  rcvSettleMode := none
  state := state
  resume := true
  aborted := aborted
  batchable := false

namespace ResumeTask

def cell (t : ResumeTask) : LinkCell := t.store.cell t.id

def withCell (t : ResumeTask) (f : LinkCell → LinkCell) : ResumeTask :=
  { t with store := t.store.modify t.id f }

def withEndpoint (t : ResumeTask) (endpoint : LinkEndpoint) : ResumeTask :=
  { t with link := { t.link with toLinkEndpoint := endpoint } }

def finish (t : ResumeTask) (result : Except ResumeFailure Unit) : ResumeTask :=
  { t with awaiting := .returned result }

/-- The error of a detach or of a reattach for a session that is gone. -/
def stopped (t : ResumeTask) : DetachError :=
  match t.link.sessionStopReason with
  | some reason => .sessionStopped reason
  | none => .illegalState

/-- The error of an attach for a session that is gone. -/
def attachStopped (t : ResumeTask) : AttachFailure :=
  match t.link.sessionStopReason with
  | some reason => .sessionStopped reason
  | none => .attach .illegalState

/-- A new channel for the relay; then the session is asked for a handle. -/
def reallocate (t : ResumeTask) (awaiting : ResumeAwait) : ResumeTask :=
  { t.withCell fun cell => { cell with incoming := [], endpointDropped := false } with
    incomingClosed := false
    awaiting }

/-! ## Deliveries -/

/-- `UnsettledRegistration::drop`; what else belongs to the delivery is dropped with it. -/
def abandon (t : ResumeTask) : OnTheWay → ResumeTask
  | .registered tag _ => t.withCell fun cell =>
      { cell with senderUnsettled := cell.senderUnsettled.map (·.swapRemove tag) }
  | .aborted _ | .settled _ => t

/-- The last frame was handed over. -/
def delivered (t : ResumeTask) : OnTheWay → ResumeTask
  | .aborted (some sender) => { t with store := t.store.resolve sender (.ok none) }
  | .settled message => { t with store := t.store.resolve message.sender (.ok message.state) }
  | .aborted none | .registered _ _ => t

def failSend (t : ResumeTask) (failure : SendFailure) : ResumeTask :=
  t.finish (.error (.send failure))

/-- `send_transfer_without_modifying_unsettled_map` up to the first send. -/
def beginTransfer (t : ResumeTask) (transfer : Transfer) (payload : Payload) (delivery : OnTheWay)
    (remaining : Remaining) : ResumeTask :=
  match t.link.startTransfer transfer payload with
  | .error failure => (t.abandon delivery).failSend failure
  | .ok split => { t with awaiting := .transfer split delivery remaining }

def sendTransferWithOutcome (t : ResumeTask) (transfer : Transfer) (deliveryTag : DeliveryTag)
    (unsettled : UnsettledMessage) (remaining : Remaining) : ResumeTask :=
  if t.link.isSettledOnSend transfer then
    t.beginTransfer transfer unsettled.payload (.settled unsettled) remaining
  else
    (t.withCell fun cell =>
      { cell with
        senderUnsettled :=
          some ((cell.senderUnsettled.getD IndexMap.empty).insert deliveryTag unsettled) }).beginTransfer
      transfer unsettled.payload (.registered deliveryTag unsettled.sender) remaining

/-- `resume`: whether the delivery goes out settled is for the link's mode to say. -/
def resumeSettled (t : ResumeTask) : Bool :=
  match t.link.sndSettleMode with
  | .settled => true
  | .unsettled => false
  | .mixed => false

def handleResumingDelivery (t : ResumeTask) (deliveryTag : DeliveryTag) (resuming : ResumingDelivery)
    (remaining : Remaining) : ResumeTask :=
  match resuming, t.link.outputHandle with
  | .resend message, _ =>
      { t with resendBuf := t.resendBuf ++ [message], awaiting := .next remaining }
  | _, none => t.failSend (.link .illegalState)
  | .abort messageFormat sender, some handle =>
      t.beginTransfer (resumingTransfer handle deliveryTag messageFormat none none true) []
        (.aborted sender) remaining
  | .resume message, some handle =>
      t.sendTransferWithOutcome
        (resumingTransfer handle deliveryTag message.messageFormat (some t.resumeSettled)
          message.state false)
        deliveryTag message remaining
  | .restateOutcome payload localState messageFormat sender, some handle =>
      t.sendTransferWithOutcome
        (resumingTransfer handle deliveryTag messageFormat (some false) (some localState) false)
        deliveryTag { payload, state := none, messageFormat, sender } remaining

/-- `detach_with_error` on a link that is attached, as one that has resumed its deliveries is. -/
def detach (t : ResumeTask) : ResumeTask :=
  match t.link.toLinkEndpoint.sendDetach false none with
  | (.error e, endpoint) => (t.withEndpoint endpoint).finish (.error (.detach e))
  | (.ok detach, endpoint) => { t.withEndpoint endpoint with awaiting := .detachSend detach }

/-- The loops over the deliveries, one iteration. -/
def pollNext (t : ResumeTask) : Remaining → ResumeTask
  | .deliveries ((tag, resuming) :: rest) incomplete =>
      t.handleResumingDelivery tag resuming (.deliveries rest incomplete)
  -- the buffer is kept for the exchange that follows
  | .deliveries [] true => { t with awaiting := .exchange }
  | .deliveries [] false => { t with resendBuf := [], awaiting := .next (.resends t.resendBuf) }
  | .resends (message :: rest) => { t with awaiting := .credit message rest }
  | .resends [] => t.detach

def pollTransfer (t : ResumeTask) (split : TransferSplit) (delivery : OnTheWay)
    (remaining : Remaining) : ResumeTask × List ResumeOutput :=
  if t.writerClosed then ((t.abandon delivery).failSend (.link t.link.stopped), [])
  else
    match split.next with
    | (frame, some rest) =>
        ({ t with awaiting := .transfer rest delivery remaining }, [.transfer frame delivery.sender])
    | (frame, none) =>
        ({ t.delivered delivery with awaiting := .next remaining }, [.transfer frame delivery.sender])

/-- `resend`: a frame of the link is looked at before the credit. -/
def pollCredit (t : ResumeTask) (message : UnsettledMessage) (rest : List UnsettledMessage) :
    ResumeTask :=
  match t.cell.incoming with
  | .detach detach :: incoming =>
      let (result, endpoint) := t.link.toLinkEndpoint.applyRemoteDetachOutcome detach
      let error :=
        match result, detach.closed with
        | .ok _, true => .remoteClosed
        | .ok _, false => .remoteDetached
        | .error e, _ => LinkStateError.ofDetachError e
      ((t.withCell fun cell => { cell with incoming }).withEndpoint endpoint).failSend (.link error)
  | _ :: incoming =>
      (t.withCell fun cell => { cell with incoming }).failSend (.link .expectImmediateDetach)
  | [] =>
      if t.incomingClosed then
        t.failSend <| .link <|
          match t.link.sessionStopReason with
          | some reason => .sessionStopped reason
          | none => .expectImmediateDetach
      else
        match t.cell.flowState.consumeLinkCredit 1 with
        | none => t
        | some (deliveryTag, flowState) =>
            let t := t.withCell fun cell => { cell with flowState }
            match t.link.generateNonResumingTransferPerformative deliveryTag message.messageFormat
              none none false with
            | .error e => t.failSend (.link e)
            | .ok transfer => t.sendTransferWithOutcome transfer deliveryTag message (.resends rest)

/-! ## Attaches and detaches -/

/-- `send_attach`, up to its send. -/
def pollExchange (t : ResumeTask) : ResumeTask :=
  match t.link.prepareAttach t.cell t.link.maxFrameSize t.isReattaching with
  | (.error failure, cell) => (t.withCell fun _ => cell).finish (.error (.attach failure))
  | (.ok attach, cell) => { t.withCell fun _ => cell with awaiting := .attachSend attach }

/-- `on_incoming_attach`, and the branch that the exchange leads to. -/
def onIncomingAttach (t : ResumeTask) (remoteAttach : Attach) : ResumeTask × List ResumeOutput :=
  match t.link.acceptAttach t.cell remoteAttach with
  | (.error e, endpoint, cell) =>
      (((t.withCell fun _ => cell).withEndpoint endpoint).finish (.error (.attach (.attach e))), [])
  | (.ok _, endpoint, cell) =>
      let t := (t.withCell fun _ => cell).withEndpoint endpoint
      let output := .exchanged remoteAttach (unsettledSenders cell.senderUnsettled)
      let (deliveries, store) := t.store.handleUnsettledInAttach t.id remoteAttach.unsettled
      let t := { t with store }
      match SenderAttachExchange.ofDeliveries endpoint.localState deliveries with
      | .complete => (t.finish (.ok ()), [output])
      | .incompleteUnsettled deliveries =>
          ({ t with awaiting := .next (.deliveries deliveries true) }, [output])
      | .resume deliveries =>
          ({ t with awaiting := .next (.deliveries deliveries false) }, [output])

def pollAttachSend (t : ResumeTask) (attach : Attach) : ResumeTask × List ResumeOutput :=
  if t.writerClosed then (t.finish (.error (.attach t.attachStopped)), [])
  else
    let t := t.withEndpoint (t.link.attachSent attach)
    match t.remoteAttach with
    | none => ({ t with awaiting := .remoteAttach }, [.attach attach])
    | some remoteAttach =>
        let (t, outputs) := { t with remoteAttach := none }.onIncomingAttach remoteAttach
        (t, .attach attach :: outputs)

/-- The next frame of the link, if there is one; `none` once the relay is gone. -/
def recv (t : ResumeTask) : Option (Option LinkFrame × ResumeTask) :=
  match t.cell.incoming with
  | frame :: incoming => some (some frame, t.withCell fun cell => { cell with incoming })
  | [] => if t.incomingClosed then some (none, t) else none

theorem recv_some {t t' : ResumeTask} {frame : Option LinkFrame} (h : t.recv = some (frame, t')) :
    t'.link = t.link ∧ t'.resendBuf = t.resendBuf ∧ t'.awaiting = t.awaiting := by
  simp only [recv] at h
  split at h
  · cases h
    exact ⟨rfl, rfl, rfl⟩
  · split_ifs at h
    cases h
    exact ⟨rfl, rfl, rfl⟩

def pollRemoteAttach (t : ResumeTask) : ResumeTask × List ResumeOutput :=
  match t.recv with
  | none => (t, [])
  | some (none, t) => (t.finish (.error (.attach t.attachStopped)), [])
  | some (some (.attach attach), t) => t.onIncomingAttach attach
  | some (some _, t) => (t.finish (.error (.attach (.attach .nonAttachFrameReceived))), [])

/-- `recv_remote_detach` of `detach_with_error`; frames that are no Detach are skipped. -/
def pollDetachReply (t : ResumeTask) : ResumeTask :=
  match t.recv with
  | none => t
  | some (none, t) => t.finish (.error (.detach t.stopped))
  | some (some (.detach detach), t) =>
      if detach.closed then t.reallocate (.closing .allocation)
      else
        match t.link.toLinkEndpoint.onDetachReply detach with
        | (.ok _, endpoint) => (t.withEndpoint endpoint).reallocate .allocation
        | (.error e, endpoint) => (t.withEndpoint endpoint).finish (.error (.detach e))
  | some (some _, t) => t

/-! ## `reattach_then_close` -/

/-- A reattach that fails; its own error is not reported. -/
def failReattach (t : ResumeTask) : ResumeTask :=
  t.finish (.error (.detach t.stopped))

/-- `handle_attach_error` of a sender. -/
def refuse (t : ResumeTask) (error : AttachError) : ResumeTask :=
  match LinkEndpoint.refusal error with
  | none => t.failReattach
  | some description =>
      match t.link.toLinkEndpoint.sendDetach true description with
      | (.ok detach, endpoint) =>
          { t.withEndpoint endpoint with awaiting := .closing (.refusalSend detach) }
      | (.error _, endpoint) =>
          -- without a description the reply is awaited whether or not the Detach went out
          if description.isNone then
            { t.withEndpoint endpoint with awaiting := .closing .refusalReply }
          else (t.withEndpoint endpoint).failReattach

def closingOnIncomingAttach (t : ResumeTask) (remoteAttach : Attach) : ResumeTask :=
  match t.link.acceptAttach t.cell remoteAttach with
  | (.error e, endpoint, cell) => ((t.withCell fun _ => cell).withEndpoint endpoint).refuse e
  | (.ok _, endpoint, cell) =>
      let t := (t.withCell fun _ => cell).withEndpoint endpoint
      let (deliveries, store) := t.store.handleUnsettledInAttach t.id remoteAttach.unsettled
      let t := { t with store }
      if deliveries.isSome then t.failReattach
      else
        match t.link.toLinkEndpoint.sendDetach true none with
        | (.error e, endpoint) => (t.withEndpoint endpoint).finish (.error (.detach e))
        | (.ok detach, endpoint) =>
            { t.withEndpoint endpoint with awaiting := .closing (.detachSend detach) }

def pollClosing (t : ResumeTask) : ClosingAwait → ResumeTask × List ResumeOutput
  | .allocation => (t, [])
  | .exchange =>
      match t.link.prepareAttach t.cell t.link.maxFrameSize true with
      | (.error _, cell) => ((t.withCell fun _ => cell).failReattach, [])
      | (.ok attach, cell) =>
          ({ t.withCell fun _ => cell with awaiting := .closing (.attachSend attach) }, [])
  | .attachSend attach =>
      if t.writerClosed then (t.failReattach, [])
      else
        ({ t.withEndpoint (t.link.attachSent attach) with awaiting := .closing .remoteAttach },
          [.closing (.attach attach)])
  | .remoteAttach =>
      match t.recv with
      | none => (t, [])
      | some (some (.attach attach), t) => (t.closingOnIncomingAttach attach, [])
      | some (_, t) => (t.failReattach, [])
  | .refusalSend detach =>
      if t.writerClosed then
        (if detach.error.isNone then { t with awaiting := .closing .refusalReply } else t.failReattach, [])
      else ({ t with awaiting := .closing .refusalReply }, [.closing (.detach detach)])
  | .refusalReply =>
      match t.recv with
      | none => (t, [])
      | some (some (.detach detach), t) =>
          ((t.withEndpoint (t.link.toLinkEndpoint.onDetachReply detach).2).failReattach, [])
      | some (_, t) => (t.failReattach, [])
  | .detachSend detach =>
      if t.writerClosed then (t.finish (.error (.detach t.stopped)), [])
      else ({ t with awaiting := .closing .detachReply }, [.closing (.detach detach)])
  | .detachReply =>
      match t.recv with
      | none => (t, [])
      | some (none, t) => (t.finish (.error (.detach t.stopped)), [])
      | some (some (.detach detach), t) =>
          let (result, endpoint) := t.link.toLinkEndpoint.onDetachReply detach
          match result with
          | .ok _ => ((t.withEndpoint endpoint).finish (.error (.detach .closedByRemote)), [])
          | .error e => ((t.withEndpoint endpoint).finish (.error (.detach e)), [])
      | some (some _, t) => (t, [])

/-- The procedure goes on from where it waits, if it can. -/
def poll (t : ResumeTask) : ResumeTask × List ResumeOutput :=
  match t.awaiting with
  | .allocation => (t, [])
  | .exchange => (t.pollExchange, [])
  | .attachSend attach => t.pollAttachSend attach
  | .remoteAttach => t.pollRemoteAttach
  | .next remaining => (t.pollNext remaining, [])
  | .transfer split delivery remaining => t.pollTransfer split delivery remaining
  | .credit message rest => (t.pollCredit message rest, [])
  | .detachSend detach =>
      if t.writerClosed then (t.finish (.error (.detach t.stopped)), [])
      else ({ t with awaiting := .detachReply }, [.detach detach])
  | .detachReply => (t.pollDetachReply, [])
  | .closing awaiting => t.pollClosing awaiting
  | .returned _ => (t, [])

/-- The answer to the request for a handle. -/
def allocated (t : ResumeTask) (result : Except AllocLinkError OutputHandle) : ResumeTask :=
  match t.awaiting, result with
  | .allocation, .ok handle =>
      { t.withEndpoint { t.link.toLinkEndpoint with outputHandle := some handle } with
        awaiting := .exchange }
  | .allocation, .error e => t.finish (.error (.allocation e))
  | .closing .allocation, .ok handle =>
      { t.withEndpoint { t.link.toLinkEndpoint with outputHandle := some handle } with
        awaiting := .closing .exchange }
  | .closing .allocation, .error _ => t.failReattach
  | _, _ => t

end ResumeTask

/-- What the relay of a sender does with a frame of the peer. -/
inductive RelayAction where
  | attach (attach : Attach)
  | flow (flow : LinkFlow)
  | disposition (settled : Bool) (state : Option DeliveryState) (deliveryTag : DeliveryTag)
  | detach (detach : Detach) (remoteInitiated : Bool)

def RelayAction.apply (relay : LinkRelay OutputHandle) (store : LinkStore) : RelayAction → LinkStore
  | .attach frame => (store.send relay.link (.attach frame)).getD store
  | .flow frame => (relay.onIncomingFlow store frame).2
  | .disposition settled state deliveryTag =>
      (relay.onIncomingDisposition store settled state deliveryTag).2
  | .detach frame remoteInitiated => (relay.onIncomingDetach store frame remoteInitiated).2

inductive ResumeEvent where
  | poll
  | allocated (result : Except AllocLinkError OutputHandle)
  | relay (outputHandle : OutputHandle) (receiverSettleMode : ReceiverSettleMode)
      (action : RelayAction)
  | closeWriter
  | closeIncoming

namespace ResumeTask

def step (t : ResumeTask) : ResumeEvent → ResumeTask × List ResumeOutput
  | .poll => t.poll
  | .allocated result => (t.allocated result, [])
  | .relay outputHandle receiverSettleMode action =>
      ({ t with store := action.apply (.sender t.id outputHandle receiverSettleMode) t.store }, [])
  | .closeWriter => ({ t with writerClosed := true }, [])
  | .closeIncoming => ({ t with incomingClosed := true }, [])

def hasReturned (t : ResumeTask) : Bool :=
  match t.awaiting with
  | .returned _ => true
  | _ => false

/-- The procedure has returned without an error. -/
def succeeded (t : ResumeTask) : Bool :=
  match t.awaiting with
  | .returned (.ok _) => true
  | _ => false

/-- `resume_incoming_attach` is called. -/
def start (link : SenderLink) (id : LinkId) (store : LinkStore) (isReattaching : Bool)
    (remoteAttach : Option Attach) (writerClosed : Bool) : ResumeTask :=
  reallocate
    { link, id, store, isReattaching, remoteAttach, writerClosed
      resendBuf := []
      incomingClosed := false
      awaiting := .allocation }
    .allocation

end ResumeTask

end Fe2o3Amqp
