import Fe2o3Amqp.Session.Model

/-!
# Session endpoint: links, dispositions and the engine's dispatch

The remaining methods of the session endpoint (link allocation, attach, transfer, disposition,
detach, begin and end) and the two dispatch functions of `SessionEngine` that feed it: one incoming
session frame, or one frame handed over by a link.  The dispatch functions return the frames put on
the outgoing queue; waiting for room in that queue is not modelled.
-/

namespace Fe2o3Amqp

namespace Session

/-! ## Link allocation -/

def allocateLink (s : Session) (linkName : String) (linkRelay : Option (LinkRelay Unit)) :
    Except AllocLinkError OutputHandle × Session :=
  if s.localState = .mapped then
    if (s.linkByName linkName).isSome then (.error .duplicatedLinkName, s)
    else
      let handle : OutputHandle := ⟨UInt32.ofNat s.linkNameByOutputHandle.vacantKey⟩
      (.ok handle,
        { s with
          linkNameByOutputHandle := s.linkNameByOutputHandle.insert linkName
          linkByName := Function.update s.linkByName linkName
            (some (linkRelay.map (·.withOutputHandle handle))) })
  else
    match s.sessionStopReason with
    | some reason => (.error (.sessionStopped reason), s)
    | none =>
        match s.localState with
        | .endSent | .endReceived | .discarding => (.error (.sessionStopped .ended), s)
        | _ => (.error .sessionNotMapped, s)

def allocateIncomingLink (s : Session) (linkName : String) (linkRelay : LinkRelay Unit)
    (inputHandle : InputHandle) : Except AllocLinkError OutputHandle × Session :=
  match s.allocateLink linkName none with
  | (.ok outputHandle, s) =>
      (.ok outputHandle,
        { s with
          linkByInputHandle := Function.update s.linkByInputHandle inputHandle
            (some (linkRelay.withOutputHandle outputHandle)) })
  | (.error e, s) => (.error e, s)

/-- Returns whether the link's bookkeeping was still present. -/
def deallocateLink (s : Session) (outputHandle : OutputHandle) : Bool × Session :=
  match s.linkNameByOutputHandle.tryRemove outputHandle.handle.toNat with
  | (some name, slab) =>
      (true,
        { s with
          linkNameByOutputHandle := slab
          linkByName := Function.update s.linkByName name none })
  | (none, _) => (false, s)

/-! ## Incoming frames -/

def onIncomingBegin (s : Session) (channel : UInt16) (begin' : Begin) :
    Except SessionInnerError Unit × Session :=
  let mapped (localState : SessionState) : Except SessionInnerError Unit × Session :=
    (.ok (),
      { s with
        localState
        incomingChannel := some channel
        nextIncomingId := begin'.nextOutgoingId
        remoteIncomingWindow := begin'.incomingWindow
        remoteOutgoingWindow := begin'.outgoingWindow })
  match s.localState with
  | .unmapped => mapped .beginReceived
  | .beginSent => mapped .mapped
  | _ => (.error .illegalState, s)

def onIncomingAttach (s : Session) (attach : Attach) : Except SessionInnerError Unit × Session :=
  match s.linkByName attach.name with
  | none => (.error .remoteAttachingLinkNameNotFound, s)
  | some none => (.error .handleInUse, s)
  | some (some relay) =>
      -- `link.take()`: the name stays, its relay moves to the input handle
      let s := { s with linkByName := Function.update s.linkByName attach.name (some none) }
      let relay :=
        match relay with
        | .sender link outputHandle _ => .sender link outputHandle attach.rcvSettleMode
        | relay => relay
      match s.links.send relay.link (.attach attach) with
      | none => (.error .unattachedHandle, s)
      | some links =>
          (.ok (),
            { s with
              links
              linkByInputHandle :=
                Function.update s.linkByInputHandle ⟨attach.handle⟩ (some relay) })

def onIncomingTransfer (s : Session) (transfer : Transfer) (payload : Payload) :
    Except SessionInnerError (Option Disposition) × Session :=
  let s :=
    { s with
      nextIncomingId := s.nextIncomingId + 1
      remoteOutgoingWindow := s.remoteOutgoingWindow.saturatingSub 1
      needFlowCount := s.needFlowCount.saturatingAdd 1 }
  let inputHandle : InputHandle := ⟨transfer.handle⟩
  match s.linkByInputHandle inputHandle with
  | none => (.error .unattachedHandle, s)
  | some relay =>
      let (result, relay, links) := relay.onIncomingTransfer s.links transfer payload
      let s :=
        { s with
          links
          linkByInputHandle := Function.update s.linkByInputHandle inputHandle (some relay) }
      match result with
      | .error e => (.error (.ofLinkRelayError e), s)
      | .ok none => (.ok none, s)
      | .ok (some (deliveryId, deliveryTag)) =>
          (.ok none,
            { s with
              deliveryTagById := Function.update s.deliveryTagById (.sender, deliveryId)
                (some (inputHandle, deliveryTag)) })

/-- The ids of `first..=last`. -/
def deliveryIds (first last : DeliveryNumber) : List DeliveryNumber :=
  (List.range (last.toNat + 1 - first.toNat)).map fun i => UInt32.ofNat (first.toNat + i)

/-- One iteration of the settled branch of `on_incoming_disposition`. -/
def settleDelivery (disposition : Disposition) (s : Session) (deliveryId : DeliveryNumber) :
    Session :=
  let key := (disposition.role, deliveryId)
  match s.deliveryTagById key with
  | none => s
  | some (handle, deliveryTag) =>
      let s := { s with deliveryTagById := Function.update s.deliveryTagById key none }
      match s.linkByInputHandle handle with
      | none => s
      | some relay =>
          { s with
            links := (relay.onIncomingDisposition s.links disposition.settled disposition.state
              deliveryTag).2 }

/-- One iteration of the unsettled branch; collects the ids to be echoed. -/
def updateDelivery (disposition : Disposition) (acc : List DeliveryNumber × Session)
    (deliveryId : DeliveryNumber) : List DeliveryNumber × Session :=
  let (ids, s) := acc
  match s.deliveryTagById (disposition.role, deliveryId) with
  | none => (ids, s)
  | some (handle, deliveryTag) =>
      match s.linkByInputHandle handle with
      | none => (ids, s)
      | some relay =>
          let (echo, links) :=
            relay.onIncomingDisposition s.links disposition.settled disposition.state deliveryTag
          (if echo then ids ++ [deliveryId] else ids, { s with links })

def isConsecutive (left right : DeliveryNumber) : Bool := right - left == 1

/-- The positions at which a run of consecutive ids ends, the end of the list excluded. -/
def consecutiveChunkIndices (ids : List DeliveryNumber) : List Nat :=
  (ids.zip ids.tail).zipIdx.filterMap fun ((left, right), i) =>
    if isConsecutive left right then none else some (i + 1)

/-- The dispositions built from the slices between successive chunk indices. -/
def echoDispositions (state : Option DeliveryState) (ids : List DeliveryNumber) :
    Nat → List Nat → List Disposition
  | _, [] => []
  | prev, ind :: inds =>
      let slice := (ids.drop prev).take (ind - prev)
      { role := .sender
        first := slice.headD 0
        last := slice.getLast?
        settled := true
        state
        batchable := false } :: echoDispositions state ids ind inds

def onIncomingDisposition (s : Session) (disposition : Disposition) :
    Option (List Disposition) × Session :=
  let first := disposition.first
  let last := disposition.last.getD first
  if disposition.settled then
    (none, (deliveryIds first last).foldl (settleDelivery disposition) s)
  else
    let (ids, s) := (deliveryIds first last).foldl (updateDelivery disposition) ([], s)
    (some (echoDispositions disposition.state ids 0 (consecutiveChunkIndices ids)), s)

def onIncomingDetach (s : Session) (detach : Detach) : Option Detach × Session :=
  let inputHandle : InputHandle := ⟨detach.handle⟩
  match s.linkByInputHandle inputHandle with
  | none => (none, s)
  | some relay =>
      let remoteInitiated := !s.closePending relay.outputHandle
      let (response, links) := relay.onIncomingDetach s.links detach remoteInitiated
      (response,
        { s with
          links
          linkByInputHandle := Function.update s.linkByInputHandle inputHandle none
          closePending := Function.update s.closePending relay.outputHandle false })

def onIncomingEnd (s : Session) (end' : End) : Except SessionInnerError Unit × Session :=
  match s.localState with
  | .beginSent | .beginReceived | .mapped =>
      let s := { s with localState := .endReceived }
      match end'.error with
      | some error => (.error (.remoteEndedWithError error), s)
      | none => (.error .remoteEnded, s)
  | .endSent | .discarding =>
      let s := { s with localState := .unmapped }
      match end'.error with
      | some error => (.error (.remoteEndedWithError error), s)
      | none => (.ok (), s)
  | _ => (.error .illegalState, s)

/-! ## Outgoing frames -/

def sendBegin (s : Session) : Except SessionInnerError SessionFrame × Session :=
  let frame : SessionFrame := ⟨s.outgoingChannel, .begin
    { remoteChannel := s.incomingChannel
      nextOutgoingId := s.nextOutgoingId
      incomingWindow := s.incomingWindow
      outgoingWindow := s.outgoingWindow
      handleMax := s.handleMax
      offeredCapabilities := s.offeredCapabilities
      desiredCapabilities := s.desiredCapabilities
      properties := s.properties }⟩
  match s.localState with
  | .unmapped => (.ok frame, { s with localState := .beginSent })
  | .beginReceived => (.ok frame, { s with localState := .mapped })
  | _ => (.error .illegalState, s)

def sendEnd (s : Session) (error : Option Error) : Except SessionInnerError SessionFrame × Session :=
  let frame : SessionFrame := ⟨s.outgoingChannel, .end ⟨error⟩⟩
  match s.localState with
  | .mapped =>
      (.ok frame, { s with localState := if error.isSome then .discarding else .endSent })
  | .endReceived => (.ok frame, { s with localState := .unmapped })
  | _ => (.error .illegalState, s)

def onOutgoingAttach (s : Session) (attach : Attach) : SessionFrame :=
  ⟨s.outgoingChannel, .attach attach⟩

def numMessagesSettledByDisposition (first : UInt32) (last : Option UInt32) : UInt32 :=
  (match last with
    | some last => if first ≤ last then last - first else 0
    | none => 0) + 1

def onOutgoingDisposition (s : Session) (disposition : Disposition) : SessionFrame × Session :=
  let isTerminal :=
    match disposition.state with
    | some state => state.isTerminal
    | none => false
  let s :=
    if isTerminal then
      { s with
        remoteOutgoingWindow := s.remoteOutgoingWindow.saturatingAdd
          (numMessagesSettledByDisposition disposition.first disposition.last) }
    else s
  (⟨s.outgoingChannel, .disposition disposition⟩, s)

def onOutgoingDetach (s : Session) (detach : Detach) (expectsEcho : Bool) :
    Option SessionFrame × Session :=
  let handle : OutputHandle := ⟨detach.handle⟩
  let (deallocated, s) := s.deallocateLink handle
  let frame : SessionFrame := ⟨s.outgoingChannel, .detach detach⟩
  if expectsEcho then
    if deallocated then
      (some frame, { s with closePending := Function.update s.closePending handle true })
    else (none, s)
  else (some frame, s)

/-! ## Engine dispatch -/

/-- The frames of an outgoing item, in sending order. -/
def itemFrames : Option SessionOutgoingItem → List SessionFrame
  | none => []
  | some (.singleFrame frame) => [frame]
  | some (.multipleFrames frames) => frames

def sendDispositions (s : Session) : List Disposition → List SessionFrame × Session
  | [] => ([], s)
  | disposition :: dispositions =>
      let (frame, s) := s.onOutgoingDisposition disposition
      let (frames, s) := sendDispositions s dispositions
      (frame :: frames, s)

inductive Running where
  | continue | stop
deriving DecidableEq, Repr

/-- What one dispatch leaves: the frames put on the outgoing queue, the result and the session. -/
structure Dispatched where
  frames : List SessionFrame
  result : Except SessionInnerError Running
  session : Session

/-- The end of a dispatch that met no error. -/
def dispatched (s : Session) (frames : List SessionFrame) : Dispatched :=
  ⟨frames, .ok (if s.localState = .unmapped then .stop else .continue), s⟩

/-- `OnceLock::set`: the first recorded reason stays. -/
def setSessionStopReason (s : Session) (reason : SessionStopReason) : Session :=
  { s with sessionStopReason := s.sessionStopReason.or (some reason) }

/-- `SessionEngine::on_outgoing_link_frames`.  A link hands over neither remote transfers nor
acquisitions: on those the engine panics. -/
def onOutgoingLinkFrames (s : Session) (frame : LinkFrame) : Dispatched :=
  let transfer (frame : LinkTransfer) (isFirst : Bool) : Dispatched :=
    match s.onOutgoingTransfer ⟨frame.inputHandle, frame.performative, frame.payload, isFirst⟩ with
    | (.ok item, s) => s.dispatched (itemFrames item)
    | (.error e, s) => ⟨[], .error e, s⟩
  if s.localState ≠ .mapped then ⟨[], .error .illegalState, s⟩
  else
    match frame with
    | .attach attach => s.dispatched [s.onOutgoingAttach attach]
    | .flow flow => s.dispatched [s.onOutgoingFlow flow]
    | .firstTransfer frame => transfer frame true
    | .transferContinuation frame => transfer frame false
    | .disposition disposition =>
        let (frame, s) := s.onOutgoingDisposition disposition
        s.dispatched [frame]
    | .detach detach =>
        let (frame, s) := s.onOutgoingDetach detach true
        s.dispatched frame.toList
    | .remoteTransfer _ | .acquisition _ => ⟨[], .error .illegalState, s⟩

/-- The two transfer branches of `on_outgoing_link_frames`, for a transfer that is already packed
for the buffer. -/
def dispatchTransfer (s : Session) (item : BufferedTransfer) : Dispatched :=
  match s.onOutgoingTransfer item with
  | (.ok item, s) => s.dispatched (itemFrames item)
  | (.error e, s) => ⟨[], .error e, s⟩

/-- Handle the link frames that are still queued when the link channel is closed. -/
def drainLinkFrames (s : Session) : List LinkFrame → Dispatched
  | [] => s.dispatched []
  | frame :: pending =>
      let first := s.onOutgoingLinkFrames frame
      match first.result with
      | .error e => ⟨first.frames, .error e, first.session⟩
      | .ok _ =>
          let rest := drainLinkFrames first.session pending
          { rest with frames := first.frames ++ rest.frames }

/-- The `End` branch of `SessionEngine::on_incoming`. -/
def dispatchEnd (s : Session) (pending : List LinkFrame) (end' : End) : Dispatched :=
  let (result, s) := s.onIncomingEnd end'
  let finish (s : Session) (frames : List SessionFrame) : Dispatched :=
    match result with
    | .ok _ => s.dispatched frames
    | .error e => ⟨frames, .error e, s⟩
  if s.localState = .endReceived then
    let s := s.setSessionStopReason <|
      match end'.error, s.connectionStopReason with
      | some error, _ => .remoteEndedWithError error
      | none, some reason => .connectionStopped reason
      | none, none => .remoteEnded
    let drained := s.drainLinkFrames pending
    match drained.result with
    | .error e => ⟨drained.frames, .error e, drained.session⟩
    | .ok _ =>
        match drained.session.sendEnd none with
        | (.error e, s) => ⟨drained.frames, .error e, s⟩
        | (.ok frame, s) => finish s (drained.frames ++ [frame])
  else finish s []

/-- `SessionEngine::on_incoming`; `pending` are the link frames queued at that moment. -/
def onIncoming (s : Session) (pending : List LinkFrame) (incoming : SessionFrame) : Dispatched :=
  match incoming.body with
  | .begin begin' =>
      match s.onIncomingBegin incoming.channel begin' with
      | (.ok _, s) => s.dispatched []
      | (.error e, s) => ⟨[], .error e, s⟩
  | .attach attach =>
      match s.onIncomingAttach attach with
      | (.ok _, s) => s.dispatched []
      | (.error e, s) => ⟨[], .error e, s⟩
  | .flow flow =>
      match s.onIncomingFlow flow with
      | (.ok item, s) => s.dispatched (itemFrames item)
      | (.error e, s) => ⟨[], .error e, s⟩
  | .transfer performative payload =>
      match s.onIncomingTransfer performative payload with
      | (.error e, s) => ⟨[], .error e, s⟩
      | (.ok disposition, s) =>
          let (frames, s) := s.sendDispositions disposition.toList
          let (item, s) := s.maybeOutgoingSessionFlow
          s.dispatched (frames ++ itemFrames item)
  | .disposition disposition =>
      let (dispositions, s) := s.onIncomingDisposition disposition
      let (frames, s) := s.sendDispositions (dispositions.getD [])
      s.dispatched frames
  | .detach detach =>
      match s.onIncomingDetach detach with
      | (none, s) => s.dispatched []
      | (some reply, s) =>
          let (frame, s) := s.onOutgoingDetach reply false
          s.dispatched frame.toList
  | .end end' => s.dispatchEnd pending end'

end Session

end Fe2o3Amqp
