import Fe2o3Amqp.Link.IncompleteTransfer

/-!
# The receiver

`ReceiverInner`: how the receiver takes in the transfers that the session forwards to it.  A transfer
that breaks the rules of a delivery makes the receiver close the link; how the closing handshake ends
depends on the peer and is an argument of the step.
-/

namespace Fe2o3Amqp

inductive CreditMode where
  | manual
  | auto (credit : SequenceNo)

structure MessageSizeExceeded where
  size : Nat
  maxSize : UInt64

inductive RecvError (E : Type) where
  | linkStateError (error : LinkStateError)
  | transferLimitExceeded
  | deliveryIdIsNone
  | deliveryTagIsNone
  | messageDecode (error : MessageDecodeError E)
  | illegalRcvSettleModeInTransfer
  | inconsistentFieldInMultiFrameDelivery
  | messageSizeExceeded (error : MessageSizeExceeded)
  | transactionalAcquisitionIsNotImeplemented

def RecvError.ofReceiverTransferError {E : Type} : ReceiverTransferError E → RecvError E
  | .transferLimitExceeded => .transferLimitExceeded
  | .deliveryIdIsNone => .deliveryIdIsNone
  | .deliveryTagIsNone => .deliveryTagIsNone
  | .messageDecode err => .messageDecode err
  | .illegalRcvSettleModeInTransfer => .illegalRcvSettleModeInTransfer
  | .inconsistentFieldInMultiFrameDelivery => .inconsistentFieldInMultiFrameDelivery
  | .illegalState => .linkStateError .illegalState

/-- How a closing handshake ends: the state the link is left in and the result of
`close_with_error`.  The attachment is over once the closing Detach is sent; what a reattach within
the handshake does to the rest of the link belongs to another one. -/
structure Closing where
  state : LinkState
  result : Except DetachError Unit

structure ReceiverInner where
  link : ReceiverLink
  creditMode : CreditMode
  processed : UInt32
  autoAccept : Bool
  outgoing : LinkWriter
  incompleteTransfer : Option IncompleteTransfer

/-- Whether a transfer carries the delivery-id and delivery-tag of a first transfer. -/
def ensureDeliveryIdentity {E : Type} (transfer : Transfer) : Except (ReceiverTransferError E) Unit :=
  if transfer.deliveryId = none then .error .deliveryIdIsNone
  else if transfer.deliveryTag = none then .error .deliveryTagIsNone
  else .ok ()

namespace ReceiverInner

variable {M E : Type}

def withLink (r : ReceiverInner) (link : ReceiverLink) : ReceiverInner := { r with link }

def detachErrorFromStopReason (r : ReceiverInner) : DetachError :=
  match r.link.sessionStopReason with
  | some reason => .sessionStopped reason
  | none => .illegalState

/-- `close_with_error`.  The detach is handed to the session before the handshake is waited for. -/
def closeWithError (r : ReceiverInner) (closing : Closing) (error : Option Error) :
    Except DetachError Unit × ReceiverInner :=
  match r.link.localState with
  | .attached =>
      match r.link.outputHandle with
      | none =>
          (.error r.detachErrorFromStopReason, r.withLink { r.link with localState := .closeSent })
      | some handle =>
          let link := { r.link with localState := closing.state, outputHandle := none }
          match r.outgoing.send (.detach { handle := handle.handle, closed := true, error }) with
          | none =>
              (.error r.detachErrorFromStopReason, r.withLink { link with localState := .closeSent })
          | some outgoing => (closing.result, { r with link, outgoing })
  | .detachSent | .closeSent =>
      (closing.result, r.withLink { r.link with localState := closing.state })
  | .detached | .closed => (.ok (), r)
  | _ => (.error r.detachErrorFromStopReason, r)

/-- The result of a receive that closes the link: an error of the handshake takes precedence. -/
def closed (result : Except DetachError Unit) (error : RecvError E) : RecvError E :=
  match result with
  | .ok _ => error
  | .error e => .linkStateError (.ofDetachError e)

def closeOnMalformedDelivery (r : ReceiverInner) (closing : Closing)
    (error : ReceiverTransferError E) : RecvError E × ReceiverInner :=
  let detachError : Error :=
    { condition := .amqpError .notAllowed, description := some error.toString, info := none }
  let (result, r) := r.closeWithError closing (some detachError)
  (closed result (.ofReceiverTransferError error), r)

def closeOnMessageSizeExceeded (r : ReceiverInner) (closing : Closing) (totalSize : Nat)
    (maxSize : UInt64) : RecvError E × ReceiverInner :=
  let r := { r with incompleteTransfer := none }
  let error : Error :=
    { condition := .linkError .messageSizeExceeded
      description := some ("received message larger than max size of " ++ toString maxSize.toNat)
      info := none }
  let (result, r) := r.closeWithError closing (some error)
  (closed result (.messageSizeExceeded ⟨totalSize, maxSize⟩), r)

/-- `on_transfer_state`: a state that a transfer carries. -/
def onTransferState (r : ReceiverInner) (closing : Closing) (deliveryTag : Option DeliveryTag)
    (settled : Option Bool) (state : DeliveryState) : Except (RecvError E) Unit × ReceiverInner :=
  match deliveryTag.or (r.incompleteTransfer.map (·.deliveryTag)) with
  | none =>
      let (error, r) := r.closeOnMalformedDelivery closing .deliveryTagIsNone
      (.error error, r)
  | some effectiveTag =>
      let incompleteTransfer := r.incompleteTransfer.map fun incomplete =>
        let belongs :=
          match deliveryTag with
          | some remote => incomplete.deliveryTag == remote
          | none => true
        match belongs, state with
        | true, .received received =>
            incomplete.keepBufferTillSectionNumberAndOffset received.sectionNumber
              received.sectionOffset
        | _, _ => incomplete
      let r := { r with incompleteTransfer }
      match r.link.onTransferState (some effectiveTag) settled state with
      | .error e => (.error (.ofReceiverTransferError e), r)
      | .ok link => (.ok (), r.withLink link)

def onIncompleteTransfer (r : ReceiverInner) (closing : Closing) (transfer : Transfer)
    (payload : Payload) : Except (RecvError E) Unit × ReceiverInner :=
  let appended :=
    match r.incompleteTransfer with
    | some incomplete => incomplete.tryAppend transfer payload
    | none => IncompleteTransfer.start transfer payload
  match appended with
  | .error error =>
      let (error, r) := r.closeOnMalformedDelivery closing error
      (.error error, r)
  | .ok incomplete =>
      (.ok (),
        { r with
          incompleteTransfer := some incomplete
          link := r.link.onIncompleteTransfer incomplete.deliveryTag incomplete.sectionNumber
            incomplete.sectionOffset })

/-- `update_credit_if_auto`. -/
def updateCreditIfAuto (r : ReceiverInner) (processed : UInt32) :
    Except IllegalLinkStateError Unit × ReceiverInner :=
  match r.creditMode with
  | .manual => (.ok (), r)
  | .auto maxCredit =>
      if processed ≥ maxCredit / 2 then
        let r := { r with processed := 0 }
        match r.link.sendFlow r.outgoing (some maxCredit) (some false) false false with
        | (.error e, link) => (.error e, r.withLink link)
        | (.ok outgoing, link) => (.ok (), { r with outgoing, link })
      else (.ok (), r)

/-- The receiver after its credit is set anew. -/
def refreshed (r : ReceiverInner) (maxCredit : SequenceNo) : ReceiverInner :=
  { r with
    processed := 0
    link :=
      { r.link with
        flowState := { r.link.flowState with linkCredit := maxCredit, drain := false } } }

/-- The credit is left alone, or it is refreshed, or only the counter is reset because the link has
no handle.  A refresh sends a flow while the session listens. -/
theorem updateCreditIfAuto_cases (r : ReceiverInner) (processed : UInt32) :
    (r.updateCreditIfAuto processed = (.ok (), r) ∧
        ∀ maxCredit, r.creditMode = .auto maxCredit → processed < maxCredit / 2) ∨
      ∃ maxCredit, r.creditMode = .auto maxCredit ∧ maxCredit / 2 ≤ processed ∧
        ((r.link.outputHandle = none ∧
            r.updateCreditIfAuto processed = (.error .illegalState, { r with processed := 0 })) ∨
          (r.outgoing.closed = true ∧
            r.updateCreditIfAuto processed = (.error r.link.stopped, r.refreshed maxCredit)) ∨
          (r.outgoing.closed = false ∧ ∃ flow,
            r.updateCreditIfAuto processed =
              (.ok (), { r.refreshed maxCredit with
                outgoing := { r.outgoing with sent := r.outgoing.sent ++ [.flow flow] } }))) := by
  cases hmode : r.creditMode with
  | manual => exact .inl ⟨by simp only [updateCreditIfAuto, hmode], nofun⟩
  | auto maxCredit =>
      by_cases hfull : maxCredit / 2 ≤ processed
      · refine .inr ⟨maxCredit, rfl, hfull, ?_⟩
        simp only [updateCreditIfAuto, hmode, ge_iff_le, if_pos hfull, ReceiverLink.sendFlow]
        cases houtput : r.link.outputHandle with
        | none => exact .inl ⟨rfl, rfl⟩
        | some handle =>
            simp only [ReceiverLink.getLinkFlow, LinkWriter.send]
            cases hclosed : r.outgoing.closed with
            | true =>
                refine .inr (.inl ⟨rfl, ?_⟩)
                simp [refreshed, withLink, ReceiverLink.stopped, houtput, hmode]
            | false =>
                let flow := (r.link.getLinkFlow handle.handle (some maxCredit) (some false) false false).1
                refine .inr (.inr ⟨rfl, flow, ?_⟩)
                simp [refreshed, houtput, hmode, flow, ReceiverLink.getLinkFlow]
      · refine .inl ⟨by simp only [updateCreditIfAuto, hmode, ge_iff_le, if_neg hfull], ?_⟩
        rintro maxCredit' ⟨⟩
        exact UInt32.not_le.mp hfull

def dispose (r : ReceiverInner) (info : DeliveryInfo) (settled : Option Bool)
    (state : DeliveryState) : Except IllegalLinkStateError Unit × ReceiverInner :=
  match r.link.dispose r.outgoing info settled state false with
  | (.error e, link) => (.error e, r.withLink link)
  | (.ok outgoing, link) =>
      let prev := r.processed
      { r with outgoing, link, processed := prev + 1 }.updateCreditIfAuto (prev + 1)

/-- The end of `on_complete_transfer`: the link takes the delivery, and the receiver accepts it at
once in auto-accept mode. -/
def complete (decode : Bytes → Except E M) (r : ReceiverInner) (transfer : Transfer)
    (payload : List Payload) (sectionNumber : UInt32) (sectionOffset : UInt64) :
    Except (RecvError E) (Option (Delivery M)) × ReceiverInner :=
  match r.link.onCompleteTransfer decode transfer payload sectionNumber sectionOffset with
  | (.error e, link) => (.error (.ofReceiverTransferError e), r.withLink link)
  | (.ok delivery, link) =>
      let r := r.withLink link
      if r.autoAccept then
        match r.dispose delivery.info none .accepted with
        | (.error e, r) => (.error (.linkStateError (.ofIllegalLinkStateError e)), r)
        | (.ok _, r) => (.ok (some delivery), r)
      else (.ok (some delivery), r)

/-- A single-frame delivery. -/
def completeSingle (decode : Bytes → Except E M) (r : ReceiverInner) (closing : Closing)
    (transfer : Transfer) (payload : Payload) :
    Except (RecvError E) (Option (Delivery M)) × ReceiverInner :=
  match ensureDeliveryIdentity transfer with
  | .error error =>
      let (error, r) := r.closeOnMalformedDelivery closing error
      (.error error, r)
  | .ok _ =>
      let (sectionNumber, sectionOffset) := countNumberOfSectionsAndOffset payload
      r.complete decode transfer [payload] sectionNumber sectionOffset

def onCompleteTransfer (decode : Bytes → Except E M) (r : ReceiverInner) (closing : Closing)
    (transfer : Transfer) (payload : Payload) :
    Except (RecvError E) (Option (Delivery M)) × ReceiverInner :=
  match r.incompleteTransfer with
  | none => r.completeSingle decode closing transfer payload
  | some incomplete =>
      -- `self.incomplete_transfer.take()`
      let r := { r with incompleteTransfer := none }
      match incomplete.tryAppend transfer payload with
      | .error error =>
          let (error, r) := r.closeOnMalformedDelivery closing error
          (.error error, r)
      | .ok incomplete =>
          r.complete decode incomplete.performative incomplete.buffer incomplete.sectionNumber
            incomplete.sectionOffset

/-- A resumed delivery without buffered chunks; another buffered delivery is left alone. -/
def onReassociatedTransfer (decode : Bytes → Except E M) (r : ReceiverInner) (closing : Closing)
    (transfer : Transfer) (payload : Payload) :
    Except (RecvError E) (Option (Delivery M)) × ReceiverInner :=
  r.completeSingle decode closing transfer payload

def accumulatedMessageSize (r : ReceiverInner) (transfer : Transfer) : Nat :=
  match r.incompleteTransfer with
  | some incomplete =>
      if incomplete.isSameDeliveryAs transfer then incomplete.accumulatedPayloadSize else 0
  | none => 0

def isKnownUnsettled (r : ReceiverInner) (transfer : Transfer) : Bool :=
  match transfer.deliveryTag with
  | none => false
  | some tag =>
      match r.link.unsettled.bind (·.get tag) with
      | none => false
      | some none => true
      | some (some state) => !state.isTerminal

def matchesBuffer (r : ReceiverInner) (transfer : Transfer) : Bool :=
  match r.incompleteTransfer with
  | some incomplete => incomplete.isSameDeliveryAs transfer
  | none => false

/-- The aborted branch of `on_incoming_transfer`. -/
def onAbortedTransfer (r : ReceiverInner) (closing : Closing) (transfer : Transfer) :
    Except (RecvError E) (Option (Delivery M)) × ReceiverInner :=
  match r.incompleteTransfer with
  | none => (.ok none, r)
  | some incomplete =>
      if !r.matchesBuffer transfer then
        let (error, r) :=
          r.closeOnMalformedDelivery closing .inconsistentFieldInMultiFrameDelivery
        (.error error, r)
      else
        (.ok none,
          { r with
            incompleteTransfer := none
            link :=
              { r.link with
                unsettled := r.link.unsettled.map (·.swapRemove incomplete.deliveryTag) } })

/-- The part of `on_incoming_transfer` after the state of the transfer has been applied. -/
def takeIn (decode : Bytes → Except E M) (r : ReceiverInner) (closing : Closing)
    (transfer : Transfer) (payload : Payload) (matchesBuffer : Bool) :
    Except (RecvError E) (Option (Delivery M)) × ReceiverInner :=
  let total := r.accumulatedMessageSize transfer + payload.length
  match r.link.maxMessageSize?.filter (total > ·.toNat) with
  | some maxSize =>
      let (error, r) := r.closeOnMessageSizeExceeded closing total maxSize
      (.error error, r)
  | none =>
      if transfer.more then
        match r.onIncompleteTransfer closing transfer payload with
        | (.error e, r) => (.error e, r)
        | (.ok _, r) => (.ok none, r)
      else if transfer.resume && !matchesBuffer then
        r.onReassociatedTransfer decode closing transfer payload
      else r.onCompleteTransfer decode closing transfer payload

def onIncomingTransfer (decode : Bytes → Except E M) (r : ReceiverInner) (closing : Closing)
    (transfer : Transfer) (payload : Payload) :
    Except (RecvError E) (Option (Delivery M)) × ReceiverInner :=
  let matchesBuffer := r.matchesBuffer transfer
  if transfer.aborted then r.onAbortedTransfer closing transfer
  else if transfer.resume && !matchesBuffer && !r.isKnownUnsettled transfer then (.ok none, r)
  else
    match transfer.state with
    | none => r.takeIn decode closing transfer payload matchesBuffer
    | some state =>
        match r.onTransferState closing transfer.deliveryTag transfer.settled state with
        | (.error e, r) => (.error e, r)
        | (.ok _, r) => r.takeIn decode closing transfer payload matchesBuffer

end ReceiverInner

end Fe2o3Amqp
