import Fe2o3Amqp.Link.Reassembly
import Fe2o3Amqp.Link.Resume
import Fe2o3Amqp.Link.Sections
import Fe2o3Amqp.Session.SendOrder
import Fe2o3Amqp.Util.Except

/-!
# The payload of a resumed delivery

A delivery of which only some transfer frames have arrived, the position that the receiver tells the
sender when the link is attached again, the transfer that the sender resumes it with, and what the
receiver puts together from the frames of both.
-/

namespace Fe2o3Amqp

/-! ## Frames -/

def continuationFrames (transfer : Transfer) : List Payload → List TransferFrame
  | [] => []
  | chunk :: chunks =>
      ({ transfer with more := !chunks.isEmpty }, chunk) :: continuationFrames transfer chunks

/-- The frames of a delivery whose payload is cut into these chunks, with the delivery-id that the
session gives to the first. -/
def transferFrames (transfer : Transfer) (deliveryId : DeliveryNumber) :
    List Payload → List TransferFrame
  | [] => []
  | chunk :: chunks =>
      ({ transfer with deliveryId := some deliveryId, more := !chunks.isEmpty }, chunk) ::
        continuationFrames transfer.clearContinuationFields chunks

/-- What the session makes of a frame of a split, if the delivery gets this delivery-id. -/
def LinkFrame.numbered (deliveryId : DeliveryNumber) (frame : LinkFrame) : Option TransferFrame :=
  frame.transfer?.map fun item => (item.asSent deliveryId, item.payload)

namespace TransferSplit

def framesWithin : Nat → TransferSplit → Option (List LinkFrame)
  | 0, _ => none
  | fuel + 1, split =>
      match split.next with
      | (frame, none) => some [frame]
      | (frame, some rest) => (framesWithin fuel rest).map (frame :: ·)

/-- All frames of a split; `none` for one that never ends, as each frame but the last has at least
one byte otherwise. -/
def frames (split : TransferSplit) : Option (List LinkFrame) :=
  framesWithin (split.payload.length + 1) split

end TransferSplit

/-! ## The receiver's buffer -/

namespace IncompleteTransfer

/-- What `on_transfer_state` does to the buffered delivery. -/
def onTransferState (incomplete : IncompleteTransfer) (transfer : Transfer) : IncompleteTransfer :=
  match incomplete.isSameDeliveryAs transfer, transfer.state with
  | true, some (.received received) =>
      incomplete.keepBufferTillSectionNumberAndOffset received.sectionNumber received.sectionOffset
  | _, _ => incomplete

/-- The delivery with a further frame, if the receiver does not refuse it. -/
def extend (buffer : Option IncompleteTransfer) (frame : TransferFrame) : Option IncompleteTransfer :=
  match buffer with
  | none => (start (E := Unit) frame.1 frame.2).toOption
  | some incomplete => (incomplete.tryAppend (E := Unit) frame.1 frame.2).toOption

/-- A further frame: its state first, then its payload. -/
def gather (buffer : Option IncompleteTransfer) (frame : TransferFrame) : Option IncompleteTransfer :=
  extend (buffer.map (·.onTransferState frame.1)) frame

def gatherAll : Option IncompleteTransfer → List TransferFrame → Option IncompleteTransfer
  | buffer, [] => buffer
  | buffer, frame :: frames =>
      match gather buffer frame with
      | none => none
      | some incomplete => gatherAll (some incomplete) frames

end IncompleteTransfer

/-! ## A delivery that is cut off -/

/-- A section of a message: its descriptor as smallulong, and its value. -/
structure MessageSection where
  code : UInt8
  value : Bytes
  isSection : 0x70 ≤ code ∧ code ≤ 0x78

def MessageSection.encode (s : MessageSection) : Bytes := 0x00 :: 0x53 :: s.code :: s.value

/-- The first frame of a delivery that is cut into these chunks, as the link hands it over. -/
def firstFrame (inputHandle : InputHandle) (transfer : Transfer) (chunks : List Payload) : LinkFrame :=
  .firstTransfer ⟨inputHandle, { transfer with more := 1 < chunks.length }, chunks.headD []⟩

/-- A delivery as its sender has it in the unsettled map, and the chunks of its payload of which those
at the front have arrived, in a frame each; the session as it is when the first is handed over, and
what it does from then on until the delivery is sent on.  Frames have less than 2^32 bytes, and a
payload has less than 2^64. -/
structure CutDelivery where
  message : UnsettledMessage
  deliveryTag : DeliveryTag
  inputHandle : InputHandle
  transfer : Transfer
  arrived : List Payload
  rest : List Payload
  session : Session
  since : List SessionAction
  transfer_deliveryTag : transfer.deliveryTag = some deliveryTag
  transfer_messageFormat : transfer.messageFormat = some message.messageFormat
  transfer_state : ∀ received, transfer.state ≠ some (.received received)
  sections : ∃ first others, message.payload = (first :: others).flatMap MessageSection.encode
  payload : (arrived ++ rest).flatten = message.payload
  frame_size : ∀ chunk ∈ arrived, chunk.length < 2 ^ 32
  payload_size : message.payload.length < 2 ^ 64
  session_mapped : session.localState = .mapped
  session_waiting : ∀ item ∈ session.remoteIncomingWindowExhaustedBuffer, item.WellFormed
  since_wellFormed : ∀ action ∈ since, action.WellFormed
  since_mapped : (Run.run Session.act session
    (.linkFrame (firstFrame inputHandle transfer (arrived ++ rest)) message.sender ::
      since)).1.localState = .mapped

/-- What the sender uses for the transfer once the link is attached again.  The delivery-tag is the
one that the next credit yields. -/
structure Reattached where
  inputHandle : InputHandle
  outputHandle : OutputHandle
  settled : Bool
  deliveryTag : DeliveryTag
  maxPayload : Nat

namespace Reattached

/-- The split of a delivery that is resumed. -/
def resumeSplit (again : Reattached) (deliveryTag : DeliveryTag) (message : UnsettledMessage) :
    TransferSplit where
  inputHandle := again.inputHandle
  transfer :=
    resumingTransfer again.outputHandle deliveryTag message.messageFormat (some again.settled)
      message.state false
  payload := message.payload
  maxPayload := again.maxPayload
  isFirst := true

/-- The split of a delivery that is sent anew, of which the receiver knows nothing. -/
def resendSplit (again : Reattached) (message : UnsettledMessage) : TransferSplit where
  inputHandle := again.inputHandle
  transfer :=
    { handle := again.outputHandle.handle
      deliveryId := none
      deliveryTag := some again.deliveryTag
      messageFormat := some message.messageFormat
      settled := some again.settled
      more := false
      rcvSettleMode := none
      state := none
      resume := false
      aborted := false
      batchable := false }
  payload := message.payload
  maxPayload := again.maxPayload
  isFirst := true

/-- The split of a delivery whose message is sent on. -/
def split? (again : Reattached) (deliveryTag : DeliveryTag) : ResumingDelivery → Option TransferSplit
  | .resume message => some (again.resumeSplit deliveryTag message)
  | .resend message => some (again.resendSplit message)
  | .abort _ _ | .restateOutcome _ _ _ _ => none

end Reattached

namespace CutDelivery

/-- What the session does from the hand-over of the first frame until the delivery is sent on. -/
def actions (d : CutDelivery) : List SessionAction :=
  .linkFrame (firstFrame d.inputHandle d.transfer (d.arrived ++ d.rest)) d.message.sender :: d.since

/-- The delivery-id of the first attempt. -/
def deliveryId (d : CutDelivery) : DeliveryNumber := d.session.deliveryIdOfNext

/-- The delivery-id of the delivery when it is sent on. -/
def deliveryIdAgain (d : CutDelivery) : DeliveryNumber :=
  (Run.run Session.act d.session d.actions).1.deliveryIdOfNext

/-- The deliveries that were handed over to the session, the first attempt included. -/
def deliveriesSince (d : CutDelivery) : Nat := firstCount (d.session.handedOver d.actions)

def frames (d : CutDelivery) : List TransferFrame :=
  (transferFrames d.transfer d.deliveryId (d.arrived ++ d.rest)).take d.arrived.length

/-- What the receiver has gathered before the suspension. -/
def received (d : CutDelivery) : Option IncompleteTransfer :=
  IncompleteTransfer.gatherAll none d.frames

/-- The entry of the delivery in the unsettled map of the receiver. -/
def entry (d : CutDelivery) : Option (Option DeliveryState) :=
  d.received.map fun incomplete =>
    some (.received ⟨incomplete.sectionNumber, incomplete.sectionOffset⟩)

/-- A delivery that has arrived as a whole is no longer in the buffer. -/
def kept (d : CutDelivery) : Option IncompleteTransfer := if d.rest = [] then none else d.received

/-- The frames with which the delivery is sent on, if it is. -/
def framesAgain (d : CutDelivery) (store : LinkStore) (again : Reattached) :
    Option (List TransferFrame) := do
  let resuming ← (resumeDelivery store d.message d.entry).1
  let split ← again.split? d.deliveryTag resuming
  let frames ← split.frames
  return frames.filterMap (·.numbered d.deliveryIdAgain)

/-- The payload that the receiver has after the frames that follow the suspension; `none` if there are
none or it refuses one. -/
def reassembled (d : CutDelivery) (store : LinkStore) (again : Reattached) : Option Payload := do
  let frames ← d.framesAgain store again
  (IncompleteTransfer.gatherAll d.kept frames).map (·.buffer.flatten)

/-- The message is delivered intact. -/
def Intact (d : CutDelivery) (store : LinkStore) (again : Reattached) : Prop :=
  d.reassembled store again = some d.message.payload

instance (d : CutDelivery) (store : LinkStore) (again : Reattached) :
    Decidable (d.Intact store again) :=
  inferInstanceAs (Decidable (_ = _))

end CutDelivery

end Fe2o3Amqp
