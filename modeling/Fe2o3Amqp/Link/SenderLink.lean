import Fe2o3Amqp.Link.Detach
import Fe2o3Amqp.Serde.SizeSer
import Fe2o3Amqp.Types.Codec

/-!
# The sending link endpoint

`SenderLink` and the hand-over of one delivery to the session: the delivery tag that a consumed
credit yields, the transfer performative, and the split of the payload over transfer frames.  The
split is kept as the local variables between two sends, since it may be abandoned at each of them.
-/

namespace Fe2o3Amqp

structure SenderLink extends LinkEndpoint where
  maxFrameSize : Nat
  sessionStopReason : Option SessionStopReason

/-- How a send ends without handing its delivery over. -/
inductive SendFailure where
  | link (error : LinkStateError)
  | messageSizeExceeded (size maxSize : Nat)
  | panic

/-- `clear_continuation_fields`. -/
def Transfer.clearContinuationFields (transfer : Transfer) : Transfer :=
  { transfer with
    deliveryId := none
    deliveryTag := none
    messageFormat := none
    settled := none
    rcvSettleMode := none }

/-- `consume_link_credit` of one credit: the delivery tag, if there is credit. -/
def LinkFlowStateInner.consumeLinkCredit (state : LinkFlowStateInner) (count : UInt32) :
    Option (DeliveryTag × LinkFlowStateInner) :=
  if state.linkCredit < count then none
  else
    some (BigEndian.encode 4 state.deliveryCount.toNat,
      { state with
        deliveryCount := state.deliveryCount + count
        linkCredit := state.linkCredit.saturatingSub count })

/-! ## The split of a delivery -/

/-- The local variables of `send_transfer_without_modifying_unsettled_map` before a send. -/
structure TransferSplit where
  inputHandle : InputHandle
  transfer : Transfer
  payload : Payload
  maxPayload : Nat
  isFirst : Bool

namespace TransferSplit

/-- `send_transfer`: the frame that is handed to the session. -/
def frame (split : TransferSplit) (transfer : Transfer) (payload : Payload) : LinkFrame :=
  if split.isFirst then .firstTransfer ⟨split.inputHandle, transfer, payload⟩
  else .transferContinuation ⟨split.inputHandle, transfer, payload⟩

/-- The next frame, and what is left after it; nothing is left after the last one. -/
def next (split : TransferSplit) : LinkFrame × Option TransferSplit :=
  if split.payload.length > split.maxPayload then
    let transfer := { split.transfer with more := true }
    (split.frame transfer (split.payload.take split.maxPayload),
      some { split with
        -- the fields are cleared once, after the first frame
        transfer := if split.isFirst then transfer.clearContinuationFields else transfer
        payload := split.payload.drop split.maxPayload
        isFirst := false })
  else (split.frame { split.transfer with more := false } split.payload, none)

/-- The frame is the first of its delivery exactly when the split has handed over none. -/
theorem next_fst (split : TransferSplit) :
    ∃ frame, split.next.1 =
      if split.isFirst then .firstTransfer frame else .transferContinuation frame := by
  simp only [next, frame]
  by_cases hmore : split.payload.length > split.maxPayload <;> cases split.isFirst <;>
    simp [hmore]

theorem next_isFirst {split rest : TransferSplit} {frame : LinkFrame}
    (h : split.next = (frame, some rest)) : rest.isFirst = false := by
  by_cases hmore : split.payload.length > split.maxPayload
  · simp only [next, hmore, if_true, Prod.mk.injEq, Option.some.injEq] at h
    rw [← h.2]
  · simp [next, hmore] at h

end TransferSplit

namespace SenderLink

/-- The error of a send on the channel of a session that is gone. -/
def stopped (l : SenderLink) : LinkStateError :=
  match l.sessionStopReason with
  | some reason => .sessionStopped reason
  | none => .illegalState

def isSettledOnSend (l : SenderLink) (transfer : Transfer) : Bool :=
  transfer.settled.getD <|
    match l.sndSettleMode with
    | .settled => true
    | .unsettled => false
    | .mixed => false

def generateNonResumingTransferPerformative (l : SenderLink) (deliveryTag : DeliveryTag)
    (messageFormat : MessageFormat) (settled : Option Bool) (state : Option DeliveryState)
    (batchable : Bool) : Except LinkStateError Transfer :=
  match l.outputHandle with
  | none => .error .illegalState
  | some handle =>
      .ok
        { handle := handle.handle
          deliveryId := none
          deliveryTag := some deliveryTag
          messageFormat := some messageFormat
          settled := some <|
            match l.sndSettleMode with
            | .settled => true
            | .unsettled => false
            | .mixed => settled.getD false
          more := false
          rcvSettleMode := none
          state
          resume := false
          aborted := false
          batchable }

/-- The payload bytes that fit beside the performative, measured with the largest delivery-id.  The
subtraction panics when the performative alone does not fit. -/
def maxPayload (l : SenderLink) (transfer : Transfer) : Except SendFailure Nat :=
  match serializedSize { transfer with more := true, deliveryId := some 0xffffffff }.toSer with
  | .error (.err _) => .error (.link .illegalState)
  | .error .panic | .error .stack => .error .panic
  | .ok performativeSize =>
      if 4 + performativeSize ≤ l.maxFrameSize then .ok (l.maxFrameSize - 4 - performativeSize)
      else .error .panic

/-- `send_transfer_without_modifying_unsettled_map` up to the first send. -/
def startTransfer (l : SenderLink) (transfer : Transfer) (payload : Payload) :
    Except SendFailure TransferSplit :=
  match l.inputHandle with
  | none => .error (.link .illegalState)
  | some inputHandle => do
      let maxPayload ← l.maxPayload transfer
      return { inputHandle, transfer, payload, maxPayload, isFirst := true }

end SenderLink

end Fe2o3Amqp
