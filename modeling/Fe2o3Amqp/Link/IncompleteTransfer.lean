import Fe2o3Amqp.Link.ReceiverLink

/-!
# Partial deliveries

`IncompleteTransfer`: the transfers of a multi-frame delivery that have arrived so far, merged into
one performative, and their payloads.  The sizes are natural numbers: the chunks are in memory, so
their lengths add up without overflow.
-/

namespace Fe2o3Amqp

structure IncompleteTransfer where
  performative : Transfer
  deliveryTag : DeliveryTag
  buffer : List Payload
  sectionNumber : UInt32
  sectionOffset : UInt64
  accumulatedPayloadSize : Nat

/-- The `or_assign!` macro on one field: a field that is set must not be repeated differently. -/
def orAssignField {α E : Type} [DecidableEq α] (value other : Option α) :
    Except (ReceiverTransferError E) (Option α) :=
  match value, other with
  | some value, some otherValue =>
      if value ≠ otherValue then .error .inconsistentFieldInMultiFrameDelivery else .ok (some value)
  | some value, none => .ok (some value)
  | none, other => .ok other

namespace IncompleteTransfer

variable {E : Type}

def start (transfer : Transfer) (partialPayload : Payload) :
    Except (ReceiverTransferError E) IncompleteTransfer :=
  if transfer.deliveryId = none then .error .deliveryIdIsNone
  else
    match transfer.deliveryTag with
    | none => .error .deliveryTagIsNone
    | some deliveryTag =>
        let (number, offset) := countNumberOfSectionsAndOffset partialPayload
        .ok
          { performative := transfer
            deliveryTag
            buffer := [partialPayload]
            sectionNumber := number
            sectionOffset := offset
            accumulatedPayloadSize := partialPayload.length }

def isSameDeliveryAs (incomplete : IncompleteTransfer) (transfer : Transfer) : Bool :=
  match transfer.deliveryTag with
  | some remote => remote == incomplete.deliveryTag
  | none => true

/-- The settled flag after a further transfer: once true it stays. -/
def orSettled (settled other : Option Bool) : Option Bool :=
  match settled with
  | some value =>
      match other with
      | some otherValue => if !value then some otherValue else some value
      | none => some value
  | none => other

/-- The delivery state after a further transfer: a terminal one stays. -/
def orState (state other : Option DeliveryState) : Option DeliveryState :=
  match other with
  | some otherState =>
      match state with
      | some state => if !state.isTerminal then some otherState else some state
      | none => some otherState
  | none => state

def orAssign (performative other : Transfer) : Except (ReceiverTransferError E) Transfer := do
  let deliveryId ← orAssignField performative.deliveryId other.deliveryId
  let deliveryTag ← orAssignField performative.deliveryTag other.deliveryTag
  let messageFormat ← orAssignField performative.messageFormat other.messageFormat
  return { performative with
    deliveryId
    deliveryTag
    messageFormat
    settled := orSettled performative.settled other.settled
    state := orState performative.state other.state }

/-- Append to the buffered payload. -/
def append (incomplete : IncompleteTransfer) (other : Payload) : IncompleteTransfer :=
  let (number, offset) := countNumberOfSectionsAndOffset other
  { incomplete with
    sectionNumber :=
      if number = 0 then incomplete.sectionNumber else incomplete.sectionNumber + number
    sectionOffset := if number = 0 then incomplete.sectionOffset + offset else offset
    accumulatedPayloadSize := incomplete.accumulatedPayloadSize + other.length
    buffer := incomplete.buffer ++ [other] }

/-- A transfer that is refused leaves the buffered delivery as it was: the first two fields of
`or_assign!` are always set, so nothing is assigned before the check that fails. -/
def tryAppend (incomplete : IncompleteTransfer) (transfer : Transfer) (payload : Payload) :
    Except (ReceiverTransferError E) IncompleteTransfer :=
  if !incomplete.isSameDeliveryAs transfer then .error .inconsistentFieldInMultiFrameDelivery
  else
    match orAssign incomplete.performative transfer with
    | .error e => .error e
    | .ok performative => .ok ({ incomplete with performative }.append payload)

/-- The position at which a section number and offset are reached, scanning three bytes at a time. -/
def positionOfSectionNumberAndOffset (incomplete : IncompleteTransfer) (sectionNumber : UInt32)
    (sectionOffset : UInt64) : Option Nat :=
  let rec scan (curNumber : UInt32) (curOffset : UInt64) (i : Nat) : Bytes → Option Nat
    | b0 :: b1 :: b2 :: rest =>
        let header := isSectionHeader b0 b1 b2
        let curNumber := if header then curNumber + 1 else curNumber
        let curOffset := if header then 0 else curOffset + 1
        if curNumber = sectionNumber ∧ curOffset = sectionOffset then some i
        else scan curNumber curOffset (i + 1) (b1 :: b2 :: rest)
    | _ => none
  scan 0 0 0 incomplete.buffer.flatten

/-- The loop over the chunks: chunks shorter than the index are kept and counted off, every other
chunk is cut at the index. -/
def keepChunks : Nat → List Payload → List Payload
  | _, [] => []
  | index, chunk :: chunks =>
      if chunk.length < index then chunk :: keepChunks (index - chunk.length) chunks
      else chunk.take index :: keepChunks index chunks

def keepBufferTillSectionNumberAndOffset (incomplete : IncompleteTransfer) (sectionNumber : UInt32)
    (sectionOffset : UInt64) : IncompleteTransfer :=
  match incomplete.positionOfSectionNumberAndOffset sectionNumber sectionOffset with
  | none => incomplete
  | some index =>
      let buffer := keepChunks index incomplete.buffer
      { incomplete with buffer, accumulatedPayloadSize := (buffer.map List.length).sum }

end IncompleteTransfer

end Fe2o3Amqp
