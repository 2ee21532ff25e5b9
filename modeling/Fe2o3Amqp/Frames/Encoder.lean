import Fe2o3Amqp.Frames.Amqp
import Fe2o3Amqp.Link.SenderLink
import Fe2o3Amqp.Serde.IoRead

/-!
# The frame encoder and decoder

`FrameEncoder` and `FrameDecoder`, and the way the transport sends what the encoder has written.  The
encoder does not mark where a frame ends; the transport cuts its bytes at multiples of the largest
frame length, and the length-delimited codec puts the length before each of the pieces.
-/

namespace Fe2o3Amqp

def frameTypeAmqp : UInt8 := 0x00

/-! ## Encoding -/

structure FrameEncoder where
  maxFrameBodySize : Nat

/-- A subtraction of sizes, which panics below zero. -/
def checkedSub (a b : Nat) : Except Failure Nat := if b ≤ a then .ok (a - b) else .error .panic

/-- `split_to`, which panics past the end. -/
def splitTo (bytes : Bytes) (index : Nat) : Except Failure (Bytes × Bytes) :=
  if index ≤ bytes.length then .ok (bytes.take index, bytes.drop index) else .error .panic

def frameHeader (channel : UInt16) : Bytes :=
  [2, frameTypeAmqp] ++ BigEndian.encode 2 channel.toNat

namespace FrameEncoder

def new (maxFrameSize : Nat) : Except Failure FrameEncoder := do
  let maxFrameBodySize ← checkedSub maxFrameSize 4
  return { maxFrameBodySize }

/-- A header, a performative and a piece of the payload. -/
def writeFrame (dst : Bytes) (channel : UInt16) (buf : Bytes) (payload : Payload) : Bytes :=
  dst ++ (frameHeader channel ++ buf ++ payload)

/-- The loop that sends the middle frames, for as many rounds as there is fuel. -/
def middleFrames (encoder : FrameEncoder) (channel : UInt16) (buf : Bytes) (splitIndex : Nat) :
    (fuel : Nat) → (remainingBytes : Nat) → (dst : Bytes) → Payload →
      Except Failure (Option (Bytes × Payload))
  | 0, _, _, _ => .ok none
  | fuel + 1, remainingBytes, dst, payload =>
      if remainingBytes > encoder.maxFrameBodySize then do
        let (part, payload) ← splitTo payload splitIndex
        middleFrames encoder channel buf splitIndex fuel (buf.length + payload.length)
          (writeFrame dst channel buf part) payload
      else .ok (some (dst, payload))

/-- The last frame, behind the middle ones. -/
def lastFrame (channel : UInt16) (transfer : Transfer) (middle : Option (Bytes × Payload)) :
    Except Failure (Option Bytes) :=
  match middle with
  | none => .ok none
  | some (dst, payload) => do
      let buf ← toVec transfer.toSer
      return some (writeFrame dst channel buf payload)

/-- The branch of a transfer that does not fit. -/
def splitTransfer (encoder : FrameEncoder) (fuel : Nat) (dst : Bytes) (channel : UInt16)
    (transfer : Transfer) (payload : Payload) : Except Failure (Option Bytes) := do
  let origMore := transfer.more
  let transfer := { transfer with more := true }
  let buf ← toVec transfer.toSer
  let splitIndex ← checkedSub encoder.maxFrameBodySize buf.length
  -- the first frame
  let (part, payload) ← splitTo payload splitIndex
  let dst := writeFrame dst channel buf part
  let transfer := transfer.clearContinuationFields
  let buf ← toVec transfer.toSer
  let splitIndex ← checkedSub encoder.maxFrameBodySize buf.length
  let middle ← encoder.middleFrames channel buf splitIndex fuel (buf.length + payload.length) dst
    payload
  lastFrame channel { transfer with more := origMore } middle

/-- `encode_transfer`; nothing when the loop has not ended within the fuel. -/
def encodeTransfer (encoder : FrameEncoder) (fuel : Nat) (dst : Bytes) (channel : UInt16)
    (transfer : Transfer) (payload : Payload) : Except Failure (Option Bytes) := do
  let buf ← toVec transfer.toSer
  if buf.length + payload.length > encoder.maxFrameBodySize then
    encoder.splitTransfer fuel dst channel transfer payload
  else return some (writeFrame dst channel buf payload)

/-- A frame that is a performative alone. -/
def encodePerformative (dst : Bytes) (channel : UInt16) (performative : Ser) :
    Except Failure (Option Bytes) := do
  let buf ← toVec performative
  return some (writeFrame dst channel buf [])

/-- `encode`. -/
def encode (encoder : FrameEncoder) (fuel : Nat) (item : Frame) (dst : Bytes) :
    Except Failure (Option Bytes) :=
  match item.body with
  | .open performative => encodePerformative dst item.channel performative.toSer
  | .begin performative => encodePerformative dst item.channel performative.toSer
  | .attach performative => encodePerformative dst item.channel performative.toSer
  | .flow performative => encodePerformative dst item.channel performative.toSer
  | .transfer performative payload =>
      encoder.encodeTransfer fuel dst item.channel performative payload
  | .disposition performative => encodePerformative dst item.channel performative.toSer
  | .detach performative => encodePerformative dst item.channel performative.toSer
  | .end performative => encodePerformative dst item.channel performative.toSer
  | .close performative => encodePerformative dst item.channel performative.toSer
  | .empty => .ok (some (writeFrame dst item.channel [] []))

end FrameEncoder

/-! ## Sending -/

/-- The pieces that the bytes are sent in: full ones as long as they are more than one. -/
def cutFrames (maxFrameSize : Nat) : (fuel : Nat) → Bytes → Option (List Bytes)
  | 0, _ => none
  | fuel + 1, bytes =>
      if bytes.length > maxFrameSize then
        (bytes.take maxFrameSize :: ·) <$> cutFrames maxFrameSize fuel (bytes.drop maxFrameSize)
      else some [bytes]

/-- `start_send`: the pieces that are given to the length-delimited codec. -/
def startSend (maxFrameSize fuel : Nat) (item : Frame) : Except Failure (Option (List Bytes)) := do
  let encoder ← FrameEncoder.new maxFrameSize
  let bytes ← encoder.encode fuel item []
  return bytes.bind (cutFrames maxFrameSize fuel)

/-! ## Decoding -/

inductive FrameFailure where
  | notImplemented
  | decode (failure : Failure)
deriving DecidableEq

/-- The reader over the bytes of one frame. -/
def ChunkSource.single (bytes : Bytes) : ChunkSource :=
  if h : bytes = [] then [] else [⟨bytes, h⟩]

theorem ChunkSource.bytes_single (bytes : Bytes) : (ChunkSource.single bytes).bytes = bytes := by
  by_cases h : bytes = []
  · simp [single, ChunkSource.bytes, h]
  · simp [single, ChunkSource.bytes, h]

/-- The body of the frame; the payload of a transfer is what is left of the source. -/
def Performative.toFrameBody (performative : Performative) (payload : Payload) : FrameBody :=
  match performative with
  | .open performative => .open performative
  | .begin performative => .begin performative
  | .attach performative => .attach performative
  | .transfer performative => .transfer performative payload
  | .flow performative => .flow performative
  | .disposition performative => .disposition performative
  | .detach performative => .detach performative
  | .end performative => .end performative
  | .close performative => .close performative

namespace FrameDecoder

def decodeBody (src : Bytes) : Except FrameFailure FrameBody :=
  if src = [] then .ok .empty
  else
    match De.performative (Deserializer.new (IoReader.new (ChunkSource.single src))) with
    | .ok performative de => .ok (performative.toFrameBody de.reader.reader.bytes)
    | .error failure _ => .error (.decode failure)

/-- `decode`; `get_u8` and `get_u16` panic when the bytes run out. -/
def decode (src : Bytes) : Except FrameFailure Frame :=
  match src with
  | doff :: ftype :: high :: low :: src =>
      if ftype ≠ frameTypeAmqp then .error .notImplemented
      else if doff ≠ 2 then .error .notImplemented
      else do
        let body ← decodeBody src
        return { channel := UInt16.ofNat (BigEndian.decode [high, low]), body }
  | _ => .error (.decode .panic)

end FrameDecoder

end Fe2o3Amqp
