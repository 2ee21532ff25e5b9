import Fe2o3Amqp.Frames.Encoder
import Fe2o3Amqp.Serde.CompositeSize
import Fe2o3Amqp.Types.FromReader
import Fe2o3Amqp.Types.RoundTrip

/-!
# A transfer that is cut into frames

The encoder fills every frame of a split transfer but the last one, so that the transport, which cuts
at a fixed length, cuts between the frames.
-/

namespace Fe2o3Amqp

/-! ## The performatives of a split -/

/-- The transfer with some of the fields left out that only the first frame has to carry, with the flag
for more frames taken back, or with another delivery-id than the largest. -/
structure Transfer.Trims (t t' : Transfer) : Prop where
  handle : t.handle = t'.handle
  deliveryId : (t.deliveryId = t'.deliveryId ∨ t.deliveryId = none) ∨ t'.deliveryId = some 0xffffffff
  deliveryTag : t.deliveryTag = t'.deliveryTag ∨ t.deliveryTag = none
  messageFormat : t.messageFormat = t'.messageFormat ∨ t.messageFormat = none
  settled : t.settled = t'.settled ∨ t.settled = none
  more : t.more = t'.more ∨ t.more = false
  rcvSettleMode : t.rcvSettleMode = t'.rcvSettleMode ∨ t.rcvSettleMode = none
  state : t.state = t'.state
  resume : t.resume = t'.resume
  aborted : t.aborted = t'.aborted
  batchable : t.batchable = t'.batchable

namespace Transfer

/-- The performative of the first frame. -/
def firstPart (t : Transfer) : Transfer := { t with more := true }

/-- The performative of the frames between the first and the last. -/
def middlePart (t : Transfer) : Transfer := t.firstPart.clearContinuationFields

/-- The performative of the last frame. -/
def lastPart (t : Transfer) : Transfer := { t.middlePart with more := t.more }

end Transfer

/-- A value that is read back is not written as nothing. -/
theorem RoundTrips.asField_ne_nil {α : Type} {t : Ser} {d : De SliceReader α} {a : α}
    (h : RoundTrips .none t d a) {bytes : Bytes} (hbytes : t.asField = .ok bytes) : bytes ≠ [] :=
  (Serializes.asField h hbytes).1.ne_nil

namespace CompositeField.NoLonger

variable {α : Type} {name : String}

theorem optional {toSer : α → Ser} {d : De SliceReader α}
    (h : ∀ x, RoundTrips .none (toSer x) d x) {v v' : Option α} (hv : v = v' ∨ v = none) :
    (CompositeField.optional name (v.map toSer)).NoLonger
      (CompositeField.optional name (v'.map toSer)) := by
  obtain rfl | rfl := hv
  · exact .of_eq rfl
  · refine .of_none rfl ?_
    intro t ht bytes hbytes
    cases v' with
    | none => cases ht
    | some x =>
        cases ht
        exact (h x).ofSome.asField hbytes |>.1.ne_nil

theorem flag {v v' : Bool} (hv : v = v' ∨ v = false) :
    (CompositeField.defaulted name Ser.bool false v).NoLonger
      (CompositeField.defaulted name Ser.bool false v') := by
  obtain rfl | rfl := hv
  · exact .of_eq rfl
  · refine .of_none rfl ?_
    intro t ht bytes hbytes
    cases v' with
    | false => cases ht
    | true =>
        cases ht
        exact (RoundTrips.bool true).asField_ne_nil hbytes

/-- The largest delivery-id is measured for any. -/
theorem deliveryId {v v' : Option UInt32} (hv : (v = v' ∨ v = none) ∨ v' = some 0xffffffff) :
    (CompositeField.optional name (v.map Ser.u32)).NoLonger
      (CompositeField.optional name (v'.map Ser.u32)) := by
  obtain hv | rfl := hv
  · exact optional (fun _ => .u32 _) hv
  · cases v with
    | none => exact optional (fun _ => .u32 _) (.inr rfl)
    | some id =>
        have hwritten (id : UInt32) : (CompositeField.optional name ((some id).map Ser.u32)).written =
            .ok (some (Wire.u32 id)) := by
          have hneutral := Serializer.neutral_describedList []
          simp only [CompositeField.written, CompositeField.optional, Option.map_some, Ser.asField,
            Ser.serialize, Writes.serializeU32_eq hneutral, Except.ok_bind]
          rfl
        intro piece' hpiece'
        rw [hwritten] at hpiece'
        cases hpiece'
        refine ⟨_, hwritten id, .written ?_⟩
        have hlargest : (Wire.u32 0xffffffff).length = 5 := rfl
        rw [hlargest, Wire.u32]
        split_ifs <;> simp

end CompositeField.NoLonger

theorem Transfer.toVec_of_trims {t t' : Transfer} (h : t.Trims t') {bytes' : Bytes}
    (hbytes' : toVec t'.toSer = .ok bytes') :
    ∃ bytes, toVec t.toSer = .ok bytes ∧ bytes.length ≤ bytes'.length := by
  refine toVec_composite_of_noLonger ?_ hbytes'
  refine .cons (.of_eq (by rw [h.handle])) <|
    .cons (.deliveryId h.deliveryId) <|
    .cons (.optional (fun _ => .bytes _) h.deliveryTag) <|
    .cons (.optional (fun _ => .u32 _) h.messageFormat) <|
    .cons (.optional (fun _ => .bool _) h.settled) <|
    .cons (.flag h.more) <|
    .cons (.optional ReceiverSettleMode.roundTrips h.rcvSettleMode) <|
    .cons (.of_eq (by rw [h.state])) <|
    .cons (.of_eq (by rw [h.resume])) <|
    .cons (.of_eq (by rw [h.aborted])) <|
    .cons (.of_eq (by rw [h.batchable])) .nil

/-! ## Reading a frame -/

/-- The transfer with the state that is read for its own. -/
def Transfer.readAs (read : DeliveryState → DeliveryState) (t : Transfer) : Transfer :=
  { t with state := t.state.map read }

theorem Transfer.roundTrips_map {t : Transfer} (read : DeliveryState → DeliveryState)
    (h : ∀ state, t.state = some state →
      RoundTrips .none state.toSer De.deliveryState (read state)) :
    CompositeRoundTrips 0x14 t.toSer De.transfer (t.readAs read) :=
  FieldsRoundTrip.composite
    (.cons (.required (.newtype (.u32 _)))
    (.cons (.optional fun _ _ => .u32 _)
    (.cons (.optional fun _ _ => .bytes _)
    (.cons (.optional fun _ _ => .u32 _)
    (.cons (.optional fun _ _ => .bool _)
    (.cons (.defaulted (.bool _))
    (.cons (.optional fun _ _ => ReceiverSettleMode.roundTrips _)
    (.cons (.optional_map read h)
    (.cons (.defaulted (.bool _))
    (.cons (.defaulted (.bool _))
    (.cons (.defaulted (.bool _)) (.nil _))))))))))))

/-- The decoder is left in front of these bytes when it has read the performative. -/
def ReadsPerformative (src : Bytes) (performative : Performative) (rest : Bytes) : Prop :=
  ∃ de, De.performative (Deserializer.new (SliceReader.new src)) = .ok performative de ∧
    de.reader.slice = rest

theorem FrameDecoder.decodeBody_eq_ok {src : Bytes} (hsrc : src ≠ []) {body : FrameBody} :
    decodeBody src = .ok body ↔
      ∃ performative rest, ReadsPerformative src performative rest ∧
        performative.toFrameBody rest = body := by
  have halike : Decodable.DecodesAlike .performative src (.single src) := by
    have hiff := Decodable.decodesAlike_iff .performative (.single src)
    rw [ChunkSource.bytes_single] at hiff
    exact hiff.mpr fun hlazy => by cases hlazy
  simp only [Decodable.DecodesAlike, Decodable.decode] at halike
  simp only [decodeBody, if_neg hsrc, ReadsPerformative]
  generalize De.performative (Deserializer.new (IoReader.new (.single src))) = run at halike
  generalize De.performative (Deserializer.new (SliceReader.new src)) = run' at halike
  cases halike with
  | error =>
      constructor
      · intro h
        cases h
      · rintro ⟨_, _, ⟨_, ⟨⟩, _⟩, _⟩
  | @ok performative de' de h =>
      obtain ⟨hunread, hbuffer⟩ := h
      -- what the reader over the source holds back is lost, but only an attach lets it hold something
      have hbody : performative.toFrameBody de.reader.reader.bytes =
          performative.toFrameBody de'.reader.slice := by
        cases performative with
        | transfer v =>
            have hleft : de.reader.reader.bytes = de'.reader.slice := by
              rw [hunread, IoReader.unread, hbuffer rfl, List.nil_append]
            rw [hleft]
        | _ => rfl
      dsimp only
      rw [hbody]
      constructor
      · intro h
        exact ⟨performative, _, ⟨de', rfl, rfl⟩, Except.ok.inj h⟩
      · rintro ⟨_, _, ⟨_, ⟨⟩, rfl⟩, rfl⟩
        rfl

/-- The header that the encoder writes is taken off. -/
theorem FrameDecoder.decode_header (channel : UInt16) (body : Bytes) :
    decode (frameHeader channel ++ body) =
      (decodeBody body).map fun body => { channel, body } := by
  obtain ⟨high, low, hencode⟩ : ∃ high low, BigEndian.encode 2 channel.toNat = [high, low] :=
    ⟨_, _, rfl⟩
  have hchannel := BigEndian.ofNat_decode_uint16 channel
  rw [hencode] at hchannel
  simp only [frameHeader, hencode, List.cons_append, List.nil_append, decode, ne_eq, not_true_eq_false,
    if_false, hchannel]
  cases decodeBody body <;> rfl

/-- A frame is decoded to the transfer that its performative is read as, and to exactly the bytes
behind the performative. -/
theorem FrameDecoder.decode_transfer {t read : Transfer}
    (h : CompositeRoundTrips 0x14 t.toSer De.transfer read) {buf : Bytes}
    (hbuf : toVec t.toSer = .ok buf) (channel : UInt16) (payload : Payload) :
    decode (frameHeader channel ++ buf ++ payload) = .ok ⟨channel, .transfer read payload⟩ := by
  have hvariant : RoundTrips .none t.toSer De.performative (.transfer read) :=
    .variant Performative.transfer h rfl
  obtain ⟨hstart, hdecodes⟩ := Serializes.toVec hvariant hbuf
  have hne : buf ++ payload ≠ [] := by simp [hstart.ne_nil]
  have hreads : ReadsPerformative (buf ++ payload) (.transfer read) payload :=
    ⟨_, hdecodes (Deserializer.new (SliceReader.new (buf ++ payload))) payload rfl rfl rfl, rfl⟩
  have hbody : decodeBody (buf ++ payload) = .ok (.transfer read payload) :=
    (decodeBody_eq_ok hne).mpr ⟨_, _, hreads, rfl⟩
  rw [List.append_assoc, decode_header, hbody]
  rfl

/-! ## Cutting -/

/-- Full frames and a last one are cut apart again. -/
theorem cutFrames_flatten {maxFrameSize : Nat} {full : List Bytes}
    (hfull : ∀ frame ∈ full, frame.length = maxFrameSize) {last : Bytes} (hlast : last ≠ [])
    (hlength : last.length ≤ maxFrameSize) {fuel : Nat} (hfuel : full.length < fuel) :
    cutFrames maxFrameSize fuel (full.flatten ++ last) = some (full ++ [last]) := by
  induction full generalizing fuel with
  | nil =>
      obtain ⟨fuel, rfl⟩ := Nat.exists_eq_add_of_lt hfuel
      simp only [List.length_nil, Nat.zero_add, cutFrames, List.flatten_nil, List.nil_append,
        if_neg (Nat.not_lt.mpr hlength)]
  | cons frame full ih =>
      obtain ⟨fuel, rfl⟩ := Nat.exists_eq_add_one_of_ne_zero (Nat.ne_zero_of_lt hfuel)
      have hframe := hfull frame List.mem_cons_self
      have hpos := List.length_pos_iff.mpr hlast
      have hmore : (frame ++ (full.flatten ++ last)).length > maxFrameSize := by
        simp only [List.length_append]
        omega
      have hrest := ih (fun frame hmem => hfull frame (List.mem_cons_of_mem _ hmem))
        (Nat.lt_of_succ_lt_succ hfuel)
      rw [List.flatten_cons, List.append_assoc, cutFrames, if_pos hmore, ← hframe,
        List.take_left', List.drop_left', hframe, hrest]
      · rfl
      · rfl
      · rfl

/-- A header, a performative and a piece of the payload. -/
def frameBytes (channel : UInt16) (buf : Bytes) (payload : Payload) : Bytes :=
  frameHeader channel ++ buf ++ payload

@[simp] theorem length_frameBytes (channel : UInt16) (buf : Bytes) (payload : Payload) :
    (frameBytes channel buf payload).length = 4 + buf.length + payload.length := by
  simp only [frameBytes, frameHeader, List.length_append, List.length_cons, List.length_nil,
    BigEndian.length_encode]

namespace FrameEncoder

variable {encoder : FrameEncoder} {channel : UInt16} {buf : Bytes} {splitIndex : Nat}

/-- The loop cuts full pieces off the payload until the rest fits. -/
theorem middleFrames_eq (hsum : buf.length + splitIndex = encoder.maxFrameBodySize)
    (hpos : 0 < splitIndex) (payload : Payload) :
    ∃ (chunks : List Payload) (rest : Payload), chunks.flatten ++ rest = payload ∧
      (∀ chunk ∈ chunks, chunk.length = splitIndex) ∧
      buf.length + rest.length ≤ encoder.maxFrameBodySize ∧
      ∀ fuel dst, chunks.length < fuel →
        encoder.middleFrames channel buf splitIndex fuel (buf.length + payload.length) dst payload =
          .ok (some (dst ++ (chunks.map (frameBytes channel buf)).flatten, rest)) := by
  induction hlength : payload.length using Nat.strong_induction_on generalizing payload with
  | _ length ih =>
      subst hlength
      by_cases hmore : buf.length + payload.length > encoder.maxFrameBodySize
      · have hsplit : splitIndex ≤ payload.length := by omega
        have hshorter : (payload.drop splitIndex).length < payload.length := by
          rw [List.length_drop]
          omega
        obtain ⟨chunks, rest, hpayload, hchunks, hrest, hrun⟩ := ih _ hshorter _ rfl
        refine ⟨payload.take splitIndex :: chunks, rest, ?_, ?_, hrest, ?_⟩
        · rw [List.flatten_cons, List.append_assoc, hpayload, List.take_append_drop]
        · intro chunk hmem
          rcases List.mem_cons.mp hmem with rfl | hmem
          · rw [List.length_take, Nat.min_eq_left hsplit]
          · exact hchunks chunk hmem
        · intro fuel dst hfuel
          obtain ⟨fuel, rfl⟩ := Nat.exists_eq_add_one_of_ne_zero (Nat.ne_zero_of_lt hfuel)
          rw [middleFrames, if_pos hmore, splitTo, if_pos hsplit, Except.ok_bind]
          dsimp only
          rw [hrun _ _ (Nat.lt_of_succ_lt_succ hfuel), List.map_cons, List.flatten_cons, writeFrame,
            List.append_assoc]
          rfl
      · refine ⟨[], payload, rfl, by simp, by omega, ?_⟩
        intro fuel dst hfuel
        obtain ⟨fuel, rfl⟩ := Nat.exists_eq_add_one_of_ne_zero (Nat.ne_zero_of_lt hfuel)
        rw [middleFrames, if_neg hmore, List.map_nil, List.flatten_nil, List.append_nil]

end FrameEncoder

/-! ## Sending a transfer -/

/-- What a delivery is split into: the payload in order, the flag for more on all parts but the last,
which has it as the transfer, and the identification of the delivery on the first only. -/
structure IsSplit (transfer : Transfer) (payload : Payload) (parts : List (Transfer × Payload)) :
    Prop where
  payload : (parts.map Prod.snd).flatten = payload
  more : ∃ full last, parts = full ++ [last] ∧ (∀ part ∈ full, part.1.more = true) ∧
    last.1.more = transfer.more
  delivery : ∃ first rest, parts = first :: rest ∧ first.1.deliveryId = transfer.deliveryId ∧
    first.1.deliveryTag = transfer.deliveryTag ∧ first.1.messageFormat = transfer.messageFormat ∧
    ∀ part ∈ rest, part.1.deliveryId = none ∧ part.1.deliveryTag = none ∧
      part.1.messageFormat = none

/-- The parts of a transfer that does not fit in a frame. -/
theorem isSplit_parts {transfer : Transfer} (read : DeliveryState → DeliveryState)
    {part rest payload : Payload} {chunks : List Payload}
    (hpayload : part ++ (chunks.flatten ++ rest) = payload) :
    IsSplit transfer payload ((transfer.firstPart.readAs read, part) ::
      chunks.map (fun chunk => (transfer.middlePart.readAs read, chunk)) ++
        [(transfer.lastPart.readAs read, rest)]) where
  payload := by
    simp only [List.map_append, List.map_cons, List.map_map, List.map_nil, Function.comp_def,
      List.map_id', List.flatten_append, List.flatten_cons, List.flatten_nil, List.append_nil,
      List.append_assoc]
    exact hpayload
  more := by
    refine ⟨_, _, rfl, ?_, rfl⟩
    intro part hmem
    rcases List.mem_cons.mp hmem with rfl | hmem
    · rfl
    · obtain ⟨chunk, -, rfl⟩ := List.mem_map.mp hmem
      rfl
  delivery := by
    refine ⟨_, _, rfl, rfl, rfl, rfl, ?_⟩
    intro part hmem
    rcases List.mem_append.mp hmem with hmem | hmem
    · obtain ⟨chunk, -, rfl⟩ := List.mem_map.mp hmem
      exact ⟨rfl, rfl, rfl⟩
    · rw [List.mem_singleton.mp hmem]
      exact ⟨rfl, rfl, rfl⟩

/-- The transfer is sent in pieces that the codec takes and that are decoded, one by one, to frames of
the channel with a split of the transfer. -/
def SentAsSplit (maxFrameSize : Nat) (channel : UInt16) (transfer : Transfer) (payload : Payload) :
    Prop :=
  ∃ fuel pieces parts,
    startSend maxFrameSize fuel ⟨channel, .transfer transfer payload⟩ = .ok (some pieces) ∧
      (∀ piece ∈ pieces, piece.length ≤ maxFrameSize) ∧
      pieces.map FrameDecoder.decode =
        parts.map (fun part => .ok ⟨channel, .transfer part.1 part.2⟩) ∧
      IsSplit transfer payload parts

/-- The performative with the flag for more leaves room for a byte of payload. -/
def Transfer.LeavesRoom (transfer : Transfer) (maxFrameSize : Nat) : Prop :=
  ∃ encoder buf, FrameEncoder.new maxFrameSize = .ok encoder ∧
    toVec { transfer with more := true }.toSer = .ok buf ∧ buf.length < encoder.maxFrameBodySize

theorem FrameEncoder.new_eq_ok {maxFrameSize : Nat} {encoder : FrameEncoder}
    (h : FrameEncoder.new maxFrameSize = .ok encoder) :
    encoder.maxFrameBodySize + 4 = maxFrameSize := by
  simp only [new, checkedSub] at h
  split at h
  next hle =>
    cases h
    exact Nat.sub_add_cancel hle
  next => cases h

namespace Transfer

variable {t t' : Transfer}

theorem Trims.refl (t : Transfer) : t.Trims t :=
  ⟨rfl, .inl (.inl rfl), .inl rfl, .inl rfl, .inl rfl, .inl rfl, .inl rfl, rfl, rfl, rfl, rfl⟩

/-- The flag for more may be taken back. -/
theorem Trims.withMore (h : t.Trims t') (more : Bool) (hmore : t'.more = true) :
    { t with more }.Trims t' :=
  { h with more := by cases more <;> simp [hmore] }

theorem trims_firstPart (t : Transfer) : t.Trims t.firstPart :=
  (Trims.refl t.firstPart).withMore t.more rfl

theorem middlePart_trims (t : Transfer) : t.middlePart.Trims t.firstPart where
  handle := rfl
  deliveryId := .inl (.inr rfl)
  deliveryTag := .inr rfl
  messageFormat := .inr rfl
  settled := .inr rfl
  more := .inl rfl
  rcvSettleMode := .inr rfl
  state := rfl
  resume := rfl
  aborted := rfl
  batchable := rfl

theorem lastPart_trims (t : Transfer) : t.lastPart.Trims t.middlePart :=
  (Trims.refl t.middlePart).withMore t.more rfl

end Transfer

/-- A transfer that fits is one frame. -/
theorem encodeTransfer_of_fits {encoder : FrameEncoder} {transfer : Transfer} {buf : Bytes}
    (hbuf : toVec transfer.toSer = .ok buf) {payload : Payload}
    (hfits : buf.length + payload.length ≤ encoder.maxFrameBodySize) (fuel : Nat) (channel : UInt16) :
    encoder.encodeTransfer fuel [] channel transfer payload =
      .ok (some (frameBytes channel buf payload)) := by
  rw [FrameEncoder.encodeTransfer, hbuf, Except.ok_bind, if_neg (Nat.not_lt.mpr hfits)]
  rfl

/-- A transfer that does not fit is written as full frames and a last one that fits. -/
theorem encodeTransfer_of_not_fits {encoder : FrameEncoder} {transfer : Transfer}
    {buf first middle last : Bytes} (hbuf : toVec transfer.toSer = .ok buf)
    (hfirst : toVec transfer.firstPart.toSer = .ok first)
    (hmiddle : toVec transfer.middlePart.toSer = .ok middle)
    (hlast : toVec transfer.lastPart.toSer = .ok last)
    (hroom : first.length < encoder.maxFrameBodySize) (hbuf_first : buf.length ≤ first.length)
    (hmiddle_first : middle.length ≤ first.length) (hlast_middle : last.length ≤ middle.length)
    {payload : Payload} (hsplit : encoder.maxFrameBodySize < buf.length + payload.length)
    (channel : UInt16) :
    ∃ (part : Payload) (chunks : List Payload) (rest : Payload),
      part ++ (chunks.flatten ++ rest) = payload ∧
      first.length + part.length = encoder.maxFrameBodySize ∧
      (∀ chunk ∈ chunks, middle.length + chunk.length = encoder.maxFrameBodySize) ∧
      last.length + rest.length ≤ encoder.maxFrameBodySize ∧
      ∀ fuel, chunks.length < fuel →
        encoder.encodeTransfer fuel [] channel transfer payload = .ok (some
          (((frameBytes channel first part) :: chunks.map (frameBytes channel middle)).flatten ++
            frameBytes channel last rest)) := by
  have hindex : encoder.maxFrameBodySize - first.length ≤ payload.length := by omega
  obtain ⟨chunks, rest, hpayload, hchunks, hrest, hrun⟩ := @FrameEncoder.middleFrames_eq encoder
    channel middle (encoder.maxFrameBodySize - middle.length) (by omega) (by omega)
    (payload.drop (encoder.maxFrameBodySize - first.length))
  refine ⟨payload.take (encoder.maxFrameBodySize - first.length), chunks, rest, ?_, ?_, ?_, ?_, ?_⟩
  · rw [hpayload, List.take_append_drop]
  · rw [List.length_take, Nat.min_eq_left hindex]
    omega
  · intro chunk hmem
    rw [hchunks chunk hmem]
    omega
  · omega
  · intro fuel hfuel
    have hle : first.length ≤ encoder.maxFrameBodySize := hroom.le
    have hle' : middle.length ≤ encoder.maxFrameBodySize := hmiddle_first.trans hle
    rw [FrameEncoder.encodeTransfer, hbuf, Except.ok_bind, if_pos hsplit,
      FrameEncoder.splitTransfer]
    change (toVec transfer.firstPart.toSer >>= _) = _
    rw [hfirst, Except.ok_bind, checkedSub, if_pos hle, Except.ok_bind,
      splitTo, if_pos hindex, Except.ok_bind]
    change (toVec transfer.middlePart.toSer >>= _) = _
    rw [hmiddle, Except.ok_bind, checkedSub, if_pos hle', Except.ok_bind, hrun _ _ hfuel,
      Except.ok_bind, FrameEncoder.lastFrame]
    change (toVec transfer.lastPart.toSer >>= _) = _
    rw [hlast]
    simp only [Except.ok_bind, pure, Except.pure, FrameEncoder.writeFrame, frameBytes, List.nil_append,
      List.flatten_cons, List.append_assoc]

/-- Some delivery state is read from what the state is encoded to, and exactly that much. -/
def DeliveryState.IsRead (state : DeliveryState) : Prop :=
  ∃ read, RoundTrips .none state.toSer De.deliveryState read

theorem DeliveryState.Codable.isRead {state : DeliveryState} (h : state.Codable) : state.IsRead :=
  ⟨state, DeliveryState.roundTrips h⟩

theorem SentAsSplit.of_isRead {maxFrameSize : Nat} {transfer : Transfer}
    (hread : ∀ state, transfer.state = some state → state.IsRead)
    (hroom : transfer.LeavesRoom maxFrameSize) (channel : UInt16) (payload : Payload) :
    SentAsSplit maxFrameSize channel transfer payload := by
  obtain ⟨encoder, first, hnew, hfirst, hlt⟩ := hroom
  have hsize := FrameEncoder.new_eq_ok hnew
  obtain ⟨read, hstate⟩ : ∃ read : DeliveryState → DeliveryState, ∀ state,
      transfer.state = some state → RoundTrips .none state.toSer De.deliveryState (read state) := by
    cases hs : transfer.state with
    | none => exact ⟨id, by simp⟩
    | some state =>
        obtain ⟨read, hread⟩ := hread state hs
        exact ⟨fun _ => read, by simpa using hread⟩
  have hdecode {t : Transfer} (ht : t.state = transfer.state) {buf : Bytes}
      (hbuf : toVec t.toSer = .ok buf) (payload : Payload) :
      FrameDecoder.decode (frameBytes channel buf payload) =
        .ok ⟨channel, .transfer (t.readAs read) payload⟩ :=
    FrameDecoder.decode_transfer (Transfer.roundTrips_map read (ht ▸ hstate)) hbuf channel payload
  have hstart {fuel : Nat} {full : List Bytes} {last : Bytes}
      (hencode : encoder.encodeTransfer fuel [] channel transfer payload =
        .ok (some (full.flatten ++ last)))
      (hfull : ∀ frame ∈ full, frame.length = maxFrameSize) (hlast : last ≠ [])
      (hlength : last.length ≤ maxFrameSize) (hfuel : full.length < fuel) :
      startSend maxFrameSize fuel ⟨channel, .transfer transfer payload⟩ =
        .ok (some (full ++ [last])) := by
    simp only [startSend, hnew, Except.ok_bind, FrameEncoder.encode, hencode, Option.bind_some,
      cutFrames_flatten hfull hlast hlength hfuel]
    rfl
  have hne (buf : Bytes) (payload : Payload) : frameBytes channel buf payload ≠ [] := by
    apply List.ne_nil_of_length_pos
    rw [length_frameBytes]
    omega
  obtain ⟨buf, hbuf, hle⟩ := Transfer.toVec_of_trims transfer.trims_firstPart hfirst
  by_cases hsplit : encoder.maxFrameBodySize < buf.length + payload.length
  · obtain ⟨middle, hmiddle, hmiddle_le⟩ := Transfer.toVec_of_trims transfer.middlePart_trims hfirst
    obtain ⟨last, hlast, hlast_le⟩ := Transfer.toVec_of_trims transfer.lastPart_trims hmiddle
    obtain ⟨part, chunks, rest, hpayload, hpart, hchunks, hrest, hrun⟩ :=
      encodeTransfer_of_not_fits hbuf hfirst hmiddle hlast hlt hle hmiddle_le hlast_le hsplit channel
    have hfull : ∀ frame ∈ frameBytes channel first part :: chunks.map (frameBytes channel middle),
        frame.length = maxFrameSize := by
      intro frame hmem
      rcases List.mem_cons.mp hmem with rfl | hmem
      · rw [length_frameBytes]
        omega
      · obtain ⟨chunk, hchunk, rfl⟩ := List.mem_map.mp hmem
        have hlength := hchunks chunk hchunk
        rw [length_frameBytes]
        omega
    have hlast_length : (frameBytes channel last rest).length ≤ maxFrameSize := by
      rw [length_frameBytes]
      omega
    have hfuel : (frameBytes channel first part :: chunks.map (frameBytes channel middle)).length <
        chunks.length + 2 := by
      rw [List.length_cons, List.length_map]
      omega
    have hsend := hstart (hrun (chunks.length + 2) (by omega)) hfull (hne last rest) hlast_length hfuel
    have hfirst_read := hdecode (t := transfer.firstPart) rfl hfirst part
    have hmiddle_read := hdecode (t := transfer.middlePart) rfl hmiddle
    have hlast_read := hdecode (t := transfer.lastPart) rfl hlast rest
    refine ⟨_, _, (transfer.firstPart.readAs read, part) ::
      chunks.map (fun chunk => (transfer.middlePart.readAs read, chunk)) ++
        [(transfer.lastPart.readAs read, rest)], hsend, ?_, ?_, ?_⟩
    · intro piece hmem
      rcases List.mem_append.mp hmem with hmem | hmem
      · exact (hfull piece hmem).le
      · rw [List.mem_singleton.mp hmem]
        exact hlast_length
    · simp only [List.map_append, List.map_cons, List.map_map, List.map_nil, hfirst_read, hlast_read,
        Function.comp_def, hmiddle_read]
    · exact isSplit_parts read hpayload
  · have hfits := Nat.not_lt.mp hsplit
    have hlength : (frameBytes channel buf payload).length ≤ maxFrameSize := by
      rw [length_frameBytes]
      omega
    have hsend := @hstart 1 [] (frameBytes channel buf payload)
      (encodeTransfer_of_fits hbuf hfits 1 channel) (by simp) (hne buf payload) hlength Nat.one_pos
    refine ⟨1, _, [(transfer.readAs read, payload)], hsend, ?_, ?_, ?_⟩
    · intro piece hmem
      rw [List.mem_singleton.mp hmem]
      exact hlength
    · rw [List.nil_append, List.map_singleton, List.map_singleton, hdecode rfl hbuf]
    · exact
        { payload := by simp
          more := ⟨[], _, rfl, by simp, rfl⟩
          delivery := ⟨_, [], rfl, rfl, rfl, rfl, by simp⟩ }

section Witnesses

/-- A transfer with everything that only its first frame carries. -/
private def cutTransfer (state : DeliveryState) : Transfer where
  handle := 0
  deliveryId := some 1
  deliveryTag := some [1]
  messageFormat := some 0
  settled := some false
  more := false
  rcvSettleMode := none
  state := some state
  resume := false
  aborted := false
  batchable := false

/-- Two hundred bytes in frames of sixty-four. -/
theorem accepted_sentAsSplit :
    SentAsSplit 64 7 (cutTransfer .accepted) (List.replicate 200 0) := by
  have hroom : (cutTransfer .accepted).LeavesRoom 64 :=
    ⟨⟨60⟩, [0, 83, 20, 192, 15, 8, 67, 82, 1, 160, 1, 1, 67, 66, 65, 64, 0, 83, 36, 69], rfl,
      by decide +kernel, by decide⟩
  refine SentAsSplit.of_isRead ?_ hroom 7 (List.replicate 200 0)
  intro state hstate
  cases hstate
  exact DeliveryState.Codable.isRead trivial

/-- A state with an array of strings that are not ASCII. -/
private def unreadState : DeliveryState :=
  .modified ⟨none, none, some [(⟨"x-opt-name"⟩, .array [.string "é"])]⟩

private def unreadBytes (more : UInt8) : Bytes :=
  [0, 83, 20, 192, 44, 8, 67, 82, 1, 160, 1, 1, 67, 66, more, 64, 0, 83, 39, 192, 28, 3, 64, 64, 193, 23, 2,
    163, 10, 120, 45, 111, 112, 116, 45, 110, 97, 109, 101, 224, 8, 1, 177, 0, 0, 0, 1, 195, 169]

/-- The array announces a byte too few for its string, so that the frame is not decoded. -/
theorem unread_state_not_sentAsSplit : ¬∀ maxFrameSize channel transfer payload,
    transfer.LeavesRoom maxFrameSize → SentAsSplit maxFrameSize channel transfer payload := by
  intro hall
  have hroom : (cutTransfer unreadState).LeavesRoom 512 :=
    ⟨⟨508⟩, unreadBytes 65, rfl, by decide +kernel, by decide⟩
  have hbuf : toVec (cutTransfer unreadState).toSer = .ok (unreadBytes 64) := by decide +kernel
  obtain ⟨fuel, pieces, parts, hsend, -, hdecode, -⟩ := hall 512 0 (cutTransfer unreadState) [1] hroom
  -- the transfer is one frame, whatever the fuel
  have hencode := @encodeTransfer_of_fits ⟨508⟩ _ _ hbuf [1] (by decide) fuel 0
  have hnew : FrameEncoder.new 512 = .ok ⟨508⟩ := rfl
  simp only [startSend, hnew, Except.ok_bind, FrameEncoder.encode, hencode, Option.bind_some,
    Except.pure_eq_ok] at hsend
  cases fuel with
  | zero => cases hsend
  | succ fuel =>
      obtain rfl : [frameBytes 0 (unreadBytes 64) [1]] = pieces := Option.some.inj hsend
      cases parts with
      | nil => cases hdecode
      | cons part parts =>
          have hread := (List.cons.inj hdecode).1
          have hfails : (FrameDecoder.decode (frameBytes 0 (unreadBytes 64) [1])).toOption.isSome = false := by
            decide +kernel
          rw [hread] at hfails
          cases hfails

end Witnesses

end Fe2o3Amqp
