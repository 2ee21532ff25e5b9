import Fe2o3Amqp.Types.PerformativeForms

/-!
# A frame on its own

What is decoded from a frame that the encoder has written in one piece, and which frames are written in
one piece at all.  Only transfers are split by the encoder; any other frame that is too long is cut by
the transport in the middle.
-/

namespace Fe2o3Amqp

theorem Performative.toFrameBody_inj {performative performative' : Performative} {payload payload' : Payload}
    (h : performative.toFrameBody payload = performative'.toFrameBody payload') :
    performative = performative' := by
  cases performative <;> cases performative' <;> cases h <;> rfl

/-- The codec puts the length before the frame. -/
def lengthDelimited (frame : Bytes) : Bytes := BigEndian.encode 4 (frame.length + 4) ++ frame

/-! ## Transfers that fit -/

/-- The transfer and its payload are read back from the frame that they are written in. -/
def ReadBackFromFrame (encoder : FrameEncoder) (channel : UInt16) (transfer : Transfer)
    (payload : Payload) : Prop :=
  ∃ bytes, (∀ fuel, encoder.encode fuel ⟨channel, .transfer transfer payload⟩ [] = .ok (some bytes)) ∧
    FrameDecoder.decode bytes = .ok ⟨channel, .transfer transfer payload⟩

/-- The performative and the payload are not longer than the body of a frame. -/
def FitInFrame (encoder : FrameEncoder) (transfer : Transfer) (payload : Payload) : Prop :=
  ∃ buf, toVec transfer.toSer = .ok buf ∧ buf.length + payload.length ≤ encoder.maxFrameBodySize

theorem readBackFromFrame_of_roundTrips {encoder : FrameEncoder} {transfer : Transfer} {payload : Payload}
    (hfits : FitInFrame encoder transfer payload)
    (hread : CompositeRoundTrips 0x14 transfer.toSer De.transfer transfer) (channel : UInt16) :
    ReadBackFromFrame encoder channel transfer payload := by
  obtain ⟨buf, hbuf, hle⟩ := hfits
  exact ⟨_, fun fuel => encodeTransfer_of_fits hbuf hle fuel channel,
    FrameDecoder.decode_transfer hread hbuf channel payload⟩

/-- A transfer whose state is read back is, with whatever payload. -/
theorem transfer_readBackFromFrame {encoder : FrameEncoder} {transfer : Transfer} {payload : Payload}
    (hfits : FitInFrame encoder transfer payload)
    (hstate : ∀ state, transfer.state = some state →
      RoundTrips .none state.toSer De.deliveryState state)
    (channel : UInt16) : ReadBackFromFrame encoder channel transfer payload := by
  have hsame : transfer.readAs id = transfer := by simp [Transfer.readAs]
  have hread := Transfer.roundTrips_map id hstate
  rw [hsame] at hread
  exact readBackFromFrame_of_roundTrips hfits hread channel

/-- So is one whose state has no arrays, no more entries than the decoder takes and no condition that is
spelled like another. -/
theorem codable_readBackFromFrame {encoder : FrameEncoder} {transfer : Transfer} {payload : Payload}
    (hfits : FitInFrame encoder transfer payload) (hstate : transfer.Codable) (channel : UInt16) :
    ReadBackFromFrame encoder channel transfer payload :=
  readBackFromFrame_of_roundTrips hfits (Transfer.roundTrips hstate) channel

/-! ## Frames without payload -/

/-- What the length-delimited encoder takes, `set_encoder_max_frame_size` with the size that the other
side has announced. -/
def encoderMaxFrameLength (remoteMaxFrameSize : Nat) : Nat := max 512 remoteMaxFrameSize - 4

namespace FrameBody

def performative : FrameBody → Option Performative
  | .open v => some (.open v)
  | .begin v => some (.begin v)
  | .attach v => some (.attach v)
  | .flow v => some (.flow v)
  | .transfer v _ => some (.transfer v)
  | .disposition v => some (.disposition v)
  | .detach v => some (.detach v)
  | .end v => some (.end v)
  | .close v => some (.close v)
  | .empty => none

def payload : FrameBody → Payload
  | .transfer _ payload => payload
  | _ => []

theorem eq_toFrameBody {body : FrameBody} (h : body.payload = []) {performative : Performative}
    (hperformative : body.performative = some performative) : body = performative.toFrameBody [] := by
  cases body <;> cases hperformative
  case transfer v payload =>
    obtain rfl : payload = [] := h
    rfl
  all_goals rfl

theorem eq_empty {body : FrameBody} (h : body.performative = none) : body = .empty := by
  cases body <;> first | rfl | cases h

end FrameBody

/-- The frame is written as one length-delimited frame, no longer than the other side takes, that is
decoded to it; or it is refused. -/
def SentWhole (remoteMaxFrameSize : Nat) (item : Frame) : Prop :=
  (∃ fuel piece, startSend (encoderMaxFrameLength remoteMaxFrameSize) fuel item = .ok (some [piece]) ∧
      (lengthDelimited piece).length ≤ max 512 remoteMaxFrameSize ∧
      FrameDecoder.decode piece = .ok item) ∨
    ∃ fuel e, startSend (encoderMaxFrameLength remoteMaxFrameSize) fuel item = .error (.err e)

namespace Performative

/-- The decoder reads the performative from its encoding, and leaves nothing of a transfer, where it
would be payload. -/
def IsReadFrom (buf : Bytes) (performative : Performative) : Prop :=
  ∃ rest, ReadsPerformative buf performative rest ∧ ∀ v, performative = .transfer v → rest = []

/-- The encoder splits a transfer that is too long, and the flag for more is what the serializer refuses
then. -/
def RefusedWithMore : Performative → Prop
  | .transfer v => ∃ e, toVec v.firstPart.toSer = .error (.err e)
  | _ => False

/-- The performative is refused by the serializer, or it is not too long for one frame. -/
def FitsOneFrame (remoteMaxFrameSize : Nat) (performative : Performative) : Prop :=
  (∃ e, toVec performative.toSer = .error (.err e)) ∨
    ∃ buf, toVec performative.toSer = .ok buf ∧
      (8 + buf.length ≤ max 512 remoteMaxFrameSize ∨ performative.RefusedWithMore)

/-- The performative is refused by the serializer, or it fits, its values survive the codec and none of
its fields marked `multiple` is an empty array. -/
def Sendable (remoteMaxFrameSize : Nat) (performative : Performative) : Prop :=
  (∃ e, toVec performative.toSer = .error (.err e)) ∨
    ∃ buf, toVec performative.toSer = .ok buf ∧
      if 8 + buf.length ≤ max 512 remoteMaxFrameSize then
        performative.Codable ∧ performative.readBack = performative
      else performative.RefusedWithMore

/-- The encoding of a performative starts with its descriptor. -/
theorem toVec_ne_nil {performative : Performative} {buf : Bytes}
    (h : toVec performative.toSer = .ok buf) : buf ≠ [] := by
  have hcomposite (code : UInt64) (field : CompositeField) (fields : List CompositeField)
      (h : toVec (compositeToSer code (field :: fields)) = .ok buf) : buf ≠ [] := by
    rw [toVec_composite] at h
    obtain ⟨pieces, -, hlist⟩ := Except.bind_eq_ok.mp h
    split at hlist
    · cases hlist
      simp [Wire.descriptor]
    · cases hlist
  cases performative <;> exact hcomposite _ _ _ h

theorem toFrameBody_eq_iff {performative performative' : Performative} {rest : Payload} :
    performative'.toFrameBody rest = performative.toFrameBody [] ↔
      performative' = performative ∧ ∀ v, performative = .transfer v → rest = [] := by
  constructor
  · intro h
    obtain rfl := toFrameBody_inj h
    refine ⟨rfl, ?_⟩
    rintro v rfl
    exact (FrameBody.transfer.inj h).2
  · rintro ⟨rfl, hrest⟩
    cases performative' with
    | transfer v => rw [hrest v rfl]
    | _ => rfl

theorem decode_iff {performative : Performative} {buf : Bytes}
    (hbuf : toVec performative.toSer = .ok buf) (channel : UInt16) :
    FrameDecoder.decode (frameBytes channel buf []) = .ok ⟨channel, performative.toFrameBody []⟩ ↔
      performative.IsReadFrom buf := by
  have hbody : FrameDecoder.decode (frameBytes channel buf []) =
        .ok ⟨channel, performative.toFrameBody []⟩ ↔
      FrameDecoder.decodeBody buf = .ok (performative.toFrameBody []) := by
    rw [frameBytes, List.append_nil, FrameDecoder.decode_header]
    cases FrameDecoder.decodeBody buf <;> simp [Except.map]
  rw [hbody, FrameDecoder.decodeBody_eq_ok (toVec_ne_nil hbuf)]
  constructor
  · rintro ⟨read, rest, hreads, heq⟩
    obtain ⟨rfl, hrest⟩ := toFrameBody_eq_iff.mp heq
    exact ⟨rest, hreads, hrest⟩
  · rintro ⟨rest, hreads, hrest⟩
    exact ⟨performative, rest, hreads, toFrameBody_eq_iff.mpr ⟨rfl, hrest⟩⟩

/-- What is written is read with its empty fields marked `multiple` absent, and nothing is left. -/
theorem isReadFrom_iff {performative : Performative} (h : performative.Codable) {buf : Bytes}
    (hbuf : toVec performative.toSer = .ok buf) :
    performative.IsReadFrom buf ↔ performative.readBack = performative := by
  have hread : De.performative (Deserializer.new (SliceReader.new buf)) =
      .ok performative.readBack ((Deserializer.new (SliceReader.new buf)).at []) := by
    have hdecodes := (encodedAs h hbuf).decodes (Deserializer.new (SliceReader.new buf)) [] rfl rfl rfl
    rw [List.append_nil] at hdecodes
    exact hdecodes
  constructor
  · rintro ⟨rest, ⟨de, hreads, -⟩, -⟩
    exact (EStateM.Result.ok.inj (hread.symm.trans hreads)).1
  · intro hsame
    rw [hsame] at hread
    exact ⟨[], ⟨_, hread, rfl⟩, fun _ _ => rfl⟩

end Performative

theorem encoder_new (remoteMaxFrameSize : Nat) :
    FrameEncoder.new (encoderMaxFrameLength remoteMaxFrameSize) =
      .ok ⟨encoderMaxFrameLength remoteMaxFrameSize - 4⟩ := by
  have hle : 4 ≤ encoderMaxFrameLength remoteMaxFrameSize := by
    simp only [encoderMaxFrameLength]
    omega
  rw [FrameEncoder.new, checkedSub, if_pos hle]
  rfl

section

variable {remoteMaxFrameSize fuel : Nat} {item : Frame}

theorem startSend_of_written {bytes : Bytes}
    (h : (FrameEncoder.mk (encoderMaxFrameLength remoteMaxFrameSize - 4)).encode fuel item [] =
      .ok (some bytes)) :
    startSend (encoderMaxFrameLength remoteMaxFrameSize) fuel item =
      .ok (cutFrames (encoderMaxFrameLength remoteMaxFrameSize) fuel bytes) := by
  simp only [startSend, encoder_new, Except.ok_bind, h, Option.bind_some]
  rfl

theorem startSend_of_failed {failure : Failure}
    (h : (FrameEncoder.mk (encoderMaxFrameLength remoteMaxFrameSize - 4)).encode fuel item [] =
      .error failure) :
    startSend (encoderMaxFrameLength remoteMaxFrameSize) fuel item = .error failure := by
  simp only [startSend, encoder_new, Except.ok_bind, h, Except.error_bind]

/-- What is too long for one frame is cut into several. -/
theorem cutFrames_ne_singleton {maxFrameSize : Nat} {bytes piece : Bytes}
    (h : maxFrameSize < bytes.length) : cutFrames maxFrameSize fuel bytes ≠ some [piece] := by
  intro hcut
  cases fuel with
  | zero => cases hcut
  | succ fuel =>
      rw [cutFrames, if_pos h] at hcut
      obtain ⟨pieces, hpieces, hcons⟩ := Option.map_eq_some_iff.mp hcut
      obtain rfl : pieces = [] := (List.cons.inj hcons).2
      cases fuel with
      | zero => cases hpieces
      | succ fuel =>
          rw [cutFrames] at hpieces
          split at hpieces
          · obtain ⟨_, -, hcons⟩ := Option.map_eq_some_iff.mp hpieces
            cases hcons
          · cases hpieces

/-- Nothing but one frame is written. -/
theorem sentWhole_of_written {bytes : Bytes}
    (h : ∀ fuel, (FrameEncoder.mk (encoderMaxFrameLength remoteMaxFrameSize - 4)).encode fuel item [] =
      .ok (some bytes)) :
    SentWhole remoteMaxFrameSize item ↔
      bytes.length ≤ encoderMaxFrameLength remoteMaxFrameSize ∧ FrameDecoder.decode bytes = .ok item := by
  constructor
  · rintro (⟨fuel, piece, hsend, -, hdecode⟩ | ⟨fuel, e, hsend⟩)
    · rw [startSend_of_written (h fuel)] at hsend
      have hcut := Except.ok.inj hsend
      have hle : bytes.length ≤ encoderMaxFrameLength remoteMaxFrameSize :=
        Nat.not_lt.mp fun hlong => cutFrames_ne_singleton hlong hcut
      cases fuel with
      | zero => cases hcut
      | succ fuel =>
          rw [cutFrames, if_neg (Nat.not_lt.mpr hle)] at hcut
          cases hcut
          exact ⟨hle, hdecode⟩
    · rw [startSend_of_written (h fuel)] at hsend
      cases hsend
  · rintro ⟨hle, hdecode⟩
    refine .inl ⟨1, bytes, ?_, ?_, hdecode⟩
    · rw [startSend_of_written (h 1), cutFrames, if_neg (Nat.not_lt.mpr hle)]
    · simp only [encoderMaxFrameLength] at hle
      simp only [lengthDelimited, List.length_append, BigEndian.length_encode]
      omega

theorem sentWhole_of_failed {failure : Failure}
    (h : ∀ fuel, (FrameEncoder.mk (encoderMaxFrameLength remoteMaxFrameSize - 4)).encode fuel item [] =
      .error failure) :
    SentWhole remoteMaxFrameSize item ↔ ∃ e, failure = .err e := by
  constructor
  · rintro (⟨fuel, piece, hsend, -⟩ | ⟨fuel, e, hsend⟩)
    · rw [startSend_of_failed (h fuel)] at hsend
      cases hsend
    · rw [startSend_of_failed (h fuel)] at hsend
      exact ⟨e, Except.error.inj hsend⟩
  · rintro ⟨e, rfl⟩
    exact .inr ⟨0, e, startSend_of_failed (h 0)⟩

end

/-- The performative of a frame is encoded, and a transfer is split if it does not fit. -/
theorem encode_toFrameBody (encoder : FrameEncoder) (fuel : Nat) (channel : UInt16)
    {performative : Performative} (h : ∀ v, performative ≠ .transfer v) :
    encoder.encode fuel ⟨channel, performative.toFrameBody []⟩ [] =
      FrameEncoder.encodePerformative [] channel performative.toSer := by
  cases performative with
  | transfer v => exact absurd rfl (h v)
  | _ => rfl

/-- What the serializer refuses is not written. -/
theorem encode_of_refused (encoder : FrameEncoder) (fuel : Nat) (channel : UInt16)
    {performative : Performative} {failure : Failure} (h : toVec performative.toSer = .error failure) :
    encoder.encode fuel ⟨channel, performative.toFrameBody []⟩ [] = .error failure := by
  by_cases htransfer : ∃ v, performative = .transfer v
  · obtain ⟨v, rfl⟩ := htransfer
    have hv : toVec v.toSer = .error failure := h
    simp only [Performative.toFrameBody, FrameEncoder.encode, FrameEncoder.encodeTransfer, hv,
      Except.error_bind]
  · rw [encode_toFrameBody encoder fuel channel fun v hv => htransfer ⟨v, hv⟩,
      FrameEncoder.encodePerformative, h, Except.error_bind]

/-- What fits is written, a transfer as any other performative. -/
theorem encode_of_fits {encoder : FrameEncoder} (fuel : Nat) (channel : UInt16)
    {performative : Performative} {buf : Bytes} (h : toVec performative.toSer = .ok buf)
    (hfits : buf.length ≤ encoder.maxFrameBodySize) :
    encoder.encode fuel ⟨channel, performative.toFrameBody []⟩ [] =
      .ok (some (frameBytes channel buf [])) := by
  by_cases htransfer : ∃ v, performative = .transfer v
  · obtain ⟨v, rfl⟩ := htransfer
    exact encodeTransfer_of_fits h (by simpa using hfits) fuel channel
  · rw [encode_toFrameBody encoder fuel channel fun v hv => htransfer ⟨v, hv⟩,
      FrameEncoder.encodePerformative, h]
    rfl

/-- A transfer whose performative alone is too long is never written. -/
theorem encode_transfer_of_not_fits {encoder : FrameEncoder} (channel : UInt16) {v : Transfer}
    {buf : Bytes} (h : toVec v.toSer = .ok buf) (hlong : encoder.maxFrameBodySize < buf.length) :
    ∃ failure, (∀ fuel, encoder.encode fuel ⟨channel, .transfer v []⟩ [] = .error failure) ∧
      ((∃ e, failure = .err e) ↔ ∃ e, toVec v.firstPart.toSer = .error (.err e)) := by
  have hsplit (fuel : Nat) : encoder.encode fuel ⟨channel, .transfer v []⟩ [] =
      encoder.splitTransfer fuel [] channel v [] := by
    simp only [FrameEncoder.encode, FrameEncoder.encodeTransfer, h, Except.ok_bind, List.length_nil,
      Nat.add_zero, gt_iff_lt, if_pos hlong]
  cases hfirst : toVec v.firstPart.toSer with
  | error failure =>
      refine ⟨failure, fun fuel => ?_, by simp⟩
      rw [hsplit, FrameEncoder.splitTransfer]
      change (toVec v.firstPart.toSer >>= _) = _
      rw [hfirst, Except.error_bind]
  | ok first =>
      -- the flag makes it no shorter, so that the room for payload underflows
      obtain ⟨buf', hbuf', hle⟩ := Transfer.toVec_of_trims v.trims_firstPart hfirst
      obtain rfl : buf = buf' := Except.ok.inj (h.symm.trans hbuf')
      refine ⟨.panic, fun fuel => ?_, by simp⟩
      rw [hsplit, FrameEncoder.splitTransfer]
      change (toVec v.firstPart.toSer >>= _) = _
      rw [hfirst, Except.ok_bind, checkedSub, if_neg (by omega), Except.error_bind]

theorem sentWhole_performative_iff (remoteMaxFrameSize : Nat) (channel : UInt16)
    (performative : Performative) :
    SentWhole remoteMaxFrameSize ⟨channel, performative.toFrameBody []⟩ ↔
      (∃ e, toVec performative.toSer = .error (.err e)) ∨
        ∃ buf, toVec performative.toSer = .ok buf ∧
          if 8 + buf.length ≤ max 512 remoteMaxFrameSize then performative.IsReadFrom buf
          else performative.RefusedWithMore := by
  cases hbuf : toVec performative.toSer with
  | error failure =>
      rw [sentWhole_of_failed fun fuel => encode_of_refused _ fuel channel hbuf]
      simp
  | ok buf =>
      have hlimit : encoderMaxFrameLength remoteMaxFrameSize - 4 = max 512 remoteMaxFrameSize - 8 := by
        simp only [encoderMaxFrameLength]
        omega
      simp only [reduceCtorEq, exists_false, false_or, Except.ok.injEq, exists_eq_left']
      by_cases hfits : 8 + buf.length ≤ max 512 remoteMaxFrameSize
      · rw [if_pos hfits, ← Performative.decode_iff hbuf channel,
          sentWhole_of_written fun fuel => encode_of_fits fuel channel hbuf (by simp only; omega)]
        have hle : (frameBytes channel buf []).length ≤ encoderMaxFrameLength remoteMaxFrameSize := by
          simp only [length_frameBytes, List.length_nil, encoderMaxFrameLength]
          omega
        exact and_iff_right hle
      · rw [if_neg hfits]
        by_cases htransfer : ∃ v, performative = .transfer v
        · obtain ⟨v, rfl⟩ := htransfer
          obtain ⟨failure, hencode, hfailure⟩ := @encode_transfer_of_not_fits
            ⟨encoderMaxFrameLength remoteMaxFrameSize - 4⟩ channel v buf hbuf (by simp only; omega)
          exact (sentWhole_of_failed hencode).trans hfailure
        · have hrefused : ¬performative.RefusedWithMore := by
            intro hrefused
            cases performative with
            | transfer v => exact htransfer ⟨v, rfl⟩
            | _ => exact hrefused
          have hwritten (fuel : Nat) :
              (FrameEncoder.mk (encoderMaxFrameLength remoteMaxFrameSize - 4)).encode fuel
                ⟨channel, performative.toFrameBody []⟩ [] = .ok (some (frameBytes channel buf [])) := by
            rw [encode_toFrameBody _ fuel channel fun v hv => htransfer ⟨v, hv⟩,
              FrameEncoder.encodePerformative, hbuf]
            rfl
          rw [sentWhole_of_written hwritten]
          simp only [hrefused, iff_false, not_and]
          intro hle
          simp only [length_frameBytes, List.length_nil, encoderMaxFrameLength] at hle
          omega

theorem sentWhole_empty (remoteMaxFrameSize : Nat) (channel : UInt16) :
    SentWhole remoteMaxFrameSize ⟨channel, .empty⟩ := by
  have hwritten (fuel : Nat) :
      (FrameEncoder.mk (encoderMaxFrameLength remoteMaxFrameSize - 4)).encode fuel
        ⟨channel, .empty⟩ [] = .ok (some (frameBytes channel [] [])) := rfl
  refine (sentWhole_of_written hwritten).mpr ⟨?_, ?_⟩
  · simp only [length_frameBytes, List.length_nil, encoderMaxFrameLength]
    omega
  · rw [frameBytes, List.append_nil, FrameDecoder.decode_header]
    rfl

namespace Performative

variable {remoteMaxFrameSize : Nat} {performative : Performative}

theorem fitsOneFrame_of_sentWhole {channel : UInt16}
    (h : SentWhole remoteMaxFrameSize ⟨channel, performative.toFrameBody []⟩) :
    performative.FitsOneFrame remoteMaxFrameSize := by
  refine ((sentWhole_performative_iff remoteMaxFrameSize channel performative).mp h).imp_right ?_
  rintro ⟨buf, hbuf, hsent⟩
  refine ⟨buf, hbuf, ?_⟩
  split_ifs at hsent with hfits
  · exact .inl hfits
  · exact .inr hsent

theorem sentWhole_of_sendable (channel : UInt16) (h : performative.Sendable remoteMaxFrameSize) :
    SentWhole remoteMaxFrameSize ⟨channel, performative.toFrameBody []⟩ := by
  refine (sentWhole_performative_iff remoteMaxFrameSize channel performative).mpr (h.imp_right ?_)
  rintro ⟨buf, hbuf, hsendable⟩
  refine ⟨buf, hbuf, ?_⟩
  split_ifs at hsendable ⊢
  · exact (isReadFrom_iff hsendable.1 hbuf).mpr hsendable.2
  · exact hsendable

theorem sendable_of_sentWhole {channel : UInt16} (hcodable : performative.Codable)
    (h : SentWhole remoteMaxFrameSize ⟨channel, performative.toFrameBody []⟩) :
    performative.Sendable remoteMaxFrameSize := by
  refine ((sentWhole_performative_iff remoteMaxFrameSize channel performative).mp h).imp_right ?_
  rintro ⟨buf, hbuf, hsent⟩
  refine ⟨buf, hbuf, ?_⟩
  split_ifs at hsent ⊢
  · exact ⟨hcodable, (isReadFrom_iff hcodable hbuf).mp hsent⟩
  · exact hsent

end Performative

section Witnesses

private def stateTransfer (state : Option DeliveryState) : Transfer where
  handle := 0
  deliveryId := none
  deliveryTag := none
  messageFormat := none
  settled := none
  more := false
  rcvSettleMode := none
  state
  resume := false
  aborted := false
  batchable := false

/-- The payload looks like the value behind the performative. -/
theorem payload_like_value_readBackFromFrame :
    ReadBackFromFrame ⟨508⟩ 3 (stateTransfer (some .released)) [0, 83, 36, 69] := by
  have hfits : FitInFrame ⟨508⟩ (stateTransfer (some .released)) [0, 83, 36, 69] :=
    ⟨[0, 83, 20, 192, 12, 8, 67, 64, 64, 64, 64, 64, 64, 0, 83, 38, 69], by decide +kernel, by decide⟩
  refine transfer_readBackFromFrame hfits ?_ 3
  intro state hstate
  cases hstate
  exact DeliveryState.roundTrips trivial

private def arrayState : DeliveryState := .modified ⟨none, none, some [(⟨"a"⟩, .array [.string "é"])]⟩

private def arrayStateBytes : Bytes :=
  [0, 83, 20, 192, 32, 8, 67, 64, 64, 64, 64, 64, 64, 0, 83, 39, 192, 19, 3, 64, 64, 193, 14, 2, 163, 1, 97,
    224, 8, 1, 177, 0, 0, 0, 1, 195, 169]

/-- An array whose string is not ASCII announces a byte too few, so that the state is not decoded. -/
theorem array_state_not_readBackFromFrame : ¬∀ encoder channel transfer payload,
    FitInFrame encoder transfer payload → ReadBackFromFrame encoder channel transfer payload := by
  intro hall
  have hbuf : toVec (stateTransfer (some arrayState)).toSer = .ok arrayStateBytes := by decide +kernel
  obtain ⟨bytes, hencode, hdecode⟩ := hall ⟨508⟩ 0 _ [] ⟨_, hbuf, by decide⟩
  have hwritten := @encodeTransfer_of_fits ⟨508⟩ _ _ hbuf [] (by decide) 0 0
  have hfails : (FrameDecoder.decode (frameBytes 0 arrayStateBytes [])).toOption.isSome = false := by
    decide +kernel
  obtain rfl : frameBytes 0 arrayStateBytes [] = bytes :=
    Option.some.inj (Except.ok.inj (hwritten.symm.trans (hencode 0)))
  rw [hdecode] at hfails
  cases hfails

private def longError : Performative :=
  .close ⟨some ⟨.amqpError .internalError, some (String.ofList (List.replicate 600 'a')), none⟩⟩

end Witnesses

end Fe2o3Amqp
