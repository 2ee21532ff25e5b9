import Fe2o3Amqp.Frames.OneFrame
import Fe2o3Amqp.Link.Splitting
import Fe2o3Amqp.Serde.SizesAgree
import Fe2o3Amqp.Session.SendOrder

/-!
# The frames of a split delivery fit

The link measures the performative with the largest delivery-id and the flag for more, and the frames
that it sends differ from what was measured only by fields that are shorter or left out.  So each of
them is one frame on the wire, if the measure is not below the encoding.
-/

namespace Fe2o3Amqp

/-! ## The frames of a split -/

/-- The frame that hands the transfer to the session. -/
def BufferedTransfer.linkFrame (item : BufferedTransfer) : LinkFrame :=
  if item.isFirst then .firstTransfer ⟨item.inputHandle, item.transfer, item.payload⟩
  else .transferContinuation ⟨item.inputHandle, item.transfer, item.payload⟩

/-- Continuations with all chunks but the last. -/
def continuations (inputHandle : InputHandle) (transfer : Transfer) (chunks : List Payload)
    (last : Payload) : List BufferedTransfer :=
  chunks.map (fun chunk => ⟨inputHandle, { transfer with more := true }, chunk, false⟩) ++
    [⟨inputHandle, { transfer with more := false }, last, false⟩]

namespace TransferSplit

variable {inputHandle : InputHandle} {room : Nat}

theorem framesWithin_eq_continuations (transfer : Transfer) (hroom : 0 < room) (payload : Payload) :
    ∃ (chunks : List Payload) (last : Payload), chunks.flatten ++ last = payload ∧
      (∀ chunk ∈ chunks, chunk.length ≤ room) ∧ last.length ≤ room ∧
      ∀ fuel, chunks.length < fuel → ∀ more,
        framesWithin fuel ⟨inputHandle, { transfer with more }, payload, room, false⟩ =
          some ((continuations inputHandle transfer chunks last).map BufferedTransfer.linkFrame) := by
  induction hlength : payload.length using Nat.strong_induction_on generalizing payload with
  | _ length ih =>
      subst hlength
      by_cases hmore : payload.length > room
      · have hshorter : (payload.drop room).length < payload.length := by
          rw [List.length_drop]
          omega
        obtain ⟨chunks, last, hpayload, hchunks, hlast, hframes⟩ := ih _ hshorter _ rfl
        refine ⟨payload.take room :: chunks, last, ?_, ?_, hlast, ?_⟩
        · rw [List.flatten_cons, List.append_assoc, hpayload, List.take_append_drop]
        · intro chunk hmem
          rcases List.mem_cons.mp hmem with rfl | hmem
          · rw [List.length_take]
            omega
          · exact hchunks chunk hmem
        · intro fuel hfuel more
          obtain ⟨fuel, rfl⟩ := Nat.exists_eq_add_one_of_ne_zero (Nat.ne_zero_of_lt hfuel)
          simp only [framesWithin, next, if_pos hmore, Bool.false_eq_true, if_false]
          rw [hframes fuel (Nat.lt_of_succ_lt_succ hfuel) true]
          rfl
      · refine ⟨[], payload, rfl, by simp, by omega, ?_⟩
        intro fuel hfuel more
        obtain ⟨fuel, rfl⟩ := Nat.exists_eq_add_one_of_ne_zero (Nat.ne_zero_of_lt hfuel)
        simp only [framesWithin, next, if_neg hmore]
        rfl

/-- The first frame and its continuations, or the only frame. -/
theorem framesWithin_eq_first (transfer : Transfer) (hroom : 0 < room) (payload : Payload) :
    ∃ fuel items, framesWithin fuel ⟨inputHandle, transfer, payload, room, true⟩ =
        some (items.map BufferedTransfer.linkFrame) ∧
      ((payload.length ≤ room ∧
          items = [⟨inputHandle, { transfer with more := false }, payload, true⟩]) ∨
        ∃ chunks last, payload.take room ++ (chunks.flatten ++ last) = payload ∧
          room < payload.length ∧ (∀ chunk ∈ chunks, chunk.length ≤ room) ∧ last.length ≤ room ∧
          items = ⟨inputHandle, { transfer with more := true }, payload.take room, true⟩ ::
            continuations inputHandle transfer.clearContinuationFields chunks last) := by
  by_cases hmore : payload.length > room
  · obtain ⟨chunks, last, hpayload, hchunks, hlast, hframes⟩ := @framesWithin_eq_continuations inputHandle
      room transfer.clearContinuationFields hroom (payload.drop room)
    refine ⟨chunks.length + 2, _, ?_, .inr ⟨chunks, last, ?_, hmore, hchunks, hlast, rfl⟩⟩
    · simp only [framesWithin, next, if_pos hmore, if_true]
      have hrest := hframes (chunks.length + 1) (Nat.lt_succ_self _) true
      change Option.map _ (framesWithin (chunks.length + 1) ⟨inputHandle,
        { transfer.clearContinuationFields with more := true }, payload.drop room, room, false⟩) = _
      rw [hrest]
      rfl
    · rw [hpayload, List.take_append_drop]
  · refine ⟨1, [_], ?_, .inl ⟨Nat.not_lt.mp hmore, rfl⟩⟩
    simp only [framesWithin, next, if_neg hmore]
    rfl

/-- The first frame that is handed over is the next one. -/
theorem framesWithin_cons {fuel : Nat} {split : TransferSplit} {frame : LinkFrame}
    {frames : List LinkFrame} (h : framesWithin fuel split = some (frame :: frames)) :
    frame = split.next.1 := by
  cases fuel with
  | zero => cases h
  | succ fuel =>
      simp only [framesWithin] at h
      cases hnext : split.next with
      | mk next rest =>
          rw [hnext] at h
          cases rest with
          | none =>
              cases h
              rfl
          | some rest =>
              obtain ⟨_, -, hcons⟩ := Option.map_eq_some_iff.mp h
              exact (List.cons.inj hcons).1.symm

end TransferSplit

/-! ## What the session and the encoder get -/

/-- The frames are those of one delivery of the payload. -/
structure IsDelivery (transfer : Transfer) (payload : Payload) (items : List BufferedTransfer) : Prop where
  payload : (items.map BufferedTransfer.payload).flatten = payload
  more : ∃ full last, items = full ++ [last] ∧ (∀ item ∈ full, item.transfer.more = true) ∧
    last.transfer.more = false
  delivery : ∃ first rest, items = first :: rest ∧ first.isFirst = true ∧
    first.transfer.deliveryTag = transfer.deliveryTag ∧
    first.transfer.messageFormat = transfer.messageFormat ∧
    ∀ item ∈ rest, item.isFirst = false ∧ item.transfer.deliveryTag = none ∧
      item.transfer.messageFormat = none ∧ item.transfer.deliveryId = none

/-- Whatever the session sends of these frames in a run, each one is a piece of its own on the wire, and
the next outgoing id counts the pieces. -/
def WrittenOnce (maxFrameSize : Nat) (items : List BufferedTransfer) : Prop :=
  ∀ (s : Session) (events : List WindowEvent),
    (∀ item ∈ s.remoteIncomingWindowExhaustedBuffer ++ submittedTransfers events,
      item ∈ items ∧ item.WellFormed) →
    ∃ pieces : List Bytes,
      List.Forall₂ (fun sent piece => ∀ fuel,
          startSend maxFrameSize (fuel + 1) ⟨s.outgoingChannel, .transfer sent.1 sent.2⟩ =
            .ok (some [piece]))
        (transfersOf (Run.run Session.windowStep s events).2) pieces ∧
      (Run.run Session.windowStep s events).1.nextOutgoingId =
        s.nextOutgoingId + UInt32.ofNat pieces.length

/-- The delivery is split into frames of its payload that fit under any delivery-id. -/
def SplitFits (l : SenderLink) (transfer : Transfer) (payload : Payload) : Prop :=
  ∃ items, l.SplitsInto transfer payload (items.map BufferedTransfer.linkFrame) ∧
    IsDelivery transfer payload items ∧
    (∀ item ∈ items, ∀ id,
      FitInFrame ⟨l.maxFrameSize - 4⟩ (item.asSent id) item.payload) ∧
    WrittenOnce l.maxFrameSize items

theorem mem_sentTransfers {id : DeliveryNumber} {items : List BufferedTransfer}
    {sent : Transfer × Payload} (h : sent ∈ sentTransfers id items) :
    ∃ item ∈ items, ∃ id', sent = (item.asSent id', item.payload) := by
  induction items generalizing id with
  | nil => cases h
  | cons item items ih =>
      rcases List.mem_cons.mp h with rfl | hmem
      · exact ⟨item, List.mem_cons_self, id, rfl⟩
      · obtain ⟨item', hitem', hsent⟩ := ih hmem
        exact ⟨item', List.mem_cons_of_mem _ hitem', hsent⟩

/-- A transfer that fits is sent as one piece. -/
theorem startSend_of_fitInFrame {maxFrameSize : Nat} (hmax : 4 ≤ maxFrameSize) {transfer : Transfer}
    {payload : Payload} (h : FitInFrame ⟨maxFrameSize - 4⟩ transfer payload) (channel : UInt16) :
    ∃ piece, ∀ fuel, startSend maxFrameSize (fuel + 1) ⟨channel, .transfer transfer payload⟩ =
      .ok (some [piece]) := by
  obtain ⟨buf, hbuf, hfits⟩ := h
  refine ⟨frameBytes channel buf payload, ?_⟩
  intro fuel
  have hnew : FrameEncoder.new maxFrameSize = .ok ⟨maxFrameSize - 4⟩ := by
    rw [FrameEncoder.new, checkedSub, if_pos hmax]
    rfl
  have hlength : ¬(frameBytes channel buf payload).length > maxFrameSize := by
    rw [length_frameBytes]
    simp only at hfits
    omega
  simp only [startSend, hnew, Except.ok_bind, FrameEncoder.encode, encodeTransfer_of_fits hbuf hfits,
    Option.bind_some, cutFrames, if_neg hlength]
  rfl

/-- Frames that fit are written once. -/
theorem writtenOnce_of_fits {maxFrameSize : Nat} (hmax : 4 ≤ maxFrameSize)
    {items : List BufferedTransfer}
    (h : ∀ item ∈ items, ∀ id, FitInFrame ⟨maxFrameSize - 4⟩ (item.asSent id) item.payload) :
    WrittenOnce maxFrameSize items := by
  intro s events hitems
  obtain ⟨-, emitted, hsplit, hemitted⟩ :=
    windowProgress_run s events fun item hitem => (hitems item hitem).2
  have hpieces : ∀ sent ∈ transfersOf (Run.run Session.windowStep s events).2, ∃ piece, ∀ fuel,
      startSend maxFrameSize (fuel + 1) ⟨s.outgoingChannel, .transfer sent.1 sent.2⟩ =
        .ok (some [piece]) := by
    intro sent hsent
    rw [hemitted.transfers] at hsent
    obtain ⟨item, hitem, id, rfl⟩ := mem_sentTransfers hsent
    have hmem := (hitems item (hsplit ▸ List.mem_append_left _ hitem)).1
    exact startSend_of_fitInFrame hmax (h item hmem id) s.outgoingChannel
  have hlength : (transfersOf (Run.run Session.windowStep s events).2).length = emitted.length := by
    rw [hemitted.transfers, length_sentTransfers]
  choose piece hpiece using hpieces
  refine ⟨(transfersOf (Run.run Session.windowStep s events).2).attach.map
    (fun sent => piece sent.1 sent.2), ?_, ?_⟩
  · rw [List.forall₂_map_right_iff, List.forall₂_iff_get]
    refine ⟨List.length_attach.symm, ?_⟩
    intro i hi hi'
    simp only [List.get_eq_getElem, List.getElem_attach]
    exact hpiece _ _
  · rw [List.length_map, List.length_attach, hlength]
    exact hemitted.nextOutgoingId

/-! ## The frames of a delivery -/

/-- The performative of the first frame with the largest delivery-id. -/
def Transfer.withLargestId (transfer : Transfer) (more : Bool) : Transfer :=
  { transfer with more, deliveryId := some 0xffffffff }

section

variable {inputHandle : InputHandle} {transfer : Transfer} {chunks : List Payload} {part last payload : Payload}

theorem mem_continuations {item : BufferedTransfer}
    (h : item ∈ continuations inputHandle transfer chunks last) :
    ∃ more chunk, (chunk ∈ chunks ∨ chunk = last) ∧
      item = ⟨inputHandle, { transfer with more }, chunk, false⟩ := by
  rcases List.mem_append.mp h with hmem | hmem
  · obtain ⟨chunk, hchunk, rfl⟩ := List.mem_map.mp hmem
    exact ⟨true, chunk, .inl hchunk, rfl⟩
  · exact ⟨false, last, .inr rfl, List.mem_singleton.mp hmem⟩

theorem isDelivery_single :
    IsDelivery transfer payload [⟨inputHandle, { transfer with more := false }, payload, true⟩] where
  payload := by simp
  more := by
    refine ⟨[], _, (List.nil_append _).symm, ?_, rfl⟩
    simp
  delivery := ⟨_, [], rfl, rfl, rfl, rfl, by simp⟩

theorem isDelivery_split (hpayload : part ++ (chunks.flatten ++ last) = payload) :
    IsDelivery transfer payload (⟨inputHandle, { transfer with more := true }, part, true⟩ ::
      continuations inputHandle transfer.clearContinuationFields chunks last) where
  payload := by
    simp only [continuations, List.map_cons, List.map_append, List.map_map, Function.comp_def,
      List.map_id', List.map_nil, List.flatten_cons, List.flatten_append, List.flatten_nil,
      List.append_nil]
    exact hpayload
  more := by
    refine ⟨⟨inputHandle, { transfer with more := true }, part, true⟩ :: chunks.map (fun chunk =>
        ⟨inputHandle, { transfer.clearContinuationFields with more := true }, chunk, false⟩),
      ⟨inputHandle, { transfer.clearContinuationFields with more := false }, last, false⟩, rfl, ?_, rfl⟩
    intro item hmem
    rcases List.mem_cons.mp hmem with rfl | hmem
    · rfl
    · obtain ⟨chunk, -, rfl⟩ := List.mem_map.mp hmem
      rfl
  delivery := by
    refine ⟨_, _, rfl, rfl, rfl, rfl, ?_⟩
    intro item hmem
    obtain ⟨more, chunk, -, rfl⟩ := mem_continuations hmem
    exact ⟨rfl, rfl, rfl, rfl⟩

/-- Under any id the first frame is no longer than under the largest one. -/
theorem trims_withLargestId (transfer : Transfer) (more : Bool) (id : DeliveryNumber) :
    Transfer.Trims { transfer with more, deliveryId := some id } (transfer.withLargestId more) :=
  ⟨rfl, .inr rfl, .inl rfl, .inl rfl, .inl rfl, .inl rfl, .inl rfl, rfl, rfl, rfl, rfl⟩

/-- A continuation is no longer than the first frame. -/
theorem continuation_trims (transfer : Transfer) (more : Bool) :
    Transfer.Trims { transfer.clearContinuationFields with more } (transfer.withLargestId true) where
  handle := rfl
  deliveryId := .inr rfl
  deliveryTag := .inr rfl
  messageFormat := .inr rfl
  settled := .inr rfl
  more := by cases more <;> simp [Transfer.withLargestId]
  rcvSettleMode := .inr rfl
  state := rfl
  resume := rfl
  aborted := rfl
  batchable := rfl

/-- Where the two serializers run alike, the performative is not longer with the largest delivery-id than
it was measured. -/
theorem Transfer.toVec_withLargestId (halike : (transfer.withLargestId true).toSer.flagsAlike .new .new)
    {size : Nat} (hsize : transfer.performativeSize = .ok size) (more : Bool) :
    ∃ buf, toVec (transfer.withLargestId more).toSer = .ok buf ∧ buf.length ≤ size := by
  obtain ⟨buf, hbuf, hle⟩ := toVec_of_serializedSize halike hsize
  have htrims : (transfer.withLargestId more).Trims (transfer.withLargestId true) := by
    refine ⟨rfl, .inr rfl, .inl rfl, .inl rfl, .inl rfl, ?_, .inl rfl, rfl, rfl, rfl, rfl⟩
    cases more
    · exact .inr rfl
    · exact .inl rfl
  obtain ⟨buf', hbuf', hle'⟩ := Transfer.toVec_of_trims htrims hbuf
  exact ⟨buf', hbuf', hle'.trans hle⟩

/-- What is shorter than a performative that fits does so, too, with a payload that is not longer. -/
theorem FitInFrame.of_trims {encoder : FrameEncoder} {t t' : Transfer} {payload' : Payload}
    (h : FitInFrame encoder t' payload') (htrims : t.Trims t') (hle : payload.length ≤ payload'.length) :
    FitInFrame encoder t payload := by
  obtain ⟨buf', hbuf', hfits⟩ := h
  obtain ⟨buf, hbuf, hshort⟩ := Transfer.toVec_of_trims htrims hbuf'
  exact ⟨buf, hbuf, by omega⟩

/-- If the first frame fits with the largest delivery-id, then all of them do with any. -/
theorem split_fits {encoder : FrameEncoder} (hpart : ∀ chunk ∈ chunks, chunk.length ≤ part.length)
    (hlast : last.length ≤ part.length) (h : FitInFrame encoder (transfer.withLargestId true) part) :
    ∀ item ∈ (⟨inputHandle, { transfer with more := true }, part, true⟩ ::
        continuations inputHandle transfer.clearContinuationFields chunks last : List BufferedTransfer),
      ∀ id, FitInFrame encoder (item.asSent id) item.payload := by
  intro item hmem id
  rcases List.mem_cons.mp hmem with rfl | hmem
  · exact h.of_trims (trims_withLargestId transfer true id) (Nat.le_refl _)
  · obtain ⟨more, chunk, hchunk, rfl⟩ := mem_continuations hmem
    refine h.of_trims (continuation_trims transfer more) ?_
    rcases hchunk with hchunk | rfl
    · exact hpart chunk hchunk
    · exact hlast

end

namespace SenderLink

/-- The room for payload beside a performative of this size. -/
def room (l : SenderLink) (size : Nat) : Nat := l.maxFrameSize - 4 - size

/-- The performative of the first frame, with the largest delivery-id, is written by `to_vec` and fits
beside the payload of the first frame. -/
def FirstFits (l : SenderLink) (transfer : Transfer) (size : Nat) (payload : Payload) : Prop :=
  ∃ buf, toVec (transfer.withLargestId (decide (l.room size < payload.length))).toSer = .ok buf ∧
    buf.length + min (l.room size) payload.length ≤ l.maxFrameSize - 4

end SenderLink

theorem BufferedTransfer.linkFrame_eq_first {item : BufferedTransfer} {frame : LinkTransfer}
    (h : item.linkFrame = .firstTransfer frame) :
    item.isFirst = true ∧ item.transfer = frame.performative ∧ item.payload = frame.payload := by
  unfold BufferedTransfer.linkFrame at h
  split at h
  next hfirst =>
    cases h
    exact ⟨hfirst, rfl, rfl⟩
  next => cases h

section

variable {l : SenderLink} {inputHandle : InputHandle} (hattached : l.inputHandle = some inputHandle)
  {transfer : Transfer} {size : Nat} (hsize : transfer.performativeSize = .ok size)
  (hroom : size + 4 < l.maxFrameSize) {payload : Payload}

include hattached hsize hroom

theorem SenderLink.startTransfer_room :
    l.startTransfer transfer payload = .ok ⟨inputHandle, transfer, payload, l.room size, true⟩ :=
  (SenderLink.startTransfer_eq_ok hattached).mpr
    ⟨_, SenderLink.maxPayload_eq_ok.mpr ⟨size, hsize, by simp only [SenderLink.room]; omega⟩, rfl⟩

omit hattached in
/-- The first frame fits where no part of the performative reads a flag on which the two serializers
differ. -/
theorem SenderLink.firstFits_of_flagsAlike
    (halike : (transfer.withLargestId true).toSer.flagsAlike .new .new) :
    l.FirstFits transfer size payload := by
  obtain ⟨buf, hbuf, hle⟩ :=
    Transfer.toVec_withLargestId halike hsize (decide (l.room size < payload.length))
  refine ⟨buf, hbuf, ?_⟩
  simp only [SenderLink.room]
  omega

theorem SplitFits.firstFits (h : SplitFits l transfer payload) : l.FirstFits transfer size payload := by
  obtain ⟨items, ⟨split, fuel, hsplit, hframes⟩, hdelivery, hfits, -⟩ := h
  obtain rfl : _ = split :=
    Except.ok.inj ((SenderLink.startTransfer_room hattached hsize hroom).symm.trans hsplit)
  obtain ⟨first, rest, rfl, -⟩ := hdelivery.delivery
  have hfirst := TransferSplit.framesWithin_cons hframes
  obtain ⟨buf, hbuf, hle⟩ := hfits first List.mem_cons_self 0xffffffff
  simp only [TransferSplit.next] at hfirst
  split at hfirst
  next hmore =>
    obtain ⟨hisFirst, htransfer, hpayload⟩ := BufferedTransfer.linkFrame_eq_first hfirst
    rw [BufferedTransfer.asSent, if_pos hisFirst, htransfer] at hbuf
    rw [hpayload, List.length_take] at hle
    refine ⟨buf, ?_, hle⟩
    rw [decide_eq_true hmore]
    exact hbuf
  next hmore =>
    obtain ⟨hisFirst, htransfer, hpayload⟩ := BufferedTransfer.linkFrame_eq_first hfirst
    rw [BufferedTransfer.asSent, if_pos hisFirst, htransfer] at hbuf
    rw [hpayload] at hle
    refine ⟨buf, ?_, ?_⟩
    · rw [decide_eq_false hmore]
      exact hbuf
    · rw [Nat.min_eq_right (Nat.not_lt.mp hmore)]
      exact hle

/-- A delivery whose performative leaves room is split into frames that fit exactly when the first of
them is written and fits with the largest delivery-id. -/
theorem splitFits_iff : SplitFits l transfer payload ↔ l.FirstFits transfer size payload := by
  refine ⟨fun h => h.firstFits hattached hsize hroom, ?_⟩
  rintro ⟨buf, hbuf, hle⟩
  have hpos : 0 < l.room size := by
    simp only [SenderLink.room]
    omega
  obtain ⟨fuel, items, hframes, hitems⟩ := @TransferSplit.framesWithin_eq_first inputHandle
    (l.room size) transfer hpos payload
  refine ⟨items, ⟨_, fuel, SenderLink.startTransfer_room hattached hsize hroom, hframes⟩, ?_⟩
  rcases hitems with ⟨hshort, rfl⟩ | ⟨chunks, last, hpayload, hlong, hchunks, hlast, rfl⟩
  · rw [decide_eq_false (Nat.not_lt.mpr hshort)] at hbuf
    rw [Nat.min_eq_right hshort] at hle
    have hfits : ∀ item ∈ [(⟨inputHandle, { transfer with more := false }, payload, true⟩ :
        BufferedTransfer)], ∀ id, FitInFrame ⟨l.maxFrameSize - 4⟩ (item.asSent id) item.payload := by
      intro item hmem id
      obtain rfl := List.mem_singleton.mp hmem
      have hlargest : FitInFrame ⟨l.maxFrameSize - 4⟩ (transfer.withLargestId false) payload :=
        ⟨buf, hbuf, hle⟩
      exact hlargest.of_trims (trims_withLargestId transfer false id) (Nat.le_refl _)
    exact ⟨isDelivery_single, hfits, writtenOnce_of_fits (by omega) hfits⟩
  · rw [decide_eq_true hlong] at hbuf
    have hpart : (payload.take (l.room size)).length = l.room size := by
      rw [List.length_take, Nat.min_eq_left (Nat.le_of_lt hlong)]
    rw [Nat.min_eq_left (Nat.le_of_lt hlong), ← hpart] at hle
    have hfits := @split_fits inputHandle transfer chunks _ last ⟨l.maxFrameSize - 4⟩
      (fun chunk hmem => (hchunks chunk hmem).trans_eq hpart.symm) (hlast.trans_eq hpart.symm)
      ⟨buf, hbuf, hle⟩
    exact ⟨isDelivery_split hpayload, hfits, writtenOnce_of_fits (by omega) hfits⟩

end

section Witnesses

private def sizedSender : SenderLink where
  name := "link"
  role := .sender
  localState := .attached
  outputHandle := some ⟨0⟩
  inputHandle := some ⟨0⟩
  sndSettleMode := .mixed
  rcvSettleMode := .first
  source := none
  targetKind := .target
  target := none
  maxMessageSize := 0
  offeredCapabilities := none
  desiredCapabilities := none
  verifyIncomingSource := false
  verifyIncomingTarget := false
  maxFrameSize := 508
  sessionStopReason := none

private def annotatedTransfer (annotations : Option Fields) : Transfer where
  handle := 0
  deliveryId := none
  deliveryTag := some [0, 0, 0, 1]
  messageFormat := some 0
  settled := some false
  more := false
  rcvSettleMode := none
  state := some (.modified ⟨none, none, annotations⟩)
  resume := false
  aborted := false
  batchable := false

/-- A delivery of six hundred bytes is two frames. -/
theorem annotatedTransfer_splitFits :
    SplitFits sizedSender (annotatedTransfer none) (List.replicate 600 0) := by
  have hsize : (annotatedTransfer none).performativeSize = .ok 28 := by decide +kernel
  exact (@splitFits_iff sizedSender ⟨0⟩ rfl _ 28 hsize (by decide) _).mpr
    (@SenderLink.firstFits_of_flagsAlike sizedSender _ 28 hsize (by decide) _ (by decide +kernel))

private def timestampAnnotation : Option Fields := some [(⟨"x"⟩, .map [(.timestamp 0, .string "a")])]

/-- A map with a timestamp as a key is measured but not written. -/
theorem timestampAnnotation_not_splitFits :
    ¬∀ (l : SenderLink) (transfer : Transfer) (payload : Payload),
      l.inputHandle.isSome → (∃ size, transfer.performativeSize = .ok size ∧ size + 4 < l.maxFrameSize) →
        SplitFits l transfer payload := by
  intro hall
  have hsize : (annotatedTransfer timestampAnnotation).performativeSize = .ok 51 := by decide +kernel
  have hfits := hall sizedSender (annotatedTransfer timestampAnnotation) [] rfl ⟨51, hsize, by decide⟩
  obtain ⟨buf, hbuf, -⟩ := @SplitFits.firstFits sizedSender ⟨0⟩ rfl _ 51 hsize (by decide) _ hfits
  have hpanic : toVec ((annotatedTransfer timestampAnnotation).withLargestId false).toSer =
      .error .panic := by
    decide +kernel
  cases hpanic.symm.trans hbuf

end Witnesses

end Fe2o3Amqp
