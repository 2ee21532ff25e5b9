import Fe2o3Amqp.Link.Reassembly
import Fe2o3Amqp.Link.SplitFits

/-!
# Deliveries that arrive

The deliveries of a sending link on their way to the application at the other end: the link splits
them, the session numbers them and holds them back while the window is exhausted, the transport
writes each transfer as a frame, and the receiving link puts the payloads together again.
-/

namespace Fe2o3Amqp

/-! ## The receiving link -/

/-- The transfer resumes nothing, is not aborted and names neither a state nor a settle mode. -/
structure Transfer.IsPlain (transfer : Transfer) : Prop where
  state : transfer.state = none
  resume : transfer.resume = false
  aborted : transfer.aborted = false
  rcvSettleMode : transfer.rcvSettleMode = none

namespace Transfer.IsPlain

variable {transfer : Transfer} (h : transfer.IsPlain)

include h

theorem withMore (more : Bool) : Transfer.IsPlain { transfer with more } :=
  ⟨h.state, h.resume, h.aborted, h.rcvSettleMode⟩

theorem numbered (id : DeliveryNumber) (more : Bool) :
    Transfer.IsPlain { transfer with deliveryId := some id, more } :=
  ⟨h.state, h.resume, h.aborted, h.rcvSettleMode⟩

theorem clear : transfer.clearContinuationFields.IsPlain := ⟨h.state, h.resume, h.aborted, rfl⟩

end Transfer.IsPlain

theorem IncompleteTransfer.tryAppend_rcvSettleMode {E : Type}
    {incomplete incomplete' : IncompleteTransfer} {transfer : Transfer} {payload : Payload}
    (h : incomplete.tryAppend (E := E) transfer payload = .ok incomplete') :
    incomplete'.performative.rcvSettleMode = incomplete.performative.rcvSettleMode := by
  simp only [tryAppend] at h
  split at h
  · cases h
  · split at h
    · cases h
    · next performative hmerge =>
        cases h
        obtain ⟨id, -, hmerge⟩ := Except.bind_eq_ok.mp hmerge
        obtain ⟨tag, -, hmerge⟩ := Except.bind_eq_ok.mp hmerge
        obtain ⟨format, -, hmerge⟩ := Except.bind_eq_ok.mp hmerge
        cases hmerge
        rfl

/-- What the link makes of a whole delivery while it has credit. -/
theorem ReceiverLink.onCompleteTransfer_delivers {M E : Type} {decode : Bytes → Except E M}
    {link : ReceiverLink} {handle : OutputHandle} {transfer : Transfer} {payload : List Payload}
    {id : DeliveryNumber} {tag : DeliveryTag} {message : M} (hattached : link.localState = .attached)
    (hhandle : link.outputHandle = some handle) (hcredit : 0 < link.flowState.linkCredit.toNat)
    (hid : transfer.deliveryId = some id) (htag : transfer.deliveryTag = some tag)
    (hmode : transfer.rcvSettleMode = none) (hdecode : decode payload.flatten = .ok message)
    (number : UInt32) (offset : UInt64) :
    ∃ link', link.onCompleteTransfer decode transfer payload number offset =
        (.ok ⟨handle.handle, id, tag, transfer.messageFormat, none, message⟩, link') ∧
      link'.localState = .attached ∧ link'.outputHandle = some handle ∧
      link'.maxMessageSize = link.maxMessageSize ∧
      link'.flowState.linkCredit.toNat = link.flowState.linkCredit.toNat - 1 := by
  have hone : (1 : UInt32).toNat = 1 := rfl
  have hconsume : ¬link.flowState.linkCredit < 1 := by
    rw [UInt32.lt_iff_toNat_lt, hone]
    omega
  have hstate : ¬(link.localState ≠ .attached ∧ link.localState ≠ .incompleteAttachExchanged) :=
    fun h => h.1 hattached
  have hleft : (link.flowState.linkCredit.saturatingSub 1).toNat =
      link.flowState.linkCredit.toNat - 1 := by
    rw [UInt32.toNat_saturatingSub, hone]
  simp only [onCompleteTransfer, if_neg hstate, consume, if_neg hconsume, hid, htag,
    transferSettleMode, hmode, handOver, hdecode, insertUnsettled, hhandle]
  split
  · exact ⟨_, rfl, hattached, rfl, rfl, hleft⟩
  · exact ⟨_, rfl, hattached, rfl, rfl, hleft⟩

namespace ReceiverInner

variable {M E : Type} {r r' : ReceiverInner} {frames : List TransferFrame} {handle : OutputHandle}
  {maxMessageSize : UInt64} {n : Nat}

/-- The receiver waits for a delivery and has credit for `n`; the application accepts them itself. -/
structure Ready (r : ReceiverInner) (handle : OutputHandle) (maxMessageSize : UInt64) (n : Nat) :
    Prop where
  attached : r.link.localState = .attached
  outputHandle : r.link.outputHandle = some handle
  autoAccept : r.autoAccept = false
  incompleteTransfer : r.incompleteTransfer = none
  maxMessageSize : r.link.maxMessageSize = maxMessageSize
  credit : n ≤ r.link.flowState.linkCredit.toNat

/-- The receiver has buffered these frames of a delivery; otherwise only the unsettled map of `r` has
changed. -/
structure Midway (r r' : ReceiverInner) (frames : List TransferFrame) : Prop where
  link : ∃ unsettled, r'.link = { r.link with unsettled }
  autoAccept : r'.autoAccept = r.autoAccept
  buffered : ∃ incomplete, r'.incompleteTransfer = some incomplete ∧ incomplete.Merges frames ∧
    incomplete.performative.rcvSettleMode = none

theorem Midway.buffers (h : Midway r r' frames) : r'.Buffers frames := by
  obtain ⟨incomplete, hsome, hmerges, -⟩ := h.buffered
  simp only [Buffers, hsome]
  exact hmerges

/-- The payload does not exceed the largest message size, if there is one. -/
def Within (maxMessageSize : UInt64) (payload : Payload) : Prop :=
  maxMessageSize = 0 ∨ payload.length ≤ maxMessageSize.toNat

theorem not_exceeds (hsize : r.link.maxMessageSize = maxMessageSize) {transfer : Transfer}
    {payload rest : Payload} (hwithin : Within maxMessageSize (payloadOf frames ++ payload ++ rest)) :
    ¬r.Exceeds frames transfer payload := by
  rintro ⟨hlimit, hexceeds⟩
  rw [hsize] at hlimit hexceeds
  rcases hwithin with hzero | hwithin
  · exact hlimit hzero
  · simp only [deliverySize, List.length_append] at hexceeds hwithin
    split_ifs at hexceeds <;> omega

section Frames

variable (decode : Bytes → Except E M) (closing : Closing) {transfer : Transfer}
  {payload rest : Payload} {id : DeliveryNumber} {tag : DeliveryTag}

/-- The first transfer of a delivery of many. -/
theorem receive_first (hready : r.Ready handle maxMessageSize n) (hplain : transfer.IsPlain)
    (hid : transfer.deliveryId = some id) (htag : transfer.deliveryTag = some tag)
    (hmore : transfer.more = true) (hwithin : Within maxMessageSize (payload ++ rest)) :
    ∃ r', r.receive decode closing (transfer, payload) = (r', [.ok none]) ∧
      Midway r r' [(transfer, payload)] := by
  have hbuffers : r.Buffers [] := by simp [Buffers, hready.incompleteTransfer]
  have hsize : ¬r.Exceeds [] transfer payload := not_exceeds hready.maxMessageSize hwithin
  have htake := r.onIncomingTransfer_takeIn decode closing payload hplain.aborted hplain.resume
    hplain.state
  rw [takeIn_more decode closing hbuffers hsize hmore] at htake
  cases hstart : IncompleteTransfer.start (E := E) transfer payload with
  | error e => simp [IncompleteTransfer.start, hid, htag] at hstart
  | ok incomplete =>
      have hperformative : incomplete.performative = transfer := by
        simp only [IncompleteTransfer.start, hid, htag, reduceCtorEq, if_false,
          Except.ok.injEq] at hstart
        rw [← hstart]
      simp only [onIncompleteTransfer, hready.incompleteTransfer, hstart, Except.map] at htake
      refine ⟨_, receive_eq htake, ⟨_, rfl⟩, rfl, incomplete, rfl,
        IncompleteTransfer.start_merges hstart, ?_⟩
      rw [hperformative]
      exact hplain.rcvSettleMode

/-- A further transfer that is not the last one. -/
theorem Midway.receive_more (h : Midway r r' frames) (hready : r.Ready handle maxMessageSize n)
    (hplain : transfer.IsPlain) (hcontinues : IncompleteTransfer.Continues transfer)
    (hmore : transfer.more = true)
    (hwithin : Within maxMessageSize (payloadOf frames ++ payload ++ rest)) :
    ∃ r'', r'.receive decode closing (transfer, payload) = (r'', [.ok none]) ∧
      Midway r r'' (frames ++ [(transfer, payload)]) := by
  obtain ⟨unsettled, hlink⟩ := h.link
  obtain ⟨incomplete, hsome, hmerges, hmode⟩ := h.buffered
  have hsize : ¬r'.Exceeds frames transfer payload := by
    refine not_exceeds ?_ hwithin
    rw [hlink]
    exact hready.maxMessageSize
  have htake := r'.onIncomingTransfer_takeIn decode closing payload hplain.aborted hplain.resume
    hplain.state
  rw [takeIn_more decode closing h.buffers hsize hmore] at htake
  cases happend : incomplete.tryAppend (E := E) transfer payload with
  | error e =>
      exact absurd ((hmerges.tryAppend_error_iff (E := E) transfer payload).mp ⟨e, happend⟩)
        (hcontinues.not_conflicts frames)
  | ok incomplete' =>
      simp only [onIncompleteTransfer, hsome, happend, Except.map] at htake
      refine ⟨_, receive_eq htake, ⟨_, by simp only [hlink]; rfl⟩, h.autoAccept,
        incomplete', rfl, hmerges.tryAppend happend, ?_⟩
      rw [IncompleteTransfer.tryAppend_rcvSettleMode happend]
      exact hmode

/-- What the receiver makes of the transfers of a whole delivery. -/
theorem complete_delivers (hattached : r.link.localState = .attached)
    (hhandle : r.link.outputHandle = some handle) (hauto : r.autoAccept = false)
    (hsize : r.link.maxMessageSize = maxMessageSize)
    (hcredit : n + 1 ≤ r.link.flowState.linkCredit.toNat) (hbuffer : r.incompleteTransfer = none)
    (parts : List Payload) (hid : transfer.deliveryId = some id)
    (htag : transfer.deliveryTag = some tag) (hmode : transfer.rcvSettleMode = none) {message : M}
    (hdecode : decode parts.flatten = .ok message) (number : UInt32) (offset : UInt64) :
    ∃ r', r.complete decode transfer parts number offset =
        (.ok (some ⟨handle.handle, id, tag, transfer.messageFormat, none, message⟩), r') ∧
      r'.Ready handle maxMessageSize n := by
  obtain ⟨link, hlink, hattached', hhandle', hsize', hcredit'⟩ :=
    ReceiverLink.onCompleteTransfer_delivers hattached hhandle (by omega) hid htag hmode hdecode number
      offset
  refine ⟨r.withLink link, ?_, hattached', hhandle', hauto, hbuffer, hsize'.trans hsize, ?_⟩
  · have hauto' : ¬(r.withLink link).autoAccept = true := by simp [withLink, hauto]
    simp only [complete, hlink, if_neg hauto']
  · simp only [withLink]
    omega

variable {message : M}

/-- A delivery of one transfer. -/
theorem receive_single (hready : r.Ready handle maxMessageSize (n + 1)) (hplain : transfer.IsPlain)
    (hid : transfer.deliveryId = some id) (htag : transfer.deliveryTag = some tag)
    (hmore : transfer.more = false) (hwithin : Within maxMessageSize payload)
    (hdecode : decode payload = .ok message) :
    ∃ r', r.receive decode closing (transfer, payload) =
        (r', [.ok (some ⟨handle.handle, id, tag, transfer.messageFormat, none, message⟩)]) ∧
      r'.Ready handle maxMessageSize n := by
  have hbuffers : r.Buffers [] := by simp [Buffers, hready.incompleteTransfer]
  have hsize : ¬r.Exceeds [] transfer payload :=
    @not_exceeds r [] maxMessageSize hready.maxMessageSize transfer payload []
      (by simpa [payloadOf] using hwithin)
  have htake := r.onIncomingTransfer_takeIn decode closing payload hplain.aborted hplain.resume
    hplain.state
  rw [takeIn_final decode closing hbuffers hsize hmore hplain.resume] at htake
  obtain ⟨r', hcomplete, hready'⟩ := complete_delivers decode hready.attached hready.outputHandle
    hready.autoAccept hready.maxMessageSize hready.credit hready.incompleteTransfer
    [payload] hid htag hplain.rcvSettleMode (by simpa using hdecode)
    (countNumberOfSectionsAndOffset payload).1 (countNumberOfSectionsAndOffset payload).2
  have hidentity : ensureDeliveryIdentity (E := E) transfer = .ok () := by
    simp [ensureDeliveryIdentity, hid, htag]
  simp only [onCompleteTransfer, hready.incompleteTransfer, completeSingle, hidentity,
    hcomplete] at htake
  exact ⟨r', receive_eq htake, hready'⟩

/-- The last transfer of a delivery of many. -/
theorem Midway.receive_last (h : Midway r r' frames) (hready : r.Ready handle maxMessageSize (n + 1))
    (hplain : transfer.IsPlain) (hcontinues : IncompleteTransfer.Continues transfer)
    (hmore : transfer.more = false) (hid : fieldOf (·.deliveryId) frames = some id)
    (htag : fieldOf (·.deliveryTag) frames = some tag)
    (hwithin : Within maxMessageSize (payloadOf frames ++ payload))
    (hdecode : decode (payloadOf frames ++ payload) = .ok message) :
    ∃ r'', r'.receive decode closing (transfer, payload) =
        (r'', [.ok (some ⟨handle.handle, id, tag, fieldOf (·.messageFormat) frames, none, message⟩)]) ∧
      r''.Ready handle maxMessageSize n := by
  obtain ⟨unsettled, hlink⟩ := h.link
  obtain ⟨incomplete, hsome, hmerges, hmode⟩ := h.buffered
  have hsame : r'.link.localState = .attached ∧ r'.link.outputHandle = some handle ∧
      r'.link.maxMessageSize = maxMessageSize ∧
      n + 1 ≤ r'.link.flowState.linkCredit.toNat := by
    rw [hlink]
    exact ⟨hready.attached, hready.outputHandle, hready.maxMessageSize, hready.credit⟩
  obtain ⟨hattached, hhandle, hsize, hcredit⟩ := hsame
  have hexceeds : ¬r'.Exceeds frames transfer payload :=
    @not_exceeds r' frames maxMessageSize hsize transfer payload [] (by simpa using hwithin)
  have htake := r'.onIncomingTransfer_takeIn decode closing payload hplain.aborted hplain.resume
    hplain.state
  rw [takeIn_final decode closing h.buffers hexceeds hmore hplain.resume] at htake
  cases happend : incomplete.tryAppend (E := E) transfer payload with
  | error e =>
      exact absurd ((hmerges.tryAppend_error_iff (E := E) transfer payload).mp ⟨e, happend⟩)
        (hcontinues.not_conflicts frames)
  | ok incomplete' =>
      have hmerges' := hmerges.tryAppend happend
      have hfield : ∀ {α : Type} (field : Transfer → Option α), field transfer = none →
          fieldOf field (frames ++ [(transfer, payload)]) = fieldOf field frames := by
        intro α field hnone
        rw [fieldOf_append]
        simp [hnone]
      have hformat : incomplete'.performative.messageFormat = fieldOf (·.messageFormat) frames :=
        hmerges'.messageFormat.trans (hfield _ hcontinues.2.2)
      obtain ⟨r'', hcomplete, hready''⟩ := complete_delivers (r := { r' with incompleteTransfer := none })
        decode hattached hhandle (h.autoAccept.trans hready.autoAccept) hsize hcredit rfl
        incomplete'.buffer (hmerges'.deliveryId.trans ((hfield _ hcontinues.1).trans hid))
        (hmerges'.deliveryTag.trans ((hfield _ hcontinues.2.1).trans htag))
        ((IncompleteTransfer.tryAppend_rcvSettleMode happend).trans hmode)
        (by
          rw [hmerges'.buffer, List.map_append, List.flatten_append]
          simpa [payloadOf_eq] using hdecode)
        incomplete'.sectionNumber incomplete'.sectionOffset
      rw [hformat] at hcomplete
      simp only [onCompleteTransfer, hsome, happend, hcomplete] at htake
      exact ⟨r'', receive_eq htake, hready''⟩

/-- The remaining transfers of a delivery of many. -/
theorem Midway.receive_continuations (h : Midway r r' frames)
    (hready : r.Ready handle maxMessageSize (n + 1)) (hplain : transfer.IsPlain)
    (hcontinues : IncompleteTransfer.Continues transfer)
    (hid : fieldOf (·.deliveryId) frames = some id) (htag : fieldOf (·.deliveryTag) frames = some tag)
    (chunk : Payload) (chunks : List Payload)
    (hwithin : Within maxMessageSize (payloadOf frames ++ (chunk :: chunks).flatten))
    (hdecode : decode (payloadOf frames ++ (chunk :: chunks).flatten) = .ok message) :
    ∃ r'', Run.run (receive decode closing) r' (continuationFrames transfer (chunk :: chunks)) =
        (r'', List.replicate chunks.length (.ok none) ++
          [.ok (some ⟨handle.handle, id, tag, fieldOf (·.messageFormat) frames, none, message⟩)]) ∧
      r''.Ready handle maxMessageSize n := by
  induction chunks generalizing r' frames chunk with
  | nil =>
      rw [List.flatten_singleton] at hwithin hdecode
      obtain ⟨r'', hreceive, hready'⟩ := h.receive_last decode closing hready
        (hplain.withMore false) hcontinues rfl hid htag hwithin hdecode
      refine ⟨r'', ?_, hready'⟩
      have hframes : continuationFrames transfer [chunk] = [({ transfer with more := false }, chunk)] := rfl
      simp only [hframes, Run.run, hreceive, List.length_nil, List.replicate_zero, List.nil_append,
        List.append_nil]
  | cons next chunks ih =>
      rw [List.flatten_cons, ← List.append_assoc] at hwithin hdecode
      obtain ⟨r₁, hreceive, hmidway⟩ := h.receive_more decode closing hready
        (hplain.withMore true) hcontinues rfl hwithin
      have hpayload : payloadOf (frames ++ [({ transfer with more := true }, chunk)]) =
          payloadOf frames ++ chunk := by simp [payloadOf]
      have hfield : ∀ {α : Type} (field : Transfer → Option α),
          field { transfer with more := true } = none →
          fieldOf field (frames ++ [({ transfer with more := true }, chunk)]) = fieldOf field frames := by
        intro α field hnone
        rw [fieldOf_append]
        simp [hnone]
      obtain ⟨r'', hrun, hready'⟩ := ih hmidway ((hfield _ hcontinues.1).trans hid)
        ((hfield _ hcontinues.2.1).trans htag) next (by rwa [hpayload]) (by rwa [hpayload])
      refine ⟨r'', ?_, hready'⟩
      rw [hfield _ hcontinues.2.2] at hrun
      have hframes : continuationFrames transfer (chunk :: next :: chunks) =
          ({ transfer with more := true }, chunk) :: continuationFrames transfer (next :: chunks) := rfl
      simp only [hframes, Run.run, hreceive, hrun, List.length_cons, List.replicate_succ,
        List.cons_append, List.nil_append]

/-- All transfers of a delivery: the application gets the delivery with the last of them. -/
theorem receive_transferFrames (hready : r.Ready handle maxMessageSize (n + 1))
    (hplain : transfer.IsPlain) (htag : transfer.deliveryTag = some tag) (id : DeliveryNumber)
    (chunk : Payload) (chunks : List Payload)
    (hwithin : Within maxMessageSize (chunk :: chunks).flatten)
    (hdecode : decode (chunk :: chunks).flatten = .ok message) :
    ∃ r', Run.run (receive decode closing) r (transferFrames transfer id (chunk :: chunks)) =
        (r', List.replicate chunks.length (.ok none) ++
          [.ok (some ⟨handle.handle, id, tag, transfer.messageFormat, none, message⟩)]) ∧
      r'.Ready handle maxMessageSize n := by
  cases chunks with
  | nil =>
      rw [List.flatten_singleton] at hwithin hdecode
      obtain ⟨r', hreceive, hready'⟩ := receive_single decode closing hready
        (hplain.numbered id false) rfl htag rfl hwithin hdecode
      refine ⟨r', ?_, hready'⟩
      have hframes : transferFrames transfer id [chunk] =
          [({ transfer with deliveryId := some id, more := false }, chunk)] := rfl
      simp only [hframes, Run.run, hreceive, List.length_nil, List.replicate_zero, List.nil_append,
        List.append_nil]
  | cons next chunks =>
      let first : TransferFrame := ({ transfer with deliveryId := some id, more := true }, chunk)
      rw [List.flatten_cons] at hwithin hdecode
      obtain ⟨r₁, hreceive, hmidway⟩ := receive_first decode closing hready
        (hplain.numbered id true) rfl htag rfl hwithin
      have hfield : ∀ {α : Type} (field : Transfer → Option α), fieldOf field [first] = field first.1 := by
        intro α field
        simp [fieldOf]
      have hpayload : payloadOf [first] = chunk := by simp [payloadOf, first]
      obtain ⟨r', hrun, hready'⟩ := hmidway.receive_continuations decode closing hready
        hplain.clear ⟨rfl, rfl, rfl⟩ (hfield _) ((hfield _).trans htag) next chunks (by rwa [hpayload])
        (by rwa [hpayload])
      refine ⟨r', ?_, hready'⟩
      rw [hfield] at hrun
      have hframes : transferFrames transfer id (chunk :: next :: chunks) =
          first :: continuationFrames transfer.clearContinuationFields (next :: chunks) := rfl
      simp only [hframes, Run.run, hreceive, first, hrun, List.length_cons, List.replicate_succ,
        List.cons_append, List.nil_append]

end Frames

end ReceiverInner

/-! ## The sending link -/

/-- What the application gives to `send`. -/
structure OutgoingDelivery where
  deliveryTag : DeliveryTag
  messageFormat : MessageFormat
  settled : Option Bool
  batchable : Bool
  payload : Payload

namespace SenderLink

variable {l : SenderLink} {delivery : OutgoingDelivery} {transfer : Transfer}

/-- The performative of the delivery. -/
def performativeOf (l : SenderLink) (delivery : OutgoingDelivery) : Except LinkStateError Transfer :=
  l.generateNonResumingTransferPerformative delivery.deliveryTag delivery.messageFormat
    delivery.settled none delivery.batchable

/-- The link hands these frames over to the session for the delivery. -/
def Sends (l : SenderLink) (delivery : OutgoingDelivery) (frames : List LinkFrame) : Prop :=
  ∃ transfer, l.performativeOf delivery = .ok transfer ∧
    l.SplitsInto transfer delivery.payload frames

/-- The fields of the performative. -/
structure Describes (handle : OutputHandle) (delivery : OutgoingDelivery) (transfer : Transfer) :
    Prop where
  handle : transfer.handle = handle.handle
  deliveryTag : transfer.deliveryTag = some delivery.deliveryTag
  messageFormat : transfer.messageFormat = some delivery.messageFormat
  plain : transfer.IsPlain

theorem performativeOf_describes {handle : OutputHandle} (hhandle : l.outputHandle = some handle)
    (h : l.performativeOf delivery = .ok transfer) : Describes handle delivery transfer := by
  simp only [performativeOf, generateNonResumingTransferPerformative, hhandle, Except.ok.injEq] at h
  subst h
  exact ⟨rfl, rfl, rfl, rfl, rfl, rfl, rfl⟩

/-- The performative of a delivery is short. -/
theorem performativeSize_le (h : l.performativeOf delivery = .ok transfer)
    (htag : delivery.deliveryTag.length ≤ 32) :
    ∃ size, transfer.performativeSize = .ok size ∧ size ≤ 100 := by
  have hvariable : SizeSerializer.variableSize delivery.deliveryTag.length =
      .ok (2 + delivery.deliveryTag.length) :=
    if_pos (by simp only [u8MaxMinus1]; exact htag.trans (by decide))
  have huint : ∀ v : UInt32, (if v = 0 then 1 else if v.toNat ≤ 255 then 2 else 5) ≤ 5 := by
    intro v
    split_ifs <;> decide
  simp only [performativeOf, generateNonResumingTransferPerformative] at h
  split at h
  · cases h
  · next handle _ =>
    cases h
    have hhandle := huint handle.handle
    have hformat := huint delivery.messageFormat
    generalize delivery.batchable = batchable
    cases batchable <;>
      simp [Transfer.performativeSize, serializedSize, Transfer.toSer, compositeToSer, compositeFields,
        Ser.size, CompositeField.required, CompositeField.optional, CompositeField.defaulted,
        Ser.sizeStructFields, SizeSerializer.enterStruct, SizeSerializer.pushEncoding,
        SizeSerializer.new, Descriptor.toSer, Handle.toSer, newtypeToSer,
        SizeSerializer.structEncoding, SizeSerializer.enterNewtype, SizeSerializer.describedList,
        SizeSerializer.serializeU32, SizeSerializer.serializeBytes, hvariable, pure, Except.pure, bind,
        Except.bind, structSize, listSize, compoundSize, SizeSerializer.serializeBool,
        SizeSerializer.serializeU64, u8MaxMinus1]
    all_goals
      rw [if_pos (by omega)]
      exact ⟨_, rfl, by omega⟩

theorem performativeOf_flagsAlike (h : l.performativeOf delivery = .ok transfer) :
    (transfer.withLargestId true).toSer.flagsAlike .new .new := by
  simp only [performativeOf, generateNonResumingTransferPerformative] at h
  split at h
  · cases h
  · cases h
    generalize delivery.batchable = batchable
    cases batchable <;> rfl

end SenderLink

/-! ## The transfers of a delivery -/

/-- The transfer on the wire for a frame of a link, whatever delivery-id it is given. -/
def BufferedTransfer.Numbered (item : BufferedTransfer) (sent : TransferFrame) : Prop :=
  ∃ id, sent = (item.asSent id, item.payload)

theorem BufferedTransfer.transfer?_linkFrame (item : BufferedTransfer) :
    item.linkFrame.transfer? = some item := by
  obtain ⟨inputHandle, transfer, payload, isFirst⟩ := item
  cases isFirst <;> rfl

theorem sentTransfers_numbered (id : DeliveryNumber) (items : List BufferedTransfer) :
    List.Forall₂ BufferedTransfer.Numbered items (sentTransfers id items) := by
  induction items generalizing id with
  | nil => exact .nil
  | cons item items ih => exact .cons ⟨id, rfl⟩ (ih _)

/-- The transfers of the delivery with its payload cut into these chunks; each of them fits. -/
structure Carries (l : SenderLink) (handle : OutputHandle) (delivery : OutgoingDelivery)
    (transfer : Transfer) (chunk : Payload) (chunks : List Payload) (items : List BufferedTransfer) :
    Prop where
  payload : (chunk :: chunks).flatten = delivery.payload
  item : ∀ item ∈ items, item.WellFormed ∧ item.transfer.handle = handle.handle ∧
    item.transfer.state = none ∧
    ∀ id, FitInFrame ⟨l.maxFrameSize - 4⟩ (item.asSent id) item.payload
  sent : ∀ sent, List.Forall₂ BufferedTransfer.Numbered items sent →
    ∃ id, sent = transferFrames transfer id (chunk :: chunks)

/-- The link hands these transfers over for the delivery. -/
def CarriedBy (l : SenderLink) (handle : OutputHandle) (delivery : OutgoingDelivery)
    (items : List BufferedTransfer) : Prop :=
  ∃ transfer chunk chunks, SenderLink.Describes handle delivery transfer ∧
    Carries l handle delivery transfer chunk chunks items

theorem continuations_numbered {inputHandle : InputHandle} {transfer : Transfer}
    (chunks : List Payload) (last : Payload) {sent : List TransferFrame}
    (h : List.Forall₂ BufferedTransfer.Numbered (continuations inputHandle transfer chunks last) sent) :
    sent = continuationFrames transfer (chunks ++ [last]) := by
  induction chunks generalizing sent with
  | nil =>
      obtain ⟨frame, rest, ⟨id, rfl⟩, hrest, rfl⟩ := List.forall₂_cons_left_iff.mp h
      cases hrest
      rfl
  | cons chunk chunks ih =>
      obtain ⟨frame, rest, ⟨id, rfl⟩, hrest, rfl⟩ := List.forall₂_cons_left_iff.mp h
      rw [ih hrest, List.cons_append, continuationFrames]
      cases chunks <;> rfl

namespace TransferSplit

/-- The frames of a split do not depend on the rounds that are allowed. -/
theorem framesWithin_unique {fuel fuel' : Nat} {split : TransferSplit} {frames frames' : List LinkFrame}
    (h : framesWithin fuel split = some frames) (h' : framesWithin fuel' split = some frames') :
    frames = frames' := by
  induction fuel generalizing fuel' split frames frames' with
  | zero => cases h
  | succ fuel ih =>
      cases fuel' with
      | zero => cases h'
      | succ fuel' =>
          simp only [framesWithin] at h h'
          cases hnext : split.next with
          | mk frame rest =>
              rw [hnext] at h h'
              cases rest with
              | none =>
                  cases h
                  cases h'
                  rfl
              | some rest =>
                  obtain ⟨later, hlater, rfl⟩ := Option.map_eq_some_iff.mp h
                  obtain ⟨later', hlater', rfl⟩ := Option.map_eq_some_iff.mp h'
                  rw [ih hlater hlater']

end TransferSplit

namespace SenderLink

variable {l : SenderLink} {delivery : OutgoingDelivery} {transfer : Transfer} {handle : OutputHandle}
  {inputHandle : InputHandle} {frames : List LinkFrame}

/-- An attached link hands every delivery over, in frames that fit. -/
theorem exists_carries (hhandle : l.outputHandle = some handle) (hinput : l.inputHandle = some inputHandle)
    (hframe : 508 ≤ l.maxFrameSize) (htag : delivery.deliveryTag.length ≤ 32)
    (h : l.performativeOf delivery = .ok transfer) :
    ∃ items chunk chunks,
      l.SplitsInto transfer delivery.payload (items.map BufferedTransfer.linkFrame) ∧
        Carries l handle delivery transfer chunk chunks items := by
  obtain ⟨size, hsize, hle⟩ := performativeSize_le h htag
  have hdescribes := performativeOf_describes hhandle h
  have hroom : 0 < l.room size := by
    simp only [room]
    omega
  have hfits : ∀ (more : Bool) (part : Payload), part.length ≤ l.room size →
      FitInFrame ⟨l.maxFrameSize - 4⟩ (transfer.withLargestId more) part := by
    intro more part hpart
    obtain ⟨buf, hbuf, hbufLe⟩ := Transfer.toVec_withLargestId (performativeOf_flagsAlike h) hsize more
    refine ⟨buf, hbuf, ?_⟩
    simp only [room] at hpart ⊢
    omega
  have hfirst : ∀ (more : Bool) (part : Payload), BufferedTransfer.WellFormed
      ⟨inputHandle, { transfer with more }, part, true⟩ := by
    intro more part
    refine ⟨fun _ => by simp [hdescribes.deliveryTag], fun h => by cases h⟩
  obtain ⟨fuel, items, hframes, hitems⟩ := @TransferSplit.framesWithin_eq_first inputHandle
    (l.room size) transfer hroom delivery.payload
  have hsplits : l.SplitsInto transfer delivery.payload (items.map BufferedTransfer.linkFrame) :=
    ⟨_, fuel, startTransfer_room hinput hsize (by omega), hframes⟩
  rcases hitems with ⟨hshort, rfl⟩ | ⟨chunks, last, hpayload, hlong, hchunks, hlast, rfl⟩
  · refine ⟨_, delivery.payload, [], hsplits, List.flatten_singleton, ?_, ?_⟩
    · intro item hmem
      obtain rfl := List.mem_singleton.mp hmem
      exact ⟨hfirst false _, hdescribes.handle, hdescribes.plain.state,
        fun id => (hfits false _ hshort).of_trims (trims_withLargestId transfer false id) (Nat.le_refl _)⟩
    · intro sent hsent
      obtain ⟨frame, rest, ⟨id, rfl⟩, hrest, rfl⟩ := List.forall₂_cons_left_iff.mp hsent
      cases hrest
      exact ⟨id, rfl⟩
  · have hpart : (delivery.payload.take (l.room size)).length = l.room size := by
      rw [List.length_take, Nat.min_eq_left (Nat.le_of_lt hlong)]
    refine ⟨_, delivery.payload.take (l.room size), chunks ++ [last], hsplits, ?_, ?_, ?_⟩
    · rw [List.flatten_cons, List.flatten_append, List.flatten_singleton]
      exact hpayload
    · intro item hmem
      have hfit := @split_fits inputHandle transfer chunks _ last ⟨l.maxFrameSize - 4⟩
        (fun chunk hmem => (hchunks chunk hmem).trans_eq hpart.symm) (hlast.trans_eq hpart.symm)
        (hfits true _ hpart.le) item hmem
      rcases List.mem_cons.mp hmem with rfl | hmem
      · exact ⟨hfirst true _, hdescribes.handle, hdescribes.plain.state, hfit⟩
      · obtain ⟨more, chunk, -, rfl⟩ := mem_continuations hmem
        exact ⟨⟨fun h => (by cases h), fun _ => rfl⟩, hdescribes.handle, hdescribes.plain.state, hfit⟩
    · intro sent hsent
      obtain ⟨frame, rest, ⟨id, rfl⟩, hrest, rfl⟩ := List.forall₂_cons_left_iff.mp hsent
      refine ⟨id, ?_⟩
      rw [continuations_numbered chunks last hrest]
      cases chunks <;> rfl

theorem exists_sends (hhandle : l.outputHandle = some handle) (hinput : l.inputHandle = some inputHandle)
    (hframe : 508 ≤ l.maxFrameSize) (htag : delivery.deliveryTag.length ≤ 32) :
    ∃ frames, l.Sends delivery frames := by
  obtain ⟨transfer, h⟩ : ∃ transfer, l.performativeOf delivery = .ok transfer := by
    simp only [performativeOf, generateNonResumingTransferPerformative, hhandle]
    exact ⟨_, rfl⟩
  obtain ⟨items, chunk, chunks, hsplits, -⟩ := exists_carries hhandle hinput hframe htag h
  exact ⟨_, transfer, h, hsplits⟩

/-- What the link hands over for a delivery. -/
theorem Sends.carries (h : l.Sends delivery frames) (hhandle : l.outputHandle = some handle)
    (hinput : l.inputHandle = some inputHandle) (hframe : 508 ≤ l.maxFrameSize)
    (htag : delivery.deliveryTag.length ≤ 32) :
    CarriedBy l handle delivery (frames.filterMap LinkFrame.transfer?) := by
  obtain ⟨transfer, hperformative, split, fuel, hsplit, hframes⟩ := h
  obtain ⟨items, chunk, chunks, ⟨split', fuel', hsplit', hframes'⟩, hcarries⟩ :=
    exists_carries hhandle hinput hframe htag hperformative
  cases hsplit.symm.trans hsplit'
  obtain rfl := TransferSplit.framesWithin_unique hframes hframes'
  refine ⟨transfer, chunk, chunks, performativeOf_describes hhandle hperformative, ?_⟩
  have hitems : (items.map BufferedTransfer.linkFrame).filterMap LinkFrame.transfer? = items := by
    rw [List.filterMap_map]
    exact (List.filterMap_congr fun item _ => item.transfer?_linkFrame).trans List.filterMap_some
  rw [hitems]
  exact hcarries

theorem carriedBy_of_sends {deliveries : List OutgoingDelivery} {handed : List (List LinkFrame)}
    (h : List.Forall₂ l.Sends deliveries handed) (hhandle : l.outputHandle = some handle)
    (hinput : l.inputHandle = some inputHandle) (hframe : 508 ≤ l.maxFrameSize)
    (htag : ∀ delivery ∈ deliveries, delivery.deliveryTag.length ≤ 32) :
    List.Forall₂ (CarriedBy l handle) deliveries
      (handed.map (List.filterMap LinkFrame.transfer?)) := by
  induction h with
  | nil => exact .nil
  | @cons delivery frames deliveries handed hsends _ ih =>
      exact .cons (hsends.carries hhandle hinput hframe (htag delivery List.mem_cons_self))
        (ih fun delivery hmem => htag delivery (List.mem_cons_of_mem _ hmem))

end SenderLink

/-! ## From one end to the other -/

/-- The delivery that the application gets is the one that was sent. -/
structure Arrives {M E : Type} (decode : Bytes → Except E M) (handle : OutputHandle)
    (sent : OutgoingDelivery) (delivery : Delivery M) : Prop where
  linkOutputHandle : delivery.linkOutputHandle = handle.handle
  deliveryTag : delivery.deliveryTag = sent.deliveryTag
  messageFormat : delivery.messageFormat = some sent.messageFormat
  message : decode sent.payload = .ok delivery.message

/-- The delivery of a result of `recv`, if it is one. -/
def delivered {M E : Type} : Except (RecvError E) (Option (Delivery M)) → Option (Delivery M)
  | .ok delivery => delivery
  | .error _ => none

/-- The transfer in a frame that is read. -/
def readTransfer (piece : Bytes) : Option TransferFrame :=
  match FrameDecoder.decode piece with
  | .ok ⟨_, .transfer transfer payload⟩ => some (transfer, payload)
  | _ => none

/-- A transfer that fits is one piece, and is read back from it. -/
theorem transfer_written {maxFrameSize : Nat} (hmax : 4 ≤ maxFrameSize) {transfer : Transfer}
    {payload : Payload} (h : FitInFrame ⟨maxFrameSize - 4⟩ transfer payload)
    (hstate : transfer.state = none) (channel : UInt16) :
    ∃ piece, (∀ fuel, startSend maxFrameSize (fuel + 1) ⟨channel, .transfer transfer payload⟩ =
        .ok (some [piece])) ∧
      readTransfer piece = some (transfer, payload) := by
  obtain ⟨buf, hbuf, hfits⟩ := h
  refine ⟨frameBytes channel buf payload, ?_, ?_⟩
  · intro fuel
    have hnew : FrameEncoder.new maxFrameSize = .ok ⟨maxFrameSize - 4⟩ := by
      rw [FrameEncoder.new, checkedSub, if_pos hmax]
      rfl
    have hlength : ¬(frameBytes channel buf payload).length > maxFrameSize := by
      rw [length_frameBytes]
      simp only at hfits
      omega
    simp only [startSend, hnew, Except.ok_bind, FrameEncoder.encode, encodeTransfer_of_fits hbuf hfits,
      Option.bind_some, cutFrames, if_neg hlength]
    rfl
  · have hsame : transfer.readAs id = transfer := by simp [Transfer.readAs]
    have hread := Transfer.roundTrips_map id fun state (hsome : transfer.state = some state) => by
      cases hstate.symm.trans hsome
    rw [hsame] at hread
    simp only [readTransfer, frameBytes, FrameDecoder.decode_transfer hread hbuf channel payload]

namespace ReceiverInner

variable {M E : Type} {decode : Bytes → Except E M} {l : SenderLink}
  {handle rcvHandle : OutputHandle} {maxMessageSize : UInt64}

/-- The transfers of all deliveries, taken in one after the other. -/
theorem receive_deliveries (closing : Closing) {deliveries : List OutgoingDelivery}
    {handed : List (List BufferedTransfer)}
    (hcarries : List.Forall₂ (CarriedBy l handle) deliveries handed)
    (hdecode : ∀ delivery ∈ deliveries, ∃ message, decode delivery.payload = .ok message)
    (hwithin : ∀ delivery ∈ deliveries, Within maxMessageSize delivery.payload)
    {r : ReceiverInner} (hready : r.Ready rcvHandle maxMessageSize deliveries.length)
    {sent : List TransferFrame} (hsent : List.Forall₂ BufferedTransfer.Numbered handed.flatten sent) :
    (∀ result ∈ (Run.run (receive decode closing) r sent).2, ∃ delivery, result = .ok delivery) ∧
      List.Forall₂ (Arrives decode rcvHandle) deliveries
        ((Run.run (receive decode closing) r sent).2.filterMap delivered) := by
  induction hcarries generalizing r sent with
  | nil =>
      cases hsent
      exact ⟨by simp, .nil⟩
  | @cons delivery items deliveries handed hfirst _ ih =>
      obtain ⟨transfer, chunk, chunks, hdescribes, hcarries⟩ := hfirst
      obtain ⟨message, hmessage⟩ := hdecode delivery List.mem_cons_self
      rw [List.flatten_cons] at hsent
      have htake := (List.forall₂_take_append _ _ _ hsent.flip).flip
      have hdrop := (List.forall₂_drop_append _ _ _ hsent.flip).flip
      obtain ⟨id, hframes⟩ := hcarries.sent _ htake
      obtain ⟨r', hrun, hready'⟩ := receive_transferFrames decode closing hready hdescribes.plain
        hdescribes.deliveryTag id chunk chunks
        (by rw [hcarries.payload]; exact hwithin delivery List.mem_cons_self)
        (by rw [hcarries.payload]; exact hmessage)
      rw [← hframes] at hrun
      obtain ⟨hok, harrive⟩ := ih (fun delivery hmem => hdecode delivery (List.mem_cons_of_mem _ hmem))
        (fun delivery hmem => hwithin delivery (List.mem_cons_of_mem _ hmem)) hready' hdrop
      have hsplit := @Run.run_append _ _ _ (receive decode closing) r (sent.take items.length)
        (sent.drop items.length)
      rw [List.take_append_drop, hrun] at hsplit
      rw [hsplit]
      constructor
      · intro result hresult
        rcases List.mem_append.mp hresult with hresult | hresult
        · rcases List.mem_append.mp hresult with hresult | hresult
          · exact ⟨none, List.eq_of_mem_replicate hresult⟩
          · exact ⟨_, List.mem_singleton.mp hresult⟩
        · exact hok result hresult
      · have hnone : (List.replicate chunks.length
            (.ok none : Except (RecvError E) (Option (Delivery M)))).filterMap delivered = [] := by
          simp [List.filterMap_replicate, delivered]
        rw [List.filterMap_append, List.filterMap_append, hnone, List.nil_append]
        exact .cons ⟨rfl, rfl, hdescribes.messageFormat, hmessage⟩ harrive

end ReceiverInner

theorem asSent_handle (item : BufferedTransfer) (id : DeliveryNumber) :
    (item.asSent id).handle = item.transfer.handle := by
  simp only [BufferedTransfer.asSent]
  split_ifs <;> rfl

theorem asSent_state (item : BufferedTransfer) (id : DeliveryNumber) :
    (item.asSent id).state = item.transfer.state := by
  simp only [BufferedTransfer.asSent]
  split_ifs <;> rfl

/-- The frame of the transfer is one piece, from which the transfer is read back. -/
def WrittenAs (maxFrameSize : Nat) (channel : UInt16) (sent : TransferFrame) (piece : Bytes) : Prop :=
  (∀ fuel, startSend maxFrameSize (fuel + 1) ⟨channel, .transfer sent.1 sent.2⟩ = .ok (some [piece])) ∧
    readTransfer piece = some sent

theorem filterMap_readTransfer {maxFrameSize : Nat} {channel : UInt16} {sent : List TransferFrame}
    {pieces : List Bytes} (h : List.Forall₂ (WrittenAs maxFrameSize channel) sent pieces) :
    pieces.filterMap readTransfer = sent := by
  induction h with
  | nil => rfl
  | cons hpiece _ ih => rw [List.filterMap_cons_some hpiece.2, ih]

/-- The transfers that a link has handed over are written, whatever delivery-ids they are given. -/
theorem exists_pieces {l : SenderLink} (hframe : 4 ≤ l.maxFrameSize)
    {items : List BufferedTransfer} (hitems : ∀ item ∈ items, item.transfer.state = none ∧
      ∀ id, FitInFrame ⟨l.maxFrameSize - 4⟩ (item.asSent id) item.payload)
    {sent : List TransferFrame} (h : List.Forall₂ BufferedTransfer.Numbered items sent)
    (channel : UInt16) : ∃ pieces, List.Forall₂ (WrittenAs l.maxFrameSize channel) sent pieces := by
  induction h with
  | nil => exact ⟨[], .nil⟩
  | @cons item frame items sent hnumbered _ ih =>
      obtain ⟨pieces, hpieces⟩ := ih fun item hmem => hitems item (List.mem_cons_of_mem _ hmem)
      obtain ⟨id, rfl⟩ := hnumbered
      obtain ⟨hstate, hfits⟩ := hitems item List.mem_cons_self
      obtain ⟨piece, hpiece⟩ := transfer_written hframe (hfits id)
        ((asSent_state item id).trans hstate) channel
      exact ⟨piece :: pieces, .cons hpiece hpieces⟩

theorem fits_of_carriedBy {l : SenderLink} {handle : OutputHandle} {deliveries : List OutgoingDelivery}
    {handed : List (List BufferedTransfer)}
    (h : List.Forall₂ (CarriedBy l handle) deliveries handed) :
    ∀ item ∈ handed.flatten, item.transfer.state = none ∧
      ∀ id, FitInFrame ⟨l.maxFrameSize - 4⟩ (item.asSent id) item.payload := by
  induction h with
  | nil => simp
  | cons hcarried _ ih =>
      obtain ⟨transfer, chunk, chunks, -, hcarries⟩ := hcarried
      intro item hmem
      rcases List.mem_append.mp (List.flatten_cons ▸ hmem) with hmem | hmem
      · exact (hcarries.item item hmem).2.2
      · exact ih item hmem

/-- The transfers of a session with this handle. -/
def transfersOn (handle : OutputHandle) (frames : List SessionFrame) : List TransferFrame :=
  (transfersOf frames).filter (·.1.handle = handle.handle)

/-- The transfers that the link with this handle has handed over. -/
def Session.handedOverBy (handle : OutputHandle) (s : Session) (actions : List SessionAction) :
    List BufferedTransfer :=
  (s.handedOver actions).filter (·.transfer.handle = handle.handle)

/-- The session emits the transfers of a link in order, whatever the other links do. -/
theorem Session.transfersOn_numbered (handle : OutputHandle) {s : Session} {actions : List SessionAction}
    (hactions : ∀ action ∈ actions, action.WellFormed)
    (hbefore : ∀ item ∈ s.remoteIncomingWindowExhaustedBuffer,
      item.WellFormed ∧ item.transfer.handle ≠ handle.handle)
    (hafter : ∀ item ∈ (Run.run Session.act s actions).1.remoteIncomingWindowExhaustedBuffer,
      item.transfer.handle ≠ handle.handle) :
    List.Forall₂ BufferedTransfer.Numbered (s.handedOverBy handle actions)
      (transfersOn handle (Run.run Session.act s actions).2) := by
  obtain ⟨items, hsent, -⟩ := s.run_sent actions hactions fun item hmem => (hbefore item hmem).1
  have hnone : ∀ {buffer : List BufferedTransfer},
      (∀ item ∈ buffer, item.transfer.handle ≠ handle.handle) →
      buffer.filter (·.transfer.handle = handle.handle) = [] := by
    intro buffer hbuffer
    rw [List.filter_eq_nil_iff]
    intro item hmem
    simpa using hbuffer item hmem
  have hsplit := congrArg (List.filter (·.transfer.handle = handle.handle)) hsent.split
  rw [List.filter_append, List.filter_append, hnone hafter,
    hnone fun item hmem => (hbefore item hmem).2, List.append_nil, List.nil_append] at hsplit
  rw [handedOverBy, ← hsplit, transfersOn, hsent.transfers]
  refine List.rel_filter ?_ (sentTransfers_numbered _ items)
  rintro item _ ⟨id, rfl⟩
  simp [asSent_handle]

/-- The deliveries that a link hands over to its session, whatever the other links and the peer do,
are the deliveries that the receiving end gives to its application, once none of the transfers
waits for the window any more: each exactly once, in order and with its payload. -/
theorem deliveries_arrive {M E : Type} {decode : Bytes → Except E M} (closing : Closing) {l : SenderLink}
    {handle rcvHandle : OutputHandle} (hhandle : l.outputHandle = some handle)
    (hinput : l.inputHandle.isSome) (hframe : 508 ≤ l.maxFrameSize) {maxMessageSize : UInt64}
    {deliveries : List OutgoingDelivery} (hdeliveries : ∀ delivery ∈ deliveries,
      delivery.deliveryTag.length ≤ 32 ∧ ReceiverInner.Within maxMessageSize delivery.payload ∧
        ∃ message, decode delivery.payload = .ok message)
    {handed : List (List LinkFrame)} (hsends : List.Forall₂ l.Sends deliveries handed)
    {s : Session} {actions : List SessionAction} (hactions : ∀ action ∈ actions, action.WellFormed)
    (hbefore : ∀ item ∈ s.remoteIncomingWindowExhaustedBuffer,
      item.WellFormed ∧ item.transfer.handle ≠ handle.handle)
    (hhanded : s.handedOverBy handle actions = handed.flatten.filterMap LinkFrame.transfer?)
    (hafter : ∀ item ∈ (Run.run Session.act s actions).1.remoteIncomingWindowExhaustedBuffer,
      item.transfer.handle ≠ handle.handle)
    {r : ReceiverInner} (hready : r.Ready rcvHandle maxMessageSize deliveries.length) :
    ∃ pieces : List Bytes,
      List.Forall₂ (fun sent piece => ∀ fuel,
          startSend l.maxFrameSize (fuel + 1) ⟨s.outgoingChannel, .transfer sent.1 sent.2⟩ =
            .ok (some [piece]))
        (transfersOn handle (Run.run Session.act s actions).2) pieces ∧
      let results := (Run.run (ReceiverInner.receive decode closing) r (pieces.filterMap readTransfer)).2
      (∀ result ∈ results, ∃ delivery, result = .ok delivery) ∧
        List.Forall₂ (Arrives decode rcvHandle) deliveries (results.filterMap delivered) := by
  obtain ⟨inputHandle, hinput⟩ := Option.isSome_iff_exists.mp hinput
  have hcarries := SenderLink.carriedBy_of_sends hsends hhandle hinput hframe
    fun delivery hmem => (hdeliveries delivery hmem).1
  rw [List.filterMap_flatten] at hhanded
  have hnumbered := Session.transfersOn_numbered handle hactions hbefore hafter
  rw [hhanded] at hnumbered
  obtain ⟨pieces, hpieces⟩ := exists_pieces (by omega) (fits_of_carriedBy hcarries) hnumbered s.outgoingChannel
  refine ⟨pieces, hpieces.imp fun _ _ h => h.1, ?_⟩
  rw [filterMap_readTransfer hpieces]
  exact ReceiverInner.receive_deliveries closing hcarries
    (fun delivery hmem => (hdeliveries delivery hmem).2.2)
    (fun delivery hmem => (hdeliveries delivery hmem).2.1) hready hnumbered

section Witness

private def arrivingSender : SenderLink where
  name := "link"
  role := .sender
  localState := .attached
  outputHandle := some ⟨0⟩
  inputHandle := some ⟨7⟩
  sndSettleMode := .mixed
  rcvSettleMode := .first
  source := none
  targetKind := .target
  target := none
  maxMessageSize := 0
  offeredCapabilities := none
  desiredCapabilities := none
  verifyIncomingSource := false
  verifyIncomingTarget := false
  maxFrameSize := 508
  sessionStopReason := none

private def arrivingDelivery : OutgoingDelivery where
  deliveryTag := [0, 0, 0, 1]
  messageFormat := 0
  settled := none
  batchable := false
  payload := List.replicate 600 0

private def arrivingTransfer (more : Bool) : Transfer where
  handle := 0
  deliveryId := none
  deliveryTag := some [0, 0, 0, 1]
  messageFormat := some 0
  settled := some false
  more
  rcvSettleMode := none
  state := none
  resume := false
  aborted := false
  batchable := false

private def arrivingFrames (part rest : Payload) : List LinkFrame :=
  [.firstTransfer ⟨⟨7⟩, arrivingTransfer true, part⟩,
    .transferContinuation ⟨⟨7⟩, (arrivingTransfer false).clearContinuationFields, rest⟩]

private theorem arrivingSender_sends :
    arrivingSender.Sends arrivingDelivery
      (arrivingFrames (arrivingDelivery.payload.take 483) (arrivingDelivery.payload.drop 483)) := by
  have hsize : (arrivingTransfer false).performativeSize = .ok 21 := by decide +kernel
  have hlength : arrivingDelivery.payload.length = 600 := List.length_replicate
  refine ⟨arrivingTransfer false, rfl, ⟨⟨7⟩, arrivingTransfer false, arrivingDelivery.payload, 483, true⟩,
    2, SenderLink.startTransfer_room rfl hsize (by decide), ?_⟩
  simp only [TransferSplit.framesWithin, TransferSplit.next, hlength, List.length_drop, Nat.reduceGT,
    Nat.reduceSub, if_true, if_false]
  rfl

private def arrivingActions (part rest : Payload) : List SessionAction :=
  .incoming [] ⟨0, .flow
    { nextIncomingId := some 0, incomingWindow := 10, nextOutgoingId := 0, outgoingWindow := 10
      handle := none, deliveryCount := none, linkCredit := none, available := none
      drain := false, echo := false, properties := none }⟩ ::
    (arrivingFrames part rest).map (SessionAction.linkFrame · 0)

private def arrivingSession : Session := SessionBuilder.intoSession {} 0 .mapped LinkStore.empty

private theorem arrivingActions_handedOver (part rest : Payload) :
    arrivingSession.handedOverBy ⟨0⟩ (arrivingActions part rest) =
      [arrivingFrames part rest].flatten.filterMap LinkFrame.transfer? := rfl

private theorem arrivingActions_sent (part rest : Payload) :
    (Run.run Session.act arrivingSession
      (arrivingActions part rest)).1.remoteIncomingWindowExhaustedBuffer = [] := by
  with_unfolding_all rfl

private theorem arrivingActions_wellFormed (part rest : Payload) :
    ∀ action ∈ arrivingActions part rest, action.WellFormed := by
  simp [arrivingActions, arrivingFrames, SessionAction.WellFormed, LinkFrame.WellFormed,
    LinkFrame.transfer?, BufferedTransfer.WellFormed, arrivingTransfer,
    Transfer.clearContinuationFields]

private def arrivingReceiver : ReceiverInner where
  link :=
    { localState := .attached, outputHandle := some ⟨3⟩, rcvSettleMode := .first, maxMessageSize := 0
      flowState := ⟨0, 0, 1, 0, false, none⟩, unsettled := none, sessionStopReason := none }
  creditMode := .manual
  processed := 0
  autoAccept := false
  outgoing := { sent := [], closed := false }
  incompleteTransfer := none

private def closedAfterwards : Closing := ⟨.closed, .ok ()⟩

private def asBytes : Bytes → Except Unit Bytes := .ok

/-- A delivery of two transfers arrives. -/
theorem delivery_of_two_transfers_arrives :
    ∃ pieces : List Bytes,
      List.Forall₂ (Arrives asBytes ⟨3⟩) [arrivingDelivery]
        ((Run.run (ReceiverInner.receive asBytes closedAfterwards) arrivingReceiver
          (pieces.filterMap readTransfer)).2.filterMap delivered) := by
  have hdeliveries : ∀ delivery ∈ [arrivingDelivery], delivery.deliveryTag.length ≤ 32 ∧
      ReceiverInner.Within 0 delivery.payload ∧ ∃ message, asBytes delivery.payload = .ok message := by
    intro delivery hmem
    obtain rfl := List.mem_singleton.mp hmem
    exact ⟨by decide, .inl rfl, _, rfl⟩
  have hready : arrivingReceiver.Ready ⟨3⟩ 0 [arrivingDelivery].length :=
    ⟨rfl, rfl, rfl, rfl, rfl, by decide⟩
  have hafter : ∀ item ∈ (Run.run Session.act arrivingSession
      (arrivingActions (arrivingDelivery.payload.take 483)
        (arrivingDelivery.payload.drop 483))).1.remoteIncomingWindowExhaustedBuffer,
      item.transfer.handle ≠ 0 := by
    rw [arrivingActions_sent]
    simp
  obtain ⟨pieces, -, -, harrive⟩ := deliveries_arrive closedAfterwards rfl rfl (Nat.le_refl 508) hdeliveries
    (.cons arrivingSender_sends .nil) (arrivingActions_wellFormed _ _) (by simp [arrivingSession, SessionBuilder.intoSession])
    (arrivingActions_handedOver _ _) hafter hready
  exact ⟨pieces, harrive⟩

end Witness

end Fe2o3Amqp
