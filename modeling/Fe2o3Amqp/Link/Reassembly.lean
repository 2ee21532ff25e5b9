import Fe2o3Amqp.Link.Receiver

/-!
# Reassembly of deliveries

The receiver keeps one merged performative and the chunks of the delivery that is arriving.  Seen from
the outside a delivery is a stretch of the transfer frames of one attachment: the frames after the
last final or aborted one, up to the next.  The buffer of the receiver is exactly the merge of the
open stretch, and a delivery that is handed over is the merge of a whole one.
-/

namespace Fe2o3Amqp

abbrev TransferFrame := Transfer × Payload

/-- The frames of the delivery that is still open after a sequence of frames. -/
def openFrames (frames : List TransferFrame) : List TransferFrame :=
  frames.foldl
    (fun acc frame =>
      if frame.1.aborted then [] else if frame.1.more then acc ++ [frame] else [])
    []

theorem openFrames_snoc (frames : List TransferFrame) (frame : TransferFrame) :
    openFrames (frames ++ [frame]) =
      if frame.1.aborted then [] else if frame.1.more then openFrames frames ++ [frame] else [] := by
  simp [openFrames]

/-- The first value that a field is given by the frames of a delivery. -/
def fieldOf {α : Type} (field : Transfer → Option α) (frames : List TransferFrame) : Option α :=
  frames.findSome? fun frame => field frame.1

/-- Whether one of the frames is sent settled. -/
def anySettled (frames : List TransferFrame) : Bool :=
  frames.any fun frame => frame.1.settled == some true

def payloadOf (frames : List TransferFrame) : Payload := frames.flatMap Prod.snd

/-- A transfer repeats a field with another value than the one already set. -/
def Repeats {α : Type} (field : Transfer → Option α) (frames : List TransferFrame)
    (transfer : Transfer) : Prop :=
  ∃ value other, fieldOf field frames = some value ∧ field transfer = some other ∧ value ≠ other

instance {α : Type} [DecidableEq α] (field : Transfer → Option α) (frames : List TransferFrame)
    (transfer : Transfer) : Decidable (Repeats field frames transfer) :=
  decidable_of_iff (∃ value ∈ fieldOf field frames, ∃ other ∈ field transfer, value ≠ other) <| by
    simp [Repeats]

/-- A continuation that contradicts the delivery it continues. -/
def Conflicts (frames : List TransferFrame) (transfer : Transfer) : Prop :=
  Repeats (·.deliveryId) frames transfer ∨ Repeats (·.deliveryTag) frames transfer ∨
    Repeats (·.messageFormat) frames transfer

theorem fieldOf_append {α : Type} (field : Transfer → Option α) (frames : List TransferFrame)
    (frame : TransferFrame) :
    fieldOf field (frames ++ [frame]) = (fieldOf field frames).or (field frame.1) := by
  simp [fieldOf, List.findSome?_append]

/-! ## Merging -/

namespace IncompleteTransfer

variable {E : Type}

/-- The buffered delivery is the merge of the given frames. -/
structure Merges (incomplete : IncompleteTransfer) (frames : List TransferFrame) : Prop where
  identity : ∃ first rest id tag, frames = first :: rest ∧ first.1.deliveryId = some id ∧
    first.1.deliveryTag = some tag ∧ incomplete.deliveryTag = tag
  deliveryId : incomplete.performative.deliveryId = fieldOf (·.deliveryId) frames
  deliveryTag : incomplete.performative.deliveryTag = fieldOf (·.deliveryTag) frames
  messageFormat : incomplete.performative.messageFormat = fieldOf (·.messageFormat) frames
  settled : incomplete.performative.settled.getD false = anySettled frames
  buffer : incomplete.buffer = frames.map Prod.snd
  size : incomplete.accumulatedPayloadSize = (payloadOf frames).length

variable {incomplete : IncompleteTransfer} {frames : List TransferFrame} {transfer : Transfer}
  {payload : Payload}

theorem Merges.fieldOf_deliveryTag (h : incomplete.Merges frames) :
    fieldOf (·.deliveryTag) frames = some incomplete.deliveryTag := by
  obtain ⟨first, rest, id, tag, rfl, -, htag, rfl⟩ := h.identity
  simp [fieldOf, htag]

theorem Merges.ne_nil (h : incomplete.Merges frames) : frames ≠ [] := by
  obtain ⟨first, rest, id, tag, rfl, -⟩ := h.identity
  exact List.cons_ne_nil first rest

/-- Only a transfer that names another tag is not taken for the same delivery. -/
theorem Merges.isSameDeliveryAs (h : incomplete.Merges frames) (transfer : Transfer) :
    incomplete.isSameDeliveryAs transfer = true ↔ ¬Repeats (·.deliveryTag) frames transfer := by
  cases htag : transfer.deliveryTag with
  | none => simp [IncompleteTransfer.isSameDeliveryAs, Repeats, htag]
  | some remote =>
      have hrepeats : Repeats (·.deliveryTag) frames transfer ↔ incomplete.deliveryTag ≠ remote := by
        constructor
        · rintro ⟨value, other, hvalue, hother, hne⟩
          have hvalue' := h.fieldOf_deliveryTag.symm.trans hvalue
          have hother' := htag.symm.trans hother
          cases hvalue'
          cases hother'
          exact hne
        · exact fun hne => ⟨_, _, h.fieldOf_deliveryTag, htag, hne⟩
      rw [hrepeats, not_not]
      simp only [IncompleteTransfer.isSameDeliveryAs, htag, beq_iff_eq]
      exact eq_comm

theorem start_merges (h : start (E := E) transfer payload = .ok incomplete) :
    incomplete.Merges [(transfer, payload)] := by
  cases hid : transfer.deliveryId with
  | none => simp [start, hid] at h
  | some id =>
      cases htag : transfer.deliveryTag with
      | none => simp [start, hid, htag] at h
      | some tag =>
          simp only [start, hid, htag, reduceCtorEq, if_false, Except.ok.injEq] at h
          subst h
          exact
            { identity := ⟨_, [], id, tag, rfl, hid, htag, rfl⟩
              deliveryId := by simp [fieldOf]
              deliveryTag := by simp [fieldOf]
              messageFormat := by simp [fieldOf]
              settled := by
                cases hsettled : transfer.settled with
                | none => simp [anySettled, hsettled]
                | some value => cases value <;> simp [anySettled, hsettled]
              buffer := rfl
              size := by simp [payloadOf] }

private theorem orAssignField_ok {α : Type} [DecidableEq α] {value other result : Option α}
    (h : orAssignField (E := E) value other = .ok result) : result = value.or other := by
  cases value <;> cases other <;> simp only [orAssignField, Except.ok.injEq] at h
  · exact h.symm
  · exact h.symm
  · exact h.symm
  · split at h
    · cases h
    · cases h
      rfl

private theorem orAssignField_error_iff {α : Type} [DecidableEq α] {value other : Option α} :
    (∃ e, orAssignField (E := E) value other = .error e) ↔
      ∃ v o, value = some v ∧ other = some o ∧ v ≠ o := by
  cases value with
  | none => simp [orAssignField]
  | some v =>
      cases other with
      | none => simp [orAssignField]
      | some o => by_cases heq : v = o <;> simp [orAssignField, heq]

private theorem orSettled_getD (settled other : Option Bool) :
    (orSettled settled other).getD false = (settled.getD false || other == some true) := by
  rcases settled with _ | _ | _ <;> rcases other with _ | _ | _ <;> rfl

/-- What a successful merge of two performatives looks like. -/
private theorem orAssign_ok {performative other merged : Transfer}
    (h : orAssign (E := E) performative other = .ok merged) :
    merged = { performative with
      deliveryId := performative.deliveryId.or other.deliveryId
      deliveryTag := performative.deliveryTag.or other.deliveryTag
      messageFormat := performative.messageFormat.or other.messageFormat
      settled := orSettled performative.settled other.settled
      state := orState performative.state other.state } := by
  simp only [orAssign, bind, Except.bind, pure, Except.pure] at h
  split at h
  · cases h
  · next hid =>
      split at h
      · cases h
      · next htag =>
          split at h
          · cases h
          · next hformat =>
              cases h
              rw [orAssignField_ok hid, orAssignField_ok htag, orAssignField_ok hformat]

private theorem orAssign_error_iff {performative other : Transfer} :
    (∃ e, orAssign (E := E) performative other = .error e) ↔
      (∃ e, orAssignField (E := E) performative.deliveryId other.deliveryId = .error e) ∨
      (∃ e, orAssignField (E := E) performative.deliveryTag other.deliveryTag = .error e) ∨
      (∃ e, orAssignField (E := E) performative.messageFormat other.messageFormat = .error e) := by
  simp only [orAssign, bind, Except.bind, pure, Except.pure]
  cases orAssignField (E := E) performative.deliveryId other.deliveryId <;>
    cases orAssignField (E := E) performative.deliveryTag other.deliveryTag <;>
      cases orAssignField (E := E) performative.messageFormat other.messageFormat <;> simp

theorem Merges.tryAppend (h : incomplete.Merges frames) {incomplete' : IncompleteTransfer}
    (happend : incomplete.tryAppend (E := E) transfer payload = .ok incomplete') :
    incomplete'.Merges (frames ++ [(transfer, payload)]) := by
  simp only [IncompleteTransfer.tryAppend] at happend
  split at happend
  · cases happend
  · split at happend
    · cases happend
    · next performative hmerge =>
        have hmerged := orAssign_ok hmerge
        cases happend
        subst hmerged
        obtain ⟨first, rest, id, tag, rfl, hid, htag, htag'⟩ := h.identity
        exact
          { identity := ⟨first, rest ++ [(transfer, payload)], id, tag, rfl, hid, htag, htag'⟩
            deliveryId := by rw [fieldOf_append, ← h.deliveryId]; rfl
            deliveryTag := by rw [fieldOf_append, ← h.deliveryTag]; rfl
            messageFormat := by rw [fieldOf_append, ← h.messageFormat]; rfl
            settled := by
              have hold := h.settled
              simp only [append, orSettled_getD, hold, anySettled, List.any_append, List.any_cons,
                List.any_nil, Bool.or_false]
            buffer := by
              simp only [append, h.buffer, List.map_append, List.map_cons, List.map_nil]
            size := by
              simp only [append, h.size, payloadOf, List.flatMap_append, List.flatMap_cons,
                List.flatMap_nil, List.append_nil, List.length_append] }

/-- A continuation is refused exactly when it conflicts with the frames before it. -/
theorem Merges.tryAppend_error_iff (h : incomplete.Merges frames) (transfer : Transfer)
    (payload : Payload) :
    (∃ e, incomplete.tryAppend (E := E) transfer payload = .error e) ↔
      Conflicts frames transfer := by
  have hfields : (∃ e, orAssign (E := E) incomplete.performative transfer = .error e) ↔
      Conflicts frames transfer := by
    rw [orAssign_error_iff, orAssignField_error_iff, orAssignField_error_iff,
      orAssignField_error_iff, h.deliveryId, h.deliveryTag, h.messageFormat]
    rfl
  rw [← hfields]
  simp only [IncompleteTransfer.tryAppend]
  by_cases hsame : incomplete.isSameDeliveryAs transfer = true
  · simp only [hsame, Bool.not_true, Bool.false_eq_true, if_false]
    cases orAssign (E := E) incomplete.performative transfer <;> simp
  · have hrepeats : Repeats (·.deliveryTag) frames transfer := by
      have := mt (h.isSameDeliveryAs transfer).mpr hsame
      exact not_not.mp this
    have hconflict : ∃ e, orAssign (E := E) incomplete.performative transfer = .error e :=
      hfields.mpr (Or.inr (Or.inl hrepeats))
    simp [hsame, hconflict]

end IncompleteTransfer

/-! ## Closing -/

namespace ReceiverInner

variable {M E : Type} {r : ReceiverInner}

/-- The receiver has begun to close the link: its closing Detach is handed over, or the link waits for
a session that does not take one. -/
def Closes (r r' : ReceiverInner) : Prop :=
  (∃ detach, detach.closed = true ∧ r'.outgoing.sent = r.outgoing.sent ++ [.detach detach]) ∨
    r'.link.localState = .closeSent

/-- The attachment goes on: the link is attached, and no Detach was handed over. -/
def goesOn (r r' : ReceiverInner) : Bool :=
  r'.link.localState = .attached && r'.outgoing.detaches = r.outgoing.detaches

theorem Closes.not_goesOn {r' : ReceiverInner} (h : r.Closes r') : r.goesOn r' = false := by
  rw [goesOn]
  rcases h with ⟨detach, -, hsent⟩ | hstate
  · simp [LinkWriter.detaches, hsent, LinkFrame.isDetach]
  · simp [hstate]

/-- An attached link that the receiver closes is being closed, however the handshake ends. -/
theorem closeWithError_closes (h : r.link.localState = .attached) (closing : Closing)
    (error : Option Error) : r.Closes (r.closeWithError closing error).2 := by
  simp only [closeWithError, h]
  split
  · exact .inr rfl
  · split
    · exact .inr rfl
    · next outgoing hsend =>
        simp only [LinkWriter.send] at hsend
        split_ifs at hsend
        cases hsend
        exact .inl ⟨_, rfl, rfl⟩

theorem closeWithError_incompleteTransfer (r : ReceiverInner) (closing : Closing)
    (error : Option Error) :
    (r.closeWithError closing error).2.incompleteTransfer = r.incompleteTransfer := by
  simp only [closeWithError]
  split
  · split
    · rfl
    · split <;> rfl
  all_goals rfl

/-- The answer to a frame that the receiver closes the link for. -/
def Refused (r : ReceiverInner) (out : Except (RecvError E) (Option (Delivery M)) × ReceiverInner) :
    Prop :=
  (∃ e, out.1 = .error e) ∧ r.Closes out.2

theorem Refused.ne_ok {out : Except (RecvError E) (Option (Delivery M)) × ReceiverInner}
    (h : r.Refused out) (delivery : Option (Delivery M)) : out.1 ≠ .ok delivery := by
  obtain ⟨⟨e, he⟩, -⟩ := h
  rw [he]
  exact nofun

theorem closeOnMalformedDelivery_closes (h : r.link.localState = .attached) (closing : Closing)
    (error : ReceiverTransferError E) : r.Closes (r.closeOnMalformedDelivery closing error).2 :=
  closeWithError_closes h closing _

theorem closeOnMessageSizeExceeded_closes (h : r.link.localState = .attached) (closing : Closing)
    (totalSize : Nat) (maxSize : UInt64) :
    r.Closes (r.closeOnMessageSizeExceeded (E := E) closing totalSize maxSize).2 := by
  have hr : ({ r with incompleteTransfer := none } : ReceiverInner).link.localState = .attached := h
  exact closeWithError_closes hr closing _

/-- Only an exceeded size is reported as one. -/
theorem closeOnMalformedDelivery_ne (r : ReceiverInner) (closing : Closing)
    (error : ReceiverTransferError E) (exceeded : MessageSizeExceeded) :
    (r.closeOnMalformedDelivery closing error).1 ≠ .messageSizeExceeded exceeded := by
  simp only [closeOnMalformedDelivery, closed]
  split
  · cases error <;> simp [RecvError.ofReceiverTransferError]
  · simp

/-! ## One frame -/

/-- One transfer, and what the application gets. -/
def receive (decode : Bytes → Except E M) (closing : Closing) (r : ReceiverInner)
    (frame : TransferFrame) : ReceiverInner × List (Except (RecvError E) (Option (Delivery M))) :=
  let out := r.onIncomingTransfer decode closing frame.1 frame.2
  (out.2, [out.1])

theorem receive_eq {decode : Bytes → Except E M} {closing : Closing} {transfer : Transfer}
    {payload : Payload} {result : Except (RecvError E) (Option (Delivery M))} {r' : ReceiverInner}
    (h : r.onIncomingTransfer decode closing transfer payload = (result, r')) :
    r.receive decode closing (transfer, payload) = (r', [result]) := by
  simp only [receive, h]

/-- The link takes over a delivery: the merged fields and the decoded payload, and an entry in the
unsettled map unless the sender settled it. -/
theorem onCompleteTransfer_ok {decode : Bytes → Except E M} {link link' : ReceiverLink}
    {transfer : Transfer} {payload : List Payload} {number : UInt32} {offset : UInt64}
    {delivery : Delivery M}
    (h : link.onCompleteTransfer decode transfer payload number offset = (.ok delivery, link')) :
    transfer.deliveryId = some delivery.deliveryId ∧
      transfer.deliveryTag = some delivery.deliveryTag ∧
      delivery.messageFormat = transfer.messageFormat ∧
      decode payload.flatten = .ok delivery.message ∧
      (transfer.settled.getD false = true → delivery.rcvSettleMode = none) ∧
      link'.unsettled =
        if transfer.settled.getD false then link.unsettled
        else (link.insertUnsettled delivery.deliveryTag (some (.received ⟨number, offset⟩))).unsettled := by
  have hover : ∀ {link : ReceiverLink} {info : DeliveryInfo} {format : Option MessageFormat}
      {result : Except E M}, link.handOver info format result = .ok delivery →
      delivery.deliveryId = info.deliveryId ∧ delivery.deliveryTag = info.deliveryTag ∧
        delivery.messageFormat = format ∧ result = .ok delivery.message ∧
        delivery.rcvSettleMode = info.rcvSettleMode := by
    intro link info format result hresult
    simp only [ReceiverLink.handOver] at hresult
    split at hresult
    · cases hresult
    · split at hresult
      · cases hresult
      · cases hresult
        exact ⟨rfl, rfl, rfl, rfl, rfl⟩
  simp only [ReceiverLink.onCompleteTransfer] at h
  split at h
  · cases h
  · split at h
    · cases h
    · next link₁ hconsume =>
        have hunsettled : link₁.unsettled = link.unsettled := by
          simp only [ReceiverLink.consume] at hconsume
          split at hconsume
          · cases hconsume
          · cases hconsume
            rfl
        split at h
        · cases h
        · cases h
        · next deliveryId deliveryTag hid htag =>
            split at h
            · next hsettled =>
                simp only [Prod.mk.injEq] at h
                obtain ⟨hresult, rfl⟩ := h
                obtain ⟨hdid, hdtag, hformat, hdecode, hmode⟩ := hover hresult
                simp [hid, htag, hdid, hdtag, hformat, hdecode, hmode, hsettled, hunsettled]
            · next hsettled =>
                split at h
                · cases h
                · simp only [Prod.mk.injEq] at h
                  obtain ⟨hresult, rfl⟩ := h
                  obtain ⟨hdid, hdtag, hformat, hdecode, hmode⟩ := hover hresult
                  simp [hid, htag, hdid, hdtag, hformat, hdecode, hsettled,
                    ReceiverLink.insertUnsettled, hunsettled]

/-- In auto-accept mode the receiver disposes of a delivery at once. -/
def accepting (r : ReceiverInner) (info : DeliveryInfo) : ReceiverInner :=
  if r.autoAccept then (r.dispose info none .accepted).2 else r

theorem complete_ok {decode : Bytes → Except E M} {transfer : Transfer}
    {payload : List Payload} {number : UInt32} {offset : UInt64} {delivery : Delivery M}
    {r' : ReceiverInner}
    (h : r.complete decode transfer payload number offset = (.ok (some delivery), r')) :
    ∃ link, r.link.onCompleteTransfer decode transfer payload number offset = (.ok delivery, link) ∧
      r' = (r.withLink link).accepting delivery.info := by
  simp only [complete] at h
  split at h
  · cases h
  · next delivery' link hlink =>
      split at h
      · next hauto =>
          split at h
          · cases h
          · next heq =>
              cases h
              refine ⟨link, hlink, ?_⟩
              rw [accepting, if_pos hauto, heq]
      · next hauto =>
          cases h
          refine ⟨link, hlink, ?_⟩
          rw [accepting, if_neg hauto]

/-- The receiver buffers exactly the frames of the open delivery. -/
def Buffers (r : ReceiverInner) (frames : List TransferFrame) : Prop :=
  match r.incompleteTransfer with
  | none => frames = []
  | some incomplete => incomplete.Merges frames

/-- What the application gets, and the receiver it leaves behind: a delivery that no frame settled
is in the unsettled map when it is handed over (and is then accepted in auto-accept mode). -/
structure HandsOver (decode : Bytes → Except E M) (r : ReceiverInner) (frames : List TransferFrame)
    (delivery : Delivery M) (r' : ReceiverInner) : Prop where
  payload : decode (payloadOf frames) = .ok delivery.message
  identity : ∃ first rest, frames = first :: rest ∧
    first.1.deliveryId = some delivery.deliveryId ∧ first.1.deliveryTag = some delivery.deliveryTag
  messageFormat : delivery.messageFormat = fieldOf (·.messageFormat) frames
  settled : ∃ link number offset,
    r' = ({ r with incompleteTransfer := none }.withLink link).accepting delivery.info ∧
    link.unsettled =
      if anySettled frames then r.link.unsettled
      else (r.link.insertUnsettled delivery.deliveryTag (some (.received ⟨number, offset⟩))).unsettled
  mode : anySettled frames = true → delivery.rcvSettleMode = none

variable {frames : List TransferFrame} {transfer : Transfer} {payload : Payload}

private theorem anySettled_singleton (transfer : Transfer) (payload : Payload) :
    anySettled [(transfer, payload)] = transfer.settled.getD false := by
  rcases h : transfer.settled with _ | _ | _ <;> simp [anySettled, h]

theorem onCompleteTransfer_handsOver {decode : Bytes → Except E M} (hbuffers : r.Buffers frames)
    {closing : Closing} {delivery : Delivery M} {r' : ReceiverInner}
    (h : r.onCompleteTransfer decode closing transfer payload = (.ok (some delivery), r')) :
    HandsOver decode r (frames ++ [(transfer, payload)]) delivery r' := by
  cases hincomplete : r.incompleteTransfer with
  | none =>
      have hempty : frames = [] := by simpa [Buffers, hincomplete] using hbuffers
      subst hempty
      have hr : ({ r with incompleteTransfer := none } : ReceiverInner) = r := by
        rw [← hincomplete]
      simp only [onCompleteTransfer, hincomplete, completeSingle] at h
      split at h
      · cases h
      · obtain ⟨link, hlink, rfl⟩ := complete_ok h
        obtain ⟨hid, htag, hformat, hdecode, hmode, hunsettled⟩ := onCompleteTransfer_ok hlink
        simp only [List.nil_append]
        rw [← anySettled_singleton transfer payload] at hmode hunsettled
        refine ⟨?_, ⟨_, [], rfl, hid, htag⟩, ?_, ⟨link, _, _, by rw [hr], hunsettled⟩, hmode⟩
        · simpa [payloadOf] using hdecode
        · simpa [fieldOf] using hformat
  | some incomplete =>
      have hmerges : incomplete.Merges frames := by simpa [Buffers, hincomplete] using hbuffers
      simp only [onCompleteTransfer, hincomplete] at h
      split at h
      · cases h
      · next incomplete' happend =>
          have hmerges' := hmerges.tryAppend happend
          obtain ⟨link, hlink, rfl⟩ := complete_ok h
          obtain ⟨hid, htag, hformat, hdecode, hmode, hunsettled⟩ := onCompleteTransfer_ok hlink
          obtain ⟨first, rest, id, tag, hfirst, hfirstId, hfirstTag, -⟩ := hmerges'.identity
          have hidEq : some id = some delivery.deliveryId := by
            rw [← hid, hmerges'.deliveryId, hfirst, ← hfirstId]
            simp [fieldOf, hfirstId]
          have htagEq : some tag = some delivery.deliveryTag := by
            rw [← htag, hmerges'.deliveryTag, hfirst, ← hfirstTag]
            simp [fieldOf, hfirstTag]
          have hpayload : incomplete'.buffer.flatten = payloadOf (frames ++ [(transfer, payload)]) := by
            rw [hmerges'.buffer, payloadOf, List.flatMap]
          rw [hmerges'.settled] at hmode hunsettled
          refine ⟨?_, ⟨first, rest, hfirst, hfirstId.trans hidEq, hfirstTag.trans htagEq⟩, ?_,
            ⟨link, _, _, rfl, hunsettled⟩, hmode⟩
          · rw [← hpayload]
            exact hdecode
          · rw [hformat, hmerges'.messageFormat]

/-- The size of the delivery with this frame; a frame that names another tag counts alone. -/
def deliverySize (frames : List TransferFrame) (transfer : Transfer) (payload : Payload) : Nat :=
  (if Repeats (·.deliveryTag) frames transfer then 0 else (payloadOf frames).length) + payload.length

/-- The frame makes the delivery larger than the link allows. -/
def Exceeds (r : ReceiverInner) (frames : List TransferFrame) (transfer : Transfer)
    (payload : Payload) : Prop :=
  r.link.maxMessageSize ≠ 0 ∧ r.link.maxMessageSize.toNat < deliverySize frames transfer payload

theorem Buffers.accumulatedMessageSize (h : r.Buffers frames) (transfer : Transfer)
    (payload : Payload) :
    r.accumulatedMessageSize transfer + payload.length = deliverySize frames transfer payload := by
  cases hincomplete : r.incompleteTransfer with
  | none =>
      have hempty : frames = [] := by simpa [Buffers, hincomplete] using h
      simp [ReceiverInner.accumulatedMessageSize, hincomplete, deliverySize, hempty, payloadOf]
  | some incomplete =>
      have hmerges : incomplete.Merges frames := by simpa [Buffers, hincomplete] using h
      have hsame := hmerges.isSameDeliveryAs transfer
      by_cases hrepeats : Repeats (·.deliveryTag) frames transfer
      · simp [ReceiverInner.accumulatedMessageSize, hincomplete, deliverySize, hrepeats, hsame]
      · simp [ReceiverInner.accumulatedMessageSize, hincomplete, deliverySize, hrepeats, hsame,
          hmerges.size]

theorem Buffers.matchesBuffer (h : r.Buffers frames) (transfer : Transfer) :
    r.matchesBuffer transfer = true ↔
      frames ≠ [] ∧ ¬Repeats (·.deliveryTag) frames transfer := by
  cases hincomplete : r.incompleteTransfer with
  | none =>
      have hempty : frames = [] := by simpa [Buffers, hincomplete] using h
      simp [ReceiverInner.matchesBuffer, hincomplete, hempty]
  | some incomplete =>
      have hmerges : incomplete.Merges frames := by simpa [Buffers, hincomplete] using h
      simp [ReceiverInner.matchesBuffer, hincomplete, hmerges.ne_nil, hmerges.isSameDeliveryAs]

section Frame

variable (decode : Bytes → Except E M) (closing : Closing)

theorem onIncomingTransfer_aborted (payload : Payload) (hbuffers : r.Buffers frames)
    (hattached : r.link.localState = .attached) (haborted : transfer.aborted = true) :
    let out := r.onIncomingTransfer decode closing transfer payload
    if Repeats (·.deliveryTag) frames transfer then r.Refused out
    else out.1 = .ok none ∧ out.2.incompleteTransfer = none := by
  have hmatches := hbuffers.matchesBuffer transfer
  simp only [onIncomingTransfer, haborted, if_true, onAbortedTransfer]
  cases hincomplete : r.incompleteTransfer with
  | none =>
      have hempty : frames = [] := by simpa [Buffers, hincomplete] using hbuffers
      subst hempty
      simp [Repeats, fieldOf, hincomplete]
  | some incomplete =>
      have hmerges : incomplete.Merges frames := by simpa [Buffers, hincomplete] using hbuffers
      by_cases hrepeats : Repeats (·.deliveryTag) frames transfer
      · have hother : r.matchesBuffer transfer = false := by simpa [hrepeats] using hmatches
        simp only [hrepeats, if_true, hother, Bool.not_false]
        exact ⟨⟨_, rfl⟩, closeOnMalformedDelivery_closes hattached closing _⟩
      · have hsame : r.matchesBuffer transfer = true := by
          simpa [hrepeats, hmerges.ne_nil] using hmatches
        simp [hrepeats, hsame]

/-- The size of an aborted transfer is not looked at. -/
theorem onIncomingTransfer_aborted_ne (r : ReceiverInner) (payload : Payload)
    (haborted : transfer.aborted = true) (exceeded : MessageSizeExceeded) :
    (r.onIncomingTransfer decode closing transfer payload).1 ≠
      .error (.messageSizeExceeded exceeded) := by
  simp only [onIncomingTransfer, haborted, if_true, onAbortedTransfer]
  split
  · simp
  · split
    · intro heq
      exact closeOnMalformedDelivery_ne r closing _ exceeded (Except.error.inj heq)
    · simp

/-- A plain frame is not aborted, resumes nothing and carries no state: only its size, its flags and
its fields decide. -/
theorem onIncomingTransfer_takeIn (payload : Payload) (haborted : transfer.aborted = false)
    (hresume : transfer.resume = false) (hstate : transfer.state = none) :
    r.onIncomingTransfer decode closing transfer payload =
      r.takeIn decode closing transfer payload (r.matchesBuffer transfer) := by
  simp [onIncomingTransfer, haborted, hresume, hstate]

theorem takeIn_exceeds (hbuffers : r.Buffers frames) (h : r.Exceeds frames transfer payload)
    (matchesBuffer : Bool) :
    r.takeIn decode closing transfer payload matchesBuffer =
      (.error (r.closeOnMessageSizeExceeded closing (deliverySize frames transfer payload)
          r.link.maxMessageSize).1,
        (r.closeOnMessageSizeExceeded (E := E) closing (deliverySize frames transfer payload)
          r.link.maxMessageSize).2) := by
  obtain ⟨hlimit, hexceeds⟩ := h
  simp [takeIn, hbuffers.accumulatedMessageSize, ReceiverLink.maxMessageSize?, hlimit,
    Option.filter, hexceeds]

private theorem not_exceeds_filter (h : ¬r.Exceeds frames transfer payload) :
    r.link.maxMessageSize?.filter (deliverySize frames transfer payload > ·.toNat) = none := by
  by_cases hzero : r.link.maxMessageSize = 0
  · simp [ReceiverLink.maxMessageSize?, hzero]
  · have hle : ¬r.link.maxMessageSize.toNat < deliverySize frames transfer payload :=
      fun hlt => h ⟨hzero, hlt⟩
    simp only [ReceiverLink.maxMessageSize?, hzero, if_false, Option.filter, hle, decide_false,
      Bool.false_eq_true]

theorem takeIn_more (hbuffers : r.Buffers frames) (h : ¬r.Exceeds frames transfer payload)
    (hmore : transfer.more = true) (matchesBuffer : Bool) :
    r.takeIn decode closing transfer payload matchesBuffer =
      ((r.onIncompleteTransfer closing transfer payload).1.map fun _ => none,
        (r.onIncompleteTransfer (E := E) closing transfer payload).2) := by
  simp only [takeIn, hbuffers.accumulatedMessageSize, not_exceeds_filter h, hmore, if_true]
  split
  · next heq => rw [heq]; rfl
  · next heq => rw [heq]; rfl

theorem takeIn_final (hbuffers : r.Buffers frames) (h : ¬r.Exceeds frames transfer payload)
    (hmore : transfer.more = false) (hresume : transfer.resume = false) (matchesBuffer : Bool) :
    r.takeIn decode closing transfer payload matchesBuffer =
      r.onCompleteTransfer decode closing transfer payload := by
  simp only [takeIn, hbuffers.accumulatedMessageSize, not_exceeds_filter h, hmore, hresume,
    Bool.false_and, Bool.false_eq_true, if_false]

/-- A partial frame is buffered, or it is refused. -/
theorem onIncompleteTransfer_spec (transfer : Transfer) (payload : Payload)
    (hbuffers : r.Buffers frames) (hattached : r.link.localState = .attached) :
    let out := r.onIncompleteTransfer (E := E) closing transfer payload
    ((∃ e, out.1 = .error e ∧ ∀ exceeded, e ≠ .messageSizeExceeded exceeded) ∧
        r.Closes out.2) ∨
      (out.1 = .ok () ∧ ¬Conflicts frames transfer ∧
        out.2.Buffers (frames ++ [(transfer, payload)])) := by
  intro out
  cases hincomplete : r.incompleteTransfer with
  | none =>
      have hempty : frames = [] := by simpa [Buffers, hincomplete] using hbuffers
      subst hempty
      have hnot : ¬Conflicts [] transfer := by simp [Conflicts, Repeats, fieldOf]
      cases hstart : IncompleteTransfer.start (E := E) transfer payload with
      | error e =>
          left
          simp only [out, onIncompleteTransfer, hincomplete, hstart]
          exact ⟨⟨_, rfl, closeOnMalformedDelivery_ne r closing e⟩,
            closeOnMalformedDelivery_closes hattached closing e⟩
      | ok incomplete =>
          right
          simp only [out, onIncompleteTransfer, hincomplete, hstart]
          exact ⟨trivial, hnot, IncompleteTransfer.start_merges hstart⟩
  | some incomplete =>
      have hmerges : incomplete.Merges frames := by simpa [Buffers, hincomplete] using hbuffers
      cases happend : incomplete.tryAppend (E := E) transfer payload with
      | error e =>
          left
          simp only [out, onIncompleteTransfer, hincomplete, happend]
          exact ⟨⟨_, rfl, closeOnMalformedDelivery_ne r closing e⟩,
            closeOnMalformedDelivery_closes hattached closing e⟩
      | ok incomplete' =>
          right
          simp only [out, onIncompleteTransfer, hincomplete, happend]
          refine ⟨trivial, ?_, hmerges.tryAppend happend⟩
          intro hconflict
          obtain ⟨e, herror⟩ := (hmerges.tryAppend_error_iff (E := E) transfer payload).mpr hconflict
          rw [happend] at herror
          cases herror

theorem complete_spec (r : ReceiverInner) (transfer : Transfer) (payload : List Payload)
    (number : UInt32) (offset : UInt64) :
    let out := r.complete decode transfer payload number offset
    (∀ exceeded, out.1 ≠ .error (.messageSizeExceeded exceeded)) ∧
      out.2.incompleteTransfer = r.incompleteTransfer := by
  have hdispose : ∀ (r : ReceiverInner) (info : DeliveryInfo),
      (r.dispose info none .accepted).2.incompleteTransfer = r.incompleteTransfer := by
    intro r info
    simp only [dispose]
    split
    · rfl
    · simp only [updateCreditIfAuto]
      split
      · rfl
      · split
        · split <;> rfl
        · rfl
  simp only [complete]
  split
  · next e link heq =>
      refine ⟨fun exceeded => ?_, rfl⟩
      cases e <;> simp [RecvError.ofReceiverTransferError]
  · next delivery link heq =>
      have hafter := hdispose (r.withLink link) delivery.info
      split
      · split
        · next hfail =>
            rw [hfail] at hafter
            exact ⟨by simp, hafter⟩
        · next hok =>
            rw [hok] at hafter
            exact ⟨by simp, hafter⟩
      · exact ⟨by simp, rfl⟩

/-- A final frame empties the buffer; it is refused if it conflicts with the frames before it. -/
theorem onCompleteTransfer_spec (transfer : Transfer) (payload : Payload)
    (hbuffers : r.Buffers frames) (hattached : r.link.localState = .attached) :
    let out := r.onCompleteTransfer decode closing transfer payload
    (∀ exceeded, out.1 ≠ .error (.messageSizeExceeded exceeded)) ∧
      (Conflicts frames transfer → r.Refused out) ∧
      out.2.incompleteTransfer = none := by
  intro out
  cases hincomplete : r.incompleteTransfer with
  | none =>
      have hempty : frames = [] := by simpa [Buffers, hincomplete] using hbuffers
      subst hempty
      have hnot : ¬Conflicts [] transfer := by simp [Conflicts, Repeats, fieldOf]
      cases hidentity : ensureDeliveryIdentity (E := E) transfer with
      | error e =>
          simp only [out, onCompleteTransfer, hincomplete, completeSingle, hidentity]
          refine ⟨fun exceeded heq => ?_, fun h => absurd h hnot, ?_⟩
          · exact closeOnMalformedDelivery_ne r closing e exceeded (Except.error.inj heq)
          · exact (closeWithError_incompleteTransfer r closing _).trans hincomplete
      | ok _ =>
          simp only [out, onCompleteTransfer, hincomplete, completeSingle, hidentity]
          obtain ⟨hsize, hbuffer⟩ := complete_spec decode r transfer [payload]
            (countNumberOfSectionsAndOffset payload).1 (countNumberOfSectionsAndOffset payload).2
          exact ⟨hsize, fun h => absurd h hnot, hbuffer.trans hincomplete⟩
  | some incomplete =>
      have hmerges : incomplete.Merges frames := by simpa [Buffers, hincomplete] using hbuffers
      have htaken : ({ r with incompleteTransfer := none } : ReceiverInner).link.localState =
          .attached := hattached
      cases happend : incomplete.tryAppend (E := E) transfer payload with
      | error e =>
          simp only [out, onCompleteTransfer, hincomplete, happend]
          refine ⟨fun exceeded heq => ?_, fun _ => ⟨⟨_, rfl⟩, ?_⟩, ?_⟩
          · exact closeOnMalformedDelivery_ne _ closing e exceeded (Except.error.inj heq)
          · exact closeOnMalformedDelivery_closes htaken closing e
          · exact closeWithError_incompleteTransfer _ closing _
      | ok incomplete' =>
          simp only [out, onCompleteTransfer, hincomplete, happend]
          obtain ⟨hsize, hbuffer⟩ := complete_spec decode
            { r with incompleteTransfer := none } incomplete'.performative incomplete'.buffer
            incomplete'.sectionNumber incomplete'.sectionOffset
          refine ⟨hsize, fun hconflict => ?_, hbuffer⟩
          obtain ⟨e, herror⟩ :=
            (hmerges.tryAppend_error_iff (E := E) transfer payload).mpr hconflict
          rw [happend] at herror
          cases herror

/-- What one frame does to a receiver that buffers the frames before it. -/
structure Reassembles (decode : Bytes → Except E M) (closing : Closing) (r : ReceiverInner)
    (before : List TransferFrame) (transfer : Transfer) (payload : Payload)
    (out : Except (RecvError E) (Option (Delivery M)) × ReceiverInner) : Prop where
  /-- Only a final frame hands a delivery over. -/
  delivers : ∀ delivery, out.1 = .ok (some delivery) → transfer.aborted = false ∧
    transfer.more = false ∧ r.HandsOver decode (before ++ [(transfer, payload)]) delivery out.2
  conflicts : transfer.aborted = false → Conflicts before transfer → r.Refused out
  exceeds : transfer.aborted = false → r.Exceeds before transfer payload →
    r.Refused out ∧ out.2.incompleteTransfer = none ∧
      out.1 = .error (r.closeOnMessageSizeExceeded closing (deliverySize before transfer payload)
        r.link.maxMessageSize).1
  sizeError : ∀ exceeded, out.1 = .error (.messageSizeExceeded exceeded) →
    transfer.aborted = false ∧ r.Exceeds before transfer payload
  aborts : transfer.aborted = true →
    if Repeats (·.deliveryTag) before transfer then r.Refused out
    else out.1 = .ok none ∧ out.2.incompleteTransfer = none
  /-- While the attachment goes on, the open frames are buffered. -/
  buffers : r.goesOn out.2 = true →
    out.2.Buffers
      (if transfer.aborted then [] else if transfer.more then before ++ [(transfer, payload)] else [])

theorem buffers_nil (h : r.incompleteTransfer = none) : r.Buffers [] := by
  simp [Buffers, h]

theorem aborted_reassembles (payload : Payload) (hbuffers : r.Buffers frames)
    (hattached : r.link.localState = .attached) (haborted : transfer.aborted = true) :
    Reassembles decode closing r frames transfer payload
      (r.onIncomingTransfer decode closing transfer payload) := by
  have hspec := onIncomingTransfer_aborted decode closing payload hbuffers hattached haborted
  have hsize := onIncomingTransfer_aborted_ne decode closing r payload haborted
  refine ⟨fun delivery hdelivery => ?_, ?_, ?_, fun exceeded h => absurd h (hsize exceeded),
    fun _ => hspec, fun hgoesOn => ?_⟩
  · dsimp only at hspec
    split at hspec
    · exact absurd hdelivery (hspec.ne_ok _)
    · rw [hspec.1] at hdelivery
      cases hdelivery
  · simp [haborted]
  · simp [haborted]
  · rw [if_pos haborted]
    dsimp only at hspec
    split at hspec
    · rw [hspec.2.not_goesOn] at hgoesOn
      cases hgoesOn
    · exact buffers_nil hspec.2

theorem exceeding_reassembles (hbuffers : r.Buffers frames) (hattached : r.link.localState = .attached)
    (haborted : transfer.aborted = false) (hexceeds : r.Exceeds frames transfer payload)
    (matchesBuffer : Bool) :
    Reassembles decode closing r frames transfer payload
      (r.takeIn decode closing transfer payload matchesBuffer) := by
  rw [takeIn_exceeds decode closing hbuffers hexceeds]
  have hcloses := closeOnMessageSizeExceeded_closes (E := E) hattached closing
    (deliverySize frames transfer payload) r.link.maxMessageSize
  refine ⟨nofun, fun _ _ => ⟨⟨_, rfl⟩, hcloses⟩, fun _ _ => ⟨⟨⟨_, rfl⟩, hcloses⟩, ?_, rfl⟩,
    fun _ _ => ⟨haborted, hexceeds⟩, ?_, fun hgoesOn => ?_⟩
  · exact closeWithError_incompleteTransfer _ closing _
  · simp [haborted]
  · rw [hcloses.not_goesOn] at hgoesOn
    cases hgoesOn

theorem partial_reassembles (hbuffers : r.Buffers frames) (hattached : r.link.localState = .attached)
    (haborted : transfer.aborted = false) (hexceeds : ¬r.Exceeds frames transfer payload)
    (hmore : transfer.more = true) (matchesBuffer : Bool) :
    Reassembles decode closing r frames transfer payload
      (r.takeIn decode closing transfer payload matchesBuffer) := by
  rw [takeIn_more decode closing hbuffers hexceeds hmore]
  rcases onIncompleteTransfer_spec (E := E) closing transfer payload hbuffers hattached with
    ⟨⟨e, herror, hsize⟩, hcloses⟩ | ⟨hok, hconflict, hbuffered⟩
  · rw [herror]
    refine ⟨nofun, fun _ _ => ⟨⟨e, rfl⟩, hcloses⟩, fun _ h => absurd h hexceeds, ?_, ?_,
      fun hgoesOn => ?_⟩
    · exact fun exceeded hexceeded => absurd (Except.error.inj hexceeded) (hsize exceeded)
    · simp [haborted]
    · rw [hcloses.not_goesOn] at hgoesOn
      cases hgoesOn
  · rw [hok]
    refine ⟨nofun, fun _ h => absurd h hconflict, fun _ h => absurd h hexceeds, nofun, ?_, fun _ => ?_⟩
    · simp [haborted]
    · simpa [haborted, hmore] using hbuffered

theorem final_reassembles (hbuffers : r.Buffers frames) (hattached : r.link.localState = .attached)
    (haborted : transfer.aborted = false) (hexceeds : ¬r.Exceeds frames transfer payload)
    (hmore : transfer.more = false) (hresume : transfer.resume = false) (matchesBuffer : Bool) :
    Reassembles decode closing r frames transfer payload
      (r.takeIn decode closing transfer payload matchesBuffer) := by
  rw [takeIn_final decode closing hbuffers hexceeds hmore hresume]
  obtain ⟨hsize, hconflict, hempty⟩ := onCompleteTransfer_spec decode closing transfer payload hbuffers
    hattached
  refine ⟨fun delivery hdelivery => ⟨haborted, hmore, ?_⟩, fun _ => hconflict,
    fun _ h => absurd h hexceeds, fun exceeded h => absurd h (hsize exceeded), ?_, fun _ => ?_⟩
  · exact onCompleteTransfer_handsOver hbuffers (Prod.ext hdelivery rfl)
  · simp [haborted]
  · simpa [haborted, hmore] using buffers_nil hempty

/-- One frame that resumes nothing and carries no state. -/
theorem onIncomingTransfer_reassembles (payload : Payload) (hbuffers : r.Buffers frames)
    (hattached : r.link.localState = .attached) (hresume : transfer.resume = false)
    (hstate : transfer.state = none) :
    Reassembles decode closing r frames transfer payload
      (r.onIncomingTransfer decode closing transfer payload) := by
  cases haborted : transfer.aborted with
  | true => exact aborted_reassembles decode closing payload hbuffers hattached haborted
  | false =>
      rw [onIncomingTransfer_takeIn decode closing payload haborted hresume hstate]
      by_cases hexceeds : r.Exceeds frames transfer payload
      · exact exceeding_reassembles decode closing hbuffers hattached haborted hexceeds _
      · cases hmore : transfer.more with
        | true => exact partial_reassembles decode closing hbuffers hattached haborted hexceeds hmore _
        | false =>
            exact final_reassembles decode closing hbuffers hattached haborted hexceeds hmore hresume _

end Frame

end ReceiverInner

/-! ## Runs -/

/-- What happens to an attached receiver: a transfer arrives, or the application and the relay change
anything but the partial delivery. -/
inductive ReceiverEvent where
  | transfer (closing : Closing) (transfer : Transfer) (payload : Payload)
  | other (change : ReceiverInner → ReceiverInner)

/-- Nothing is resumed and no transfer carries a state. -/
def ReceiverEvent.Plain : ReceiverEvent → Prop
  | .transfer _ frame _ => frame.resume = false ∧ frame.state = none
  | .other change => ∀ r, (change r).incompleteTransfer = r.incompleteTransfer

/-- A receiver, the transfer frames it has taken in, and whether the attachment goes on with which they
came: it ends when the link is no longer attached, or when the receiver hands a Detach over. -/
structure Reception where
  receiver : ReceiverInner
  frames : List TransferFrame
  attached : Bool

namespace Reception

variable {M E : Type}

/-- A receiver of which no frame has arrived. -/
def start (receiver : ReceiverInner) : Reception :=
  ⟨receiver, [], receiver.link.localState = .attached⟩

/-- Frames arrive only while the attachment goes on. -/
def step (decode : Bytes → Except E M) (reception : Reception) : ReceiverEvent → Reception
  | .transfer closing transfer payload =>
      if reception.attached then
        let (_, receiver) :=
          reception.receiver.onIncomingTransfer decode closing transfer payload
        ⟨receiver, reception.frames ++ [(transfer, payload)], reception.receiver.goesOn receiver⟩
      else reception
  | .other change =>
      let receiver := change reception.receiver
      { reception with
        receiver
        attached := reception.attached && reception.receiver.goesOn receiver }

/-- While the attachment goes on, the receiver buffers the open frames. -/
def Tracks (reception : Reception) : Prop :=
  reception.attached = true → reception.receiver.link.localState = .attached ∧
    reception.receiver.Buffers (openFrames reception.frames)

theorem start_tracks {receiver : ReceiverInner} (hempty : receiver.incompleteTransfer = none) :
    (start receiver).Tracks := by
  intro hattached
  exact ⟨of_decide_eq_true hattached, ReceiverInner.buffers_nil hempty⟩

theorem step_tracks (decode : Bytes → Except E M) {reception : Reception} (h : reception.Tracks)
    (event : ReceiverEvent) (hplain : event.Plain) : (reception.step decode event).Tracks := by
  have hstate : ∀ {r r' : ReceiverInner}, r.goesOn r' = true → r'.link.localState = .attached := by
    intro r r' hgoesOn
    simp only [ReceiverInner.goesOn, Bool.and_eq_true, decide_eq_true_eq] at hgoesOn
    exact hgoesOn.1
  cases event with
  | transfer closing transfer payload =>
      by_cases hattached : reception.attached = true
      · obtain ⟨hlink, hbuffers⟩ := h hattached
        simp only [step, if_pos hattached]
        intro hgoesOn
        refine ⟨hstate hgoesOn, ?_⟩
        rw [openFrames_snoc]
        exact (ReceiverInner.onIncomingTransfer_reassembles decode closing payload hbuffers hlink
          hplain.1 hplain.2).buffers hgoesOn
      · simp only [step, if_neg hattached]
        exact h
  | other change =>
      intro hattached
      obtain ⟨hbefore, hgoesOn⟩ := (Bool.and_eq_true _ _).mp hattached
      refine ⟨hstate hgoesOn, ?_⟩
      have hbuffers := (h hbefore).2
      simp only [step, ReceiverInner.Buffers, hplain reception.receiver] at hbuffers ⊢
      exact hbuffers

theorem foldl_tracks (decode : Bytes → Except E M) {reception : Reception} (h : reception.Tracks)
    (events : List ReceiverEvent) (hplain : ∀ event ∈ events, event.Plain) :
    (events.foldl (step decode) reception).Tracks := by
  induction events generalizing reception with
  | nil => exact h
  | cons event events ih =>
      exact ih (step_tracks decode h event (hplain event (by simp)))
        fun event' hmem => hplain event' (by simp [hmem])

/-- A receiver that starts with an empty buffer, after any run of plain events: what the next frame
of the attachment does is decided by the frames of the open delivery. -/
theorem next_frame_reassembles (decode : Bytes → Except E M) (receiver : ReceiverInner)
    (hempty : receiver.incompleteTransfer = none) (events : List ReceiverEvent)
    (hplain : ∀ event ∈ events, event.Plain) (closing : Closing) (transfer : Transfer)
    (payload : Payload) (hresume : transfer.resume = false) (hstate : transfer.state = none) :
    let reception := events.foldl (step decode) (start receiver)
    reception.attached = true →
      ReceiverInner.Reassembles decode closing reception.receiver (openFrames reception.frames)
        transfer payload
        (reception.receiver.onIncomingTransfer decode closing transfer payload) := by
  intro reception hattached
  obtain ⟨hlink, hbuffers⟩ := foldl_tracks decode (start_tracks hempty) events hplain hattached
  exact ReceiverInner.onIncomingTransfer_reassembles decode closing payload hbuffers hlink hresume
    hstate

section TwoFrames

/-- A receiver that was just attached, with credit for ten messages. -/
private def attachedReceiver : ReceiverInner where
  link :=
    { localState := .attached, outputHandle := some ⟨0⟩, rcvSettleMode := .first
      maxMessageSize := 3, flowState := ⟨0, 0, 10, 0, false, none⟩, unsettled := none
      sessionStopReason := none }
  creditMode := .manual
  processed := 0
  autoAccept := false
  outgoing := ⟨[], false⟩
  incompleteTransfer := none

private def firstFrame : Transfer :=
  { handle := 0, deliveryId := some 4, deliveryTag := some [1], messageFormat := none
    settled := none, more := true, rcvSettleMode := none, state := none, resume := false
    aborted := false, batchable := false }

/-- A final continuation that settles the delivery and is the first to name a message-format. -/
private def lastFrame : Transfer :=
  { firstFrame with deliveryId := none, deliveryTag := none, messageFormat := some 7
                    settled := some true, more := false }

private def closedByPeer : Closing := ⟨.closed, .ok ()⟩

private def rawBytes : Bytes → Except Unit Bytes := .ok

private def firstArrived : List ReceiverEvent := [.transfer closedByPeer firstFrame [10, 11]]

private theorem firstArrived_plain : ∀ event ∈ firstArrived, event.Plain := by
  simp [firstArrived, ReceiverEvent.Plain, firstFrame]

private def wholeDelivery : Delivery Bytes :=
  { linkOutputHandle := 0, deliveryId := 4, deliveryTag := [1], messageFormat := some 7
    rcvSettleMode := none, message := [10, 11, 12] }

theorem next_frame_reassembles_two_frames :
    let r := (firstArrived.foldl (step rawBytes) (start attachedReceiver)).receiver
    let out := r.onIncomingTransfer rawBytes closedByPeer lastFrame [12]
    out.1 = .ok (some wholeDelivery) ∧
      r.HandsOver rawBytes [(firstFrame, [10, 11]), (lastFrame, [12])] wholeDelivery out.2 := by
  intro r out
  have hout : out.1 = .ok (some wholeDelivery) := rfl
  have hspec := next_frame_reassembles rawBytes attachedReceiver rfl firstArrived firstArrived_plain
    closedByPeer lastFrame [12] rfl rfl rfl
  exact ⟨hout, (hspec.delivers wholeDelivery hout).2.2⟩

/-- The message-format of a delivery need not be the one of its first frame. -/
theorem message_format_of_later_frame :
    ¬∀ (receiver : ReceiverInner) (events : List ReceiverEvent) (closing : Closing)
        (transfer : Transfer) (payload : Payload) (delivery : Delivery Bytes),
      receiver.incompleteTransfer = none → (∀ event ∈ events, event.Plain) →
      transfer.resume = false → transfer.state = none →
      let reception := events.foldl (step rawBytes) (start receiver)
      reception.attached = true →
      (reception.receiver.onIncomingTransfer rawBytes closing transfer payload).1 =
          .ok (some delivery) →
        ∃ first rest, openFrames reception.frames ++ [(transfer, payload)] = first :: rest ∧
          delivery.messageFormat = first.1.messageFormat := by
  intro hclaim
  obtain ⟨first, rest, hframes, hformat⟩ := hclaim attachedReceiver firstArrived closedByPeer lastFrame
    [12] wholeDelivery rfl firstArrived_plain rfl rfl rfl rfl
  cases hframes
  cases hformat

end TwoFrames

end Reception

end Fe2o3Amqp
