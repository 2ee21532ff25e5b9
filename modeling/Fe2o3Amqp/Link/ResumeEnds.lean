import Fe2o3Amqp.Link.ResumeIntact

/-!
# The two ends of a resumed delivery

The receiver hands over what it has gathered from the frames of both attempts, as long as it refuses
none; the procedure that resumes the deliveries of a link splits what it sends on.  With both, the
payload that is put together decides what the application gets.
-/

namespace Fe2o3Amqp

/-! ## What the receiver makes of a frame -/

namespace IncompleteTransfer

variable {E F : Type}

/-- Which payload is refused does not depend on the errors of the decoder. -/
theorem start_toOption (transfer : Transfer) (payload : Payload) :
    (start (E := E) transfer payload).toOption = (start (E := F) transfer payload).toOption := by
  simp only [start]
  split
  · rfl
  · split <;> rfl

theorem tryAppend_toOption (incomplete : IncompleteTransfer) (transfer : Transfer)
    (payload : Payload) :
    (incomplete.tryAppend (E := E) transfer payload).toOption =
      (incomplete.tryAppend (E := F) transfer payload).toOption := by
  have hfield : ∀ {α : Type} [DecidableEq α] (value other : Option α),
      (orAssignField (E := E) value other).toOption =
        (orAssignField (E := F) value other).toOption := by
    intro α _ value other
    cases value with
    | none => rfl
    | some value =>
        cases other with
        | none => rfl
        | some other =>
            simp only [orAssignField]
            split_ifs <;> rfl
  have hmerge : (orAssign (E := E) incomplete.performative transfer).toOption =
      (orAssign (E := F) incomplete.performative transfer).toOption := by
    simp only [orAssign, Except.toOption_bind, hfield (α := UInt32), hfield (α := DeliveryTag)]
    rfl
  simp only [tryAppend]
  split
  · rfl
  · cases hleft : orAssign (E := E) incomplete.performative transfer <;>
      cases hright : orAssign (E := F) incomplete.performative transfer <;>
        simp [hleft, hright, Except.toOption] at hmerge ⊢
    rw [hmerge]

end IncompleteTransfer

namespace ReceiverInner

open IncompleteTransfer

variable {M E : Type} {decode : Bytes → Except E M} {closing : Closing} {r r' : ReceiverInner}
  {transfer : Transfer} {payload : Payload} {delivery : Option (Delivery M)}

/-- The receiver has buffered this much of a delivery, and its unsettled map tells how far it has
counted. -/
structure Holds (r : ReceiverInner) (incomplete : IncompleteTransfer) : Prop where
  incompleteTransfer : r.incompleteTransfer = some incomplete
  unsettled : r.link.unsettled.bind (·.get incomplete.deliveryTag) =
    some (some (.received ⟨incomplete.sectionNumber, incomplete.sectionOffset⟩))

/-- A frame leads from a buffer to a partial delivery, or to one that is handed over. -/
structure Gathers (decode : Bytes → Except E M) (transfer : Transfer) (incomplete : IncompleteTransfer)
    (delivery : Option (Delivery M)) (r' : ReceiverInner) : Prop where
  partly : transfer.more = true → delivery = none ∧ r'.Holds incomplete
  wholly : transfer.more = false → r'.incompleteTransfer = none ∧
    ∃ d, delivery = some d ∧ decode incomplete.buffer.flatten = .ok d.message

theorem complete_gathers {number : UInt32} {offset : UInt64} {payload : List Payload}
    (h : r.complete decode transfer payload number offset = (.ok delivery, r')) :
    r'.incompleteTransfer = r.incompleteTransfer ∧
      ∃ d, delivery = some d ∧ decode payload.flatten = .ok d.message := by
  have hspec := (complete_spec decode r transfer payload number offset).2
  rw [h] at hspec
  refine ⟨hspec, ?_⟩
  cases delivery with
  | none =>
      simp only [complete] at h
      split at h
      · cases h
      · split at h
        · split at h <;> cases h
        · cases h
  | some d =>
      obtain ⟨link, hlink, -⟩ := complete_ok h
      exact ⟨d, rfl, (onCompleteTransfer_ok hlink).2.2.2.1⟩

theorem completeSingle_gathers
    (h : r.completeSingle decode closing transfer payload = (.ok delivery, r')) :
    r'.incompleteTransfer = r.incompleteTransfer ∧
      ∃ incomplete d, extend none (transfer, payload) = some incomplete ∧ delivery = some d ∧
        decode incomplete.buffer.flatten = .ok d.message := by
  simp only [completeSingle, ensureDeliveryIdentity] at h
  cases hid : transfer.deliveryId with
  | none => simp [hid] at h
  | some deliveryId =>
      cases htag : transfer.deliveryTag with
      | none => simp [hid, htag] at h
      | some deliveryTag =>
          simp only [hid, htag, reduceCtorEq, if_false] at h
          obtain ⟨hbuffer, d, hdelivery, hdecode⟩ := complete_gathers h
          cases hstart : start (E := Unit) transfer payload with
          | error e => simp [start, hid, htag] at hstart
          | ok incomplete =>
              refine ⟨hbuffer, incomplete, d, by rw [extend, hstart]; rfl, hdelivery, ?_⟩
              rw [(start_merges hstart).buffer]
              exact hdecode

theorem onIncompleteTransfer_gathers
    (h : r.onIncompleteTransfer (E := E) closing transfer payload = (.ok (), r')) :
    ∃ incomplete, extend r.incompleteTransfer (transfer, payload) = some incomplete ∧
      r'.Holds incomplete := by
  simp only [onIncompleteTransfer] at h
  cases hbuffer : r.incompleteTransfer with
  | none =>
      simp only [hbuffer] at h
      split at h
      · cases h
      · next incomplete hstart =>
          cases h
          refine ⟨incomplete, by rw [extend, start_toOption (F := E), hstart]; rfl, ⟨rfl, ?_⟩⟩
          simp [ReceiverLink.onIncompleteTransfer, ReceiverLink.insertUnsettled, IndexMap.get_insert]
  | some buffered =>
      simp only [hbuffer] at h
      split at h
      · cases h
      · next incomplete happend =>
          cases h
          refine ⟨incomplete, ?_, ⟨rfl, ?_⟩⟩
          · rw [extend, buffered.tryAppend_toOption (F := E), happend]
            rfl
          · simp [ReceiverLink.onIncompleteTransfer, ReceiverLink.insertUnsettled,
              IndexMap.get_insert]

theorem onCompleteTransfer_gathers
    (h : r.onCompleteTransfer decode closing transfer payload = (.ok delivery, r')) :
    ∃ incomplete, extend r.incompleteTransfer (transfer, payload) = some incomplete ∧
      r'.incompleteTransfer = none ∧
      ∃ d, delivery = some d ∧ decode incomplete.buffer.flatten = .ok d.message := by
  simp only [onCompleteTransfer] at h
  cases hbuffer : r.incompleteTransfer with
  | none =>
      simp only [hbuffer] at h
      obtain ⟨hkept, incomplete, d, hextend, hdelivery, hdecode⟩ := completeSingle_gathers h
      exact ⟨incomplete, hextend, hkept.trans hbuffer, d, hdelivery, hdecode⟩
  | some incomplete =>
      simp only [hbuffer] at h
      split at h
      · cases h
      · next incomplete' happend =>
          obtain ⟨hkept, d, hdelivery, hdecode⟩ := complete_gathers h
          refine ⟨incomplete', ?_, hkept, d, hdelivery, hdecode⟩
          rw [extend, incomplete.tryAppend_toOption (F := E), happend]
          rfl

theorem takeIn_gathers {matchesBuffer : Bool}
    (hmatches : r.incompleteTransfer = none ∨ matchesBuffer = true)
    (h : r.takeIn decode closing transfer payload matchesBuffer = (.ok delivery, r')) :
    ∃ incomplete, extend r.incompleteTransfer (transfer, payload) = some incomplete ∧
      Gathers decode transfer incomplete delivery r' := by
  simp only [takeIn] at h
  split at h
  · cases h
  · cases hmore : transfer.more with
    | true =>
        simp only [hmore, if_true] at h
        split at h
        · cases h
        · next hincomplete =>
            cases h
            obtain ⟨incomplete, hextend, hholds⟩ := onIncompleteTransfer_gathers hincomplete
            exact ⟨incomplete, hextend, fun _ => ⟨rfl, hholds⟩, by simp [hmore]⟩
    | false =>
        simp only [hmore, Bool.false_eq_true, if_false] at h
        split_ifs at h with hreassociated
        · -- a resumed delivery that is not buffered
          have hnone : r.incompleteTransfer = none := by
            rcases hmatches with hnone | hmatches
            · exact hnone
            · simp [hmatches] at hreassociated
          obtain ⟨hkept, incomplete, d, hextend, hdelivery, hdecode⟩ := completeSingle_gathers h
          rw [hnone] at hkept ⊢
          exact ⟨incomplete, hextend, by simp [hmore], fun _ => ⟨hkept, d, hdelivery, hdecode⟩⟩
        · obtain ⟨incomplete, hextend, hnone, d, hdelivery, hdecode⟩ :=
            onCompleteTransfer_gathers h
          exact ⟨incomplete, hextend, by simp [hmore], fun _ => ⟨hnone, d, hdelivery, hdecode⟩⟩

theorem onTransferState_incompleteTransfer {state : DeliveryState} {r₁ : ReceiverInner}
    (hstate : transfer.state = some state)
    (hbelongs : r.incompleteTransfer = none ∨ r.matchesBuffer transfer = true)
    (h : r.onTransferState (E := E) closing transfer.deliveryTag transfer.settled state = (.ok (), r₁)) :
    r₁.incompleteTransfer = r.incompleteTransfer.map (·.onTransferState transfer) := by
  simp only [onTransferState] at h
  split at h
  · cases h
  · split at h
    · cases h
    · cases h
      cases hbuffer : r.incompleteTransfer with
      | none => simp [withLink]
      | some incomplete =>
          have hsame : incomplete.isSameDeliveryAs transfer = true := by
            simpa [hbuffer, matchesBuffer] using hbelongs
          have hsame' := hsame
          simp only [isSameDeliveryAs] at hsame'
          simp only [withLink, Option.map_some, Option.some.injEq,
            IncompleteTransfer.onTransferState, hsame, hstate]
          cases htag : transfer.deliveryTag with
          | none => cases state <;> rfl
          | some remote =>
              simp only [htag, beq_iff_eq] at hsame'
              rw [hsame']
              cases state <;> simp

/-- A frame of the buffered delivery, or one that starts a delivery, is gathered: what the receiver
hands over is decoded from what it has gathered, and its unsettled map tells the position that it has
counted. -/
theorem onIncomingTransfer_gathers (haborted : transfer.aborted = false)
    (hbelongs : r.incompleteTransfer = none ∨ r.matchesBuffer transfer = true)
    (htaken : (transfer.resume && !r.matchesBuffer transfer && !r.isKnownUnsettled transfer) = false)
    (h : r.onIncomingTransfer decode closing transfer payload = (.ok delivery, r')) :
    ∃ incomplete, gather r.incompleteTransfer (transfer, payload) = some incomplete ∧
      Gathers decode transfer incomplete delivery r' := by
  simp only [onIncomingTransfer, haborted, htaken, Bool.false_eq_true, if_false] at h
  have hstate : ∀ {r₁ : ReceiverInner},
      r₁.incompleteTransfer = r.incompleteTransfer.map (·.onTransferState transfer) →
      r₁.takeIn decode closing transfer payload (r.matchesBuffer transfer) = (.ok delivery, r') →
      ∃ incomplete, gather r.incompleteTransfer (transfer, payload) = some incomplete ∧
        Gathers decode transfer incomplete delivery r' := by
    intro r₁ hbuffer htakeIn
    rw [gather, ← hbuffer]
    apply takeIn_gathers (hbelongs.imp_left fun hnone => ?_) htakeIn
    rw [hbuffer, hnone]
    rfl
  cases hcarried : transfer.state with
  | none =>
      simp only [hcarried] at h
      apply hstate _ h
      cases r.incompleteTransfer with
      | none => rfl
      | some incomplete => simp [IncompleteTransfer.onTransferState, hcarried]
  | some state =>
      simp only [hcarried] at h
      split at h
      · cases h
      · next r₁ hcut =>
          exact hstate (onTransferState_incompleteTransfer hcarried hbelongs hcut) h

/-! ## What it makes of a transfer -/

/-- No frame was answered with an error. -/
def AllTaken (results : List (Except (RecvError E) (Option (Delivery M)))) : Prop :=
  ∀ result ∈ results, ∃ delivery, result = .ok delivery

theorem run_receive_cons {frame : TransferFrame} {frames : List TransferFrame}
    (h : AllTaken (Run.run (receive decode closing) r (frame :: frames)).2) :
    ∃ delivery r', r.onIncomingTransfer decode closing frame.1 frame.2 = (.ok delivery, r') ∧
      (Run.run (receive decode closing) r (frame :: frames)).1 =
        (Run.run (receive decode closing) r' frames).1 ∧
      (Run.run (receive decode closing) r (frame :: frames)).2 =
        .ok delivery :: (Run.run (receive decode closing) r' frames).2 ∧
      AllTaken (Run.run (receive decode closing) r' frames).2 := by
  obtain ⟨transfer, payload⟩ := frame
  cases hout : r.onIncomingTransfer decode closing transfer payload with
  | mk result r' =>
      have hrun : Run.run (receive decode closing) r ((transfer, payload) :: frames) =
          ((Run.run (receive decode closing) r' frames).1,
            result :: (Run.run (receive decode closing) r' frames).2) := by
        rw [Run.run, receive_eq hout]
        rfl
      rw [hrun] at h ⊢
      obtain ⟨delivery, rfl⟩ := h result List.mem_cons_self
      exact ⟨delivery, r', rfl, rfl, rfl, fun result' hmem => h result' (List.mem_cons_of_mem _ hmem)⟩

theorem matchesBuffer_of_continues {incomplete : IncompleteTransfer}
    (h : r.incompleteTransfer = some incomplete) (hcontinues : Continues transfer) :
    r.matchesBuffer transfer = true := by
  simp [matchesBuffer, h, isSameDeliveryAs, hcontinues.2.1]

/-- Further frames of which none is the last. -/
theorem Holds.parts {incomplete : IncompleteTransfer} (h : r.Holds incomplete)
    {later : List TransferFrame}
    (hlater : ∀ frame ∈ later, Continues frame.1 ∧ frame.1.aborted = false ∧ frame.1.more = true)
    (htaken : AllTaken (Run.run (receive decode closing) r later).2) :
    ∃ incomplete', gatherAll (some incomplete) later = some incomplete' ∧
      (Run.run (receive decode closing) r later).1.Holds incomplete' := by
  induction later generalizing r incomplete with
  | nil => exact ⟨incomplete, rfl, h⟩
  | cons frame later ih =>
      obtain ⟨hcontinues, haborted, hmore⟩ := hlater frame List.mem_cons_self
      have hmatches := matchesBuffer_of_continues h.incompleteTransfer hcontinues
      obtain ⟨delivery, r', hout, hstate, -, htaken'⟩ := run_receive_cons htaken
      obtain ⟨incomplete', hgather, hgathers⟩ :=
        onIncomingTransfer_gathers haborted (.inr hmatches) (by simp [hmatches]) hout
      rw [h.incompleteTransfer] at hgather
      obtain ⟨incomplete'', hall, hholds⟩ := ih (hgathers.partly hmore).2
        (fun frame' hmem => hlater frame' (List.mem_cons_of_mem _ hmem)) htaken'
      refine ⟨incomplete'', ?_, hstate ▸ hholds⟩
      rw [gatherAll, hgather]
      exact hall

/-- What is handed over behind the last frame. -/
def HandsOverLast (decode : Bytes → Except E M) (buffer : Option IncompleteTransfer)
    (frames : List TransferFrame) (results : List (Except (RecvError E) (Option (Delivery M)))) :
    Prop :=
  ∃ incomplete delivery, gatherAll buffer frames = some incomplete ∧
    results.getLast? = some (.ok (some delivery)) ∧
    decode incomplete.buffer.flatten = .ok delivery.message

/-- The first frame is gathered, and the others behind it. -/
theorem handsOverLast_cons {frame : TransferFrame} {later : List TransferFrame}
    (hmore : frame.1.more = !later.isEmpty) (haborted : frame.1.aborted = false)
    (hbelongs : r.incompleteTransfer = none ∨ r.matchesBuffer frame.1 = true)
    (hknown : (frame.1.resume && !r.matchesBuffer frame.1 && !r.isKnownUnsettled frame.1) = false)
    (htaken : AllTaken (Run.run (receive decode closing) r (frame :: later)).2)
    (hlater : ∀ (r' : ReceiverInner) (incomplete : IncompleteTransfer),
      r'.incompleteTransfer = some incomplete → later ≠ [] →
      AllTaken (Run.run (receive decode closing) r' later).2 →
      HandsOverLast decode (some incomplete) later (Run.run (receive decode closing) r' later).2) :
    HandsOverLast decode r.incompleteTransfer (frame :: later)
      (Run.run (receive decode closing) r (frame :: later)).2 := by
  obtain ⟨delivery, r', hout, -, hresults, htaken'⟩ := run_receive_cons htaken
  obtain ⟨incomplete, hgather, hgathers⟩ := onIncomingTransfer_gathers haborted hbelongs hknown hout
  cases later with
  | nil =>
      obtain ⟨-, d, rfl, hdecode⟩ := hgathers.wholly (by simpa using hmore)
      refine ⟨incomplete, d, ?_, ?_, hdecode⟩
      · simp only [gatherAll, hgather]
      · rw [hresults]
        rfl
  | cons next later =>
      obtain ⟨-, hholds⟩ := hgathers.partly (by simpa using hmore)
      obtain ⟨incomplete', d, hall, hlast, hdecode⟩ :=
        hlater r' incomplete hholds.incompleteTransfer (List.cons_ne_nil _ _) htaken'
      refine ⟨incomplete', d, ?_, ?_, hdecode⟩
      · rw [gatherAll, hgather]
        exact hall
      · rw [hresults, List.getLast?_cons, hlast]
        rfl

/-- All the frames that are left of a delivery. -/
theorem continuationFrames_handsOverLast {transfer : Transfer} (haborted : transfer.aborted = false)
    (chunks : List Payload) (r : ReceiverInner) (incomplete : IncompleteTransfer)
    (h : r.incompleteTransfer = some incomplete)
    (hchunks : continuationFrames transfer.clearContinuationFields chunks ≠ [])
    (htaken : AllTaken (Run.run (receive decode closing) r
      (continuationFrames transfer.clearContinuationFields chunks)).2) :
    HandsOverLast decode (some incomplete)
      (continuationFrames transfer.clearContinuationFields chunks)
      (Run.run (receive decode closing) r
        (continuationFrames transfer.clearContinuationFields chunks)).2 := by
  induction chunks generalizing r incomplete with
  | nil => exact absurd rfl hchunks
  | cons chunk chunks ih =>
      have hmatches : r.matchesBuffer
          { transfer.clearContinuationFields with more := !chunks.isEmpty } = true :=
        matchesBuffer_of_continues h ⟨rfl, rfl, rfl⟩
      rw [← h]
      refine handsOverLast_cons ?_ haborted (.inr hmatches) (by simp [hmatches]) htaken
        fun r' incomplete' h' hne htaken' => ih r' incomplete' h' hne htaken'
      cases chunks <;> rfl

/-- A whole transfer, or the rest of one that is buffered. -/
theorem transferFrames_handsOverLast {transfer : Transfer} (haborted : transfer.aborted = false)
    (deliveryId : DeliveryNumber) {chunks : List Payload} (hchunks : chunks ≠ [])
    (hbelongs : r.incompleteTransfer = none ∨ r.matchesBuffer transfer = true)
    (hknown : (transfer.resume && !r.matchesBuffer transfer && !r.isKnownUnsettled transfer) = false)
    (htaken : AllTaken (Run.run (receive decode closing) r
      (transferFrames transfer deliveryId chunks)).2) :
    HandsOverLast decode r.incompleteTransfer (transferFrames transfer deliveryId chunks)
      (Run.run (receive decode closing) r (transferFrames transfer deliveryId chunks)).2 := by
  obtain ⟨chunk, chunks, rfl⟩ := List.exists_cons_of_ne_nil hchunks
  refine handsOverLast_cons ?_ haborted hbelongs hknown htaken
    fun r' incomplete h' hne htaken' =>
      continuationFrames_handsOverLast haborted chunks r' incomplete h' hne htaken'
  cases chunks <;> rfl

end ReceiverInner

/-! ## How a delivery is sent on -/

/-- Sends of the resume procedure: how a delivery is split that is handed over. -/
theorem ResumeTask.beginTransfer_split {t : ResumeTask} {transfer : Transfer} {payload : Payload}
    {delivery delivery' : OnTheWay} {remaining remaining' : Remaining} {split : TransferSplit}
    (h : (t.beginTransfer transfer payload delivery remaining).awaiting =
      .transfer split delivery' remaining') :
    ∃ inputHandle maxPayload, split = ⟨inputHandle, transfer, payload, maxPayload, true⟩ := by
  simp only [beginTransfer] at h
  cases hstart : t.link.startTransfer transfer payload with
  | error failure => simp [hstart, failSend, finish] at h
  | ok split' =>
      simp only [hstart, ResumeAwait.transfer.injEq] at h
      rw [← h.1]
      simp only [SenderLink.startTransfer] at hstart
      split at hstart
      · cases hstart
      · next inputHandle _ =>
          obtain ⟨maxPayload, -, hsplit⟩ := Except.bind_eq_ok.mp hstart
          exact ⟨inputHandle, maxPayload, (Except.pure_eq_ok.mp hsplit).symm⟩

theorem ResumeTask.sendTransferWithOutcome_split {t : ResumeTask} {transfer : Transfer}
    {deliveryTag : DeliveryTag} {message : UnsettledMessage} {delivery : OnTheWay}
    {remaining remaining' : Remaining} {split : TransferSplit}
    (h : (t.sendTransferWithOutcome transfer deliveryTag message remaining).awaiting =
      .transfer split delivery remaining') :
    ∃ inputHandle maxPayload, split = ⟨inputHandle, transfer, message.payload, maxPayload, true⟩ := by
  simp only [sendTransferWithOutcome] at h
  split_ifs at h
  · exact beginTransfer_split h
  · exact beginTransfer_split h

theorem ResumeTask.handleResumingDelivery_resume {t : ResumeTask} {deliveryTag : DeliveryTag}
    {message : UnsettledMessage} {remaining remaining' : Remaining} {split : TransferSplit}
    {delivery : OnTheWay}
    (h : (t.handleResumingDelivery deliveryTag (.resume message) remaining).awaiting =
      .transfer split delivery remaining') :
    ∃ again : Reattached, split = again.resumeSplit deliveryTag message ∧
      t.link.outputHandle = some again.outputHandle ∧ again.settled = t.resumeSettled := by
  simp only [handleResumingDelivery] at h
  cases hhandle : t.link.outputHandle with
  | none => simp [hhandle, failSend, finish] at h
  | some handle =>
      simp only [hhandle] at h
      obtain ⟨inputHandle, maxPayload, rfl⟩ := sendTransferWithOutcome_split h
      exact ⟨⟨inputHandle, handle, t.resumeSettled, deliveryTag, maxPayload⟩, rfl, rfl, rfl⟩

theorem ResumeTask.pollCredit_resend {t : ResumeTask} {message : UnsettledMessage}
    {rest : List UnsettledMessage} {split : TransferSplit} {delivery : OnTheWay}
    {remaining : Remaining} (hawaiting : t.awaiting = .credit message rest)
    (h : (t.pollCredit message rest).awaiting = .transfer split delivery remaining) :
    ∃ again : Reattached, split = again.resendSplit message ∧
      t.link.outputHandle = some again.outputHandle ∧ again.settled = t.resumeSettled := by
  simp only [pollCredit] at h
  split at h
  · simp [failSend, finish] at h
  · simp [failSend, finish] at h
  · split_ifs at h
    · simp [failSend, finish] at h
    · split at h
      · rw [hawaiting] at h
        cases h
      · next deliveryTag flowState _ =>
          split at h
          · simp [failSend, finish] at h
          · next transfer hgenerate =>
              obtain ⟨inputHandle, maxPayload, rfl⟩ := sendTransferWithOutcome_split h
              simp only [SenderLink.generateNonResumingTransferPerformative] at hgenerate
              split at hgenerate
              · cases hgenerate
              · next handle hhandle =>
                  cases hgenerate
                  exact ⟨⟨inputHandle, handle, t.resumeSettled, deliveryTag, maxPayload⟩, rfl,
                    hhandle, rfl⟩

/-- The procedure begins to send a delivery on, with this split. -/
inductive ResumeTask.Begins (t : ResumeTask) (deliveryTag : DeliveryTag) :
    ResumingDelivery → TransferSplit → Prop
  | resume {message : UnsettledMessage} {remaining remaining' : Remaining} {split : TransferSplit}
      {delivery : OnTheWay}
      (h : (t.handleResumingDelivery deliveryTag (.resume message) remaining).awaiting =
        .transfer split delivery remaining') : Begins t deliveryTag (.resume message) split
  | resend {message : UnsettledMessage} {rest : List UnsettledMessage} {remaining : Remaining}
      {split : TransferSplit} {delivery : OnTheWay} (hawaiting : t.awaiting = .credit message rest)
      (h : (t.pollCredit message rest).awaiting = .transfer split delivery remaining) :
      Begins t deliveryTag (.resend message) split

theorem ResumeTask.Begins.split? {t : ResumeTask} {deliveryTag : DeliveryTag}
    {resuming : ResumingDelivery} {split : TransferSplit} (h : t.Begins deliveryTag resuming split) :
    ∃ again : Reattached, again.split? deliveryTag resuming = some split := by
  cases h with
  | resume h =>
      obtain ⟨again, hsplit, -⟩ := handleResumingDelivery_resume h
      exact ⟨again, congrArg some hsplit.symm⟩
  | resend hawaiting h =>
      obtain ⟨again, hsplit, -⟩ := pollCredit_resend hawaiting h
      exact ⟨again, congrArg some hsplit.symm⟩

/-! ## Both attempts -/

theorem mem_take_continuationFrames {transfer : Transfer} {arrived rest : List Payload}
    (hrest : rest ≠ []) {frame : TransferFrame}
    (h : frame ∈ (continuationFrames transfer (arrived ++ rest)).take arrived.length) :
    frame.1 = { transfer with more := true } := by
  induction arrived with
  | nil => cases h
  | cons chunk arrived ih =>
      rw [List.cons_append, continuationFrames, List.length_cons, List.take_succ_cons] at h
      rcases List.mem_cons.mp h with rfl | h
      · have hnonempty : (arrived ++ rest).isEmpty = false := by simp [hrest]
        simp [hnonempty]
      · exact ih h

namespace CutDelivery

open IncompleteTransfer ReceiverInner

variable {M E : Type} {decode : Bytes → Except E M} {closing : Closing} {d : CutDelivery}
  {r : ReceiverInner} {store : LinkStore} {again : Reattached} {frames : List TransferFrame}

/-- The receiver has what has arrived, and tells the sender so. -/
structure Kept (d : CutDelivery) (r : ReceiverInner) : Prop where
  incompleteTransfer : r.incompleteTransfer = d.kept
  unsettled : d.arrived ≠ [] → r.link.unsettled.bind (·.get d.deliveryTag) = d.entry

/-- A receiver that has taken in the frames of a part of the delivery. -/
theorem kept_of_arrived (hrest : d.rest ≠ []) (haborted : d.transfer.aborted = false)
    (hresume : d.transfer.resume = false) (hempty : r.incompleteTransfer = none)
    (htaken : AllTaken (Run.run (receive decode closing) r d.frames).2) :
    d.Kept (Run.run (receive decode closing) r d.frames).1 := by
  by_cases hnothing : d.arrived = []
  · have hframes : d.frames = [] := by simp [CutDelivery.frames, hnothing]
    have hreceived : d.received = none := by rw [received, hframes]; rfl
    refine ⟨?_, fun hne => absurd hnothing hne⟩
    rw [hframes, kept, if_neg hrest, hreceived]
    exact hempty
  · obtain ⟨incomplete, hreceived, -, htag, -⟩ := d.received_spec hnothing
    obtain ⟨chunk, chunks, harrived⟩ := List.exists_cons_of_ne_nil hnothing
    have hframes : d.frames =
        ({ d.transfer with deliveryId := some d.deliveryId, more := true }, chunk) ::
          (continuationFrames d.transfer.clearContinuationFields (chunks ++ d.rest)).take
            chunks.length := by
      have hnonempty : (chunks ++ d.rest).isEmpty = false := by simp [hrest]
      rw [CutDelivery.frames, harrived, List.cons_append, transferFrames, List.length_cons,
        List.take_succ_cons, hnonempty]
      rfl
    rw [hframes] at htaken
    obtain ⟨delivery, r', hout, hstate, -, htaken'⟩ := run_receive_cons htaken
    have haborted' : ({ d.transfer with deliveryId := some d.deliveryId, more := true } :
        Transfer).aborted = false := haborted
    obtain ⟨incomplete', hgather, hgathers⟩ := onIncomingTransfer_gathers haborted' (.inl hempty)
      (by simp [hresume]) hout
    obtain ⟨incomplete'', hall, hholds⟩ := (hgathers.partly rfl).2.parts
      (fun frame hmem => by
        rw [mem_take_continuationFrames hrest hmem]
        exact ⟨⟨rfl, rfl, rfl⟩, haborted, rfl⟩) htaken'
    obtain rfl : incomplete = incomplete'' := by
      rw [received, hframes, gatherAll] at hreceived
      rw [hempty] at hgather
      rw [hgather] at hreceived
      exact Option.some.inj (hreceived.symm.trans hall)
    rw [hframes]
    rw [← hstate] at hholds
    refine ⟨?_, fun _ => ?_⟩
    · rw [kept, if_neg hrest, hreceived]
      exact hholds.incompleteTransfer
    · rw [entry, hreceived, ← htag]
      exact hholds.unsettled

/-- Only a message that is sent on is put into frames again. -/
theorem sendsOn_of_framesAgain (h : d.framesAgain store again = some frames) : d.SendsOn := by
  by_cases hnone : d.message.state = none
  · exact .inl hnone
  by_cases hreceived : ∃ received, d.message.state = some (.received received)
  · obtain ⟨received, hstate⟩ := hreceived
    refine .inr ⟨received, hstate, fun hsome => ?_⟩
    by_contra hle
    simp [framesAgain, d.entry_eq, hsome, resumeDelivery, hstate, hle, Reattached.split?] at h
  · rw [d.framesAgain_of_outcome hnone (not_exists.mp hreceived)] at h
    cases h

/-- The receiver knows the delivery that is sent on, or starts a new one. -/
theorem Kept.belongs (hkept : d.Kept r) (again : Reattached) :
    (r.incompleteTransfer = none ∨ r.matchesBuffer (d.sentOn again).transfer = true) ∧
      ((d.sentOn again).transfer.resume && !r.matchesBuffer (d.sentOn again).transfer &&
        !r.isKnownUnsettled (d.sentOn again).transfer) = false := by
  rw [sentOn]
  split_ifs with hnothing
  · have hnone : d.kept = none := by
      simp [kept, received, CutDelivery.frames, hnothing, gatherAll]
    exact ⟨.inl (hkept.incompleteTransfer.trans hnone), by simp [Reattached.resendSplit]⟩
  · obtain ⟨incomplete, hreceived, -, htag, -⟩ := d.received_spec hnothing
    refine ⟨?_, ?_⟩
    · rw [hkept.incompleteTransfer, kept]
      split_ifs with hrest
      · exact .inl rfl
      · refine .inr ?_
        simp [matchesBuffer, hkept.incompleteTransfer, kept, hrest, hreceived, isSameDeliveryAs,
          Reattached.resumeSplit, resumingTransfer, htag]
    · have hentry := hkept.unsettled hnothing
      rw [d.entry_eq, if_neg hnothing] at hentry
      have hknown :
          r.isKnownUnsettled (again.resumeSplit d.deliveryTag d.remaining).transfer = true := by
        simp [isKnownUnsettled, Reattached.resumeSplit, resumingTransfer, hentry,
          DeliveryState.isTerminal]
      simp [hknown]

/-- What the receiver hands over behind the frames of both attempts is decoded from the payload that is
put together. -/
theorem handsOver_reassembled (hkept : d.Kept r) (hframes : d.framesAgain store again = some frames)
    (htaken : AllTaken (Run.run (receive decode closing) r frames).2) :
    ∃ payload delivery, d.reassembled store again = some payload ∧
      (Run.run (receive decode closing) r frames).2.getLast? = some (.ok (some delivery)) ∧
      decode payload = .ok delivery.message := by
  have hsends := sendsOn_of_framesAgain hframes
  have hroom : 0 < again.maxPayload := by
    rcases Nat.eq_zero_or_pos again.maxPayload with hzero | hroom
    · rw [d.framesAgain_no_room hsends store hzero] at hframes
      cases hframes
    · exact hroom
  obtain ⟨linkFrames, chunks, hsplit, hchunks, -, hnumbered⟩ :=
    TransferSplit.frames_of_pos d.deliveryIdAgain (d.sentOn again)
      (by rw [sentOn]; split_ifs <;> rfl) (by rw [sentOn]; split_ifs <;> exact hroom)
  obtain rfl : transferFrames (d.sentOn again).transfer d.deliveryIdAgain chunks = frames := by
    rw [d.framesAgain_of_sendsOn hsends, hsplit, Option.map_some, hnumbered] at hframes
    exact Option.some.inj hframes
  obtain ⟨hbelongs, hknown⟩ := hkept.belongs again
  have haborted : (d.sentOn again).transfer.aborted = false := by
    rw [sentOn]
    split_ifs <;> rfl
  obtain ⟨incomplete, delivery, hall, hlast, hdecode⟩ :=
    transferFrames_handsOverLast haborted d.deliveryIdAgain hchunks hbelongs hknown htaken
  refine ⟨incomplete.buffer.flatten, delivery, ?_, hlast, hdecode⟩
  rw [hkept.incompleteTransfer] at hall
  simp [reassembled, hframes, hall]

/-- The frames are those of the split with which the procedure begins. -/
theorem framesAgain_of_begins {t : ResumeTask} {resuming : ResumingDelivery} {split : TransferSplit}
    (hresuming : (resumeDelivery store d.message d.entry).1 = some resuming)
    (h : t.Begins d.deliveryTag resuming split) :
    ∃ again, d.framesAgain store again =
      split.frames.map (·.filterMap (·.numbered d.deliveryIdAgain)) := by
  obtain ⟨again, hsplit⟩ := h.split?
  refine ⟨again, ?_⟩
  simp only [framesAgain, bind, hresuming, hsplit, Option.bind_some]
  cases split.frames <;> rfl

/-! ### On the wire -/

/-- The first frame goes out behind the transfers that wait. -/
theorem first_on_wire (harrived : d.arrived ≠ []) :
    let wire := transfersOf (Run.run Session.act d.session d.actions).2
    let i := d.session.remoteIncomingWindowExhaustedBuffer.length
    i < wire.length → wire[i]? = d.frames.head? := by
  intro wire i hi
  have hlength : d.arrived.length ≠ 0 := mt List.length_eq_zero_iff.mp harrived
  have hfirst := firstFrame_numbered d.inputHandle d.transfer d.deliveryId
    (List.append_ne_nil_of_left_ne_nil harrived d.rest)
  have hnumbered := d.session.run_numbered [] d.since
    (firstFrame d.inputHandle d.transfer (d.arrived ++ d.rest)) d.message.sender d.actions_wellFormed
    d.session_waiting d.session_mapped rfl
  rw [Session.handedOver, List.append_nil] at hnumbered
  rw [CutDelivery.frames, List.head?_take, if_neg hlength, ← hfirst]
  exact hnumbered hi

/-- A frame that is handed over when the delivery is sent on goes out behind all that were. -/
theorem again_on_wire (d : CutDelivery) {frame : LinkFrame} (hwf : frame.WellFormed)
    (htransfer : frame.transfer?.isSome) (sender : OneshotId) {after : List SessionAction}
    (hafter : ∀ action ∈ after, action.WellFormed) :
    let wire := transfersOf
      (Run.run Session.act d.session (d.actions ++ .linkFrame frame sender :: after)).2
    let i := (d.session.remoteIncomingWindowExhaustedBuffer ++ d.session.handedOver d.actions).length
    i < wire.length → wire[i]? = frame.numbered d.deliveryIdAgain := by
  intro wire i hi
  obtain ⟨item, hitem⟩ := Option.isSome_iff_exists.mp htransfer
  have hall : ∀ action ∈ d.actions ++ .linkFrame frame sender :: after, action.WellFormed := by
    intro action hmem
    rcases List.mem_append.mp hmem with hmem | hmem
    · exact d.actions_wellFormed action hmem
    · rcases List.mem_cons.mp hmem with rfl | hmem
      · exact hwf
      · exact hafter action hmem
  rw [d.session.run_numbered d.actions after frame sender hall d.session_waiting d.since_mapped hitem hi,
    LinkFrame.numbered, hitem]
  rfl

/-- A delivery of which the sender was told nothing in a disposition is delivered intact exactly when
frames have room for payload, and, if a part of it has arrived, the session has come round to the
delivery-id of the first attempt and one section header was cut; if all of it has, what was counted
points nowhere.  That a part was received may have been told where the receiver does not come to that
position; if anything else was told, the message is not sent on.  It is the procedure that sends it on,
and what the receiver hands over, if it refuses no frame, is decoded from what is put together. -/
theorem resumed_intact_iff (d : CutDelivery) (store : LinkStore) (again : Reattached) :
    ((∀ received, d.message.state ≠ some (.received received)) →
      (d.Intact store again ↔ d.message.state = none ∧ 0 < again.maxPayload ∧ d.Joins)) ∧
    (∀ received, d.message.state = some (.received received) → received.le d.counted →
      NotReached received d.message.payload → 0 < again.maxPayload → d.Joins →
        d.Intact store again) ∧
    (∀ (t : ResumeTask) (resuming : ResumingDelivery) (split : TransferSplit),
      (resumeDelivery store d.message d.entry).1 = some resuming →
        t.Begins d.deliveryTag resuming split →
          ∃ again, d.framesAgain store again =
            split.frames.map (·.filterMap (·.numbered d.deliveryIdAgain))) ∧
    ∀ (M E : Type) (decode : Bytes → Except E M) (closing : Closing) (r : ReceiverInner)
      (frames : List TransferFrame), d.Kept r → d.framesAgain store again = some frames →
        AllTaken (Run.run (receive decode closing) r frames).2 →
          ∃ payload delivery, d.reassembled store again = some payload ∧
            (Run.run (receive decode closing) r frames).2.getLast? = some (.ok (some delivery)) ∧
            decode payload = .ok delivery.message := by
  refine ⟨fun hreceived => ?_, fun received hstate hle hreached hroom hjoins => ?_,
    fun t resuming split hresuming hbegins => framesAgain_of_begins hresuming hbegins,
    fun M E decode closing r frames hkept hframes htaken => handsOver_reassembled hkept hframes htaken⟩
  · by_cases hnone : d.message.state = none
    · have hsends : d.SendsOn := .inl hnone
      rcases Nat.eq_zero_or_pos again.maxPayload with hzero | hroom
      · have hnever := d.framesAgain_no_room hsends store hzero
        simp [Intact, reassembled, hnever, hzero]
      · have hharmless : Harmless d.message.state d.joined := fun received h =>
          absurd h (hreceived received)
        rw [d.intact_iff hsends store hroom hharmless List.prefix_rfl]
        simp [hnone, hroom]
    · have hnever := d.framesAgain_of_outcome hnone hreceived store again
      simp [Intact, reassembled, hnever, hnone]
  · have hharmless : Harmless d.message.state d.message.payload := by
      intro received' hstate'
      rw [hstate] at hstate'
      cases hstate'
      exact hreached
    have hwhole : d.joined = d.message.payload := (d.joined_eq_iff.mpr hjoins).2
    have hsends : d.SendsOn := .inr ⟨received, hstate, fun _ => hle⟩
    apply (d.intact_iff hsends store hroom hharmless ?_).mpr hjoins
    rw [hwhole]

section HeaderAndValue

private def peerAttach : Attach :=
  { name := "a", handle := 7, role := .receiver, sndSettleMode := .mixed, rcvSettleMode := .first
    source := none, target := none, unsettled := none, incompleteUnsettled := false
    initialDeliveryCount := none, maxMessageSize := none, offeredCapabilities := none
    desiredCapabilities := none, properties := none }

private def openWindow : SessionAction :=
  .incoming [] ⟨0, .flow
    { nextIncomingId := some 0, incomingWindow := 10, nextOutgoingId := 0, outgoingWindow := 10
      handle := none, deliveryCount := none, linkCredit := none, available := none
      drain := false, echo := false, properties := none }⟩

/-- The link is given a handle, and both ends attach. -/
private def attachLink : List SessionAction :=
  [.allocateLink "a" (some (.sender 0 () .first)),
    .linkFrame (.attach { peerAttach with handle := 0, role := .sender }) 0,
    .incoming [] ⟨0, .attach peerAttach⟩]

/-- Both ends detach. -/
private def detachLink : List SessionAction :=
  [.linkFrame (.detach ⟨0, false, none⟩) 0, .incoming [] ⟨0, .detach ⟨7, false, none⟩⟩]

private def attachedSession : Session :=
  (Run.run Session.act (SessionBuilder.intoSession {} 0 .mapped LinkStore.empty)
    (attachLink ++ [openWindow])).1

private theorem attachedSession_waiting :
    ∀ item ∈ attachedSession.remoteIncomingWindowExhaustedBuffer, item.WellFormed := by
  have hempty : attachedSession.remoteIncomingWindowExhaustedBuffer = [] :=
    List.length_eq_zero_iff.mp (by decide +kernel)
  simp [hempty]

private theorem suspended_wellFormed : ∀ action ∈ detachLink ++ attachLink, action.WellFormed := by
  simp [detachLink, attachLink, SessionAction.WellFormed, LinkFrame.WellFormed, LinkFrame.transfer?]

/-- A message with a header and a value, cut behind the descriptor of the value. -/
private def wholeHeadersArrived : CutDelivery where
  message := ⟨[0x00, 0x53, 0x70, 0xc0, 2, 1, 0x41, 0x00, 0x53, 0x77, 0xa1, 3, 97, 98, 99], none, 0, 0⟩
  deliveryTag := [1]
  inputHandle := ⟨7⟩
  transfer := { resumingTransfer ⟨0⟩ [1] 0 none none false with resume := false }
  arrived := [[0x00, 0x53, 0x70, 0xc0, 2, 1, 0x41, 0x00, 0x53, 0x77, 0xa1]]
  rest := [[3, 97, 98, 99]]
  session := attachedSession
  since := detachLink ++ attachLink
  transfer_deliveryTag := rfl
  transfer_messageFormat := rfl
  transfer_state := fun _ h => by cases h
  sections := ⟨⟨0x70, [0xc0, 2, 1, 0x41], by decide⟩, [⟨0x77, [0xa1, 3, 97, 98, 99], by decide⟩], rfl⟩
  payload := rfl
  frame_size := by decide
  payload_size := by decide
  session_mapped := by decide +kernel
  session_waiting := attachedSession_waiting
  since_wellFormed := suspended_wellFormed
  since_mapped := by decide +kernel

/-- The same message in three frames that all have arrived; both headers are cut. -/
private def headersCut : CutDelivery :=
  { wholeHeadersArrived with
    arrived := [[0x00, 0x53], [0x70, 0xc0, 2, 1, 0x41, 0x00, 0x53], [0x77, 0xa1, 3, 97, 98, 99]]
    rest := []
    payload := rfl
    frame_size := by decide
    since_mapped := by decide +kernel }

/-- The same message, of which nothing has arrived, though the sender was told that something had. -/
private def nothingArrived : CutDelivery :=
  { wholeHeadersArrived with
    message := { wholeHeadersArrived.message with state := some (.received ⟨0, 0⟩) }
    arrived := []
    rest := [wholeHeadersArrived.message.payload]
    payload := rfl
    frame_size := nofun
    since_mapped := by decide +kernel }

private def attachedAgain : Reattached := ⟨⟨7⟩, ⟨0⟩, false, [2], 100⟩

private def noLinks : LinkStore where
  cell _ :=
    { flowState := ⟨0, 0, 0, 0, false, none⟩
      senderUnsettled := none
      receiverUnsettled := none
      incoming := []
      endpointDropped := false }
  outcomes _ := none

private def keptReceiver : ReceiverInner where
  link :=
    { localState := .attached, outputHandle := some ⟨0⟩, rcvSettleMode := .first
      maxMessageSize := 0, flowState := ⟨0, 0, 10, 0, false, none⟩
      unsettled := some (IndexMap.empty.insert [1] (some (.received ⟨0, 15⟩)))
      sessionStopReason := none }
  creditMode := .manual
  processed := 0
  autoAccept := false
  outgoing := ⟨[], false⟩
  incompleteTransfer := none

private theorem headersCut_joins : headersCut.Joins := by
  refine ⟨fun _ i hi => ?_, fun _ hrest => absurd rfl hrest⟩
  obtain ⟨hlen, start, -, hoffset, -⟩ := hi
  have hcounted : headersCut.arrived.flatten.length - lastWhole headersCut.arrived = 15 := by
    decide +kernel
  have hpayload : headersCut.message.payload.length = 15 := rfl
  omega

private def undecoded : Bytes → Except Unit Bytes := .ok

private def closedByPeer : Closing := ⟨.closed, .ok ()⟩

private theorem headersCut_kept : headersCut.Kept keptReceiver := by
  refine ⟨rfl, fun harrived => ?_⟩
  have hcounted : headersCut.counted = ⟨0, 15⟩ := by
    rw [counted, Received.mk.injEq]
    exact ⟨by decide +kernel, by decide +kernel⟩
  rw [headersCut.entry_eq, if_neg harrived, hcounted]
  rfl

/-- The frames that are sent on and that this receiver takes in. -/
private theorem headersCut_taken :
    ∃ frames, headersCut.framesAgain noLinks attachedAgain = some frames ∧
      AllTaken (Run.run (receive undecoded closedByPeer) keptReceiver frames).2 := by
  have hall : (headersCut.framesAgain noLinks attachedAgain).map (fun frames =>
      (Run.run (receive undecoded closedByPeer) keptReceiver frames).2.all fun result =>
        result.toOption.isSome) = some true := by
    decide +kernel
  obtain ⟨frames, hframes, htaken⟩ := Option.map_eq_some_iff.mp hall
  refine ⟨frames, hframes, fun result hmem => ?_⟩
  have hok := List.all_eq_true.mp htaken result hmem
  cases result with
  | error e => cases hok
  | ok delivery => exact ⟨delivery, rfl⟩

theorem headers_cut_resumed_intact :
    headersCut.Intact noLinks attachedAgain ∧ nothingArrived.Intact noLinks attachedAgain ∧
      ∃ frames delivery, headersCut.framesAgain noLinks attachedAgain = some frames ∧
        (Run.run (receive undecoded closedByPeer) keptReceiver frames).2.getLast? =
          some (.ok (some delivery)) ∧
        delivery.message = headersCut.message.payload := by
  have hintact : headersCut.Intact noLinks attachedAgain :=
    ((resumed_intact_iff headersCut noLinks attachedAgain).1 nofun).mpr
      ⟨rfl, by decide, headersCut_joins⟩
  refine ⟨hintact, ?_, ?_⟩
  · apply (resumed_intact_iff nothingArrived noLinks attachedAgain).2.1 ⟨0, 0⟩
    · rfl
    · decide +kernel
    · rfl
    · decide
    · exact ⟨fun hrest => absurd hrest (List.cons_ne_nil _ _), fun harrived => absurd rfl harrived⟩
  · obtain ⟨frames, hframes, htaken⟩ := headersCut_taken
    obtain ⟨payload, delivery, hreassembled, hlast, hdecode⟩ :=
      (resumed_intact_iff headersCut noLinks attachedAgain).2.2.2 Bytes Unit undecoded
        closedByPeer keptReceiver frames headersCut_kept hframes htaken
    refine ⟨frames, delivery, hframes, hlast, ?_⟩
    have hmessage : payload = delivery.message := Except.ok.inj hdecode
    rw [← hmessage]
    exact Option.some.inj (hreassembled.symm.trans hintact)

/-- No header is cut, and the session has handed over one delivery: the resumed transfer has another
delivery-id than the frame that is buffered, and the receiver refuses it. -/
theorem resumed_delivery_refused :
    ¬wholeHeadersArrived.Intact noLinks attachedAgain ∧
      (wholeHeadersArrived.framesAgain noLinks attachedAgain).isSome ∧
      wholeHeadersArrived.reassembled noLinks attachedAgain = none := by
  refine ⟨?_, ?_, ?_⟩
  · decide +kernel
  · decide +kernel
  · decide +kernel

end HeaderAndValue

end CutDelivery

end Fe2o3Amqp
