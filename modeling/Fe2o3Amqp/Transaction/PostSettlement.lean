import Fe2o3Amqp.Link.Reassembly
import Fe2o3Amqp.Session.Echo
import Fe2o3Amqp.Transaction.Commit
import Fe2o3Amqp.Util.Except

/-!
# Settling a posted delivery

Two parts of the resource settle a delivery that is posted under a transaction: the transaction
answers each of its frames that carries the delivery-id, and the receiver link, to which a commit
hands the frames unsettled, settles the delivery once more when the application disposes of it.
-/

namespace Fe2o3Amqp

/-- The disposition settles the delivery with the id for the receiver. -/
def Disposition.Settles (id : DeliveryNumber) (disposition : Disposition) : Prop :=
  disposition.role = .receiver ∧ disposition.settled = true ∧ disposition.Covers id

instance (id : DeliveryNumber) (disposition : Disposition) : Decidable (disposition.Settles id) :=
  inferInstanceAs (Decidable (_ ∧ _ ∧ (_ : UInt32) ≤ _))

theorem Disposition.covers_single {id : DeliveryNumber} {disposition : Disposition}
    (hlast : disposition.last = none) (hcovers : disposition.Covers id) : disposition.first = id := by
  simp only [Covers, hlast, Option.getD_none, UInt32.sub_self] at hcovers
  have hzero : id - disposition.first = 0 := UInt32.le_zero_iff.mp hcovers
  rw [UInt32.sub_eq_iff_eq_add.mp hzero, UInt32.zero_add]

/-- A disposition of the sender settles nothing for the receiver. -/
theorem countP_settles_sender {dispositions : List Disposition}
    (h : ∀ disposition ∈ dispositions, disposition.role = .sender) (id : DeliveryNumber) :
    dispositions.countP (Disposition.Settles id) = 0 := by
  rw [List.countP_eq_zero]
  intro disposition hmem
  simp [Disposition.Settles, h disposition hmem]

def SessionFrame.settles (id : DeliveryNumber) (frame : SessionFrame) : Bool :=
  match frame.body with
  | .disposition disposition => disposition.Settles id
  | _ => false

namespace IncompleteTransfer

theorem orAssignField_any {α E E' : Type} [DecidableEq α] {value other result : Option α}
    (h : orAssignField (E := E) value other = .ok result) :
    orAssignField (E := E') value other = .ok result := by
  cases value with
  | none =>
      cases h
      rfl
  | some value =>
      cases other with
      | none =>
          cases h
          rfl
      | some other =>
          simp only [orAssignField] at h ⊢
          split_ifs at h ⊢
          cases h
          rfl

/-- A merge that succeeds does not depend on the type of the errors. -/
theorem orAssign_any {E F : Type} {performative other merged : Transfer}
    (h : orAssign (E := E) performative other = .ok merged) :
    orAssign (E := F) performative other = .ok merged := by
  simp only [orAssign] at h ⊢
  obtain ⟨deliveryId, hid, h⟩ := Except.bind_eq_ok.mp h
  obtain ⟨deliveryTag, htag, h⟩ := Except.bind_eq_ok.mp h
  obtain ⟨messageFormat, hformat, h⟩ := Except.bind_eq_ok.mp h
  rw [orAssignField_any hid, orAssignField_any htag, orAssignField_any hformat]
  cases h
  rfl

end IncompleteTransfer

namespace ReceiverLink

variable {M E : Type}

/-- The mode in which the link disposes of a delivery that it took over with the performative. -/
def settleModeOf (link : ReceiverLink) (performative : Transfer) : ReceiverSettleMode :=
  if performative.settled.getD false then link.rcvSettleMode
  else performative.rcvSettleMode.getD link.rcvSettleMode

/-- Whether the unsettled map has the delivery. -/
def Knows (link : ReceiverLink) (tag : DeliveryTag) : Prop :=
  (link.unsettled.bind (·.get tag)).isSome

instance (link : ReceiverLink) (tag : DeliveryTag) : Decidable (link.Knows tag) :=
  inferInstanceAs (Decidable (_ = true))

/-- A delivery that the link hands over is disposed of in the mode of its performative. -/
theorem onCompleteTransfer_mode {decode : Bytes → Except E M} {link link' : ReceiverLink}
    {transfer : Transfer} {payload : List Payload} {number : UInt32} {offset : UInt64}
    {delivery : Delivery M}
    (h : link.onCompleteTransfer decode transfer payload number offset = (.ok delivery, link')) :
    transfer.deliveryId = some delivery.deliveryId ∧
      link'.disposesSettled delivery.info none = (link.settleModeOf transfer == .first) := by
  have hover : ∀ {link : ReceiverLink} {info : DeliveryInfo} {format : Option MessageFormat}
      {result : Except E M}, link.handOver info format result = .ok delivery →
      delivery.info = info := by
    intro link info format result hresult
    simp only [handOver] at hresult
    split at hresult
    · cases hresult
    · split at hresult
      · cases hresult
      · cases hresult
        rfl
  simp only [onCompleteTransfer] at h
  split at h
  · cases h
  · split at h
    · cases h
    · next link₁ hconsume =>
        have hmode : link₁.rcvSettleMode = link.rcvSettleMode := by
          simp only [consume] at hconsume
          split at hconsume
          · cases hconsume
          · cases hconsume
            rfl
        split at h
        · cases h
        · cases h
        · next deliveryId deliveryTag hid htag =>
            split at h
            · next hsettled =>
                simp only [Prod.mk.injEq] at h
                obtain ⟨hresult, rfl⟩ := h
                have hinfo := hover hresult
                have hsame : delivery.deliveryId = deliveryId := congrArg DeliveryInfo.deliveryId hinfo
                simp [hid, hsame, hinfo, disposesSettled, settleModeOf, hsettled, hmode]
            · next hsettled =>
                split at h
                · cases h
                · next mode htransfer =>
                    simp only [Prod.mk.injEq] at h
                    obtain ⟨hresult, rfl⟩ := h
                    have hinfo := hover hresult
                    have hsame : delivery.deliveryId = deliveryId :=
                      congrArg DeliveryInfo.deliveryId hinfo
                    -- the transfer's own mode, where it names one
                    have hown : mode = transfer.rcvSettleMode := by
                      simp only [transferSettleMode] at htransfer
                      split at htransfer
                      · next hnone =>
                          cases htransfer
                          exact hnone.symm
                      · next hsome =>
                          split_ifs at htransfer
                          cases htransfer
                          exact hsome.symm
                    simp [hid, hsame, hinfo, disposesSettled, settleModeOf, hsettled, hmode, hown,
                      insertUnsettled]

end ReceiverLink

namespace ReceiverInner

variable {M E : Type}

/-- What the receiver may hand to the session besides attaches: flows, detaches, and dispositions with
the property. -/
def Emits (P : Disposition → Prop) (before after : LinkWriter) : Prop :=
  ∃ frames, after.sent = before.sent ++ frames ∧ ∀ frame ∈ frames,
    (∃ flow, frame = .flow flow) ∨ (∃ detach, frame = .detach detach) ∨
      ∃ disposition, frame = .disposition disposition ∧ P disposition

section Emits

variable {P Q : Disposition → Prop} {w w' w'' : LinkWriter}

theorem Emits.refl (w : LinkWriter) : Emits P w w := ⟨[], by simp, by simp⟩

theorem Emits.trans (h : Emits P w w') (h' : Emits P w' w'') : Emits P w w'' := by
  obtain ⟨frames, hsent, hframes⟩ := h
  obtain ⟨frames', hsent', hframes'⟩ := h'
  refine ⟨frames ++ frames', by rw [hsent', hsent, List.append_assoc], fun frame hmem => ?_⟩
  rcases List.mem_append.mp hmem with hmem | hmem
  · exact hframes frame hmem
  · exact hframes' frame hmem

theorem Emits.imp (h : Emits P w w') (hpq : ∀ disposition, P disposition → Q disposition) :
    Emits Q w w' := by
  obtain ⟨frames, hsent, hframes⟩ := h
  refine ⟨frames, hsent, fun frame hmem => ?_⟩
  rcases hframes frame hmem with hflow | hdetach | ⟨disposition, hframe, hp⟩
  · exact .inl hflow
  · exact .inr (.inl hdetach)
  · exact .inr (.inr ⟨disposition, hframe, hpq disposition hp⟩)

/-- One frame on the channel. -/
theorem emits_send {frame : LinkFrame} (h : w.send frame = some w')
    (hframe : (∃ flow, frame = .flow flow) ∨ (∃ detach, frame = .detach detach) ∨
      ∃ disposition, frame = .disposition disposition ∧ P disposition) : Emits P w w' := by
  simp only [LinkWriter.send] at h
  split_ifs at h
  cases h
  exact ⟨[frame], rfl, fun frame' hmem => by rw [List.mem_singleton.mp hmem]; exact hframe⟩

end Emits

/-- The performatives with which a frame may complete a delivery: its own and, behind the frames that
are buffered, the merged one. -/
def performatives (r : ReceiverInner) (transfer : Transfer) : List Transfer :=
  transfer :: match r.incompleteTransfer with
    | none => []
    | some incomplete =>
        match IncompleteTransfer.orAssign (E := Unit) incomplete.performative transfer with
        | .ok merged => [merged]
        | .error _ => []

/-- The disposition disposes of a delivery in the given mode. -/
def Disposes (id : DeliveryNumber) (settled : Bool) (disposition : Disposition) : Prop :=
  disposition.first = id ∧ disposition.last = none ∧ disposition.settled = settled

theorem closeWithError_emits (P : Disposition → Prop) (r : ReceiverInner) (closing : Closing)
    (error : Option Error) : Emits P r.outgoing (r.closeWithError closing error).2.outgoing := by
  simp only [closeWithError]
  split
  · split
    · exact .refl _
    · split
      · exact .refl _
      · next hsend => exact emits_send hsend (.inr (.inl ⟨_, rfl⟩))
  all_goals exact .refl _

theorem closeOnMalformedDelivery_emits (P : Disposition → Prop) (r : ReceiverInner)
    (closing : Closing) (error : ReceiverTransferError E) :
    Emits P r.outgoing (r.closeOnMalformedDelivery closing error).2.outgoing :=
  r.closeWithError_emits P closing _

theorem updateCreditIfAuto_emits (P : Disposition → Prop) (r : ReceiverInner) (processed : UInt32) :
    Emits P r.outgoing (r.updateCreditIfAuto processed).2.outgoing := by
  simp only [updateCreditIfAuto]
  split
  · exact .refl _
  · split_ifs
    · simp only [ReceiverLink.sendFlow]
      cases r.link.outputHandle with
      | none => exact .refl _
      | some handle =>
          dsimp only
          cases hsend : r.outgoing.send (.flow (r.link.getLinkFlow handle.handle _ _ _ _).1) with
          | none => exact .refl _
          | some outgoing => exact emits_send hsend (.inl ⟨_, rfl⟩)
    · exact .refl _

theorem dispose_emits (r : ReceiverInner) (info : DeliveryInfo) (settled : Option Bool)
    (state : DeliveryState) :
    Emits (fun disposition => r.link.Knows info.deliveryTag ∧
        Disposes info.deliveryId (r.link.disposesSettled info settled) disposition) r.outgoing
      (r.dispose info settled state).2.outgoing := by
  simp only [dispose]
  cases hlink : r.link.dispose r.outgoing info settled state false with
  | mk result link =>
      cases result with
      | error error => exact .refl _
      | ok outgoing =>
          refine Emits.trans (?_ : Emits _ _ outgoing) ?_
          · simp only [ReceiverLink.dispose] at hlink
            split at hlink
            · next hknown =>
                split at hlink
                · cases hlink
                · next hsend =>
                    cases hlink
                    exact emits_send hsend (.inr (.inr ⟨_, rfl, hknown, rfl, rfl, rfl⟩))
            · cases hlink
              exact .refl _
          · exact updateCreditIfAuto_emits _
              { r with outgoing, link, processed := r.processed + 1 } (r.processed + 1)

/-- What the link hands to the session when the performative completes a delivery. -/
def Accepts (r : ReceiverInner) (performative : Transfer) (disposition : Disposition) : Prop :=
  r.autoAccept = true ∧ ∃ id, performative.deliveryId = some id ∧
    Disposes id (r.link.settleModeOf performative == .first) disposition

theorem complete_emits (decode : Bytes → Except E M) (r : ReceiverInner) (transfer : Transfer)
    (payload : List Payload) (number : UInt32) (offset : UInt64) :
    Emits (r.Accepts transfer) r.outgoing
      (r.complete decode transfer payload number offset).2.outgoing := by
  simp only [complete]
  cases hlink : r.link.onCompleteTransfer decode transfer payload number offset with
  | mk result link =>
      cases result with
      | error error => exact .refl _
      | ok delivery =>
          obtain ⟨hid, hmode⟩ := ReceiverLink.onCompleteTransfer_mode hlink
          by_cases hauto : (r.withLink link).autoAccept
          · have hemits := (r.withLink link).dispose_emits delivery.info none .accepted
            have haccepts := hemits.imp fun disposition h =>
              (⟨hauto, delivery.deliveryId, hid, hmode ▸ h.2⟩ : r.Accepts transfer disposition)
            simp only [if_pos hauto]
            cases hdispose : (r.withLink link).dispose delivery.info none .accepted with
            | mk result r' =>
                rw [hdispose] at haccepts
                cases result <;> exact haccepts
          · simp only [if_neg hauto]
            exact .refl _

/-- What the receiver may hand to the session when the frame arrives. -/
def AcceptsOne (r : ReceiverInner) (transfer : Transfer) (disposition : Disposition) : Prop :=
  ∃ performative ∈ r.performatives transfer, r.Accepts performative disposition

variable (r : ReceiverInner) (closing : Closing) (transfer : Transfer) (payload : Payload)

theorem completeSingle_emits (decode : Bytes → Except E M) :
    Emits (r.AcceptsOne transfer) r.outgoing
      (r.completeSingle decode closing transfer payload).2.outgoing := by
  simp only [completeSingle]
  cases ensureDeliveryIdentity (E := E) transfer with
  | error error => exact r.closeOnMalformedDelivery_emits _ closing error
  | ok _ =>
      apply Emits.imp (r.complete_emits decode transfer [payload] _ _)
      intro disposition h
      exact ⟨transfer, List.mem_cons_self, h⟩

theorem onCompleteTransfer_emits (decode : Bytes → Except E M) :
    Emits (r.AcceptsOne transfer) r.outgoing
      (r.onCompleteTransfer decode closing transfer payload).2.outgoing := by
  simp only [onCompleteTransfer]
  cases hincomplete : r.incompleteTransfer with
  | none => exact r.completeSingle_emits closing transfer payload decode
  | some incomplete =>
      simp only [IncompleteTransfer.tryAppend]
      split
      · next happend =>
          exact closeOnMalformedDelivery_emits _ { r with incompleteTransfer := none } closing _
      · next appended happend =>
          -- the performative is the merged one
          obtain ⟨merged, hmerged, hperformative⟩ : ∃ merged,
              IncompleteTransfer.orAssign (E := E) incomplete.performative transfer = .ok merged ∧
                appended.performative = merged := by
            split_ifs at happend
            split at happend
            · cases happend
            · next merged hmerged =>
                cases happend
                exact ⟨merged, hmerged, rfl⟩
          have hmem : appended.performative ∈ r.performatives transfer := by
            have hunit := IncompleteTransfer.orAssign_any (F := Unit) hmerged
            simp [performatives, hincomplete, hunit, hperformative]
          apply Emits.imp (complete_emits decode { r with incompleteTransfer := none }
            appended.performative _ _ _)
          intro disposition h
          exact ⟨appended.performative, hmem, h⟩

theorem onIncompleteTransfer_emits (P : Disposition → Prop) :
    Emits P r.outgoing
      (r.onIncompleteTransfer (E := E) closing transfer payload).2.outgoing := by
  simp only [onIncompleteTransfer]
  split
  · exact r.closeOnMalformedDelivery_emits P closing _
  · exact .refl _

theorem takeIn_emits (decode : Bytes → Except E M) (matchesBuffer : Bool) :
    Emits (r.AcceptsOne transfer) r.outgoing
      (r.takeIn decode closing transfer payload matchesBuffer).2.outgoing := by
  simp only [takeIn]
  split
  · exact closeWithError_emits _ { r with incompleteTransfer := none } closing _
  · split_ifs
    · have hemits := r.onIncompleteTransfer_emits (E := E) closing transfer payload
        (r.AcceptsOne transfer)
      cases hout : r.onIncompleteTransfer (E := E) closing transfer payload with
      | mk result r' =>
          rw [hout] at hemits
          cases result <;> exact hemits
    · exact r.completeSingle_emits closing transfer payload decode
    · exact r.onCompleteTransfer_emits closing transfer payload decode

theorem keepBuffer_performative (incomplete : IncompleteTransfer) (number : UInt32)
    (offset : UInt64) :
    (incomplete.keepBufferTillSectionNumberAndOffset number offset).performative =
      incomplete.performative := by
  simp only [IncompleteTransfer.keepBufferTillSectionNumberAndOffset]
  split <;> rfl

/-- What a frame may make the receiver accept depends on the buffered performative and the modes. -/
theorem acceptsOne_congr {r r' : ReceiverInner} (hauto : r'.autoAccept = r.autoAccept)
    (hmode : r'.link.rcvSettleMode = r.link.rcvSettleMode)
    (hincomplete : r'.incompleteTransfer.map (·.performative) =
      r.incompleteTransfer.map (·.performative)) :
    r'.AcceptsOne transfer = r.AcceptsOne transfer := by
  have hperformatives : r'.performatives transfer = r.performatives transfer := by
    simp only [performatives]
    cases hafter : r'.incompleteTransfer with
    | none =>
        rw [hafter] at hincomplete
        rw [Option.map_eq_none_iff.mp hincomplete.symm]
    | some incomplete' =>
        rw [hafter] at hincomplete
        obtain ⟨incomplete, hbefore, hsame⟩ := Option.map_eq_some_iff.mp hincomplete.symm
        rw [hbefore]
        simp only [hsame]
  funext disposition
  simp only [AcceptsOne, Accepts, ReceiverLink.settleModeOf, hperformatives, hauto, hmode]

theorem onTransferState_emits (P : Disposition → Prop) (tag : Option DeliveryTag)
    (settled : Option Bool) (state : DeliveryState) :
    Emits P r.outgoing (r.onTransferState (E := E) closing tag settled state).2.outgoing ∧
      ((r.onTransferState (E := E) closing tag settled state).1.isOk →
        (r.onTransferState (E := E) closing tag settled state).2.AcceptsOne transfer =
          r.AcceptsOne transfer) := by
  simp only [onTransferState]
  split
  · exact ⟨r.closeOnMalformedDelivery_emits (E := E) P closing _, fun h => by cases h⟩
  · split
    · exact ⟨.refl _, fun h => by cases h⟩
    · next link hlink =>
        refine ⟨.refl _, fun _ => acceptsOne_congr transfer rfl ?_ ?_⟩
        · simp only [ReceiverLink.onTransferState] at hlink
          split_ifs at hlink
          · cases hlink
            rfl
          · split at hlink
            · cases hlink
              rfl
            · split_ifs at hlink
              all_goals
                cases hlink
                rfl
        · cases r.incompleteTransfer with
          | none => rfl
          | some incomplete =>
              simp only [withLink, Option.map_some]
              split
              · rw [keepBuffer_performative]
              · rfl

theorem onIncomingTransfer_emits (decode : Bytes → Except E M) :
    Emits (r.AcceptsOne transfer) r.outgoing
      (r.onIncomingTransfer decode closing transfer payload).2.outgoing := by
  simp only [onIncomingTransfer]
  split_ifs
  · simp only [onAbortedTransfer]
    split
    · exact .refl _
    · split_ifs
      · exact r.closeOnMalformedDelivery_emits (E := E) _ closing _
      · exact .refl _
  · exact .refl _
  · cases hstate : transfer.state with
    | none => exact r.takeIn_emits closing transfer payload decode _
    | some state =>
        obtain ⟨hemits, hsame⟩ := r.onTransferState_emits (E := E) closing transfer
          (r.AcceptsOne transfer) transfer.deliveryTag transfer.settled state
        dsimp only
        cases hout : r.onTransferState (E := E) closing transfer.deliveryTag transfer.settled state with
        | mk result r' =>
            rw [hout] at hemits hsame
            cases result with
            | error error => exact hemits
            | ok _ =>
                have htaken := r'.takeIn_emits closing transfer payload decode
                  (r.matchesBuffer transfer)
                rw [hsame rfl] at htaken
                exact hemits.trans htaken

end ReceiverInner

/-! ## What the session emits -/

namespace Session

theorem echoDispositions_role (state : Option DeliveryState) (ids : List DeliveryNumber) (prev : Nat)
    (inds : List Nat) : ∀ echo ∈ echoDispositions state ids prev inds, echo.role = .sender := by
  induction inds generalizing prev with
  | nil => simp [echoDispositions]
  | cons ind inds ih =>
      intro echo hmem
      rcases List.mem_cons.mp hmem with rfl | hmem
      · rfl
      · exact ih ind echo hmem

theorem onIncomingDisposition_role (s : Session) (disposition : Disposition) :
    ∀ echo ∈ (s.onIncomingDisposition disposition).1.getD [], echo.role = .sender := by
  simp only [onIncomingDisposition]
  split
  · simp
  · exact echoDispositions_role _ _ _ _

/-- The session answers no transfer. -/
theorem onIncomingTransfer_reply (s : Session) (transfer : Transfer) (payload : Payload)
    (reply : Option Disposition) (h : (s.onIncomingTransfer transfer payload).1 = .ok reply) :
    reply = none := by
  rcases s.onIncomingTransfer_cases transfer payload with
    ⟨link, outputHandle, mode, more, hrelay, halive⟩ | ⟨herror, -⟩
  · have hok := (onIncomingTransfer_of_receiver payload hrelay halive).1
    rw [hok] at h
    cases h
    rfl
  · rw [h] at herror
    cases herror

theorem sendDispositions_settles (s : Session) (dispositions : List Disposition)
    (id : DeliveryNumber) :
    (s.sendDispositions dispositions).1.countP (SessionFrame.settles id) =
      dispositions.countP (Disposition.Settles id) := by
  induction dispositions generalizing s with
  | nil => rfl
  | cons disposition dispositions ih =>
      simp only [sendDispositions, List.countP_cons, ih, s.onOutgoingDisposition_fst disposition]
      rfl

/-- The frames that a receiver link hands to the session settle nothing but what its dispositions
settle. -/
theorem drainLinkFrames_settles (s : Session) {frames : List LinkFrame} {id : DeliveryNumber}
    (h : ∀ frame ∈ frames, (∃ flow, frame = .flow flow) ∨ (∃ detach, frame = .detach detach) ∨
      ∃ disposition, frame = .disposition disposition ∧ ¬disposition.Settles id) :
    (s.drainLinkFrames frames).frames.countP (SessionFrame.settles id) = 0 := by
  have hone : ∀ (s : Session), ∀ frame ∈ frames,
      (s.onOutgoingLinkFrames frame).frames.countP (SessionFrame.settles id) = 0 := by
    intro s frame hmem
    simp only [onOutgoingLinkFrames]
    split_ifs
    · rfl
    · rcases h frame hmem with ⟨flow, rfl⟩ | ⟨detach, rfl⟩ | ⟨disposition, rfl, hother⟩
      · simp [dispatched, SessionFrame.settles, onOutgoingFlow]
      · simp only [dispatched, onOutgoingDetach, if_true]
        split_ifs <;> rfl
      · simp [dispatched, s.onOutgoingDisposition_fst disposition, SessionFrame.settles, hother]
  induction frames generalizing s with
  | nil => rfl
  | cons frame frames ih =>
      have hfirst := hone s frame List.mem_cons_self
      have hrest := fun s => ih s (fun frame' hmem => h frame' (List.mem_cons_of_mem _ hmem))
        fun s frame' hmem => hone s frame' (List.mem_cons_of_mem _ hmem)
      simp only [drainLinkFrames]
      cases (s.onOutgoingLinkFrames frame).result with
      | error error => exact hfirst
      | ok _ => simp only [List.countP_append, hfirst, hrest]

end Session

namespace TxnSession

variable {s : TxnSession Session}

theorem applyFrame_control (s : TxnSession Session) (frame : TxnWorkFrame) :
    ∃ echoes, (s.applyFrame frame).2.control = s.control ++ echoes ∧
      ∀ echo ∈ echoes, echo.role = .sender := by
  cases frame with
  | post transfer payload =>
      have hreply := s.session.onIncomingTransfer_reply transfer.discharged payload
      simp only [applyFrame, EndpointSession.onIncomingTransfer]
      cases hout : s.session.onIncomingTransfer transfer.discharged payload with
      | mk result session =>
          cases result with
          | error error => exact ⟨[], by simp, by simp⟩
          | ok reply =>
              rw [hout] at hreply
              obtain rfl := hreply reply rfl
              exact ⟨[], rfl, by simp⟩
  | retire disposition =>
      exact ⟨_, rfl, s.session.onIncomingDisposition_role disposition.discharged⟩

theorem applyFrames_control (s : TxnSession Session) (frames : List TxnWorkFrame) :
    ∃ echoes, (s.applyFrames frames).2.control = s.control ++ echoes ∧
      ∀ echo ∈ echoes, echo.role = .sender := by
  induction frames generalizing s with
  | nil => exact ⟨[], by simp [applyFrames], by simp⟩
  | cons frame frames ih =>
      obtain ⟨echoes, hfirst, hsender⟩ := s.applyFrame_control frame
      simp only [applyFrames]
      cases hframe : s.applyFrame frame with
      | mk result s' =>
          rw [hframe] at hfirst
          cases result with
          | error error => exact ⟨echoes, hfirst, hsender⟩
          | ok _ =>
              obtain ⟨echoes', hrest, hsender'⟩ := ih s'
              refine ⟨echoes ++ echoes', ?_, fun echo hmem => ?_⟩
              · rw [hrest, hfirst, List.append_assoc]
              · rcases List.mem_append.mp hmem with hmem | hmem
                · exact hsender echo hmem
                · exact hsender' echo hmem

/-- A frame under a transaction that is not settled and carries the delivery-id. -/
def Posts (id : DeliveryNumber) : TxnWorkFrame → Prop
  | .post transfer _ => (transactionOf transfer.state).isSome ∧ transfer.settled ≠ some true ∧
      transfer.deliveryId = some id
  | .retire _ => False

instance (id : DeliveryNumber) : DecidablePred (Posts id)
  | .post _ _ => inferInstanceAs (Decidable (_ ∧ _ ∧ _))
  | .retire _ => inferInstanceAs (Decidable False)

/-- What one event makes the session send: the answers and the dispositions put on the control
channel. -/
def replies (s : TxnSession Session) (e : TxnEvent) : List Disposition :=
  (s.act e).2 ++ (s.act e).1.control

/-- The provisional outcome settles the delivery whose id the frame carries. -/
theorem postReply_settles (txnId : TransactionId) {transfer : Transfer} (payload : Payload)
    (hposted : (transactionOf transfer.state).isSome) (id : DeliveryNumber) :
    (ResourceTransaction.postReply txnId transfer).toList.countP (Disposition.Settles id) ≤
      if Posts id (.post transfer payload) then 1 else 0 := by
  by_cases hsettled : transfer.settled = some true
  · simp [ResourceTransaction.postReply, hsettled]
  · have hreply : ResourceTransaction.postReply txnId transfer = transfer.deliveryId.map
        fun deliveryId =>
          { role := .receiver, first := deliveryId, last := none, settled := true
            state := some (.transactionalState ⟨txnId, some .accepted⟩), batchable := false } := by
      simp only [ResourceTransaction.postReply]
      split
      · next h => exact absurd h hsettled
      · rfl
      · rfl
    rw [hreply]
    cases hid : transfer.deliveryId with
    | none => simp
    | some deliveryId =>
        split_ifs with hposts
        · rw [Option.map_some, Option.toList_some]
          exact List.countP_le_length
        · -- a single delivery-id covers itself only
          simp only [Option.map_some, Option.toList_some, Nat.le_zero, List.countP_eq_zero,
            List.mem_singleton, forall_eq, decide_eq_true_eq]
          intro hsettles
          obtain rfl : deliveryId = id := Disposition.covers_single rfl hsettles.2.2
          exact hposts ⟨hposted, hsettled, hid⟩

theorem replies_incoming (hcontrol : s.control = []) (frame : TxnWorkFrame) (id : DeliveryNumber) :
    (s.replies (.incoming frame)).countP (Disposition.Settles id) ≤
      if Posts id frame then 1 else 0 := by
  cases frame with
  | post transfer payload =>
      cases hstate : transactionOf transfer.state with
      | none =>
          have hreply := s.session.onIncomingTransfer_reply transfer payload
          simp only [replies, act, onIncomingTransfer, hstate, EndpointSession.onIncomingTransfer]
          cases hout : s.session.onIncomingTransfer transfer payload with
          | mk result session =>
              cases result with
              | error error => simp [hcontrol]
              | ok reply =>
                  rw [hout] at hreply
                  obtain rfl := hreply reply rfl
                  simp [hcontrol]
      | some txnId =>
          simp only [replies, act, onIncomingTransfer, hstate]
          cases s.txns.get txnId with
          | none => simp [hcontrol]
          | some txn =>
              simp only [ResourceTransaction.onIncomingPost, hcontrol, List.append_nil]
              exact postReply_settles txnId payload (by simp [hstate]) id
  | retire disposition =>
      have hechoes := s.session.onIncomingDisposition_role disposition
      simp only [replies, act, onIncomingDisposition]
      cases transactionOf disposition.state with
      | none =>
          simp only [EndpointSession.onIncomingDisposition, hcontrol, List.append_nil]
          rw [countP_settles_sender hechoes]
          exact Nat.zero_le _
      | some txnId =>
          dsimp only
          cases s.txns.get txnId <;> simp [hcontrol]

theorem replies_other (hcontrol : s.control = []) {e : TxnEvent}
    (h : ∀ frame, e ≠ .incoming frame) (deliveryId : DeliveryNumber) :
    (s.replies e).countP (Disposition.Settles deliveryId) = 0 := by
  apply countP_settles_sender
  cases e with
  | incoming frame => exact absurd rfl (h frame)
  | declare drawn =>
      simp only [replies, act, allocateTransactionId_eq]
      cases drawn.find? fun id => (s.txns.get id).isNone <;> simp [hcontrol]
  | commit txnId =>
      simp only [replies, act, List.nil_append]
      cases hget : s.txns.get txnId with
      | none => simp [commitTransaction, hget, hcontrol]
      | some txn =>
          obtain ⟨echoes, hadds, hsender⟩ := applyFrames_control
            { s with txns := s.txns.swapRemove txnId } txn.frames
          rw [commitTransaction_live hget]
          simp only [Prod.map, id]
          rw [hadds, hcontrol]
          exact hsender
  | rollback txnId | abort txnId =>
      simp only [replies, act, rollbackTransaction]
      cases s.txns.get txnId <;> simp [hcontrol]

end TxnSession

/-! ## The resource -/

/-- A transactional session and the receiver of one of its links. -/
structure TxnResource where
  session : TxnSession Session
  link : LinkId
  receiver : ReceiverInner

inductive ResourceEvent where
  /-- A declare, a discharge, or a frame of the peer. -/
  | txn (e : TxnEvent)
  /-- The application receives; `closing` is how a handshake ends that a bad frame leads to. -/
  | recv (closing : Closing)
  /-- The application accepts, rejects, releases or modifies a delivery. -/
  | dispose (info : DeliveryInfo) (state : DeliveryState)

namespace TxnResource

variable {M E : Type}

/-- The resource between two events: the engine has emptied both channels, and the relay sees the flow
state and the unsettled map of the link. -/
def ready (r : TxnResource) : TxnResource :=
  { r with
    session :=
      { r.session with
        control := []
        session :=
          { r.session.session with
            links := r.session.session.links.modify r.link fun cell => { cell with
              flowState := r.receiver.link.flowState
              receiverUnsettled := r.receiver.link.unsettled } } }
    receiver := { r.receiver with outgoing := { r.receiver.outgoing with sent := [] } } }

/-- The engine takes the frames that the link has put on its channel. -/
def take (r : TxnResource) (receiver : ReceiverInner) : TxnResource × List SessionFrame :=
  let drained := r.session.session.drainLinkFrames receiver.outgoing.sent
  ({ r with session := { r.session with session := drained.session }, receiver }, drained.frames)

/-- The next frame that the relay has queued for the link. -/
def incoming? (r : TxnResource) : Option LinkFrame :=
  (r.session.session.links.cell r.link).incoming.head?

def pop (r : TxnResource) : TxnResource :=
  { r with
    session :=
      { r.session with
        session :=
          { r.session.session with
            links := r.session.session.links.modify r.link fun cell => { cell with
              incoming := cell.incoming.tail } } } }

/-- One event.  Of what a receiver is sent, only transfers are followed. -/
def step (decode : Bytes → Except E M) (r : TxnResource) (e : ResourceEvent) :
    TxnResource × List SessionFrame :=
  let r := r.ready
  match e with
  | .txn e =>
      let session := (r.session.act e).1
      let cell := session.session.links.cell r.link
      let (frames, inner) := session.session.sendDispositions (r.session.replies e)
      ({ r with
          session := { session with session := inner }
          receiver := r.receiver.withLink { r.receiver.link with
            flowState := cell.flowState
            unsettled := cell.receiverUnsettled } },
        frames)
  | .recv closing =>
      match r.incoming? with
      | some (.remoteTransfer frame) =>
          r.pop.take (r.receiver.onIncomingTransfer decode closing frame.performative frame.payload).2
      | _ => (r, [])
  | .dispose info state => r.take (r.receiver.dispose info none state).2

/-- The event brings a frame under a transaction that is not settled and carries the delivery-id. -/
def posts (id : DeliveryNumber) : ResourceEvent → Bool
  | .txn (.incoming frame) => TxnSession.Posts id frame
  | _ => false

/-- The link does not settle the delivery with the id in this event: where the application disposes of
it, or the receiver accepts it by itself, its settle mode is second. -/
def LeavesUnsettled (id : DeliveryNumber) (r : TxnResource) : ResourceEvent → Prop
  | .txn _ => True
  | .recv _ => ∀ frame, r.incoming? = some (.remoteTransfer frame) → r.receiver.autoAccept = true →
      ∀ performative ∈ r.receiver.performatives frame.performative,
        performative.deliveryId = some id →
          r.receiver.link.settleModeOf performative = .second
  | .dispose info _ => info.deliveryId = id → r.receiver.link.Knows info.deliveryTag →
      r.receiver.link.disposesSettled info none = false

theorem take_settles (r : TxnResource) {before : LinkWriter} {receiver : ReceiverInner}
    {P : Disposition → Prop} (id : DeliveryNumber) (hsent : before.sent = [])
    (hemits : ReceiverInner.Emits P before receiver.outgoing)
    (hother : ∀ disposition, P disposition → ¬disposition.Settles id) :
    (r.take receiver).2.countP (SessionFrame.settles id) = 0 := by
  obtain ⟨frames, hframes, hkinds⟩ := hemits.imp hother
  rw [hsent, List.nil_append] at hframes
  simp only [take, hframes]
  exact Session.drainLinkFrames_settles _ hkinds

/-- A disposition that does not settle, or settles another delivery. -/
theorem disposes_not_settles {id id' : DeliveryNumber} {settled : Bool} {disposition : Disposition}
    (h : ReceiverInner.Disposes id settled disposition) (hother : id = id' → settled = false) :
    ¬disposition.Settles id' := by
  rintro ⟨-, hsettled, hcovers⟩
  have hsame := h.1.symm.trans (Disposition.covers_single h.2.1 hcovers)
  rw [h.2.2, hother hsame] at hsettled
  cases hsettled

theorem incoming?_ready (r : TxnResource) : r.ready.incoming? = r.incoming? := by
  simp [incoming?, ready, LinkStore.modify]

theorem step_settles (decode : Bytes → Except E M) (r : TxnResource) (e : ResourceEvent)
    (id : DeliveryNumber) (h : r.LeavesUnsettled id e) :
    (r.step decode e).2.countP (SessionFrame.settles id) ≤ [e].countP (posts id) := by
  cases e with
  | txn e =>
      have hsent : (r.step decode (.txn e)).2.countP (SessionFrame.settles id) =
          (r.ready.session.replies e).countP (Disposition.Settles id) :=
        Session.sendDispositions_settles _ _ _
      rw [hsent]
      cases e with
      | incoming frame =>
          apply le_trans (TxnSession.replies_incoming rfl frame id)
          simp [List.countP_singleton, posts]
      | declare drawn =>
          rw [TxnSession.replies_other rfl (by simp)]
          exact Nat.zero_le _
      | commit txnId | rollback txnId | abort txnId =>
          rw [TxnSession.replies_other rfl (by simp)]
          exact Nat.zero_le _
  | recv closing =>
      simp only [step, incoming?_ready]
      cases hincoming : r.incoming? with
      | none => exact Nat.zero_le _
      | some frame =>
          cases frame with
          | remoteTransfer frame =>
              have hzero := r.ready.pop.take_settles id rfl
                (r.ready.receiver.onIncomingTransfer_emits closing frame.performative frame.payload
                  decode) ?_
              · dsimp only
                rw [hzero]
                exact Nat.zero_le _
              · rintro disposition ⟨performative, hmem, hauto, id', hid, hdisposes⟩
                apply disposes_not_settles hdisposes
                rintro rfl
                have hsecond := h frame hincoming hauto performative hmem hid
                have hmode : r.ready.receiver.link.settleModeOf performative = .second := hsecond
                rw [hmode]
                rfl
          | _ => exact Nat.zero_le _
  | dispose info state =>
      have hzero := r.ready.take_settles id rfl
        (r.ready.receiver.dispose_emits info none state) ?_
      · simp only [step]
        rw [hzero]
        exact Nat.zero_le _
      · rintro disposition ⟨hknown, hdisposes⟩
        exact disposes_not_settles hdisposes fun heq => h heq hknown

theorem run_settles (decode : Bytes → Except E M) (r : TxnResource) (events : List ResourceEvent)
    (id : DeliveryNumber) (h : Run.Along (step decode) (LeavesUnsettled id) r events) :
    (Run.run (step decode) r events).2.countP (SessionFrame.settles id) ≤
      events.countP (posts id) := by
  induction events generalizing r with
  | nil => exact Nat.zero_le _
  | cons e events ih =>
      have hfirst := r.step_settles decode e id h.1
      have hrest := ih (r.step decode e).1 h.2
      have hsplit : (e :: events).countP (posts id) =
          [e].countP (posts id) + events.countP (posts id) := by
        rw [← List.countP_append, List.singleton_append]
      simp only [Run.run, List.countP_append]
      omega

/-- However the transactions are discharged and whatever the application does with the deliveries, the
resource settles a posted delivery at most once if its delivery-id is on one of its frames only and
the link leaves it unsettled. -/
theorem posted_settled_once (decode : Bytes → Except E M) (r : TxnResource)
    (events : List ResourceEvent) (id : DeliveryNumber) (honce : events.countP (posts id) ≤ 1)
    (hunsettled : Run.Along (step decode) (LeavesUnsettled id) r events) :
    ∀ earlier, earlier <+: events →
      (Run.run (step decode) r earlier).2.countP (SessionFrame.settles id) ≤ 1 := by
  rintro earlier ⟨later, rfl⟩
  have hbound := run_settles decode r earlier id (Run.along_append.mp hunsettled).1
  rw [List.countP_append] at honce
  omega

section OnePost

/-- A resource with one attached receiver link. -/
private def resourceIn (mode : ReceiverSettleMode) : TxnResource where
  session := .fresh ((SessionBuilder.intoSession {} 0 .mapped LinkStore.empty).allocateIncomingLink
    "in" (.receiver 0 () mode false) ⟨0⟩).2
  link := 0
  receiver :=
    { link :=
        { localState := .attached, outputHandle := some ⟨0⟩, rcvSettleMode := mode
          maxMessageSize := 0, flowState := ⟨0, 0, 10, 0, false, none⟩, unsettled := none
          sessionStopReason := none }
      creditMode := .manual
      processed := 0
      autoAccept := false
      outgoing := ⟨[], false⟩
      incompleteTransfer := none }

private def onePost : Transfer :=
  { handle := 0, deliveryId := some 4, deliveryTag := some [1], messageFormat := some 0
    settled := some false, more := false, rcvSettleMode := none
    state := some (.transactionalState ⟨[1], none⟩), resume := false, aborted := false
    batchable := false }

private def ignoreBody : Bytes → Except Unit Unit := fun _ => .ok ()

private def peerClosed : Closing where
  state := .closed
  result := .ok ()

/-- The transaction commits and the application receives and accepts the delivery. -/
private def committedAndAccepted : List ResourceEvent :=
  [.txn (.declare [[1]]), .txn (.incoming (.post onePost [10])), .txn (.commit [1]),
    .recv peerClosed, .dispose ⟨4, [1], none⟩ .accepted]

/-- A link that settles first settles the delivery for the second time. -/
theorem accepted_post_settled_twice :
    committedAndAccepted.countP (posts 4) = 1 ∧
      (Run.run (step ignoreBody) (resourceIn .first) committedAndAccepted).2.countP
        (SessionFrame.settles 4) = 2 := by
  decide

theorem posted_settled_once_second :
    (Run.run (step ignoreBody) (resourceIn .second) committedAndAccepted).2.countP
      (SessionFrame.settles 4) ≤ 1 := by
  refine posted_settled_once ignoreBody (resourceIn .second) committedAndAccepted 4 ?_ ?_
    committedAndAccepted List.prefix_rfl
  · decide
  · refine ⟨trivial, trivial, trivial, fun frame hframe hauto => ?_, fun hid hknown => rfl, trivial⟩
    cases hauto

end OnePost

end TxnResource

end Fe2o3Amqp
