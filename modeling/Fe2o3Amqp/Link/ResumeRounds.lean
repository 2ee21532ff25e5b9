import Fe2o3Amqp.Link.Resume
import Mathlib.Data.List.Perm.Subperm

/-!
# The rounds of a resume

With complete unsettled maps, a resume goes in rounds: an attach exchange, the deliveries that it
found, each sent at most once, and a detach.  The last round is an exchange that finds nothing, after
which the link is attached.
-/

namespace Fe2o3Amqp

/-- Neither Attach of the exchange tells a part of an unsettled map only. -/
def ResumeOutput.CompleteMaps : ResumeOutput → Prop
  | .attach frame => frame.incompleteUnsettled = false
  | .exchanged remoteAttach _ => remoteAttach.incompleteUnsettled = false
  | .transfer _ _ | .detach _ | .closing _ => True

instance : DecidablePred ResumeOutput.CompleteMaps
  | .attach frame => inferInstanceAs (Decidable (frame.incompleteUnsettled = false))
  | .exchanged remoteAttach _ => inferInstanceAs (Decidable (remoteAttach.incompleteUnsettled = false))
  | .transfer _ _ | .detach _ | .closing _ => .isTrue trivial

/-- An attach exchange is completed. -/
def ResumeOutput.isExchanged : ResumeOutput → Bool
  | .exchanged _ _ => true
  | _ => false

/-- The first frame of the delivery is handed over. -/
def ResumeOutput.begins (sender : OneshotId) : ResumeOutput → Bool
  | .transfer (.firstTransfer _) (some sender') => sender' == sender
  | _ => false

/-- Where in its rounds a resume is. -/
inductive ResumePhase where
  | detached
  | attaching
  /-- `left` are the deliveries of the round that were not sent. -/
  | resuming (left : List OneshotId)
  | over

namespace ResumePhase

/-- `none` for an output that has no place in the rounds. -/
def next : ResumePhase → ResumeOutput → Option ResumePhase
  | .detached, .attach _ => some .attaching
  | .detached, .closing _ => some .detached
  | .attaching, .exchanged remoteAttach unsettled =>
      if unsettled.isEmpty && (remoteAttach.unsettled.getD []).isEmpty then some .over
      else some (.resuming unsettled)
  | .resuming left, .transfer (.firstTransfer _) (some sender) =>
      if sender ∈ left then some (.resuming (left.erase sender)) else none
  | .resuming left, .transfer (.firstTransfer _) none => some (.resuming left)
  | .resuming left, .transfer (.transferContinuation _) _ => some (.resuming left)
  | .resuming _, .detach _ => some .detached
  | _, _ => none

end ResumePhase

namespace ResumeTask

/-- The deliveries of the round of which no frame was handed over. -/
def unsent (t : ResumeTask) : List OneshotId :=
  match t.awaiting with
  | .next remaining => remaining.senders ++ t.resendBuf.map (·.sender)
  | .transfer split delivery remaining =>
      (if split.isFirst then delivery.sender.toList else []) ++
        (remaining.senders ++ t.resendBuf.map (·.sender))
  | .credit message rest => message.sender :: rest.map (·.sender)
  | _ => []

/-- The round is one of complete maps, and the buffer is that of its first loop. -/
def Remaining.Complete (resendBuf : List UnsettledMessage) : Remaining → Prop
  | .deliveries _ incomplete => incomplete = false
  | .resends _ => resendBuf = []

/-- The part of the round that the procedure is in. -/
def InPhase (t : ResumeTask) (phase : ResumePhase) : Prop :=
  match t.awaiting with
  | .allocation | .exchange => phase = .detached ∧ t.resendBuf = []
  | .attachSend attach =>
      phase = .detached ∧ t.resendBuf = [] ∧
        (LinkEndpoint.attachSentState t.link.localState attach.incompleteUnsettled).isSome
  | .remoteAttach =>
      phase = .attaching ∧ t.resendBuf = [] ∧
        (t.link.localState = .attachSent ∨ t.link.localState = .attached)
  | .next remaining | .transfer _ _ remaining =>
      Remaining.Complete t.resendBuf remaining ∧ t.link.localState = .attached ∧
        ∃ left, phase = .resuming left ∧ t.unsent.Subperm left
  | .credit _ _ =>
      t.resendBuf = [] ∧ t.link.localState = .attached ∧
        ∃ left, phase = .resuming left ∧ t.unsent.Subperm left
  | .detachSend _ => t.resendBuf = [] ∧ ∃ left, phase = .resuming left
  | .detachReply => phase = .detached ∧ t.resendBuf = []
  | .closing _ => phase = .detached
  | .returned result => result = .ok () → phase = .over ∧ t.link.localState = .attached

/-- The outputs go on from the phase to one that the procedure is in. -/
def GoesOn (phase : ResumePhase) (out : ResumeTask × List ResumeOutput) : Prop :=
  ∃ phase', out.2.foldlM ResumePhase.next phase = some phase' ∧ out.1.InPhase phase'

theorem goesOn_silent {phase : ResumePhase} {t : ResumeTask} (h : t.InPhase phase) :
    GoesOn phase (t, []) :=
  ⟨phase, rfl, h⟩

theorem goesOn_of_next (phase' : ResumePhase) {phase : ResumePhase} {t : ResumeTask}
    {o : ResumeOutput} (hnext : phase.next o = some phase') (h : t.InPhase phase') : GoesOn phase (t, [o]) :=
  ⟨phase', by simp [List.foldlM, hnext], h⟩

@[simp] theorem inPhase_error (t : ResumeTask) (failure : ResumeFailure) (phase : ResumePhase) :
    (t.finish (.error failure)).InPhase phase := by
  intro h
  cases h

@[simp] theorem inPhase_failSend (t : ResumeTask) (failure : SendFailure) (phase : ResumePhase) :
    (t.failSend failure).InPhase phase :=
  t.inPhase_error _ phase

@[simp] theorem inPhase_failReattach (t : ResumeTask) (phase : ResumePhase) :
    t.failReattach.InPhase phase :=
  t.inPhase_error _ phase

/-! ## Deliveries -/

section Deliveries

variable {t : ResumeTask} {left : List OneshotId}

theorem startTransfer_isFirst {link : SenderLink} {transfer : Transfer} {payload : Payload}
    {split : TransferSplit} (h : link.startTransfer transfer payload = .ok split) :
    split.isFirst = true := by
  simp only [SenderLink.startTransfer] at h
  cases hhandle : link.inputHandle with
  | none => simp [hhandle] at h
  | some inputHandle =>
      simp only [hhandle] at h
      cases hmax : link.maxPayload transfer with
      | error failure => simp [hmax, bind, Except.bind] at h
      | ok maxPayload =>
          simp only [hmax, bind, Except.bind, pure, Except.pure, Except.ok.injEq] at h
          rw [← h]

theorem inPhase_beginTransfer (transfer : Transfer) (payload : Payload) (delivery : OnTheWay)
    (remaining : Remaining) (hcomplete : Remaining.Complete t.resendBuf remaining)
    (hattached : t.link.localState = .attached)
    (hleft : (delivery.sender.toList ++ (remaining.senders ++ t.resendBuf.map (·.sender))).Subperm left) :
    (t.beginTransfer transfer payload delivery remaining).InPhase (.resuming left) := by
  simp only [beginTransfer]
  split
  · exact inPhase_failSend _ _ _
  · next split hstart =>
      refine ⟨hcomplete, hattached, left, rfl, ?_⟩
      simp only [unsent, startTransfer_isFirst hstart, if_true]
      exact hleft

theorem inPhase_sendTransferWithOutcome (transfer : Transfer) (deliveryTag : DeliveryTag)
    (unsettled : UnsettledMessage) (remaining : Remaining)
    (hcomplete : Remaining.Complete t.resendBuf remaining) (hattached : t.link.localState = .attached)
    (hleft : (unsettled.sender :: (remaining.senders ++ t.resendBuf.map (·.sender))).Subperm left) :
    (t.sendTransferWithOutcome transfer deliveryTag unsettled remaining).InPhase (.resuming left) := by
  simp only [sendTransferWithOutcome]
  split_ifs
  · exact inPhase_beginTransfer _ _ _ _ hcomplete hattached hleft
  · exact inPhase_beginTransfer _ _ _ _ hcomplete hattached hleft

theorem inPhase_handleResumingDelivery (deliveryTag : DeliveryTag) (resuming : ResumingDelivery)
    (rest : List (DeliveryTag × ResumingDelivery)) (hattached : t.link.localState = .attached)
    (hleft : (resuming.sender.toList ++
      (rest.filterMap (fun entry => entry.2.sender) ++ t.resendBuf.map (·.sender))).Subperm left) :
    (t.handleResumingDelivery deliveryTag resuming (.deliveries rest false)).InPhase
      (.resuming left) := by
  simp only [handleResumingDelivery]
  split
  · next message _ =>
      refine ⟨rfl, hattached, left, rfl, ?_⟩
      -- the delivery moves from the head of the list to the end of the buffer
      refine (List.Perm.subperm ?_).trans hleft
      simp only [unsent, Remaining.senders, List.map_append, List.map_singleton,
        ResumingDelivery.sender, Option.toList_some, List.singleton_append, ← List.append_assoc]
      exact List.perm_append_singleton _ _
  · exact inPhase_failSend _ _ _
  · exact inPhase_beginTransfer _ _ _ _ rfl hattached hleft
  · exact inPhase_sendTransferWithOutcome _ _ _ _ rfl hattached hleft
  · exact inPhase_sendTransferWithOutcome _ _ _ _ rfl hattached hleft

theorem inPhase_detach (hbuf : t.resendBuf = []) (left : List OneshotId) :
    t.detach.InPhase (.resuming left) := by
  simp only [detach]
  split
  · exact inPhase_error _ _ _
  · exact ⟨hbuf, left, rfl⟩

theorem inPhase_pollNext {phase : ResumePhase} {remaining : Remaining}
    (hawaiting : t.awaiting = .next remaining) (h : t.InPhase phase) :
    (t.pollNext remaining).InPhase phase := by
  simp only [InPhase, hawaiting] at h
  obtain ⟨hcomplete, hattached, left, rfl, hleft⟩ := h
  simp only [unsent, hawaiting] at hleft
  cases remaining with
  | deliveries rest incomplete =>
      cases hcomplete
      cases rest with
      | nil => exact ⟨rfl, hattached, left, rfl, by simpa [pollNext, unsent, Remaining.senders] using hleft⟩
      | cons entry rest =>
          obtain ⟨tag, resuming⟩ := entry
          apply inPhase_handleResumingDelivery tag resuming rest hattached
          cases hsender : resuming.sender with
          | none => simpa [Remaining.senders, hsender] using hleft
          | some sender => simpa [Remaining.senders, hsender] using hleft
  | resends rest =>
      have hbuf : t.resendBuf = [] := hcomplete
      cases rest with
      | nil => exact inPhase_detach hbuf left
      | cons message rest =>
          exact ⟨hbuf, hattached, left, rfl, by simpa [pollNext, unsent, Remaining.senders, hbuf] using hleft⟩

/-- The first frame takes its delivery off those that are left. -/
theorem goesOn_frame {split : TransferSplit} {delivery : OnTheWay} {rest : List OneshotId}
    (hleft : ((if split.isFirst then delivery.sender.toList else []) ++ rest).Subperm left) :
    ∃ left', (ResumePhase.resuming left).next (.transfer split.next.1 delivery.sender) =
      some (.resuming left') ∧ rest.Subperm left' := by
  obtain ⟨frame, hframe⟩ := split.next_fst
  rw [hframe]
  cases hfirst : split.isFirst with
  | false => exact ⟨left, rfl, by simpa [hfirst] using hleft⟩
  | true =>
      simp only [hfirst, if_true] at hleft ⊢
      cases hsender : delivery.sender with
      | none => exact ⟨left, rfl, by simpa [hsender] using hleft⟩
      | some sender =>
          simp only [hsender, Option.toList_some, List.singleton_append] at hleft
          have hmem : sender ∈ left := hleft.subset (by simp)
          refine ⟨left.erase sender, by simp [ResumePhase.next, hmem], ?_⟩
          simpa using hleft.erase sender

theorem goesOn_pollTransfer {phase : ResumePhase} {split : TransferSplit} {delivery : OnTheWay}
    {remaining : Remaining} (hawaiting : t.awaiting = .transfer split delivery remaining)
    (h : t.InPhase phase) : GoesOn phase (t.pollTransfer split delivery remaining) := by
  simp only [InPhase, hawaiting] at h
  obtain ⟨hcomplete, hattached, left, rfl, hleft⟩ := h
  simp only [unsent, hawaiting] at hleft
  obtain ⟨left', hnext, hleft'⟩ := goesOn_frame hleft
  simp only [pollTransfer]
  split_ifs
  · exact goesOn_silent (inPhase_failSend _ _ _)
  · split
    · next frame rest hsplit =>
        rw [hsplit] at hnext
        refine goesOn_of_next _ hnext ⟨hcomplete, hattached, left', rfl, ?_⟩
        simpa [unsent, TransferSplit.next_isFirst hsplit] using hleft'
    · next frame hsplit =>
        rw [hsplit] at hnext
        have hsame : (t.delivered delivery).resendBuf = t.resendBuf ∧
            (t.delivered delivery).link = t.link := by
          cases delivery with
          | aborted sender => cases sender <;> exact ⟨rfl, rfl⟩
          | settled message => exact ⟨rfl, rfl⟩
          | registered tag sender => exact ⟨rfl, rfl⟩
        refine goesOn_of_next _ hnext ⟨?_, ?_, left', rfl, ?_⟩
        · rw [hsame.1]
          exact hcomplete
        · rw [hsame.2]
          exact hattached
        · simp only [unsent, hsame.1]
          exact hleft'

theorem inPhase_pollCredit {phase : ResumePhase} {message : UnsettledMessage}
    {rest : List UnsettledMessage} (hawaiting : t.awaiting = .credit message rest)
    (h : t.InPhase phase) : (t.pollCredit message rest).InPhase phase := by
  have hstays := h
  simp only [InPhase, hawaiting] at h
  obtain ⟨hbuf, hattached, left, rfl, hleft⟩ := h
  simp only [unsent, hawaiting] at hleft
  simp only [pollCredit]
  split
  · exact inPhase_failSend _ _ _
  · exact inPhase_failSend _ _ _
  · split_ifs
    · exact inPhase_failSend _ _ _
    · split
      · exact hstays
      · split
        · exact inPhase_failSend _ _ _
        · refine inPhase_sendTransferWithOutcome (t := t.withCell _) _ _ _ (.resends rest) hbuf
            hattached ?_
          simpa [Remaining.senders, withCell, hbuf] using hleft

end Deliveries

/-! ## Attaches and detaches -/

section Attaches

variable {t : ResumeTask} {phase : ResumePhase}

theorem inPhase_pollExchange (hawaiting : t.awaiting = .exchange) (h : t.InPhase phase) :
    t.pollExchange.InPhase phase := by
  simp only [InPhase, hawaiting] at h
  simp only [pollExchange]
  split
  · exact inPhase_error _ _ _
  · next attach cell hprepare =>
      exact ⟨h.1, h.2, (LinkEndpoint.prepareAttach_ok hprepare).2.2⟩

theorem goesOn_onIncomingAttach (hbuf : t.resendBuf = [])
    (hstate : t.link.localState = .attachSent ∨ t.link.localState = .attached)
    (remoteAttach : Attach)
    (hcomplete : ∀ o ∈ (t.onIncomingAttach remoteAttach).2, o.CompleteMaps) :
    GoesOn .attaching (t.onIncomingAttach remoteAttach) := by
  simp only [onIncomingAttach] at hcomplete ⊢
  cases haccept : t.link.acceptAttach t.cell remoteAttach with
  | mk result rest =>
      obtain ⟨endpoint, cell⟩ := rest
      cases result with
      | error e => exact goesOn_silent (inPhase_error _ _ _)
      | ok _ =>
          simp only [haccept] at hcomplete ⊢
          generalize hstore : ((t.withCell fun _ => cell).withEndpoint endpoint).store = store
          have hcell : (store.cell t.id).senderUnsettled = cell.senderUnsettled := by
            rw [← hstore]
            simp [withEndpoint, withCell]
          have hid : ((t.withCell fun _ => cell).withEndpoint endpoint).id = t.id := rfl
          rw [hstore, hid] at hcomplete
          rw [hid]
          cases hhandle : store.handleUnsettledInAttach t.id remoteAttach.unsettled with
          | mk deliveries store' =>
              have hnone := store.handleUnsettledInAttach_isNone t.id remoteAttach.unsettled
              rw [hhandle, hcell] at hnone
              simp only [hhandle] at hcomplete
              -- both maps are complete, so the exchange leaves the link attached
              have hremote : remoteAttach.incompleteUnsettled = false := by
                cases hkind : SenderAttachExchange.ofDeliveries endpoint.localState deliveries <;>
                  simp only [hkind] at hcomplete <;>
                  exact hcomplete _ (List.mem_singleton_self _)
              have hattached : endpoint.localState = .attached := by
                have hled := t.link.toLinkEndpoint.acceptAttach_localState t.cell remoteAttach
                  (by rw [haccept])
                rw [haccept, hremote] at hled
                rcases hstate with hstate | hstate
                · rw [hstate] at hled
                  exact (Option.some.inj hled).symm
                · rw [hstate] at hled
                  cases hled
              cases deliveries with
              | none =>
                  refine goesOn_of_next .over ?_ fun _ => ⟨rfl, hattached⟩
                  simp only [ResumePhase.next, ← hnone, Option.isNone_none, if_true]
              | some deliveries =>
                  simp only [SenderAttachExchange.ofDeliveries, hattached]
                  refine goesOn_of_next (.resuming (unsettledSenders cell.senderUnsettled))
                    ?_ ⟨rfl, hattached, _, rfl, ?_⟩
                  · simp only [ResumePhase.next, ← hnone, Option.isNone_some, Bool.false_eq_true,
                      if_false]
                  · have hsub := LinkStore.handleUnsettledInAttach_senders hhandle
                    rw [hcell] at hsub
                    simpa [unsent, Remaining.senders, withEndpoint, withCell, hbuf] using hsub.subperm

theorem goesOn_pollAttachSend {attach : Attach} (hawaiting : t.awaiting = .attachSend attach)
    (h : t.InPhase phase) (hcomplete : ∀ o ∈ (t.pollAttachSend attach).2, o.CompleteMaps) :
    GoesOn phase (t.pollAttachSend attach) := by
  simp only [InPhase, hawaiting] at h
  obtain ⟨rfl, hbuf, hsent⟩ := h
  simp only [pollAttachSend] at hcomplete ⊢
  split_ifs at hcomplete ⊢
  · exact goesOn_silent (inPhase_error _ _ _)
  · have hown : attach.incompleteUnsettled = false := by
      split at hcomplete
      · exact hcomplete _ (List.mem_singleton_self _)
      · exact hcomplete _ List.mem_cons_self
    have hstate : (t.link.attachSent attach).localState = .attachSent ∨
        (t.link.attachSent attach).localState = .attached := by
      rw [hown] at hsent
      simp only [LinkEndpoint.attachSent, hown]
      cases hlocal : t.link.localState <;>
        simp [LinkEndpoint.attachSentState, hlocal] at hsent ⊢
    cases hremote : (t.withEndpoint (t.link.attachSent attach)).remoteAttach with
    | none => exact goesOn_of_next .attaching rfl ⟨rfl, hbuf, hstate⟩
    | some remoteAttach =>
        simp only [hremote] at hcomplete
        obtain ⟨phase', hrest, hphase⟩ := goesOn_onIncomingAttach
          (t := { t.withEndpoint (t.link.attachSent attach) with remoteAttach := none }) hbuf hstate
          remoteAttach fun o ho => hcomplete o (List.mem_cons_of_mem _ ho)
        exact ⟨phase', hrest, hphase⟩

theorem goesOn_pollRemoteAttach (hawaiting : t.awaiting = .remoteAttach) (h : t.InPhase phase)
    (hcomplete : ∀ o ∈ t.pollRemoteAttach.2, o.CompleteMaps) : GoesOn phase t.pollRemoteAttach := by
  have hstays := h
  simp only [InPhase, hawaiting] at h
  obtain ⟨rfl, hbuf, hstate⟩ := h
  simp only [pollRemoteAttach] at hcomplete ⊢
  split
  · exact goesOn_silent hstays
  · exact goesOn_silent (inPhase_error _ _ _)
  · next hrecv =>
      obtain ⟨hlink, hbuf', -⟩ := recv_some hrecv
      simp only [hrecv] at hcomplete
      refine goesOn_onIncomingAttach (hbuf'.trans hbuf) ?_ _ hcomplete
      rw [hlink]
      exact hstate
  · exact goesOn_silent (inPhase_error _ _ _)

theorem inPhase_pollDetachReply (hawaiting : t.awaiting = .detachReply) (h : t.InPhase phase) :
    t.pollDetachReply.InPhase phase := by
  have hstays := h
  simp only [InPhase, hawaiting] at h
  obtain ⟨rfl, hbuf⟩ := h
  simp only [pollDetachReply]
  split
  · exact hstays
  · exact inPhase_error _ _ _
  · next hrecv =>
      obtain ⟨-, hbuf', -⟩ := recv_some hrecv
      split_ifs
      · exact rfl
      · split
        · exact ⟨rfl, hbuf'.trans hbuf⟩
        · exact inPhase_error _ _ _
  · next hrecv =>
      obtain ⟨-, hbuf', hawaiting'⟩ := recv_some hrecv
      simp only [InPhase, hawaiting', hawaiting, true_and]
      exact hbuf'.trans hbuf

theorem inPhase_closing (t : ResumeTask) (awaiting : ClosingAwait) :
    { t with awaiting := .closing awaiting }.InPhase .detached := rfl

theorem inPhase_refuse (t : ResumeTask) (error : AttachError) : (t.refuse error).InPhase .detached := by
  simp only [refuse]
  split
  · exact inPhase_failReattach _ _
  · split
    · exact inPhase_closing _ _
    · split_ifs
      · exact inPhase_closing _ _
      · exact inPhase_failReattach _ _

theorem inPhase_closingOnIncomingAttach (t : ResumeTask) (remoteAttach : Attach) :
    (t.closingOnIncomingAttach remoteAttach).InPhase .detached := by
  simp only [closingOnIncomingAttach]
  split
  · exact inPhase_refuse _ _
  · split_ifs
    · exact inPhase_failReattach _ _
    · split
      · exact inPhase_error _ _ _
      · exact inPhase_closing _ _

theorem goesOn_pollClosing {awaiting : ClosingAwait} (hawaiting : t.awaiting = .closing awaiting)
    (h : t.InPhase phase) : GoesOn phase (t.pollClosing awaiting) := by
  have hstays := h
  simp only [InPhase, hawaiting] at h
  subst h
  cases awaiting with
  | allocation => exact goesOn_silent hstays
  | exchange =>
      simp only [pollClosing]
      split
      · exact goesOn_silent (inPhase_failReattach _ _)
      · exact goesOn_silent (inPhase_closing _ _)
  | attachSend attach =>
      simp only [pollClosing]
      split_ifs
      · exact goesOn_silent (inPhase_failReattach _ _)
      · exact goesOn_of_next .detached rfl (inPhase_closing _ _)
  | remoteAttach =>
      simp only [pollClosing]
      split
      · exact goesOn_silent hstays
      · exact goesOn_silent (inPhase_closingOnIncomingAttach _ _)
      · exact goesOn_silent (inPhase_failReattach _ _)
  | refusalSend detach =>
      simp only [pollClosing]
      split_ifs
      · exact goesOn_silent (inPhase_closing _ _)
      · exact goesOn_silent (inPhase_failReattach _ _)
      · exact goesOn_of_next .detached rfl (inPhase_closing _ _)
  | refusalReply =>
      simp only [pollClosing]
      split
      · exact goesOn_silent hstays
      · exact goesOn_silent (inPhase_failReattach _ _)
      · exact goesOn_silent (inPhase_failReattach _ _)
  | detachSend detach =>
      simp only [pollClosing]
      split_ifs
      · exact goesOn_silent (inPhase_error _ _ _)
      · exact goesOn_of_next .detached rfl (inPhase_closing _ _)
  | detachReply =>
      simp only [pollClosing]
      split
      · exact goesOn_silent hstays
      · exact goesOn_silent (inPhase_error _ _ _)
      · split
        · exact goesOn_silent (inPhase_error _ _ _)
        · exact goesOn_silent (inPhase_error _ _ _)
      · next hrecv =>
          obtain ⟨-, -, hawaiting'⟩ := recv_some hrecv
          refine goesOn_silent ?_
          simp only [InPhase, hawaiting', hawaiting]

end Attaches

/-! ## Runs -/

theorem goesOn_poll {t : ResumeTask} {phase : ResumePhase} (h : t.InPhase phase)
    (hcomplete : ∀ o ∈ t.poll.2, o.CompleteMaps) : GoesOn phase t.poll := by
  simp only [poll] at hcomplete ⊢
  cases hawaiting : t.awaiting with
  | allocation => exact goesOn_silent h
  | exchange => exact goesOn_silent (inPhase_pollExchange hawaiting h)
  | attachSend attach =>
      simp only [hawaiting] at hcomplete
      exact goesOn_pollAttachSend hawaiting h hcomplete
  | remoteAttach =>
      simp only [hawaiting] at hcomplete
      exact goesOn_pollRemoteAttach hawaiting h hcomplete
  | next remaining => exact goesOn_silent (inPhase_pollNext hawaiting h)
  | transfer split delivery remaining => exact goesOn_pollTransfer hawaiting h
  | credit message rest => exact goesOn_silent (inPhase_pollCredit hawaiting h)
  | detachSend detach =>
      simp only [InPhase, hawaiting] at h
      obtain ⟨hbuf, left, rfl⟩ := h
      dsimp only
      split_ifs
      · exact goesOn_silent (inPhase_error _ _ _)
      · exact goesOn_of_next .detached rfl ⟨rfl, hbuf⟩
  | detachReply => exact goesOn_silent (inPhase_pollDetachReply hawaiting h)
  | closing awaiting => exact goesOn_pollClosing hawaiting h
  | returned result => exact goesOn_silent h

theorem inPhase_allocated {t : ResumeTask} {phase : ResumePhase} (h : t.InPhase phase)
    (result : Except AllocLinkError OutputHandle) : (t.allocated result).InPhase phase := by
  simp only [allocated]
  split
  · next hawaiting =>
      simp only [InPhase, hawaiting] at h
      exact h
  · exact inPhase_error _ _ _
  · next hawaiting =>
      simp only [InPhase, hawaiting] at h
      exact h
  · exact inPhase_failReattach _ _
  · exact h

/-- One event goes on with the rounds. -/
theorem goesOn_step {t : ResumeTask} {phase : ResumePhase} (h : t.InPhase phase) (e : ResumeEvent)
    (hcomplete : ∀ o ∈ (t.step e).2, o.CompleteMaps) : GoesOn phase (t.step e) := by
  cases e with
  | poll => exact goesOn_poll h hcomplete
  | allocated result => exact goesOn_silent (inPhase_allocated h result)
  | relay outputHandle receiverSettleMode action => exact goesOn_silent h
  | closeWriter => exact goesOn_silent h
  | closeIncoming => exact goesOn_silent h

theorem goesOn_run {t : ResumeTask} {phase : ResumePhase} (h : t.InPhase phase)
    (events : List ResumeEvent) (hcomplete : ∀ o ∈ (Run.run step t events).2, o.CompleteMaps) :
    GoesOn phase (Run.run step t events) := by
  induction events generalizing t phase with
  | nil => exact goesOn_silent h
  | cons e events ih =>
      simp only [Run.run, List.forall_mem_append] at hcomplete
      obtain ⟨phase', hfirst, hnext⟩ := goesOn_step h e hcomplete.1
      obtain ⟨phase'', hrest, hlast⟩ := ih hnext hcomplete.2
      refine ⟨phase'', ?_, hlast⟩
      simp only [Run.run, List.foldlM_append, hfirst]
      exact hrest

/-- A resume with complete unsettled maps goes in rounds: an attach exchange, the deliveries of the
unsettled map, each sent at most once, and a detach; an exchange that finds both maps empty is the
last.  When it succeeds that exchange has taken place, and the link is attached. -/
theorem resume_rounds (link : SenderLink) (id : LinkId) (store : LinkStore) (isReattaching : Bool)
    (remoteAttach : Option Attach) (writerClosed : Bool) (events : List ResumeEvent)
    (hcomplete : ∀ o ∈ (Run.run step (start link id store isReattaching remoteAttach writerClosed)
      events).2, o.CompleteMaps) :
    let out := Run.run step (start link id store isReattaching remoteAttach writerClosed) events
    ∃ phase, out.2.foldlM ResumePhase.next .detached = some phase ∧
      (out.1.succeeded → phase = .over ∧ out.1.link.localState = .attached) := by
  have hstart : (start link id store isReattaching remoteAttach writerClosed).InPhase .detached :=
    ⟨rfl, rfl⟩
  obtain ⟨phase, hrounds, hphase⟩ := goesOn_run hstart events hcomplete
  refine ⟨phase, hrounds, fun hsucceeded => ?_⟩
  simp only [succeeded] at hsucceeded
  split at hsucceeded
  · next hreturned =>
      simp only [InPhase, hreturned] at hphase
      exact hphase trivial
  · cases hsucceeded

section OneDelivery

private def lossySender : SenderLink where
  name := "link"
  role := .sender
  localState := .detached
  outputHandle := none
  inputHandle := none
  sndSettleMode := .mixed
  rcvSettleMode := .first
  source := none
  targetKind := .target
  target := none
  maxMessageSize := 0
  offeredCapabilities := none
  desiredCapabilities := none
  verifyIncomingSource := false
  verifyIncomingTarget := false
  maxFrameSize := 512
  sessionStopReason := none

private def oneUnsettled : LinkStore where
  cell _ :=
    { flowState := ⟨0, 7, 10, 0, false, none⟩
      senderUnsettled := some (IndexMap.empty.insert [1] ⟨[0], none, 0, 0⟩)
      receiverUnsettled := none
      incoming := []
      endpointDropped := false }
  outcomes _ := none

private def remoteTells (unsettled : Option (OrderedMap DeliveryTag (Option DeliveryState))) :
    ResumeEvent :=
  .relay ⟨0⟩ .first <| .attach
    { name := "link"
      handle := 0
      role := .receiver
      sndSettleMode := .mixed
      rcvSettleMode := .first
      source := none
      target := some (.target ⟨none, .none, .sessionEnd, 0, false, none, none⟩)
      unsettled
      incompleteUnsettled := false
      initialDeliveryCount := none
      maxMessageSize := none
      offeredCapabilities := none
      desiredCapabilities := none
      properties := none }

private def attaches (unsettled : Option (OrderedMap DeliveryTag (Option DeliveryState))) :
    List ResumeEvent :=
  [.allocated (.ok ⟨0⟩), .poll, .poll, remoteTells unsettled, .poll]

/-- The link is detached; these events come in before the peer's answer. -/
private def detaches (before : List ResumeEvent) : List ResumeEvent :=
  [.poll, .poll] ++ before ++ [.relay ⟨0⟩ .first (.detach ⟨0, false, none⟩ false), .poll]

private def settled : ResumeEvent :=
  .relay ⟨0⟩ .first (.disposition true (some .accepted) [0, 0, 0, 7])

private def polls (n : Nat) : List ResumeEvent := List.replicate n .poll

/-- The peer knows nothing of the delivery: it is sent again, and settled before the peer detaches. -/
private def sentAgain : List ResumeEvent :=
  attaches none ++ polls 5 ++ detaches [settled] ++ attaches none

/-- The peer has received nothing of the delivery when the link is attached the second time. -/
private def sentTwice : List ResumeEvent :=
  attaches none ++ polls 5 ++ detaches [] ++ attaches (some [([0, 0, 0, 7], none)]) ++ polls 3 ++
    detaches [settled] ++ attaches none

theorem sent_again_rounds :
    let out := Run.run step (start lossySender 0 oneUnsettled false none false) sentAgain
    out.1.succeeded ∧ ∃ phase, out.2.foldlM ResumePhase.next .detached = some phase ∧
      (out.1.succeeded → phase = .over ∧ out.1.link.localState = .attached) := by
  refine ⟨by decide +kernel, ?_⟩
  apply resume_rounds
  decide +kernel

/-- With complete maps on both sides, three attach exchanges take place and the one delivery is sent
twice. -/
theorem resume_sends_twice :
    let out := Run.run step (start lossySender 0 oneUnsettled false none false) sentTwice
    (∀ o ∈ out.2, o.CompleteMaps) ∧ out.1.succeeded ∧
      out.2.countP ResumeOutput.isExchanged = 3 ∧ out.2.countP (ResumeOutput.begins 0) = 2 := by
  refine ⟨?_, ?_, ?_, ?_⟩
  · decide +kernel
  · decide +kernel
  · decide +kernel
  · decide +kernel

end OneDelivery

end ResumeTask

end Fe2o3Amqp
