import Fe2o3Amqp.Link.DeliveryTags
import Fe2o3Amqp.Link.Resumption
import Fe2o3Amqp.Link.CreditFormula

/-!
# The delivery count of a sender

A send counts its delivery when it takes its credit, before the first frame is with the session.  What
ends the send in between leaves a delivery that is counted and was never sent.
-/

namespace Fe2o3Amqp

/-- The credit that a drain uses up: what the flow grants, or what the sender has. -/
def LinkFlowStateInner.drainedCredit (state : LinkFlowStateInner) (flow : LinkFlow) : UInt32 :=
  if flow.drain then (flow.linkCredit.map (state.computedCredit flow)).getD state.linkCredit else 0

def LinkFrame.isFirstTransfer : LinkFrame → Bool
  | .firstTransfer _ => true
  | _ => false

/-- A sender with the relay's side of its link, the deliveries whose first frame was handed to the
session, and the credit that drains have consumed. -/
structure CountedSender where
  task : SendTask
  relayHandle : OutputHandle
  relayMode : ReceiverSettleMode
  handed : Nat
  drained : Nat

inductive CountEvent where
  | send (request : SendRequest)
  | poll
  /-- The future of the send is dropped. -/
  | cancel
  | closeWriter
  | closeIncoming
  | relay (action : RelayAction)

namespace SendTask

/-- The send has taken its credit and waits to hand over its first frame. -/
def awaitsFirstFrame (t : SendTask) : Bool :=
  match t.future with
  | some (.transferring split _ _) => split.isFirst
  | _ => false

/-- The link is attached, and the performative of the delivery fits in a frame. -/
def canStart (t : SendTask) (request : SendRequest) : Bool :=
  match t.link.generateNonResumingTransferPerformative (tagOf t.deliveryCount) request.messageFormat
    request.settled request.state request.batchable with
  | .error _ => false
  | .ok transfer => t.link.inputHandle.isSome && (t.link.maxPayload transfer).toOption.isSome

/-- The send takes a credit with which it cannot start, finds the session gone before its first frame,
or is dropped there. -/
def losesCredit (t : SendTask) : CountEvent → Bool
  | .poll =>
      match t.future with
      | some (.credit request) =>
          t.cell.incoming.isEmpty && !t.incomingClosed && decide (1 ≤ t.cell.flowState.linkCredit) &&
            !t.canStart request
      | some (.transferring split _ _) => split.isFirst && t.writerClosed
      | _ => false
  | .cancel => t.awaitsFirstFrame
  | _ => false

end SendTask

namespace CountedSender

def relay (w : CountedSender) : LinkRelay OutputHandle :=
  .sender w.task.id w.relayHandle w.relayMode

/-- The credit that the relay's action drains; a flow that the relay refuses drains none. -/
def drainedBy (w : CountedSender) : RelayAction → UInt32
  | .flow flow =>
      match (w.relay.onIncomingFlow w.task.store flow).1 with
      | .error _ => 0
      | .ok _ => w.task.cell.flowState.drainedCredit flow
  | _ => 0

def step (w : CountedSender) : CountEvent → CountedSender × List LinkFrame
  | .send request =>
      if w.task.future.isSome then (w, []) else ({ w with task := w.task.send request }, [])
  | .poll =>
      let (task, frames) := w.task.poll
      ({ w with task, handed := w.handed + frames.countP LinkFrame.isFirstTransfer }, frames)
  | .cancel => ({ w with task := w.task.drop }, [])
  | .closeWriter => ({ w with task := { w.task with writerClosed := true } }, [])
  | .closeIncoming => ({ w with task := { w.task with incomingClosed := true } }, [])
  | .relay action =>
      ({ w with
        task := { w.task with store := action.apply w.relay w.task.store }
        drained := w.drained + (w.drainedBy action).toNat }, [])

/-- A new sender, its link in any state. -/
def start (link : SenderLink) (id : LinkId) (store : LinkStore) (relayHandle : OutputHandle)
    (relayMode : ReceiverSettleMode) : CountedSender where
  task :=
    { link, id, store, writerClosed := false, incomingClosed := false, future := none
      returned := none }
  relayHandle
  relayMode
  handed := 0
  drained := 0

/-- The count since the start is that of the deliveries and the drained credit.  A send that has yet
to hand over its first frame holds its credit. -/
def CountsDeliveries (initial : UInt32) (w : CountedSender) : Prop :=
  w.task.awaitsFirstFrame = false →
    w.task.deliveryCount - initial = UInt32.ofNat (w.handed + w.drained)

/-- No send is over between its credit and its first frame. -/
def KeepsCredit (w : CountedSender) (e : CountEvent) : Prop := w.task.losesCredit e = false

end CountedSender

/-! ## What one event counts -/

/-- The count moves with the deliveries handed over, and the credit that a send holds or loses. -/
structure Moves (t t' : SendTask) (handed lost moved : Nat) : Prop where
  count : t'.deliveryCount = t.deliveryCount + UInt32.ofNat moved
  balance : handed + t'.awaitsFirstFrame.toNat + lost = t.awaitsFirstFrame.toNat + moved
  single : t.awaitsFirstFrame.toNat + moved ≤ 1

namespace SendTask

open TaggedSender (deliveryCount_withCell deliveryCount_withdraw sendPayloadWithTransfer_deliveryCount
  poll_follows)

@[simp] theorem awaitsFirstFrame_finish (t : SendTask) (result : Except SendFailure Settlement) :
    (t.finish result).awaitsFirstFrame = false := rfl

theorem moves_of_deliveryCount {t t' : SendTask} (hcount : t'.deliveryCount = t.deliveryCount)
    {handed lost : Nat}
    (hbalance : handed + t'.awaitsFirstFrame.toNat + lost = t.awaitsFirstFrame.toNat) :
    Moves t t' handed lost 0 := by
  refine ⟨?_, hbalance, Bool.toNat_le _⟩
  rw [hcount]
  exact (UInt32.add_zero _).symm

theorem sendPayloadWithTransfer_awaitsFirstFrame (t : SendTask) (transfer : Transfer)
    (tag : DeliveryTag) (request : SendRequest) :
    (t.sendPayloadWithTransfer transfer tag request).awaitsFirstFrame =
      (t.link.inputHandle.isSome && (t.link.maxPayload transfer).toOption.isSome) := by
  simp only [sendPayloadWithTransfer]
  generalize hregistered : (if t.link.isSettledOnSend transfer = true then t else _) = t'
  have hlink : t'.link = t.link := by
    rw [← hregistered]
    split_ifs <;> rfl
  rw [← hlink]
  simp only [SenderLink.startTransfer]
  cases t'.link.inputHandle with
  | none => rfl
  | some inputHandle =>
      cases t'.link.maxPayload transfer with
      | error failure => rfl
      | ok maxPayload => rfl

/-- The poll of a send that waits for credit takes one if it can, and then starts or loses it. -/
theorem moves_pollCredit {t : SendTask} {request : SendRequest}
    (hfuture : t.future = some (.credit request)) :
    ∃ moved, Moves t (t.pollCredit request) 0 (t.losesCredit .poll).toNat moved := by
  have hidle : t.awaitsFirstFrame = false := by simp only [awaitsFirstFrame, hfuture]
  simp only [losesCredit, hfuture, pollCredit]
  split
  · next detach incoming hincoming =>
      refine ⟨0, ?_⟩
      apply moves_of_deliveryCount
      · exact deliveryCount_withCell t (fun cell => { cell with incoming }) rfl
      · simp [hincoming, hidle]
  · next frame incoming hframe hincoming =>
      refine ⟨0, ?_⟩
      apply moves_of_deliveryCount
      · exact deliveryCount_withCell t (fun cell => { cell with incoming }) rfl
      · simp [hincoming, hidle]
  · next hincoming =>
      split_ifs with hclosed
      · refine ⟨0, ?_⟩
        apply moves_of_deliveryCount
        · rfl
        · simp [hclosed, hidle]
      · cases hconsume : t.cell.flowState.consumeLinkCredit 1 with
        | none =>
            have hcredit : ¬1 ≤ t.cell.flowState.linkCredit := by
              simp only [LinkFlowStateInner.consumeLinkCredit] at hconsume
              split_ifs at hconsume with hless
              exact UInt32.not_le.mpr hless
            refine ⟨0, moves_of_deliveryCount rfl ?_⟩
            simp [hcredit, hidle]
        | some consumed =>
            obtain ⟨deliveryTag, flowState⟩ := consumed
            obtain ⟨hcredit, htag, hcounted⟩ : 1 ≤ t.cell.flowState.linkCredit ∧
                deliveryTag = tagOf t.deliveryCount ∧
                  flowState.deliveryCount = t.deliveryCount + 1 := by
              simp only [LinkFlowStateInner.consumeLinkCredit] at hconsume
              split_ifs at hconsume with hless
              cases hconsume
              exact ⟨UInt32.not_lt.mp hless, rfl, rfl⟩
            subst htag
            have htaken : (t.withCell fun cell => { cell with flowState }).deliveryCount =
                t.deliveryCount + UInt32.ofNat 1 := by
              simpa [SendTask.deliveryCount, SendTask.cell, withCell, LinkStore.modify] using hcounted
            have hlink : (t.withCell fun cell => { cell with flowState }).link = t.link := rfl
            simp only [hlink, canStart]
            cases t.link.generateNonResumingTransferPerformative (tagOf t.deliveryCount)
              request.messageFormat request.settled request.state request.batchable with
            | error error =>
                refine ⟨1, htaken, ?_, by simp [hidle]⟩
                simp [hincoming, hclosed, hcredit, hidle]
            | ok transfer =>
                refine ⟨1, (sendPayloadWithTransfer_deliveryCount _ _ _ _).trans htaken, ?_,
                  by simp [hidle]⟩
                simp only [sendPayloadWithTransfer_awaitsFirstFrame, hlink, hidle]
                cases hstart : (t.link.inputHandle.isSome &&
                    (t.link.maxPayload transfer).toOption.isSome) <;>
                  simp [hincoming, hclosed, hcredit]

/-- A first frame takes over the credit that the send holds. -/
theorem moves_poll (t : SendTask) :
    ∃ moved, Moves t t.poll.1 (t.poll.2.countP LinkFrame.isFirstTransfer)
      (t.losesCredit .poll).toNat moved := by
  by_cases hcredit : ∃ request, t.future = some (.credit request)
  · obtain ⟨request, hfuture⟩ := hcredit
    simp only [poll, hfuture]
    exact moves_pollCredit hfuture
  · have hcount := (poll_follows t fun request hfuture => hcredit ⟨request, hfuture⟩).2.1
    refine ⟨0, moves_of_deliveryCount hcount ?_⟩
    cases hfuture : t.future with
    | none => simp [poll, hfuture, losesCredit]
    | some future =>
        cases future with
        | credit request => exact absurd ⟨request, hfuture⟩ hcredit
        | outcome tag channel =>
            have hidle : t.awaitsFirstFrame = false := by simp only [awaitsFirstFrame, hfuture]
            simp only [poll, hfuture, losesCredit]
            split_ifs <;> simp [hidle]
        | transferring split registered settlement =>
            simp only [poll, hfuture, losesCredit, pollTransfer, awaitsFirstFrame]
            split_ifs with hclosed
            · simp [hclosed, finish]
            · have hfirst : [split.next.1].countP LinkFrame.isFirstTransfer = split.isFirst.toNat := by
                obtain ⟨frame, hframe⟩ := split.next_fst
                rw [hframe]
                cases split.isFirst <;> rfl
              cases hnext : split.next with
              | mk frame rest =>
                  rw [hnext] at hfirst
                  cases rest with
                  | some rest =>
                      simp [hfirst, hclosed, TransferSplit.next_isFirst hnext]
                  | none => cases settlement <;> simp [hfirst, hclosed, finish]

theorem moves_drop (t : SendTask) :
    ∃ moved, Moves t t.drop 0 (t.losesCredit .cancel).toNat moved := by
  refine ⟨0, ?_⟩
  apply moves_of_deliveryCount
  · simp only [drop]
    split
    · next split registered settlement hfuture => exact deliveryCount_withdraw t registered
    · rfl
  · have hover : t.drop.awaitsFirstFrame = false := by
      simp only [drop]
      split <;> rfl
    simp [hover, losesCredit]

theorem moves_send (t : SendTask) (request : SendRequest) (hidle : t.future = none) :
    ∃ moved, Moves t (t.send request) 0 0 moved := by
  refine ⟨0, ?_⟩
  have hbefore : t.awaitsFirstFrame = false := by simp only [awaitsFirstFrame, hidle]
  apply moves_of_deliveryCount
  · simp only [send]
    split_ifs <;> rfl
  · have hafter : (t.send request).awaitsFirstFrame = false := by
      simp only [send]
      split_ifs <;> rfl
    simp [hbefore, hafter]

end SendTask

/-! ## What a relay counts -/

namespace CountedSender

theorem flowState_send (store : LinkStore) (link id : LinkId) (frame : LinkFrame) :
    (((store.send link frame).getD store).cell id).flowState = (store.cell id).flowState := by
  simp only [LinkStore.send]
  split_ifs
  · rfl
  · by_cases hid : id = link <;> simp [LinkStore.modify, hid]

theorem flowState_settle (store : LinkStore) (link id : LinkId) (tag : DeliveryTag)
    (state : Option DeliveryState) :
    ((store.settle link tag state).cell id).flowState = (store.cell id).flowState := by
  simp only [LinkStore.settle]
  split
  · rfl
  · split
    · rfl
    · by_cases hid : id = link <;> simp [LinkStore.modify, LinkStore.resolve, hid]

theorem flowState_failPendingUnsettled (store : LinkStore) (link id : LinkId) (detach : Detach) :
    ((store.failPendingUnsettled link detach).cell id).flowState = (store.cell id).flowState := by
  have hresolve (error : LinkStateError) (entries : List (DeliveryTag × UnsettledMessage))
      (store : LinkStore) :
      (entries.foldl (fun store entry => store.resolve entry.2.sender (.error error)) store).cell =
        store.cell := by
    induction entries generalizing store with
    | nil => rfl
    | cons entry entries ih => rw [List.foldl_cons, ih, LinkStore.resolve_cell]
  simp only [LinkStore.failPendingUnsettled]
  split
  · rfl
  · rw [hresolve]
    by_cases hid : id = link <;> simp [LinkStore.modify, hid]

theorem flowState_onIncomingDetach (store : LinkStore) (link : LinkId) (outputHandle : OutputHandle)
    (mode : ReceiverSettleMode) (detach : Detach) (remoteInitiated : Bool) :
    (((LinkRelay.sender link outputHandle mode).onIncomingDetach store detach
      remoteInitiated).2.cell link).flowState = (store.cell link).flowState := by
  have hsend := flowState_send store link link (.detach detach)
  have hfail := (flowState_failPendingUnsettled ((store.send link (.detach detach)).getD store) link
    link detach).trans hsend
  cases remoteInitiated with
  | true =>
      simp only [LinkRelay.onIncomingDetach, if_true]
      split_ifs
      · exact hfail
      · exact hsend
  | false =>
      simp only [LinkRelay.onIncomingDetach, Bool.false_eq_true, if_false]
      split_ifs
      · exact hfail
      · exact hsend

/-- A flow that is taken advances the count by the credit that it drains. -/
theorem deliveryCount_senderOnIncomingFlow (state : LinkFlowStateInner) (flow : LinkFlow)
    (outputHandle : OutputHandle) :
    (state.senderOnIncomingFlow flow outputHandle).1.deliveryCount =
      state.deliveryCount + state.drainedCredit flow := by
  simp only [LinkFlowStateInner.senderOnIncomingFlow, LinkFlowStateInner.drainedCredit]
  cases flow.drain with
  | true => cases flow.linkCredit <;> rfl
  | false =>
      have hzero : state.deliveryCount + 0 = state.deliveryCount := UInt32.add_zero _
      cases flow.linkCredit <;> cases flow.echo <;> exact hzero.symm

theorem deliveryCount_relay (w : CountedSender) (action : RelayAction) :
    ({ w.task with store := action.apply w.relay w.task.store } : SendTask).deliveryCount =
      w.task.deliveryCount + w.drainedBy action := by
  have hkept {store : LinkStore} (hstore : (store.cell w.task.id).flowState = w.task.cell.flowState) :
      ({ w.task with store } : SendTask).deliveryCount = w.task.deliveryCount + 0 := by
    rw [UInt32.add_zero]
    exact congrArg LinkFlowStateInner.deliveryCount hstore
  cases action with
  | attach frame => exact hkept (flowState_send ..)
  | disposition settled state deliveryTag =>
      apply hkept
      simp only [RelayAction.apply, relay, LinkRelay.onIncomingDisposition]
      split_ifs
      · exact flowState_settle ..
      · exact flowState_settle ..
      · simp [SendTask.cell]
  | detach frame remoteInitiated => exact hkept (flowState_onIncomingDetach ..)
  | flow flow =>
      have htaken {store : LinkStore} (hstore : (store.cell w.task.id).flowState = w.task.cell.flowState) :
          ({ w.task with
            store := store.modify w.task.id fun cell =>
              { cell with
                flowState := ((store.cell w.task.id).flowState.senderOnIncomingFlow flow
                  w.relayHandle).1 } } : SendTask).deliveryCount =
            w.task.deliveryCount + w.task.cell.flowState.drainedCredit flow := by
        have hcount := deliveryCount_senderOnIncomingFlow w.task.cell.flowState flow w.relayHandle
        rw [hstore]
        simpa [SendTask.deliveryCount, SendTask.cell] using hcount
      simp only [RelayAction.apply, relay, drainedBy, LinkRelay.onIncomingFlow]
      cases LinkRelay.acquisitionTxnId flow with
      | none => exact htaken rfl
      | some txnId =>
          have hsend := flowState_send w.task.store w.task.id w.task.id (.acquisition txnId)
          cases hsent : w.task.store.send w.task.id (.acquisition txnId) with
          | none =>
              simp only [hsent]
              exact hkept rfl
          | some store =>
              rw [hsent] at hsend
              simp only [hsent]
              exact htaken hsend

/-! ## Runs -/

/-- The count is ahead of the deliveries and the drained credit by what one event loses. -/
theorem step_balance (w : CountedSender) (e : CountEvent) :
    ∃ moved, (w.step e).1.task.deliveryCount = w.task.deliveryCount + UInt32.ofNat moved ∧
      (w.step e).1.handed + (w.step e).1.drained + (w.step e).1.task.awaitsFirstFrame.toNat +
          (w.task.losesCredit e).toNat =
        w.handed + w.drained + w.task.awaitsFirstFrame.toNat + moved := by
  have hquiet {t : SendTask} {moved lost : Nat} (h : Moves w.task t 0 lost moved) :
      w.handed + w.drained + t.awaitsFirstFrame.toNat + lost =
        w.handed + w.drained + w.task.awaitsFirstFrame.toNat + moved := by
    have hbalance := h.balance
    omega
  cases e with
  | send request =>
      simp only [step]
      split_ifs with hbusy
      · exact ⟨0, (UInt32.add_zero _).symm, rfl⟩
      · have hidle : w.task.future = none := by simpa using hbusy
        obtain ⟨moved, hmoves⟩ := w.task.moves_send request hidle
        exact ⟨moved, hmoves.count, hquiet hmoves⟩
  | poll =>
      obtain ⟨moved, hmoves⟩ := w.task.moves_poll
      have hbalance := hmoves.balance
      refine ⟨moved, hmoves.count, ?_⟩
      simp only [step]
      omega
  | cancel =>
      obtain ⟨moved, hmoves⟩ := w.task.moves_drop
      exact ⟨moved, hmoves.count, hquiet hmoves⟩
  | closeWriter => exact ⟨0, (UInt32.add_zero _).symm, rfl⟩
  | closeIncoming => exact ⟨0, (UInt32.add_zero _).symm, rfl⟩
  | relay action =>
      refine ⟨(w.drainedBy action).toNat, ?_, ?_⟩
      · rw [UInt32.ofNat_toNat]
        exact w.deliveryCount_relay action
      · simp only [step, SendTask.losesCredit, SendTask.awaitsFirstFrame, Bool.toNat_false]
        omega

/-- What loses a credit leaves no send before its first frame. -/
theorem awaitsFirstFrame_of_losesCredit {w : CountedSender} {e : CountEvent}
    (h : w.task.losesCredit e = true) : (w.step e).1.task.awaitsFirstFrame = false := by
  have hover {t : SendTask} {handed moved : Nat} (hmoves : Moves w.task t handed 1 moved) :
      t.awaitsFirstFrame = false := by
    have hbalance := hmoves.balance
    have hsingle := hmoves.single
    rw [← Bool.toNat_eq_zero]
    omega
  cases e with
  | send request => cases h
  | closeWriter => cases h
  | closeIncoming => cases h
  | relay action => cases h
  | cancel =>
      obtain ⟨moved, hmoves⟩ := w.task.moves_drop
      rw [h] at hmoves
      exact hover hmoves
  | poll =>
      obtain ⟨moved, hmoves⟩ := w.task.moves_poll
      rw [h] at hmoves
      exact hover hmoves

/-- The count is that of the deliveries, the drained credit and the credit that a send holds. -/
def Balanced (initial : UInt32) (w : CountedSender) : Prop :=
  w.task.deliveryCount =
    initial + UInt32.ofNat (w.handed + w.drained + w.task.awaitsFirstFrame.toNat)

theorem Balanced.countsDeliveries {initial : UInt32} {w : CountedSender} (h : w.Balanced initial) :
    w.CountsDeliveries initial := by
  intro hidle
  rw [h, hidle, Bool.toNat_false, Nat.add_zero, UInt32.add_comm, UInt32.add_sub_cancel]

theorem Balanced.step {initial : UInt32} {w : CountedSender} (h : w.Balanced initial)
    {e : CountEvent} (hkeeps : w.KeepsCredit e) : (w.step e).1.Balanced initial := by
  obtain ⟨moved, hcount, hbalance⟩ := w.step_balance e
  rw [hkeeps, Bool.toNat_false, Nat.add_zero] at hbalance
  rw [Balanced, hcount, h, hbalance, UInt32.ofNat_add _ moved, UInt32.add_assoc]

/-- A lost credit shows in the count. -/
theorem Balanced.not_countsDeliveries {initial : UInt32} {w : CountedSender} (h : w.Balanced initial)
    {e : CountEvent} (hloses : w.task.losesCredit e = true) :
    ¬(w.step e).1.CountsDeliveries initial := by
  intro hcounts
  obtain ⟨moved, hcount, hbalance⟩ := w.step_balance e
  have hidle := awaitsFirstFrame_of_losesCredit hloses
  have hequal := hcounts hidle
  rw [hidle, hloses, Bool.toNat_false, Bool.toNat_true, Nat.add_zero] at hbalance
  rw [hcount, h, UInt32.add_assoc, ← UInt32.ofNat_add, ← hbalance, UInt32.ofNat_add, UInt32.add_comm,
    UInt32.add_sub_cancel] at hequal
  have hone : UInt32.ofNat ((w.step e).1.handed + (w.step e).1.drained) + UInt32.ofNat 1 ≠
      UInt32.ofNat ((w.step e).1.handed + (w.step e).1.drained) := by
    intro hsame
    have hzero : UInt32.ofNat 1 = 0 := (UInt32.add_right_inj _).mp (hsame.trans (UInt32.add_zero _).symm)
    exact absurd hzero (by decide)
  exact hone hequal

theorem balanced_start (link : SenderLink) (id : LinkId) (store : LinkStore)
    (relayHandle : OutputHandle) (relayMode : ReceiverSettleMode) :
    (start link id store relayHandle relayMode).Balanced (store.cell id).flowState.deliveryCount :=
  (UInt32.add_zero _).symm

/-- In a run of sends the delivery count is that of the deliveries and the drained credit in every
state just when no send is over between its credit and its first frame. -/
theorem countsDeliveries_iff (link : SenderLink) (id : LinkId) (store : LinkStore)
    (relayHandle : OutputHandle) (relayMode : ReceiverSettleMode) (events : List CountEvent) :
    (∀ before, before <+: events →
      (Run.run step (start link id store relayHandle relayMode) before).1.CountsDeliveries
        (store.cell id).flowState.deliveryCount) ↔
      Run.Along step KeepsCredit (start link id store relayHandle relayMode) events := by
  have hbalanced {es : List CountEvent}
      (h : Run.Along step KeepsCredit (start link id store relayHandle relayMode) es) :
      (Run.run step (start link id store relayHandle relayMode) es).1.Balanced
        (store.cell id).flowState.deliveryCount :=
    Run.invariant_of_along (fun _ _ h hkeeps => h.step hkeeps) (balanced_start ..) h
  constructor
  · intro hcounts
    induction events using List.reverseRecOn with
    | nil => trivial
    | append_singleton es e ih =>
        have hes := ih fun before hbefore => hcounts before (hbefore.trans (List.prefix_append es [e]))
        refine Run.along_append.mpr ⟨hes, ?_, trivial⟩
        have hlast := hcounts _ (List.prefix_refl _)
        rw [Run.run_snoc] at hlast
        exact Bool.eq_false_iff.mpr fun hloses => (hbalanced hes).not_countsDeliveries hloses hlast
  · rintro hkeeps before ⟨after, rfl⟩
    exact (hbalanced (Run.along_append.mp hkeeps).1).countsDeliveries

section Witnesses

private def attachedSender : SenderLink where
  name := "link"
  role := .sender
  localState := .attached
  outputHandle := some ⟨0⟩
  inputHandle := some ⟨0⟩
  sndSettleMode := .mixed
  rcvSettleMode := .first
  source := none
  targetKind := .target
  target := none
  maxMessageSize := 0
  offeredCapabilities := none
  desiredCapabilities := none
  verifyIncomingSource := false
  verifyIncomingTarget := false
  maxFrameSize := 512
  sessionStopReason := none

private def oneCredit : LinkStore :=
  LinkStore.empty.modify 0 fun cell =>
    { cell with flowState := { cell.flowState with linkCredit := 1 } }

private def request : SendRequest := ⟨[0], 0, none, none, false, 0⟩

/-- The send takes its credit, finds the session's queue full and is dropped. -/
theorem dropped_before_first_frame :
    ¬(Run.run step (start attachedSender 0 oneCredit ⟨0⟩ .first)
      [.send request, .poll, .cancel]).1.CountsDeliveries 0 := by
  intro hcounts
  have hcount := hcounts (by decide +kernel)
  exact absurd hcount (by decide +kernel)

end Witnesses

end CountedSender

end Fe2o3Amqp
