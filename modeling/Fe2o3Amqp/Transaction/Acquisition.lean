import Fe2o3Amqp.Link.Disposer
import Fe2o3Amqp.Link.Detach

/-!
# Transactional acquisition

A receiver link that acquires deliveries for a transaction names the transaction in the properties of
its flows.  The acquisition borrows the receiver; meanwhile the session forwards the peer's frames and
flows to the link, disposers work on other tasks, and the session may stop at any time.
-/

namespace Fe2o3Amqp

variable {M E D : Type}

/-! ## Receiving -/

/-- What the session forwards to a receiver. -/
inductive ReceiverLinkItem where
  | remoteTransfer (transfer : Transfer) (payload : Payload)
  | detach (detach : Detach)
  | attach
  | acquisition

namespace ReceiverLink

def applyRemoteDetachOutcome (link : ReceiverLink) (detach : Detach) :
    Except DetachError Unit × ReceiverLink :=
  match link.localState with
  | .attached | .attachSent | .attachReceived | .incompleteAttachExchanged | .incompleteAttachSent
  | .incompleteAttachReceived | .detachSent | .closeSent =>
      (LinkEndpoint.detachResult detach,
        { link with
          localState := if detach.closed then .closed else .detached
          outputHandle := none })
  | _ => (.error .illegalState, link)

end ReceiverLink

namespace ReceiverInner

/-- `recv_inner` on the next item; there is none once the session has stopped. -/
def recvInner (decode : Bytes → Except E M) (r : ReceiverInner) (closing : Closing) :
    Option ReceiverLinkItem → Except (RecvError E) (Option (Delivery M)) × ReceiverInner
  | none =>
      (.error <| .linkStateError <|
        match r.link.sessionStopReason with
        | some reason => .sessionStopped reason
        | none => .illegalState, r)
  | some (.remoteTransfer transfer payload) => r.onIncomingTransfer decode closing transfer payload
  | some (.detach detach) =>
      let (result, link) := r.link.applyRemoteDetachOutcome detach
      (.error <| .linkStateError <|
        match result with
        | .error e => .ofDetachError e
        | .ok _ => if detach.closed then .remoteClosed else .remoteDetached, r.withLink link)
  | some .attach => (.error (.linkStateError .illegalState), r)
  | some .acquisition =>
      let error : Error :=
        { condition := .amqpError .notImplemented
          description := some "Transactional acquisition is not implemented"
          info := none }
      let (result, r) := r.closeWithError closing (some error)
      (.error (closed result .transactionalAcquisitionIsNotImeplemented), r)

/-- `send_flow` on the receiver's link. -/
def sendFlow (r : ReceiverInner) (linkCredit : Option UInt32) (drain : Option Bool)
    (echo includeProperties : Bool) : Except IllegalLinkStateError Unit × ReceiverInner :=
  match r.link.sendFlow r.outgoing linkCredit drain echo includeProperties with
  | (.error e, link) => (.error e, r.withLink link)
  | (.ok outgoing, link) => (.ok (), { r with outgoing, link })

def setCredit (r : ReceiverInner) (credit : SequenceNo) :
    Except IllegalLinkStateError Unit × ReceiverInner :=
  let r :=
    { r with
      processed := 0
      creditMode :=
        match r.creditMode with
        | .auto _ => .auto credit
        | .manual => .manual }
  r.sendFlow (some credit) (some false) false false

end ReceiverInner

/-! ## Transactions -/

/-- A transaction of the client, with the id that its declaration was answered with. -/
structure ClientTransaction where
  txnId : TransactionId
  isDischarged : Bool

/-- `discharge`; the coordinator's answer is that to the transfer on the control link, which is sent for
a transaction that is not discharged. -/
def ClientTransaction.discharge (txn : ClientTransaction) (answer : Except D Unit) :
    Except D Unit × ClientTransaction :=
  if txn.isDischarged then (.ok (), txn)
  else
    match answer with
    | .error e => (.error e, txn)
    | .ok _ => (.ok (), { txn with isDischarged := true })

/-! ## The acquisition -/

structure TxnAcquisition where
  txn : ClientTransaction
  recver : ReceiverInner

/-- `fields.contains_key(TXN_ID_KEY)`. -/
def LinkFlowStateInner.containsTxnId (state : LinkFlowStateInner) : Bool :=
  (state.properties.getD []).any (·.1 = txnIdKey)

/-- `fields.swap_remove(TXN_ID_KEY)`. -/
def LinkFlowStateInner.removeTxnId (state : LinkFlowStateInner) : LinkFlowStateInner :=
  { state with properties := state.properties.map (IndexMap.swapRemoveEntries txnIdKey) }

def ReceiverInner.withFlowState (r : ReceiverInner) (flowState : LinkFlowStateInner) : ReceiverInner :=
  r.withLink { r.link with flowState }

/-- `acquire`.  The receiver comes back with an error. -/
def ClientTransaction.acquire (txn : ClientTransaction) (recver : ReceiverInner) (credit : SequenceNo) :
    Except (IllegalLinkStateError × ReceiverInner) TxnAcquisition :=
  let flowState := recver.link.flowState
  let fields := flowState.properties.getD []
  if flowState.containsTxnId then .error (.illegalState, recver)
  else
    let fields := OrderedMap.insert (· == ·) fields txnIdKey (.binary txn.txnId)
    let recver := recver.withFlowState { flowState with properties := some fields }
    match recver.sendFlow (some credit) none false true with
    | (.ok _, recver) => .ok ⟨txn, recver⟩
    | (.error e, recver) => .error (e, recver.withFlowState recver.link.flowState.removeTxnId)

namespace TxnAcquisition

/-- `cleanup`: the key goes whether or not the drain flow can be sent. -/
def cleanup (acquisition : TxnAcquisition) : Except IllegalLinkStateError Unit × TxnAcquisition :=
  let recver := acquisition.recver.withFlowState acquisition.recver.link.flowState.removeTxnId
  let (result, recver) := recver.sendFlow (some 0) (some true) true true
  (result, { acquisition with recver })

/-- `drop`; `blocking_send_flow` differs from `send_flow` in how it waits. -/
def drop (acquisition : TxnAcquisition) : ReceiverInner :=
  if acquisition.txn.isDischarged then acquisition.recver else acquisition.cleanup.2.recver

/-- `retire` and the methods that retire with one outcome. -/
def retire (acquisition : TxnAcquisition) (info : DeliveryInfo) (outcome : Outcome) :
    Except IllegalLinkStateError Unit × TxnAcquisition :=
  let state := .transactionalState ⟨acquisition.txn.txnId, some outcome⟩
  let (result, recver) := acquisition.recver.dispose info none state
  (result, { acquisition with recver })

/-- `commit` and `rollback`, which differ in what they tell the coordinator; the acquisition is dropped
at the end in any case. -/
def finish (acquisition : TxnAcquisition) (answer : Except D Unit) :
    Except (IllegalLinkStateError ⊕ D) Unit × ReceiverInner :=
  match acquisition.cleanup with
  | (.error e, acquisition) => (.error (.inl e), acquisition.drop)
  | (.ok _, acquisition) =>
      let (result, txn) := acquisition.txn.discharge answer
      (result.mapError .inr, { acquisition with txn }.drop)

def commit (acquisition : TxnAcquisition) (answer : Except D Unit) :
    Except (IllegalLinkStateError ⊕ D) Unit × ReceiverInner :=
  acquisition.finish answer

def rollback (acquisition : TxnAcquisition) (answer : Except D Unit) :
    Except (IllegalLinkStateError ⊕ D) Unit × ReceiverInner :=
  acquisition.finish answer

end TxnAcquisition

/-! ## Runs -/

/-- What happens while the acquisition lives: calls of its methods, and what others do to the link. -/
inductive AcquisitionEvent (D : Type) where
  | recv (closing : Closing) (item : Option ReceiverLinkItem)
  | setCredit (credit : SequenceNo)
  | retire (info : DeliveryInfo) (outcome : Outcome)
  | cleanup
  /-- `discharge` through `txn_mut`, with the coordinator's answer. -/
  | discharge (answer : Except D Unit)
  /-- The session hands a flow of the peer to the link. -/
  | flow (flow : LinkFlow) (outputHandle : OutputHandle)
  /-- A disposer of the receiver disposes of a delivery. -/
  | disposeBy (disposer : ReceiverDisposer) (info : DeliveryInfo) (state : DeliveryState)
  /-- The session stops. -/
  | stop (reason : SessionStopReason)

/-- How the acquisition ends. -/
inductive AcquisitionEnd (D : Type) where
  | drop
  | commit (answer : Except D Unit)
  | rollback (answer : Except D Unit)

namespace TxnAcquisition

def step (decode : Bytes → Except E M) (acquisition : TxnAcquisition) :
    AcquisitionEvent D → TxnAcquisition
  | .recv closing item =>
      { acquisition with recver := (acquisition.recver.recvInner decode closing item).2 }
  | .setCredit credit => { acquisition with recver := (acquisition.recver.setCredit credit).2 }
  | .retire info outcome => (acquisition.retire info outcome).2
  | .cleanup => acquisition.cleanup.2
  | .discharge answer => { acquisition with txn := (acquisition.txn.discharge answer).2 }
  | .flow flow outputHandle =>
      let r := acquisition.recver
      { acquisition with
        recver := r.withFlowState (r.link.flowState.receiverOnIncomingFlow flow outputHandle).1 }
  | .disposeBy disposer info state =>
      { acquisition with recver := (disposer.dispose acquisition.recver info state).2 }
  | .stop reason =>
      let r := acquisition.recver
      { acquisition with
        recver :=
          { r with
            link := { r.link with sessionStopReason := some (r.link.sessionStopReason.getD reason) }
            outgoing := { r.outgoing with closed := true } } }

/-- The receiver once the acquisition is gone. -/
def ended (acquisition : TxnAcquisition) : AcquisitionEnd D → ReceiverInner
  | .drop => acquisition.drop
  | .commit answer => (acquisition.commit answer).2
  | .rollback answer => (acquisition.rollback answer).2

end TxnAcquisition

/-- The receiver after `acquire` has failed, or after the acquisition with these events and this end. -/
def afterAcquisition (decode : Bytes → Except E M) (txn : ClientTransaction) (recver : ReceiverInner)
    (credit : SequenceNo) (events : List (AcquisitionEvent D)) (ending : AcquisitionEnd D) :
    ReceiverInner :=
  match txn.acquire recver credit with
  | .error (_, recver) => recver
  | .ok acquisition => (events.foldl (TxnAcquisition.step decode) acquisition).ended ending

/-! ## The properties of the flows -/

/-- The properties of the link's flows are the same. -/
def SameProperties (r r' : ReceiverInner) : Prop :=
  r'.link.flowState.properties = r.link.flowState.properties

namespace SameProperties

theorem refl (r : ReceiverInner) : SameProperties r r := rfl

theorem trans {r r₁ r' : ReceiverInner} (h : SameProperties r r₁) (h' : SameProperties r₁ r') :
    SameProperties r r' := Eq.trans h' h

end SameProperties

namespace ReceiverLink

theorem properties_sendFlow (link : ReceiverLink) (writer : LinkWriter) (linkCredit : Option UInt32)
    (drain : Option Bool) (echo includeProperties : Bool) :
    (link.sendFlow writer linkCredit drain echo includeProperties).2.flowState.properties =
      link.flowState.properties := by
  rw [sendFlow]
  split
  · rfl
  · simp only [getLinkFlow]
    split <;> rfl

theorem properties_dispose (link : ReceiverLink) (writer : LinkWriter) (info : DeliveryInfo)
    (settled : Option Bool) (state : DeliveryState) (batchable : Bool) :
    (link.dispose writer info settled state batchable).2.flowState.properties =
      link.flowState.properties := by
  simp only [dispose]
  split
  · split
    · split <;> rfl
    · split <;> rfl
  · split <;> rfl

theorem properties_onTransferState {link link' : ReceiverLink} {tag : Option DeliveryTag}
    {settled : Option Bool} {state : DeliveryState}
    (h : link.onTransferState (E := E) tag settled state = .ok link') :
    link'.flowState.properties = link.flowState.properties := by
  unfold onTransferState at h
  split at h
  · cases h
  · simp only at h
    split at h
    · cases h
      rfl
    · split at h
      · cases h
        rfl
      · split at h <;>
        · cases h
          rfl

theorem properties_onCompleteTransfer (decode : Bytes → Except E M) (link : ReceiverLink)
    (transfer : Transfer) (payload : List Payload) (number : UInt32) (offset : UInt64) :
    (link.onCompleteTransfer decode transfer payload number offset).2.flowState.properties =
      link.flowState.properties := by
  rw [onCompleteTransfer]
  split
  · rfl
  · split
    · rfl
    · next link₁ hconsume =>
        have hsame : link₁.flowState.properties = link.flowState.properties := by
          rw [consume] at hconsume
          split at hconsume
          · cases hconsume
          · cases hconsume
            rfl
        simp only
        split
        · exact hsame
        · exact hsame
        · split
          · exact hsame
          · split
            · exact hsame
            · exact hsame

theorem properties_applyRemoteDetachOutcome (link : ReceiverLink) (detach : Detach) :
    (link.applyRemoteDetachOutcome detach).2.flowState.properties = link.flowState.properties := by
  rw [applyRemoteDetachOutcome]
  split <;> rfl

end ReceiverLink

namespace ReceiverInner

theorem sendFlow_sameProperties (r : ReceiverInner) (linkCredit : Option UInt32) (drain : Option Bool)
    (echo includeProperties : Bool) :
    SameProperties r (r.sendFlow linkCredit drain echo includeProperties).2 := by
  have h := r.link.properties_sendFlow r.outgoing linkCredit drain echo includeProperties
  rw [sendFlow]
  split
  · next hflow =>
      rw [hflow] at h
      exact h
  · next hflow =>
      rw [hflow] at h
      exact h

theorem updateCreditIfAuto_sameProperties (r : ReceiverInner) (processed : UInt32) :
    SameProperties r (r.updateCreditIfAuto processed).2 := by
  obtain ⟨hsame, -⟩ | ⟨maxCredit, -, -, ⟨-, hsame⟩ | ⟨-, hsame⟩ | ⟨-, flow, hsame⟩⟩ :=
    r.updateCreditIfAuto_cases processed
  · rw [hsame]
    rfl
  · rw [hsame]
    rfl
  · rw [hsame]
    rfl
  · rw [hsame]
    rfl

theorem dispose_sameProperties (r : ReceiverInner) (info : DeliveryInfo) (settled : Option Bool)
    (state : DeliveryState) : SameProperties r (r.dispose info settled state).2 := by
  have h := r.link.properties_dispose r.outgoing info settled state false
  rw [dispose]
  split
  · next hdispose =>
      rw [hdispose] at h
      exact h
  · next outgoing link hdispose =>
      rw [hdispose] at h
      have hlink : SameProperties r { r with outgoing, link, processed := r.processed + 1 } := h
      exact hlink.trans (updateCreditIfAuto_sameProperties _ _)

theorem closeWithError_sameProperties (r : ReceiverInner) (closing : Closing) (error : Option Error) :
    SameProperties r (r.closeWithError closing error).2 := by
  rw [closeWithError]
  split
  · split
    · rfl
    · simp only
      split <;> rfl
  · rfl
  · rfl
  · rfl
  · rfl
  · rfl

theorem complete_sameProperties (decode : Bytes → Except E M) (r : ReceiverInner) (transfer : Transfer)
    (payload : List Payload) (number : UInt32) (offset : UInt64) :
    SameProperties r (r.complete decode transfer payload number offset).2 := by
  have h := r.link.properties_onCompleteTransfer decode transfer payload number offset
  rw [complete]
  split
  · next hcomplete =>
      rw [hcomplete] at h
      exact h
  · next delivery link hcomplete =>
      rw [hcomplete] at h
      have hlink : SameProperties r (r.withLink link) := h
      simp only
      split
      · have hdispose := hlink.trans (dispose_sameProperties (r.withLink link) delivery.info none .accepted)
        split
        · next hresult =>
            rw [hresult] at hdispose
            exact hdispose
        · next hresult =>
            rw [hresult] at hdispose
            exact hdispose
      · exact hlink

theorem completeSingle_sameProperties (decode : Bytes → Except E M) (r : ReceiverInner)
    (closing : Closing) (transfer : Transfer) (payload : Payload) :
    SameProperties r (r.completeSingle decode closing transfer payload).2 := by
  rw [completeSingle]
  split
  · exact closeWithError_sameProperties _ _ _
  · exact complete_sameProperties _ _ _ _ _ _

theorem onCompleteTransfer_sameProperties (decode : Bytes → Except E M) (r : ReceiverInner)
    (closing : Closing) (transfer : Transfer) (payload : Payload) :
    SameProperties r (r.onCompleteTransfer decode closing transfer payload).2 := by
  rw [onCompleteTransfer]
  split
  · exact completeSingle_sameProperties _ _ _ _ _
  · simp only
    split
    · exact closeWithError_sameProperties { r with incompleteTransfer := none } _ _
    · exact complete_sameProperties _ { r with incompleteTransfer := none } _ _ _ _

theorem onIncompleteTransfer_sameProperties (r : ReceiverInner) (closing : Closing)
    (transfer : Transfer) (payload : Payload) :
    SameProperties r (r.onIncompleteTransfer (E := E) closing transfer payload).2 := by
  rw [onIncompleteTransfer]
  split
  · exact closeWithError_sameProperties _ _ _
  · rfl

theorem takeIn_sameProperties (decode : Bytes → Except E M) (r : ReceiverInner) (closing : Closing)
    (transfer : Transfer) (payload : Payload) (matchesBuffer : Bool) :
    SameProperties r (r.takeIn decode closing transfer payload matchesBuffer).2 := by
  rw [takeIn]
  simp only
  split
  · exact closeWithError_sameProperties { r with incompleteTransfer := none } _ _
  · split
    · have h := onIncompleteTransfer_sameProperties (E := E) r closing transfer payload
      split
      · next hresult =>
          rw [hresult] at h
          exact h
      · next hresult =>
          rw [hresult] at h
          exact h
    · split
      · exact completeSingle_sameProperties _ _ _ _ _
      · exact onCompleteTransfer_sameProperties _ _ _ _ _

theorem onTransferState_sameProperties (r : ReceiverInner) (closing : Closing)
    (tag : Option DeliveryTag) (settled : Option Bool) (state : DeliveryState) :
    SameProperties r (r.onTransferState (E := E) closing tag settled state).2 := by
  rw [onTransferState]
  split
  · exact closeWithError_sameProperties _ _ _
  · simp only
    split
    · rfl
    · next hstate => exact ReceiverLink.properties_onTransferState hstate

theorem onIncomingTransfer_sameProperties (decode : Bytes → Except E M) (r : ReceiverInner)
    (closing : Closing) (transfer : Transfer) (payload : Payload) :
    SameProperties r (r.onIncomingTransfer decode closing transfer payload).2 := by
  rw [onIncomingTransfer]
  split
  · rw [onAbortedTransfer]
    split
    · rfl
    · split
      · exact closeWithError_sameProperties _ _ _
      · rfl
  · split
    · rfl
    · split
      · exact takeIn_sameProperties _ _ _ _ _ _
      · next state _ =>
          have h := onTransferState_sameProperties (E := E) r closing transfer.deliveryTag transfer.settled
            state
          split
          · next hresult =>
              rw [hresult] at h
              exact h
          · next hresult =>
              rw [hresult] at h
              exact h.trans (takeIn_sameProperties _ _ _ _ _ _)

theorem recvInner_sameProperties (decode : Bytes → Except E M) (r : ReceiverInner) (closing : Closing)
    (item : Option ReceiverLinkItem) : SameProperties r (r.recvInner decode closing item).2 := by
  rcases item with - | ⟨transfer, payload⟩ | detach | - | -
  · rfl
  · exact onIncomingTransfer_sameProperties _ _ _ _ _
  · exact r.link.properties_applyRemoteDetachOutcome detach
  · rfl
  · exact closeWithError_sameProperties _ _ _

end ReceiverInner

theorem ReceiverDisposer.dispose_sameProperties (disposer : ReceiverDisposer) (r : ReceiverInner)
    (info : DeliveryInfo) (state : DeliveryState) :
    SameProperties r (disposer.dispose r info state).2 := by
  have hrefresh (r : ReceiverInner) (processed : UInt32) :
      SameProperties r (disposer.refreshCreditIfNeeded r processed).2 := by
    rw [refreshCreditIfNeeded]
    split
    · rfl
    · split
      · split
        · rfl
        · simp only
          split <;> rfl
      · rfl
  have hsettle : SameProperties r (r.withLink
      (if info.rcvSettleMode.getD disposer.rcvSettleMode == .first then
        { r.link with unsettled := r.link.unsettled.map (·.swapRemove info.deliveryTag) }
      else r.link.insertUnsettled info.deliveryTag (some state))) := by
    split <;> rfl
  rw [dispose]
  simp only
  split
  · exact hsettle
  · exact hsettle.trans (SameProperties.trans rfl (hrefresh _ _))

/-! ## The key -/

/-- How often the properties have the key: once, or not at all. -/
def LinkFlowStateInner.txnIdCount (state : LinkFlowStateInner) : Nat :=
  ((state.properties.getD []).map Prod.fst).count txnIdKey

namespace LinkFlowStateInner

theorem containsTxnId_iff (state : LinkFlowStateInner) :
    state.containsTxnId = true ↔ state.txnIdCount ≠ 0 := by
  rw [containsTxnId, txnIdCount, List.any_eq_true, ← Nat.pos_iff_ne_zero, List.count_pos_iff,
    List.mem_map]
  simp

theorem containsTxnId_eq_false_iff (state : LinkFlowStateInner) :
    state.containsTxnId = false ↔ state.txnIdCount = 0 := by
  rw [← Bool.not_eq_true, containsTxnId_iff, not_not]

theorem txnIdCount_removeTxnId (state : LinkFlowStateInner) :
    state.removeTxnId.txnIdCount = state.txnIdCount - 1 := by
  have herase (fields : Fields) :
      ((fields.eraseP fun e => e.1 = txnIdKey).map Prod.fst).count txnIdKey =
        (fields.map Prod.fst).count txnIdKey - 1 := by
    induction fields with
    | nil => rfl
    | cons field fields ih =>
        by_cases h : field.1 = txnIdKey
        · simp [h]
        · simp [h, ih]
  cases hproperties : state.properties with
  | none => simp [removeTxnId, txnIdCount, hproperties]
  | some fields =>
      have hperm := (IndexMap.swapRemoveEntries_perm txnIdKey fields).map Prod.fst
      simp only [removeTxnId, txnIdCount, hproperties, Option.map_some, Option.getD_some]
      rw [hperm.count_eq, herase]

/-- A key that is not there is inserted once. -/
theorem txnIdCount_insert {state : LinkFlowStateInner} (h : state.containsTxnId = false) (value : Value) :
    ({ state with
      properties :=
        some (OrderedMap.insert (· == ·) (state.properties.getD []) txnIdKey value) } :
          LinkFlowStateInner).txnIdCount = 1 := by
  have hnone := state.containsTxnId_eq_false_iff.mp h
  have hne : ∀ entry ∈ state.properties.getD [], (entry.1 == txnIdKey) = false := by
    intro entry hentry
    rw [containsTxnId, List.any_eq_false] at h
    simpa using h entry hentry
  rw [txnIdCount] at hnone ⊢
  rw [Option.getD_some, OrderedMap.insert_eq_append _ _ _ _ hne, List.map_append, List.count_append,
    hnone]
  simp

end LinkFlowStateInner

theorem SameProperties.txnIdCount {r r' : ReceiverInner} (h : SameProperties r r') :
    r'.link.flowState.txnIdCount = r.link.flowState.txnIdCount := by
  rw [LinkFlowStateInner.txnIdCount, LinkFlowStateInner.txnIdCount, h]

namespace AcquisitionEvent

def isCleanup : AcquisitionEvent D → Bool
  | .cleanup => true
  | _ => false

/-- The coordinator accepts a discharge. -/
def discharges : AcquisitionEvent D → Bool
  | .discharge (.ok _) => true
  | _ => false

end AcquisitionEvent

/-- How often the link's flows name the transaction. -/
def TxnAcquisition.keyCount (acquisition : TxnAcquisition) : Nat :=
  acquisition.recver.link.flowState.txnIdCount

namespace TxnAcquisition

theorem keyCount_cleanup (acquisition : TxnAcquisition) :
    acquisition.cleanup.2.keyCount = acquisition.keyCount - 1 := by
  rw [keyCount, cleanup]
  simp only
  rw [(ReceiverInner.sendFlow_sameProperties _ _ _ _ _).txnIdCount]
  exact LinkFlowStateInner.txnIdCount_removeTxnId _

@[simp] theorem txn_cleanup (acquisition : TxnAcquisition) : acquisition.cleanup.2.txn = acquisition.txn :=
  rfl

/-- Of all events only a clean-up changes the key. -/
theorem keyCount_step (decode : Bytes → Except E M) (acquisition : TxnAcquisition)
    (event : AcquisitionEvent D) :
    (acquisition.step decode event).keyCount =
      if event.isCleanup then acquisition.keyCount - 1 else acquisition.keyCount := by
  cases event with
  | recv closing item =>
      exact (ReceiverInner.recvInner_sameProperties decode acquisition.recver closing item).txnIdCount
  | setCredit credit =>
      exact (ReceiverInner.sendFlow_sameProperties _ _ _ _ _).txnIdCount
  | retire info outcome =>
      exact (ReceiverInner.dispose_sameProperties acquisition.recver info none _).txnIdCount
  | cleanup => exact acquisition.keyCount_cleanup
  | discharge answer => rfl
  | flow flow outputHandle =>
      have hflow : (acquisition.recver.link.flowState.receiverOnIncomingFlow flow outputHandle).1.properties =
          acquisition.recver.link.flowState.properties := by
        rw [LinkFlowStateInner.receiverOnIncomingFlow]
        simp only
        split <;> rfl
      exact SameProperties.txnIdCount hflow
  | disposeBy disposer info state =>
      exact (disposer.dispose_sameProperties acquisition.recver info state).txnIdCount
  | stop reason => rfl

/-- Of all events only a discharge that is accepted discharges the transaction. -/
theorem isDischarged_step (decode : Bytes → Except E M) (acquisition : TxnAcquisition)
    (event : AcquisitionEvent D) :
    (acquisition.step decode event).txn.isDischarged =
      (acquisition.txn.isDischarged || event.discharges) := by
  cases event with
  | discharge answer =>
      unfold step ClientTransaction.discharge
      cases hdischarged : acquisition.txn.isDischarged with
      | true => simp [hdischarged]
      | false => cases answer <;> simp [AcquisitionEvent.discharges, hdischarged]
  | _ => simp [step, retire, AcquisitionEvent.discharges]

/-- After any events the key is there as before, unless the acquisition was cleaned up. -/
theorem keyCount_run (decode : Bytes → Except E M) {acquisition : TxnAcquisition}
    (h : acquisition.keyCount = 1) (events : List (AcquisitionEvent D)) :
    (events.foldl (step decode) acquisition).keyCount =
      if events.any AcquisitionEvent.isCleanup then 0 else 1 := by
  induction events using List.reverseRecOn with
  | nil => exact h
  | append_singleton events event ih =>
      rw [List.foldl_append, List.foldl_cons, List.foldl_nil, keyCount_step, ih, List.any_append]
      cases events.any AcquisitionEvent.isCleanup <;> cases hevent : event.isCleanup <;> simp [hevent]

theorem isDischarged_run (decode : Bytes → Except E M) (acquisition : TxnAcquisition)
    (events : List (AcquisitionEvent D)) :
    (events.foldl (step decode) acquisition).txn.isDischarged =
      (acquisition.txn.isDischarged || events.any AcquisitionEvent.discharges) := by
  induction events using List.reverseRecOn with
  | nil => simp
  | append_singleton events event ih =>
      rw [List.foldl_append, List.foldl_cons, List.foldl_nil, isDischarged_step, ih, List.any_append,
        Bool.or_assoc]
      simp

theorem txnIdCount_drop (acquisition : TxnAcquisition) :
    acquisition.drop.link.flowState.txnIdCount =
      if acquisition.txn.isDischarged then acquisition.keyCount else acquisition.keyCount - 1 := by
  rw [drop]
  split_ifs
  · rfl
  · exact acquisition.keyCount_cleanup

/-- A commit and a rollback clean up first. -/
theorem txnIdCount_finish {acquisition : TxnAcquisition} (h : acquisition.keyCount ≤ 1)
    (answer : Except D Unit) : (acquisition.finish answer).2.link.flowState.txnIdCount = 0 := by
  have hcleanup := acquisition.keyCount_cleanup
  have hzero (dropped : TxnAcquisition) (hkey : dropped.keyCount = 0) :
      dropped.drop.link.flowState.txnIdCount = 0 := by
    rw [txnIdCount_drop, hkey]
    split_ifs <;> rfl
  rw [finish]
  split
  · next hresult =>
      rw [hresult] at hcleanup
      exact hzero _ (by simp only at hcleanup; omega)
  · next hresult =>
      rw [hresult] at hcleanup
      exact hzero _ (by simp only at hcleanup; exact hcleanup.trans (by omega))

end TxnAcquisition

/-! ## No mark on the link -/

/-- The acquiring flow is sent. -/
def Acquires (recver : ReceiverInner) : Prop :=
  recver.link.flowState.containsTxnId = false ∧ recver.link.outputHandle.isSome ∧
    recver.outgoing.closed = false

/-- A flow is sent through an open channel, from a link with a handle. -/
theorem ReceiverInner.sendFlow_cases (r : ReceiverInner) (linkCredit : Option UInt32)
    (drain : Option Bool) (echo includeProperties : Bool) :
    (r.link.outputHandle.isSome ∧ r.outgoing.closed = false ∧
        ∃ r', r.sendFlow linkCredit drain echo includeProperties = (.ok (), r')) ∨
      (¬(r.link.outputHandle.isSome ∧ r.outgoing.closed = false) ∧
        ∃ e r', r.sendFlow linkCredit drain echo includeProperties = (.error e, r')) := by
  rw [sendFlow, ReceiverLink.sendFlow]
  cases houtput : r.link.outputHandle with
  | none => exact .inr ⟨by simp, _, _, rfl⟩
  | some handle =>
      simp only [LinkWriter.send, ReceiverLink.getLinkFlow]
      cases hclosed : r.outgoing.closed with
      | true => exact .inr ⟨by simp, _, _, rfl⟩
      | false => exact .inl ⟨rfl, rfl, _, rfl⟩

namespace ClientTransaction

/-- The receiver whose flows name the transaction. -/
private def named (txn : ClientTransaction) (recver : ReceiverInner) : ReceiverInner :=
  recver.withFlowState
    { recver.link.flowState with
      properties := some (OrderedMap.insert (· == ·) (recver.link.flowState.properties.getD []) txnIdKey
        (.binary txn.txnId)) }

private theorem acquire_eq {txn : ClientTransaction} {recver : ReceiverInner}
    (h : recver.link.flowState.containsTxnId = false) (credit : SequenceNo) :
    txn.acquire recver credit =
      match (txn.named recver).sendFlow (some credit) none false true with
      | (.ok _, recver) => .ok ⟨txn, recver⟩
      | (.error e, recver) => .error (e, recver.withFlowState recver.link.flowState.removeTxnId) := by
  rw [acquire, if_neg (by simp [h])]
  rfl

theorem acquire_ok {txn : ClientTransaction} {recver : ReceiverInner} (h : Acquires recver)
    (credit : SequenceNo) :
    ∃ acquisition, txn.acquire recver credit = .ok acquisition ∧ acquisition.txn = txn ∧
      acquisition.keyCount = 1 := by
  have hcount := LinkFlowStateInner.txnIdCount_insert h.1 (.binary txn.txnId)
  have hsame := (txn.named recver).sendFlow_sameProperties (some credit) none false true
  obtain ⟨-, -, r', hsent⟩ | ⟨hunsent, -⟩ :=
    (txn.named recver).sendFlow_cases (some credit) none false true
  · rw [hsent] at hsame
    rw [acquire_eq h.1, hsent]
    exact ⟨_, rfl, rfl, hsame.txnIdCount.trans hcount⟩
  · exact absurd h.2 hunsent

theorem acquire_error {txn : ClientTransaction} {recver : ReceiverInner} (h : ¬ Acquires recver)
    (credit : SequenceNo) :
    ∃ e recver', txn.acquire recver credit = .error (e, recver') ∧
      recver'.link.flowState.containsTxnId = recver.link.flowState.containsTxnId := by
  cases hkey : recver.link.flowState.containsTxnId with
  | true =>
      rw [acquire, if_pos hkey]
      exact ⟨_, _, rfl, hkey⟩
  | false =>
      have hcount := LinkFlowStateInner.txnIdCount_insert hkey (.binary txn.txnId)
      have hsame := (txn.named recver).sendFlow_sameProperties (some credit) none false true
      obtain ⟨houtput, hopen, -⟩ | ⟨-, e, r', hfailed⟩ :=
        (txn.named recver).sendFlow_cases (some credit) none false true
      · exact absurd ⟨hkey, houtput, hopen⟩ h
      · rw [hfailed] at hsame
        rw [acquire_eq hkey, hfailed]
        refine ⟨e, _, rfl, ?_⟩
        apply (LinkFlowStateInner.containsTxnId_eq_false_iff _).mpr
        have hremoved := r'.link.flowState.txnIdCount_removeTxnId
        rw [hsame.txnIdCount] at hremoved
        have hone : (txn.named recver).link.flowState.txnIdCount = 1 := hcount
        rw [hone] at hremoved
        exact hremoved

end ClientTransaction

/-- The acquisition does not begin, or the key is removed: by a commit, a rollback or a clean-up, or in
the end because the transaction has not been discharged. -/
def KeyReleased (txn : ClientTransaction) (recver : ReceiverInner) (events : List (AcquisitionEvent D))
    (ending : AcquisitionEnd D) : Prop :=
  ¬ Acquires recver ∨ ending ≠ .drop ∨ events.any AcquisitionEvent.isCleanup = true ∨
    (txn.isDischarged = false ∧ events.any AcquisitionEvent.discharges = false)

/-- A receiver with an attached link. -/
private def acquiringReceiver : ReceiverInner where
  link :=
    { localState := .attached
      outputHandle := some ⟨0⟩
      rcvSettleMode := .first
      maxMessageSize := 0
      flowState := ⟨0, 0, 0, 0, false, none⟩
      unsettled := none
      sessionStopReason := none }
  creditMode := .manual
  processed := 0
  autoAccept := false
  outgoing := ⟨[], false⟩
  incompleteTransfer := none

end Fe2o3Amqp
