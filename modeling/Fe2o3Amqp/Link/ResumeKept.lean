import Fe2o3Amqp.Link.Resume
import Fe2o3Amqp.Util.Except

/-!
# Deliveries that a resume keeps

An unsettled delivery is kept while it is in the unsettled map, or once its oneshot channel was given
a result.  A resume takes the map out of its lock and goes through the deliveries in local variables;
a failure on the way drops them.
-/

namespace Fe2o3Amqp

namespace LinkStore

variable {store store' store'' : LinkStore} {id : LinkId}

/-- The channel was given a result. -/
def Resolved (store : LinkStore) (sender : OneshotId) : Prop := (store.outcomes sender).isSome

instance (store : LinkStore) (sender : OneshotId) : Decidable (store.Resolved sender) :=
  inferInstanceAs (Decidable (_ = true))

/-- What is unsettled in `store` is unsettled or resolved in `store'`. -/
structure Keeps (id : LinkId) (store store' : LinkStore) : Prop where
  resolved : ∀ sender, store.Resolved sender → store'.Resolved sender
  unsettled : ∀ sender ∈ unsettledSenders (store.cell id).senderUnsettled,
    sender ∈ unsettledSenders (store'.cell id).senderUnsettled ∨ store'.Resolved sender

theorem Keeps.refl (id : LinkId) (store : LinkStore) : Keeps id store store :=
  ⟨fun _ h => h, fun _ h => .inl h⟩

theorem Keeps.trans (h : Keeps id store store') (h' : Keeps id store' store'') :
    Keeps id store store'' := by
  refine ⟨fun sender hresolved => h'.resolved sender (h.resolved sender hresolved), fun sender hmem => ?_⟩
  rcases h.unsettled sender hmem with hmem | hresolved
  · exact h'.unsettled sender hmem
  · exact .inr (h'.resolved sender hresolved)

/-- A change of the cell that leaves the map alone. -/
theorem keeps_modify (store : LinkStore) (id : LinkId) {f : LinkCell → LinkCell}
    (h : (f (store.cell id)).senderUnsettled = (store.cell id).senderUnsettled) :
    Keeps id store (store.modify id f) := by
  refine ⟨fun _ hresolved => hresolved, fun sender hmem => .inl ?_⟩
  rw [modify_cell_self, h]
  exact hmem

theorem resolved_resolve (store : LinkStore) (sender : OneshotId)
    (result : Except LinkStateError (Option DeliveryState)) :
    (store.resolve sender result).Resolved sender := by
  simp [Resolved, resolve]

theorem keeps_resolve (store : LinkStore) (id : LinkId) (sender : OneshotId)
    (result : Except LinkStateError (Option DeliveryState)) :
    Keeps id store (store.resolve sender result) := by
  refine ⟨fun sender' hresolved => ?_, fun _ hmem => .inl hmem⟩
  by_cases hsame : sender' = sender
  · rw [hsame]
    exact store.resolved_resolve sender result
  · simpa [Resolved, resolve, hsame] using hresolved

theorem mem_unsettledSenders {sender : OneshotId}
    {unsettled : Option (IndexMap DeliveryTag UnsettledMessage)} :
    sender ∈ unsettledSenders unsettled ↔
      ∃ m tag message, unsettled = some m ∧ m.get tag = some message ∧ message.sender = sender := by
  cases unsettled with
  | none => simp [unsettledSenders]
  | some m => simp [unsettledSenders, IndexMap.get_eq_some_iff]

theorem keeps_settle (store : LinkStore) (id : LinkId) (tag : DeliveryTag)
    (state : Option DeliveryState) : Keeps id store (store.settle id tag state) := by
  simp only [settle]
  cases hmap : (store.cell id).senderUnsettled with
  | none => exact .refl id store
  | some m =>
      dsimp only
      cases hget : m.get tag with
      | none => exact .refl id store
      | some message =>
          refine ⟨fun sender hresolved => (keeps_resolve _ id _ _).resolved sender hresolved,
            fun sender hmem => ?_⟩
          obtain ⟨m', tag', message', hm', hget', hsender⟩ := mem_unsettledSenders.mp hmem
          rw [hmap] at hm'
          cases hm'
          by_cases hsame : tag' = tag
          · rw [hsame, hget] at hget'
            cases hget'
            rw [← hsender]
            exact .inr (resolved_resolve _ _ _)
          · refine .inl (mem_unsettledSenders.mpr ⟨m.swapRemove tag, tag', message', ?_, ?_, hsender⟩)
            · simp
            · rw [IndexMap.get_swapRemove, if_neg hsame]
              exact hget'

theorem keeps_modifyState (store : LinkStore) (id : LinkId) (tag : DeliveryTag)
    (state : Option DeliveryState) :
    Keeps id store (store.modify id fun cell =>
      { cell with
        senderUnsettled := cell.senderUnsettled.map fun m =>
          m.modify tag fun message => { message with state } }) := by
  refine ⟨fun _ hresolved => hresolved, fun sender hmem => .inl ?_⟩
  obtain ⟨m, tag', message, hmap, hget, hsender⟩ := mem_unsettledSenders.mp hmem
  rw [modify_cell_self, hmap, mem_unsettledSenders]
  by_cases hsame : tag' = tag
  · refine ⟨_, tag', { message with state }, rfl, ?_, hsender⟩
    rw [IndexMap.get_modify, if_pos hsame, ← hsame, hget]
    rfl
  · refine ⟨_, tag', message, rfl, ?_, hsender⟩
    rw [IndexMap.get_modify, if_neg hsame]
    exact hget

theorem keeps_foldl_resolve (id : LinkId) (error : LinkStateError)
    (entries : List (DeliveryTag × UnsettledMessage)) (store : LinkStore) :
    Keeps id store (entries.foldl (fun store entry => store.resolve entry.2.sender (.error error)) store) ∧
      ∀ entry ∈ entries, (entries.foldl (fun store entry =>
        store.resolve entry.2.sender (.error error)) store).Resolved entry.2.sender := by
  induction entries generalizing store with
  | nil => exact ⟨.refl id store, by simp⟩
  | cons entry entries ih =>
      obtain ⟨hkeeps, hall⟩ := ih (store.resolve entry.2.sender (.error error))
      refine ⟨(keeps_resolve store id _ _).trans hkeeps, ?_⟩
      rintro entry' hmem
      rcases List.mem_cons.mp hmem with rfl | hmem
      · exact hkeeps.resolved _ (resolved_resolve _ _ _)
      · exact hall entry' hmem

theorem keeps_failPendingUnsettled (store : LinkStore) (id : LinkId) (detach : Detach) :
    Keeps id store (store.failPendingUnsettled id detach) := by
  simp only [failPendingUnsettled]
  cases hmap : (store.cell id).senderUnsettled with
  | none => exact .refl id store
  | some m =>
      dsimp only
      obtain ⟨hkeeps, hall⟩ := keeps_foldl_resolve id _ m.entries
        (store.modify id fun cell => { cell with senderUnsettled := none })
      refine ⟨fun sender hresolved => hkeeps.resolved sender hresolved, fun sender hmem => .inr ?_⟩
      obtain ⟨m', tag, message, hm', hget, hsender⟩ := mem_unsettledSenders.mp hmem
      rw [hmap] at hm'
      cases hm'
      rw [← hsender]
      exact hall (tag, message) ((IndexMap.get_eq_some_iff m tag message).mp hget)

/-- Every delivery that is taken out of the map is resumed or resolved. -/
theorem resumeDeliveries_keeps (store : LinkStore)
    (localMap : List (DeliveryTag × UnsettledMessage))
    (remoteMap : OrderedMap DeliveryTag (Option DeliveryState)) :
    let out := resumeDeliveries store localMap remoteMap
    (∀ sender, store.Resolved sender → out.2.2.Resolved sender) ∧
      ∀ entry ∈ localMap, out.2.2.Resolved entry.2.sender ∨
        entry.2.sender ∈ out.1.filterMap fun entry => entry.2.sender := by
  induction localMap generalizing store remoteMap with
  | nil => exact ⟨fun _ h => h, by simp⟩
  | cons entry localMap ih =>
      obtain ⟨tag, message⟩ := entry
      simp only [resumeDeliveries]
      rcases resumeDelivery_cases store message (IndexMap.lookupEntries tag remoteMap) with
        ⟨resuming, hresume, hsender⟩ | ⟨state, hresume⟩
      · obtain ⟨hmono, hall⟩ := ih store (IndexMap.swapRemoveEntries tag remoteMap)
        simp only [hresume, List.filterMap_cons, hsender]
        refine ⟨hmono, fun entry hmem => ?_⟩
        rcases List.mem_cons.mp hmem with rfl | hmem
        · exact .inr List.mem_cons_self
        · exact (hall entry hmem).imp_right (List.mem_cons_of_mem _)
      · obtain ⟨hmono, hall⟩ := ih (store.resolve message.sender (.ok state))
          (IndexMap.swapRemoveEntries tag remoteMap)
        simp only [hresume]
        refine ⟨fun sender hresolved => hmono sender ?_, fun entry hmem => ?_⟩
        · exact (keeps_resolve store 0 _ _).resolved sender hresolved
        · rcases List.mem_cons.mp hmem with rfl | hmem
          · exact .inl (hmono _ (resolved_resolve _ _ _))
          · exact hall entry hmem

theorem handleUnsettledInAttach_keeps (store : LinkStore) (id : LinkId)
    (remoteUnsettled : Option (OrderedMap DeliveryTag (Option DeliveryState))) :
    let out := store.handleUnsettledInAttach id remoteUnsettled
    (∀ sender, store.Resolved sender → out.2.Resolved sender) ∧
      ∀ sender ∈ unsettledSenders (store.cell id).senderUnsettled,
        out.2.Resolved sender ∨ sender ∈ (out.1.getD []).filterMap fun entry => entry.2.sender := by
  rw [handleUnsettledInAttach_eq]
  dsimp only
  split_ifs with hempty
  · refine ⟨fun _ h => h, fun sender hmem => ?_⟩
    rw [Bool.and_eq_true, List.isEmpty_iff] at hempty
    simp [unsettledSenders, hempty.1] at hmem
  · obtain ⟨hmono, hall⟩ := resumeDeliveries_keeps (store.takeSenderUnsettled id)
      ((store.cell id).senderUnsettled.elim [] (·.entries)) (remoteUnsettled.getD [])
    refine ⟨hmono, fun sender hmem => ?_⟩
    obtain ⟨entry, hentry, rfl⟩ := List.mem_map.mp hmem
    rw [Option.getD_some, List.filterMap_append]
    exact (hall entry hentry).imp_right (List.mem_append_left _)

theorem keeps_send (store : LinkStore) (id : LinkId) (frame : LinkFrame) :
    Keeps id store ((store.send id frame).getD store) := by
  simp only [send]
  split_ifs
  · exact .refl id store
  · rw [Option.getD_some]
    apply keeps_modify
    rfl

end LinkStore

open LinkStore

/-- A detach is forwarded to the link, and fails what is unsettled or does not. -/
theorem onIncomingDetach_store (id : LinkId) (outputHandle : OutputHandle)
    (receiverSettleMode : ReceiverSettleMode) (store : LinkStore) (detach : Detach)
    (remoteInitiated : Bool) :
    let forwarded := (store.send id (.detach detach)).getD store
    let out := ((LinkRelay.sender id outputHandle receiverSettleMode).onIncomingDetach store detach
      remoteInitiated).2
    out = forwarded ∨ out = forwarded.failPendingUnsettled id detach := by
  have hboth : ∀ lost : Bool, ∀ forwarded : LinkStore,
      (if lost then ((none : Option Detach), forwarded.failPendingUnsettled id detach)
        else (none, forwarded)).2 = forwarded ∨
      (if lost then ((none : Option Detach), forwarded.failPendingUnsettled id detach)
        else (none, forwarded)).2 = forwarded.failPendingUnsettled id detach := by
    intro lost forwarded
    cases lost with
    | true => exact .inr rfl
    | false => exact .inl rfl
  simp only [LinkRelay.onIncomingDetach, LinkRelay.link]
  cases remoteInitiated with
  | true =>
      simp only [if_true]
      split_ifs
      · exact .inr rfl
      · exact .inl rfl
  | false => exact hboth _ _

/-- What a relay does with a frame of the peer keeps every unsettled delivery of its link. -/
theorem RelayAction.keeps_apply (id : LinkId) (outputHandle : OutputHandle)
    (receiverSettleMode : ReceiverSettleMode) (store : LinkStore) (action : RelayAction) :
    LinkStore.Keeps id store (action.apply (.sender id outputHandle receiverSettleMode) store) := by
  cases action with
  | attach frame => exact keeps_send store id _
  | flow frame =>
      simp only [apply, LinkRelay.onIncomingFlow]
      have hflow : ∀ store : LinkStore, Keeps id store (store.modify id fun cell =>
          { cell with
            flowState := ((store.cell id).flowState.senderOnIncomingFlow frame outputHandle).1 }) := by
        intro store
        apply keeps_modify
        rfl
      cases LinkRelay.acquisitionTxnId frame with
      | none => exact hflow store
      | some txnId =>
          have hsend := keeps_send store id (.acquisition txnId)
          cases hsent : store.send id (.acquisition txnId) with
          | none =>
              simp only [hsent]
              exact .refl id store
          | some store' =>
              simp only [hsent]
              rw [hsent] at hsend
              exact hsend.trans (hflow store')
  | disposition settled state deliveryTag =>
      simp only [apply, LinkRelay.onIncomingDisposition]
      split_ifs
      · exact keeps_settle store id deliveryTag state
      · exact keeps_settle store id deliveryTag state
      · exact keeps_modifyState store id deliveryTag state
  | detach frame remoteInitiated =>
      have hsend := keeps_send store id (.detach frame)
      rcases onIncomingDetach_store id outputHandle receiverSettleMode store frame remoteInitiated with
        hstore | hstore
      · rw [apply, hstore]
        exact hsend
      · rw [apply, hstore]
        exact hsend.trans (keeps_failPendingUnsettled _ id frame)

/-! ## What the procedure holds in its local variables -/

/-- The channels that are dropped with the loop. -/
def Remaining.held (resendBuf : List UnsettledMessage) : Remaining → List OneshotId
  | .deliveries rest _ => rest.filterMap (fun entry => entry.2.sender) ++ resendBuf.map (·.sender)
  | .resends rest => rest.map (·.sender)

def OnTheWay.held : OnTheWay → List OneshotId
  | .aborted sender => sender.toList
  | .settled message => [message.sender]
  | .registered _ _ => []

namespace ResumeTask

def held (t : ResumeTask) : List OneshotId :=
  match t.awaiting with
  | .next remaining => remaining.held t.resendBuf
  | .transfer _ delivery remaining => delivery.held ++ remaining.held t.resendBuf
  | .credit message rest => message.sender :: rest.map (·.sender)
  | _ => []

/-- What a send that fails drops of its delivery; the registration is withdrawn by its tag. -/
def atRisk (t : ResumeTask) : OnTheWay → List OneshotId
  | .registered tag _ => ((t.cell.senderUnsettled.bind (·.get tag)).map (·.sender)).toList
  | delivery => delivery.held

def AllResolved (t : ResumeTask) (senders : List OneshotId) : Prop :=
  ∀ sender ∈ senders, t.store.Resolved sender

/-- No delivery is registered under the tag. -/
def TagFree (t : ResumeTask) (deliveryTag : DeliveryTag) : Prop :=
  ∀ m, t.cell.senderUnsettled = some m → m.get deliveryTag = none

/-- The peer's handle is known and the performative leaves room in a frame. -/
def CanStart (t : ResumeTask) (transfer : Transfer) (payload : Payload) : Prop :=
  ∃ split, t.link.startTransfer transfer payload = .ok split

/-- The delivery reaches its first frame. -/
def CanBegin (t : ResumeTask) (deliveryTag : DeliveryTag) (resuming : ResumingDelivery) : Prop :=
  match resuming, t.link.outputHandle with
  | .resend _, _ => True
  | _, none => False
  | .abort messageFormat _, some handle =>
      t.CanStart (resumingTransfer handle deliveryTag messageFormat none none true) []
  | .resume message, some handle =>
      t.CanStart (resumingTransfer handle deliveryTag message.messageFormat (some t.resumeSettled)
        message.state false) message.payload
  | .restateOutcome payload localState messageFormat _, some handle =>
      t.CanStart (resumingTransfer handle deliveryTag messageFormat (some false) (some localState)
        false) payload

/-- A delivery that is sent again is left alone by the peer and reaches its first frame, under a tag
that is free. -/
def CanResend (t : ResumeTask) (message : UnsettledMessage) : Prop :=
  t.cell.incoming = [] ∧ t.incomingClosed = false ∧
    ∀ deliveryTag flowState, t.cell.flowState.consumeLinkCredit 1 = some (deliveryTag, flowState) →
      t.TagFree deliveryTag ∧
        ∃ transfer, t.link.generateNonResumingTransferPerformative deliveryTag message.messageFormat
          none none false = .ok transfer ∧ t.CanStart transfer message.payload

/-- The event drops no delivery whose channel has no result: an Attach that clears the unsettled map
finds it empty, the exchange after an incomplete one finds nothing to send again, and no send fails
while deliveries wait behind it. -/
def Careful (t : ResumeTask) : ResumeEvent → Prop
  | .poll =>
      match t.awaiting with
      | .exchange => t.isReattaching = true → unsettledSenders t.cell.senderUnsettled = []
      | .closing .exchange => unsettledSenders t.cell.senderUnsettled = []
      | .next (.deliveries [] true) => t.resendBuf = []
      | .next (.deliveries ((tag, resuming) :: _) _) =>
          t.TagFree tag ∧ (t.CanBegin tag resuming ∨ t.AllResolved t.held)
      | .transfer _ delivery remaining =>
          t.writerClosed = false ∨ t.AllResolved (t.atRisk delivery ++ remaining.held t.resendBuf)
      | .credit message _ => t.CanResend message
      | _ => True
  | _ => True

section Instances

variable (t : ResumeTask)

instance (senders : List OneshotId) : Decidable (t.AllResolved senders) :=
  inferInstanceAs (Decidable (∀ sender ∈ senders, t.store.Resolved sender))

instance (deliveryTag : DeliveryTag) : Decidable (t.TagFree deliveryTag) :=
  inferInstanceAs (Decidable (∀ m ∈ t.cell.senderUnsettled, m.get deliveryTag = none))

instance (transfer : Transfer) (payload : Payload) : Decidable (t.CanStart transfer payload) :=
  match h : t.link.startTransfer transfer payload with
  | .ok split => isTrue ⟨split, h⟩
  | .error _ => isFalse fun hcan => nomatch h.symm.trans hcan.choose_spec

instance (deliveryTag : DeliveryTag) (resuming : ResumingDelivery) :
    Decidable (t.CanBegin deliveryTag resuming) := by
  dsimp only [CanBegin]
  split <;> infer_instance

instance (message : UnsettledMessage) : Decidable (t.CanResend message) :=
  decidable_of_iff
    (t.cell.incoming = [] ∧ t.incomingClosed = false ∧
      ∀ consumed ∈ t.cell.flowState.consumeLinkCredit 1, t.TagFree consumed.1 ∧
        ∃ transfer ∈ (t.link.generateNonResumingTransferPerformative consumed.1
          message.messageFormat none none false).toOption, t.CanStart transfer message.payload)
    (by simp [CanResend, Except.toOption_eq_some])

instance (e : ResumeEvent) : Decidable (t.Careful e) := by
  dsimp only [Careful]
  repeat' split
  all_goals infer_instance

end Instances

/-! ## One event -/

/-- The delivery is resolved, unsettled, or held. -/
def KeptBy (store : LinkStore) (id : LinkId) (held : List OneshotId) (sender : OneshotId) : Prop :=
  store.Resolved sender ∨ sender ∈ unsettledSenders (store.cell id).senderUnsettled ∨ sender ∈ held

def Kept (t : ResumeTask) (sender : OneshotId) : Prop := KeptBy t.store t.id t.held sender

theorem KeptBy.of_keeps {store store' : LinkStore} {id : LinkId} {held held' : List OneshotId}
    {sender : OneshotId} (h : KeptBy store id held sender) (hkeeps : LinkStore.Keeps id store store')
    (hheld : ∀ sender ∈ held, sender ∈ held' ∨ store'.Resolved sender) :
    KeptBy store' id held' sender := by
  rcases h with hresolved | hmem | hmem
  · exact .inl (hkeeps.resolved sender hresolved)
  · rcases hkeeps.unsettled sender hmem with hmem | hresolved
    · exact .inr (.inl hmem)
    · exact .inl hresolved
  · rcases hheld sender hmem with hmem | hresolved
    · exact .inr (.inr hmem)
    · exact .inl hresolved

theorem keeps_withCell (t : ResumeTask) {f : LinkCell → LinkCell}
    (h : (f t.cell).senderUnsettled = t.cell.senderUnsettled) :
    LinkStore.Keeps t.id t.store (t.withCell f).store :=
  keeps_modify t.store t.id h

section Deliveries

variable {t : ResumeTask} {sender : OneshotId}

/-- A delivery that fails is withdrawn; nothing else leaves the map. -/
theorem kept_abandon (delivery : OnTheWay) (failure : SendFailure) {held : List OneshotId}
    (h : KeptBy t.store t.id (delivery.held ++ held) sender)
    (hresolved : t.AllResolved (t.atRisk delivery ++ held)) :
    ((t.abandon delivery).failSend failure).Kept sender := by
  have hrisk : ∀ sender ∈ t.atRisk delivery, t.store.Resolved sender := fun sender hmem =>
    hresolved sender (List.mem_append_left _ hmem)
  have hrest : ∀ sender ∈ held, t.store.Resolved sender := fun sender hmem =>
    hresolved sender (List.mem_append_right _ hmem)
  cases delivery with
  | aborted sender' =>
      apply h.of_keeps (.refl _ _)
      intro sender hmem
      exact .inr ((List.mem_append.mp hmem).elim (hrisk sender) (hrest sender))
  | settled message =>
      apply h.of_keeps (.refl _ _)
      intro sender hmem
      exact .inr ((List.mem_append.mp hmem).elim (hrisk sender) (hrest sender))
  | registered tag sender' =>
      apply h.of_keeps
      · refine ⟨fun _ hresolved => hresolved, fun sender hmem => ?_⟩
        obtain ⟨m, tag', message, hmap, hget, hsender⟩ := mem_unsettledSenders.mp hmem
        by_cases hsame : tag' = tag
        · right
          apply hrisk
          have hcell : t.cell.senderUnsettled = some m := hmap
          rw [hsame] at hget
          simp [atRisk, hcell, hget, hsender]
        · left
          rw [mem_unsettledSenders]
          refine ⟨m.swapRemove tag, tag', message, ?_, ?_, hsender⟩
          · simp [abandon, failSend, finish, withCell, hmap]
          · rw [IndexMap.get_swapRemove, if_neg hsame]
            exact hget
      · intro sender hmem
        exact .inr (hrest sender hmem)

theorem kept_beginTransfer (transfer : Transfer) (payload : Payload) (delivery : OnTheWay)
    (remaining : Remaining)
    (h : KeptBy t.store t.id (delivery.held ++ remaining.held t.resendBuf) sender)
    (hcan : t.CanStart transfer payload ∨
      t.AllResolved (t.atRisk delivery ++ remaining.held t.resendBuf)) :
    (t.beginTransfer transfer payload delivery remaining).Kept sender := by
  simp only [beginTransfer]
  cases hstart : t.link.startTransfer transfer payload with
  | ok split => exact h
  | error failure =>
      rcases hcan with ⟨split, hcan⟩ | hresolved
      · rw [hstart] at hcan
        cases hcan
      · exact kept_abandon delivery failure h hresolved

theorem kept_sendTransferWithOutcome (transfer : Transfer) (deliveryTag : DeliveryTag)
    (unsettled : UnsettledMessage) (remaining : Remaining)
    (h : KeptBy t.store t.id (unsettled.sender :: remaining.held t.resendBuf) sender)
    (hfree : t.TagFree deliveryTag)
    (hcan : t.CanStart transfer unsettled.payload ∨
      t.AllResolved (unsettled.sender :: remaining.held t.resendBuf)) :
    (t.sendTransferWithOutcome transfer deliveryTag unsettled remaining).Kept sender := by
  simp only [sendTransferWithOutcome]
  split_ifs
  · exact kept_beginTransfer transfer _ (.settled unsettled) remaining h hcan
  · have hget : ((t.cell.senderUnsettled.getD IndexMap.empty).insert deliveryTag unsettled).get
        deliveryTag = some unsettled := by
      rw [IndexMap.get_insert, if_pos rfl]
    apply kept_beginTransfer
    · -- the delivery moves from the local variables to the map
      have hkeeps : LinkStore.Keeps t.id t.store (t.withCell fun cell =>
          { cell with
            senderUnsettled := some ((cell.senderUnsettled.getD IndexMap.empty).insert deliveryTag
              unsettled) }).store := by
        refine ⟨fun _ hresolved => hresolved, fun sender hmem => .inl ?_⟩
        obtain ⟨m, tag', message, hmap, hget', hsender⟩ := mem_unsettledSenders.mp hmem
        have hother : tag' ≠ deliveryTag := by
          intro hsame
          rw [hsame, hfree m hmap] at hget'
          cases hget'
        rw [mem_unsettledSenders]
        refine ⟨m.insert deliveryTag unsettled, tag', message, ?_, ?_, hsender⟩
        · simp [withCell, hmap]
        · rw [IndexMap.get_insert, if_neg hother]
          exact hget'
      rcases h with hresolved | hmem | hmem
      · exact .inl (hkeeps.resolved sender hresolved)
      · exact (hkeeps.unsettled sender hmem).elim (.inr ∘ .inl) .inl
      · rcases List.mem_cons.mp hmem with rfl | hmem
        · right
          left
          rw [mem_unsettledSenders]
          exact ⟨_, deliveryTag, unsettled, by simp [withCell]; rfl, hget, rfl⟩
        · exact .inr (.inr hmem)
    · rcases hcan with hcan | hresolved
      · exact .inl hcan
      · right
        intro sender' hmem
        apply hresolved
        rcases List.mem_append.mp hmem with hmem | hmem
        · simp only [atRisk, cell, withCell, LinkStore.modify_cell_self, Option.bind_some] at hmem
          have hget' := hget
          simp only [cell] at hget'
          rw [hget'] at hmem
          simp only [Option.map_some, Option.toList_some, List.mem_singleton] at hmem
          rw [hmem]
          exact List.mem_cons_self
        · exact List.mem_cons_of_mem _ hmem

theorem kept_handleResumingDelivery (deliveryTag : DeliveryTag) (resuming : ResumingDelivery)
    (rest : List (DeliveryTag × ResumingDelivery)) (incomplete : Bool)
    (hawaiting : t.awaiting = .next (.deliveries ((deliveryTag, resuming) :: rest) incomplete))
    (h : t.Kept sender) (hfree : t.TagFree deliveryTag)
    (hcan : t.CanBegin deliveryTag resuming ∨ t.AllResolved t.held) :
    (t.handleResumingDelivery deliveryTag resuming (.deliveries rest incomplete)).Kept sender := by
  simp only [Kept, held, hawaiting, Remaining.held] at h
  simp only [held, hawaiting, Remaining.held] at hcan
  have hlost : ∀ failure : SendFailure,
      t.AllResolved (((deliveryTag, resuming) :: rest).filterMap (fun entry => entry.2.sender) ++
        t.resendBuf.map (·.sender)) → (t.failSend failure).Kept sender := by
    intro failure hresolved
    exact h.of_keeps (.refl _ _) fun sender hmem => .inr (hresolved sender hmem)
  cases resuming with
  | resend message =>
      simp only [handleResumingDelivery]
      apply h.of_keeps (.refl _ _)
      intro sender hmem
      left
      simp only [List.filterMap_cons, ResumingDelivery.sender, List.cons_append, List.mem_cons,
        List.mem_append] at hmem
      simp only [held, Remaining.held, List.map_append, List.map_singleton, List.mem_append,
        List.mem_singleton]
      rcases hmem with hmem | hmem | hmem
      · exact .inr (.inr hmem)
      · exact .inl hmem
      · exact .inr (.inl hmem)
  | abort messageFormat sender' =>
      have hsenders : ((deliveryTag, ResumingDelivery.abort messageFormat sender') :: rest).filterMap
          (fun entry => entry.2.sender) = sender'.toList ++ rest.filterMap fun entry => entry.2.sender := by
        cases sender' <;> rfl
      rw [hsenders, List.append_assoc] at h hcan
      simp only [handleResumingDelivery]
      cases hhandle : t.link.outputHandle with
      | none =>
          rw [hsenders, List.append_assoc] at hlost
          exact hlost _ (hcan.resolve_left (by simp [CanBegin, hhandle]))
      | some handle =>
          exact kept_beginTransfer _ _ (.aborted sender') _ h
            (hcan.imp_left (by simp [CanBegin, hhandle]))
  | resume message =>
      simp only [handleResumingDelivery]
      cases hhandle : t.link.outputHandle with
      | none => exact hlost _ (hcan.resolve_left (by simp [CanBegin, hhandle]))
      | some handle =>
          exact kept_sendTransferWithOutcome _ _ message _ h hfree
            (hcan.imp_left (by simp [CanBegin, hhandle]))
  | restateOutcome payload localState messageFormat sender' =>
      simp only [handleResumingDelivery]
      cases hhandle : t.link.outputHandle with
      | none => exact hlost _ (hcan.resolve_left (by simp [CanBegin, hhandle]))
      | some handle =>
          exact kept_sendTransferWithOutcome _ _ ⟨payload, none, messageFormat, sender'⟩ _ h hfree
            (hcan.imp_left (by simp [CanBegin, hhandle]))

theorem kept_detach (h : KeptBy t.store t.id [] sender) : t.detach.Kept sender := by
  simp only [detach]
  split
  · exact h
  · exact h

theorem kept_pollNext {remaining : Remaining} (hawaiting : t.awaiting = .next remaining)
    (h : t.Kept sender) (hcareful : t.Careful .poll) : (t.pollNext remaining).Kept sender := by
  cases remaining with
  | deliveries rest incomplete =>
      cases rest with
      | nil =>
          simp only [Kept, held, hawaiting, Remaining.held, List.filterMap_nil, List.nil_append] at h
          cases incomplete with
          | false => exact h
          | true =>
              simp only [Careful, hawaiting] at hcareful
              rw [hcareful] at h
              exact h
      | cons entry rest =>
          obtain ⟨tag, resuming⟩ := entry
          simp only [Careful, hawaiting] at hcareful
          exact kept_handleResumingDelivery tag resuming rest incomplete hawaiting h hcareful.1
            hcareful.2
  | resends rest =>
      simp only [Kept, held, hawaiting, Remaining.held] at h
      cases rest with
      | nil => exact kept_detach h
      | cons message rest => exact h

theorem kept_pollTransfer {split : TransferSplit} {delivery : OnTheWay} {remaining : Remaining}
    (hawaiting : t.awaiting = .transfer split delivery remaining) (h : t.Kept sender)
    (hcareful : t.Careful .poll) : (t.pollTransfer split delivery remaining).1.Kept sender := by
  simp only [Careful, hawaiting] at hcareful
  simp only [Kept, held, hawaiting] at h
  simp only [pollTransfer]
  split_ifs with hclosed
  · exact kept_abandon delivery _ h (hcareful.resolve_left (by simp [hclosed]))
  · split
    · exact h
    · -- the channel of a delivery that is not registered is given its result
      cases delivery with
      | aborted sender' =>
          cases sender' with
          | none => exact h
          | some sender' =>
              apply h.of_keeps (keeps_resolve _ _ _ _)
              intro sender hmem
              rcases List.mem_append.mp hmem with hmem | hmem
              · rw [OnTheWay.held, Option.toList_some, List.mem_singleton] at hmem
                rw [hmem]
                exact .inr (resolved_resolve _ _ _)
              · exact .inl hmem
      | settled message =>
          apply h.of_keeps (keeps_resolve _ _ _ _)
          intro sender hmem
          rcases List.mem_append.mp hmem with hmem | hmem
          · rw [OnTheWay.held, List.mem_singleton] at hmem
            rw [hmem]
            exact .inr (resolved_resolve _ _ _)
          · exact .inl hmem
      | registered tag sender' => exact h

theorem kept_pollCredit {message : UnsettledMessage} {rest : List UnsettledMessage}
    (hawaiting : t.awaiting = .credit message rest) (h : t.Kept sender)
    (hcareful : t.Careful .poll) : (t.pollCredit message rest).Kept sender := by
  have hstays := h
  simp only [Careful, hawaiting, CanResend] at hcareful
  obtain ⟨hincoming, hopen, hcan⟩ := hcareful
  simp only [Kept, held, hawaiting] at h
  simp only [pollCredit, hincoming, hopen, Bool.false_eq_true, if_false]
  split
  · exact hstays
  · next deliveryTag flowState hconsume =>
      obtain ⟨hfree, transfer, hgenerate, hstart⟩ := hcan deliveryTag flowState hconsume
      have hgenerate' : (t.withCell fun cell => { cell with flowState }).link.generateNonResumingTransferPerformative
          deliveryTag message.messageFormat none none false = .ok transfer := hgenerate
      rw [hgenerate']
      dsimp only
      have hsame : (t.withCell fun cell => { cell with flowState }).cell.senderUnsettled =
          t.cell.senderUnsettled := by
        simp [cell, withCell]
      apply kept_sendTransferWithOutcome
      · refine h.of_keeps ?_ fun sender hmem => .inl hmem
        apply keeps_withCell
        rfl
      · intro m hm
        exact hfree m (hsame.symm.trans hm)
      · exact .inl hstart

end Deliveries

/-! ## Attaches and detaches

The procedure holds nothing here: what is kept is in the store. -/

section Attaches

variable {t : ResumeTask} {sender : OneshotId}

theorem KeptBy.keeps {store store' : LinkStore} {id : LinkId} (h : KeptBy store id [] sender)
    (hkeeps : LinkStore.Keeps id store store') (held' : List OneshotId) :
    KeptBy store' id held' sender :=
  h.of_keeps hkeeps fun _ hmem => absurd hmem List.not_mem_nil

theorem kept_reallocate (h : KeptBy t.store t.id [] sender) (awaiting : ResumeAwait) :
    (t.reallocate awaiting).Kept sender := by
  have hkeeps : LinkStore.Keeps t.id t.store (t.withCell fun cell =>
      { cell with incoming := [], endpointDropped := false }).store := by
    apply keeps_withCell
    rfl
  exact h.keeps hkeeps _

theorem prepareAttach_keeps (maxFrameSize : Nat) (isReattaching : Bool)
    (hempty : isReattaching = true → unsettledSenders t.cell.senderUnsettled = []) :
    LinkStore.Keeps t.id t.store
      (t.withCell fun _ => (t.link.prepareAttach t.cell maxFrameSize isReattaching).2).store := by
  have hcell : (t.link.prepareAttach t.cell maxFrameSize isReattaching).2 = t.cell ∨
      (t.link.prepareAttach t.cell maxFrameSize isReattaching).2 =
        LinkEndpoint.clearUnsettled t.cell isReattaching := by
    simp only [LinkEndpoint.prepareAttach]
    cases t.link.outputHandle with
    | none => exact .inl rfl
    | some handle =>
        right
        dsimp only
        split
        · rfl
        · split <;> rfl
  have hsame : (t.link.prepareAttach t.cell maxFrameSize isReattaching).2 = t.cell →
      LinkStore.Keeps t.id t.store
        (t.withCell fun _ => (t.link.prepareAttach t.cell maxFrameSize isReattaching).2).store := by
    intro hsame
    apply keeps_withCell
    rw [hsame]
  rcases hcell with hcell | hcell
  · exact hsame hcell
  · cases isReattaching with
    | false => exact hsame hcell
    | true =>
        refine ⟨fun _ hresolved => hresolved, fun sender hmem => ?_⟩
        have hnone := hempty rfl
        rw [cell] at hnone
        rw [hnone] at hmem
        cases hmem

theorem kept_pollExchange (hawaiting : t.awaiting = .exchange) (h : t.Kept sender)
    (hcareful : t.Careful .poll) : t.pollExchange.Kept sender := by
  simp only [Kept, held, hawaiting] at h
  simp only [Careful, hawaiting] at hcareful
  have hkeeps := prepareAttach_keeps t.link.maxFrameSize t.isReattaching hcareful
  simp only [pollExchange]
  split
  · next hprepare =>
      rw [hprepare] at hkeeps
      exact h.keeps hkeeps _
  · next hprepare =>
      rw [hprepare] at hkeeps
      exact h.keeps hkeeps _

theorem acceptAttach_keeps (remoteAttach : Attach) :
    LinkStore.Keeps t.id t.store
      (t.withCell fun _ => (t.link.acceptAttach t.cell remoteAttach).2.2).store := by
  apply keeps_withCell
  exact (t.link.acceptAttach_frame t.cell remoteAttach).senderUnsettled

/-- The map is taken, and what is not resolved is held. -/
theorem kept_onIncomingAttach (h : KeptBy t.store t.id [] sender) (remoteAttach : Attach) :
    (t.onIncomingAttach remoteAttach).1.Kept sender := by
  have hkeeps := acceptAttach_keeps (t := t) remoteAttach
  simp only [onIncomingAttach]
  cases haccept : t.link.acceptAttach t.cell remoteAttach with
  | mk result rest =>
      obtain ⟨endpoint, cell⟩ := rest
      rw [haccept] at hkeeps
      cases result with
      | error e => exact h.keeps hkeeps _
      | ok _ =>
          have h' := h.keeps hkeeps []
          dsimp only
          obtain ⟨hmono, hall⟩ := handleUnsettledInAttach_keeps (t.withCell fun _ => cell).store t.id
            remoteAttach.unsettled
          have hstore : ((t.withCell fun _ => cell).withEndpoint endpoint).store =
              (t.withCell fun _ => cell).store := rfl
          have hid : ((t.withCell fun _ => cell).withEndpoint endpoint).id = t.id := rfl
          rw [hstore, hid]
          generalize (t.withCell fun _ => cell).store.handleUnsettledInAttach t.id
            remoteAttach.unsettled = handled at hmono hall ⊢
          obtain ⟨deliveries, store'⟩ := handled
          dsimp only at hmono hall
          have hheld : ∀ buf, KeptBy store' t.id
              ((deliveries.getD []).filterMap (fun entry => entry.2.sender) ++ buf) sender := by
            intro buf
            rcases h' with hresolved | hmem | hmem
            · exact .inl (hmono sender hresolved)
            · rcases hall sender hmem with hresolved | hmem
              · exact .inl hresolved
              · exact .inr (.inr (List.mem_append_left _ hmem))
            · cases hmem
          dsimp only
          cases deliveries with
          | none =>
              have hdone : KeptBy store' t.id [] sender := by simpa using hheld []
              exact hdone
          | some deliveries =>
              cases hkind : SenderAttachExchange.ofDeliveries endpoint.localState (some deliveries) with
              | complete =>
                  simp only [SenderAttachExchange.ofDeliveries] at hkind
                  split at hkind <;> cases hkind
              | incompleteUnsettled deliveries' =>
                  simp only [SenderAttachExchange.ofDeliveries] at hkind
                  split at hkind <;> cases hkind <;> exact hheld _
              | resume deliveries' =>
                  simp only [SenderAttachExchange.ofDeliveries] at hkind
                  split at hkind <;> cases hkind
                  exact hheld _

theorem kept_pollAttachSend (attach : Attach) (h : KeptBy t.store t.id [] sender) :
    (t.pollAttachSend attach).1.Kept sender := by
  simp only [pollAttachSend]
  split_ifs
  · exact h
  · split
    · exact h
    · dsimp only
      apply kept_onIncomingAttach
      exact h

theorem recv_keeps {frame : Option LinkFrame} {t' : ResumeTask} (h : t.recv = some (frame, t')) :
    t'.id = t.id ∧ LinkStore.Keeps t.id t.store t'.store := by
  simp only [recv] at h
  split at h
  · cases h
    refine ⟨rfl, ?_⟩
    apply keeps_withCell
    rfl
  · split_ifs at h
    cases h
    exact ⟨rfl, .refl _ _⟩

theorem kept_recv {frame : Option LinkFrame} {t' : ResumeTask} (hrecv : t.recv = some (frame, t'))
    (h : KeptBy t.store t.id [] sender) : KeptBy t'.store t'.id [] sender := by
  obtain ⟨hid, hkeeps⟩ := recv_keeps hrecv
  rw [hid]
  exact h.keeps hkeeps []

theorem kept_pollRemoteAttach (h : KeptBy t.store t.id [] sender) (hawaiting : t.held = []) :
    t.pollRemoteAttach.1.Kept sender := by
  simp only [pollRemoteAttach]
  split
  · rw [Kept, hawaiting]
    exact h
  · next hrecv =>
      have hnext := kept_recv hrecv h
      exact hnext
  · next hrecv => exact kept_onIncomingAttach (kept_recv hrecv h) _
  · next hrecv =>
      have hnext := kept_recv hrecv h
      exact hnext

theorem kept_pollDetachReply (h : KeptBy t.store t.id [] sender) (hheld : t.held = []) :
    t.pollDetachReply.Kept sender := by
  simp only [pollDetachReply]
  split
  · rw [Kept, hheld]
    exact h
  · next hrecv =>
      have hnext := kept_recv hrecv h
      exact hnext
  · next hrecv =>
      have hnext := kept_recv hrecv h
      split_ifs
      · exact kept_reallocate hnext _
      · split
        · apply kept_reallocate
          exact hnext
        · exact hnext
  · next hrecv =>
      have hnext := kept_recv hrecv h
      exact hnext.keeps (.refl _ _) _

/-- A link that is reattached has no unsettled map any more. -/
def Cleared (t : ResumeTask) : Prop :=
  match t.awaiting with
  | .closing .allocation | .closing .exchange => True
  | .closing _ => t.cell.senderUnsettled = none
  | _ => True

/-- Kept, and cleared where the link is reattached. -/
def Sound (t : ResumeTask) (sender : OneshotId) : Prop := t.Kept sender ∧ t.Cleared

theorem sound_finish (h : KeptBy t.store t.id [] sender) (result : Except ResumeFailure Unit) :
    (t.finish result).Sound sender :=
  ⟨h, trivial⟩

theorem sound_failReattach (h : KeptBy t.store t.id [] sender) : t.failReattach.Sound sender :=
  sound_finish h _

theorem sound_closing (h : KeptBy t.store t.id [] sender) (hcleared : t.cell.senderUnsettled = none)
    (awaiting : ClosingAwait) : { t with awaiting := .closing awaiting }.Sound sender := by
  refine ⟨h, ?_⟩
  cases awaiting with
  | allocation => exact trivial
  | exchange => exact trivial
  | attachSend attach => exact hcleared
  | remoteAttach => exact hcleared
  | refusalSend detach => exact hcleared
  | refusalReply => exact hcleared
  | detachSend detach => exact hcleared
  | detachReply => exact hcleared

theorem sound_refuse (h : KeptBy t.store t.id [] sender) (hcleared : t.cell.senderUnsettled = none)
    (error : AttachError) : (t.refuse error).Sound sender := by
  simp only [refuse]
  split
  · exact sound_failReattach h
  · split
    · apply sound_closing
      · exact h
      · exact hcleared
    · split_ifs
      · apply sound_closing
        · exact h
        · exact hcleared
      · apply sound_failReattach
        exact h

theorem handleUnsettledInAttach_of_none {store : LinkStore} {id : LinkId}
    (h : (store.cell id).senderUnsettled = none)
    (remoteUnsettled : Option (OrderedMap DeliveryTag (Option DeliveryState))) :
    (store.handleUnsettledInAttach id remoteUnsettled).2 = store.takeSenderUnsettled id := by
  simp only [handleUnsettledInAttach, h]
  cases remoteUnsettled with
  | none => rfl
  | some remoteMap =>
      dsimp only
      split_ifs <;> rfl

theorem sound_closingOnIncomingAttach (h : KeptBy t.store t.id [] sender)
    (hcleared : t.cell.senderUnsettled = none) (remoteAttach : Attach) :
    (t.closingOnIncomingAttach remoteAttach).Sound sender := by
  have hkeeps := acceptAttach_keeps (t := t) remoteAttach
  have hframe := (t.link.acceptAttach_frame t.cell remoteAttach).senderUnsettled
  simp only [closingOnIncomingAttach]
  cases haccept : t.link.acceptAttach t.cell remoteAttach with
  | mk result rest =>
      obtain ⟨endpoint, cell⟩ := rest
      rw [haccept] at hkeeps hframe
      have hnone : ((t.withCell fun _ => cell).store.cell t.id).senderUnsettled = none := by
        simp only [withCell, modify_cell_self]
        exact hframe.trans hcleared
      have h' := h.keeps hkeeps []
      cases result with
      | error e =>
          apply sound_refuse
          · exact h'
          · exact hnone
      | ok _ =>
          dsimp only
          have hstore : ((t.withCell fun _ => cell).withEndpoint endpoint).store =
              (t.withCell fun _ => cell).store := rfl
          have hid : ((t.withCell fun _ => cell).withEndpoint endpoint).id = t.id := rfl
          rw [hstore, hid, handleUnsettledInAttach_of_none hnone]
          have htaken : KeptBy ((t.withCell fun _ => cell).store.takeSenderUnsettled t.id) t.id []
              sender := by
            refine h'.keeps ?_ []
            apply keeps_modify
            exact hnone.symm
          split_ifs
          · exact sound_finish htaken _
          · split
            · exact sound_finish htaken _
            · apply sound_closing
              · exact htaken
              · simp [ResumeTask.cell, withEndpoint, takeSenderUnsettled]

theorem recv_senderUnsettled {frame : Option LinkFrame} {t' : ResumeTask}
    (h : t.recv = some (frame, t')) : t'.cell.senderUnsettled = t.cell.senderUnsettled := by
  simp only [recv] at h
  split at h
  · cases h
    simp [cell, withCell]
  · split_ifs at h
    cases h
    rfl

theorem sound_pollClosing {awaiting : ClosingAwait} (hawaiting : t.awaiting = .closing awaiting)
    (h : t.Sound sender) (hcareful : t.Careful .poll) : (t.pollClosing awaiting).1.Sound sender := by
  have hstays := h
  obtain ⟨h, hcleared⟩ := h
  simp only [Kept, held, hawaiting] at h
  simp only [Cleared, hawaiting] at hcleared
  cases awaiting with
  | allocation => exact hstays
  | exchange =>
      simp only [Careful, hawaiting] at hcareful
      have hkeeps := prepareAttach_keeps t.link.maxFrameSize true fun _ => hcareful
      simp only [pollClosing]
      split
      · next hprepare =>
          rw [hprepare] at hkeeps
          exact sound_finish (h.keeps hkeeps []) _
      · next hprepare =>
          rw [hprepare] at hkeeps
          apply sound_closing
          · exact h.keeps hkeeps []
          · simp [cell, withCell, (LinkEndpoint.prepareAttach_ok hprepare).2.1,
              LinkEndpoint.clearUnsettled]
  | attachSend attach =>
      simp only [pollClosing]
      split_ifs
      · exact sound_finish h _
      · apply sound_closing
        · exact h
        · exact hcleared
  | remoteAttach =>
      simp only [pollClosing]
      split
      · exact hstays
      · next hrecv =>
          exact sound_closingOnIncomingAttach (kept_recv hrecv h)
            ((recv_senderUnsettled hrecv).trans hcleared) _
      · next hrecv => exact sound_finish (kept_recv hrecv h) _
  | refusalSend detach =>
      simp only [pollClosing]
      split_ifs
      · exact sound_closing h hcleared _
      · exact sound_finish h _
      · exact sound_closing h hcleared _
  | refusalReply =>
      simp only [pollClosing]
      split
      · exact hstays
      · next hrecv =>
          have hnext := kept_recv hrecv h
          apply sound_failReattach
          exact hnext
      · next hrecv => exact sound_failReattach (kept_recv hrecv h)
  | detachSend detach =>
      simp only [pollClosing]
      split_ifs
      · exact sound_finish h _
      · exact sound_closing h hcleared _
  | detachReply =>
      simp only [pollClosing]
      split
      · exact hstays
      · next hrecv => exact sound_finish (kept_recv hrecv h) _
      · next hrecv =>
          have hnext := kept_recv hrecv h
          split
          · apply sound_finish
            exact hnext
          · apply sound_finish
            exact hnext
      · next hrecv =>
          refine ⟨(kept_recv hrecv h).keeps (.refl _ _) _, ?_⟩
          simp only [Cleared, (recv_some hrecv).2.2, hawaiting]
          exact (recv_senderUnsettled hrecv).trans hcleared

end Attaches

/-! ## Runs -/

/-- In the middle of `reattach_then_close`, after its allocation. -/
def isReattached (t : ResumeTask) : Bool :=
  match t.awaiting with
  | .closing .allocation | .closing .exchange => false
  | .closing _ => true
  | _ => false

theorem sound_of_kept {t : ResumeTask} {sender : OneshotId} (h : t.Kept sender)
    (hopen : t.isReattached = false) : t.Sound sender := by
  refine ⟨h, ?_⟩
  cases hawaiting : t.awaiting with
  | closing awaiting =>
      cases awaiting <;> simp_all [isReattached, Cleared]
  | _ => simp only [Cleared, hawaiting]

section NotReattached

variable (t : ResumeTask)

theorem beginTransfer_isReattached (transfer : Transfer) (payload : Payload) (delivery : OnTheWay)
    (remaining : Remaining) :
    (t.beginTransfer transfer payload delivery remaining).isReattached = false := by
  simp only [beginTransfer]
  split <;> rfl

theorem sendTransferWithOutcome_isReattached (transfer : Transfer) (deliveryTag : DeliveryTag)
    (unsettled : UnsettledMessage) (remaining : Remaining) :
    (t.sendTransferWithOutcome transfer deliveryTag unsettled remaining).isReattached = false := by
  simp only [sendTransferWithOutcome]
  split_ifs
  · exact beginTransfer_isReattached _ _ _ _ _
  · exact beginTransfer_isReattached _ _ _ _ _

theorem pollNext_isReattached (remaining : Remaining) :
    (t.pollNext remaining).isReattached = false := by
  cases remaining with
  | deliveries rest incomplete =>
      cases rest with
      | nil => cases incomplete <;> rfl
      | cons entry rest =>
          simp only [pollNext, handleResumingDelivery]
          split
          · rfl
          · rfl
          · exact beginTransfer_isReattached _ _ _ _ _
          · exact sendTransferWithOutcome_isReattached _ _ _ _ _
          · exact sendTransferWithOutcome_isReattached _ _ _ _ _
  | resends rest =>
      cases rest with
      | nil =>
          simp only [pollNext, detach]
          split <;> rfl
      | cons message rest => rfl

theorem pollTransfer_isReattached (split : TransferSplit) (delivery : OnTheWay)
    (remaining : Remaining) :
    (t.pollTransfer split delivery remaining).1.isReattached = false := by
  simp only [pollTransfer]
  split_ifs
  · rfl
  · split <;> rfl

theorem pollCredit_isReattached (message : UnsettledMessage) (rest : List UnsettledMessage)
    (h : t.isReattached = false) : (t.pollCredit message rest).isReattached = false := by
  simp only [pollCredit]
  split
  · rfl
  · rfl
  · split_ifs
    · rfl
    · split
      · exact h
      · split
        · rfl
        · exact sendTransferWithOutcome_isReattached _ _ _ _ _

theorem pollExchange_isReattached : t.pollExchange.isReattached = false := by
  simp only [pollExchange]
  split <;> rfl

theorem onIncomingAttach_isReattached (remoteAttach : Attach) :
    (t.onIncomingAttach remoteAttach).1.isReattached = false := by
  simp only [onIncomingAttach]
  split
  · rfl
  · split <;> rfl

theorem pollAttachSend_isReattached (attach : Attach) :
    (t.pollAttachSend attach).1.isReattached = false := by
  simp only [pollAttachSend]
  split_ifs
  · rfl
  · split
    · rfl
    · exact onIncomingAttach_isReattached _ _

theorem pollRemoteAttach_isReattached (h : t.isReattached = false) :
    t.pollRemoteAttach.1.isReattached = false := by
  simp only [pollRemoteAttach]
  split
  · exact h
  · rfl
  · exact onIncomingAttach_isReattached _ _
  · rfl

theorem pollDetachReply_isReattached (h : t.isReattached = false) :
    t.pollDetachReply.isReattached = false := by
  simp only [pollDetachReply]
  split
  · exact h
  · rfl
  · split_ifs
    · rfl
    · split <;> rfl
  · next hrecv =>
      simp only [isReattached, (recv_some hrecv).2.2]
      exact h

end NotReattached

theorem sound_poll {t : ResumeTask} {sender : OneshotId} (h : t.Sound sender)
    (hcareful : t.Careful .poll) : t.poll.1.Sound sender := by
  have hkept := h.1
  simp only [poll]
  cases hawaiting : t.awaiting with
  | allocation => exact h
  | exchange =>
      exact sound_of_kept (kept_pollExchange hawaiting hkept hcareful) t.pollExchange_isReattached
  | attachSend attach =>
      simp only [Kept, held, hawaiting] at hkept
      exact sound_of_kept (kept_pollAttachSend attach hkept) (t.pollAttachSend_isReattached attach)
  | remoteAttach =>
      simp only [Kept, held, hawaiting] at hkept
      exact sound_of_kept (kept_pollRemoteAttach hkept (by simp [held, hawaiting]))
        (t.pollRemoteAttach_isReattached (by simp [isReattached, hawaiting]))
  | next remaining =>
      exact sound_of_kept (kept_pollNext hawaiting hkept hcareful) (t.pollNext_isReattached remaining)
  | transfer split delivery remaining =>
      exact sound_of_kept (kept_pollTransfer hawaiting hkept hcareful)
        (t.pollTransfer_isReattached split delivery remaining)
  | credit message rest =>
      exact sound_of_kept (kept_pollCredit hawaiting hkept hcareful)
        (t.pollCredit_isReattached message rest (by simp [isReattached, hawaiting]))
  | detachSend detach =>
      simp only [Kept, held, hawaiting] at hkept
      dsimp only
      split_ifs
      · exact sound_finish hkept _
      · exact ⟨hkept, trivial⟩
  | detachReply =>
      simp only [Kept, held, hawaiting] at hkept
      exact sound_of_kept (kept_pollDetachReply hkept (by simp [held, hawaiting]))
        (t.pollDetachReply_isReattached (by simp [isReattached, hawaiting]))
  | closing awaiting => exact sound_pollClosing hawaiting h hcareful
  | returned result => exact h

theorem sound_allocated {t : ResumeTask} {sender : OneshotId} (h : t.Sound sender)
    (result : Except AllocLinkError OutputHandle) : (t.allocated result).Sound sender := by
  have hkept := h.1
  simp only [allocated]
  split
  · next hawaiting =>
      simp only [Kept, held, hawaiting] at hkept
      exact ⟨hkept, trivial⟩
  · next hawaiting =>
      simp only [Kept, held, hawaiting] at hkept
      exact sound_finish hkept _
  · next hawaiting =>
      simp only [Kept, held, hawaiting] at hkept
      exact ⟨hkept, trivial⟩
  · next hawaiting =>
      simp only [Kept, held, hawaiting] at hkept
      exact sound_failReattach hkept
  · exact h

/-- A relay puts nothing into a map that is null. -/
theorem apply_senderUnsettled_none {store : LinkStore} {id : LinkId}
    (h : (store.cell id).senderUnsettled = none) (outputHandle : OutputHandle)
    (receiverSettleMode : ReceiverSettleMode) (action : RelayAction) :
    ((action.apply (.sender id outputHandle receiverSettleMode) store).cell id).senderUnsettled =
      none := by
  have hsend : ∀ frame, (((store.send id frame).getD store).cell id).senderUnsettled = none := by
    intro frame
    simp only [LinkStore.send]
    split_ifs
    · exact h
    · simpa using h
  cases action with
  | attach frame => exact hsend _
  | flow frame =>
      simp only [RelayAction.apply, LinkRelay.onIncomingFlow]
      cases LinkRelay.acquisitionTxnId frame with
      | none => simpa using h
      | some txnId =>
          have hsent := hsend (.acquisition txnId)
          dsimp only
          split
          · exact h
          · next store' hstore' =>
              rw [hstore'] at hsent
              simpa using hsent
  | disposition settled state deliveryTag =>
      simp only [RelayAction.apply, LinkRelay.onIncomingDisposition, LinkStore.settle, h]
      split_ifs
      · exact h
      · exact h
      · simp [h]
  | detach frame remoteInitiated =>
      have hforwarded := hsend (.detach frame)
      rcases onIncomingDetach_store id outputHandle receiverSettleMode store frame remoteInitiated with
        hstore | hstore
      · rw [RelayAction.apply, hstore]
        exact hforwarded
      · rw [RelayAction.apply, hstore, LinkStore.failPendingUnsettled, hforwarded]
        exact hforwarded

/-- One careful event loses no delivery. -/
theorem sound_step {t : ResumeTask} {sender : OneshotId} (h : t.Sound sender) {e : ResumeEvent}
    (hcareful : t.Careful e) : (t.step e).1.Sound sender := by
  cases e with
  | poll => exact sound_poll h hcareful
  | allocated result => exact sound_allocated h result
  | relay outputHandle receiverSettleMode action =>
      refine ⟨h.1.of_keeps (action.keeps_apply t.id outputHandle receiverSettleMode t.store)
        fun _ hmem => .inl hmem, ?_⟩
      have hcleared := h.2
      simp only [Cleared] at hcleared ⊢
      dsimp only [step]
      split
      · exact trivial
      · exact trivial
      · next hawaiting =>
          simp only [hawaiting] at hcleared
          exact apply_senderUnsettled_none hcleared outputHandle receiverSettleMode action
      · exact trivial
  | closeWriter => exact h
  | closeIncoming => exact h

/-- In every careful run of a resume, each delivery that was unsettled before is still in the
unsettled map when the procedure returns, or its oneshot channel was given a result. -/
theorem unsettled_not_forgotten (link : SenderLink) (id : LinkId) (store : LinkStore)
    (isReattaching : Bool) (remoteAttach : Option Attach) (writerClosed : Bool)
    (events : List ResumeEvent)
    (hcareful : Run.Along step Careful
      (start link id store isReattaching remoteAttach writerClosed) events) :
    let out := (Run.run step (start link id store isReattaching remoteAttach writerClosed) events).1
    out.hasReturned →
      ∀ sender ∈ unsettledSenders (store.cell id).senderUnsettled,
        sender ∈ unsettledSenders out.cell.senderUnsettled ∨ out.store.Resolved sender := by
  intro out hreturned sender hmem
  have hstart : (start link id store isReattaching remoteAttach writerClosed).Sound sender := by
    refine ⟨?_, trivial⟩
    apply kept_reallocate
    exact .inr (.inl hmem)
  have hend : out.Sound sender :=
    Run.invariant_of_along (I := fun t => t.Sound sender)
      (fun _ _ hsound hcareful => sound_step hsound hcareful) hstart hcareful
  have hkept := hend.1
  simp only [hasReturned] at hreturned
  split at hreturned
  case h_2 => cases hreturned
  next result hresult =>
  simp only [Kept, held, hresult] at hkept
  rcases hkept with hresolved | hmem | hmem
  · exact .inr hresolved
  · exact .inl hmem
  · cases hmem

section Witnesses

private def givingSender : SenderLink where
  name := "link"
  role := .sender
  localState := .detached
  outputHandle := none
  inputHandle := none
  sndSettleMode := .mixed
  rcvSettleMode := .first
  source := none
  targetKind := .target
  target := none
  maxMessageSize := 0
  offeredCapabilities := none
  desiredCapabilities := none
  verifyIncomingSource := false
  verifyIncomingTarget := false
  maxFrameSize := 512
  sessionStopReason := none

private def oneAwaited : LinkStore where
  cell _ :=
    { flowState := ⟨0, 7, 10, 0, false, none⟩
      senderUnsettled := some (IndexMap.empty.insert [1] ⟨[0], none, 0, 0⟩)
      receiverUnsettled := none
      incoming := []
      endpointDropped := false }
  outcomes _ := none

private def remoteHas (unsettled : Option (OrderedMap DeliveryTag (Option DeliveryState))) :
    List ResumeEvent :=
  [.allocated (.ok ⟨0⟩), .poll, .poll, .relay ⟨0⟩ .first <| .attach
    { name := "link"
      handle := 0
      role := .receiver
      sndSettleMode := .mixed
      rcvSettleMode := .first
      source := none
      target := some (.target ⟨none, .none, .sessionEnd, 0, false, none, none⟩)
      unsettled
      incompleteUnsettled := false
      initialDeliveryCount := none
      maxMessageSize := none
      offeredCapabilities := none
      desiredCapabilities := none
      properties := none }, .poll]

/-- The delivery is resumed, and the session ends while the reply to the detach is awaited. -/
private def resumedThenCut : List ResumeEvent :=
  remoteHas (some [([1], none)]) ++ [.poll, .poll, .poll, .poll, .poll, .closeIncoming, .poll]

theorem resumed_not_forgotten :
    let out := (Run.run step (start givingSender 0 oneAwaited false none false) resumedThenCut).1
    out.hasReturned ∧ ∀ sender ∈ unsettledSenders (oneAwaited.cell 0).senderUnsettled,
      sender ∈ unsettledSenders out.cell.senderUnsettled ∨ out.store.Resolved sender := by
  have hreturned : (Run.run step (start givingSender 0 oneAwaited false none false)
      resumedThenCut).1.hasReturned := by
    decide +kernel
  refine ⟨hreturned, unsettled_not_forgotten _ _ _ _ _ _ _ ?_ hreturned⟩
  decide +kernel

/-- The session ends before the one delivery is handed over: it is in neither the map nor resolved. -/
theorem session_end_forgets :
    let events := remoteHas (some [([1], none)]) ++ [.poll, .closeWriter, .poll]
    let out := (Run.run step (start givingSender 0 oneAwaited false none false) events).1
    out.hasReturned ∧ 0 ∈ unsettledSenders (oneAwaited.cell 0).senderUnsettled ∧
      0 ∉ unsettledSenders out.cell.senderUnsettled ∧ ¬ out.store.Resolved 0 := by
  refine ⟨?_, ?_, ?_, ?_⟩
  · decide +kernel
  · decide +kernel
  · decide +kernel
  · decide +kernel

end Witnesses

end ResumeTask

end Fe2o3Amqp
