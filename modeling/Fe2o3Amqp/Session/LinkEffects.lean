import Fe2o3Amqp.Session.WindowEffects

/-!
# What a dispatch does to the unsettled deliveries

A disposition reaches a delivery in three steps: the delivery-id names an input handle and a tag,
the handle names a relay, and the relay of a sender link finds the tag in its unsettled map.  This
file says for every operation of the session which of the three steps it can change.
-/

namespace Fe2o3Amqp

namespace LinkStore

/-- The unsettled message of a sender link under a tag. -/
def unsettled (store : LinkStore) (link : LinkId) (tag : DeliveryTag) : Option UnsettledMessage :=
  (store.cell link).senderUnsettled.bind (·.get tag)

/-- Every unsettled message of the second store was one of the first, up to its state. -/
def ShrinksTo (store store' : LinkStore) : Prop :=
  ∀ link tag msg', store'.unsettled link tag = some msg' →
    ∃ msg, store.unsettled link tag = some msg ∧ msg.sender = msg'.sender

/-- Whatever differs between the two stores belongs to a delivery in `allowed`. -/
structure ChangesOnly (allowed : OneshotId → Prop) (store store' : LinkStore) : Prop where
  kept : ∀ link tag msg, store.unsettled link tag = some msg →
    store'.unsettled link tag = some msg ∨ allowed msg.sender
  shrinks : store.ShrinksTo store'
  outcomes : ∀ sender, store'.outcomes sender = store.outcomes sender ∨ allowed sender

theorem ShrinksTo.refl (store : LinkStore) : store.ShrinksTo store :=
  fun _ _ msg h => ⟨msg, h, rfl⟩

theorem ShrinksTo.trans {store store' store'' : LinkStore} (h : store.ShrinksTo store')
    (h' : store'.ShrinksTo store'') : store.ShrinksTo store'' := by
  intro link tag msg'' hmsg''
  obtain ⟨msg', hmsg', hsender'⟩ := h' link tag msg'' hmsg''
  obtain ⟨msg, hmsg, hsender⟩ := h link tag msg' hmsg'
  exact ⟨msg, hmsg, hsender.trans hsender'⟩

namespace ChangesOnly

variable {allowed : OneshotId → Prop} {store store' store'' : LinkStore}

theorem refl (store : LinkStore) : ChangesOnly allowed store store :=
  ⟨fun _ _ _ h => Or.inl h, .refl store, fun _ => Or.inl rfl⟩

theorem trans (h : ChangesOnly allowed store store') (h' : ChangesOnly allowed store' store'') :
    ChangesOnly allowed store store'' where
  kept := by
    intro link tag msg hmsg
    rcases h.kept link tag msg hmsg with hkept | hallowed
    · exact h'.kept link tag msg hkept
    · exact Or.inr hallowed
  shrinks := h.shrinks.trans h'.shrinks
  outcomes := by
    intro sender
    rcases h'.outcomes sender with heq | hallowed
    · rw [heq]
      exact h.outcomes sender
    · exact Or.inr hallowed

theorem mono {allowed' : OneshotId → Prop} (h : ChangesOnly allowed store store')
    (hle : ∀ sender, allowed sender → allowed' sender) : ChangesOnly allowed' store store' where
  kept := fun link tag msg hmsg => (h.kept link tag msg hmsg).imp_right (hle _)
  shrinks := h.shrinks
  outcomes := fun sender => (h.outcomes sender).imp_right (hle _)

/-- Stores with the same unsettled messages and the same outcomes. -/
theorem of_eq (hunsettled : ∀ link tag, store'.unsettled link tag = store.unsettled link tag)
    (houtcomes : store'.outcomes = store.outcomes) : ChangesOnly allowed store store' where
  kept := fun link tag msg hmsg => Or.inl (by rw [hunsettled, hmsg])
  shrinks := fun link tag msg' hmsg' => ⟨msg', by rw [← hunsettled, hmsg'], rfl⟩
  outcomes := fun _ => Or.inl (by rw [houtcomes])

end ChangesOnly

theorem unsettled_modify (store : LinkStore) (link : LinkId) (f : LinkCell → LinkCell)
    (link' : LinkId) (tag : DeliveryTag) :
    (store.modify link f).unsettled link' tag =
      if link' = link then (f (store.cell link)).senderUnsettled.bind (·.get tag)
      else store.unsettled link' tag := by
  by_cases h : link' = link
  · subst h
    simp [unsettled, modify]
  · simp [unsettled, modify, h]

/-- A change of a cell that leaves its unsettled messages alone. -/
theorem changesOnly_modify {allowed : OneshotId → Prop} (store : LinkStore) (link : LinkId)
    (f : LinkCell → LinkCell)
    (hf : (f (store.cell link)).senderUnsettled = (store.cell link).senderUnsettled) :
    ChangesOnly allowed store (store.modify link f) := by
  refine .of_eq (fun link' tag => ?_) rfl
  rw [unsettled_modify]
  split
  · next h => rw [hf, h]; rfl
  · rfl

theorem changesOnly_send {allowed : OneshotId → Prop} {store store' : LinkStore} {link : LinkId}
    {frame : LinkFrame} (h : store.send link frame = some store') :
    ChangesOnly allowed store store' := by
  simp only [send] at h
  split at h
  · cases h
  · cases h
    exact store.changesOnly_modify link _ rfl

/-- Settling touches the message under the tag and its oneshot channel. -/
theorem settle_changesOnly (store : LinkStore) (link : LinkId) (tag : DeliveryTag)
    (state : Option DeliveryState) :
    ChangesOnly (fun sender => ∃ msg, store.unsettled link tag = some msg ∧ msg.sender = sender)
      store (store.settle link tag state) := by
  cases hmap : (store.cell link).senderUnsettled with
  | none =>
      simp only [settle, hmap]
      exact .refl store
  | some m =>
      cases hget : m.get tag with
      | none =>
          simp only [settle, hmap, hget]
          exact .refl store
      | some msg =>
          have hmsg : store.unsettled link tag = some msg := by simp [unsettled, hmap, hget]
          have hafter : ∀ link' tag', (store.settle link tag state).unsettled link' tag' =
              if link' = link ∧ tag' = tag then none else store.unsettled link' tag' := by
            intro link' tag'
            have hresolve : (store.settle link tag state).unsettled link' tag' =
                (store.modify link fun cell =>
                  { cell with senderUnsettled := some (m.swapRemove tag) }).unsettled link' tag' := by
              simp only [settle, hmap, hget]
              rfl
            rw [hresolve, unsettled_modify]
            by_cases hlink : link' = link
            · subst hlink
              by_cases htag : tag' = tag <;> simp [unsettled, hmap, IndexMap.get_swapRemove, htag]
            · simp [hlink]
          refine ⟨?_, ?_, ?_⟩
          · intro link' tag' msg' hmsg'
            by_cases hsame : link' = link ∧ tag' = tag
            · obtain ⟨rfl, rfl⟩ := hsame
              rw [hmsg] at hmsg'
              cases hmsg'
              exact Or.inr ⟨msg, hmsg, rfl⟩
            · exact Or.inl (by rw [hafter, if_neg hsame, hmsg'])
          · intro link' tag' msg' hmsg'
            rw [hafter] at hmsg'
            split at hmsg'
            · cases hmsg'
            · exact ⟨msg', hmsg', rfl⟩
          · intro sender
            by_cases hsender : sender = msg.sender
            · exact Or.inr ⟨msg, hmsg, hsender.symm⟩
            · refine Or.inl ?_
              simp [settle, hmap, hget, resolve, modify, hsender]

/-- Updating the state of a message keeps its identity. -/
theorem changesOnly_modifyState (store : LinkStore) (link : LinkId) (tag : DeliveryTag)
    (state : Option DeliveryState) :
    ChangesOnly (fun sender => ∃ msg, store.unsettled link tag = some msg ∧ msg.sender = sender)
      store (store.modify link fun cell =>
        { cell with
          senderUnsettled := cell.senderUnsettled.map fun m =>
            m.modify tag fun msg => { msg with state } }) := by
  have hafter : ∀ link' tag', (store.modify link fun cell =>
        { cell with
          senderUnsettled := cell.senderUnsettled.map fun m =>
            m.modify tag fun msg => { msg with state } }).unsettled link' tag' =
      if link' = link ∧ tag' = tag then
        (store.unsettled link tag).map fun msg => { msg with state }
      else store.unsettled link' tag' := by
    intro link' tag'
    rw [unsettled_modify]
    by_cases hlink : link' = link
    · subst hlink
      cases hmap : (store.cell link').senderUnsettled with
      | none => simp [unsettled, hmap]
      | some m => by_cases htag : tag' = tag <;> simp [unsettled, hmap, IndexMap.get_modify, htag]
    · simp [hlink]
  refine ⟨?_, ?_, fun _ => Or.inl rfl⟩
  · intro link' tag' msg hmsg
    by_cases hsame : link' = link ∧ tag' = tag
    · obtain ⟨rfl, rfl⟩ := hsame
      exact Or.inr ⟨msg, hmsg, rfl⟩
    · exact Or.inl (by rw [hafter, if_neg hsame, hmsg])
  · intro link' tag' msg' hmsg'
    rw [hafter] at hmsg'
    split at hmsg'
    · next hsame =>
        obtain ⟨rfl, rfl⟩ := hsame
        obtain ⟨msg, hmsg, rfl⟩ := Option.map_eq_some_iff.mp hmsg'
        exact ⟨msg, hmsg, rfl⟩
    · exact ⟨msg', hmsg', rfl⟩

theorem failPendingUnsettled_shrinksTo (store : LinkStore) (link : LinkId) (detach : Detach) :
    store.ShrinksTo (store.failPendingUnsettled link detach) := by
  have hresolve : ∀ (entries : List (DeliveryTag × UnsettledMessage)) (error : LinkStateError)
      (store' : LinkStore) (link' : LinkId) (tag : DeliveryTag),
      (entries.foldl (fun store entry => store.resolve entry.2.sender (.error error))
        store').unsettled link' tag = store'.unsettled link' tag := by
    intro entries error
    induction entries with
    | nil => intros; rfl
    | cons entry entries ih =>
        intro store' link' tag
        rw [List.foldl_cons, ih]
        rfl
  intro link' tag msg' hmsg'
  cases hmap : (store.cell link).senderUnsettled with
  | none =>
      simp only [failPendingUnsettled, hmap] at hmsg'
      exact ⟨msg', hmsg', rfl⟩
  | some m =>
      simp only [failPendingUnsettled, hmap, hresolve, unsettled_modify] at hmsg'
      split at hmsg'
      · simp at hmsg'
      · exact ⟨msg', hmsg', rfl⟩

end LinkStore

namespace LinkRelay

theorem onIncomingFlow_changesOnly {allowed : OneshotId → Prop} (relay : LinkRelay OutputHandle)
    (store : LinkStore) (flow : LinkFlow) :
    LinkStore.ChangesOnly allowed store (relay.onIncomingFlow store flow).2 := by
  cases relay with
  | receiver link outputHandle mode more =>
      simp only [onIncomingFlow]
      exact store.changesOnly_modify link _ rfl
  | sender link outputHandle mode =>
      cases htxn : acquisitionTxnId flow with
      | none =>
          simp only [onIncomingFlow, htxn]
          exact store.changesOnly_modify link _ rfl
      | some txnId =>
          cases hsend : store.send link (.acquisition txnId) with
          | none =>
              simp only [onIncomingFlow, htxn, hsend]
              exact .refl store
          | some store' =>
              simp only [onIncomingFlow, htxn, hsend]
              exact (LinkStore.changesOnly_send hsend).trans (store'.changesOnly_modify link _ rfl)

/-- The delivery that a relay reaches under a tag. -/
def reaches {O : Type} (relay : LinkRelay O) (store : LinkStore) (tag : DeliveryTag) :
    Option OneshotId :=
  match relay with
  | .sender link _ _ => (store.unsettled link tag).map (·.sender)
  | .receiver .. => none

/-- A relay that gets a disposition changes nothing but the delivery it reaches under the tag. -/
theorem onIncomingDisposition_changesOnly (relay : LinkRelay OutputHandle) (store : LinkStore)
    (settled : Bool) (state : Option DeliveryState) (tag : DeliveryTag) :
    LinkStore.ChangesOnly (fun sender => relay.reaches store tag = some sender) store
      (relay.onIncomingDisposition store settled state tag).2 := by
  cases relay with
  | receiver link outputHandle mode more =>
      simp only [onIncomingDisposition]
      exact store.changesOnly_modify link _ rfl
  | sender link outputHandle mode =>
      have hreaches : ∀ sender,
          (∃ msg, store.unsettled link tag = some msg ∧ msg.sender = sender) →
          (LinkRelay.sender link outputHandle mode).reaches store tag = some sender := by
        rintro sender ⟨msg, hmsg, rfl⟩
        simp [reaches, hmsg]
      cases settled with
      | true =>
          exact (store.settle_changesOnly link tag state).mono hreaches
      | false =>
          simp only [onIncomingDisposition, Bool.false_eq_true, if_false]
          split_ifs
          · exact (store.settle_changesOnly link tag state).mono hreaches
          · exact (store.changesOnly_modifyState link tag state).mono hreaches

theorem onIncomingTransfer_changesOnly {allowed : OneshotId → Prop} (relay : LinkRelay OutputHandle)
    (store : LinkStore) (transfer : Transfer) (payload : Payload) :
    LinkStore.ChangesOnly allowed store (relay.onIncomingTransfer store transfer payload).2.2 := by
  cases relay with
  | sender link outputHandle mode => exact .refl store
  | receiver link outputHandle mode more =>
      simp only [onIncomingTransfer]
      cases hsend : store.send link
          (.remoteTransfer ⟨⟨transfer.handle⟩, transfer, payload⟩) with
      | none => exact .refl store
      | some store' =>
          have h : LinkStore.ChangesOnly allowed store store' := LinkStore.changesOnly_send hsend
          simp only
          split
          · exact h
          · split
            · exact h
            · split
              · exact h
              · split <;> exact h

/-- An incoming transfer keeps the relay's kind and link; only a receiver remembers a delivery. -/
theorem onIncomingTransfer_relay (relay : LinkRelay OutputHandle) (store : LinkStore)
    (transfer : Transfer) (payload : Payload) :
    (∃ link outputHandle mode, relay = .sender link outputHandle mode ∧
      relay.onIncomingTransfer store transfer payload = (.error .transferFrameToSender, relay, store)) ∨
    ∃ link outputHandle mode more,
      (relay.onIncomingTransfer store transfer payload).2.1 = .receiver link outputHandle mode more := by
  cases relay with
  | sender link outputHandle mode => exact Or.inl ⟨link, outputHandle, mode, rfl, rfl⟩
  | receiver link outputHandle mode more =>
      right
      simp only [onIncomingTransfer]
      split
      · exact ⟨_, _, _, _, rfl⟩
      · split
        · exact ⟨_, _, _, _, rfl⟩
        · split
          · exact ⟨_, _, _, _, rfl⟩
          · split
            · exact ⟨_, _, _, _, rfl⟩
            · split <;> exact ⟨_, _, _, _, rfl⟩

theorem onIncomingDetach_shrinksTo (relay : LinkRelay OutputHandle) (store : LinkStore)
    (detach : Detach) (remoteInitiated : Bool) :
    store.ShrinksTo (relay.onIncomingDetach store detach remoteInitiated).2 := by
  have hsend : store.ShrinksTo ((store.send relay.link (.detach detach)).getD store) := by
    cases h : store.send relay.link (.detach detach) with
    | none => exact .refl store
    | some store' => exact (@LinkStore.changesOnly_send (fun _ => True) _ _ _ _ h).shrinks
  have hfail := fun link => hsend.trans (LinkStore.failPendingUnsettled_shrinksTo _ link detach)
  cases relay with
  | receiver link outputHandle mode more => exact hsend
  | sender link outputHandle mode =>
      simp only [onIncomingDetach]
      split
      · split
        · exact hfail link
        · exact hsend
      · split
        · exact hfail link
        · exact hsend

end LinkRelay

namespace Session

/-- The sender link that the session knows under an input handle. -/
def senderAt (s : Session) (handle : InputHandle) : Option LinkId :=
  match s.linkByInputHandle handle with
  | some (.sender link _ _) => some link
  | _ => none

/-- The delivery that a disposition reaches through an input handle and a tag. -/
def target (s : Session) (handle : InputHandle) (tag : DeliveryTag) : Option OneshotId :=
  (s.senderAt handle).bind fun link => (s.links.unsettled link tag).map (·.sender)

/-- Nothing new becomes reachable: no transfer is buffered, no sender link is attached, no message
is added, and every new entry of `delivery_tag_by_id` names a handle without a sender link. -/
structure Quiet (s s' : Session) : Prop where
  buffer : s'.remoteIncomingWindowExhaustedBuffer = s.remoteIncomingWindowExhaustedBuffer
  entries : ∀ key handle tag, s'.deliveryTagById key = some (handle, tag) →
    s.deliveryTagById key = some (handle, tag) ∨ s'.senderAt handle = none
  senders : ∀ handle link, s'.senderAt handle = some link → s.senderAt handle = some link
  links : s.links.ShrinksTo s'.links

namespace Quiet

theorem refl (s : Session) : Quiet s s :=
  ⟨rfl, fun _ _ _ h => Or.inl h, fun _ _ h => h, .refl s.links⟩

theorem trans {s s' s'' : Session} (h : Quiet s s') (h' : Quiet s' s'') : Quiet s s'' where
  buffer := h'.buffer.trans h.buffer
  entries := by
    intro key handle tag hentry
    rcases h'.entries key handle tag hentry with hentry | hnone
    · rcases h.entries key handle tag hentry with hentry | hnone
      · exact Or.inl hentry
      · right
        by_contra hsome
        obtain ⟨link, hlink⟩ := Option.ne_none_iff_exists'.mp hsome
        have := h'.senders handle link hlink
        rw [hnone] at this
        cases this
    · exact Or.inr hnone
  senders := fun handle link hlink => h.senders handle link (h'.senders handle link hlink)
  links := h.links.trans h'.links

/-- An operation that changes neither the buffer, the tables nor the links. -/
theorem of_eq {s s' : Session}
    (hbuffer : s'.remoteIncomingWindowExhaustedBuffer = s.remoteIncomingWindowExhaustedBuffer)
    (hentries : s'.deliveryTagById = s.deliveryTagById)
    (hrelays : s'.linkByInputHandle = s.linkByInputHandle) (hlinks : s'.links = s.links) :
    Quiet s s' where
  buffer := hbuffer
  entries := fun key handle tag hentry => Or.inl (by rw [← hentries, hentry])
  senders := fun handle link hlink => by rw [← hlink]; simp [senderAt, hrelays]
  links := by rw [hlinks]; exact .refl s.links

/-- An operation that only shrinks the unsettled maps. -/
theorem of_links {s s' : Session} (links : LinkStore) (hlinks : s.links.ShrinksTo links)
    (h : s' = { s with links }) : Quiet s s' := by
  subst h
  exact ⟨rfl, fun _ _ _ hentry => Or.inl hentry, fun _ _ hlink => hlink, hlinks⟩

theorem target {s s' : Session} (h : Quiet s s') {handle : InputHandle} {tag : DeliveryTag}
    {sender : OneshotId} (htarget : s'.target handle tag = some sender) :
    s.target handle tag = some sender := by
  obtain ⟨link, hlink, hmap⟩ := Option.bind_eq_some_iff.mp htarget
  obtain ⟨msg', hmsg', rfl⟩ := Option.map_eq_some_iff.mp hmap
  obtain ⟨msg, hmsg, hsender⟩ := h.links link tag msg' hmsg'
  simp [Session.target, h.senders handle link hlink, hmsg, hsender]

end Quiet

theorem senderAt_update (s : Session) (handle handle' : InputHandle)
    (relay : Option (LinkRelay OutputHandle)) :
    senderAt { s with linkByInputHandle := Function.update s.linkByInputHandle handle relay } handle' =
      if handle' = handle then
        match relay with
        | some (.sender link _ _) => some link
        | _ => none
      else s.senderAt handle' := by
  by_cases h : handle' = handle
  · subst h
    simp [senderAt]
  · simp [senderAt, h]

/-- Allocation touches the two tables of output handles and names only. -/
theorem allocateLink_frame (s : Session) (name : String) (relay : Option (LinkRelay Unit)) :
    ∃ slab names, (s.allocateLink name relay).2 =
      { s with linkNameByOutputHandle := slab, linkByName := names } := by
  simp only [allocateLink]
  split
  · split <;> exact ⟨_, _, rfl⟩
  · split
    · exact ⟨_, _, rfl⟩
    · split <;> exact ⟨_, _, rfl⟩

theorem allocateLink_quiet (s : Session) (name : String) (relay : Option (LinkRelay Unit)) :
    Quiet s (s.allocateLink name relay).2 := by
  obtain ⟨slab, names, heq⟩ := s.allocateLink_frame name relay
  rw [heq]
  exact .of_eq rfl rfl rfl rfl

theorem deallocateLink_quiet (s : Session) (outputHandle : OutputHandle) :
    Quiet s (s.deallocateLink outputHandle).2 := by
  simp only [deallocateLink]
  split
  · exact .of_eq rfl rfl rfl rfl
  · exact .refl s

theorem onIncomingBegin_quiet (s : Session) (channel : UInt16) (begin' : Begin) :
    Quiet s (s.onIncomingBegin channel begin').2 := by
  simp only [onIncomingBegin]
  split <;> exact .of_eq rfl rfl rfl rfl

theorem onIncomingEnd_quiet (s : Session) (end' : End) : Quiet s (s.onIncomingEnd end').2 := by
  simp only [onIncomingEnd]
  split
  all_goals first | (split <;> exact .of_eq rfl rfl rfl rfl) | exact .of_eq rfl rfl rfl rfl

theorem sendBegin_quiet (s : Session) : Quiet s s.sendBegin.2 := by
  simp only [sendBegin]
  split <;> exact .of_eq rfl rfl rfl rfl

theorem sendEnd_quiet (s : Session) (error : Option Error) : Quiet s (s.sendEnd error).2 := by
  simp only [sendEnd]
  split <;> exact .of_eq rfl rfl rfl rfl

theorem onOutgoingDisposition_quiet (s : Session) (d : Disposition) :
    Quiet s (s.onOutgoingDisposition d).2 := by
  simp only [onOutgoingDisposition]
  split_ifs <;> exact .of_eq rfl rfl rfl rfl

theorem sendDispositions_quiet (s : Session) (ds : List Disposition) :
    Quiet s (s.sendDispositions ds).2 := by
  induction ds generalizing s with
  | nil => exact .refl s
  | cons d ds ih => exact (s.onOutgoingDisposition_quiet d).trans (ih _)

theorem sendDispositions_links (s : Session) (ds : List Disposition) :
    (s.sendDispositions ds).2.links = s.links := by
  induction ds generalizing s with
  | nil => rfl
  | cons d ds ih =>
      have hone : (s.onOutgoingDisposition d).2.links = s.links := by
        simp only [onOutgoingDisposition]
        split_ifs <;> rfl
      rw [← hone]
      exact ih _

theorem onOutgoingDetach_quiet (s : Session) (detach : Detach) (expectsEcho : Bool) :
    Quiet s (s.onOutgoingDetach detach expectsEcho).2 := by
  have h := s.deallocateLink_quiet ⟨detach.handle⟩
  simp only [onOutgoingDetach]
  split
  · split
    · exact h.trans (.of_eq rfl rfl rfl rfl)
    · exact h
  · exact h

theorem maybeOutgoingSessionFlow_quiet (s : Session) : Quiet s s.maybeOutgoingSessionFlow.2 := by
  simp only [maybeOutgoingSessionFlow]
  split
  · exact .refl s
  · split
    · exact .of_eq rfl rfl rfl rfl
    · exact .refl s

theorem onIncomingTransfer_quiet (s : Session) (transfer : Transfer) (payload : Payload) :
    Quiet s (s.onIncomingTransfer transfer payload).2 := by
  simp only [onIncomingTransfer]
  cases hrelay : s.linkByInputHandle ⟨transfer.handle⟩ with
  | none => exact .of_eq rfl rfl rfl rfl
  | some relay =>
      have hlinks : s.links.ShrinksTo (relay.onIncomingTransfer s.links transfer payload).2.2 :=
        (@LinkRelay.onIncomingTransfer_changesOnly (fun _ => True) relay s.links transfer
          payload).shrinks
      rcases relay.onIncomingTransfer_relay s.links transfer payload with
        ⟨link, outputHandle, mode, hsender, heq⟩ | ⟨link, outputHandle, mode, more, hreceiver⟩
      · subst hsender
        simp only [heq]
        refine .of_eq rfl rfl ?_ rfl
        exact Function.update_eq_self_iff.mpr hrelay.symm
      · cases hresult : relay.onIncomingTransfer s.links transfer payload with
        | mk result rest =>
            rw [hresult] at hlinks hreceiver
            simp only [hresult] at hlinks hreceiver ⊢
            have hsenders : ∀ handle link', senderAt
                { s with linkByInputHandle :=
                    Function.update s.linkByInputHandle ⟨transfer.handle⟩ (some rest.1) } handle =
                some link' → s.senderAt handle = some link' := by
              intro handle link' hlink'
              rw [senderAt_update, hreceiver] at hlink'
              split at hlink'
              · cases hlink'
              · exact hlink'
            have hnone : senderAt
                { s with linkByInputHandle :=
                    Function.update s.linkByInputHandle ⟨transfer.handle⟩ (some rest.1) }
                ⟨transfer.handle⟩ = none := by
              rw [senderAt_update, hreceiver, if_pos rfl]
            cases result with
            | error e => exact ⟨rfl, fun _ _ _ h => Or.inl h, hsenders, hlinks⟩
            | ok remembered =>
                cases remembered with
                | none => exact ⟨rfl, fun _ _ _ h => Or.inl h, hsenders, hlinks⟩
                | some info =>
                    refine ⟨rfl, fun key handle tag hentry => ?_, hsenders, hlinks⟩
                    by_cases hkey : key = (.sender, info.1)
                    · subst hkey
                      simp only [Function.update_self, Option.some.injEq, Prod.mk.injEq] at hentry
                      rw [← hentry.1]
                      exact Or.inr hnone
                    · exact Or.inl (by simpa [hkey] using hentry)

/-- What one iteration over the delivery-ids does to the links: nothing, or one relay handles the
disposition for the tag that the entry names. -/
theorem settleDelivery_quiet (disposition : Disposition) (s : Session) (id : DeliveryNumber) :
    Quiet s (settleDelivery disposition s id) := by
  simp only [settleDelivery]
  split
  · exact .refl s
  · next handle tag hentry =>
      have hremoved : Quiet s { s with
          deliveryTagById := Function.update s.deliveryTagById (disposition.role, id) none } := by
        refine ⟨rfl, fun key handle' tag' hkey => ?_, fun _ _ h => h, .refl s.links⟩
        by_cases hsame : key = (disposition.role, id)
        · simp [hsame] at hkey
        · exact Or.inl (by simpa [hsame] using hkey)
      split
      · exact hremoved
      · next relay _ =>
          exact hremoved.trans (.of_links _
            (relay.onIncomingDisposition_changesOnly s.links disposition.settled disposition.state
              tag).shrinks rfl)

theorem updateDelivery_quiet (disposition : Disposition) (acc : List DeliveryNumber × Session)
    (id : DeliveryNumber) : Quiet acc.2 (updateDelivery disposition acc id).2 := by
  simp only [updateDelivery]
  split
  · exact .refl _
  · next handle tag hentry =>
      split
      · exact .refl _
      · next relay _ =>
          exact .of_links _ (relay.onIncomingDisposition_changesOnly acc.2.links disposition.settled
            disposition.state tag).shrinks rfl

theorem onIncomingDisposition_quiet (s : Session) (disposition : Disposition) :
    Quiet s (s.onIncomingDisposition disposition).2 := by
  simp only [onIncomingDisposition]
  split
  · generalize deliveryIds _ _ = ids
    induction ids generalizing s with
    | nil => exact .refl s
    | cons id ids ih => exact (settleDelivery_quiet disposition s id).trans (ih _)
  · generalize deliveryIds _ _ = ids
    have hfold : ∀ acc : List DeliveryNumber × Session,
        Quiet acc.2 (ids.foldl (updateDelivery disposition) acc).2 := by
      induction ids with
      | nil => exact fun acc => .refl acc.2
      | cons id ids ih => exact fun acc => (updateDelivery_quiet disposition acc id).trans (ih _)
    exact hfold ([], s)

theorem onIncomingDetach_quiet (s : Session) (detach : Detach) :
    Quiet s (s.onIncomingDetach detach).2 := by
  simp only [onIncomingDetach]
  cases hrelay : s.linkByInputHandle ⟨detach.handle⟩ with
  | none => exact .refl s
  | some relay =>
      refine ⟨rfl, fun _ _ _ h => Or.inl h, fun handle link hlink => ?_,
        relay.onIncomingDetach_shrinksTo s.links detach _⟩
      have hupdate : senderAt
          { s with linkByInputHandle := Function.update s.linkByInputHandle ⟨detach.handle⟩ none }
          handle = some link := hlink
      rw [senderAt_update] at hupdate
      split at hupdate
      · cases hupdate
      · exact hupdate

theorem onIncomingFlowInner_quiet (s : Session) (flow : Flow) :
    Quiet s (s.onIncomingFlowInner flow).2 := by
  have happly : Quiet s (s.applySessionFlow flow) := .of_eq rfl rfl rfl rfl
  simp only [onIncomingFlowInner]
  cases LinkFlow.tryFrom flow with
  | none => exact happly
  | some linkFlow =>
      cases hrelay : (s.applySessionFlow flow).linkByInputHandle ⟨linkFlow.handle⟩ with
      | none =>
          simp only [hrelay]
          exact happly
      | some relay =>
          have hlinks := (@LinkRelay.onIncomingFlow_changesOnly (fun _ => True) relay
            (s.applySessionFlow flow).links linkFlow).shrinks
          cases hflow : relay.onIncomingFlow (s.applySessionFlow flow).links linkFlow with
          | mk result links =>
              rw [hflow] at hlinks
              simp only [hrelay, hflow]
              cases result <;> exact happly.trans (.of_links links hlinks rfl)

end Session

end Fe2o3Amqp
