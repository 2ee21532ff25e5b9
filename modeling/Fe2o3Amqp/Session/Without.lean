import Fe2o3Amqp.Session.Engine
import Fe2o3Amqp.Session.LinkTables
import Mathlib.Data.Set.Basic

/-!
# A session without some of its links

`Session.without` blanks everything that a session knows about a group of links: their names, the
relays registered on their input handles, the deliveries recorded as received by them and the cells
they share with their endpoints.  The handle numbers they were given stay taken.  A session treats each link by
its own entries: what it does with a frame or a request of another link is the same with and without
the group.
-/

namespace Fe2o3Amqp

open Classical

/-- The links that a comparison leaves out. -/
structure LinkGroup where
  names : Set String
  handles : Set InputHandle
  cells : Set LinkId

/-- The deliveries without those recorded as received by the group. -/
noncomputable def LinkGroup.maskDeliveries (g : LinkGroup)
    (deliveries : Role × DeliveryNumber → Option (InputHandle × DeliveryTag)) :
    Role × DeliveryNumber → Option (InputHandle × DeliveryTag) := fun key =>
  if key.1 = .sender then (deliveries key).filter fun delivery => delivery.1 ∉ g.handles
  else deliveries key

/-- The cell of a link that has never been used. -/
def LinkCell.blank : LinkCell where
  flowState := ⟨0, 0, 0, 0, false, none⟩
  senderUnsettled := none
  receiverUnsettled := none
  incoming := []
  endpointDropped := false

namespace LinkStore

noncomputable def without (cells : Set LinkId) (store : LinkStore) : LinkStore :=
  { store with cell := fun link => if link ∈ cells then .blank else store.cell link }

variable {cells : Set LinkId} {store : LinkStore} {link : LinkId}

theorem cell_without (h : link ∉ cells) : (store.without cells).cell link = store.cell link :=
  if_neg h

@[simp] theorem outcomes_without : (store.without cells).outcomes = store.outcomes := rfl

theorem modify_without (h : link ∉ cells) (f : LinkCell → LinkCell) :
    (store.without cells).modify link f = (store.modify link f).without cells := by
  simp only [modify, without, if_neg h, LinkStore.mk.injEq, and_true]
  funext other
  by_cases hlink : other = link
  · subst hlink
    simp [h]
  · simp [hlink]

/-- What is done to a cell of the group is not seen. -/
theorem without_modify (h : link ∈ cells) (f : LinkCell → LinkCell) :
    (store.modify link f).without cells = store.without cells := by
  simp only [modify, without, LinkStore.mk.injEq, and_true]
  funext other
  by_cases hlink : other = link
  · subst hlink
    simp [h]
  · simp [hlink]

theorem resolve_without (sender : OneshotId)
    (result : Except LinkStateError (Option DeliveryState)) :
    (store.without cells).resolve sender result = (store.resolve sender result).without cells :=
  rfl

theorem send_without (h : link ∉ cells) (frame : LinkFrame) :
    (store.without cells).send link frame = (store.send link frame).map (without cells) := by
  simp only [send, cell_without h]
  split
  · rfl
  · rw [modify_without h, Option.map_some]

theorem without_of_send {store' : LinkStore} {frame : LinkFrame} (h : link ∈ cells)
    (hsend : store.send link frame = some store') : store'.without cells = store.without cells := by
  unfold send at hsend
  split at hsend
  · cases hsend
  · rw [← Option.some.inj hsend, without_modify h]

theorem settle_without (h : link ∉ cells) (tag : DeliveryTag) (state : Option DeliveryState) :
    (store.without cells).settle link tag state = (store.settle link tag state).without cells := by
  simp only [settle, cell_without h]
  cases (store.cell link).senderUnsettled with
  | none => rfl
  | some m =>
      dsimp only
      cases m.get tag with
      | none => rfl
      | some msg =>
          dsimp only
          rw [modify_without h, resolve_without]

private theorem foldl_resolve_without (error : LinkStateError)
    (entries : List (DeliveryTag × UnsettledMessage)) (store : LinkStore) :
    entries.foldl (fun store entry => store.resolve entry.2.sender (.error error))
        (store.without cells) =
      (entries.foldl (fun store entry => store.resolve entry.2.sender (.error error)) store).without
        cells := by
  induction entries generalizing store with
  | nil => rfl
  | cons entry entries ih => exact ih (store.resolve entry.2.sender (.error error))

theorem failPendingUnsettled_without (h : link ∉ cells) (detach : Detach) :
    (store.without cells).failPendingUnsettled link detach =
      (store.failPendingUnsettled link detach).without cells := by
  simp only [failPendingUnsettled, cell_without h]
  cases (store.cell link).senderUnsettled with
  | none => rfl
  | some m =>
      dsimp only
      rw [modify_without h, foldl_resolve_without]

end LinkStore

/-! ## Relays -/

namespace LinkRelay

variable {cells : Set LinkId} {relay : LinkRelay OutputHandle} {store : LinkStore}

theorem onIncomingFlow_without (h : relay.link ∉ cells) (flow : LinkFlow) :
    relay.onIncomingFlow (store.without cells) flow =
      Prod.map id (LinkStore.without cells) (relay.onIncomingFlow store flow) := by
  cases relay with
  | sender link outputHandle mode =>
      have hlink : link ∉ cells := h
      simp only [onIncomingFlow]
      cases acquisitionTxnId flow with
      | none =>
          simp only [LinkStore.cell_without hlink, LinkStore.modify_without hlink]
          rfl
      | some txnId =>
          simp only [LinkStore.send_without hlink]
          cases store.send link (.acquisition txnId) with
          | none => rfl
          | some store =>
              simp only [Option.map_some, LinkStore.cell_without hlink,
                LinkStore.modify_without hlink]
              rfl
  | receiver link outputHandle mode more =>
      have hlink : link ∉ cells := h
      simp only [onIncomingFlow, LinkStore.cell_without hlink, LinkStore.modify_without hlink]
      rfl

theorem onIncomingDisposition_without (h : relay.link ∉ cells) (settled : Bool)
    (state : Option DeliveryState) (tag : DeliveryTag) :
    relay.onIncomingDisposition (store.without cells) settled state tag =
      Prod.map id (LinkStore.without cells)
        (relay.onIncomingDisposition store settled state tag) := by
  cases relay with
  | sender link outputHandle mode =>
      have hlink : link ∉ cells := h
      simp only [onIncomingDisposition]
      split
      · rw [LinkStore.settle_without hlink]
        rfl
      · split <;> split <;>
          simp only [LinkStore.settle_without hlink, LinkStore.modify_without hlink, Prod.map, id]
  | receiver link outputHandle mode more =>
      have hlink : link ∉ cells := h
      simp only [onIncomingDisposition, LinkStore.modify_without hlink, Prod.map, id]

theorem onIncomingTransfer_without (h : relay.link ∉ cells) (transfer : Transfer)
    (payload : Payload) :
    relay.onIncomingTransfer (store.without cells) transfer payload =
      Prod.map id (Prod.map id (LinkStore.without cells))
        (relay.onIncomingTransfer store transfer payload) := by
  cases relay with
  | sender link outputHandle mode => rfl
  | receiver link outputHandle mode more =>
      have hlink : link ∉ cells := h
      simp only [onIncomingTransfer, LinkStore.send_without hlink]
      cases store.send link _ with
      | none => rfl
      | some store =>
          simp only [Option.map_some]
          split
          · rfl
          · cases mode with
            | first => rfl
            | second =>
                dsimp only
                split
                · rfl
                · split <;> rfl

theorem onIncomingDetach_without (h : relay.link ∉ cells) (detach : Detach)
    (remoteInitiated : Bool) :
    relay.onIncomingDetach (store.without cells) detach remoteInitiated =
      Prod.map id (LinkStore.without cells)
        (relay.onIncomingDetach store detach remoteInitiated) := by
  have hgetD : ((store.send relay.link (.detach detach)).map (LinkStore.without cells)).getD
      (store.without cells) =
        ((store.send relay.link (.detach detach)).getD store).without cells := by
    cases store.send relay.link (.detach detach) <;> rfl
  have hnone : ((store.send relay.link (.detach detach)).map (LinkStore.without cells)).isNone =
      (store.send relay.link (.detach detach)).isNone := by
    cases store.send relay.link (.detach detach) <;> rfl
  simp only [onIncomingDetach, LinkStore.send_without h, hgetD, hnone]
  cases relay with
  | sender link outputHandle mode =>
      have hlink : link ∉ cells := h
      dsimp only
      split
      · split
        · rw [LinkStore.failPendingUnsettled_without hlink]
          rfl
        · rfl
      · split
        · rw [LinkStore.failPendingUnsettled_without hlink]
          rfl
        · rfl
  | receiver link outputHandle mode more => rfl

theorem onIncomingTransfer_link (relay : LinkRelay OutputHandle) (store : LinkStore)
    (transfer : Transfer) (payload : Payload) :
    (relay.onIncomingTransfer store transfer payload).2.1.link = relay.link := by
  cases relay with
  | sender link outputHandle mode => rfl
  | receiver link outputHandle mode more =>
      simp only [onIncomingTransfer]
      split
      · rfl
      · split
        · rfl
        · cases mode with
          | first => rfl
          | second =>
              dsimp only
              split
              · rfl
              · split <;> rfl

end LinkRelay

/-! ## The session -/

namespace Session

noncomputable def without (g : LinkGroup) (s : Session) : Session :=
  { s with
    linkByName := fun name => if name ∈ g.names then none else s.linkByName name
    linkByInputHandle := fun handle =>
      if handle ∈ g.handles then none
      else (s.linkByInputHandle handle).filter fun relay => relay.link ∉ g.cells
    deliveryTagById := g.maskDeliveries s.deliveryTagById
    links := s.links.without g.cells }

/-- No link of the group uses the input handle. -/
def Spares (g : LinkGroup) (s : Session) (handle : InputHandle) : Prop :=
  handle ∉ g.handles ∧ ∀ relay, s.linkByInputHandle handle = some relay → relay.link ∉ g.cells

/-- A delivery recorded under the key belongs to another link, or to a receiver of the group. -/
def Settles (g : LinkGroup) (s : Session) (key : Role × DeliveryNumber) : Prop :=
  ∀ handle tag, s.deliveryTagById key = some (handle, tag) → s.Spares g handle ∨
    key.1 = .sender ∧ handle ∈ g.handles ∧ ∀ relay, s.linkByInputHandle handle = some relay →
      ∃ link outputHandle mode more, relay = .receiver link outputHandle mode more ∧ link ∈ g.cells

/-- The other links that are yet to be answered use none of the cells of the group. -/
def Apart (g : LinkGroup) (s : Session) : Prop :=
  ∀ name ∉ g.names, ∀ relay, s.linkByName name = some (some relay) → relay.link ∉ g.cells

variable {g : LinkGroup} {s : Session}

theorem linkByName_without {name : String} (h : name ∉ g.names) :
    (s.without g).linkByName name = s.linkByName name :=
  if_neg h

theorem linkByInputHandle_without {handle : InputHandle} (h : s.Spares g handle) :
    (s.without g).linkByInputHandle handle = s.linkByInputHandle handle := by
  simp only [without, if_neg h.1]
  cases hrelay : s.linkByInputHandle handle with
  | none => rfl
  | some relay => simp [Option.filter, h.2 relay hrelay]

private theorem update_masked {K V : Type} [DecidableEq K] (p : K → Prop) (f : K → Option V) (k : K)
    (v : Option V) (hk : ¬p k) :
    Function.update (fun k => if p k then none else f k) k v =
      fun k' => if p k' then none else Function.update f k v k' := by
  funext k'
  by_cases h : k' = k
  · subst h
    simp [hk]
  · simp [h]

private theorem maskDeliveries_update
    {deliveries : Role × DeliveryNumber → Option (InputHandle × DeliveryTag)}
    {key : Role × DeliveryNumber} {record : Option (InputHandle × DeliveryTag)}
    (h : ∀ delivery, record = some delivery → key.1 = .sender → delivery.1 ∉ g.handles) :
    Function.update (g.maskDeliveries deliveries) key record =
      g.maskDeliveries (Function.update deliveries key record) := by
  funext other
  by_cases hother : other = key
  · subst hother
    cases record with
    | none => simp [LinkGroup.maskDeliveries]
    | some delivery =>
        by_cases hrole : other.1 = .sender
        · simp [LinkGroup.maskDeliveries, hrole, Option.filter, h delivery rfl hrole]
        · simp [LinkGroup.maskDeliveries, hrole]
  · simp [LinkGroup.maskDeliveries, hother]

theorem deliveryTagById_without {key : Role × DeliveryNumber} {handle : InputHandle}
    {tag : DeliveryTag} (hkey : s.deliveryTagById key = some (handle, tag))
    (hhandle : handle ∉ g.handles) : (s.without g).deliveryTagById key = some (handle, tag) := by
  simp [without, LinkGroup.maskDeliveries, hkey, Option.filter, hhandle]

theorem deliveryTagById_masked {key : Role × DeliveryNumber} {handle : InputHandle}
    {tag : DeliveryTag} (hkey : s.deliveryTagById key = some (handle, tag)) (hrole : key.1 = .sender)
    (hhandle : handle ∈ g.handles) : (s.without g).deliveryTagById key = none := by
  simp [without, LinkGroup.maskDeliveries, hkey, hrole, Option.filter, hhandle]

/-! ### Outgoing transfers -/

theorem onOutgoingTransferInner_without (item : BufferedTransfer) :
    (s.without g).onOutgoingTransferInner item =
      Prod.map id (without g) (s.onOutgoingTransferInner item) := by
  unfold onOutgoingTransferInner
  dsimp only
  split
  · split
    · rfl
    · next tag _ =>
        split
        · rfl
        · simp only [Prod.map, id, without, Prod.mk.injEq, true_and, Session.mk.injEq, and_true]
          exact maskDeliveries_update fun _ _ hrole => nomatch hrole
  · rfl

theorem drainBuffer_without (buffer : List BufferedTransfer) (frames : List SessionFrame) :
    (s.without g).drainBuffer buffer frames =
      Prod.map id (without g) (s.drainBuffer buffer frames) := by
  induction buffer generalizing s frames with
  | nil => rfl
  | cons item buffer ih =>
      simp only [drainBuffer, onOutgoingTransferInner_without]
      have hwindow : (s.without g).remoteIncomingWindow = s.remoteIncomingWindow := rfl
      rw [hwindow]
      split
      · cases s.onOutgoingTransferInner item with
        | mk result s' =>
            cases result with
            | error e => rfl
            | ok frame => exact ih _
      · rfl

theorem onOutgoingTransfer_without (item : BufferedTransfer) :
    (s.without g).onOutgoingTransfer item =
      Prod.map id (without g) (s.onOutgoingTransfer item) := by
  have hwindow : (s.without g).remoteIncomingWindow = s.remoteIncomingWindow := rfl
  have hbuffer : (s.without g).remoteIncomingWindowExhaustedBuffer =
      s.remoteIncomingWindowExhaustedBuffer := rfl
  simp only [onOutgoingTransfer, hwindow, hbuffer]
  split
  · rfl
  · split
    · rw [onOutgoingTransferInner_without]
      cases s.onOutgoingTransferInner item with
      | mk result s' => cases result <;> rfl
    · simp only [prepareSessionFramesFromBufferedAndCurrentTransfers,
        prepareSessionFramesFromBufferedTransfers, hbuffer, drainBuffer_without]
      cases s.drainBuffer s.remoteIncomingWindowExhaustedBuffer [] with
      | mk result s' =>
          cases result with
          | error e => rfl
          | ok frames =>
              have hwindow' : (s'.without g).remoteIncomingWindow = s'.remoteIncomingWindow := rfl
              simp only [Prod.map, id, hwindow', onOutgoingTransferInner_without]
              by_cases hopen : s'.remoteIncomingWindow > 0
              · simp only [if_pos hopen]
                cases s'.onOutgoingTransferInner item with
                | mk result s'' => cases result <;> rfl
              · simp only [if_neg hopen]
                rfl

/-! ### Flows -/

theorem onIncomingFlowInner_without {flow : Flow}
    (h : ∀ handle, flow.handle = some handle → s.Spares g ⟨handle⟩) :
    (s.without g).onIncomingFlowInner flow =
      Prod.map id (without g) (s.onIncomingFlowInner flow) := by
  cases hflow : flow.handle with
  | none => simp [onIncomingFlowInner, LinkFlow.tryFrom, hflow, applySessionFlow, without]
  | some handle =>
      have hspares : (s.applySessionFlow flow).Spares g ⟨handle⟩ := h handle hflow
      have happly : (s.without g).applySessionFlow flow = (s.applySessionFlow flow).without g := rfl
      simp only [onIncomingFlowInner, LinkFlow.tryFrom, hflow, Option.map_some, happly,
        linkByInputHandle_without hspares]
      cases hrelay : (s.applySessionFlow flow).linkByInputHandle ⟨handle⟩ with
      | none => rfl
      | some relay =>
          have hlinks : ((s.applySessionFlow flow).without g).links =
              (s.applySessionFlow flow).links.without g.cells := rfl
          simp only [hlinks, LinkRelay.onIncomingFlow_without (hspares.2 relay hrelay)]
          cases relay.onIncomingFlow (s.applySessionFlow flow).links _ with
          | mk result links => cases result <;> rfl

theorem onIncomingFlow_without {flow : Flow}
    (h : ∀ handle, flow.handle = some handle → s.Spares g ⟨handle⟩) :
    (s.without g).onIncomingFlow flow = Prod.map id (without g) (s.onIncomingFlow flow) := by
  simp only [onIncomingFlow, onIncomingFlowInner_without h]
  cases hinner : s.onIncomingFlowInner flow with
  | mk result s' =>
      cases result with
      | error e => rfl
      | ok reply =>
          have hwindow : (s'.without g).remoteIncomingWindow = s'.remoteIncomingWindow := rfl
          have hbuffer : (s'.without g).remoteIncomingWindowExhaustedBuffer =
              s'.remoteIncomingWindowExhaustedBuffer := rfl
          have hreply : reply.map (s'.without g).onOutgoingFlow = reply.map s'.onOutgoingFlow := rfl
          simp only [Prod.map, id, hwindow, hbuffer, hreply]
          split
          · simp only [prepareSessionFramesFromBufferedTransfers, hbuffer,
              drainBuffer_without]
            cases s'.drainBuffer s'.remoteIncomingWindowExhaustedBuffer _ with
            | mk result s'' => cases result <;> rfl
          · rfl

theorem maybeOutgoingSessionFlow_without :
    (s.without g).maybeOutgoingSessionFlow = Prod.map id (without g) s.maybeOutgoingSessionFlow := by
  have hstate : (s.without g).localState = s.localState := rfl
  have hcount : (s.without g).needFlowCount = s.needFlowCount := rfl
  have hwindow : (s.without g).incomingWindow = s.incomingWindow := rfl
  simp only [maybeOutgoingSessionFlow, hstate, hcount, hwindow]
  split
  · rfl
  · split <;> rfl

/-! ### Link allocation -/

theorem allocateLink_without {name : String} (h : name ∉ g.names)
    (relay : Option (LinkRelay Unit)) :
    (s.without g).allocateLink name relay =
      Prod.map id (without g) (s.allocateLink name relay) := by
  have hstate : (s.without g).localState = s.localState := rfl
  have hreason : (s.without g).sessionStopReason = s.sessionStopReason := rfl
  simp only [allocateLink, hstate, hreason, linkByName_without h]
  split
  · split
    · rfl
    · simp only [Prod.map, id, without, Prod.mk.injEq, true_and, Session.mk.injEq, and_true]
      exact update_masked (· ∈ g.names) _ _ _ h
  · split
    · rfl
    · split <;> rfl

theorem allocateIncomingLink_without {name : String} (h : name ∉ g.names) {relay : LinkRelay Unit}
    (hrelay : relay.link ∉ g.cells) {handle : InputHandle} (hhandle : handle ∉ g.handles) :
    (s.without g).allocateIncomingLink name relay handle =
      Prod.map id (without g) (s.allocateIncomingLink name relay handle) := by
  have hlink : ∀ outputHandle, (relay.withOutputHandle outputHandle).link ∉ g.cells := by
    intro outputHandle
    cases relay <;> exact hrelay
  simp only [allocateIncomingLink, allocateLink_without h]
  cases s.allocateLink name none with
  | mk result s' =>
      cases result with
      | error e => rfl
      | ok outputHandle =>
          simp only [Prod.map, id, without, Prod.mk.injEq, true_and, Session.mk.injEq, and_true]
          funext other
          by_cases hother : other = handle
          · subst hother
            simp [hhandle, Option.filter, hlink outputHandle]
          · simp [hother]

theorem deallocateLink_without (handle : OutputHandle) :
    (s.without g).deallocateLink handle = Prod.map id (without g) (s.deallocateLink handle) := by
  have hslab : (s.without g).linkNameByOutputHandle = s.linkNameByOutputHandle := rfl
  simp only [deallocateLink, hslab]
  cases s.linkNameByOutputHandle.tryRemove handle.handle.toNat with
  | mk removed slab =>
      cases removed with
      | none => rfl
      | some name =>
          simp only [Prod.map, id, without, Prod.mk.injEq, true_and, Session.mk.injEq, and_true]
          funext other
          by_cases hother : other = name
          · subst hother
            simp
          · simp [hother]

/-! ### Incoming frames -/

theorem onIncomingBegin_without (channel : UInt16) (begin' : Begin) :
    (s.without g).onIncomingBegin channel begin' =
      Prod.map id (without g) (s.onIncomingBegin channel begin') := by
  have hstate : (s.without g).localState = s.localState := rfl
  simp only [onIncomingBegin, hstate]
  split <;> rfl

theorem onIncomingEnd_without (end' : End) :
    (s.without g).onIncomingEnd end' = Prod.map id (without g) (s.onIncomingEnd end') := by
  have hstate : (s.without g).localState = s.localState := rfl
  simp only [onIncomingEnd, hstate]
  split <;> first | rfl | (split <;> rfl)

theorem onIncomingAttach_without (hs : s.Apart g) {attach : Attach} (hname : attach.name ∉ g.names)
    (hhandle : (⟨attach.handle⟩ : InputHandle) ∉ g.handles) :
    (s.without g).onIncomingAttach attach =
      Prod.map id (without g) (s.onIncomingAttach attach) := by
  simp only [onIncomingAttach, linkByName_without hname]
  cases hlink : s.linkByName attach.name with
  | none => rfl
  | some link =>
      cases link with
      | none => rfl
      | some relay =>
          have hapart : relay.link ∉ g.cells := hs attach.name hname relay hlink
          have hlinks : (s.without g).links = s.links.without g.cells := rfl
          have hnames : Function.update (s.without g).linkByName attach.name (some none) =
              fun name => if name ∈ g.names then none
                else Function.update s.linkByName attach.name (some none) name :=
            update_masked (· ∈ g.names) _ _ _ hname
          -- a sender takes over the settle mode of the peer, the rest is the same
          cases relay with
          | sender link outputHandle mode | receiver link outputHandle mode more =>
              have hlink' : link ∉ g.cells := hapart
              simp only [hlinks, hnames, LinkRelay.link, LinkStore.send_without hlink']
              cases s.links.send link (.attach attach) with
              | none => rfl
              | some links =>
                  simp only [Option.map_some, Prod.map, id, without, Prod.mk.injEq, true_and,
                    Session.mk.injEq, and_true]
                  funext other
                  by_cases hother : other = ⟨attach.handle⟩
                  · subst hother
                    simp [hhandle, Option.filter, LinkRelay.link, hlink']
                  · simp [hother]

theorem onIncomingTransfer_without {transfer : Transfer} (h : s.Spares g ⟨transfer.handle⟩)
    (payload : Payload) :
    (s.without g).onIncomingTransfer transfer payload =
      Prod.map id (without g) (s.onIncomingTransfer transfer payload) := by
  simp only [onIncomingTransfer, linkByInputHandle_without h]
  have hlinks : (s.without g).links = s.links.without g.cells := rfl
  cases hrelay : s.linkByInputHandle ⟨transfer.handle⟩ with
  | none => rfl
  | some relay =>
      have hapart := h.2 relay hrelay
      have hsame : (relay.onIncomingTransfer s.links transfer payload).2.1.link = relay.link :=
        LinkRelay.onIncomingTransfer_link relay s.links transfer payload
      simp only [hlinks, LinkRelay.onIncomingTransfer_without hapart]
      cases hout : relay.onIncomingTransfer s.links transfer payload with
      | mk result next =>
          cases next with
          | mk relay' links =>
              rw [hout] at hsame
              have hrelays : Function.update (s.without g).linkByInputHandle ⟨transfer.handle⟩
                  (some relay') = fun handle => if handle ∈ g.handles then none
                    else (Function.update s.linkByInputHandle ⟨transfer.handle⟩ (some relay')
                      handle).filter fun relay => relay.link ∉ g.cells := by
                funext other
                by_cases hother : other = ⟨transfer.handle⟩
                · subst hother
                  have hlink : relay'.link ∉ g.cells := by
                    rw [hsame]
                    exact hapart
                  simp [h.1, Option.filter, hlink]
                · simp [hother, without]
              cases result with
              | error e =>
                  simp only [Prod.map, id, hrelays]
                  rfl
              | ok delivery =>
                  cases delivery with
                  | none =>
                      simp only [Prod.map, id, hrelays]
                      rfl
                  | some delivery =>
                      simp only [Prod.map, id, hrelays]
                      simp only [without, Prod.mk.injEq, true_and, Session.mk.injEq, and_true]
                      refine maskDeliveries_update fun _ hdelivery _ => ?_
                      rw [← Option.some.inj hdelivery]
                      exact h.1

/-! ### Dispositions -/

theorem settleDelivery_without (disposition : Disposition) (id : DeliveryNumber)
    (h : s.Settles g (disposition.role, id)) :
    settleDelivery disposition (s.without g) id = (settleDelivery disposition s id).without g := by
  cases hkey : s.deliveryTagById (disposition.role, id) with
  | none => simp [settleDelivery, without, LinkGroup.maskDeliveries, hkey]
  | some delivery =>
      obtain ⟨handle, tag⟩ := delivery
      have hlinks : (s.without g).links = s.links.without g.cells := rfl
      have hremoved : Function.update (s.without g).deliveryTagById (disposition.role, id) none =
          g.maskDeliveries (Function.update s.deliveryTagById (disposition.role, id) none) :=
        maskDeliveries_update fun _ hdelivery => absurd hdelivery (Option.some_ne_none _).symm
      rcases h handle tag hkey with hspares | ⟨hrole, hown, hreceiver⟩
      · simp only [settleDelivery, deliveryTagById_without hkey hspares.1, hkey, hremoved,
          linkByInputHandle_without hspares]
        cases hrelay : s.linkByInputHandle handle with
        | none => rfl
        | some relay =>
            simp only [hlinks, LinkRelay.onIncomingDisposition_without (hspares.2 relay hrelay)]
            rfl
      · have hmasked := deliveryTagById_masked hkey hrole hown
        -- the record is masked, so that removing it is not seen
        rw [Function.update_eq_self_iff.mpr hmasked.symm] at hremoved
        simp only [settleDelivery, hmasked, hkey]
        cases hrelay : s.linkByInputHandle handle with
        | none => simp only [without, ← hremoved]
        | some relay =>
            obtain ⟨link, outputHandle, mode, more, rfl, hlink⟩ := hreceiver relay hrelay
            simp only [LinkRelay.onIncomingDisposition, without, ← hremoved,
              LinkStore.without_modify hlink]

theorem Settles.of_tables {s' : Session} {key : Role × DeliveryNumber} (h : s.Settles g key)
    (hrelays : s'.linkByInputHandle = s.linkByInputHandle)
    (hrecord : s'.deliveryTagById key = s.deliveryTagById key ∨ s'.deliveryTagById key = none) :
    s'.Settles g key := by
  intro handle tag hkey
  rcases hrecord with hsame | hnone
  · have hsettles := h handle tag (hsame ▸ hkey)
    unfold Spares at hsettles ⊢
    rw [hrelays]
    exact hsettles
  · rw [hnone] at hkey
    cases hkey

/-- What settling one delivery leaves in place. -/
theorem settleDelivery_tables (disposition : Disposition) (s : Session) (id : DeliveryNumber) :
    (settleDelivery disposition s id).linkByInputHandle = s.linkByInputHandle ∧
      ∀ key, (settleDelivery disposition s id).deliveryTagById key = s.deliveryTagById key ∨
        (settleDelivery disposition s id).deliveryTagById key = none := by
  unfold settleDelivery
  dsimp only
  have hupdate : ∀ key, Function.update s.deliveryTagById (disposition.role, id) none key =
      s.deliveryTagById key ∨
        Function.update s.deliveryTagById (disposition.role, id) none key = none := by
    intro key
    by_cases h : key = (disposition.role, id)
    · exact .inr (by simp [h])
    · exact .inl (by simp [h])
  split
  · exact ⟨rfl, fun key => .inl rfl⟩
  · split
    · exact ⟨rfl, hupdate⟩
    · exact ⟨rfl, hupdate⟩

theorem foldl_settleDelivery_without (disposition : Disposition) (ids : List DeliveryNumber)
    (h : ∀ id ∈ ids, s.Settles g (disposition.role, id)) :
    ids.foldl (settleDelivery disposition) (s.without g) =
      (ids.foldl (settleDelivery disposition) s).without g := by
  induction ids generalizing s with
  | nil => rfl
  | cons id ids ih =>
      simp only [List.foldl_cons]
      rw [settleDelivery_without disposition id (h id (by simp))]
      obtain ⟨hrelays, hrecords⟩ := settleDelivery_tables disposition s id
      apply ih
      intro id' hid'
      exact (h id' (by simp [hid'])).of_tables hrelays (hrecords _)

theorem updateDelivery_without (disposition : Disposition) (ids : List DeliveryNumber)
    (id : DeliveryNumber) (h : s.Settles g (disposition.role, id)) :
    updateDelivery disposition (ids, s.without g) id =
      Prod.map (fun echoed => echoed) (without g) (updateDelivery disposition (ids, s) id) := by
  cases hkey : s.deliveryTagById (disposition.role, id) with
  | none => simp [updateDelivery, without, LinkGroup.maskDeliveries, hkey]
  | some delivery =>
      obtain ⟨handle, tag⟩ := delivery
      have hlinks : (s.without g).links = s.links.without g.cells := rfl
      rcases h handle tag hkey with hspares | ⟨hrole, hown, hreceiver⟩
      · simp only [updateDelivery, deliveryTagById_without hkey hspares.1, hkey,
          linkByInputHandle_without hspares]
        cases hrelay : s.linkByInputHandle handle with
        | none => rfl
        | some relay =>
            simp only [hlinks, LinkRelay.onIncomingDisposition_without (hspares.2 relay hrelay)]
            rfl
      · have hmasked := deliveryTagById_masked hkey hrole hown
        simp only [updateDelivery, hmasked, hkey]
        cases hrelay : s.linkByInputHandle handle with
        | none => rfl
        | some relay =>
            obtain ⟨link, outputHandle, mode, more, rfl, hlink⟩ := hreceiver relay hrelay
            simp [LinkRelay.onIncomingDisposition, without, LinkStore.without_modify hlink]

theorem updateDelivery_tables (disposition : Disposition) (acc : List DeliveryNumber × Session)
    (id : DeliveryNumber) :
    (updateDelivery disposition acc id).2.linkByInputHandle = acc.2.linkByInputHandle ∧
      (updateDelivery disposition acc id).2.deliveryTagById = acc.2.deliveryTagById := by
  unfold updateDelivery
  dsimp only
  split
  · exact ⟨rfl, rfl⟩
  · split <;> exact ⟨rfl, rfl⟩

theorem foldl_updateDelivery_without (disposition : Disposition) (ids : List DeliveryNumber)
    (h : ∀ id ∈ ids, s.Settles g (disposition.role, id)) (echoed : List DeliveryNumber) :
    ids.foldl (updateDelivery disposition) (echoed, s.without g) =
      Prod.map id (without g) (ids.foldl (updateDelivery disposition) (echoed, s)) := by
  induction ids generalizing s echoed with
  | nil => rfl
  | cons id ids ih =>
      simp only [List.foldl_cons]
      rw [updateDelivery_without disposition echoed id (h id (by simp))]
      obtain ⟨hrelays, hrecords⟩ := updateDelivery_tables disposition (echoed, s) id
      apply ih
      intro id' hid'
      exact (h id' (by simp [hid'])).of_tables hrelays (.inl (congrFun hrecords _))

theorem onIncomingDisposition_without {disposition : Disposition}
    (h : ∀ id ∈ deliveryIds disposition.first (disposition.last.getD disposition.first),
      s.Settles g (disposition.role, id)) :
    (s.without g).onIncomingDisposition disposition =
      Prod.map id (without g) (s.onIncomingDisposition disposition) := by
  simp only [onIncomingDisposition, foldl_settleDelivery_without disposition _ h,
    foldl_updateDelivery_without disposition _ h]
  split <;> rfl

/-! ### Detaches and the rest -/

theorem onIncomingDetach_without {detach : Detach} (h : s.Spares g ⟨detach.handle⟩) :
    (s.without g).onIncomingDetach detach =
      Prod.map id (without g) (s.onIncomingDetach detach) := by
  simp only [onIncomingDetach, linkByInputHandle_without h]
  have hlinks : (s.without g).links = s.links.without g.cells := rfl
  have hpending : (s.without g).closePending = s.closePending := rfl
  cases hrelay : s.linkByInputHandle ⟨detach.handle⟩ with
  | none => rfl
  | some relay =>
      simp only [hlinks, hpending, LinkRelay.onIncomingDetach_without (h.2 relay hrelay)]
      simp only [Prod.map, id, without, Prod.mk.injEq, true_and, Session.mk.injEq, and_true]
      funext other
      by_cases hother : other = ⟨detach.handle⟩
      · subst hother
        simp
      · simp [hother]

theorem sendEnd_without (error : Option Error) :
    (s.without g).sendEnd error = Prod.map id (without g) (s.sendEnd error) := by
  have hstate : (s.without g).localState = s.localState := rfl
  simp only [sendEnd, hstate]
  split <;> rfl

theorem onOutgoingDisposition_without (disposition : Disposition) :
    (s.without g).onOutgoingDisposition disposition =
      Prod.map id (without g) (s.onOutgoingDisposition disposition) := by
  simp only [onOutgoingDisposition]
  split <;> split <;> rfl

theorem sendDispositions_without (dispositions : List Disposition) :
    (s.without g).sendDispositions dispositions =
      Prod.map id (without g) (s.sendDispositions dispositions) := by
  induction dispositions generalizing s with
  | nil => rfl
  | cons disposition dispositions ih =>
      simp only [sendDispositions, onOutgoingDisposition_without, Prod.map, id, ih]

theorem onOutgoingDetach_without (detach : Detach) (expectsEcho : Bool) :
    (s.without g).onOutgoingDetach detach expectsEcho =
      Prod.map id (without g) (s.onOutgoingDetach detach expectsEcho) := by
  simp only [onOutgoingDetach, deallocateLink_without]
  cases s.deallocateLink ⟨detach.handle⟩ with
  | mk deallocated s' => cases expectsEcho <;> cases deallocated <;> rfl

end Session

end Fe2o3Amqp
