import Fe2o3Amqp.Session.Strangers

/-!
# What the traffic of other links leaves alone

A relay stays registered on its input handle until a frame for that handle takes it off, and the
flow state of a link is changed by the Flows for the link only.
-/

namespace Fe2o3Amqp

namespace LinkStore

/-- The flow states of all links. -/
def flowStates (store : LinkStore) (link : LinkId) : LinkFlowStateInner := (store.cell link).flowState

variable {store : LinkStore} {link : LinkId}

theorem flowStates_modify (f : LinkCell → LinkCell)
    (h : (f (store.cell link)).flowState = (store.cell link).flowState) :
    (store.modify link f).flowStates = store.flowStates := by
  funext other
  by_cases hother : other = link
  · subst hother
    simpa [flowStates, modify] using h
  · simp [flowStates, modify, hother]

theorem flowStates_modify_other {other : LinkId} (h : other ≠ link) (f : LinkCell → LinkCell) :
    (store.modify link f).flowStates other = store.flowStates other := by
  simp [flowStates, modify, h]

theorem flowStates_resolve (sender : OneshotId)
    (result : Except LinkStateError (Option DeliveryState)) :
    (store.resolve sender result).flowStates = store.flowStates :=
  rfl

theorem flowStates_of_send {store' : LinkStore} {frame : LinkFrame}
    (h : store.send link frame = some store') : store'.flowStates = store.flowStates := by
  unfold send at h
  split at h
  · cases h
  · rw [← Option.some.inj h]
    apply flowStates_modify
    rfl

theorem flowStates_settle (tag : DeliveryTag) (state : Option DeliveryState) :
    (store.settle link tag state).flowStates = store.flowStates := by
  unfold settle
  split
  · rfl
  · split
    · rfl
    · rw [flowStates_resolve]
      apply flowStates_modify
      rfl

theorem flowStates_failPendingUnsettled (detach : Detach) :
    (store.failPendingUnsettled link detach).flowStates = store.flowStates := by
  have hresolve : ∀ (error : LinkStateError) (entries : List (DeliveryTag × UnsettledMessage))
      (store : LinkStore), (entries.foldl (fun store entry =>
        store.resolve entry.2.sender (.error error)) store).flowStates = store.flowStates := by
    intro error entries
    induction entries with
    | nil => exact fun store => rfl
    | cons entry entries ih => exact fun store => ih (store.resolve entry.2.sender (.error error))
  unfold failPendingUnsettled
  split
  · rfl
  · dsimp only
    rw [hresolve]
    apply flowStates_modify
    rfl

end LinkStore

namespace LinkRelay

variable {relay : LinkRelay OutputHandle} {store : LinkStore}

/-- The flow state after a Flow for the link. -/
def flowed (relay : LinkRelay OutputHandle) (state : LinkFlowStateInner) (flow : LinkFlow) :
    LinkFlowStateInner :=
  match relay with
  | .sender _ outputHandle _ => (state.senderOnIncomingFlow flow outputHandle).1
  | .receiver _ outputHandle _ _ => (state.receiverOnIncomingFlow flow outputHandle).1

theorem onIncomingFlow_flowStates (store : LinkStore) {other : LinkId} (h : other ≠ relay.link)
    (flow : LinkFlow) :
    (relay.onIncomingFlow store flow).2.flowStates other = store.flowStates other := by
  cases relay with
  | sender link outputHandle mode =>
      have hother : other ≠ link := h
      simp only [onIncomingFlow]
      cases acquisitionTxnId flow with
      | none =>
          dsimp only
          exact LinkStore.flowStates_modify_other hother _
      | some txnId =>
          dsimp only
          cases hsend : store.send link (.acquisition txnId) with
          | none => rfl
          | some store' =>
              dsimp only
              rw [LinkStore.flowStates_modify_other hother, LinkStore.flowStates_of_send hsend]
  | receiver link outputHandle mode more =>
      have hother : other ≠ link := h
      simp only [onIncomingFlow]
      exact LinkStore.flowStates_modify_other hother _

theorem onIncomingDisposition_flowStates (settled : Bool) (state : Option DeliveryState)
    (tag : DeliveryTag) :
    (relay.onIncomingDisposition store settled state tag).2.flowStates = store.flowStates := by
  cases relay with
  | sender link outputHandle mode =>
      have hmodify : ∀ state : Option DeliveryState, (store.modify link fun cell =>
          { cell with
            senderUnsettled := cell.senderUnsettled.map fun m =>
              m.modify tag fun msg => { msg with state } }).flowStates = store.flowStates := by
        intro state
        apply LinkStore.flowStates_modify
        rfl
      simp only [onIncomingDisposition]
      split
      · exact LinkStore.flowStates_settle _ _
      · split
        · split
          · exact LinkStore.flowStates_settle _ _
          · exact hmodify _
        · exact hmodify _
  | receiver link outputHandle mode more =>
      simp only [onIncomingDisposition]
      apply LinkStore.flowStates_modify
      rfl

theorem onIncomingTransfer_flowStates (relay : LinkRelay OutputHandle) (store : LinkStore)
    (transfer : Transfer) (payload : Payload) :
    (relay.onIncomingTransfer store transfer payload).2.2.flowStates = store.flowStates := by
  cases relay with
  | sender link outputHandle mode => rfl
  | receiver link outputHandle mode more =>
      simp only [onIncomingTransfer]
      split
      · rfl
      · next store' hsend =>
          have hsame := LinkStore.flowStates_of_send hsend
          split
          · exact hsame
          · cases mode with
            | first => exact hsame
            | second =>
                dsimp only
                split
                · exact hsame
                · split <;> exact hsame

theorem onIncomingDetach_flowStates (detach : Detach) (remoteInitiated : Bool) :
    (relay.onIncomingDetach store detach remoteInitiated).2.flowStates = store.flowStates := by
  have hforwarded : ((store.send relay.link (.detach detach)).getD store).flowStates =
      store.flowStates := by
    cases hsend : store.send relay.link (.detach detach) with
    | none => rfl
    | some store' => exact LinkStore.flowStates_of_send hsend
  simp only [onIncomingDetach]
  cases relay with
  | sender link outputHandle mode =>
      dsimp only
      split
      · split
        · rw [LinkStore.flowStates_failPendingUnsettled]
          exact hforwarded
        · exact hforwarded
      · split
        · rw [LinkStore.flowStates_failPendingUnsettled]
          exact hforwarded
        · exact hforwarded
  | receiver link outputHandle mode more => exact hforwarded

end LinkRelay

namespace Session

/-- The relay registered on the handle and the flow state of the link are as before. -/
structure Untouched (handle : InputHandle) (link : LinkId) (s s' : Session) : Prop where
  relay : s'.linkByInputHandle handle = s.linkByInputHandle handle
  flow : s'.links.flowStates link = s.links.flowStates link

variable {handle : InputHandle} {link : LinkId} {s : Session}

namespace Untouched

theorem of_eq {s' : Session} (hrelays : s'.linkByInputHandle = s.linkByInputHandle)
    (hflows : s'.links.flowStates = s.links.flowStates) : Untouched handle link s s' :=
  ⟨congrFun hrelays handle, congrFun hflows link⟩

theorem refl (s : Session) : Untouched handle link s s := of_eq rfl rfl

theorem trans {s' s'' : Session} (h : Untouched handle link s s')
    (h' : Untouched handle link s' s'') : Untouched handle link s s'' :=
  ⟨h'.relay.trans h.relay, h'.flow.trans h.flow⟩

end Untouched

/-! ## Outgoing frames -/

theorem onOutgoingTransfer_frame (s : Session) (item : BufferedTransfer) :
    ∃ nextId nextDeliveryId window tags rest, (s.onOutgoingTransfer item).2 =
      { s with
        nextOutgoingId := nextId, nextOutgoingDeliveryId := nextDeliveryId
        remoteIncomingWindow := window, deliveryTagById := tags
        remoteIncomingWindowExhaustedBuffer := rest } := by
  simp only [onOutgoingTransfer]
  split_ifs with hwindow hempty
  · exact ⟨_, _, _, _, _, rfl⟩
  · obtain ⟨_, _, _, _, hinner⟩ := s.onOutgoingTransferInner_frame item
    cases hsend : s.onOutgoingTransferInner item with
    | mk result s' =>
        rw [hsend] at hinner
        simp only at hinner
        subst hinner
        cases result <;> exact ⟨_, _, _, _, _, rfl⟩
  · obtain ⟨_, _, _, _, _, hdrain⟩ := s.drainBuffer_frame s.remoteIncomingWindowExhaustedBuffer []
    simp only [prepareSessionFramesFromBufferedAndCurrentTransfers,
      prepareSessionFramesFromBufferedTransfers]
    cases hout : s.drainBuffer s.remoteIncomingWindowExhaustedBuffer [] with
    | mk result s' =>
        rw [hout] at hdrain
        simp only at hdrain
        cases result with
        | error e =>
            subst hdrain
            exact ⟨_, _, _, _, _, rfl⟩
        | ok frames =>
            obtain ⟨_, _, _, _, hinner⟩ := s'.onOutgoingTransferInner_frame item
            simp only
            by_cases hopen : s'.remoteIncomingWindow > 0
            · simp only [if_pos hopen]
              cases hsend : s'.onOutgoingTransferInner item with
              | mk result s'' =>
                  rw [hsend] at hinner
                  simp only at hinner
                  subst hinner
                  subst hdrain
                  cases result <;> exact ⟨_, _, _, _, _, rfl⟩
            · simp only [if_neg hopen]
              subst hdrain
              exact ⟨_, _, _, _, _, rfl⟩

theorem onOutgoingLinkFrames_untouched (s : Session) (handle : InputHandle) (link : LinkId)
    (frame : LinkFrame) :
    Untouched handle link s (s.onOutgoingLinkFrames frame).session := by
  have htransfer : ∀ item : BufferedTransfer, ∀ out : Dispatched,
      out = s.dispatchTransfer item → Untouched handle link s out.session := by
    rintro item _ rfl
    obtain ⟨_, _, _, _, _, hframe⟩ := s.onOutgoingTransfer_frame item
    unfold dispatchTransfer
    cases hsend : s.onOutgoingTransfer item with
    | mk result s' =>
        rw [hsend] at hframe
        simp only at hframe
        subst hframe
        cases result <;> exact .of_eq rfl rfl
  by_cases hmapped : s.localState = .mapped
  · have hdispatch : ¬s.localState ≠ .mapped := not_not_intro hmapped
    simp only [onOutgoingLinkFrames, if_neg hdispatch]
    cases frame with
    | firstTransfer frame => exact htransfer _ _ rfl
    | transferContinuation frame => exact htransfer _ _ rfl
    | disposition disposition =>
        obtain ⟨_, hframe⟩ := s.onOutgoingDisposition_frame disposition
        simp only [dispatched]
        rw [hframe]
        exact .of_eq rfl rfl
    | detach detach =>
        obtain ⟨_, _, _, hframe⟩ := s.onOutgoingDetach_frame detach true
        simp only [dispatched]
        rw [hframe]
        exact .of_eq rfl rfl
    | attach attach => exact .refl s
    | flow flow => exact .refl s
    | remoteTransfer frame => exact .refl s
    | acquisition txnId => exact .refl s
  · simp only [onOutgoingLinkFrames, if_pos hmapped]
    exact .refl s

theorem drainLinkFrames_untouched (s : Session) (handle : InputHandle) (link : LinkId)
    (pending : List LinkFrame) :
    Untouched handle link s (s.drainLinkFrames pending).session := by
  induction pending generalizing s with
  | nil => exact .refl s
  | cons frame pending ih =>
      have hfirst := s.onOutgoingLinkFrames_untouched handle link frame
      simp only [drainLinkFrames]
      split
      · exact hfirst
      · exact hfirst.trans (ih _)

theorem sendEnd_untouched (s : Session) (handle : InputHandle) (link : LinkId)
    (error : Option Error) : Untouched handle link s (s.sendEnd error).2 := by
  unfold sendEnd
  dsimp only
  split <;> exact .of_eq rfl rfl

theorem controlEnd_untouched (s : Session) (handle : InputHandle) (link : LinkId)
    (pending : List LinkFrame) (error : Option Error) :
    Untouched handle link s (s.controlEnd pending error).session := by
  unfold controlEnd
  dsimp only
  generalize hs' : s.setSessionStopReason _ = s'
  have hreason : Untouched handle link s s' := by
    rw [← hs']
    exact .of_eq rfl rfl
  have hdrained := hreason.trans (s'.drainLinkFrames_untouched handle link pending)
  have hsent := hdrained.trans
    ((s'.drainLinkFrames pending).session.sendEnd_untouched handle link error)
  split
  · exact hdrained
  · cases hend : (s'.drainLinkFrames pending).session.sendEnd error with
    | mk sent s'' =>
        rw [hend] at hsent
        cases sent <;> exact hsent

theorem endWithoutHandles_untouched (s : Session) (handle : InputHandle) (link : LinkId)
    (pending : List LinkFrame) : Untouched handle link s (s.endWithoutHandles pending).2 := by
  induction pending generalizing s with
  | nil =>
      have hreason : Untouched handle link s
          (s.setSessionStopReason s.stopReasonFromConnection) := .of_eq rfl rfl
      have hsent := hreason.trans (sendEnd_untouched _ handle link none)
      unfold endWithoutHandles
      cases hend : (s.setSessionStopReason s.stopReasonFromConnection).sendEnd none with
      | mk sent s' =>
          rw [hend] at hsent
          cases sent <;> exact hsent
  | cons frame pending ih =>
      have hreason : Untouched handle link s
          (s.setSessionStopReason s.stopReasonFromConnection) := .of_eq rfl rfl
      have hfirst := hreason.trans (onOutgoingLinkFrames_untouched _ handle link frame)
      exact hfirst.trans (ih _)

theorem allocateIncomingLink_untouched (link : LinkId) {inputHandle : InputHandle}
    (h : inputHandle ≠ handle) (linkName : String) (linkRelay : LinkRelay Unit) :
    Untouched handle link s (s.allocateIncomingLink linkName linkRelay inputHandle).2 := by
  obtain ⟨_, _, hframe⟩ := s.allocateLink_frame linkName none
  simp only [allocateIncomingLink]
  cases hresult : s.allocateLink linkName none with
  | mk result s' =>
      rw [hresult] at hframe
      simp only at hframe
      subst hframe
      cases result with
      | error e => exact .of_eq rfl rfl
      | ok outputHandle =>
          refine ⟨?_, rfl⟩
          simp [Ne.symm h]

/-! ## Incoming frames -/

theorem onIncomingFlow_untouched (handle : InputHandle) {flow : Flow}
    (h : ∀ other, flow.handle = some other → ∀ relay, s.linkByInputHandle ⟨other⟩ = some relay →
      relay.link ≠ link) :
    Untouched handle link s (s.onIncomingFlow flow).2 := by
  have hinner : Untouched handle link s (s.onIncomingFlowInner flow).2 := by
    cases hflow : flow.handle with
    | none =>
        simp only [onIncomingFlowInner, LinkFlow.tryFrom, hflow, Option.map_none]
        exact .of_eq rfl rfl
    | some other =>
        simp only [onIncomingFlowInner, LinkFlow.tryFrom, hflow, Option.map_some]
        split
        · exact .of_eq rfl rfl
        · next relay hrelay =>
            have hlink := (h other hflow relay hrelay).symm
            generalize hlinkFlow : LinkFlow.mk _ _ _ _ _ _ _ = linkFlow
            have hother := LinkRelay.onIncomingFlow_flowStates (s.applySessionFlow flow).links hlink
              linkFlow
            cases hout : relay.onIncomingFlow (s.applySessionFlow flow).links linkFlow with
            | mk result links =>
                rw [hout] at hother
                cases result <;> exact ⟨rfl, hother⟩
  simp only [onIncomingFlow]
  cases hresult : s.onIncomingFlowInner flow with
  | mk result s' =>
      rw [hresult] at hinner
      cases result with
      | error e => exact hinner
      | ok reply =>
          dsimp only
          split
          · obtain ⟨_, _, _, _, _, hdrain⟩ := s'.drainBuffer_frame
              s'.remoteIncomingWindowExhaustedBuffer (reply.map s'.onOutgoingFlow).toList
            simp only [prepareSessionFramesFromBufferedTransfers]
            cases hout : s'.drainBuffer s'.remoteIncomingWindowExhaustedBuffer
                (reply.map s'.onOutgoingFlow).toList with
            | mk result s'' =>
                rw [hout] at hdrain
                simp only at hdrain
                subst hdrain
                cases result <;> exact hinner.trans (.of_eq rfl rfl)
          · exact hinner

theorem onIncomingTransfer_untouched (link : LinkId) {transfer : Transfer}
    (h : (⟨transfer.handle⟩ : InputHandle) ≠ handle) (payload : Payload) :
    Untouched handle link s (s.onIncomingTransfer transfer payload).2 := by
  simp only [onIncomingTransfer]
  split
  · exact .of_eq rfl rfl
  · next relay hrelay =>
      have hflows := relay.onIncomingTransfer_flowStates s.links transfer payload
      have hupdate : ∀ relay', Function.update s.linkByInputHandle ⟨transfer.handle⟩ relay' handle =
          s.linkByInputHandle handle := by
        intro relay'
        simp [Ne.symm h]
      cases hout : relay.onIncomingTransfer s.links transfer payload with
      | mk result next =>
          rw [hout] at hflows
          cases result with
          | error e => exact ⟨hupdate _, congrFun hflows link⟩
          | ok delivery =>
              cases delivery with
              | none => exact ⟨hupdate _, congrFun hflows link⟩
              | some delivery => exact ⟨hupdate _, congrFun hflows link⟩

theorem onIncomingDisposition_untouched (s : Session) (handle : InputHandle) (link : LinkId)
    (disposition : Disposition) :
    Untouched handle link s (s.onIncomingDisposition disposition).2 := by
  have hsettle : ∀ (ids : List DeliveryNumber) (s : Session),
      Untouched handle link s (ids.foldl (settleDelivery disposition) s) := by
    intro ids
    induction ids with
    | nil => exact fun s => .refl s
    | cons id ids ih =>
        intro s
        refine Untouched.trans ?_ (ih _)
        unfold settleDelivery
        dsimp only
        split
        · exact .refl s
        · split
          · exact .of_eq rfl rfl
          · exact .of_eq rfl (LinkRelay.onIncomingDisposition_flowStates _ _ _)
  have hupdate : ∀ (ids : List DeliveryNumber) (acc : List DeliveryNumber × Session),
      Untouched handle link acc.2 (ids.foldl (updateDelivery disposition) acc).2 := by
    intro ids
    induction ids with
    | nil => exact fun acc => .refl acc.2
    | cons id ids ih =>
        intro acc
        refine Untouched.trans ?_ (ih _)
        unfold updateDelivery
        dsimp only
        split
        · exact .refl acc.2
        · split
          · exact .refl acc.2
          · exact .of_eq rfl (LinkRelay.onIncomingDisposition_flowStates _ _ _)
  simp only [onIncomingDisposition]
  split
  · exact hsettle _ s
  · exact hupdate _ ([], s)

theorem onIncomingDetach_untouched (link : LinkId) {detach : Detach}
    (h : (⟨detach.handle⟩ : InputHandle) ≠ handle) :
    Untouched handle link s (s.onIncomingDetach detach).2 := by
  simp only [onIncomingDetach]
  split
  · exact .refl s
  · next relay hrelay =>
      refine ⟨?_, ?_⟩
      · simp [Ne.symm h]
      · exact congrFun (LinkRelay.onIncomingDetach_flowStates _ _) link

theorem onIncomingAttach_untouched (link : LinkId) {attach : Attach}
    (h : (⟨attach.handle⟩ : InputHandle) = handle →
      ∀ relay, s.linkByName attach.name ≠ some (some relay)) :
    Untouched handle link s (s.onIncomingAttach attach).2 := by
  simp only [onIncomingAttach]
  split
  · exact .refl s
  · exact .refl s
  · next relay hrelay =>
      have hne : handle ≠ ⟨attach.handle⟩ := fun heq => h heq.symm relay hrelay
      split
      · exact .of_eq rfl rfl
      · next links hsend =>
          refine ⟨?_, congrFun (LinkStore.flowStates_of_send hsend) link⟩
          simp [hne]

theorem dispatchEnd_untouched (s : Session) (handle : InputHandle) (link : LinkId)
    (pending : List LinkFrame) (end' : End) :
    Untouched handle link s (s.dispatchEnd pending end').session := by
  obtain ⟨_, _, hsession, -⟩ := s.dispatchEnd_frame pending end'
  rw [hsession]
  exact .of_eq rfl rfl

/-- A frame that leaves the registration on the handle and the flow state of the link alone. -/
def Leaves (handle : InputHandle) (link : LinkId) (s : Session) (frame : SessionFrame) : Prop :=
  match frame.body with
  | .attach attach => (⟨attach.handle⟩ : InputHandle) = handle →
      ∀ relay, s.linkByName attach.name ≠ some (some relay)
  | .flow flow => ∀ other, flow.handle = some other →
      ∀ relay, s.linkByInputHandle ⟨other⟩ = some relay → relay.link ≠ link
  | .transfer performative _ => (⟨performative.handle⟩ : InputHandle) ≠ handle
  | .detach detach => (⟨detach.handle⟩ : InputHandle) ≠ handle
  | _ => True

theorem sendDispositions_untouched (s : Session) (handle : InputHandle) (link : LinkId)
    (dispositions : List Disposition) :
    Untouched handle link s (s.sendDispositions dispositions).2 := by
  obtain ⟨_, hframe⟩ := s.sendDispositions_frame dispositions
  rw [hframe]
  exact .of_eq rfl rfl

theorem maybeOutgoingSessionFlow_untouched (s : Session) (handle : InputHandle) (link : LinkId) :
    Untouched handle link s s.maybeOutgoingSessionFlow.2 := by
  obtain ⟨_, hframe⟩ := s.maybeOutgoingSessionFlow_frame
  rw [hframe]
  exact .of_eq rfl rfl

theorem onIncoming_untouched (pending : List LinkFrame) {frame : SessionFrame}
    (h : s.Leaves handle link frame) :
    Untouched handle link s (s.onIncoming pending frame).session := by
  obtain ⟨channel, body⟩ := frame
  cases body with
  | begin begin' =>
      obtain ⟨_, _, _, _, _, hframe⟩ := s.onIncomingBegin_frame channel begin'
      simp only [onIncoming]
      cases hresult : s.onIncomingBegin channel begin' with
      | mk result s' =>
          rw [hresult] at hframe
          simp only at hframe
          subst hframe
          cases result <;> exact .of_eq rfl rfl
  | attach attach =>
      have hattach := onIncomingAttach_untouched link h
      simp only [onIncoming]
      cases hresult : s.onIncomingAttach attach with
      | mk result s' =>
          rw [hresult] at hattach
          cases result <;> exact hattach
  | flow flow =>
      have hflow := onIncomingFlow_untouched handle h
      simp only [onIncoming]
      cases hresult : s.onIncomingFlow flow with
      | mk result s' =>
          rw [hresult] at hflow
          cases result <;> exact hflow
  | transfer performative payload =>
      have htransfer := onIncomingTransfer_untouched (s := s) link h payload
      simp only [onIncoming]
      cases hresult : s.onIncomingTransfer performative payload with
      | mk result s' =>
          rw [hresult] at htransfer
          cases result with
          | error e => exact htransfer
          | ok disposition =>
              exact (htransfer.trans (s'.sendDispositions_untouched handle link _)).trans
                (maybeOutgoingSessionFlow_untouched _ handle link)
  | disposition disposition =>
      exact (s.onIncomingDisposition_untouched handle link disposition).trans
        (sendDispositions_untouched _ handle link _)
  | detach detach =>
      have hdetach := onIncomingDetach_untouched (s := s) link h
      simp only [onIncoming]
      cases hresult : s.onIncomingDetach detach with
      | mk reply s' =>
          rw [hresult] at hdetach
          cases reply with
          | none => exact hdetach
          | some reply =>
              obtain ⟨_, _, _, hframe⟩ := s'.onOutgoingDetach_frame reply false
              refine hdetach.trans ?_
              simp only [dispatched]
              rw [hframe]
              exact .of_eq rfl rfl
  | «end» end' => exact s.dispatchEnd_untouched handle link pending end'

end Session

/-! ## The engine -/

namespace SessionEngine

open Session (Untouched Dispatched)

variable {handle : InputHandle} {link : LinkId} {e : SessionEngine}

/-- An event that leaves the registration on the handle and the flow state of the link alone. -/
def Leaves (handle : InputHandle) (link : LinkId) (e : SessionEngine) : SessionEngineEvent → Prop
  | .incoming (some frame) => e.session.Leaves handle link frame
  | .control (some (.allocateIncomingLink _ _ inputHandle _)) => inputHandle ≠ handle
  | .endpoint links => links.flowStates link = e.session.links.flowStates link
  | _ => True

theorem endSession_untouched (e : SessionEngine) (handle : InputHandle) (link : LinkId)
    (cause : SessionInnerError) (error : Option Error) :
    Untouched handle link e.session (e.endSession cause error).1.session := by
  have hsend := e.session.sendEnd_untouched handle link error
  unfold endSession
  cases hresult : e.session.sendEnd error with
  | mk result s =>
      rw [hresult] at hsend
      have hstopped : ∀ reason, Untouched handle link e.session (s.setSessionStopReason reason) :=
        fun _ => hsend.trans (.of_eq rfl rfl)
      split
      · exact .of_eq rfl rfl
      · cases result with
        | error error => exact hstopped _
        | ok frame => exact hsend
      · cases result with
        | error error => exact hstopped _
        | ok frame => exact hsend
      · cases result with
        | error error => exact hstopped _
        | ok frame => exact hsend
      · exact .refl _
      · cases result with
        | error error => exact hstopped _
        | ok frame => exact hstopped _
      · exact .refl _

theorem onError_untouched (e : SessionEngine) (handle : InputHandle) (link : LinkId)
    (error : SessionInnerError) : Untouched handle link e.session (e.onError error).1.session := by
  unfold onError
  split
  · exact .of_eq rfl rfl
  · exact e.endSession_untouched handle link _ _

theorem settle_untouched (e : SessionEngine) (handle : InputHandle) (link : LinkId)
    (out : Dispatched) : Untouched handle link out.session (e.settle out).1.session := by
  unfold settle
  dsimp only
  split
  · exact .refl _
  · exact .of_eq rfl rfl
  · exact (e.withSession out.session).onError_untouched handle link _

theorem onHandlesDropped_untouched (e : SessionEngine) (handle : InputHandle) (link : LinkId) :
    Untouched handle link e.session e.onHandlesDropped.1.session := by
  have hend := e.session.endWithoutHandles_untouched handle link e.outgoingLinkFrames
  have hstopped : ∀ reason, Untouched handle link e.session
      ((e.session.endWithoutHandles e.outgoingLinkFrames).2.setSessionStopReason reason) :=
    fun _ => hend.trans (.of_eq rfl rfl)
  unfold onHandlesDropped
  dsimp only
  split
  · split
    · exact hend
    · exact hend
    · exact hstopped _
  · split
    · exact hend
    · exact hend
    · exact hstopped _
  · exact .refl _
  · exact .refl _
  · exact .of_eq rfl rfl

theorem onControl_untouched {control : SessionControl}
    (h : e.Leaves handle link (.control (some control))) :
    Untouched handle link e.session (e.onControl control).1.session := by
  have hsettle : ∀ (e' : SessionEngine) (out : Dispatched), Untouched handle link e.session out.session →
      Untouched handle link e.session (e'.settle out).1.session :=
    fun e' out hout => hout.trans (e'.settle_untouched handle link out)
  cases control with
  | «end» error =>
      exact hsettle e.closeLinkFrames _ (e.session.controlEnd_untouched handle link _ error)
  | allocateLink linkName linkRelay responderDropped =>
      refine hsettle e _ ?_
      obtain ⟨_, _, hframe⟩ := e.session.allocateLink_frame linkName (some linkRelay)
      rw [Session.responded_session, hframe]
      exact .of_eq rfl rfl
  | allocateIncomingLink linkName linkRelay inputHandle responderDropped =>
      refine hsettle e _ ?_
      rw [Session.responded_session]
      exact Session.allocateIncomingLink_untouched link h linkName linkRelay
  | deallocateLink outputHandle =>
      obtain ⟨_, _, hframe⟩ := e.session.deallocateLink_frame outputHandle
      refine hsettle e ((e.session.deallocateLink outputHandle).2.dispatched []) ?_
      simp only [Session.dispatched]
      rw [hframe]
      exact .of_eq rfl rfl
  | disposition disposition =>
      obtain ⟨_, hframe⟩ := e.session.onOutgoingDisposition_frame disposition
      refine hsettle e ((e.session.onOutgoingDisposition disposition).2.dispatched
        [(e.session.onOutgoingDisposition disposition).1]) ?_
      simp only [Session.dispatched]
      rw [hframe]
      exact .of_eq rfl rfl
  | closeConnectionWithError condition description =>
      exact hsettle _ (e.session.dispatched []) (.refl _)
  | allocateTransactionId responderDropped =>
      refine hsettle e _ ?_
      rw [Session.responded_session]
      exact .refl _
  | commitTransaction txnId responderDropped =>
      refine hsettle e _ ?_
      rw [Session.responded_session]
      exact .refl _
  | rollbackTransaction txnId responderDropped =>
      refine hsettle e _ ?_
      rw [Session.responded_session]
      exact .refl _
  | abortTransaction txnId => exact hsettle e (e.session.dispatched []) (.refl _)

theorem step_untouched {event : SessionEngineEvent} (h : e.Leaves handle link event) :
    Untouched handle link e.session (e.step event).1.session := by
  cases event with
  | incoming frame =>
      cases frame with
      | none =>
          unfold step
          dsimp only
          split
          · next hnone => cases hnone
          · split
            · exact .of_eq rfl rfl
            · exact .of_eq rfl rfl
            · exact e.onError_untouched handle link _
          · next hnone => cases hnone
          · exact .of_eq rfl rfl
          · next hnone => cases hnone
          · exact .of_eq rfl rfl
          · exact .refl _
      | some frame =>
          have hout := Session.onIncoming_untouched e.outgoingLinkFrames h
          have hstopped : ∀ reason, Untouched handle link e.session
              ((e.session.onIncoming e.outgoingLinkFrames frame).session.setSessionStopReason
                reason) :=
            fun _ => hout.trans (.of_eq rfl rfl)
          unfold step
          cases hphase : e.phase with
          | eventLoop => exact hout.trans (settle_untouched _ handle link _)
          | waitForRemoteEnd discardOtherFrame thenEnd cause =>
              dsimp only
              unfold onWaiting
              split
              · next end' _ =>
                  have hend : Untouched handle link e.session (e.session.onIncomingEnd end').2 := by
                    unfold Session.onIncomingEnd
                    split <;> first | exact .refl _ | (dsimp only; split <;> exact .of_eq rfl rfl)
                  have hended : ∀ reason, Untouched handle link e.session
                      ((e.session.onIncomingEnd end').2.setSessionStopReason reason) :=
                    fun _ => hend.trans (.of_eq rfl rfl)
                  split
                  · cases hresult : e.session.onIncomingEnd end' with
                    | mk result s =>
                        rw [hresult] at hended
                        cases result <;> exact hended _
                  · exact .of_eq rfl rfl
              · split
                · exact .refl _
                · dsimp only
                  split
                  · exact hout
                  · exact hstopped _
          | handlesDropped =>
              exact hout.trans ((e.withSession (e.session.onIncoming e.outgoingLinkFrames
                frame).session).onHandlesDropped_untouched handle link)
          | stopped outcome => exact .refl _
  | control control =>
      unfold step
      dsimp only
      split
      · exact onControl_untouched h
      · exact e.onHandlesDropped_untouched handle link
      · exact .refl _
  | linkFrame =>
      unfold step
      dsimp only
      split
      · next frame pending _ _ =>
          exact (e.session.onOutgoingLinkFrames_untouched handle link frame).trans
            (settle_untouched _ handle link _)
      · exact .refl _
  | handOver frame =>
      unfold step
      dsimp only
      split
      · exact .refl _
      · split <;> exact .refl _
  | endpoint links => exact ⟨rfl, h⟩
  | connectionStop reason => exact .of_eq rfl rfl

end SessionEngine

end Fe2o3Amqp
