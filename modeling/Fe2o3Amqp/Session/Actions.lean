import Fe2o3Amqp.Session.Dispositions

/-!
# Runs of a session

A session run is a list of actions in any order: what the peer sends, what the links hand over, the
allocation requests of the engine's control channel and what link endpoints do to the state they
share with the session.  An action that fails leaves the session as the failing call left it and
the run goes on.
-/

namespace Fe2o3Amqp

/-- Flows, transfers and dispositions. -/
def SessionFrame.isTraffic (frame : SessionFrame) : Bool :=
  match frame.body with
  | .flow _ | .transfer _ _ | .disposition _ => true
  | _ => false

namespace Session

/-- One action and the frames it puts on the outgoing queue. -/
def act (s : Session) : SessionAction → Session × List SessionFrame
  | .incoming pending frame =>
      let out := s.onIncoming pending frame
      (out.session, out.frames)
  | .linkFrame frame _ =>
      let out := s.onOutgoingLinkFrames frame
      (out.session, out.frames)
  | .allocateLink name relay => ((s.allocateLink name relay).2, [])
  | .allocateIncomingLink name relay handle => ((s.allocateIncomingLink name relay handle).2, [])
  | .deallocateLink handle => ((s.deallocateLink handle).2, [])
  | .sendBegin =>
      match s.sendBegin with
      | (.ok frame, s) => (s, [frame])
      | (.error _, s) => (s, [])
  | .sendEnd error =>
      match s.sendEnd error with
      | (.ok frame, s) => (s, [frame])
      | (.error _, s) => (s, [])
  | .register link tag msg => (s.withLinks (s.links.register link tag msg), [])
  | .endpoint links => (s.withLinks links, [])

/-- An incoming End changes the two stop fields only, and the answer to it is the only frame it
can make the session emit; it unmaps the session. -/
theorem dispatchEnd_frame (s : Session) (pending : List LinkFrame) (end' : End) :
    ∃ localState reason, (s.dispatchEnd pending end').session =
        { s with localState := localState, sessionStopReason := reason } ∧
      ((s.dispatchEnd pending end').frames = [] ∨
        localState = .unmapped ∧
          ∃ end'', (s.dispatchEnd pending end').frames = [⟨s.outgoingChannel, .end end''⟩]) := by
  have hend : ∃ localState, (s.onIncomingEnd end').2 = { s with localState := localState } := by
    simp only [onIncomingEnd]
    split
    all_goals first | (split <;> exact ⟨_, rfl⟩) | exact ⟨s.localState, rfl⟩
  obtain ⟨localState, hstate⟩ := hend
  simp only [dispatchEnd]
  generalize s.onIncomingEnd end' = outcome at hstate ⊢
  obtain ⟨result, s'⟩ := outcome
  simp only at hstate ⊢
  subst hstate
  split_ifs with hreceived
  · generalize hreason : setSessionStopReason _ _ = s''
    have hfields : s'' = { s with
        localState := localState, sessionStopReason := s''.sessionStopReason } := by
      rw [← hreason]
      rfl
    have hreceived' : s''.localState = .endReceived := by
      rw [← hreason]
      exact hreceived
    obtain ⟨hsession, hframes⟩ := s''.drainLinkFrames_of_ne_mapped pending (by simp [hreceived'])
    split
    · rw [hsession, hframes]
      exact ⟨localState, s''.sessionStopReason, hfields, .inl rfl⟩
    · rw [hsession, hframes]
      simp only [sendEnd, hreceived']
      have hchannel : s''.outgoingChannel = s.outgoingChannel := by rw [hfields]
      split
      · refine ⟨.unmapped, s''.sessionStopReason, ?_, .inr ⟨rfl, ⟨none⟩, by simp [dispatched, hchannel]⟩⟩
        rw [hfields]
        rfl
      · refine ⟨.unmapped, s''.sessionStopReason, ?_, .inr ⟨rfl, ⟨none⟩, by simp [hchannel]⟩⟩
        rw [hfields]
  · split <;> exact ⟨localState, s.sessionStopReason, rfl, .inl rfl⟩

/-! ## What the operations leave alone -/

/-- What the emission of transfers depends on: the counter of deliveries, the peer's window and the
transfers that wait for it. -/
def sending (s : Session) : DeliveryNumber × SequenceNo × List BufferedTransfer :=
  (s.nextOutgoingDeliveryId, s.remoteIncomingWindow, s.remoteIncomingWindowExhaustedBuffer)

theorem onIncomingAttach_frame (s : Session) (attach : Attach) :
    ∃ links names relays, (s.onIncomingAttach attach).2 =
      { s with links := links, linkByName := names, linkByInputHandle := relays } := by
  simp only [onIncomingAttach]
  split
  · exact ⟨_, _, _, rfl⟩
  · exact ⟨_, _, _, rfl⟩
  · split <;> exact ⟨_, _, _, rfl⟩

theorem onIncomingTransfer_frame (s : Session) (transfer : Transfer) (payload : Payload) :
    ∃ links relays tags, (s.onIncomingTransfer transfer payload).2 =
      { s with
        nextIncomingId := s.nextIncomingId + 1
        remoteOutgoingWindow := s.remoteOutgoingWindow.saturatingSub 1
        needFlowCount := s.needFlowCount.saturatingAdd 1
        links := links, linkByInputHandle := relays, deliveryTagById := tags } := by
  simp only [onIncomingTransfer]
  split
  · exact ⟨_, _, _, rfl⟩
  · split <;> exact ⟨_, _, _, rfl⟩

theorem onIncomingDisposition_frame (s : Session) (disposition : Disposition) :
    ∃ links tags, (s.onIncomingDisposition disposition).2 =
      { s with links := links, deliveryTagById := tags } := by
  have hsettle : ∀ (s : Session) (id : DeliveryNumber), ∃ links tags,
      settleDelivery disposition s id = { s with links := links, deliveryTagById := tags } := by
    intro s id
    simp only [settleDelivery]
    split
    · exact ⟨_, _, rfl⟩
    · split <;> exact ⟨_, _, rfl⟩
  have hupdate : ∀ (acc : List DeliveryNumber × Session) (id : DeliveryNumber), ∃ links tags,
      (updateDelivery disposition acc id).2 =
        { acc.2 with links := links, deliveryTagById := tags } := by
    intro acc id
    simp only [updateDelivery]
    split
    · exact ⟨_, _, rfl⟩
    · split <;> exact ⟨_, _, rfl⟩
  simp only [onIncomingDisposition]
  generalize deliveryIds _ _ = ids
  split_ifs
  · induction ids generalizing s with
    | nil => exact ⟨_, _, rfl⟩
    | cons id ids ih =>
        obtain ⟨links, tags, hone⟩ := hsettle s id
        obtain ⟨links', tags', hrest⟩ := ih (settleDelivery disposition s id)
        refine ⟨links', tags', ?_⟩
        rw [List.foldl_cons, hrest, hone]
  · have hfold : ∀ acc : List DeliveryNumber × Session, ∃ links tags,
        (ids.foldl (updateDelivery disposition) acc).2 =
          { acc.2 with links := links, deliveryTagById := tags } := by
      induction ids with
      | nil => exact fun acc => ⟨_, _, rfl⟩
      | cons id ids ih =>
          intro acc
          obtain ⟨links, tags, hone⟩ := hupdate acc id
          obtain ⟨links', tags', hrest⟩ := ih (updateDelivery disposition acc id)
          refine ⟨links', tags', ?_⟩
          rw [List.foldl_cons, hrest, hone]
    exact hfold ([], s)

theorem allocateIncomingLink_frame (s : Session) (name : String) (relay : LinkRelay Unit)
    (handle : InputHandle) :
    ∃ slab names relays, (s.allocateIncomingLink name relay handle).2 =
      { s with
        linkNameByOutputHandle := slab, linkByName := names, linkByInputHandle := relays } := by
  obtain ⟨slab, names, hframe⟩ := s.allocateLink_frame name none
  simp only [allocateIncomingLink]
  cases hresult : s.allocateLink name none with
  | mk result s' =>
      rw [hresult] at hframe
      simp only at hframe
      subst hframe
      cases result <;> exact ⟨_, _, _, rfl⟩

theorem deallocateLink_frame (s : Session) (handle : OutputHandle) :
    ∃ slab names, (s.deallocateLink handle).2 =
      { s with linkNameByOutputHandle := slab, linkByName := names } := by
  simp only [deallocateLink]
  split <;> exact ⟨_, _, rfl⟩

theorem onIncomingDetach_frame (s : Session) (detach : Detach) :
    ∃ links relays pending, (s.onIncomingDetach detach).2 =
      { s with links := links, linkByInputHandle := relays, closePending := pending } := by
  simp only [onIncomingDetach]
  split <;> exact ⟨_, _, _, rfl⟩

theorem onOutgoingDetach_frame (s : Session) (detach : Detach) (expectsEcho : Bool) :
    ∃ slab names pending, (s.onOutgoingDetach detach expectsEcho).2 =
      { s with
        linkNameByOutputHandle := slab, linkByName := names, closePending := pending } := by
  obtain ⟨slab, names, hdealloc⟩ := s.deallocateLink_frame ⟨detach.handle⟩
  simp only [onOutgoingDetach, hdealloc]
  split_ifs <;> exact ⟨_, _, _, rfl⟩

theorem onOutgoingDisposition_frame (s : Session) (disposition : Disposition) :
    ∃ window, (s.onOutgoingDisposition disposition).2 =
      { s with remoteOutgoingWindow := window } := by
  simp only [onOutgoingDisposition]
  split <;> split_ifs <;> exact ⟨_, rfl⟩

theorem sendDispositions_frame (s : Session) (dispositions : List Disposition) :
    ∃ window, (s.sendDispositions dispositions).2 = { s with remoteOutgoingWindow := window } := by
  induction dispositions generalizing s with
  | nil => exact ⟨_, rfl⟩
  | cons disposition dispositions ih =>
      obtain ⟨window, hone⟩ := s.onOutgoingDisposition_frame disposition
      obtain ⟨window', hrest⟩ := ih (s.onOutgoingDisposition disposition).2
      refine ⟨window', ?_⟩
      simp only [sendDispositions]
      rw [hrest, hone]

theorem maybeOutgoingSessionFlow_frame (s : Session) :
    ∃ count, s.maybeOutgoingSessionFlow.2 = { s with needFlowCount := count } := by
  simp only [maybeOutgoingSessionFlow]
  split_ifs <;> exact ⟨_, rfl⟩

theorem onIncomingBegin_frame (s : Session) (channel : UInt16) (begin' : Begin) :
    ∃ localState incomingChannel nextIncomingId incomingWindow outgoingWindow,
      (s.onIncomingBegin channel begin').2 =
        { s with
          localState := localState, incomingChannel := incomingChannel
          nextIncomingId := nextIncomingId, remoteIncomingWindow := incomingWindow
          remoteOutgoingWindow := outgoingWindow } := by
  simp only [onIncomingBegin]
  split <;> exact ⟨_, _, _, _, _, rfl⟩

theorem onOutgoingTransferInner_frame (s : Session) (item : BufferedTransfer) :
    ∃ nextId nextDeliveryId window tags, (s.onOutgoingTransferInner item).2 =
      { s with
        nextOutgoingId := nextId, nextOutgoingDeliveryId := nextDeliveryId
        remoteIncomingWindow := window, deliveryTagById := tags } := by
  simp only [onOutgoingTransferInner]
  split
  · split
    · exact ⟨_, _, _, _, rfl⟩
    · split <;> exact ⟨_, _, _, _, rfl⟩
  · exact ⟨_, _, _, _, rfl⟩

theorem drainBuffer_frame (s : Session) (buffer : List BufferedTransfer)
    (frames : List SessionFrame) :
    ∃ nextId nextDeliveryId window tags rest, (s.drainBuffer buffer frames).2 =
      { s with
        nextOutgoingId := nextId, nextOutgoingDeliveryId := nextDeliveryId
        remoteIncomingWindow := window, deliveryTagById := tags
        remoteIncomingWindowExhaustedBuffer := rest } := by
  induction buffer generalizing s frames with
  | nil => exact ⟨_, _, _, _, _, rfl⟩
  | cons item buffer ih =>
      obtain ⟨nextId, nextDeliveryId, window, tags, hinner⟩ := s.onOutgoingTransferInner_frame item
      simp only [drainBuffer]
      split
      · cases hsend : s.onOutgoingTransferInner item with
        | mk result s' =>
            rw [hsend] at hinner
            simp only at hinner
            subst hinner
            cases result with
            | error e => exact ⟨_, _, _, _, _, rfl⟩
            | ok frame =>
                obtain ⟨nextId', nextDeliveryId', window', tags', rest', hrest⟩ :=
                  ih _ (frames ++ [frame])
                exact ⟨nextId', nextDeliveryId', window', tags', rest', hrest⟩
      · exact ⟨_, _, _, _, _, rfl⟩

theorem onIncomingFlow_frame (s : Session) (flow : Flow) :
    ∃ nextIncomingId remoteOutgoingWindow links nextId nextDeliveryId window tags rest,
      (s.onIncomingFlow flow).2 =
        { s with
          nextIncomingId := nextIncomingId, remoteOutgoingWindow := remoteOutgoingWindow
          links := links, nextOutgoingId := nextId, nextOutgoingDeliveryId := nextDeliveryId
          remoteIncomingWindow := window, deliveryTagById := tags
          remoteIncomingWindowExhaustedBuffer := rest } := by
  have hinner : ∃ links, (s.onIncomingFlowInner flow).2 = (s.applySessionFlow flow).withLinks links := by
    simp only [onIncomingFlowInner]
    split
    · exact ⟨_, rfl⟩
    · split
      · exact ⟨_, rfl⟩
      · split <;> exact ⟨_, rfl⟩
  obtain ⟨links, hinner⟩ := hinner
  simp only [onIncomingFlow]
  cases hflow : s.onIncomingFlowInner flow with
  | mk result s' =>
      rw [hflow] at hinner
      simp only at hinner
      subst hinner
      cases result with
      | error e => exact ⟨_, _, _, _, _, _, _, _, rfl⟩
      | ok reply =>
          simp only
          split_ifs
          · simp only [prepareSessionFramesFromBufferedTransfers]
            generalize (reply.map _).toList = frames
            obtain ⟨nextId, nextDeliveryId, window, tags, rest, hdrain⟩ :=
              ((s.applySessionFlow flow).withLinks links).drainBuffer_frame
                ((s.applySessionFlow flow).withLinks links).remoteIncomingWindowExhaustedBuffer frames
            split
            · next heq =>
                rw [heq] at hdrain
                simp only at hdrain
                rw [hdrain]
                exact ⟨_, _, _, _, _, _, _, _, rfl⟩
            · next heq =>
                rw [heq] at hdrain
                simp only at hdrain
                rw [hdrain]
                exact ⟨_, _, _, _, _, _, _, _, rfl⟩
          · exact ⟨_, _, _, _, _, _, _, _, rfl⟩

/-! ## What the operations emit -/

/-- The frames of a fallible call. -/
def okFrames {α : Type} (frames : α → List SessionFrame) :
    Except SessionInnerError α → List SessionFrame
  | .ok a => frames a
  | .error _ => []

theorem onOutgoingTransferInner_traffic (s : Session) (item : BufferedTransfer) :
    ∀ frame ∈ okFrames (fun frame => [frame]) (s.onOutgoingTransferInner item).1,
      frame.isTraffic := by
  simp only [onOutgoingTransferInner]
  split
  · split
    · simp [okFrames]
    · simp [okFrames, SessionFrame.isTraffic]
  · simp [okFrames, SessionFrame.isTraffic]

theorem drainBuffer_traffic (s : Session) (buffer : List BufferedTransfer)
    (frames : List SessionFrame) (h : ∀ frame ∈ frames, frame.isTraffic) :
    ∀ frame ∈ okFrames id (s.drainBuffer buffer frames).1, frame.isTraffic := by
  induction buffer generalizing s frames with
  | nil => exact h
  | cons item buffer ih =>
      have hinner := s.onOutgoingTransferInner_traffic item
      simp only [drainBuffer]
      split
      · cases hsend : s.onOutgoingTransferInner item with
        | mk result s' =>
            rw [hsend] at hinner
            cases result with
            | error e => simp [okFrames]
            | ok frame =>
                have hone := hinner frame (by simp [okFrames])
                refine ih s' (frames ++ [frame]) fun frame' hmem => ?_
                rcases List.mem_append.mp hmem with hmem | hmem
                · exact h frame' hmem
                · simp only [List.mem_singleton] at hmem
                  exact hmem ▸ hone
      · exact h

theorem onOutgoingTransfer_traffic (s : Session) (item : BufferedTransfer) :
    ∀ frame ∈ okFrames itemFrames (s.onOutgoingTransfer item).1, frame.isTraffic := by
  have hinner := fun s : Session => s.onOutgoingTransferInner_traffic item
  simp only [onOutgoingTransfer]
  split_ifs with hwindow hbuffer
  · simp [okFrames, itemFrames]
  · have hsent := hinner s
    cases hsend : s.onOutgoingTransferInner item with
    | mk result s' =>
        rw [hsend] at hsent
        cases result <;> exact hsent
  · have hdrained := s.drainBuffer_traffic s.remoteIncomingWindowExhaustedBuffer [] (by simp)
    simp only [prepareSessionFramesFromBufferedAndCurrentTransfers,
      prepareSessionFramesFromBufferedTransfers]
    cases hdrain : s.drainBuffer s.remoteIncomingWindowExhaustedBuffer [] with
    | mk result s' =>
        rw [hdrain] at hdrained
        cases result with
        | error e => simp [okFrames]
        | ok frames =>
            simp only
            split_ifs with hopen
            · have hsent := hinner s'
              cases hsend : s'.onOutgoingTransferInner item with
              | mk result s'' =>
                  rw [hsend] at hsent
                  cases result with
                  | error e => simp [okFrames]
                  | ok frame =>
                      intro frame' hmem
                      rcases List.mem_append.mp hmem with hmem | hmem
                      · exact hdrained frame' hmem
                      · exact hsent frame' hmem
            · exact hdrained

theorem onIncomingFlow_traffic (s : Session) (flow : Flow) :
    ∀ frame ∈ okFrames itemFrames (s.onIncomingFlow flow).1, frame.isTraffic := by
  simp only [onIncomingFlow]
  cases s.onIncomingFlowInner flow with
  | mk result s' =>
      cases result with
      | error e => simp [okFrames]
      | ok reply =>
          have hreply : ∀ frame ∈ (reply.map s'.onOutgoingFlow).toList, frame.isTraffic := by
            cases reply <;> simp [onOutgoingFlow, SessionFrame.isTraffic]
          simp only
          split_ifs
          · have hdrained := s'.drainBuffer_traffic s'.remoteIncomingWindowExhaustedBuffer _ hreply
            simp only [prepareSessionFramesFromBufferedTransfers]
            cases hdrain : s'.drainBuffer s'.remoteIncomingWindowExhaustedBuffer
                (reply.map s'.onOutgoingFlow).toList with
            | mk result s'' =>
                rw [hdrain] at hdrained
                cases result with
                | error e => simp [okFrames]
                | ok frames => exact hdrained
          · cases reply with
            | none => simp [okFrames, itemFrames]
            | some reply => exact hreply

theorem sendDispositions_traffic (s : Session) (dispositions : List Disposition) :
    ∀ frame ∈ (s.sendDispositions dispositions).1, frame.isTraffic := by
  induction dispositions generalizing s with
  | nil => simp [sendDispositions]
  | cons disposition dispositions ih =>
      intro frame hmem
      simp only [sendDispositions, List.mem_cons] at hmem
      rcases hmem with rfl | hmem
      · rfl
      · exact ih _ frame hmem

theorem maybeOutgoingSessionFlow_traffic (s : Session) :
    ∀ frame ∈ itemFrames s.maybeOutgoingSessionFlow.1, frame.isTraffic := by
  simp only [maybeOutgoingSessionFlow]
  split_ifs <;> simp [itemFrames, onOutgoingSessionFlow, SessionFrame.isTraffic]

/-- What an incoming frame other than Begin, Flow and End can change. -/
theorem onIncoming_frame (s : Session) (pending : List LinkFrame) (frame : SessionFrame)
    (hbegin : ∀ begin', frame.body ≠ .begin begin') (hflow : ∀ flow, frame.body ≠ .flow flow)
    (hend : ∀ end', frame.body ≠ .end end') :
    (∃ nextIncomingId outgoingWindow needFlowCount links slab names relays tags closing,
      (s.onIncoming pending frame).session =
        { s with
          nextIncomingId := nextIncomingId, remoteOutgoingWindow := outgoingWindow
          needFlowCount := needFlowCount, links := links, linkNameByOutputHandle := slab
          linkByName := names, linkByInputHandle := relays, deliveryTagById := tags
          closePending := closing }) ∧
      transfersOf (s.onIncoming pending frame).frames = [] := by
  cases hbody : frame.body with
  | begin begin' => exact absurd hbody (hbegin begin')
  | flow flow => exact absurd hbody (hflow flow)
  | «end» end' => exact absurd hbody (hend end')
  | attach attach =>
      obtain ⟨links, names, relays, hframe⟩ := s.onIncomingAttach_frame attach
      simp only [onIncoming, hbody]
      cases hattach : s.onIncomingAttach attach with
      | mk result s' =>
          rw [hattach] at hframe
          simp only at hframe
          subst hframe
          cases result <;> exact ⟨⟨_, _, _, _, _, _, _, _, _, rfl⟩, rfl⟩
  | transfer performative payload =>
      obtain ⟨links, relays, tags, hframe⟩ := s.onIncomingTransfer_frame performative payload
      simp only [onIncoming, hbody]
      cases htransfer : s.onIncomingTransfer performative payload with
      | mk result s' =>
          rw [htransfer] at hframe
          simp only at hframe
          subst hframe
          cases result with
          | error e => exact ⟨⟨_, _, _, _, _, _, _, _, _, rfl⟩, rfl⟩
          | ok disposition =>
              generalize hs' : ({ s with
                nextIncomingId := s.nextIncomingId + 1
                remoteOutgoingWindow := s.remoteOutgoingWindow.saturatingSub 1
                needFlowCount := s.needFlowCount.saturatingAdd 1
                links := links, linkByInputHandle := relays, deliveryTagById := tags } : Session) = s'
              obtain ⟨window, hsend⟩ := s'.sendDispositions_frame disposition.toList
              obtain ⟨count, hcount⟩ :=
                (s'.sendDispositions disposition.toList).2.maybeOutgoingSessionFlow_frame
              have hplain := transfersOf_of_isPlain (s'.sendDispositions_plain disposition.toList)
              refine ⟨?_, ?_⟩
              · simp only [dispatched]
                rw [hcount, hsend, ← hs']
                exact ⟨_, _, _, _, _, _, _, _, _, rfl⟩
              · simp only [dispatched, transfersOf_append, hplain, List.nil_append]
                simp only [maybeOutgoingSessionFlow]
                split_ifs <;> rfl
  | disposition disposition =>
      obtain ⟨links, tags, hframe⟩ := s.onIncomingDisposition_frame disposition
      obtain ⟨window, hsend⟩ := (s.onIncomingDisposition disposition).2.sendDispositions_frame
        ((s.onIncomingDisposition disposition).1.getD [])
      simp only [onIncoming, hbody, dispatched]
      refine ⟨?_, transfersOf_of_isPlain (sendDispositions_plain _ _)⟩
      rw [hsend, hframe]
      exact ⟨_, _, _, _, _, _, _, _, _, rfl⟩
  | detach detach =>
      obtain ⟨links, relays, closing, hframe⟩ := s.onIncomingDetach_frame detach
      simp only [onIncoming, hbody]
      cases hdetach : s.onIncomingDetach detach with
      | mk reply s' =>
          rw [hdetach] at hframe
          simp only at hframe
          cases reply with
          | none =>
              subst hframe
              exact ⟨⟨_, _, _, _, _, _, _, _, _, rfl⟩, rfl⟩
          | some reply =>
              obtain ⟨slab, names, closing', hreply⟩ := s'.onOutgoingDetach_frame reply false
              refine ⟨?_, transfersOf_of_isPlain (s'.onOutgoingDetach_plain reply false)⟩
              simp only [dispatched]
              rw [hreply, hframe]
              exact ⟨_, _, _, _, _, _, _, _, _, rfl⟩

/-- An incoming frame other than Begin and Flow leaves the waiting transfers alone and emits none. -/
theorem onIncoming_sending (s : Session) (pending : List LinkFrame) (frame : SessionFrame)
    (hbegin : ∀ begin', frame.body ≠ .begin begin') (hflow : ∀ flow, frame.body ≠ .flow flow) :
    (s.onIncoming pending frame).session.sending = s.sending ∧
      transfersOf (s.onIncoming pending frame).frames = [] := by
  by_cases hend : ∃ end', frame.body = .end end'
  · obtain ⟨end', hend⟩ := hend
    obtain ⟨localState, reason, hsession, hframes⟩ := s.dispatchEnd_frame pending end'
    simp only [onIncoming, hend]
    refine ⟨by rw [hsession]; rfl, ?_⟩
    rcases hframes with hframes | ⟨-, end'', hframes⟩ <;> rw [hframes] <;> rfl
  · obtain ⟨⟨_, _, _, _, _, _, _, _, _, hsession⟩, hframes⟩ := s.onIncoming_frame pending frame
      hbegin hflow fun end' hbody => hend ⟨end', hbody⟩
    refine ⟨?_, hframes⟩
    rw [hsession]
    rfl

/-- Only Begin and End change the local state. -/
theorem onIncoming_localState (s : Session) (pending : List LinkFrame) (frame : SessionFrame)
    (hbegin : ∀ begin', frame.body ≠ .begin begin') (hend : ∀ end', frame.body ≠ .end end') :
    (s.onIncoming pending frame).session.localState = s.localState := by
  by_cases hflow : ∃ flow, frame.body = .flow flow
  · obtain ⟨flow, hflow⟩ := hflow
    obtain ⟨_, _, _, _, _, _, _, _, hframe⟩ := s.onIncomingFlow_frame flow
    simp only [onIncoming, hflow]
    cases hresult : s.onIncomingFlow flow with
    | mk result s' =>
        rw [hresult] at hframe
        simp only at hframe
        subst hframe
        cases result <;> rfl
  · obtain ⟨⟨_, _, _, _, _, _, _, _, _, hsession⟩, -⟩ := s.onIncoming_frame pending frame
      hbegin (fun flow hbody => hflow ⟨flow, hbody⟩) hend
    rw [hsession]

end Session

end Fe2o3Amqp
