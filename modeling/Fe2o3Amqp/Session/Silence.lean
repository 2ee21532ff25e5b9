import Fe2o3Amqp.Session.GracefulEnd

/-!
# After the End

An engine that has put its End on the outgoing queue goes on handling incoming frames and controls
until the End of the peer arrives, and some of them make it emit further frames.  This file says
which: without them the End is the last frame of every run, and a session in `Discarding` is left
alone.
-/

namespace Fe2o3Amqp

def SessionFrame.isEnd (frame : SessionFrame) : Bool :=
  match frame.body with
  | .end _ => true
  | _ => false

theorem SessionFrame.isEnd_of_isTraffic {frame : SessionFrame} (h : frame.isTraffic) :
    frame.isEnd = false := by
  cases hbody : frame.body <;> simp_all [isTraffic, isEnd]

/-- A flow that its link answers: a drain or an echo request for a sender, an echo request for a
receiver. -/
def LinkRelay.answers (relay : LinkRelay OutputHandle) (flow : Flow) : Bool :=
  match relay with
  | .sender .. => flow.drain || flow.echo
  | .receiver .. => flow.echo

/-- A relay replies nothing to a flow that it does not answer. -/
theorem LinkRelay.onIncomingFlow_of_answers {relay : LinkRelay OutputHandle} {flow : Flow}
    (h : relay.answers flow = false) {linkFlow : LinkFlow}
    (hflow : LinkFlow.tryFrom flow = some linkFlow) {store links : LinkStore}
    {reply : Option LinkFlow} (hreply : relay.onIncomingFlow store linkFlow = (.ok reply, links)) :
    reply = none := by
  obtain ⟨handle, -, rfl⟩ := Option.map_eq_some_iff.mp hflow
  cases relay with
  | sender link outputHandle mode =>
      obtain ⟨hdrain, hecho⟩ : flow.drain = false ∧ flow.echo = false := by simpa [answers] using h
      simp only [onIncomingFlow] at hreply
      split at hreply
      · cases hreply
      · simp only [LinkFlowStateInner.senderOnIncomingFlow, hdrain, hecho] at hreply
        cases hreply
        rfl
  | receiver link outputHandle mode more =>
      have hecho : flow.echo = false := h
      simp only [onIncomingFlow, LinkFlowStateInner.receiverOnIncomingFlow, hecho] at hreply
      cases hreply
      rfl

namespace Session

/-- The deliveries of a disposition that belong to a sender link whose receiver settles second. -/
def echoIds (s : Session) (disposition : Disposition) : List DeliveryNumber :=
  (deliveryIds disposition.first (disposition.last.getD disposition.first)).filter fun id =>
    match s.deliveryTagById (disposition.role, id) with
    | none => false
    | some (handle, _) =>
        match s.linkByInputHandle handle with
        | some (.sender _ _ receiverSettleMode) => receiverSettleMode == .second
        | _ => false

/-- The flow lets no waiting transfer go. -/
def ReleasesNothing (s : Session) (flow : Flow) : Prop :=
  s.remoteIncomingWindowExhaustedBuffer = [] ∨ (s.applySessionFlow flow).remoteIncomingWindow = 0

/-- An incoming frame that makes a session that has sent its End emit nothing: no flow that a link
answers or that releases a waiting transfer, no disposition whose echoes have a gap, no Detach that
has to be answered. -/
def Unanswered (s : Session) (frame : SessionFrame) : Prop :=
  match frame.body with
  | .flow flow =>
      match flow.handle with
      | none => s.ReleasesNothing flow
      | some handle =>
          ∀ relay, s.linkByInputHandle ⟨handle⟩ = some relay →
            relay.answers flow = false ∧ s.ReleasesNothing flow
  | .disposition disposition =>
      disposition.settled = true ∨ consecutiveChunkIndices (s.echoIds disposition) = []
  | .detach detach =>
      ∀ relay, s.linkByInputHandle ⟨detach.handle⟩ = some relay →
        s.closePending relay.outputHandle = true
  | _ => True

/-- An incoming frame that finds nothing to change in the session. -/
def Ignores (s : Session) (frame : SessionFrame) : Prop :=
  match frame.body with
  | .begin _ | .end _ => True
  | .flow _ | .transfer _ _ => False
  | .attach attach => ∀ relay, s.linkByName attach.name ≠ some (some relay)
  | .disposition disposition =>
      ∀ id ∈ deliveryIds disposition.first (disposition.last.getD disposition.first),
        s.deliveryTagById (disposition.role, id) = none
  | .detach detach => s.linkByInputHandle ⟨detach.handle⟩ = none

/-! ## One incoming frame -/

variable {s : Session}

theorem ReleasesNothing.not_open {flow : Flow} (h : s.ReleasesNothing flow) (links : LinkStore) :
    ¬(((s.applySessionFlow flow).withLinks links).remoteIncomingWindow > 0 ∧
      ((s.applySessionFlow flow).withLinks links).remoteIncomingWindowExhaustedBuffer ≠ []) := by
  rintro ⟨hopen, hwaiting⟩
  rcases h with hempty | hclosed
  · exact hwaiting hempty
  · have hopen' : (s.applySessionFlow flow).remoteIncomingWindow > 0 := hopen
    rw [hclosed] at hopen'
    exact absurd hopen' (by decide)

theorem onIncomingFlow_unanswered {channel : UInt16} {flow : Flow}
    (h : s.Unanswered ⟨channel, .flow flow⟩) :
    okFrames itemFrames (s.onIncomingFlow flow).1 = [] := by
  -- the flow gets no reply from its link and releases nothing
  have hinner : (∃ e s', s.onIncomingFlowInner flow = (.error e, s')) ∨
      ∃ links, s.onIncomingFlowInner flow = (.ok none, (s.applySessionFlow flow).withLinks links) ∧
        s.ReleasesNothing flow := by
    simp only [onIncomingFlowInner]
    cases hlink : LinkFlow.tryFrom flow with
    | none =>
        have hhandle : flow.handle = none := Option.map_eq_none_iff.mp hlink
        simp only [Unanswered, hhandle] at h
        exact .inr ⟨s.links, rfl, h⟩
    | some linkFlow =>
        obtain ⟨handle, hhandle, hlinkFlow⟩ := Option.map_eq_some_iff.mp hlink
        simp only [Unanswered, hhandle] at h
        have hkey : linkFlow.handle = handle := by rw [← hlinkFlow]
        cases hrelay : s.linkByInputHandle ⟨linkFlow.handle⟩ with
        | none =>
            refine .inl ⟨.unattachedHandle, s.applySessionFlow flow, ?_⟩
            simp [applySessionFlow, hrelay]
        | some relay =>
            obtain ⟨hanswers, hreleases⟩ := h relay (hkey ▸ hrelay)
            have hrelay' : (s.applySessionFlow flow).linkByInputHandle ⟨linkFlow.handle⟩ =
                some relay := hrelay
            simp only [hrelay']
            cases hout : relay.onIncomingFlow (s.applySessionFlow flow).links linkFlow with
            | mk result links =>
                cases result with
                | error e => exact .inl ⟨_, _, rfl⟩
                | ok reply =>
                    obtain rfl := LinkRelay.onIncomingFlow_of_answers hanswers hlink hout
                    exact .inr ⟨links, rfl, hreleases⟩
  rcases hinner with ⟨e, s', heq⟩ | ⟨links, heq, hreleases⟩
  · simp [onIncomingFlow, heq, okFrames]
  · simp only [onIncomingFlow, heq]
    rw [if_neg (hreleases.not_open links)]
    rfl

/-- The ids collected by the unsettled branch. -/
theorem foldl_updateDelivery_fst (disposition : Disposition) (hsettled : disposition.settled = false)
    (ids acc : List DeliveryNumber) (s : Session) :
    (ids.foldl (updateDelivery disposition) (acc, s)).1 =
      acc ++ ids.filter fun id =>
        match s.deliveryTagById (disposition.role, id) with
        | none => false
        | some (handle, _) =>
            match s.linkByInputHandle handle with
            | some (.sender _ _ receiverSettleMode) => receiverSettleMode == .second
            | _ => false := by
  induction ids generalizing acc s with
  | nil => simp
  | cons id ids ih =>
      rw [List.foldl_cons, List.filter_cons]
      cases htag : s.deliveryTagById (disposition.role, id) with
      | none => simp [updateDelivery, htag, ih]
      | some entry =>
          obtain ⟨handle, tag⟩ := entry
          cases hrelay : s.linkByInputHandle handle with
          | none => simp [updateDelivery, htag, hrelay, ih]
          | some relay =>
              cases relay with
              | receiver link outputHandle mode more =>
                  simp [updateDelivery, htag, hrelay, LinkRelay.onIncomingDisposition, ih]
              | sender link outputHandle mode =>
                  simp only [updateDelivery, htag, hrelay, LinkRelay.onIncomingDisposition, hsettled]
                  cases mode <;> simp [ih]

theorem onIncomingDisposition_unanswered {channel : UInt16} {disposition : Disposition}
    (h : s.Unanswered ⟨channel, .disposition disposition⟩) :
    (s.onIncomingDisposition disposition).1.getD [] = [] := by
  simp only [onIncomingDisposition]
  cases hsettled : disposition.settled with
  | true => rfl
  | false =>
      have hids := foldl_updateDelivery_fst disposition hsettled
        (deliveryIds disposition.first (disposition.last.getD disposition.first)) [] s
      have hechoes : consecutiveChunkIndices (s.echoIds disposition) = [] := by
        rcases h with h | h
        · rw [hsettled] at h
          cases h
        · exact h
      rw [List.nil_append] at hids
      simp only [Bool.false_eq_true, if_false, Option.getD_some]
      rw [hids]
      exact congrArg (echoDispositions disposition.state _ 0) hechoes

theorem onIncomingDetach_unanswered {channel : UInt16} {detach : Detach}
    (h : s.Unanswered ⟨channel, .detach detach⟩) : (s.onIncomingDetach detach).1 = none := by
  simp only [onIncomingDetach]
  cases hrelay : s.linkByInputHandle ⟨detach.handle⟩ with
  | none => rfl
  | some relay =>
      have hpending := h relay hrelay
      cases relay with
      | sender link outputHandle mode =>
          simp only [LinkRelay.onIncomingDetach, hpending, Bool.not_true, Bool.false_eq_true, if_false]
          split <;> rfl
      | receiver link outputHandle mode more =>
          simp [LinkRelay.onIncomingDetach, hpending]

/-- The session has sent its End and waits for that of the peer. -/
def AwaitsEnd (s : Session) : Prop := s.localState = .endSent ∨ s.localState = .discarding

theorem AwaitsEnd.ne_mapped (h : s.AwaitsEnd) : s.localState ≠ .mapped := by
  rcases h with h | h <;> simp [h]

/-- The End of the peer unmaps a session that waits for it. -/
theorem AwaitsEnd.dispatchEnd (h : s.AwaitsEnd) (pending : List LinkFrame) (end' : End) :
    (s.dispatchEnd pending end').frames = [] ∧
      (s.dispatchEnd pending end').session.localState = .unmapped := by
  have hend : (s.onIncomingEnd end').2.localState = .unmapped := by
    rcases h with h | h <;> simp only [onIncomingEnd, h] <;> split <;> rfl
  simp only [Session.dispatchEnd]
  generalize s.onIncomingEnd end' = outcome at hend ⊢
  obtain ⟨result, s'⟩ := outcome
  simp only at hend ⊢
  rw [if_neg (by simp [hend])]
  cases result <;> exact ⟨rfl, hend⟩

theorem AwaitsEnd.sendEnd (h : s.AwaitsEnd) (error : Option Error) :
    s.sendEnd error = (.error .illegalState, s) := by
  rcases h with h | h <;> simp [Session.sendEnd, h]

theorem AwaitsEnd.controlEnd (h : s.AwaitsEnd) (pending : List LinkFrame) (error : Option Error) :
    (s.controlEnd pending error).frames = [] ∧ (s.controlEnd pending error).session.AwaitsEnd := by
  simp only [Session.controlEnd]
  generalize hreason : setSessionStopReason s _ = s'
  have hawaits : s'.AwaitsEnd := by
    rw [← hreason]
    exact h
  obtain ⟨hsession, hframes⟩ := s'.drainLinkFrames_of_ne_mapped pending hawaits.ne_mapped
  split
  · rw [hsession]
    exact ⟨hframes, hawaits⟩
  · rw [hsession, hawaits.sendEnd]
    exact ⟨hframes, hawaits⟩

/-- A session that waits for the End of the peer goes on waiting until it arrives. -/
theorem AwaitsEnd.onIncoming (h : s.AwaitsEnd) (pending : List LinkFrame) (frame : SessionFrame)
    (hend : frame.isEnd = false) : (s.onIncoming pending frame).session.AwaitsEnd := by
  by_cases hbegin : ∃ begin', frame.body = .begin begin'
  · obtain ⟨begin', hbody⟩ := hbegin
    have hsession : (s.onIncoming pending frame).session = s := by
      rcases h with h | h <;> simp [Session.onIncoming, hbody, onIncomingBegin, h]
    rwa [hsession]
  · have hstate := s.onIncoming_localState pending frame
      (fun begin' hbody => hbegin ⟨begin', hbody⟩)
      (fun end' hbody => by simp [SessionFrame.isEnd, hbody] at hend)
    rwa [AwaitsEnd, hstate]

theorem onIncoming_unanswered (hstate : s.AwaitsEnd) (pending : List LinkFrame)
    {frame : SessionFrame} (h : s.Unanswered frame) : (s.onIncoming pending frame).frames = [] := by
  obtain ⟨channel, body⟩ := frame
  cases body with
  | begin begin' =>
      simp only [onIncoming]
      split <;> rfl
  | attach attach =>
      simp only [onIncoming]
      split <;> rfl
  | flow flow =>
      have hframes := onIncomingFlow_unanswered h
      simp only [onIncoming]
      split
      · next heq =>
          rw [heq] at hframes
          exact hframes
      · rfl
  | transfer performative payload =>
      have hframe := s.onIncomingTransfer_frame performative payload
      simp only [onIncoming]
      cases hout : s.onIncomingTransfer performative payload with
      | mk result s' =>
          obtain ⟨links, relays, tags, hframe⟩ := hframe
          rw [hout] at hframe
          simp only at hframe
          cases result with
          | error e => rfl
          | ok disposition =>
              -- no incoming transfer is answered with a disposition
              obtain rfl : disposition = none := by
                simp only [onIncomingTransfer] at hout
                split at hout
                · cases hout
                · split at hout <;> cases hout <;> rfl
              have hunmapped : s'.localState ≠ .mapped := by
                rw [hframe]
                exact hstate.ne_mapped
              simp [sendDispositions, maybeOutgoingSessionFlow, hunmapped, dispatched, itemFrames]
  | disposition disposition =>
      have hnone := onIncomingDisposition_unanswered h
      simp only [onIncoming, hnone]
      rfl
  | detach detach =>
      have hnone := onIncomingDetach_unanswered h
      simp only [onIncoming]
      split
      · rfl
      · next heq =>
          rw [heq] at hnone
          cases hnone
  | «end» end' => exact (hstate.dispatchEnd pending end').1

theorem Ignores.unanswered {frame : SessionFrame} (h : s.Ignores frame) : s.Unanswered frame := by
  obtain ⟨channel, body⟩ := frame
  cases body with
  | flow flow => exact h.elim
  | disposition disposition =>
      refine .inr ?_
      have hnone : s.echoIds disposition = [] := by
        refine List.filter_eq_nil_iff.mpr fun id hid => ?_
        simp [h id hid]
      rw [hnone]
      rfl
  | detach detach =>
      intro relay hrelay
      have hnone : s.linkByInputHandle ⟨detach.handle⟩ = none := h
      rw [hnone] at hrelay
      cases hrelay
  | begin | attach | transfer | «end» => trivial

/-- A session in `Discarding` is left alone by a frame that it ignores. -/
theorem onIncoming_ignores (hstate : s.localState = .discarding) (pending : List LinkFrame)
    {frame : SessionFrame} (hend : frame.isEnd = false) (h : s.Ignores frame) :
    (s.onIncoming pending frame).session = s := by
  obtain ⟨channel, body⟩ := frame
  cases body with
  | «end» end' => cases hend
  | flow flow => exact h.elim
  | transfer performative payload => exact h.elim
  | begin begin' => simp [onIncoming, onIncomingBegin, hstate]
  | attach attach =>
      simp only [onIncoming, onIncomingAttach]
      cases hname : s.linkByName attach.name with
      | none => rfl
      | some relay =>
          cases relay with
          | none => rfl
          | some relay => exact absurd hname (h relay)
  | disposition disposition =>
      have hnone := onIncomingDisposition_unanswered h.unanswered
      have hsession : (s.onIncomingDisposition disposition).2 = s := by
        simp only [onIncomingDisposition]
        have hids : ∀ id ∈ deliveryIds disposition.first (disposition.last.getD disposition.first),
            s.deliveryTagById (disposition.role, id) = none := h
        generalize deliveryIds _ _ = ids at hids ⊢
        split_ifs
        · induction ids with
          | nil => rfl
          | cons id ids ih =>
              rw [List.foldl_cons, show settleDelivery disposition s id = s by
                simp [settleDelivery, hids id (by simp)]]
              exact ih fun id' hid' => hids id' (by simp [hid'])
        · induction ids with
          | nil => rfl
          | cons id ids ih =>
              rw [List.foldl_cons, show updateDelivery disposition ([], s) id = ([], s) by
                simp [updateDelivery, hids id (by simp)]]
              exact ih fun id' hid' => hids id' (by simp [hid'])
      simp only [onIncoming, hnone]
      exact hsession
  | detach detach =>
      have hnone : s.linkByInputHandle ⟨detach.handle⟩ = none := h
      simp only [onIncoming, onIncomingDetach, hnone]
      rfl

/-! ## Which dispatches emit an End -/

theorem onOutgoingDetach_isEnd (s : Session) (detach : Detach) (expectsEcho : Bool) :
    ∀ frame ∈ (s.onOutgoingDetach detach expectsEcho).1.toList, ¬frame.isEnd = true := by
  simp only [onOutgoingDetach]
  split_ifs <;> simp [SessionFrame.isEnd]

theorem onOutgoingLinkFrames_isEnd (s : Session) (frame : LinkFrame) :
    ∀ out ∈ (s.onOutgoingLinkFrames frame).frames, ¬out.isEnd = true := by
  have htransfer : ∀ (item : BufferedTransfer) (out : Dispatched),
      out = s.dispatchTransfer item → ∀ frame ∈ out.frames, ¬frame.isEnd = true := by
    rintro item _ rfl frame hmem
    have htraffic := s.onOutgoingTransfer_traffic item
    simp only [dispatchTransfer] at hmem
    cases hout : s.onOutgoingTransfer item with
    | mk result s' =>
        rw [hout] at htraffic hmem
        cases result with
        | error e => cases hmem
        | ok out => simp [SessionFrame.isEnd_of_isTraffic (htraffic frame hmem)]
  simp only [onOutgoingLinkFrames]
  split_ifs
  · simp
  · cases frame with
    | firstTransfer frame => exact htransfer _ _ rfl
    | transferContinuation frame => exact htransfer _ _ rfl
    | detach detach => exact s.onOutgoingDetach_isEnd detach true
    | attach | flow | disposition => simp [dispatched, SessionFrame.isEnd, onOutgoingAttach,
        onOutgoingFlow, onOutgoingDisposition]
    | remoteTransfer | acquisition => simp

theorem drainLinkFrames_isEnd (s : Session) (pending : List LinkFrame) :
    ∀ out ∈ (s.drainLinkFrames pending).frames, ¬out.isEnd = true := by
  induction pending generalizing s with
  | nil => simp [drainLinkFrames, dispatched]
  | cons frame pending ih =>
      have hfirst := s.onOutgoingLinkFrames_isEnd frame
      simp only [drainLinkFrames]
      split
      · exact hfirst
      · intro out hmem
        rcases List.mem_append.mp hmem with hmem | hmem
        · exact hfirst out hmem
        · exact ih _ out hmem

/-- A dispatch that leaves a session whose End is on its way. -/
def Dispatched.Ended (out : Dispatched) : Prop :=
  out.session.AwaitsEnd ∨ out.session.localState = .unmapped ∧ out.result ≠ .ok .continue

/-- A session sends its End from `Mapped` or as the answer to that of the peer. -/
theorem sendEnd_ok {error : Option Error} {frame : SessionFrame} {s' : Session}
    (h : s.sendEnd error = (.ok frame, s')) : s'.AwaitsEnd ∨ s'.localState = .unmapped := by
  simp only [sendEnd] at h
  cases hstate : s.localState with
  | mapped =>
      simp only [hstate] at h
      cases h
      cases error
      · exact .inl (.inl rfl)
      · exact .inl (.inr rfl)
  | endReceived =>
      simp only [hstate] at h
      cases h
      exact .inr rfl
  | _ => simp [hstate] at h

theorem dispatched_ended (h : s.AwaitsEnd ∨ s.localState = .unmapped) (frames : List SessionFrame) :
    (s.dispatched frames).Ended := by
  rcases h with h | h
  · exact .inl h
  · exact .inr ⟨h, by simp [dispatched, h]⟩

theorem controlEnd_endsAt (s : Session) (pending : List LinkFrame) (error : Option Error) :
    Run.EndsAt (fun frame => frame.isEnd = true) (s.controlEnd pending error).Ended
      (s.controlEnd pending error).frames := by
  simp only [controlEnd]
  generalize setSessionStopReason _ _ = s'
  have hdrained := s'.drainLinkFrames_isEnd pending
  cases hresult : (s'.drainLinkFrames pending).result with
  | error e => exact .inl hdrained
  | ok running =>
      simp only
      cases hsend : (s'.drainLinkFrames pending).session.sendEnd error with
      | mk result s'' =>
          cases result with
          | error e => exact .inl hdrained
          | ok frame =>
              have hended := dispatched_ended (sendEnd_ok hsend)
                ((s'.drainLinkFrames pending).frames ++ [frame])
              exact .append hdrained (Run.endsAt_singleton frame hended)

theorem dispatchEnd_endsAt (s : Session) (pending : List LinkFrame) (end' : End) :
    Run.EndsAt (fun frame => frame.isEnd = true)
      ((s.dispatchEnd pending end').session.localState = .unmapped)
      (s.dispatchEnd pending end').frames := by
  obtain ⟨localState, reason, hsession, hframes⟩ := s.dispatchEnd_frame pending end'
  rcases hframes with hframes | ⟨rfl, end'', hframes⟩
  · rw [hframes]
    exact .inl (by simp)
  · rw [hframes]
    exact Run.endsAt_singleton _ (by rw [hsession])

/-- No other incoming frame makes the session send an End. -/
theorem onIncoming_isEnd (s : Session) (pending : List LinkFrame) (frame : SessionFrame)
    (hframe : frame.isEnd = false) :
    ∀ out ∈ (s.onIncoming pending frame).frames, ¬out.isEnd = true := by
  have htraffic : ∀ frames : List SessionFrame, (∀ frame ∈ frames, frame.isTraffic) →
      ∀ frame ∈ frames, ¬frame.isEnd = true := by
    intro frames h frame hmem
    simp [SessionFrame.isEnd_of_isTraffic (h frame hmem)]
  obtain ⟨channel, body⟩ := frame
  cases body with
  | «end» end' => cases hframe
  | begin begin' =>
      simp only [onIncoming]
      split <;> simp [dispatched]
  | attach attach =>
      simp only [onIncoming]
      split <;> simp [dispatched]
  | flow flow =>
      have hflow := s.onIncomingFlow_traffic flow
      simp only [onIncoming]
      split
      · next heq =>
          rw [heq] at hflow
          exact htraffic _ hflow
      · simp
  | transfer performative payload =>
      simp only [onIncoming]
      split
      · simp
      · refine htraffic _ fun frame hmem => ?_
        rcases List.mem_append.mp hmem with hmem | hmem
        · exact sendDispositions_traffic _ _ frame hmem
        · exact maybeOutgoingSessionFlow_traffic _ frame hmem
  | disposition disposition =>
      simp only [onIncoming]
      exact htraffic _ (sendDispositions_traffic _ _)
  | detach detach =>
      simp only [onIncoming]
      split
      · simp [dispatched]
      · exact onOutgoingDetach_isEnd _ _ false

/-- Before its own End the session sends no other. -/
theorem endWithoutHandles_endsAt (s : Session) (pending : List LinkFrame) :
    Run.EndsAt (fun frame => frame.isEnd = true)
      ((s.endWithoutHandles pending).2.AwaitsEnd ∨
        (s.endWithoutHandles pending).2.localState = .unmapped) (s.endWithoutHandles pending).1 := by
  induction pending generalizing s with
  | nil =>
      simp only [endWithoutHandles]
      split
      · next hsend => exact Run.endsAt_singleton _ (sendEnd_ok hsend)
      · exact .inl (by simp)
  | cons frame pending ih =>
      simp only [endWithoutHandles]
      exact .append (onOutgoingLinkFrames_isEnd _ frame) (ih _)

end Session

namespace SessionEngine

open Session (Dispatched)

/-- The engine has put its End on the queue, or has stopped. -/
def EndPut (e : SessionEngine) : Prop :=
  e.session.AwaitsEnd ∨ ∃ outcome, e.phase = .stopped outcome

/-- The event finds nothing to answer and nothing to change once the End is out: while the engine
waits for the End of the peer it is no disposition requested by a link and no frame that the session
answers, or, in `Discarding`, applies. -/
def Quiet (e : SessionEngine) : SessionEngineEvent → Prop
  | .incoming (some frame) =>
      match e.phase with
      | .stopped _ | .waitForRemoteEnd true _ _ => True
      | _ =>
          (e.session.localState = .endSent → e.session.Unanswered frame) ∧
            (e.session.localState = .discarding → e.session.Ignores frame)
  | .control (some (.disposition _)) => e.phase = .eventLoop → ¬e.session.AwaitsEnd
  | _ => True

theorem Quiet.unanswered {e : SessionEngine} {frame : SessionFrame}
    (h : (e.session.localState = .endSent → e.session.Unanswered frame) ∧
      (e.session.localState = .discarding → e.session.Ignores frame))
    (hawaits : e.session.AwaitsEnd) : e.session.Unanswered frame := by
  rcases hawaits with hstate | hstate
  · exact h.1 hstate
  · exact (h.2 hstate).unanswered

variable {e : SessionEngine}

theorem endPut_stop (e : SessionEngine) (outcome : Except SessionInnerError Unit) :
    (e.stop outcome).EndPut :=
  .inr ⟨outcome, rfl⟩

/-! ## The rest of a turn -/

theorem endSession_ended (h : e.session.AwaitsEnd ∨ e.session.localState = .unmapped)
    (cause : SessionInnerError) (error : Option Error) :
    (e.endSession cause error).2 = [] ∧ (e.endSession cause error).1.EndPut := by
  rcases h with h | h
  · have hawaits := h
    rcases h with h | h <;> simp only [endSession, h] <;> exact ⟨trivial, .inl hawaits⟩
  · simp only [endSession, h]
    exact ⟨trivial, endPut_stop _ _⟩

theorem onError_ended (h : e.session.AwaitsEnd ∨ e.session.localState = .unmapped)
    (error : SessionInnerError) : (e.onError error).2 = [] ∧ (e.onError error).1.EndPut := by
  cases error with
  | connectionStopped reason => exact ⟨rfl, endPut_stop _ _⟩
  | _ => exact endSession_ended h _ _

theorem endSession_endsAt (e : SessionEngine) (cause : SessionInnerError) (error : Option Error) :
    Run.EndsAt (fun frame => frame.isEnd = true) (e.endSession cause error).1.EndPut
      (e.endSession cause error).2 := by
  by_cases hended : e.session.AwaitsEnd ∨ e.session.localState = .unmapped
  · obtain ⟨hframes, -⟩ := endSession_ended hended cause error
    exact .inl (by simp [hframes])
  · cases hsend : e.session.sendEnd error with
    | mk result s' =>
        cases hstate : e.session.localState with
        | unmapped => exact absurd (.inr hstate) hended
        | endSent => exact absurd (.inl (.inl hstate)) hended
        | discarding => exact absurd (.inl (.inr hstate)) hended
        | endReceived =>
            simp only [endSession, hstate, hsend]
            cases result with
            | error error' => exact .inl (by simp)
            | ok frame => exact Run.endsAt_singleton frame (endPut_stop _ _)
        | beginSent | beginReceived =>
            simp only [endSession, hstate, Session.sendEnd]
            exact .inl (by simp)
        | mapped =>
            simp only [endSession, hstate, hsend]
            cases result with
            | error error' => exact .inl (by simp)
            | ok frame =>
                refine Run.endsAt_singleton frame (.inl ?_)
                simp only [Session.sendEnd, hstate] at hsend
                cases hsend
                cases error
                · exact .inl rfl
                · exact .inr rfl

theorem onError_endsAt (e : SessionEngine) (error : SessionInnerError) :
    Run.EndsAt (fun frame => frame.isEnd = true) (e.onError error).1.EndPut (e.onError error).2 := by
  cases error with
  | connectionStopped reason => exact .inl (by simp [onError])
  | _ => exact endSession_endsAt e _ _

/-- Nothing is added to a dispatch that has ended the session. -/
theorem settle_ended {out : Dispatched} (h : out.Ended) :
    (e.settle out).2 = out.frames ∧ (e.settle out).1.EndPut := by
  cases hresult : out.result with
  | error error =>
      have hended : (e.withSession out.session).session.AwaitsEnd ∨
          (e.withSession out.session).session.localState = .unmapped := by
        rcases h with h | ⟨h, -⟩
        · exact .inl h
        · exact .inr h
      obtain ⟨hframes, hput⟩ := onError_ended hended error
      simp only [settle, hresult, hframes, List.append_nil]
      exact ⟨trivial, hput⟩
  | ok running =>
      cases running with
      | stop =>
          simp only [settle, hresult]
          exact ⟨trivial, endPut_stop _ _⟩
      | «continue» =>
          simp only [settle, hresult]
          rcases h with h | ⟨-, h⟩
          · exact ⟨trivial, .inl h⟩
          · exact absurd hresult h

theorem settle_endsAt {out : Dispatched}
    (h : Run.EndsAt (fun frame => frame.isEnd = true) out.Ended out.frames) :
    Run.EndsAt (fun frame => frame.isEnd = true) (e.settle out).1.EndPut (e.settle out).2 := by
  rcases h with hnone | ⟨before, frame, hframes, hbefore, hended⟩
  · cases hresult : out.result with
    | error error =>
        simp only [settle, hresult]
        exact .append hnone (onError_endsAt _ error)
    | ok running =>
        cases running <;> simp only [settle, hresult] <;> exact .inl hnone
  · obtain ⟨hsettle, hput⟩ := settle_ended (e := e) hended
    rw [hsettle]
    exact .inr ⟨before, frame, hframes, hbefore, hput⟩

theorem onHandlesDropped_ended (h : e.session.AwaitsEnd ∨ e.session.localState = .unmapped) :
    e.onHandlesDropped.2 = [] := by
  rcases h with (h | h) | h <;> simp [onHandlesDropped, h]

theorem onHandlesDropped_endPut (e : SessionEngine) : e.onHandlesDropped.1.EndPut := by
  simp only [onHandlesDropped]
  split
  · split
    · next h => exact .inl (.inr h)
    · next h => exact .inl (.inl h)
    · exact endPut_stop _ _
  · split
    · next h => exact .inl (.inr h)
    · next h => exact .inl (.inl h)
    · exact endPut_stop _ _
  · next h => exact .inl (.inr h)
  · next h => exact .inl (.inl h)
  · exact endPut_stop _ _

theorem onHandlesDropped_endsAt (e : SessionEngine) :
    Run.EndsAt (fun frame => frame.isEnd = true) e.onHandlesDropped.1.EndPut
      e.onHandlesDropped.2 := by
  have hframes := e.session.endWithoutHandles_endsAt e.outgoingLinkFrames
  refine Run.EndsAt.imp ?_ fun _ : True => e.onHandlesDropped_endPut
  replace hframes := hframes.imp fun _ => trivial
  simp only [onHandlesDropped]
  split
  · split <;> exact hframes
  · split <;> exact hframes
  · exact .inl (by simp)
  · exact .inl (by simp)
  · exact .inl (by simp)

/-! ## One event -/

theorem onIncoming_ended (h : e.session.AwaitsEnd) (pending : List LinkFrame) (frame : SessionFrame) :
    (e.session.onIncoming pending frame).Ended := by
  cases hend : frame.isEnd with
  | false => exact .inl (h.onIncoming pending frame hend)
  | true =>
      obtain ⟨channel, body⟩ := frame
      cases body with
      | «end» end' =>
          exact .inr ⟨(h.dispatchEnd pending end').2, e.session.dispatchEnd_result pending end'⟩
      | _ => cases hend

theorem onControl_ended (h : e.session.AwaitsEnd) {control : SessionControl}
    (hcontrol : ∀ disposition, control ≠ .disposition disposition) :
    (e.onControl control).2 = [] ∧ (e.onControl control).1.EndPut := by
  have hsettle : ∀ (e' : SessionEngine) (out : Dispatched), out.frames = [] →
      out.session.AwaitsEnd → (e'.settle out).2 = [] ∧ (e'.settle out).1.EndPut := by
    intro e' out hframes hawaits
    obtain ⟨heq, hput⟩ := settle_ended (e := e') (.inl hawaits : out.Ended)
    exact ⟨heq.trans hframes, hput⟩
  have hresponded : ∀ (s : Session) (dropped : Bool), s.localState = e.session.localState →
      (e.settle (s.responded dropped)).2 = [] ∧ (e.settle (s.responded dropped)).1.EndPut := by
    intro s dropped hstate
    have hawaits : s.AwaitsEnd := by rwa [Session.AwaitsEnd, hstate]
    cases dropped <;> exact hsettle e _ rfl hawaits
  cases control with
  | «end» error =>
      obtain ⟨hframes, hawaits⟩ := h.controlEnd e.outgoingLinkFrames error
      exact hsettle _ _ hframes hawaits
  | allocateLink linkName linkRelay responderDropped =>
      obtain ⟨slab, names, hframe⟩ := e.session.allocateLink_frame linkName (some linkRelay)
      exact hresponded _ _ (by rw [hframe])
  | allocateIncomingLink linkName linkRelay inputHandle responderDropped =>
      obtain ⟨slab, names, relays, hframe⟩ :=
        e.session.allocateIncomingLink_frame linkName linkRelay inputHandle
      exact hresponded _ _ (by rw [hframe])
  | deallocateLink outputHandle =>
      obtain ⟨slab, names, hframe⟩ := e.session.deallocateLink_frame outputHandle
      refine hsettle e _ rfl ?_
      simp only [Session.dispatched, hframe]
      exact h
  | disposition disposition => exact absurd rfl (hcontrol disposition)
  | closeConnectionWithError condition description => exact hsettle _ _ rfl h
  | allocateTransactionId responderDropped => exact hresponded _ _ rfl
  | commitTransaction txnId responderDropped => exact hresponded _ _ rfl
  | rollbackTransaction txnId responderDropped => exact hresponded _ _ rfl
  | abortTransaction txnId => exact hsettle e _ rfl h

theorem onWaiting_ended (h : e.session.AwaitsEnd) {discard : Bool} (thenEnd : Bool)
    (cause : SessionInnerError) {frame : SessionFrame} (hquiet : discard = false → e.session.Unanswered frame) :
    (e.onWaiting discard thenEnd cause frame).2 = [] ∧
      (e.onWaiting discard thenEnd cause frame).1.EndPut := by
  simp only [onWaiting]
  split
  · split
    · split <;> exact ⟨rfl, endPut_stop _ _⟩
    · exact ⟨rfl, endPut_stop _ _⟩
  · next hbody =>
      split
      · exact ⟨rfl, .inl h⟩
      · next hkeep =>
          have hframes := Session.onIncoming_unanswered h e.outgoingLinkFrames
            (hquiet (by simpa using hkeep))
          have hawaits := h.onIncoming e.outgoingLinkFrames frame
            (by cases hframe : frame.body <;> simp_all [SessionFrame.isEnd])
          split
          · exact ⟨hframes, .inl hawaits⟩
          · exact ⟨hframes, endPut_stop _ _⟩

/-- Once the End is out a quiet event makes the engine emit nothing. -/
theorem step_silent {event : SessionEngineEvent} (hquiet : e.Quiet event) (h : e.EndPut) :
    (e.step event).2 = [] ∧ (e.step event).1.EndPut := by
  have hput := h
  rcases h with h | ⟨outcome, hphase⟩
  · cases event with
    | incoming frame =>
        cases hphase : e.phase with
        | stopped outcome =>
            simp only [step, hphase]
            exact ⟨trivial, hput⟩
        | eventLoop =>
            cases frame with
            | none =>
                simp only [step, hphase]
                have hawaits := h
                rcases h with h | h <;> simp only [h]
                · exact onError_ended (.inl hawaits) _
                · exact ⟨trivial, endPut_stop _ _⟩
            | some frame =>
                simp only [Quiet, hphase] at hquiet
                have hframes := Session.onIncoming_unanswered h e.outgoingLinkFrames
                  (Quiet.unanswered hquiet h)
                obtain ⟨heq, hput⟩ := settle_ended
                  (e := if closesLinkFrames e.session frame then e.closeLinkFrames else e)
                  (onIncoming_ended h e.outgoingLinkFrames frame)
                simp only [step, hphase, onIncoming]
                exact ⟨heq.trans hframes, hput⟩
        | waitForRemoteEnd discard thenEnd cause =>
            cases frame with
            | none =>
                simp only [step, hphase]
                exact ⟨trivial, endPut_stop _ _⟩
            | some frame =>
                simp only [step, hphase]
                refine onWaiting_ended h thenEnd cause fun hkeep => ?_
                subst hkeep
                simp only [Quiet, hphase] at hquiet
                exact Quiet.unanswered hquiet h
        | handlesDropped =>
            cases frame with
            | none =>
                simp only [step, hphase]
                exact ⟨trivial, endPut_stop _ _⟩
            | some frame =>
                simp only [Quiet, hphase] at hquiet
                have hframes := Session.onIncoming_unanswered h e.outgoingLinkFrames
                  (Quiet.unanswered hquiet h)
                have hended := onIncoming_ended h e.outgoingLinkFrames frame
                have hnone := onHandlesDropped_ended
                  (e := e.withSession (e.session.onIncoming e.outgoingLinkFrames frame).session)
                  (hended.imp id And.left)
                simp only [step, hphase, hframes, hnone, List.append_nil]
                exact ⟨trivial, onHandlesDropped_endPut _⟩
    | control control =>
        cases hphase : e.phase with
        | eventLoop =>
            cases control with
            | none =>
                simp only [step, hphase]
                exact ⟨onHandlesDropped_ended (.inl h), onHandlesDropped_endPut e⟩
            | some control =>
                simp only [step, hphase]
                refine onControl_ended h fun disposition hcontrol => ?_
                subst hcontrol
                exact hquiet hphase h
        | _ =>
            simp only [step, hphase]
            exact ⟨trivial, hput⟩
    | linkFrame =>
        simp only [step]
        split
        · next frame pending _ _ =>
            have hout : e.session.onOutgoingLinkFrames frame = ⟨[], .error .illegalState, e.session⟩ := by
              simp [Session.onOutgoingLinkFrames, h.ne_mapped]
            rw [hout]
            exact settle_ended (.inl h)
        · exact ⟨rfl, hput⟩
    | handOver frame =>
        simp only [step]
        split
        · exact ⟨rfl, hput⟩
        · split
          · exact ⟨rfl, hput⟩
          · exact ⟨rfl, .inl h⟩
    | endpoint links => exact ⟨rfl, .inl h⟩
    | connectionStop reason => exact ⟨rfl, .inl h⟩
  · cases event with
    | incoming | control | linkFrame | handOver =>
        simp only [step, hphase]
        exact ⟨trivial, hput⟩
    | endpoint | connectionStop => exact ⟨rfl, .inr ⟨outcome, hphase⟩⟩

/-- Without frames there is no End. -/
theorem endsAt_nil (closed : Prop) :
    Run.EndsAt (fun frame : SessionFrame => frame.isEnd = true) closed [] := by
  left
  simp

theorem incoming_eventLoop_endsAt (hphase : e.phase = .eventLoop) (frame : Option SessionFrame) :
    Run.EndsAt (fun frame => frame.isEnd = true) (e.step (.incoming frame)).1.EndPut
      (e.step (.incoming frame)).2 := by
  cases frame with
  | none =>
      simp only [step, hphase]
      split
      · exact endsAt_nil _
      · exact endsAt_nil _
      · exact onError_endsAt _ _
  | some frame =>
      simp only [step, hphase, onIncoming]
      refine settle_endsAt ?_
      cases hend : frame.isEnd with
      | false => exact .inl (e.session.onIncoming_isEnd _ frame hend)
      | true =>
          obtain ⟨channel, body⟩ := frame
          cases body with
          | «end» end' =>
              refine (e.session.dispatchEnd_endsAt e.outgoingLinkFrames end').imp ?_
              exact fun hunmapped => .inr ⟨hunmapped, e.session.dispatchEnd_result _ end'⟩
          | _ => cases hend

theorem incoming_waiting_endsAt {discard : Bool} {thenEnd : Bool} {cause : SessionInnerError}
    (hphase : e.phase = .waitForRemoteEnd discard thenEnd cause) (frame : Option SessionFrame) :
    Run.EndsAt (fun frame => frame.isEnd = true) (e.step (.incoming frame)).1.EndPut
      (e.step (.incoming frame)).2 := by
  cases frame with
  | none =>
      simp only [step, hphase]
      exact endsAt_nil _
  | some frame =>
      simp only [step, hphase, onWaiting]
      split
      · split
        · split
          · exact endsAt_nil _
          · exact endsAt_nil _
        · exact endsAt_nil _
      · have hother := e.session.onIncoming_isEnd e.outgoingLinkFrames frame
          (by cases hframe : frame.body <;> simp_all [SessionFrame.isEnd])
        split
        · exact endsAt_nil _
        · split
          · exact .inl hother
          · exact .inl hother

theorem incoming_handlesDropped_endsAt (hphase : e.phase = .handlesDropped)
    (frame : Option SessionFrame) :
    Run.EndsAt (fun frame => frame.isEnd = true) (e.step (.incoming frame)).1.EndPut
      (e.step (.incoming frame)).2 := by
  cases frame with
  | none =>
      simp only [step, hphase]
      exact endsAt_nil _
  | some frame =>
      simp only [step, hphase]
      cases hend : frame.isEnd with
      | false => exact .append (e.session.onIncoming_isEnd _ frame hend) (onHandlesDropped_endsAt _)
      | true =>
          obtain ⟨channel, body⟩ := frame
          cases body with
          | «end» end' =>
              rcases e.session.dispatchEnd_endsAt e.outgoingLinkFrames end' with
                hnone | ⟨before, frame, hframes, hbefore, hunmapped⟩
              · exact .append hnone (onHandlesDropped_endsAt _)
              · -- the End has been answered: nothing follows
                have hnone := onHandlesDropped_ended
                  (e := e.withSession (e.session.dispatchEnd e.outgoingLinkFrames end').session)
                  (.inr hunmapped)
                refine .inr ⟨before, frame, ?_, hbefore, onHandlesDropped_endPut _⟩
                simp only [Session.onIncoming, hnone, hframes, List.append_nil]
          | _ => cases hend

theorem control_endsAt (hphase : e.phase = .eventLoop) (control : Option SessionControl) :
    Run.EndsAt (fun frame => frame.isEnd = true) (e.step (.control control)).1.EndPut
      (e.step (.control control)).2 := by
  have hresponded : ∀ (s : Session) (dropped : Bool),
      Run.EndsAt (fun frame => frame.isEnd = true) (s.responded dropped).Ended
        (s.responded dropped).frames := by
    intro s dropped
    cases dropped with
    | true => exact endsAt_nil _
    | false => exact endsAt_nil _
  cases control with
  | none =>
      simp only [step, hphase]
      exact onHandlesDropped_endsAt e
  | some control =>
      simp only [step, hphase]
      cases control with
      | «end» error => exact settle_endsAt (e.session.controlEnd_endsAt _ error)
      | disposition disposition =>
          refine settle_endsAt (.inl ?_)
          simp [Session.dispatched, SessionFrame.isEnd]
      | allocateLink linkName linkRelay responderDropped => exact settle_endsAt (hresponded _ _)
      | allocateIncomingLink linkName linkRelay inputHandle responderDropped =>
          exact settle_endsAt (hresponded _ _)
      | allocateTransactionId responderDropped => exact settle_endsAt (hresponded _ _)
      | commitTransaction txnId responderDropped => exact settle_endsAt (hresponded _ _)
      | rollbackTransaction txnId responderDropped => exact settle_endsAt (hresponded _ _)
      | deallocateLink | closeConnectionWithError | abortTransaction =>
          exact settle_endsAt (.inl (by simp [Session.dispatched]))

/-- Any End that an event makes the engine emit is the last frame of that event. -/
theorem step_endsAt (e : SessionEngine) (event : SessionEngineEvent) :
    Run.EndsAt (fun frame => frame.isEnd = true) (e.step event).1.EndPut (e.step event).2 := by
  cases event with
  | incoming frame =>
      cases hphase : e.phase with
      | stopped outcome =>
          simp only [step, hphase]
          exact endsAt_nil _
      | eventLoop => exact incoming_eventLoop_endsAt hphase frame
      | waitForRemoteEnd discard thenEnd cause => exact incoming_waiting_endsAt hphase frame
      | handlesDropped => exact incoming_handlesDropped_endsAt hphase frame
  | control control =>
      cases hphase : e.phase with
      | eventLoop => exact control_endsAt hphase control
      | _ =>
          simp only [step, hphase]
          exact endsAt_nil _
  | linkFrame =>
      simp only [step]
      split
      · exact settle_endsAt (.inl (Session.onOutgoingLinkFrames_isEnd _ _))
      · exact endsAt_nil _
  | handOver frame =>
      simp only [step]
      split
      · exact endsAt_nil _
      · split
        · exact endsAt_nil _
        · exact endsAt_nil _
  | endpoint | connectionStop => exact endsAt_nil _

/-! ## A session in `Discarding` -/

theorem settle_discarding (out : Dispatched) (h : out.session.localState = .discarding) :
    ∃ reason, (e.settle out).1.session = { out.session with sessionStopReason := reason } := by
  have hstate : (e.withSession out.session).session.localState = .discarding := h
  cases hresult : out.result with
  | error error =>
      simp only [settle, hresult]
      cases error with
      | connectionStopped reason => exact ⟨_, rfl⟩
      | _ =>
          simp only [onError, endSession, hstate]
          exact ⟨_, rfl⟩
  | ok running => cases running <;> simp only [settle, hresult] <;> exact ⟨_, rfl⟩

theorem step_discarding {frame : SessionFrame} (hquiet : e.Quiet (.incoming (some frame)))
    (h : e.session.localState = .discarding) (hend : frame.isEnd = false) :
    ∃ reason, (e.step (.incoming (some frame))).1.session =
      { e.session with sessionStopReason := reason } := by
  cases hphase : e.phase with
  | stopped outcome =>
      simp only [step, hphase]
      exact ⟨_, rfl⟩
  | eventLoop =>
      simp only [Quiet, hphase] at hquiet
      have hsession := Session.onIncoming_ignores h e.outgoingLinkFrames hend (hquiet.2 h)
      obtain ⟨reason, hsettle⟩ := settle_discarding
        (e := if closesLinkFrames e.session frame then e.closeLinkFrames else e)
        (e.session.onIncoming e.outgoingLinkFrames frame) (by rw [hsession, h])
      simp only [step, hphase, onIncoming]
      rw [hsettle, hsession]
      exact ⟨reason, rfl⟩
  | waitForRemoteEnd discard thenEnd cause =>
      simp only [step, hphase, onWaiting]
      split
      · next hbody => simp [SessionFrame.isEnd, hbody] at hend
      · split
        · exact ⟨_, rfl⟩
        · next hkeep =>
            have hkeep' : discard = false := by simpa using hkeep
            subst hkeep'
            simp only [Quiet, hphase] at hquiet
            have hsession := Session.onIncoming_ignores h e.outgoingLinkFrames hend (hquiet.2 h)
            split
            · exact ⟨_, hsession⟩
            · simp only [withSession, stop, hsession]
              exact ⟨_, rfl⟩
  | handlesDropped =>
      simp only [Quiet, hphase] at hquiet
      have hsession := Session.onIncoming_ignores h e.outgoingLinkFrames hend (hquiet.2 h)
      simp only [step, hphase, hsession]
      have hdropped : ((e.withSession e.session).onHandlesDropped).1.session = e.session := by
        simp [onHandlesDropped, withSession, h]
      exact ⟨_, hdropped⟩

/-- In every run whose events are quiet the End is the last frame on the outgoing queue, and while
the session is in `Discarding` a frame other than End changes nothing but the recorded reason. -/
theorem end_is_last (builder : SessionBuilder) (outgoingChannel : UInt16)
    (localState : SessionState) (links : LinkStore) (events : List SessionEngineEvent)
    (hquiet : Run.Along step Quiet (start builder outgoingChannel localState links) events) :
    (∀ before frame after,
      (Run.run step (start builder outgoingChannel localState links) events).2 =
        before ++ frame :: after → frame.isEnd = true → after = []) ∧
    ∀ earlier frame later, events = earlier ++ .incoming (some frame) :: later →
      let e := (Run.run step (start builder outgoingChannel localState links) earlier).1
      e.session.localState = .discarding → frame.isEnd = false →
      ∃ reason, (e.step (.incoming (some frame))).1.session =
        { e.session with sessionStopReason := reason } := by
  constructor
  · intro before frame after hframes hend
    have hends := Run.run_endsAt (I := fun _ => True) (fun _ _ _ _ => trivial)
      (fun e event _ => step_silent (e := e)) (fun e event _ _ => step_endsAt e event) trivial hquiet
    exact hends.eq_nil hframes hend
  · rintro earlier frame later rfl e hstate hend
    rw [Run.along_append] at hquiet
    exact step_discarding hquiet.2.1 hstate hend

section CrossingFlow

private def openedWindow : SessionFrame :=
  ⟨0, .flow
    { nextIncomingId := some 0, incomingWindow := 5, nextOutgoingId := 0, outgoingWindow := 10
      handle := none, deliveryCount := none, linkCredit := none, available := none
      drain := false, echo := false, properties := none }⟩

private def waitingTransfer : LinkFrame :=
  .firstTransfer
    { inputHandle := ⟨7⟩
      performative :=
        { handle := 0, deliveryId := none, deliveryTag := some [0, 0, 0, 0]
          messageFormat := some 0, settled := some true, more := false, rcvSettleMode := none
          state := none, resume := false, aborted := false, batchable := false }
      payload := [1] }

private def endWithError : SessionEngineEvent :=
  .control (some (.end (some ⟨.amqpError .internalError, none, none⟩)))

private def unknownDetach : SessionFrame := ⟨0, .detach ⟨3, true, none⟩⟩

private theorem endWithError_quiet :
    Run.Along step Quiet (start {} 0 .mapped LinkStore.empty)
      [endWithError, .incoming (some unknownDetach), .incoming (some ⟨0, .end ⟨none⟩⟩)] := by
  refine ⟨trivial, ⟨?_, ?_⟩, ⟨?_, ?_⟩, trivial⟩
  · exact fun _ relay hrelay => nomatch hrelay
  · exact fun _ => rfl
  · exact fun _ => trivial
  · exact fun _ => trivial

/-- A Detach of an unknown handle and the End of the peer cross the End of the session. -/
theorem end_is_last_unknown_detach :
    (∀ before frame after,
      (Run.run step (start {} 0 .mapped LinkStore.empty)
          [endWithError, .incoming (some unknownDetach), .incoming (some ⟨0, .end ⟨none⟩⟩)]).2 =
        before ++ frame :: after → frame.isEnd = true → after = []) ∧
    let e := (Run.run step (start {} 0 .mapped LinkStore.empty) [endWithError]).1
    e.session.localState = .discarding ∧
      ∃ reason, (e.step (.incoming (some unknownDetach))).1.session =
        { e.session with sessionStopReason := reason } := by
  have hlast := end_is_last {} 0 .mapped LinkStore.empty _ endWithError_quiet
  refine ⟨hlast.1, rfl, ?_⟩
  exact hlast.2 [endWithError] unknownDetach [.incoming (some ⟨0, .end ⟨none⟩⟩)] rfl rfl rfl

private def crossingFlow : List SessionEngineEvent :=
  [.handOver waitingTransfer, .linkFrame, .control (some (.end none)), .incoming (some openedWindow)]

private theorem crossingFlow_frames :
    (Run.run step (start {} 0 .mapped LinkStore.empty) crossingFlow).2.map SessionFrame.isEnd =
      [true, false] := by
  decide

/-- A flow that crosses the End opens the window: the transfer that waits for it follows the End. -/
theorem transfer_follows_end :
    ¬∀ (builder : SessionBuilder) (outgoingChannel : UInt16) (localState : SessionState)
        (links : LinkStore) (events : List SessionEngineEvent),
      (∀ before frame after,
        (Run.run step (start builder outgoingChannel localState links) events).2 =
          before ++ frame :: after → frame.isEnd = true → after = []) ∧
      ∀ earlier frame later, events = earlier ++ .incoming (some frame) :: later →
        let e := (Run.run step (start builder outgoingChannel localState links) earlier).1
        e.session.localState = .discarding → frame.isEnd = false →
        ∃ reason, (e.step (.incoming (some frame))).1.session =
          { e.session with sessionStopReason := reason } := by
  intro hclaim
  have hlast := (hclaim {} 0 .mapped LinkStore.empty crossingFlow).1
  obtain ⟨first, rest, hframes, hfirst, hrest⟩ := List.map_eq_cons_iff.mp crossingFlow_frames
  have hnil := hlast [] first rest hframes hfirst
  rw [hnil] at hrest
  cases hrest

end CrossingFlow

end SessionEngine

end Fe2o3Amqp
