import Fe2o3Amqp.Session.Engine
import Fe2o3Amqp.Session.SendOrder

/-!
# Ending a session without an error

The engine drains the queue of link frames before it sends its End, so every transfer handed over
reaches the session; but the session may only put it into the buffer for the exhausted window, and
nothing drains that buffer any more.  A graceful end has emitted everything exactly when the window
of the peer has room for all that is queued and nothing waits for it already.
-/

namespace Fe2o3Amqp

/-- What links hand over: no frame of the other direction, and well-formed transfers. -/
def LinkFrame.Outgoing : LinkFrame → Prop
  | .remoteTransfer _ | .acquisition _ => False
  | frame => frame.WellFormed

theorem LinkFrame.Outgoing.wellFormed {frame : LinkFrame} (h : frame.Outgoing) :
    frame.WellFormed := by
  cases frame with
  | remoteTransfer | acquisition => exact h.elim
  | _ => exact h

/-- Transfers wait only when the window is exhausted. -/
def Session.WindowTight (s : Session) : Prop :=
  s.remoteIncomingWindowExhaustedBuffer ≠ [] → s.remoteIncomingWindow.toNat = 0

/-- Between `s` and `s'` the window let `items` through and is closed if anything waits. -/
structure Drained (s s' : Session) (submitted items : List BufferedTransfer)
    (frames : List SessionFrame) : Prop where
  sent : Sent s s' submitted items frames
  localState : s'.localState = s.localState
  outgoingChannel : s'.outgoingChannel = s.outgoingChannel
  window : items.length + s'.remoteIncomingWindow.toNat = s.remoteIncomingWindow.toNat
  tight : s'.WindowTight

namespace Drained

variable {s s' s'' : Session} {submitted submitted' items items' : List BufferedTransfer}
  {frames frames' : List SessionFrame}

theorem of_sending (htight : s.WindowTight) (h : s'.sending = s.sending)
    (hstate : s'.localState = s.localState) (hchannel : s'.outgoingChannel = s.outgoingChannel)
    (hframes : transfersOf frames = []) : Drained s s' [] [] frames := by
  obtain ⟨-, hwindow, hbuffer⟩ : s'.nextOutgoingDeliveryId = s.nextOutgoingDeliveryId ∧
      s'.remoteIncomingWindow = s.remoteIncomingWindow ∧
      s'.remoteIncomingWindowExhaustedBuffer = s.remoteIncomingWindowExhaustedBuffer := by
    simpa [Session.sending] using h
  refine ⟨.of_sending h hframes, hstate, hchannel, by simp [hwindow], ?_⟩
  intro hwaiting
  rw [hwindow]
  exact htight (hbuffer ▸ hwaiting)

theorem trans (h : Drained s s' submitted items frames)
    (h' : Drained s' s'' submitted' items' frames') :
    Drained s s'' (submitted ++ submitted') (items ++ items') (frames ++ frames') where
  sent := h.sent.trans h'.sent
  localState := h'.localState.trans h.localState
  outgoingChannel := h'.outgoingChannel.trans h.outgoingChannel
  window := by
    have hfirst := h.window
    have hsecond := h'.window
    rw [List.length_append]
    omega
  tight := h'.tight

theorem wellFormed (h : Drained s s' submitted items frames)
    (hbuffer : ∀ item ∈ s.remoteIncomingWindowExhaustedBuffer, item.WellFormed)
    (hsubmitted : ∀ item ∈ submitted, item.WellFormed) :
    ∀ item ∈ s'.remoteIncomingWindowExhaustedBuffer, item.WellFormed := by
  refine h.sent.wellFormed fun item hitem => ?_
  rcases List.mem_append.mp hitem with hitem | hitem
  · exact hbuffer item hitem
  · exact hsubmitted item hitem

/-- Everything has left exactly if nothing waited before and the window had room for the rest. -/
theorem buffer_eq_nil_iff (h : Drained s s' submitted items frames) (htight : s.WindowTight) :
    s'.remoteIncomingWindowExhaustedBuffer = [] ↔
      s.remoteIncomingWindowExhaustedBuffer = [] ∧
        submitted.length ≤ s.remoteIncomingWindow.toNat := by
  have hsplit := congrArg List.length h.sent.split
  have hwindow := h.window
  simp only [List.length_append] at hsplit
  refine ⟨fun hempty => ?_, fun ⟨hempty, hroom⟩ => ?_⟩
  · rw [hempty, List.length_nil] at hsplit
    have hnone : s.remoteIncomingWindowExhaustedBuffer = [] := by
      by_contra hwaiting
      have hzero := htight hwaiting
      have hpos := List.length_pos_iff.mpr hwaiting
      omega
    refine ⟨hnone, ?_⟩
    rw [hnone, List.length_nil] at hsplit
    omega
  · by_contra hwaiting
    have hzero := h.tight hwaiting
    have hpos := List.length_pos_iff.mpr hwaiting
    rw [hempty, List.length_nil] at hsplit
    omega

end Drained

namespace Session

variable {s : Session}

theorem onOutgoingTransfer_drained (item : BufferedTransfer)
    (hwf : ∀ item' ∈ s.remoteIncomingWindowExhaustedBuffer ++ [item], item'.WellFormed) :
    ∃ out s' items, s.onOutgoingTransfer item = (.ok out, s') ∧
      Drained s s' [item] items (itemFrames out) := by
  obtain ⟨out, items, rest, hfits, hframes, heq⟩ := s.onOutgoingTransfer_eq item hwf
  have hwindow := s.sendAll_remoteIncomingWindow items
  have hwithin := hfits.withinWindow
  have hframe := s.sendAll_frame items
  refine ⟨out, _, items, heq, ⟨hfits.split.symm, s.sendAll_nextOutgoingDeliveryId items, ?_⟩,
    ?_, ?_, ?_, ?_⟩
  · rw [hframes, transfersOf_framesFor]
  · rw [hframe]
    rfl
  · rw [hframe]
    rfl
  · simp only [withBuffer, hwindow]
    omega
  · intro hwaiting
    have hlength := hfits.exhausted hwaiting
    simp only [withBuffer, hwindow]
    omega

/-- A mapped session handles every link frame. -/
theorem onOutgoingLinkFrames_drained (hmapped : s.localState = .mapped) (htight : s.WindowTight)
    (hbuffer : ∀ item ∈ s.remoteIncomingWindowExhaustedBuffer, item.WellFormed) {frame : LinkFrame}
    (hframe : frame.Outgoing) :
    (s.onOutgoingLinkFrames frame).result = .ok .continue ∧
      ∃ items, Drained s (s.onOutgoingLinkFrames frame).session frame.transfer?.toList items
        (s.onOutgoingLinkFrames frame).frames := by
  have hdispatch : ¬s.localState ≠ .mapped := not_not_intro hmapped
  have hcontinue : ∀ (s' : Session) (frames : List SessionFrame), s'.localState = s.localState →
      (s'.dispatched frames).result = .ok .continue := by
    intro s' frames hstate
    simp [dispatched, hstate, hmapped]
  have htransfer : ∀ item : BufferedTransfer, item.WellFormed → ∀ out : Dispatched,
      out = s.dispatchTransfer item →
      out.result = .ok .continue ∧ ∃ items, Drained s out.session [item] items out.frames := by
    rintro item hitem _ rfl
    obtain ⟨out, s', items, heq, hdrained⟩ := s.onOutgoingTransfer_drained item fun item' hmem => by
      rcases List.mem_append.mp hmem with hmem | hmem
      · exact hbuffer item' hmem
      · simp only [List.mem_singleton] at hmem
        exact hmem ▸ hitem
    simp only [dispatchTransfer, heq]
    exact ⟨hcontinue s' _ hdrained.localState, items, hdrained⟩
  simp only [onOutgoingLinkFrames, if_neg hdispatch]
  cases frame with
  | firstTransfer frame => exact htransfer _ (hframe _ rfl) _ rfl
  | transferContinuation frame => exact htransfer _ (hframe _ rfl) _ rfl
  | attach attach =>
      exact ⟨hcontinue s _ rfl, [], .of_sending htight rfl rfl rfl rfl⟩
  | flow flow => exact ⟨hcontinue s _ rfl, [], .of_sending htight rfl rfl rfl rfl⟩
  | disposition disposition =>
      obtain ⟨window, heq⟩ := s.onOutgoingDisposition_frame disposition
      simp only [dispatched, heq]
      exact ⟨hcontinue _ [] rfl, [], .of_sending htight rfl rfl rfl rfl⟩
  | detach detach =>
      obtain ⟨slab, names, closing, heq⟩ := s.onOutgoingDetach_frame detach true
      have hplain := transfersOf_of_isPlain (s.onOutgoingDetach_plain detach true)
      simp only [dispatched, heq]
      exact ⟨hcontinue _ [] rfl, [], .of_sending htight rfl rfl rfl hplain⟩
  | remoteTransfer frame => exact hframe.elim
  | acquisition txnId => exact hframe.elim

/-- The transfers among a list of link frames. -/
def queuedTransfers (pending : List LinkFrame) : List BufferedTransfer :=
  pending.flatMap (·.transfer?.toList)

theorem drainLinkFrames_drained (hmapped : s.localState = .mapped) (htight : s.WindowTight)
    (hbuffer : ∀ item ∈ s.remoteIncomingWindowExhaustedBuffer, item.WellFormed)
    {pending : List LinkFrame} (hpending : ∀ frame ∈ pending, frame.Outgoing) :
    (s.drainLinkFrames pending).result = .ok .continue ∧
      ∃ items, Drained s (s.drainLinkFrames pending).session (queuedTransfers pending) items
        (s.drainLinkFrames pending).frames := by
  induction pending generalizing s with
  | nil =>
      exact ⟨by simp [drainLinkFrames, dispatched, hmapped], [], .of_sending htight rfl rfl rfl rfl⟩
  | cons frame pending ih =>
      have hframe := hpending frame (by simp)
      obtain ⟨hresult, items, hdrained⟩ := onOutgoingLinkFrames_drained hmapped htight hbuffer hframe
      obtain ⟨hresult', items', hdrained'⟩ := ih (hdrained.localState.trans hmapped) hdrained.tight
        (hdrained.wellFormed hbuffer fun item hitem => hframe.wellFormed item (by simpa using hitem))
        (fun frame' hmem => hpending frame' (by simp [hmem]))
      simp only [drainLinkFrames, hresult]
      exact ⟨hresult', items ++ items', hdrained.trans hdrained'⟩

theorem setSessionStopReason_drained (htight : s.WindowTight) (reason : SessionStopReason) :
    Drained s (s.setSessionStopReason reason) [] [] [] :=
  .of_sending htight rfl rfl rfl rfl

/-- The End of a mapped session follows what the queue contributed. -/
theorem controlEnd_drained (hmapped : s.localState = .mapped) (htight : s.WindowTight)
    (hbuffer : ∀ item ∈ s.remoteIncomingWindowExhaustedBuffer, item.WellFormed)
    {pending : List LinkFrame} (hpending : ∀ frame ∈ pending, frame.Outgoing) :
    ∃ last s' items, Drained s s' (queuedTransfers pending) items last ∧
      s.controlEnd pending none =
        ⟨last ++ [⟨s.outgoingChannel, .end ⟨none⟩⟩], .ok .continue,
          { s' with localState := .endSent }⟩ := by
  have hstop := setSessionStopReason_drained htight s.stopReasonFromConnection
  obtain ⟨hresult, items, hdrained⟩ :=
    drainLinkFrames_drained (hstop.localState.trans hmapped) hstop.tight hbuffer hpending
  have hall := hstop.trans hdrained
  have hmapped' : ((s.setSessionStopReason s.stopReasonFromConnection).drainLinkFrames
      pending).session.localState = .mapped := hdrained.localState.trans hmapped
  refine ⟨_, _, items, hall, ?_⟩
  simp only [controlEnd, hresult, sendEnd, hmapped', dispatched]
  have hchannel := hdrained.outgoingChannel
  simp only [hchannel]
  rfl

theorem endWithoutHandles_drained (hmapped : s.localState = .mapped) (htight : s.WindowTight)
    (hbuffer : ∀ item ∈ s.remoteIncomingWindowExhaustedBuffer, item.WellFormed)
    {pending : List LinkFrame} (hpending : ∀ frame ∈ pending, frame.Outgoing) :
    ∃ last s' items, Drained s s' (queuedTransfers pending) items last ∧
      s.endWithoutHandles pending =
        (last ++ [⟨s.outgoingChannel, .end ⟨none⟩⟩], { s' with localState := .endSent }) := by
  have hstop := setSessionStopReason_drained htight s.stopReasonFromConnection
  induction pending generalizing s with
  | nil =>
      refine ⟨[], _, [], hstop, ?_⟩
      have hmapped' : (s.setSessionStopReason s.stopReasonFromConnection).localState = .mapped :=
        hmapped
      simp only [endWithoutHandles, sendEnd, hmapped']
      rfl
  | cons frame pending ih =>
      have hframe := hpending frame (by simp)
      obtain ⟨-, items, hone⟩ := onOutgoingLinkFrames_drained (hstop.localState.trans hmapped)
        hstop.tight hbuffer hframe
      have hdrained := hstop.trans hone
      obtain ⟨last, s', items', hrest, heq⟩ := ih (hdrained.localState.trans hmapped) hdrained.tight
        (hdrained.wellFormed hbuffer fun item hitem => hframe.wellFormed item (by simpa using hitem))
        (fun frame' hmem => hpending frame' (by simp [hmem]))
        (setSessionStopReason_drained hdrained.tight _)
      refine ⟨_, s', items ++ items', hdrained.trans hrest, ?_⟩
      simp only [endWithoutHandles, heq, hone.outgoingChannel]
      simp [setSessionStopReason]

end Session

/-- No End lets the event loop go on. -/
theorem Session.dispatchEnd_result (s : Session) (pending : List LinkFrame) (end' : End) :
    (s.dispatchEnd pending end').result ≠ .ok .continue := by
  have hend : (s.onIncomingEnd end').2.localState = .endReceived →
      ∃ e, (s.onIncomingEnd end').1 = .error e := by
    intro hstate
    simp only [onIncomingEnd] at hstate ⊢
    split at hstate
    all_goals cases herror : end'.error <;> simp_all
  have hok : ∀ u, (s.onIncomingEnd end').1 = .ok u →
      (s.onIncomingEnd end').2.localState = .unmapped := by
    intro u hu
    simp only [onIncomingEnd] at hu ⊢
    split at hu
    all_goals cases herror : end'.error <;> simp_all
  simp only [dispatchEnd]
  generalize s.onIncomingEnd end' = outcome at hend hok ⊢
  obtain ⟨result, s'⟩ := outcome
  simp only at hend hok ⊢
  split_ifs with hreceived
  · obtain ⟨e, rfl⟩ := hend hreceived
    split
    · simp
    · split <;> simp
  · cases result with
    | error e => simp
    | ok u =>
        have hunmapped := hok u rfl
        simp [dispatched, hunmapped]

/-- An incoming frame after which the event loop goes on. -/
theorem Session.onIncoming_continue {s : Session} (htight : s.WindowTight)
    (hbuffer : ∀ item ∈ s.remoteIncomingWindowExhaustedBuffer, item.WellFormed)
    (hwaits : s.localState ≠ .mapped → s.remoteIncomingWindowExhaustedBuffer = [])
    {pending : List LinkFrame} {frame : SessionFrame}
    (h : (s.onIncoming pending frame).result = .ok .continue) :
    (∃ items, Sent s (s.onIncoming pending frame).session [] items
      (s.onIncoming pending frame).frames) ∧
    (s.onIncoming pending frame).session.WindowTight ∧
    ((s.onIncoming pending frame).session.localState ≠ .mapped →
      (s.onIncoming pending frame).session.remoteIncomingWindowExhaustedBuffer = []) := by
  have hsent := s.onIncoming_sent pending frame hbuffer
  refine ⟨hsent, ?_⟩
  obtain ⟨channel, body⟩ := frame
  by_cases hend : ∃ end', body = .end end'
  · obtain ⟨end', rfl⟩ := hend
    exact absurd h (s.dispatchEnd_result pending end')
  by_cases hbegin : ∃ begin', body = .begin begin'
  · obtain ⟨begin', rfl⟩ := hbegin
    -- a Begin is accepted before the session is mapped, when nothing waits yet
    have hempty : (s.onIncoming pending
        ⟨channel, .begin begin'⟩).session.remoteIncomingWindowExhaustedBuffer = [] := by
      simp only [onIncoming, onIncomingBegin] at h ⊢
      cases hstate : s.localState <;> simp_all [dispatched]
    exact ⟨fun hwaiting => absurd hempty hwaiting, fun _ => hempty⟩
  by_cases hflow : ∃ flow, body = .flow flow
  · obtain ⟨flow, rfl⟩ := hflow
    have hstate := s.onIncoming_localState pending ⟨channel, .flow flow⟩
      (fun begin' hbody => hbegin ⟨begin', hbody⟩) (fun end' hbody => hend ⟨end', hbody⟩)
    obtain ⟨links, -, heq⟩ := s.onIncomingFlow_eq flow hbuffer
    rcases heq with ⟨e, heq⟩ | ⟨out, reply, items, rest, hfits, -, heq⟩
    · simp [onIncoming, heq] at h
    · simp only [onIncoming, heq, dispatched] at hstate ⊢
      refine ⟨fun hwaiting => ?_, fun hunmapped => ?_⟩
      · have hexhausted := hfits.exhausted hwaiting
        have hwindow := ((s.applySessionFlow flow).withLinks links).sendAll_remoteIncomingWindow items
        simp only [withBuffer] at hwindow ⊢
        omega
      · rw [hstate] at hunmapped
        have hsplit := hfits.split
        rw [show ((s.applySessionFlow flow).withLinks links).remoteIncomingWindowExhaustedBuffer = []
          from hwaits hunmapped] at hsplit
        exact (List.append_eq_nil_iff.mp hsplit.symm).2
  · obtain ⟨hsending, -⟩ := s.onIncoming_sending pending ⟨channel, body⟩
      (fun begin' hbody => hbegin ⟨begin', hbody⟩) (fun flow hbody => hflow ⟨flow, hbody⟩)
    have hstate := s.onIncoming_localState pending ⟨channel, body⟩
      (fun begin' hbody => hbegin ⟨begin', hbody⟩) (fun end' hbody => hend ⟨end', hbody⟩)
    obtain ⟨-, hwindow, hkept⟩ : _ ∧
        (s.onIncoming pending ⟨channel, body⟩).session.remoteIncomingWindow =
          s.remoteIncomingWindow ∧
        (s.onIncoming pending ⟨channel, body⟩).session.remoteIncomingWindowExhaustedBuffer =
          s.remoteIncomingWindowExhaustedBuffer := by
      simpa [sending] using hsending
    refine ⟨fun hwaiting => ?_, fun hunmapped => ?_⟩
    · rw [hwindow]
      exact htight (hkept ▸ hwaiting)
    · rw [hkept]
      exact hwaits (hstate ▸ hunmapped)

/-- Links hand over what links build. -/
def SessionEngineEvent.FromLinks : SessionEngineEvent → Prop
  | .handOver frame => frame.Outgoing
  | _ => True

namespace SessionEngine

open Session (queuedTransfers)

/-! ## Runs of the engine -/

/-- The transfers that an event hands over to the engine; a closed queue takes none. -/
def accepts (e : SessionEngine) : SessionEngineEvent → List BufferedTransfer
  | .handOver frame =>
      match e.phase with
      | .stopped _ => []
      | _ => if e.linkFramesClosed then [] else frame.transfer?.toList
  | _ => []

/-- The transfers handed over in a run, in order. -/
def handedOver (e : SessionEngine) : List SessionEngineEvent → List BufferedTransfer
  | [] => []
  | event :: events => e.accepts event ++ handedOver (e.step event).1 events

theorem handedOver_append (e : SessionEngine) (events events' : List SessionEngineEvent) :
    e.handedOver (events ++ events') =
      e.handedOver events ++ (Run.run step e events).1.handedOver events' := by
  induction events generalizing e with
  | nil => rfl
  | cons event events ih => simp [handedOver, Run.run, ih]

/-- The engine before its end: what was handed over has been emitted, waits or is queued. -/
structure Serving (s₀ : Session) (handed : List BufferedTransfer) (frames : List SessionFrame)
    (e : SessionEngine) : Prop where
  queued : ∀ frame ∈ e.outgoingLinkFrames, frame.Outgoing
  buffered : ∀ item ∈ e.session.remoteIncomingWindowExhaustedBuffer, item.WellFormed
  tight : e.session.WindowTight
  waits : e.session.localState ≠ .mapped → e.session.remoteIncomingWindowExhaustedBuffer = []
  sent : ∃ taken items, taken ++ queuedTransfers e.outgoingLinkFrames = handed ∧
    Sent s₀ e.session taken items frames

/-- In the event loop the link-frame queue is open until the session sends its End. -/
structure LoopInvariant (s₀ : Session) (handed : List BufferedTransfer)
    (frames : List SessionFrame) (e : SessionEngine) : Prop where
  closed : e.linkFramesClosed = true →
    e.session.localState = .endSent ∨ e.session.localState = .discarding
  serving : e.linkFramesClosed = false → Serving s₀ handed frames e

theorem endSession_phase (e : SessionEngine) (cause : SessionInnerError) (error : Option Error) :
    (e.endSession cause error).1.phase ≠ .eventLoop := by
  simp only [endSession]
  split
  · simp [stop]
  · split <;> simp [stop]
  · split <;> simp [stop]
  · split <;> simp [stop]
  · simp
  · split <;> simp [stop]
  · simp

theorem onError_phase (e : SessionEngine) (error : SessionInnerError) :
    (e.onError error).1.phase ≠ .eventLoop := by
  cases error with
  | connectionStopped reason => simp [onError, stop]
  | _ => exact e.endSession_phase _ _

/-- A turn of the loop that stays in the loop. -/
theorem settle_eventLoop {e : SessionEngine} {out : Session.Dispatched}
    (h : (e.settle out).1.phase = .eventLoop) :
    out.result = .ok .continue ∧ e.settle out = (e.withSession out.session, out.frames) := by
  cases hresult : out.result with
  | error error =>
      simp only [settle, hresult] at h
      exact absurd h (onError_phase _ _)
  | ok running =>
      cases running with
      | stop => simp [settle, hresult, stop] at h
      | «continue» => exact ⟨rfl, by simp [settle, hresult]⟩

theorem onHandlesDropped_phase (e : SessionEngine) : e.onHandlesDropped.1.phase ≠ .eventLoop := by
  simp only [onHandlesDropped]
  split
  · split <;> simp [stop]
  · split <;> simp [stop]
  · simp
  · simp
  · simp [stop]

/-- An engine that has left the event loop does not come back to it. -/
theorem step_phase {e : SessionEngine} (h : e.phase ≠ .eventLoop) (event : SessionEngineEvent) :
    (e.step event).1.phase ≠ .eventLoop := by
  cases event with
  | incoming frame =>
      simp only [step]
      cases hphase : e.phase with
      | eventLoop => exact absurd hphase h
      | waitForRemoteEnd discard thenEnd cause =>
          cases frame with
          | none => simp [stop]
          | some frame =>
              simp only [onWaiting]
              split
              · split
                · split <;> simp [stop]
                · simp [stop]
              · split
                · simp [hphase]
                · split <;> simp [stop, withSession, hphase]
      | handlesDropped =>
          cases frame with
          | none => simp [stop]
          | some frame => exact onHandlesDropped_phase _
      | stopped outcome => cases frame <;> simp [hphase]
  | control control =>
      simp only [step]
      cases hphase : e.phase with
      | eventLoop => exact absurd hphase h
      | _ => cases control <;> simp [hphase]
  | linkFrame =>
      simp only [step]
      cases hphase : e.phase with
      | eventLoop => exact absurd hphase h
      | _ => simp [hphase]
  | handOver frame =>
      simp only [step]
      split
      · exact h
      · split
        · exact h
        · exact h
  | endpoint links => exact h
  | connectionStop reason => exact h

variable {s₀ : Session} {handed : List BufferedTransfer} {frames frames' : List SessionFrame}
  {e : SessionEngine}

/-- The session moves on without taking a link frame. -/
theorem Serving.advance (h : Serving s₀ handed frames e) {s' : Session}
    (hsent : ∃ items, Sent e.session s' [] items frames') (htight : s'.WindowTight)
    (hwaits : s'.localState ≠ .mapped → s'.remoteIncomingWindowExhaustedBuffer = []) :
    Serving s₀ handed (frames ++ frames') (e.withSession s') := by
  obtain ⟨items', hsent⟩ := hsent
  obtain ⟨taken, items, hhanded, hbefore⟩ := h.sent
  refine ⟨h.queued, ?_, htight, hwaits, taken, items ++ items', hhanded, ?_⟩
  · exact hsent.wellFormed (by simpa using h.buffered)
  · have hall := hbefore.trans hsent
    rwa [List.append_nil] at hall

/-- The session moves on without touching the outgoing transfers. -/
theorem Serving.of_sending (h : Serving s₀ handed frames e) {s' : Session}
    (hsending : s'.sending = e.session.sending) (hstate : s'.localState = e.session.localState)
    (hframes : transfersOf frames' = []) :
    Serving s₀ handed (frames ++ frames') (e.withSession s') := by
  obtain ⟨-, hwindow, hbuffer⟩ : _ ∧
      s'.remoteIncomingWindow = e.session.remoteIncomingWindow ∧
      s'.remoteIncomingWindowExhaustedBuffer = e.session.remoteIncomingWindowExhaustedBuffer := by
    simpa [Session.sending] using hsending
  refine h.advance ⟨[], .of_sending hsending hframes⟩ ?_ ?_
  · intro hwaiting
    rw [hwindow]
    exact h.tight (hbuffer ▸ hwaiting)
  · rw [hbuffer, hstate]
    exact h.waits

theorem LoopInvariant.of_sending (h : LoopInvariant s₀ handed frames e) {s' : Session}
    (hsending : s'.sending = e.session.sending) (hstate : s'.localState = e.session.localState)
    (hframes : transfersOf frames' = []) :
    LoopInvariant s₀ handed (frames ++ frames') (e.withSession s') where
  closed := by
    intro hclosed
    simp only [withSession, hstate]
    exact h.closed hclosed
  serving := fun hopen => (h.serving hopen).of_sending hsending hstate hframes

theorem onIncoming_loopInvariant (h : LoopInvariant s₀ handed frames e) {frame : SessionFrame}
    (hloop : (e.onIncoming frame).1.phase = .eventLoop) :
    LoopInvariant s₀ handed (frames ++ (e.onIncoming frame).2) (e.onIncoming frame).1 := by
  simp only [onIncoming] at hloop ⊢
  obtain ⟨hresult, heq⟩ := settle_eventLoop hloop
  rw [heq]
  by_cases hend : ∃ end', frame.body = .end end'
  · obtain ⟨end', hend⟩ := hend
    simp only [Session.onIncoming, hend] at hresult
    exact absurd hresult (e.session.dispatchEnd_result _ end')
  have hopen : closesLinkFrames e.session frame = false := by
    cases hbody : frame.body with
    | «end» end' => exact absurd ⟨end', hbody⟩ hend
    | _ => simp [closesLinkFrames, hbody]
  rw [hopen]
  refine ⟨fun hclosed => ?_, fun hopen' => ?_⟩
  · have hstate := h.closed hclosed
    by_cases hbegin : ∃ begin', frame.body = .begin begin'
    · -- after the End a Begin is an error
      obtain ⟨begin', hbegin⟩ := hbegin
      simp only [Session.onIncoming, hbegin, Session.onIncomingBegin] at hresult
      rcases hstate with hstate | hstate <;> simp [hstate] at hresult
    · have hkept := e.session.onIncoming_localState e.outgoingLinkFrames frame
        (fun begin' hbody => hbegin ⟨begin', hbody⟩) (fun end' hbody => hend ⟨end', hbody⟩)
      simpa [withSession, hkept] using hstate
  · have hserving := h.serving hopen'
    obtain ⟨hsent, htight, hwaits⟩ := Session.onIncoming_continue hserving.tight hserving.buffered
      hserving.waits hresult
    exact hserving.advance hsent htight hwaits

theorem onControl_loopInvariant (h : LoopInvariant s₀ handed frames e) {control : SessionControl}
    (hloop : (e.onControl control).1.phase = .eventLoop) :
    LoopInvariant s₀ handed (frames ++ (e.onControl control).2) (e.onControl control).1 := by
  have hresponded : ∀ (s : Session) (dropped : Bool), s.sending = e.session.sending →
      s.localState = e.session.localState →
      (e.settle (s.responded dropped)).1.phase = .eventLoop →
      LoopInvariant s₀ handed (frames ++ (e.settle (s.responded dropped)).2)
        (e.settle (s.responded dropped)).1 := by
    intro s dropped hsending hstate hloop
    obtain ⟨hresult, heq⟩ := settle_eventLoop hloop
    rw [heq]
    cases dropped with
    | true => simp [Session.responded] at hresult
    | false => exact h.of_sending hsending hstate rfl
  cases control with
  | «end» error =>
      simp only [onControl] at hloop ⊢
      obtain ⟨hresult, heq⟩ := settle_eventLoop hloop
      rw [heq]
      refine ⟨fun _ => ?_, fun hopen => by simp [withSession, closeLinkFrames] at hopen⟩
      simp only [withSession, Session.controlEnd] at hresult ⊢
      generalize Session.drainLinkFrames _ _ = drained at hresult ⊢
      cases hdrained : drained.result with
      | error error => simp [hdrained] at hresult
      | ok running =>
          simp only [hdrained, Session.sendEnd] at hresult ⊢
          cases hstate : drained.session.localState <;> cases error <;>
            simp_all [Session.dispatched]
  | allocateLink linkName linkRelay responderDropped =>
      obtain ⟨slab, names, hframe⟩ := e.session.allocateLink_frame linkName (some linkRelay)
      exact hresponded _ _ (by rw [hframe]; rfl) (by rw [hframe]) hloop
  | allocateIncomingLink linkName linkRelay inputHandle responderDropped =>
      obtain ⟨slab, names, relays, hframe⟩ :=
        e.session.allocateIncomingLink_frame linkName linkRelay inputHandle
      exact hresponded _ _ (by rw [hframe]; rfl) (by rw [hframe]) hloop
  | deallocateLink outputHandle =>
      simp only [onControl] at hloop ⊢
      obtain ⟨-, heq⟩ := settle_eventLoop hloop
      obtain ⟨slab, names, hframe⟩ := e.session.deallocateLink_frame outputHandle
      rw [heq]
      simp only [Session.dispatched]
      exact h.of_sending (by rw [hframe]; rfl) (by rw [hframe]) rfl
  | disposition disposition =>
      simp only [onControl] at hloop ⊢
      obtain ⟨-, heq⟩ := settle_eventLoop hloop
      obtain ⟨window, hframe⟩ := e.session.onOutgoingDisposition_frame disposition
      rw [heq]
      simp only [Session.dispatched]
      exact h.of_sending (by rw [hframe]; rfl) (by rw [hframe]) rfl
  | closeConnectionWithError condition description =>
      simp only [onControl] at hloop ⊢
      obtain ⟨-, heq⟩ := settle_eventLoop hloop
      rw [heq]
      have hkept : LoopInvariant s₀ handed (frames ++ []) (e.withSession e.session) :=
        h.of_sending rfl rfl rfl
      exact ⟨hkept.closed, fun hopen => by
        have hserving := hkept.serving hopen
        exact ⟨hserving.queued, hserving.buffered, hserving.tight, hserving.waits, hserving.sent⟩⟩
  | allocateTransactionId responderDropped => exact hresponded _ _ rfl rfl hloop
  | commitTransaction txnId responderDropped => exact hresponded _ _ rfl rfl hloop
  | rollbackTransaction txnId responderDropped => exact hresponded _ _ rfl rfl hloop
  | abortTransaction txnId =>
      simp only [onControl] at hloop ⊢
      obtain ⟨-, heq⟩ := settle_eventLoop hloop
      rw [heq]
      exact h.of_sending rfl rfl rfl

theorem linkFrame_loopInvariant (h : LoopInvariant s₀ handed frames e) (hphase : e.phase = .eventLoop)
    (hloop : (e.step .linkFrame).1.phase = .eventLoop) :
    LoopInvariant s₀ handed (frames ++ (e.step .linkFrame).2) (e.step .linkFrame).1 := by
  simp only [step, hphase] at hloop ⊢
  cases hqueue : e.outgoingLinkFrames with
  | nil => simpa [hqueue] using h
  | cons frame pending =>
      simp only [hqueue] at hloop ⊢
      obtain ⟨hresult, heq⟩ := settle_eventLoop hloop
      rw [heq]
      by_cases hmapped : e.session.localState = .mapped
      · refine ⟨fun hclosed => ?_, fun hopen => ?_⟩
        · have hstate := h.closed hclosed
          simp [hmapped] at hstate
        · have hserving := h.serving hopen
          have hframe := hserving.queued frame (by simp [hqueue])
          obtain ⟨-, items', hdrained⟩ := Session.onOutgoingLinkFrames_drained hmapped hserving.tight
            hserving.buffered hframe
          obtain ⟨taken, items, hhanded, hbefore⟩ := hserving.sent
          refine ⟨fun frame' hmem => hserving.queued frame' (by
              rw [hqueue]
              exact List.mem_cons_of_mem _ hmem),
            hdrained.wellFormed hserving.buffered fun item hitem =>
              hframe.wellFormed item (by simpa using hitem),
            hdrained.tight, fun hne => absurd (hdrained.localState.trans hmapped) hne,
            taken ++ frame.transfer?.toList, items ++ items', ?_, hbefore.trans hdrained.sent⟩
          rw [← hhanded, hqueue]
          simp [queuedTransfers, withSession]
      · -- a link frame is an error in any other state
        simp [Session.onOutgoingLinkFrames, hmapped] at hresult

/-- One event keeps the account of what was handed over, as long as the engine stays in its loop. -/
theorem step_loopInvariant (h : e.phase = .eventLoop → LoopInvariant s₀ handed frames e)
    {event : SessionEngineEvent} (hevent : event.FromLinks)
    (hloop : (e.step event).1.phase = .eventLoop) :
    LoopInvariant s₀ (handed ++ e.accepts event) (frames ++ (e.step event).2) (e.step event).1 := by
  have hphase : e.phase = .eventLoop := by
    by_contra hphase
    exact step_phase hphase event hloop
  replace h := h hphase
  cases event with
  | incoming frame =>
      simp only [step, hphase, accepts, List.append_nil] at hloop ⊢
      cases frame with
      | some frame => exact onIncoming_loopInvariant h hloop
      | none =>
          simp only at hloop
          split at hloop
          all_goals first | exact absurd hloop (onError_phase _ _) | simp [stop] at hloop
  | control control =>
      simp only [step, hphase, accepts, List.append_nil] at hloop ⊢
      cases control with
      | some control => exact onControl_loopInvariant h hloop
      | none => exact absurd hloop (onHandlesDropped_phase e)
  | linkFrame =>
      simp only [accepts, List.append_nil]
      exact linkFrame_loopInvariant h hphase hloop
  | handOver frame =>
      simp only [step, hphase, accepts]
      cases hclosed : e.linkFramesClosed with
      | true =>
          simp only [if_true, List.append_nil]
          exact h
      | false =>
          have hserving := h.serving hclosed
          obtain ⟨taken, items, hhanded, hsent⟩ := hserving.sent
          simp only [Bool.false_eq_true, if_false, List.append_nil]
          refine ⟨fun hclosed' => by simp at hclosed', fun _ => ⟨?_, hserving.buffered,
            hserving.tight, hserving.waits, taken, items, ?_, hsent⟩⟩
          · intro frame' hmem
            rcases List.mem_append.mp hmem with hmem | hmem
            · exact hserving.queued frame' hmem
            · simp only [List.mem_singleton] at hmem
              exact hmem ▸ hevent
          · rw [← hhanded]
            simp [queuedTransfers]
  | endpoint links =>
      simp only [step, accepts, List.append_nil]
      have hkept : LoopInvariant s₀ handed (frames ++ []) (e.withSession { e.session with links }) :=
        h.of_sending rfl rfl rfl
      rwa [List.append_nil] at hkept
  | connectionStop reason =>
      simp only [step, accepts, List.append_nil]
      have hkept : LoopInvariant s₀ handed (frames ++ []) (e.withSession { e.session with
          connectionStopReason := e.session.connectionStopReason.or (some reason) }) :=
        h.of_sending rfl rfl rfl
      rwa [List.append_nil] at hkept

theorem start_loopInvariant (builder : SessionBuilder) (outgoingChannel : UInt16)
    (localState : SessionState) (links : LinkStore) :
    LoopInvariant (builder.intoSession outgoingChannel localState links) [] []
      (start builder outgoingChannel localState links) where
  closed := by
    intro hclosed
    cases hclosed
  serving := by
    intro _
    have hempty : (start builder outgoingChannel localState
      links).session.remoteIncomingWindowExhaustedBuffer = [] := rfl
    have hqueue : (start builder outgoingChannel localState links).outgoingLinkFrames = [] := rfl
    refine ⟨by simp [hqueue], by simp [hempty], fun hwaiting => absurd hempty hwaiting,
      fun _ => hempty, [], [], rfl, .of_sending rfl rfl⟩

theorem run_loopInvariant (builder : SessionBuilder) (outgoingChannel : UInt16)
    (localState : SessionState) (links : LinkStore) (events : List SessionEngineEvent)
    (hevents : ∀ event ∈ events, event.FromLinks) :
    let e := Run.run step (start builder outgoingChannel localState links) events
    e.1.phase = .eventLoop →
      LoopInvariant (builder.intoSession outgoingChannel localState links)
        ((start builder outgoingChannel localState links).handedOver events) e.2 e.1 := by
  induction events using List.reverseRecOn with
  | nil => exact fun _ => start_loopInvariant builder outgoingChannel localState links
  | append_singleton events event ih =>
      have hbefore := ih fun event' hmem => hevents event' (by simp [hmem])
      simp only [Run.run_snoc, handedOver_append]
      intro hloop
      have hstep := step_loopInvariant hbefore (hevents event (by simp)) hloop
      simpa [handedOver] using hstep

/-- The request to end a session without an error: by its handle, or by dropping all handles. -/
def RequestsEnd (event : SessionEngineEvent) : Prop :=
  event = .control (some (.end none)) ∨ event = .control none

theorem step_requestsEnd (hphase : e.phase = .eventLoop) (hmapped : e.session.localState = .mapped)
    (htight : e.session.WindowTight)
    (hbuffer : ∀ item ∈ e.session.remoteIncomingWindowExhaustedBuffer, item.WellFormed)
    (hqueue : ∀ frame ∈ e.outgoingLinkFrames, frame.Outgoing) {request : SessionEngineEvent}
    (hrequest : RequestsEnd request) :
    ∃ last s' items, Drained e.session s' (queuedTransfers e.outgoingLinkFrames) items last ∧
      (e.step request).2 = last ++ [⟨e.session.outgoingChannel, .end ⟨none⟩⟩] ∧
      (e.step request).1.session.remoteIncomingWindowExhaustedBuffer =
        s'.remoteIncomingWindowExhaustedBuffer := by
  rcases hrequest with rfl | rfl
  · obtain ⟨last, s', items, hdrained, heq⟩ :=
      Session.controlEnd_drained hmapped htight hbuffer hqueue
    refine ⟨last, s', items, hdrained, ?_⟩
    simp only [step, hphase, onControl, heq, settle]
    exact ⟨trivial, rfl⟩
  · obtain ⟨last, s', items, hdrained, heq⟩ :=
      Session.endWithoutHandles_drained hmapped htight hbuffer hqueue
    refine ⟨last, s', items, hdrained, ?_⟩
    simp only [step, hphase, onHandlesDropped, hmapped, heq]
    exact ⟨trivial, rfl⟩

/-- When a mapped session is asked to end without an error, its End is the last frame that the
request makes it emit; every transfer handed over so far was emitted before it, in order, exactly if
no transfer waits for the window and the window has room for all that are still queued. -/
theorem graceful_end_emits_everything_iff (builder : SessionBuilder) (outgoingChannel : UInt16)
    (localState : SessionState) (links : LinkStore) (events : List SessionEngineEvent)
    (hevents : ∀ event ∈ events, event.FromLinks) (request : SessionEngineEvent)
    (hrequest : RequestsEnd request) :
    let start := start builder outgoingChannel localState links
    let run := Run.run step start events
    let ended := run.1.step request
    run.1.phase = .eventLoop → run.1.session.localState = .mapped →
    ∃ last, ended.2 = last ++ [⟨run.1.session.outgoingChannel, .end ⟨none⟩⟩] ∧
      ((transfersOf (run.2 ++ last) =
            sentTransfers start.session.nextOutgoingDeliveryId (start.handedOver events) ∧
          ended.1.session.remoteIncomingWindowExhaustedBuffer = []) ↔
        run.1.session.remoteIncomingWindowExhaustedBuffer = [] ∧
          (queuedTransfers run.1.outgoingLinkFrames).length ≤
            run.1.session.remoteIncomingWindow.toNat) := by
  intro start run ended hphase hmapped
  have hinvariant := run_loopInvariant builder outgoingChannel localState links events hevents hphase
  have hopen : run.1.linkFramesClosed = false := by
    by_contra hclosed
    have hstate := hinvariant.closed (by simpa using hclosed)
    simp [run, start] at hmapped hstate
    simp [hmapped] at hstate
  have hserving := hinvariant.serving hopen
  obtain ⟨taken, items, hhanded, hsent⟩ := hserving.sent
  obtain ⟨last, s', items', hdrained, hframes, hbuffer⟩ := step_requestsEnd hphase hmapped
    hserving.tight hserving.buffered hserving.queued hrequest
  refine ⟨last, hframes, ?_⟩
  rw [show ended.1.session.remoteIncomingWindowExhaustedBuffer = _ from hbuffer,
    ← hdrained.buffer_eq_nil_iff hserving.tight]
  refine ⟨fun h => h.2, fun hempty => ⟨?_, hempty⟩⟩
  have hall := hsent.trans hdrained.sent
  have hsplit := hall.split
  rw [hempty, List.append_nil, hhanded] at hsplit
  rw [hall.transfers, hsplit]
  rfl

section ExhaustedWindow

private def settledTransfer : LinkFrame :=
  .firstTransfer
    { inputHandle := ⟨7⟩
      performative :=
        { handle := 0, deliveryId := none, deliveryTag := some [0, 0, 0, 0]
          messageFormat := some 0, settled := some true, more := false, rcvSettleMode := none
          state := none, resume := false, aborted := false, batchable := false }
      payload := [1] }

private def grant (window : UInt32) : SessionEngineEvent :=
  .incoming (some ⟨0, .flow
    { nextIncomingId := some 0, incomingWindow := window, nextOutgoingId := 0, outgoingWindow := 10
      handle := none, deliveryCount := none, linkCredit := none, available := none
      drain := false, echo := false, properties := none }⟩)

private theorem settledTransfer_outgoing : settledTransfer.Outgoing := by
  simp [settledTransfer, LinkFrame.Outgoing, LinkFrame.WellFormed, LinkFrame.transfer?,
    BufferedTransfer.WellFormed]

private theorem fromLinks (window : UInt32) :
    ∀ event ∈ [grant window, .handOver settledTransfer], event.FromLinks := by
  simp [grant, SessionEngineEvent.FromLinks, settledTransfer_outgoing]

/-- With room in the window the queued transfer is emitted before the End. -/
theorem graceful_end_emits_everything_iff_open_window :
    let start := start {} 0 .mapped LinkStore.empty
    let run := Run.run step start [grant 5, .handOver settledTransfer]
    let ended := run.1.step (.control none)
    ∃ last, ended.2 = last ++ [⟨0, .end ⟨none⟩⟩] ∧
      transfersOf (run.2 ++ last) =
        sentTransfers start.session.nextOutgoingDeliveryId
          (start.handedOver [grant 5, .handOver settledTransfer]) := by
  intro start run ended
  obtain ⟨last, hframes, hiff⟩ := graceful_end_emits_everything_iff {} 0 .mapped LinkStore.empty
    [grant 5, .handOver settledTransfer] (fromLinks 5) (.control none) (.inr rfl) rfl rfl
  exact ⟨last, hframes, (hiff.mpr ⟨rfl, by decide⟩).1⟩

/-- The window is closed: the session ends while the transfer, which its sender has already reported
as sent, still waits in the buffer. -/
theorem graceful_end_loses_waiting_transfer :
    ¬∀ (builder : SessionBuilder) (outgoingChannel : UInt16) (localState : SessionState)
        (links : LinkStore) (events : List SessionEngineEvent),
      (∀ event ∈ events, event.FromLinks) → ∀ request, RequestsEnd request →
      let start := start builder outgoingChannel localState links
      let run := Run.run step start events
      let ended := run.1.step request
      run.1.phase = .eventLoop → run.1.session.localState = .mapped →
      ∃ last, ended.2 = last ++ [⟨run.1.session.outgoingChannel, .end ⟨none⟩⟩] ∧
        transfersOf (run.2 ++ last) =
            sentTransfers start.session.nextOutgoingDeliveryId (start.handedOver events) ∧
          ended.1.session.remoteIncomingWindowExhaustedBuffer = [] := by
  intro hclaim
  obtain ⟨last, -, -, hempty⟩ := hclaim {} 0 .mapped LinkStore.empty
    [grant 0, .handOver settledTransfer] (fromLinks 0) (.control (some (.end none))) (.inl rfl)
    rfl rfl
  have hlength := congrArg List.length hempty
  revert hlength
  decide

end ExhaustedWindow

end SessionEngine

end Fe2o3Amqp
