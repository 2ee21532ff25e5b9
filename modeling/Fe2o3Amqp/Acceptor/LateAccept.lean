import Fe2o3Amqp.Acceptor.Session
import Fe2o3Amqp.Session.Untouched
import Fe2o3Amqp.Util.Run

/-!
# Accepting a link late

Between the Attach of a link and its acceptance, a listener session handles the frames of the link on
a path of its own.  Two runs are compared: in the late one the link is registered when the
application accepts it, in the early one its relay is put on the input handle when the Attach
arrives.  Both give the link the same handle number.  The runs stay in step as long as no frame for
the link asks for an answer and no transfer waits to be released by one of its Flows.
-/

namespace Fe2o3Amqp

open Classical
open Session (Dispatched itemFrames)

theorem LinkFlow.handle_of_tryFrom {flow : Flow} {linkFlow : LinkFlow}
    (h : LinkFlow.tryFrom flow = some linkFlow) : flow.handle = some linkFlow.handle := by
  unfold LinkFlow.tryFrom at h
  cases hflow : flow.handle with
  | none => simp [hflow] at h
  | some handle =>
      simp only [hflow, Option.map_some, Option.some.injEq] at h
      rw [← h]

/-! ## The listener without a link -/

/-- What a listener keeps, without the Flows for one handle. -/
def ListenerQueues.without (handle : InputHandle) (q : ListenerQueues) : ListenerQueues :=
  { q with pendingLinkFlows := Function.update q.pendingLinkFlows handle [] }

namespace ListenerSession

noncomputable def without (g : LinkGroup) (handle : InputHandle) (l : ListenerSession) :
    ListenerSession :=
  { l.toListenerQueues.without handle with session := l.session.without g }

variable {g : LinkGroup} {handle : InputHandle} {l : ListenerSession}

theorem onIncomingAttach_without (hs : l.session.Apart g) {attach : Attach}
    (hname : attach.name ∉ g.names)
    (hhandle : (⟨attach.handle⟩ : InputHandle) ∈ g.handles →
      ∀ relay, l.session.linkByName attach.name ≠ some (some relay)) :
    (l.without g handle).onIncomingAttach attach =
      Prod.map id (without g handle) (l.onIncomingAttach attach) := by
  have hlisten : ∀ error, (l.without g handle).listen attach error =
      Prod.map id (without g handle) (l.listen attach error) := by
    intro error
    have hdropped : (l.without g handle).linkListener = l.linkListener := rfl
    simp only [listen, hdropped]
    split <;> rfl
  have hlink : (l.without g handle).session.linkByName attach.name =
      l.session.linkByName attach.name := Session.linkByName_without hname
  simp only [onIncomingAttach, hlink]
  cases hentry : l.session.linkByName attach.name with
  | none => exact hlisten _
  | some entry =>
      cases entry with
      | none => exact hlisten _
      | some relay =>
          have hother : (⟨attach.handle⟩ : InputHandle) ∉ g.handles :=
            fun hown => hhandle hown relay hentry
          have hattach : (l.without g handle).session.onIncomingAttach attach =
              Prod.map id (Session.without g) (l.session.onIncomingAttach attach) :=
            Session.onIncomingAttach_without hs hname hother
          simp only [hattach]
          rfl

theorem onIncomingFlow_without {flow : Flow}
    (h : ∀ other, flow.handle = some other → l.session.Spares g ⟨other⟩)
    (hother : flow.handle ≠ some handle.handle) :
    (l.without g handle).onIncomingFlow flow =
      Prod.map id (without g handle) (l.onIncomingFlow flow) := by
  have hflow : (l.without g handle).session.onIncomingFlow flow =
      Prod.map id (Session.without g) (l.session.onIncomingFlow flow) :=
    Session.onIncomingFlow_without h
  simp only [onIncomingFlow, hflow]
  cases l.session.onIncomingFlow flow with
  | mk result session =>
      cases result with
      | ok item => rfl
      | error error =>
          cases error with
          | unattachedHandle =>
              simp only [Prod.map, id]
              cases htry : LinkFlow.tryFrom flow with
              | none => rfl
              | some linkFlow =>
                  -- the Flow is kept for another handle than the masked one
                  have hne : (⟨linkFlow.handle⟩ : InputHandle) ≠ handle := by
                    intro heq
                    apply hother
                    rw [← heq]
                    exact LinkFlow.handle_of_tryFrom htry
                  simp only [without, ListenerQueues.without, Function.update_of_ne hne]
                  rw [Function.update_comm (Ne.symm hne)]
          | remoteAttachingLinkNameNotFound => rfl
          | handleInUse => rfl
          | illegalState => rfl
          | connectionStopped reason => rfl
          | transferFrameToSender => rfl
          | remoteEnded => rfl
          | remoteEndedWithError error => rfl
          | unknownTxnId => rfl

theorem onIncomingTransfer_without {transfer : Transfer}
    (h : l.session.Spares g ⟨transfer.handle⟩) (payload : Payload) :
    (l.without g handle).onIncomingTransfer transfer payload =
      Prod.map id (without g handle) (l.onIncomingTransfer transfer payload) := by
  have htransfer : (l.without g handle).session.onIncomingTransfer transfer payload =
      Prod.map id (Session.without g) (l.session.onIncomingTransfer transfer payload) :=
    Session.onIncomingTransfer_without h payload
  simp only [onIncomingTransfer, htransfer]
  cases l.session.onIncomingTransfer transfer payload with
  | mk result session =>
      cases result with
      | ok disposition => rfl
      | error error => cases error <;> rfl

/-- A frame with a method of the listener that is for no link of the group. -/
def SparesIncoming (g : LinkGroup) (handle : InputHandle) (l : ListenerSession)
    (frame : SessionFrame) : Prop :=
  match frame.body with
  | .attach attach => attach.name ∉ g.names ∧ ((⟨attach.handle⟩ : InputHandle) ∈ g.handles →
      ∀ relay, l.session.linkByName attach.name ≠ some (some relay))
  | .flow flow => (∀ other, flow.handle = some other → l.session.Spares g ⟨other⟩) ∧
      flow.handle ≠ some handle.handle
  | _ => l.session.SparesIncoming g frame

theorem onIncoming_without (hs : l.session.Apart g) {frame : SessionFrame}
    (h : l.SparesIncoming g handle frame) :
    (l.without g handle).onIncoming frame =
      (l.onIncoming frame).map (Prod.map (Dispatched.without g) (ListenerQueues.without handle)) := by
  obtain ⟨channel, body⟩ := frame
  cases body with
  | attach attach =>
      simp only [onIncoming, onIncomingAttach_without hs h.1 h.2]
      cases l.onIncomingAttach attach with
      | mk result l' => cases result <;> rfl
  | flow flow =>
      simp only [onIncoming, onIncomingFlow_without h.1 h.2]
      cases l.onIncomingFlow flow with
      | mk result l' => cases result <;> rfl
  | transfer performative payload =>
      simp only [onIncoming, onIncomingTransfer_without h]
      cases l.onIncomingTransfer performative payload with
      | mk result l' =>
          cases result with
          | error e => rfl
          | ok disposition =>
              have hsession : (l'.without g handle).session = l'.session.without g := rfl
              simp only [Prod.map, id, hsession, Session.sendDispositions_without,
                Session.maybeOutgoingSessionFlow_without]
              rfl
  | begin begin' => rfl
  | disposition disposition => rfl
  | detach detach => rfl
  | «end» end' => rfl

end ListenerSession

namespace LinkRelay

variable {cells : Set LinkId} {relay : LinkRelay OutputHandle}

theorem replay_without (h : relay.link ∉ cells) (store : LinkStore) (flow : LinkFlow) :
    relay.replay (store.without cells) flow = (relay.replay store flow).without cells := by
  cases relay with
  | sender link outputHandle mode | receiver link outputHandle mode more =>
      have hlink : link ∉ cells := h
      simp only [replay, LinkStore.modify_without hlink]

theorem foldl_replay_without (h : relay.link ∉ cells) (flows : List LinkFlow) (store : LinkStore) :
    flows.foldl relay.replay (store.without cells) =
      (flows.foldl relay.replay store).without cells := by
  induction flows generalizing store with
  | nil => rfl
  | cons flow flows ih => rw [List.foldl_cons, List.foldl_cons, replay_without h, ih]

end LinkRelay

/-- An accepted link is registered on its input handle. -/
theorem Session.allocateIncomingLink_registers {s s' : Session} {linkName : String}
    {linkRelay : LinkRelay Unit} {inputHandle : InputHandle} {outputHandle : OutputHandle}
    (h : s.allocateIncomingLink linkName linkRelay inputHandle = (.ok outputHandle, s')) :
    s'.linkByInputHandle inputHandle = some (linkRelay.withOutputHandle outputHandle) := by
  simp only [Session.allocateIncomingLink] at h
  split at h
  · next handle' s'' _ =>
      cases h
      simp
  · cases h

namespace ListenerSession

variable {g : LinkGroup} {handle : InputHandle} {l : ListenerSession}

theorem allocateIncomingLink_without {linkName : String} (hname : linkName ∉ g.names)
    {linkRelay : LinkRelay Unit} (hrelay : linkRelay.link ∉ g.cells) {inputHandle : InputHandle}
    (hhandle : inputHandle ∉ g.handles) (hother : inputHandle ≠ handle) :
    (l.without g handle).allocateIncomingLink linkName linkRelay inputHandle =
      Prod.map id (without g handle) (l.allocateIncomingLink linkName linkRelay inputHandle) := by
  have halloc : (l.without g handle).session.allocateIncomingLink linkName linkRelay inputHandle =
      Prod.map id (Session.without g)
        (l.session.allocateIncomingLink linkName linkRelay inputHandle) :=
    Session.allocateIncomingLink_without hname hrelay hhandle
  simp only [allocateIncomingLink, halloc]
  cases hresult : l.session.allocateIncomingLink linkName linkRelay inputHandle with
  | mk result session =>
      cases result with
      | error e => rfl
      | ok outputHandle =>
          have hregistered := Session.allocateIncomingLink_registers hresult
          have hlink : (linkRelay.withOutputHandle outputHandle).link ∉ g.cells := by
            cases linkRelay <;> exact hrelay
          have hspares : session.Spares g inputHandle := by
            refine ⟨hhandle, fun relay hsome => ?_⟩
            rw [hregistered] at hsome
            rw [← Option.some.inj hsome]
            exact hlink
          have hkept : (l.without g handle).pendingLinkFlows inputHandle =
              l.pendingLinkFlows inputHandle := by
            simp [without, ListenerQueues.without, hother]
          have hlinks : (session.without g).links = session.links.without g.cells := rfl
          simp only [Prod.map, id, Session.linkByInputHandle_without hspares, hregistered, hkept,
            hlinks, LinkRelay.foldl_replay_without hlink]
          simp only [without, ListenerQueues.without, Function.update_comm (Ne.symm hother)]
          rfl

end ListenerSession

/-! ## The engine without a link -/

namespace SessionEngine

theorem resume_without {g : LinkGroup} (e : SessionEngine) (out : Dispatched) :
    (e.without g).resume (out.without g) = Prod.map (without g) id (e.resume out) := by
  have hphase : (e.without g).phase = e.phase := rfl
  have hresult : (out.without g).result = out.result := rfl
  have hdropped : ((e.without g).withSession (out.without g).session).onHandlesDropped =
      Prod.map (without g) id (e.withSession out.session).onHandlesDropped :=
    onHandlesDropped_without (e := e.withSession out.session)
  simp only [resume, hphase, hresult, hdropped]
  cases e.phase with
  | waitForRemoteEnd discardOtherFrame thenEnd cause =>
      dsimp only
      split <;> rfl
  | handlesDropped => rfl
  | eventLoop => exact settle_without e out
  | stopped outcome => exact settle_without e out

end SessionEngine

namespace ListenerSessionEngine

noncomputable def without (g : LinkGroup) (handle : InputHandle) (l : ListenerSessionEngine) :
    ListenerSessionEngine :=
  ⟨l.engine.without g, l.listener.without handle⟩

variable {g : LinkGroup} {handle : InputHandle} {l : ListenerSessionEngine}

theorem onIncoming_without (hs : l.engine.session.Apart g) {frame : SessionFrame}
    (h : l.session.SparesIncoming g handle frame) :
    (l.without g handle).onIncoming frame =
      Prod.map (without g handle) id (l.onIncoming frame) := by
  have hout : (l.without g handle).session.onIncoming frame = (l.session.onIncoming frame).map
      (Prod.map (Dispatched.without g) (ListenerQueues.without handle)) :=
    ListenerSession.onIncoming_without hs h
  have hphase : (l.without g handle).engine.phase = l.engine.phase := rfl
  simp only [onIncoming, hout, hphase]
  cases hdispatch : l.session.onIncoming frame with
  | none =>
      have hspares : l.engine.Spares g (.incoming (some frame)) := by
        obtain ⟨channel, body⟩ := frame
        cases body <;> first | exact h | cases hdispatch
      have hstep : (l.engine.without g).step (.incoming (some frame)) =
          Prod.map (SessionEngine.without g) id (l.engine.step (.incoming (some frame))) :=
        SessionEngine.step_without hs hspares
      simp only [Option.map_none, stepEngine]
      have hengine : (l.without g handle).engine = l.engine.without g := rfl
      rw [hengine, hstep]
      rfl
  | some out =>
      have hresume : (l.without g handle).engine.resume (out.1.without g) =
          Prod.map (SessionEngine.without g) id (l.engine.resume out.1) :=
        SessionEngine.resume_without l.engine out.1
      simp only [Option.map_some, Prod.map, hresume]
      cases l.engine.phase with
      | eventLoop => rfl
      | handlesDropped => rfl
      | stopped outcome => rfl
      | waitForRemoteEnd discardOtherFrame thenEnd cause => cases discardOtherFrame <;> rfl

theorem allocateIncomingLink_without {linkName : String} (hname : linkName ∉ g.names)
    {linkRelay : LinkRelay Unit} (hrelay : linkRelay.link ∉ g.cells) {inputHandle : InputHandle}
    (hhandle : inputHandle ∉ g.handles) (hother : inputHandle ≠ handle) (responderDropped : Bool) :
    (l.without g handle).allocateIncomingLink linkName linkRelay inputHandle responderDropped =
      Prod.map (without g handle) id
        (l.allocateIncomingLink linkName linkRelay inputHandle responderDropped) := by
  have halloc : (l.without g handle).session.allocateIncomingLink linkName linkRelay inputHandle =
      Prod.map id (ListenerSession.without g handle)
        (l.session.allocateIncomingLink linkName linkRelay inputHandle) :=
    ListenerSession.allocateIncomingLink_without (l := l.session) hname hrelay hhandle hother
  have hphase : (l.without g handle).engine.phase = l.engine.phase := rfl
  simp only [allocateIncomingLink, halloc, hphase]
  cases l.session.allocateIncomingLink linkName linkRelay inputHandle with
  | mk result session =>
      have hsession : (session.without g handle).session = session.session.without g := rfl
      have hsettle : (l.without g handle).engine.settle
          ((session.session.responded responderDropped).without g) =
            Prod.map (SessionEngine.without g) id
              (l.engine.settle (session.session.responded responderDropped)) :=
        SessionEngine.settle_without l.engine _
      simp only [Prod.map, id, hsession, Session.responded_without, hsettle]
      cases l.engine.phase <;> rfl

/-- An event that is for no link of the group. -/
def Spares (g : LinkGroup) (handle : InputHandle) (l : ListenerSessionEngine) :
    ListenerSessionEvent → Prop
  | .engine (.incoming (some frame)) => l.session.SparesIncoming g handle frame
  | .engine (.control (some (.allocateIncomingLink linkName linkRelay inputHandle _))) =>
      linkName ∉ g.names ∧ linkRelay.link ∉ g.cells ∧ inputHandle ∉ g.handles ∧ inputHandle ≠ handle
  | .engine event => l.engine.Spares g event
  | .listener _ => True

theorem stepEngine_without (hs : l.engine.Apart g) (event : SessionEngineEvent)
    (h : l.engine.Spares g event) :
    (l.without g handle).stepEngine (event.without g) =
      Prod.map (without g handle) id (l.stepEngine event) := by
  have hstep : (l.without g handle).engine.step (event.without g) =
      Prod.map (SessionEngine.without g) id (l.engine.step event) :=
    SessionEngine.step_without hs h
  simp only [stepEngine, hstep]
  rfl

end ListenerSessionEngine

noncomputable def ListenerSessionEvent.without (g : LinkGroup) :
    ListenerSessionEvent → ListenerSessionEvent
  | .engine event => .engine (event.without g)
  | event => event

namespace ListenerSessionEngine

variable {g : LinkGroup} {handle : InputHandle} {l : ListenerSessionEngine}

theorem step_without (hs : l.engine.Apart g) {event : ListenerSessionEvent}
    (h : l.Spares g handle event) :
    (l.without g handle).step (event.without g) =
      Prod.map (without g handle) id (l.step event) := by
  cases event with
  | listener linkListener => rfl
  | engine event =>
      cases event with
      | incoming frame =>
          cases frame with
          | none => exact stepEngine_without hs (.incoming none) h
          | some frame => exact onIncoming_without hs h
      | control control =>
          cases control with
          | none => exact stepEngine_without hs (.control none) h
          | some control =>
              cases control with
              | allocateIncomingLink linkName linkRelay inputHandle responderDropped =>
                  exact allocateIncomingLink_without h.1 h.2.1 h.2.2.1 h.2.2.2 responderDropped
              | _ => exact stepEngine_without hs (.control (some _)) h
      | linkFrame => exact stepEngine_without hs .linkFrame h
      | handOver frame => exact stepEngine_without hs (.handOver frame) h
      | endpoint links => exact stepEngine_without hs (.endpoint links) h
      | connectionStop reason => exact stepEngine_without hs (.connectionStop reason) h

end ListenerSessionEngine

/-! ## The tables along a step -/

namespace ListenerSession

open Session (Untouched)

variable {l : ListenerSession} {out : Dispatched} {q : ListenerQueues} {frame : SessionFrame}

theorem onIncoming_runs (h : l.onIncoming frame = some (out, q)) :
    LinkTables.Runs (SessionEngine.Allows (.incoming (some frame))) l.session.tables
      out.session.tables := by
  obtain ⟨channel, body⟩ := frame
  cases body with
  | attach attach =>
      have hattach : LinkTables.Runs (SessionEngine.Allows (.incoming (some ⟨channel, .attach attach⟩)))
          l.session.tables (l.onIncomingAttach attach).2.session.tables := by
        have hlisten : ∀ error, (l.listen attach error).2.session = l.session := by
          intro error
          unfold listen
          split <;> rfl
        unfold onIncomingAttach
        split
        · exact .of_step (.inr ⟨_, rfl⟩) (l.session.onIncomingAttach_tables attach)
        · exact .of_eq (by rw [hlisten])
        · exact .of_eq (by rw [hlisten])
      simp only [onIncoming, Option.some.injEq] at h
      cases hresult : l.onIncomingAttach attach with
      | mk result l' =>
          rw [hresult] at h hattach
          cases result <;> cases h <;> exact hattach
  | flow flow =>
      have hflow : (l.onIncomingFlow flow).2.session.tables = l.session.tables := by
        have htables := l.session.onIncomingFlow_tables flow
        unfold onIncomingFlow
        split
        · next hresult =>
            rw [hresult] at htables
            dsimp only
            split <;> exact htables
        · next hresult =>
            rw [hresult] at htables
            exact htables
      simp only [onIncoming, Option.some.injEq] at h
      cases hresult : l.onIncomingFlow flow with
      | mk result l' =>
          rw [hresult] at h hflow
          cases result <;> cases h <;> exact .of_eq hflow
  | transfer performative payload =>
      have htransfer : (l.onIncomingTransfer performative payload).2.session.tables =
          l.session.tables := by
        have htables := l.session.onIncomingTransfer_tables performative payload
        unfold onIncomingTransfer
        split
        · next hresult =>
            rw [hresult] at htables
            exact htables
        · next hresult =>
            rw [hresult] at htables
            exact htables
      simp only [onIncoming, Option.some.injEq] at h
      cases hresult : l.onIncomingTransfer performative payload with
      | mk result l' =>
          rw [hresult] at h htransfer
          cases result with
          | error e =>
              cases h
              exact .of_eq htransfer
          | ok disposition =>
              cases h
              have hsent := l'.session.sendDispositions_tables disposition.toList
              have hflow := (l'.session.sendDispositions
                disposition.toList).2.maybeOutgoingSessionFlow_tables
              exact .of_eq (hflow.trans (hsent.trans htransfer))
  | begin begin' => cases h
  | disposition disposition => cases h
  | detach detach => cases h
  | «end» end' => cases h

theorem onIncoming_untouched {handle : InputHandle} {link : LinkId}
    (hleaves : l.session.Leaves handle link frame) (h : l.onIncoming frame = some (out, q)) :
    Untouched handle link l.session out.session := by
  obtain ⟨channel, body⟩ := frame
  cases body with
  | attach attach =>
      have hattach : Untouched handle link l.session (l.onIncomingAttach attach).2.session := by
        have hlisten : ∀ error, (l.listen attach error).2.session = l.session := by
          intro error
          unfold listen
          split <;> rfl
        unfold onIncomingAttach
        split
        · exact Session.onIncomingAttach_untouched link hleaves
        · rw [hlisten]
          exact .refl _
        · rw [hlisten]
          exact .refl _
      simp only [onIncoming, Option.some.injEq] at h
      cases hresult : l.onIncomingAttach attach with
      | mk result l' =>
          rw [hresult] at h hattach
          cases result <;> cases h <;> exact hattach
  | flow flow =>
      have hflow : Untouched handle link l.session (l.onIncomingFlow flow).2.session := by
        have huntouched := Session.onIncomingFlow_untouched handle hleaves
        unfold onIncomingFlow
        split
        · next hresult =>
            rw [hresult] at huntouched
            dsimp only
            split <;> exact huntouched
        · next hresult =>
            rw [hresult] at huntouched
            exact huntouched
      simp only [onIncoming, Option.some.injEq] at h
      cases hresult : l.onIncomingFlow flow with
      | mk result l' =>
          rw [hresult] at h hflow
          cases result <;> cases h <;> exact hflow
  | transfer performative payload =>
      have htransfer : Untouched handle link l.session
          (l.onIncomingTransfer performative payload).2.session := by
        have huntouched := Session.onIncomingTransfer_untouched (s := l.session) link hleaves payload
        unfold onIncomingTransfer
        split
        · next hresult =>
            rw [hresult] at huntouched
            exact huntouched
        · next hresult =>
            rw [hresult] at huntouched
            exact huntouched
      simp only [onIncoming, Option.some.injEq] at h
      cases hresult : l.onIncomingTransfer performative payload with
      | mk result l' =>
          rw [hresult] at h htransfer
          cases result with
          | error e =>
              cases h
              exact htransfer
          | ok disposition =>
              cases h
              exact (htransfer.trans (l'.session.sendDispositions_untouched handle link _)).trans
                (Session.maybeOutgoingSessionFlow_untouched _ handle link)
  | begin begin' => cases h
  | disposition disposition => cases h
  | detach detach => cases h
  | «end» end' => cases h

end ListenerSession

namespace SessionEngine

open Session (Untouched)

theorem resume_runs (e : SessionEngine) (out : Dispatched) :
    LinkTables.Runs LinkTables.Local out.session.tables (e.resume out).1.session.tables := by
  unfold resume
  split
  · split <;> exact .of_eq rfl
  · exact (e.withSession out.session).onHandlesDropped_runs
  · exact .of_eq (e.settle_tables out)

theorem resume_untouched (e : SessionEngine) (handle : InputHandle) (link : LinkId)
    (out : Dispatched) : Untouched handle link out.session (e.resume out).1.session := by
  unfold resume
  split
  · split <;> exact .of_eq rfl rfl
  · exact (e.withSession out.session).onHandlesDropped_untouched handle link
  · exact e.settle_untouched handle link out

end SessionEngine

namespace LinkRelay

variable {relay : LinkRelay OutputHandle}

theorem replay_flowStates (store : LinkStore) (flow : LinkFlow) :
    (relay.replay store flow).flowStates relay.link =
      relay.flowed (store.flowStates relay.link) flow := by
  cases relay with
  | sender link outputHandle mode | receiver link outputHandle mode more =>
      simp [replay, LinkStore.flowStates, LinkStore.modify, LinkRelay.link, flowed]

theorem replay_flowStates_other {other : LinkId} (h : other ≠ relay.link) (store : LinkStore)
    (flow : LinkFlow) : (relay.replay store flow).flowStates other = store.flowStates other := by
  cases relay with
  | sender link outputHandle mode | receiver link outputHandle mode more =>
      have hother : other ≠ link := h
      simp only [replay]
      exact LinkStore.flowStates_modify_other hother _

theorem foldl_replay_flowStates (flows : List LinkFlow) (store : LinkStore) :
    (flows.foldl relay.replay store).flowStates relay.link =
      flows.foldl relay.flowed (store.flowStates relay.link) := by
  induction flows generalizing store with
  | nil => rfl
  | cons flow flows ih => rw [List.foldl_cons, List.foldl_cons, ih, replay_flowStates]

theorem foldl_replay_flowStates_other {other : LinkId} (h : other ≠ relay.link)
    (flows : List LinkFlow) (store : LinkStore) :
    (flows.foldl relay.replay store).flowStates other = store.flowStates other := by
  induction flows generalizing store with
  | nil => rfl
  | cons flow flows ih => rw [List.foldl_cons, ih, replay_flowStates_other h]

end LinkRelay

namespace ListenerSession

open Session (Untouched)

theorem allocateIncomingLink_tables (l : ListenerSession) (linkName : String)
    (linkRelay : LinkRelay Unit) (inputHandle : InputHandle) :
    (l.allocateIncomingLink linkName linkRelay inputHandle).2.session.tables =
      (l.session.allocateIncomingLink linkName linkRelay inputHandle).2.tables := by
  unfold allocateIncomingLink
  split
  · next hresult => rw [hresult]
  · next hresult =>
      rw [hresult]
      rfl

theorem allocateIncomingLink_untouched {handle : InputHandle} {link : LinkId} {l : ListenerSession}
    {linkRelay : LinkRelay Unit} (hlink : linkRelay.link ≠ link) {inputHandle : InputHandle}
    (h : inputHandle ≠ handle) (linkName : String) :
    Untouched handle link l.session
      (l.allocateIncomingLink linkName linkRelay inputHandle).2.session := by
  have halloc := Session.allocateIncomingLink_untouched (s := l.session) link h linkName linkRelay
  unfold allocateIncomingLink
  split
  · next hresult =>
      rw [hresult] at halloc
      exact halloc
  · next outputHandle session hresult =>
      rw [hresult] at halloc
      have hrelay : link ≠ (linkRelay.withOutputHandle outputHandle).link := by
        cases linkRelay <;> exact hlink.symm
      refine ⟨halloc.relay, ?_⟩
      simp only [Session.allocateIncomingLink_registers hresult]
      rw [LinkRelay.foldl_replay_flowStates_other hrelay]
      exact halloc.flow

end ListenerSession

namespace ListenerSessionEngine

open Session (Untouched)

variable {handle : InputHandle} {link : LinkId} {l : ListenerSessionEngine}

theorem session_of_onIncoming {frame : SessionFrame} {out : Dispatched} {q : ListenerQueues}
    (h : l.session.onIncoming frame = some (out, q)) :
    (l.onIncoming frame).1 = l ∨
      (l.onIncoming frame).1 = ⟨(l.engine.resume out).1, q⟩ := by
  simp only [onIncoming, h]
  cases l.engine.phase with
  | eventLoop => exact .inr rfl
  | handlesDropped => exact .inr rfl
  | stopped outcome => exact .inl rfl
  | waitForRemoteEnd discardOtherFrame thenEnd cause =>
      cases discardOtherFrame with
      | true => exact .inl rfl
      | false => exact .inr rfl

theorem onIncoming_runs (l : ListenerSessionEngine) (frame : SessionFrame) :
    LinkTables.Runs (SessionEngine.Allows (.incoming (some frame))) l.engine.session.tables
      (l.onIncoming frame).1.engine.session.tables := by
  cases hdispatch : l.session.onIncoming frame with
  | none =>
      simp only [onIncoming, hdispatch]
      exact l.engine.step_runs (.incoming (some frame))
  | some out =>
      rcases session_of_onIncoming hdispatch with hsame | hnext
      · rw [hsame]
        exact .of_eq rfl
      · rw [hnext]
        refine (ListenerSession.onIncoming_runs hdispatch).trans ?_
        exact (l.engine.resume_runs out.1).mono fun op hop => .inl hop

theorem onIncoming_untouched {frame : SessionFrame}
    (h : l.engine.session.Leaves handle link frame) :
    Untouched handle link l.engine.session (l.onIncoming frame).1.engine.session := by
  cases hdispatch : l.session.onIncoming frame with
  | none =>
      have hleaves : l.engine.Leaves handle link (.incoming (some frame)) := h
      simp only [onIncoming, hdispatch]
      exact SessionEngine.step_untouched hleaves
  | some out =>
      rcases session_of_onIncoming hdispatch with hsame | hnext
      · rw [hsame]
        exact .refl _
      · rw [hnext]
        refine (ListenerSession.onIncoming_untouched h hdispatch).trans ?_
        exact l.engine.resume_untouched handle link out.1

theorem allocateIncomingLink_runs (l : ListenerSessionEngine) (linkName : String)
    (linkRelay : LinkRelay Unit) (inputHandle : InputHandle) (responderDropped : Bool) :
    LinkTables.Runs (SessionEngine.Allows
        (.control (some (.allocateIncomingLink linkName linkRelay inputHandle responderDropped))))
      l.engine.session.tables
      (l.allocateIncomingLink linkName linkRelay inputHandle responderDropped).1.engine.session.tables
    := by
  have halloc := l.session.allocateIncomingLink_tables linkName linkRelay inputHandle
  have hruns : LinkTables.Runs (SessionEngine.Allows
        (.control (some (.allocateIncomingLink linkName linkRelay inputHandle responderDropped))))
      l.engine.session.tables
      (l.session.allocateIncomingLink linkName linkRelay inputHandle).2.session.tables := by
    by_cases hmapped : l.session.session.localState = .mapped
    · rw [halloc, Session.allocateIncomingLink_tables, if_pos hmapped]
      exact .of_step (.inr rfl) rfl
    · rw [halloc, Session.allocateIncomingLink_tables, if_neg hmapped]
      exact .of_eq rfl
  unfold allocateIncomingLink
  split
  · have hsettle := l.engine.settle_tables
      ((l.session.allocateIncomingLink linkName linkRelay inputHandle).2.session.responded
        responderDropped)
    refine hruns.trans (.of_eq ?_)
    rw [hsettle, Session.responded_session]
  · exact .of_eq rfl

theorem allocateIncomingLink_untouched {linkRelay : LinkRelay Unit} (hlink : linkRelay.link ≠ link)
    {inputHandle : InputHandle} (h : inputHandle ≠ handle) (linkName : String)
    (responderDropped : Bool) :
    Untouched handle link l.engine.session
      (l.allocateIncomingLink linkName linkRelay inputHandle responderDropped).1.engine.session := by
  unfold allocateIncomingLink
  split
  · have hsession : Untouched handle link l.engine.session
        (l.session.allocateIncomingLink linkName linkRelay inputHandle).2.session :=
      ListenerSession.allocateIncomingLink_untouched (l := l.session) hlink h linkName
    have hsettle := l.engine.settle_untouched handle link
      ((l.session.allocateIncomingLink linkName linkRelay inputHandle).2.session.responded
        responderDropped)
    rw [Session.responded_session] at hsettle
    exact hsession.trans hsettle
  · exact .refl _

end ListenerSessionEngine

end Fe2o3Amqp
