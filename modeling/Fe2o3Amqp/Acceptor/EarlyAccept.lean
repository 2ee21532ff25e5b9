import Fe2o3Amqp.Acceptor.LateAccept

/-!
# A link that waits to be accepted

The two registrations of a waiting link are compared along a run.  In the late run the input handle
has no relay and the Flows of the link are kept; in the early run the relay is there.  Off the link
the two states are the same, and the early flow state is the late one with the kept Flows applied.
An event for another link keeps this because it does the same with and without the waiting link, a
frame for the link itself is followed through both states.
-/

namespace Fe2o3Amqp

open Classical
open Session (Dispatched itemFrames Untouched)

/-! ## Links that no other relay uses -/

namespace LinkTables

theorem byInput_of_step {t : LinkTables} {op : TableOp} {handle : InputHandle} {relay : RelayKey}
    (h : (t.step op).1.byInput handle = some relay) :
    t.byInput handle = some relay ∨
      (∃ name delivered, op = .attach name handle delivered ∧
        t.byName name = some (some relay)) ∨
      ∃ name, op = .allocateIncoming name relay.1 handle := by
  have hdeallocate : ∀ (t : LinkTables) (outputHandle : OutputHandle),
      (t.deallocate outputHandle).byInput = t.byInput := by
    intro t outputHandle
    unfold deallocate
    split <;> rfl
  cases op with
  | skip => exact .inl h
  | allocate name link =>
      left
      simp only [step, allocate] at h
      split at h <;> exact h
  | allocateIncoming name link handle' =>
      simp only [step, allocateIncoming] at h
      split at h
      · exact .inl h
      · dsimp only at h
        by_cases hhandle : handle = handle'
        · subst hhandle
          simp only [Function.update_self, Option.some.injEq] at h
          right; right
          exact ⟨name, by rw [← h]⟩
        · rw [Function.update_of_ne hhandle] at h
          exact .inl h
  | deallocate outputHandle =>
      left
      rw [← hdeallocate t outputHandle]
      exact h
  | attach name handle' delivered =>
      simp only [step, attach] at h
      split at h
      · next key hname =>
          dsimp only at h
          split at h
          · by_cases hhandle : handle = handle'
            · subst hhandle
              simp only [Function.update_self, Option.some.injEq] at h
              subst h
              exact .inr (.inl ⟨name, delivered, rfl, hname⟩)
            · rw [Function.update_of_ne hhandle] at h
              exact .inl h
          · exact .inl h
      · exact .inl h
  | localDetach outputHandle =>
      left
      simp only [step] at h
      split at h
      · rw [← hdeallocate t outputHandle]
        exact h
      · exact h
  | peerDetach handle' =>
      left
      simp only [step] at h
      split at h
      · exact h
      · next key _ =>
          have hupdate : Function.update t.byInput handle' none handle = some relay := by
            split at h
            · exact h
            · rw [hdeallocate] at h
              exact h
          by_cases hhandle : handle = handle'
          · subst hhandle
            simp at hupdate
          · rwa [Function.update_of_ne hhandle] at hupdate

/-- No relay but the one on the handle is of the link. -/
def Fresh (handle : InputHandle) (link : LinkId) (t : LinkTables) : Prop :=
  (∀ name relay, t.byName name = some (some relay) → relay.1 ≠ link) ∧
    ∀ other relay, other ≠ handle → t.byInput other = some relay → relay.1 ≠ link

/-- A run that allocates no other relay for the link leaves it fresh. -/
theorem Fresh.of_runs {handle : InputHandle} {link : LinkId} {t t' : LinkTables}
    {allowed : TableOp → Prop} (ht : t.Fresh handle link) (h : Runs allowed t t')
    (hallocate : ∀ name, ¬allowed (.allocate name (some link)))
    (hincoming : ∀ name other, ¬allowed (.allocateIncoming name link other)) :
    t'.Fresh handle link := by
  refine Runs.invariant (P := Fresh handle link) h (fun t op ht hop => ⟨?_, ?_⟩) ht
  · intro name relay hrelay
    rcases step_byName hrelay with hbefore | ⟨link', rfl, hkey⟩
    · exact ht.1 name relay hbefore
    · intro hlink
      rw [hkey] at hlink
      rw [show link' = link from hlink] at hop
      exact hallocate name hop
  · intro other relay hother hrelay
    rcases byInput_of_step hrelay with hbefore | ⟨name, delivered, rfl, hname⟩ | ⟨name, rfl⟩
    · exact ht.2 other relay hother hbefore
    · exact ht.1 name relay hname
    · intro hlink
      rw [hlink] at hop
      exact hincoming name other hop

end LinkTables

/-! ## The kept Flows -/

namespace ListenerSession

variable {l : ListenerSession} {handle : InputHandle}

theorem onIncomingFlow_pending {flow : Flow}
    (h : flow.handle = some handle.handle →
      (l.session.onIncomingFlow flow).1 ≠ .error .unattachedHandle) :
    (l.onIncomingFlow flow).2.pendingLinkFlows handle = l.pendingLinkFlows handle := by
  unfold onIncomingFlow
  split
  · next session hresult =>
      cases htry : LinkFlow.tryFrom flow with
      | none => rfl
      | some linkFlow =>
          have hhandle := LinkFlow.handle_of_tryFrom htry
          have hne : handle ≠ ⟨linkFlow.handle⟩ := by
            intro heq
            rw [heq] at h
            exact h hhandle (by rw [hresult])
          simp [Function.update_of_ne hne]
  · rfl

theorem onIncoming_pending {frame : SessionFrame} {out : Dispatched} {q : ListenerQueues}
    (hdispatch : l.onIncoming frame = some (out, q))
    (h : ∀ flow, frame.body = .flow flow → flow.handle = some handle.handle →
      (l.session.onIncomingFlow flow).1 ≠ .error .unattachedHandle) :
    q.pendingLinkFlows handle = l.pendingLinkFlows handle := by
  obtain ⟨channel, body⟩ := frame
  cases body with
  | attach attach =>
      have hlisten : ∀ error,
          (l.listen attach error).2.pendingLinkFlows = l.pendingLinkFlows := by
        intro error
        unfold listen
        split <;> rfl
      have hattach : (l.onIncomingAttach attach).2.pendingLinkFlows = l.pendingLinkFlows := by
        unfold onIncomingAttach
        split
        · rfl
        · exact hlisten _
        · exact hlisten _
      simp only [onIncoming, Option.some.injEq] at hdispatch
      cases hresult : l.onIncomingAttach attach with
      | mk result l' =>
          rw [hresult] at hdispatch hattach
          cases result <;> cases hdispatch <;> exact congrFun hattach handle
  | flow flow =>
      have hflow := onIncomingFlow_pending (h flow rfl)
      simp only [onIncoming, Option.some.injEq] at hdispatch
      cases hresult : l.onIncomingFlow flow with
      | mk result l' =>
          rw [hresult] at hdispatch hflow
          cases result <;> cases hdispatch <;> exact hflow
  | transfer performative payload =>
      have htransfer : (l.onIncomingTransfer performative payload).2.pendingLinkFlows =
          l.pendingLinkFlows := by
        unfold onIncomingTransfer
        split <;> rfl
      simp only [onIncoming, Option.some.injEq] at hdispatch
      cases hresult : l.onIncomingTransfer performative payload with
      | mk result l' =>
          rw [hresult] at hdispatch htransfer
          cases result <;> cases hdispatch <;> exact congrFun htransfer handle
  | begin begin' => cases hdispatch
  | disposition disposition => cases hdispatch
  | detach detach => cases hdispatch
  | «end» end' => cases hdispatch

theorem allocateIncomingLink_pending (l : ListenerSession) (linkName : String)
    (linkRelay : LinkRelay Unit) (inputHandle : InputHandle) :
    (l.allocateIncomingLink linkName linkRelay inputHandle).2.pendingLinkFlows =
        l.pendingLinkFlows ∨
      (l.allocateIncomingLink linkName linkRelay inputHandle).2.pendingLinkFlows =
        Function.update l.pendingLinkFlows inputHandle [] := by
  unfold allocateIncomingLink
  split
  · exact .inl rfl
  · exact .inr rfl

end ListenerSession

theorem ListenerSessionEngine.allocateIncomingLink_pending (l : ListenerSessionEngine)
    (linkName : String) (linkRelay : LinkRelay Unit) (inputHandle : InputHandle)
    (responderDropped : Bool) :
    (l.allocateIncomingLink linkName linkRelay inputHandle
        responderDropped).1.listener.pendingLinkFlows = l.listener.pendingLinkFlows ∨
      (l.allocateIncomingLink linkName linkRelay inputHandle
        responderDropped).1.listener.pendingLinkFlows =
          Function.update l.listener.pendingLinkFlows inputHandle [] := by
  unfold allocateIncomingLink
  split
  · exact l.session.allocateIncomingLink_pending linkName linkRelay inputHandle
  · exact .inl rfl

/-- The Flows that are kept for a handle change only by a Flow that no relay takes and by an
acceptance. -/
theorem ListenerSessionEngine.step_pending {handle : InputHandle} {l : ListenerSessionEngine}
    {event : ListenerSessionEvent}
    (h : ∀ channel flow, event = .engine (.incoming (some ⟨channel, .flow flow⟩)) →
      flow.handle = some handle.handle →
        (l.engine.session.onIncomingFlow flow).1 ≠ .error .unattachedHandle) :
    (l.step event).1.listener.pendingLinkFlows handle = l.listener.pendingLinkFlows handle ∨
      (l.step event).1.listener.pendingLinkFlows handle = [] ∧
        ∃ linkName linkRelay responderDropped, event = .engine (.control (some
          (.allocateIncomingLink linkName linkRelay handle responderDropped))) := by
  cases event with
  | listener linkListener => exact .inl rfl
  | engine event =>
      cases event with
      | incoming frame =>
          cases frame with
          | none => exact .inl rfl
          | some frame =>
              left
              have hflow : ∀ flow, frame.body = .flow flow → flow.handle = some handle.handle →
                  (l.session.session.onIncomingFlow flow).1 ≠ .error .unattachedHandle := by
                intro flow hbody
                exact h frame.channel flow (by rw [← hbody])
              show (l.onIncoming frame).1.listener.pendingLinkFlows handle = _
              cases hdispatch : l.session.onIncoming frame with
              | none =>
                  simp only [onIncoming, hdispatch]
                  rfl
              | some out =>
                  rcases session_of_onIncoming hdispatch with hsame | hnext
                  · rw [hsame]
                  · rw [hnext]
                    exact ListenerSession.onIncoming_pending hdispatch hflow
      | control control =>
          cases control with
          | none => exact .inl rfl
          | some control =>
              cases control with
              | allocateIncomingLink linkName linkRelay inputHandle responderDropped =>
                  have hlistener : ∀ pending, (l.allocateIncomingLink linkName linkRelay inputHandle
                      responderDropped).1.listener.pendingLinkFlows = pending →
                      (l.step (.engine (.control (some (.allocateIncomingLink linkName linkRelay
                        inputHandle responderDropped))))).1.listener.pendingLinkFlows handle =
                          pending handle := fun pending hpending => congrFun hpending handle
                  rcases l.allocateIncomingLink_pending linkName linkRelay inputHandle
                    responderDropped with hsame | hupdate
                  · exact .inl (hlistener _ hsame)
                  · by_cases hhandle : handle = inputHandle
                    · subst hhandle
                      refine .inr ⟨?_, linkName, linkRelay, responderDropped, rfl⟩
                      rw [hlistener _ hupdate, Function.update_self]
                    · left
                      rw [hlistener _ hupdate, Function.update_of_ne hhandle]
              | _ => exact .inl rfl
      | linkFrame => exact .inl rfl
      | handOver frame => exact .inl rfl
      | endpoint links => exact .inl rfl
      | connectionStop reason => exact .inl rfl

/-! ## The waiting link -/

def LinkRelay.isReceiver {O : Type} : LinkRelay O → Bool
  | .sender .. => false
  | .receiver .. => true

/-- The relay as it is before any transfer. -/
def LinkRelay.idle {O : Type} : LinkRelay O → LinkRelay O
  | .sender link outputHandle mode => .sender link outputHandle mode
  | .receiver link outputHandle mode _ => .receiver link outputHandle mode false

/-- A Flow that a relay answers neither with a Flow of its own nor by a message to its endpoint. -/
def LinkRelay.Quiet (relay : LinkRelay OutputHandle) (flow : LinkFlow) : Prop :=
  flow.echo = false ∧
    (relay.isReceiver = false → flow.drain = false ∧ acquisitionTxnId flow = none)

/-- A link whose Attach has arrived and that is not accepted yet: its input handle and the relay that
acceptance registers there. -/
structure WaitingLink where
  handle : InputHandle
  relay : LinkRelay OutputHandle

namespace WaitingLink

def link (w : WaitingLink) : LinkId := w.relay.link

/-- What the early and the late registration differ in. -/
def group (w : WaitingLink) : LinkGroup where
  names := ∅
  handles := { handle | handle = w.handle ∧ w.relay.isReceiver = true }
  cells := { w.link }

/-- The frames for the link that the two registrations handle by different code. -/
def Owns (w : WaitingLink) : ListenerSessionEvent → Prop
  | .engine (.incoming (some ⟨_, .flow flow⟩)) => flow.handle = some w.handle.handle
  | .engine (.incoming (some ⟨_, .transfer performative _⟩)) => performative.handle = w.handle.handle
  | _ => False

/-- A Flow does not let a transfer out that waits for the window to open. -/
def ReleasesNone (s : Session) (flow : Flow) : Prop :=
  s.remoteIncomingWindowExhaustedBuffer = [] ∨
    (flow.nextIncomingId.getD s.initialOutgoingId).saturatingAdd flow.incomingWindow ≤
      s.nextOutgoingId

/-- The condition on an event under which the moment of acceptance makes no difference: no Flow of
the link is answered or releases a transfer, its Transfers are for a receiver and reuse no
delivery-id, no Disposition settles a delivery of an earlier link on the handle, the link is not
detached and its handle and its endpoint are not given to another link. -/
def Admits (w : WaitingLink) (l : ListenerSessionEngine) : ListenerSessionEvent → Prop
  | .engine (.incoming (some ⟨_, .attach attach⟩)) => attach.handle = w.handle.handle →
      ∀ relay, l.engine.session.linkByName attach.name ≠ some (some relay)
  | .engine (.incoming (some ⟨_, .flow flow⟩)) => ∀ linkFlow, LinkFlow.tryFrom flow = some linkFlow →
      linkFlow.handle = w.handle.handle →
        w.relay.Quiet linkFlow ∧ ReleasesNone l.engine.session flow
  | .engine (.incoming (some ⟨_, .transfer performative _⟩)) =>
      performative.handle = w.handle.handle → w.relay.isReceiver = true ∧
        ∀ id, performative.deliveryId = some id → ∀ handle tag,
          l.engine.session.deliveryTagById (.sender, id) = some (handle, tag) → handle = w.handle
  | .engine (.incoming (some ⟨_, .disposition disposition⟩)) =>
      ∀ id ∈ Session.deliveryIds disposition.first (disposition.last.getD disposition.first),
        ∀ tag, l.engine.session.deliveryTagById (disposition.role, id) = some (w.handle, tag) →
          disposition.role = .sender ∧ w.relay.isReceiver = true
  | .engine (.incoming (some ⟨_, .detach detach⟩)) => detach.handle ≠ w.handle.handle
  | .engine (.control (some (.allocateLink _ linkRelay _))) => linkRelay.link ≠ w.link
  | .engine (.control (some (.allocateIncomingLink _ linkRelay inputHandle _))) =>
      linkRelay.link ≠ w.link ∧ inputHandle ≠ w.handle
  | _ => True

end WaitingLink

/-- A store after the other endpoints have acted: the cell of the link is as it was. -/
def LinkStore.beside (store : LinkStore) (link : LinkId) (links : LinkStore) : LinkStore :=
  { links with cell := Function.update links.cell link (store.cell link) }

/-- The event without what it would do to the cell of a link that has no endpoint yet. -/
def ListenerSessionEvent.beside (link : LinkId) (l : ListenerSessionEngine) :
    ListenerSessionEvent → ListenerSessionEvent
  | .engine (.endpoint links) => .engine (.endpoint (l.engine.session.links.beside link links))
  | event => event

/-- One step while the link has no endpoint. -/
def ListenerSessionEngine.stepBeside (link : LinkId) (l : ListenerSessionEngine)
    (event : ListenerSessionEvent) : ListenerSessionEngine × List SessionFrame :=
  l.step (event.beside link l)

namespace WaitingLink

variable {w : WaitingLink} {l : ListenerSessionEngine} {event : ListenerSessionEvent}

theorem mem_cells {link : LinkId} : link ∈ w.group.cells ↔ link = w.link := Set.mem_singleton_iff

theorem apart_of_fresh {s : Session} (h : s.tables.Fresh w.handle w.link) : s.Apart w.group := by
  intro name _ relay hrelay
  rw [mem_cells]
  exact h.1 name relay.key (by rw [Session.tables_byName, hrelay]; rfl)

theorem spares_of_fresh {s : Session} (h : s.tables.Fresh w.handle w.link) {handle : InputHandle}
    (hother : handle ≠ w.handle) : s.Spares w.group handle := by
  refine ⟨fun hmem => hother hmem.1, fun relay hrelay => ?_⟩
  rw [mem_cells]
  exact h.2 handle relay.key hother (by rw [Session.tables_byInput, hrelay]; rfl)

/-- What the early and the late state have on the input handle of the link. -/
def OnHandle (w : WaitingLink) (s : Session) : Prop :=
  ∀ relay, s.linkByInputHandle w.handle = some relay → relay.idle = w.relay.idle

theorem isReceiver_of_idle {relay : LinkRelay OutputHandle} (h : relay.idle = w.relay.idle) :
    relay.isReceiver = w.relay.isReceiver ∧ relay.link = w.link := by
  unfold link
  cases relay with
  | sender link outputHandle mode =>
      cases hw : w.relay with
      | sender link' outputHandle' mode' =>
          rw [hw] at h
          injection h with hlink
          exact ⟨rfl, hlink⟩
      | receiver link' outputHandle' mode' more' =>
          rw [hw] at h
          cases h
  | receiver link outputHandle mode more =>
      cases hw : w.relay with
      | sender link' outputHandle' mode' =>
          rw [hw] at h
          cases h
      | receiver link' outputHandle' mode' more' =>
          rw [hw] at h
          injection h with hlink
          exact ⟨rfl, hlink⟩

theorem flowed_of_idle {relay relay' : LinkRelay OutputHandle} (h : relay.idle = relay'.idle) :
    relay.flowed = relay'.flowed := by
  cases relay with
  | sender link outputHandle mode =>
      cases relay' with
      | sender link' outputHandle' mode' =>
          injection h with _ houtput
          subst houtput
          rfl
      | receiver link' outputHandle' mode' more' => cases h
  | receiver link outputHandle mode more =>
      cases relay' with
      | sender link' outputHandle' mode' => cases h
      | receiver link' outputHandle' mode' more' =>
          injection h with _ houtput
          subst houtput
          rfl

theorem settles_of_admits {s : Session} (hfresh : s.tables.Fresh w.handle w.link)
    (hhandle : w.OnHandle s) {key : Role × DeliveryNumber}
    (h : ∀ tag, s.deliveryTagById key = some (w.handle, tag) →
      key.1 = .sender ∧ w.relay.isReceiver = true) :
    s.Settles w.group key := by
  intro handle tag hkey
  by_cases hother : handle = w.handle
  · subst hother
    obtain ⟨hrole, hreceiver⟩ := h tag hkey
    refine .inr ⟨hrole, ⟨rfl, hreceiver⟩, fun relay hrelay => ?_⟩
    obtain ⟨hkind, hlink⟩ := isReceiver_of_idle (hhandle relay hrelay)
    cases relay with
    | sender link outputHandle mode =>
        rw [hreceiver] at hkind
        cases hkind
    | receiver link outputHandle mode more =>
        exact ⟨link, outputHandle, mode, more, rfl, mem_cells.mpr hlink⟩
  · exact .inl (spares_of_fresh hfresh hother)

theorem inputHandle_ne {handle : Handle} (h : handle ≠ w.handle.handle) :
    (⟨handle⟩ : InputHandle) ≠ w.handle := by
  intro heq
  apply h
  rw [← heq]

/-- An admitted event that is no frame of the link is for no link of the group. -/
theorem spares_of_admits (hfresh : l.engine.session.tables.Fresh w.handle w.link)
    (hhandle : w.OnHandle l.engine.session) (h : w.Admits l event) (hown : ¬w.Owns event) :
    l.Spares w.group w.handle event := by
  cases event with
  | listener linkListener => trivial
  | engine event =>
      cases event with
      | incoming frame =>
          cases frame with
          | none => trivial
          | some frame =>
              obtain ⟨channel, body⟩ := frame
              cases body with
              | attach attach =>
                  refine ⟨Set.notMem_empty _, fun hmem => ?_⟩
                  apply h
                  rw [← hmem.1]
              | flow flow =>
                  refine ⟨fun other hother => ?_, hown⟩
                  refine spares_of_fresh hfresh (inputHandle_ne fun heq => hown ?_)
                  exact hother.trans (congrArg some heq)
              | transfer performative payload =>
                  exact spares_of_fresh hfresh (inputHandle_ne hown)
              | disposition disposition =>
                  intro id hid
                  exact settles_of_admits hfresh hhandle (h id hid)
              | detach detach => exact spares_of_fresh hfresh (inputHandle_ne h)
              | begin begin' => trivial
              | «end» end' => trivial
      | control control =>
          cases control with
          | none => trivial
          | some control =>
              cases control with
              | allocateLink linkName linkRelay responderDropped =>
                  exact ⟨Set.notMem_empty _, fun hmem => h (mem_cells.mp hmem)⟩
              | allocateIncomingLink linkName linkRelay inputHandle responderDropped =>
                  refine ⟨Set.notMem_empty _, fun hmem => h.1 (mem_cells.mp hmem),
                    fun hmem => h.2 hmem.1, h.2⟩
              | _ => trivial
      | linkFrame => trivial
      | handOver frame => trivial
      | endpoint links => trivial
      | connectionStop reason => trivial

/-! ### Frames and requests for other links -/

theorem beside_without (w : WaitingLink) (l : ListenerSessionEngine)
    (event : ListenerSessionEvent) :
    (event.beside w.link l).without w.group = event.without w.group := by
  cases event with
  | listener linkListener => rfl
  | engine event =>
      cases event with
      | endpoint links =>
          have hcells : (l.engine.session.links.beside w.link links).without w.group.cells =
              links.without w.group.cells := by
            simp only [LinkStore.without, LinkStore.beside, LinkStore.mk.injEq, and_true]
            funext other
            by_cases hother : other = w.link
            · simp [mem_cells, hother]
            · simp [mem_cells, hother]
          simp only [ListenerSessionEvent.beside, ListenerSessionEvent.without,
            SessionEngineEvent.without, hcells]
      | _ => rfl

theorem step_without_of_admits (hfresh : l.engine.session.tables.Fresh w.handle w.link)
    (hhandle : w.OnHandle l.engine.session) (h : w.Admits l event) (hown : ¬w.Owns event) :
    Prod.map (ListenerSessionEngine.without w.group w.handle) id (l.stepBeside w.link event) =
      (l.without w.group w.handle).step (event.without w.group) := by
  have hspares : l.Spares w.group w.handle (event.beside w.link l) := by
    have hspares := spares_of_admits hfresh hhandle h hown
    cases event with
    | listener linkListener => exact hspares
    | engine event => cases event <;> exact hspares
  have hstep := ListenerSessionEngine.step_without (apart_of_fresh hfresh) hspares
  rw [beside_without] at hstep
  exact hstep.symm

theorem flowStates_beside (store : LinkStore) (link : LinkId) (links : LinkStore) :
    (store.beside link links).flowStates link = store.flowStates link := by
  simp [LinkStore.flowStates, LinkStore.beside]

/-- What an event for another link leaves alone. -/
theorem step_untouched_of_admits (hfresh : l.engine.session.tables.Fresh w.handle w.link)
    (h : w.Admits l event) (hown : ¬w.Owns event) :
    Untouched w.handle w.link l.engine.session (l.stepBeside w.link event).1.engine.session := by
  have hengine : ∀ event : SessionEngineEvent, l.engine.Leaves w.handle w.link event →
      Untouched w.handle w.link l.engine.session (l.stepEngine event).1.engine.session :=
    fun event hleaves => SessionEngine.step_untouched hleaves
  cases event with
  | listener linkListener => exact .refl _
  | engine event =>
      cases event with
      | incoming frame =>
          cases frame with
          | none => exact hengine (.incoming none) trivial
          | some frame =>
              refine ListenerSessionEngine.onIncoming_untouched ?_
              obtain ⟨channel, body⟩ := frame
              cases body with
              | attach attach =>
                  intro hsame
                  exact h (by rw [← hsame])
              | flow flow =>
                  intro other hother
                  have hne : (⟨other⟩ : InputHandle) ≠ w.handle :=
                    inputHandle_ne fun heq => hown (hother.trans (congrArg some heq))
                  intro relay hrelay
                  exact (spares_of_fresh hfresh hne).2 relay hrelay
              | transfer performative payload => exact inputHandle_ne hown
              | detach detach => exact inputHandle_ne h
              | _ => trivial
      | control control =>
          cases control with
          | none => exact hengine (.control none) trivial
          | some control =>
              cases control with
              | allocateIncomingLink linkName linkRelay inputHandle responderDropped =>
                  exact ListenerSessionEngine.allocateIncomingLink_untouched h.1 h.2 linkName
                    responderDropped
              | _ => exact hengine (.control (some _)) trivial
      | linkFrame => exact hengine .linkFrame trivial
      | handOver frame => exact hengine (.handOver frame) trivial
      | endpoint links =>
          exact hengine (.endpoint (l.engine.session.links.beside w.link links))
            (flowStates_beside l.engine.session.links w.link links)
      | connectionStop reason => exact hengine (.connectionStop reason) trivial

/-- No Flow is kept for the link but its own. -/
theorem step_pending_of_admits (h : w.Admits l event) (hown : ¬w.Owns event) :
    (l.stepBeside w.link event).1.listener.pendingLinkFlows w.handle =
      l.listener.pendingLinkFlows w.handle := by
  have hflow : ∀ channel flow,
      event.beside w.link l = .engine (.incoming (some ⟨channel, .flow flow⟩)) →
        flow.handle = some w.handle.handle →
          (l.engine.session.onIncomingFlow flow).1 ≠ .error .unattachedHandle := by
    intro channel flow hevent hhandle
    cases event with
    | listener linkListener => cases hevent
    | engine event =>
        cases event with
        | endpoint links => cases hevent
        | incoming frame =>
            cases hevent
            exact absurd hhandle hown
        | _ => cases hevent
  rcases ListenerSessionEngine.step_pending hflow with
    hsame | ⟨_, linkName, linkRelay, responderDropped, hevent⟩
  · exact hsame
  · cases event with
    | listener linkListener => cases hevent
    | engine event =>
        cases event with
        | endpoint links => cases hevent
        | control control =>
            cases hevent
            exact absurd rfl h.2
        | _ => cases hevent

theorem step_fresh_of_admits (hfresh : l.engine.session.tables.Fresh w.handle w.link)
    (h : w.Admits l event) :
    (l.stepBeside w.link event).1.engine.session.tables.Fresh w.handle w.link := by
  have hlocal : ∀ op, LinkTables.Local op → (∀ name, op ≠ .allocate name (some w.link)) ∧
      ∀ name other, op ≠ .allocateIncoming name w.link other := by
    rintro op (rfl | ⟨handle, rfl⟩)
    · exact ⟨fun name => nofun, fun name other => nofun⟩
    · exact ⟨fun name => nofun, fun name other => nofun⟩
  have hruns : ∀ (event : SessionEngineEvent) (s : Session),
      w.Admits l (.engine event) →
      LinkTables.Runs (SessionEngine.Allows event) l.engine.session.tables s.tables →
      s.tables.Fresh w.handle w.link := by
    intro event s hadmits hruns
    refine hfresh.of_runs hruns (fun name hop => ?_) (fun name other hop => ?_)
    · rcases hop with hop | hop
      · exact (hlocal _ hop).1 name rfl
      · split at hop
        · obtain ⟨delivered, hop⟩ := hop
          cases hop
        · cases hop
        · injection hop with _ hlink
          exact hadmits (Option.some.inj hlink).symm
        · cases hop
        · cases hop
        · exact hop
    · rcases hop with hop | hop
      · exact (hlocal _ hop).2 name other rfl
      · split at hop
        · obtain ⟨delivered, hop⟩ := hop
          cases hop
        · cases hop
        · cases hop
        · injection hop with _ hlink
          exact hadmits.1 hlink.symm
        · cases hop
        · exact hop
  have hengine : ∀ event : SessionEngineEvent, w.Admits l (.engine event) →
      (l.stepEngine event).1.engine.session.tables.Fresh w.handle w.link :=
    fun event hadmits => hruns event _ hadmits (l.engine.step_runs event)
  cases event with
  | listener linkListener => exact hfresh
  | engine event =>
      cases event with
      | incoming frame =>
          cases frame with
          | none => exact hengine (.incoming none) h
          | some frame => exact hruns (.incoming (some frame)) _ h (l.onIncoming_runs frame)
      | control control =>
          cases control with
          | none => exact hengine (.control none) h
          | some control =>
              cases control with
              | allocateIncomingLink linkName linkRelay inputHandle responderDropped =>
                  exact hruns _ _ h (l.allocateIncomingLink_runs linkName linkRelay inputHandle
                    responderDropped)
              | _ => exact hengine (.control (some _)) h
      | linkFrame => exact hengine .linkFrame h
      | handOver frame => exact hengine (.handOver frame) h
      | endpoint links => exact hengine (.endpoint _) trivial
      | connectionStop reason => exact hengine (.connectionStop reason) h

end WaitingLink

/-! ### Frames for the link itself -/

namespace LinkRelay

variable {relay : LinkRelay OutputHandle}

theorem onIncomingFlow_of_quiet {flow : LinkFlow} (h : relay.Quiet flow) (store : LinkStore) :
    relay.onIncomingFlow store flow = (.ok none, relay.replay store flow) := by
  obtain ⟨hecho, hsender⟩ := h
  cases relay with
  | sender link outputHandle mode =>
      obtain ⟨hdrain, htxn⟩ := hsender rfl
      simp only [onIncomingFlow, htxn, LinkFlowStateInner.senderOnIncomingFlow, hdrain, hecho, replay]
      rfl
  | receiver link outputHandle mode more =>
      simp only [onIncomingFlow, LinkFlowStateInner.receiverOnIncomingFlow, hecho, replay]
      rfl

theorem replay_hidden {cells : Set LinkId} (h : relay.link ∈ cells) (store : LinkStore)
    (flow : LinkFlow) : (relay.replay store flow).without cells = store.without cells := by
  cases relay with
  | sender link outputHandle mode | receiver link outputHandle mode more =>
      have hlink : link ∈ cells := h
      simp only [replay, LinkStore.without_modify hlink]

theorem foldl_replay_hidden {cells : Set LinkId} (h : relay.link ∈ cells) (flows : List LinkFlow)
    (store : LinkStore) :
    (flows.foldl relay.replay store).without cells = store.without cells := by
  induction flows generalizing store with
  | nil => rfl
  | cons flow flows ih => rw [List.foldl_cons, ih, replay_hidden h]

/-- A Transfer for a receiver changes nothing but the cell of its link, and its own `more` flag. -/
theorem onIncomingTransfer_hidden {cells : Set LinkId} (h : relay.link ∈ cells)
    (hreceiver : relay.isReceiver = true) (store : LinkStore) (transfer : Transfer)
    (payload : Payload) :
    ∃ result relay' store',
      relay.onIncomingTransfer store transfer payload = (result, relay', store') ∧
        relay'.idle = relay.idle ∧ store'.without cells = store.without cells ∧
          (result = .error .unattachedHandle ∨ result = .ok none ∨
            ∃ id tag, transfer.deliveryId = some id ∧ result = .ok (some (id, tag))) := by
  cases relay with
  | sender link outputHandle mode => cases hreceiver
  | receiver link outputHandle mode more =>
      simp only [onIncomingTransfer]
      split
      · exact ⟨_, _, _, rfl, rfl, rfl, .inl rfl⟩
      · next store' hsend =>
          have hhidden := LinkStore.without_of_send h hsend
          split
          · exact ⟨_, _, _, rfl, rfl, hhidden, .inr (.inl rfl)⟩
          · cases mode with
            | first => exact ⟨_, _, _, rfl, rfl, hhidden, .inr (.inl rfl)⟩
            | second =>
                dsimp only
                split
                · exact ⟨_, _, _, rfl, rfl, hhidden, .inr (.inl rfl)⟩
                · split
                  · next id tag hid _ =>
                      exact ⟨_, _, _, rfl, rfl, hhidden, .inr (.inr ⟨id, tag, hid, rfl⟩)⟩
                  · exact ⟨_, _, _, rfl, rfl, hhidden, .inr (.inl rfl)⟩

end LinkRelay

namespace Session

variable {s : Session}

theorem remoteIncomingWindow_of_releasesNone {flow : Flow} (h : WaitingLink.ReleasesNone s flow) :
    ¬((s.applySessionFlow flow).remoteIncomingWindow > 0 ∧
      s.remoteIncomingWindowExhaustedBuffer ≠ []) := by
  rintro ⟨hwindow, hbuffer⟩
  have hclosed := h.resolve_left hbuffer
  have hpos := (UInt32.pos_iff_toNat _).mp hwindow
  unfold applySessionFlow at hpos
  cases hnext : flow.nextIncomingId with
  | none =>
      simp only [hnext, UInt32.toNat_saturatingSub] at hpos
      simp only [hnext, Option.getD_none, UInt32.le_iff_toNat_le] at hclosed
      omega
  | some nextIncomingId =>
      simp only [hnext, UInt32.toNat_saturatingSub] at hpos
      simp only [hnext, Option.getD_some, UInt32.le_iff_toNat_le] at hclosed
      omega

theorem onIncomingFlow_of_quiet {flow : Flow} {linkFlow : LinkFlow} {relay : LinkRelay OutputHandle}
    (hflow : LinkFlow.tryFrom flow = some linkFlow)
    (hrelay : s.linkByInputHandle ⟨linkFlow.handle⟩ = some relay) (hquiet : relay.Quiet linkFlow)
    (hreleases : WaitingLink.ReleasesNone s flow) :
    s.onIncomingFlow flow =
      (.ok none, { s.applySessionFlow flow with links := relay.replay s.links linkFlow }) := by
  have hrelay' : (s.applySessionFlow flow).linkByInputHandle ⟨linkFlow.handle⟩ = some relay := hrelay
  have hclosed := remoteIncomingWindow_of_releasesNone hreleases
  have hlinks : (s.applySessionFlow flow).links = s.links := rfl
  have hbuffer : (s.applySessionFlow flow).remoteIncomingWindowExhaustedBuffer =
      s.remoteIncomingWindowExhaustedBuffer := rfl
  simp only [onIncomingFlow, onIncomingFlowInner, hflow, hrelay', hlinks,
    LinkRelay.onIncomingFlow_of_quiet hquiet, hbuffer]
  rw [if_neg hclosed]
  rfl

theorem onIncomingFlow_of_unattached {flow : Flow} {linkFlow : LinkFlow}
    (hflow : LinkFlow.tryFrom flow = some linkFlow)
    (hrelay : s.linkByInputHandle ⟨linkFlow.handle⟩ = none) :
    s.onIncomingFlow flow = (.error .unattachedHandle, s.applySessionFlow flow) := by
  have hrelay' : (s.applySessionFlow flow).linkByInputHandle ⟨linkFlow.handle⟩ = none := hrelay
  simp only [onIncomingFlow, onIncomingFlowInner, hflow, hrelay']

end Session

/-- Whether a frame that is no End is handed to the session in this phase. -/
def SessionEnginePhase.listens : SessionEnginePhase → Bool
  | .eventLoop | .handlesDropped => true
  | .waitForRemoteEnd discardOtherFrame _ _ => !discardOtherFrame
  | .stopped _ => false

namespace ListenerSessionEngine

variable {l : ListenerSessionEngine}

theorem onIncoming_of_dispatch {frame : SessionFrame} {out : Dispatched} {q : ListenerQueues}
    (h : l.session.onIncoming frame = some (out, q)) :
    l.onIncoming frame =
      if l.engine.phase.listens then (⟨(l.engine.resume out).1, q⟩, (l.engine.resume out).2)
      else (l, []) := by
  simp only [onIncoming, h]
  cases l.engine.phase with
  | eventLoop => rfl
  | handlesDropped => rfl
  | stopped outcome => rfl
  | waitForRemoteEnd discardOtherFrame thenEnd cause => cases discardOtherFrame <;> rfl

/-- Two states that differ in the group only do the same with frames that are dispatched alike. -/
theorem onIncoming_congr {g : LinkGroup} {handle : InputHandle} {l' : ListenerSessionEngine}
    {frame : SessionFrame} {out out' : Dispatched} {q q' : ListenerQueues}
    (hsame : l.without g handle = l'.without g handle)
    (h : l.session.onIncoming frame = some (out, q))
    (h' : l'.session.onIncoming frame = some (out', q')) (hout : out.without g = out'.without g)
    (hq : q.without handle = q'.without handle) :
    Prod.map (without g handle) id (l.onIncoming frame) =
      Prod.map (without g handle) id (l'.onIncoming frame) := by
  have hengine : l.engine.without g = l'.engine.without g :=
    congrArg ListenerSessionEngine.engine hsame
  have hphase : l.engine.phase = l'.engine.phase := congrArg (fun e => e.phase) hengine
  have hresume : Prod.map (SessionEngine.without g) id (l.engine.resume out) =
      Prod.map (SessionEngine.without g) id (l'.engine.resume out') := by
    rw [← SessionEngine.resume_without, ← SessionEngine.resume_without, hengine, hout]
  have hstate : (l.engine.resume out).1.without g = (l'.engine.resume out').1.without g :=
    congrArg Prod.fst hresume
  have hframes := congrArg Prod.snd hresume
  rw [onIncoming_of_dispatch h, onIncoming_of_dispatch h', hphase]
  cases l'.engine.phase.listens with
  | true =>
      refine Prod.ext ?_ hframes
      simp only [Prod.map, without, if_true]
      rw [hstate, hq]
  | false => exact Prod.ext hsame rfl

end ListenerSessionEngine

namespace WaitingLink

/-- The early and the late registration of the link have done the same so far. -/
structure Registered (w : WaitingLink) (early late : ListenerSessionEngine) : Prop where
  same : early.without w.group w.handle = late.without w.group w.handle
  earlyFresh : early.engine.session.tables.Fresh w.handle w.link
  lateFresh : late.engine.session.tables.Fresh w.handle w.link
  registered : ∃ relay, early.engine.session.linkByInputHandle w.handle = some relay ∧
    relay.idle = w.relay.idle
  unregistered : late.engine.session.linkByInputHandle w.handle = none
  earlyKept : early.listener.pendingLinkFlows w.handle = []
  flowState : early.engine.session.links.flowStates w.link =
    (late.listener.pendingLinkFlows w.handle).foldl w.relay.flowed
      (late.engine.session.links.flowStates w.link)

variable {w : WaitingLink} {early late : ListenerSessionEngine} {event : ListenerSessionEvent}

namespace Registered

theorem session (h : w.Registered early late) :
    early.engine.session.without w.group = late.engine.session.without w.group :=
  congrArg (fun l => l.engine.session) h.same

theorem linkByName (h : w.Registered early late) :
    early.engine.session.linkByName = late.engine.session.linkByName := by
  have hnames := congrArg Session.linkByName h.session
  simpa [Session.without, WaitingLink.group] using hnames

/-- A record is hidden only if it is of a receiver on the handle. -/
theorem deliveryTagById (h : w.Registered early late) {key : Role × DeliveryNumber}
    {handle : InputHandle} {tag : DeliveryTag}
    (hkey : early.engine.session.deliveryTagById key = some (handle, tag)) :
    late.engine.session.deliveryTagById key = some (handle, tag) ∨
      key.1 = .sender ∧ handle = w.handle ∧ w.relay.isReceiver = true := by
  have hrecords := congrFun (congrArg Session.deliveryTagById h.session) key
  by_cases hhidden : key.1 = .sender ∧ handle ∈ w.group.handles
  · exact .inr ⟨hhidden.1, hhidden.2.1, hhidden.2.2⟩
  · left
    have hearly : w.group.maskDeliveries early.engine.session.deliveryTagById key =
        some (handle, tag) := by
      unfold LinkGroup.maskDeliveries
      split
      · next hrole =>
          rw [hkey, Option.filter_some, if_pos]
          exact decide_eq_true fun hmem => hhidden ⟨hrole, hmem⟩
      · exact hkey
    have hlate : w.group.maskDeliveries late.engine.session.deliveryTagById key =
        some (handle, tag) := hrecords.symm.trans hearly
    unfold LinkGroup.maskDeliveries at hlate
    split at hlate
    · exact (Option.filter_eq_some_iff.mp hlate).1
    · exact hlate

theorem onHandle_early (h : w.Registered early late) : w.OnHandle early.engine.session := by
  intro relay hrelay
  obtain ⟨relay', hrelay', hidle⟩ := h.registered
  rw [hrelay] at hrelay'
  rw [Option.some.inj hrelay']
  exact hidle

theorem onHandle_late (h : w.Registered early late) : w.OnHandle late.engine.session := by
  intro relay hrelay
  rw [h.unregistered] at hrelay
  cases hrelay

theorem releasesNone_early (h : w.Registered early late) {flow : Flow}
    (hreleases : ReleasesNone late.engine.session flow) :
    ReleasesNone early.engine.session flow := by
  have hbuffer : early.engine.session.remoteIncomingWindowExhaustedBuffer =
      late.engine.session.remoteIncomingWindowExhaustedBuffer :=
    congrArg (fun s => s.remoteIncomingWindowExhaustedBuffer) h.session
  have hinitial : early.engine.session.initialOutgoingId = late.engine.session.initialOutgoingId :=
    congrArg (fun s => s.initialOutgoingId) h.session
  have hnext : early.engine.session.nextOutgoingId = late.engine.session.nextOutgoingId :=
    congrArg (fun s => s.nextOutgoingId) h.session
  unfold ReleasesNone
  rw [hbuffer, hinitial, hnext]
  exact hreleases

/-- The condition on an event is met in both states or in none. -/
theorem admits_early (h : w.Registered early late) (hadmits : w.Admits late event) :
    w.Admits early event := by
  cases event with
  | listener linkListener => trivial
  | engine event =>
      cases event with
      | incoming frame =>
          cases frame with
          | none => trivial
          | some frame =>
              obtain ⟨channel, body⟩ := frame
              cases body with
              | attach attach =>
                  intro hhandle relay
                  rw [h.linkByName]
                  exact hadmits hhandle relay
              | flow flow =>
                  intro linkFlow htry hhandle
                  obtain ⟨hquiet, hreleases⟩ := hadmits linkFlow htry hhandle
                  exact ⟨hquiet, h.releasesNone_early hreleases⟩
              | transfer performative payload =>
                  intro hhandle
                  obtain ⟨hreceiver, hunused⟩ := hadmits hhandle
                  refine ⟨hreceiver, fun id hid handle tag hkey => ?_⟩
                  rcases h.deliveryTagById hkey with hlate | ⟨_, hown, _⟩
                  · exact hunused id hid handle tag hlate
                  · exact hown
              | disposition disposition =>
                  intro id hid tag hkey
                  rcases h.deliveryTagById hkey with hlate | ⟨hrole, _, hreceiver⟩
                  · exact hadmits id hid tag hlate
                  · exact ⟨hrole, hreceiver⟩
              | detach detach => exact hadmits
              | begin begin' => trivial
              | «end» end' => trivial
      | control control =>
          cases control with
          | none => trivial
          | some control => cases control <;> exact hadmits
      | _ => trivial

/-- An event for another link does the same in both states. -/
theorem step_other (h : w.Registered early late) (hadmits : w.Admits late event)
    (hown : ¬w.Owns event) :
    (early.stepBeside w.link event).2 = (late.stepBeside w.link event).2 ∧
      w.Registered (early.stepBeside w.link event).1 (late.stepBeside w.link event).1 := by
  have hearlyAdmits := h.admits_early hadmits
  have hstep : Prod.map (ListenerSessionEngine.without w.group w.handle) id
      (early.stepBeside w.link event) =
        Prod.map (ListenerSessionEngine.without w.group w.handle) id
          (late.stepBeside w.link event) := by
    rw [step_without_of_admits h.earlyFresh h.onHandle_early hearlyAdmits hown,
      step_without_of_admits h.lateFresh h.onHandle_late hadmits hown, h.same]
  have hearly := step_untouched_of_admits h.earlyFresh hearlyAdmits hown
  have hlate := step_untouched_of_admits h.lateFresh hadmits hown
  have hearlyKept := step_pending_of_admits hearlyAdmits hown
  have hlateKept := step_pending_of_admits hadmits hown
  obtain ⟨relay, hrelay, hidle⟩ := h.registered
  have hframes := congrArg Prod.snd hstep
  refine ⟨hframes, ?_⟩
  constructor
  · exact congrArg Prod.fst hstep
  · exact step_fresh_of_admits h.earlyFresh hearlyAdmits
  · exact step_fresh_of_admits h.lateFresh hadmits
  · exact ⟨relay, hearly.relay.trans hrelay, hidle⟩
  · exact hlate.relay.trans h.unregistered
  · exact hearlyKept.trans h.earlyKept
  · rw [hearly.flow, hlateKept, hlate.flow]
    exact h.flowState

/-- A frame of the link itself, from what its dispatch does to the two sessions. -/
theorem step_dispatch (h : w.Registered early late) {frame : SessionFrame}
    (hadmits : w.Admits late (.engine (.incoming (some frame)))) {out out' : Dispatched}
    {q q' : ListenerQueues} (hearly : early.session.onIncoming frame = some (out, q))
    (hlate : late.session.onIncoming frame = some (out', q'))
    (hout : out.without w.group = out'.without w.group)
    (hq : q.without w.handle = q'.without w.handle)
    (hregistered : ∃ relay, out.session.linkByInputHandle w.handle = some relay ∧
      relay.idle = w.relay.idle)
    (hunregistered : out'.session.linkByInputHandle w.handle = none)
    (hkept : q.pendingLinkFlows w.handle = [])
    (hflowState : out.session.links.flowStates w.link =
      (q'.pendingLinkFlows w.handle).foldl w.relay.flowed
        (out'.session.links.flowStates w.link)) :
    (early.onIncoming frame).2 = (late.onIncoming frame).2 ∧
      w.Registered (early.onIncoming frame).1 (late.onIncoming frame).1 := by
  have hstep := ListenerSessionEngine.onIncoming_congr h.same hearly hlate hout hq
  have hframes := congrArg Prod.snd hstep
  have hphase : early.engine.phase = late.engine.phase :=
    congrArg (fun l => l.engine.phase) h.same
  have hearlyFresh : (early.onIncoming frame).1.engine.session.tables.Fresh w.handle w.link :=
    step_fresh_of_admits h.earlyFresh (h.admits_early hadmits)
  have hlateFresh : (late.onIncoming frame).1.engine.session.tables.Fresh w.handle w.link :=
    step_fresh_of_admits h.lateFresh hadmits
  have hsame := congrArg Prod.fst hstep
  refine ⟨hframes, ?_⟩
  rw [ListenerSessionEngine.onIncoming_of_dispatch hearly] at hearlyFresh hsame ⊢
  rw [ListenerSessionEngine.onIncoming_of_dispatch hlate] at hlateFresh hsame ⊢
  rw [hphase] at hearlyFresh hsame ⊢
  cases hlistens : late.engine.phase.listens with
  | false => exact h
  | true =>
      rw [hlistens] at hearlyFresh hlateFresh hsame
      have hearlyResume := early.engine.resume_untouched w.handle w.link out
      have hlateResume := late.engine.resume_untouched w.handle w.link out'
      obtain ⟨relay, hrelay, hidle⟩ := hregistered
      constructor
      · exact hsame
      · exact hearlyFresh
      · exact hlateFresh
      · exact ⟨relay, hearlyResume.relay.trans hrelay, hidle⟩
      · exact hlateResume.relay.trans hunregistered
      · exact hkept
      · exact (hearlyResume.flow.trans hflowState).trans
          (congrArg (List.foldl w.relay.flowed · (q'.pendingLinkFlows w.handle))
            hlateResume.flow.symm)

theorem step_flow (h : w.Registered early late) {channel : UInt16} {flow : Flow}
    (hown : flow.handle = some w.handle.handle)
    (hadmits : w.Admits late (.engine (.incoming (some ⟨channel, .flow flow⟩)))) :
    (early.onIncoming ⟨channel, .flow flow⟩).2 = (late.onIncoming ⟨channel, .flow flow⟩).2 ∧
      w.Registered (early.onIncoming ⟨channel, .flow flow⟩).1
        (late.onIncoming ⟨channel, .flow flow⟩).1 := by
  obtain ⟨linkFlow, htry⟩ : ∃ linkFlow, LinkFlow.tryFrom flow = some linkFlow := by
    simp [LinkFlow.tryFrom, hown]
  have hhandle : linkFlow.handle = w.handle.handle :=
    Option.some.inj ((LinkFlow.handle_of_tryFrom htry).symm.trans hown)
  obtain ⟨hquiet, hreleases⟩ := hadmits linkFlow htry hhandle
  obtain ⟨relay, hrelay, hidle⟩ := h.registered
  obtain ⟨hkind, hlink⟩ := isReceiver_of_idle hidle
  have hkey : (⟨linkFlow.handle⟩ : InputHandle) = w.handle := by rw [hhandle]
  have hrelayQuiet : relay.Quiet linkFlow := by
    unfold LinkRelay.Quiet
    rw [hkind]
    exact hquiet
  have hflowed : relay.flowed = w.relay.flowed := flowed_of_idle hidle
  have hearly := Session.onIncomingFlow_of_quiet (s := early.engine.session) htry
    (by rw [hkey]; exact hrelay) hrelayQuiet (h.releasesNone_early hreleases)
  have hlate := Session.onIncomingFlow_of_unattached (s := late.engine.session) htry
    (by rw [hkey]; exact h.unregistered)
  have hearlyOut : early.session.onIncoming ⟨channel, .flow flow⟩ =
      some (Session.dispatched { early.engine.session.applySessionFlow flow with
        links := relay.replay early.engine.session.links linkFlow } [], early.listener) := by
    have hsession : early.session.session = early.engine.session := rfl
    simp only [ListenerSession.onIncoming, ListenerSession.onIncomingFlow, hsession, hearly]
    rfl
  have hlateOut : late.session.onIncoming ⟨channel, .flow flow⟩ =
      some ((late.engine.session.applySessionFlow flow).dispatched [],
        { late.listener with
          pendingLinkFlows := Function.update late.listener.pendingLinkFlows w.handle
            (late.listener.pendingLinkFlows w.handle ++ [linkFlow]) }) := by
    have hsession : late.session.session = late.engine.session := rfl
    simp only [ListenerSession.onIncoming, ListenerSession.onIncomingFlow, hsession, hlate, htry,
      hkey]
    rfl
  refine h.step_dispatch hadmits hearlyOut hlateOut ?_ ?_ ⟨relay, hrelay, hidle⟩ h.unregistered
    h.earlyKept ?_
  · rw [← Session.dispatched_without, ← Session.dispatched_without]
    refine congrArg (Session.dispatched · []) ?_
    have hmem : relay.link ∈ w.group.cells := mem_cells.mpr hlink
    have happly : (late.engine.session.applySessionFlow flow).without w.group =
        (early.engine.session.applySessionFlow flow).without w.group := by
      show (late.engine.session.without w.group).applySessionFlow flow =
        (early.engine.session.without w.group).applySessionFlow flow
      rw [h.session]
    rw [happly]
    simp only [Session.without, LinkRelay.replay_hidden hmem]
    rfl
  · have hlistener : early.listener.without w.handle = late.listener.without w.handle :=
      congrArg (fun l => l.listener) h.same
    rw [hlistener]
    simp [ListenerQueues.without]
  · show (relay.replay early.engine.session.links linkFlow).flowStates w.link = _
    rw [← hlink, LinkRelay.replay_flowStates, hlink, hflowed, h.flowState]
    simp only [Function.update_self, List.foldl_append]
    rfl

/-- A Transfer for the link, in the session that has its relay: nothing but the link sees it. -/
theorem onIncomingTransfer_early (h : w.Registered early late) {transfer : Transfer}
    (hown : transfer.handle = w.handle.handle) (hreceiver : w.relay.isReceiver = true)
    (hunused : ∀ id, transfer.deliveryId = some id → ∀ handle tag,
      late.engine.session.deliveryTagById (.sender, id) = some (handle, tag) → handle = w.handle)
    (payload : Payload) :
    ∃ result session, early.engine.session.onIncomingTransfer transfer payload = (result, session) ∧
      (result = .ok none ∨ result = .error .unattachedHandle) ∧
        session.without w.group =
          (late.engine.session.onIncomingTransfer transfer payload).2.without w.group ∧
        (∃ relay, session.linkByInputHandle w.handle = some relay ∧ relay.idle = w.relay.idle) ∧
          session.links.flowStates w.link = early.engine.session.links.flowStates w.link := by
  obtain ⟨relay, hrelay, hidle⟩ := h.registered
  obtain ⟨hkind, hlink⟩ := isReceiver_of_idle hidle
  have hkey : (⟨transfer.handle⟩ : InputHandle) = w.handle := by rw [hown]
  have hmem : relay.link ∈ w.group.cells := mem_cells.mpr hlink
  have hhandle : w.handle ∈ w.group.handles := ⟨rfl, hreceiver⟩
  have hflows := relay.onIncomingTransfer_flowStates early.engine.session.links transfer payload
  obtain ⟨result, relay', links, hout, hidle', hhidden, hresult⟩ :=
    relay.onIncomingTransfer_hidden hmem (hkind.trans hreceiver) early.engine.session.links transfer
      payload
  rw [hout] at hflows
  have hlate : (late.engine.session.onIncomingTransfer transfer payload).2 =
      { late.engine.session with
        nextIncomingId := late.engine.session.nextIncomingId + 1
        remoteOutgoingWindow := late.engine.session.remoteOutgoingWindow.saturatingSub 1
        needFlowCount := late.engine.session.needFlowCount.saturatingAdd 1 } := by
    simp only [Session.onIncomingTransfer, hkey, h.unregistered]
  -- off the link the counters are all that changes
  have hcounted : ∀ deliveries,
      w.group.maskDeliveries deliveries =
        w.group.maskDeliveries early.engine.session.deliveryTagById →
      Session.without w.group { early.engine.session with
        nextIncomingId := early.engine.session.nextIncomingId + 1
        remoteOutgoingWindow := early.engine.session.remoteOutgoingWindow.saturatingSub 1
        needFlowCount := early.engine.session.needFlowCount.saturatingAdd 1
        links
        linkByInputHandle :=
          Function.update early.engine.session.linkByInputHandle w.handle (some relay')
        deliveryTagById := deliveries } =
        (late.engine.session.onIncomingTransfer transfer payload).2.without w.group := by
    intro deliveries hdeliveries
    have hsession := congrArg (fun s : Session =>
      { s with
        nextIncomingId := s.nextIncomingId + 1
        remoteOutgoingWindow := s.remoteOutgoingWindow.saturatingSub 1
        needFlowCount := s.needFlowCount.saturatingAdd 1 }) h.session
    refine Eq.trans ?_ (hsession.trans (by rw [hlate]; rfl))
    simp only [Session.without, hdeliveries, hhidden, Session.mk.injEq, true_and, and_true]
    funext other
    by_cases hother : other = w.handle
    · subst hother
      simp [hhandle]
    · simp [hother]
  have hrecorded : ∀ id tag, transfer.deliveryId = some id →
      w.group.maskDeliveries (Function.update early.engine.session.deliveryTagById (.sender, id)
        (some (w.handle, tag))) =
          w.group.maskDeliveries early.engine.session.deliveryTagById := by
    intro id tag hid
    funext key
    by_cases hsame : key = (.sender, id)
    · subst hsame
      have hnone : w.group.maskDeliveries early.engine.session.deliveryTagById (.sender, id) =
          none := by
        cases hbefore : early.engine.session.deliveryTagById (.sender, id) with
        | none => simp [LinkGroup.maskDeliveries, hbefore]
        | some delivery =>
            have hdelivery : delivery.1 = w.handle := by
              rcases h.deliveryTagById hbefore with hlate | ⟨_, hsender, _⟩
              · exact hunused id hid delivery.1 delivery.2 hlate
              · exact hsender
            simp [LinkGroup.maskDeliveries, hbefore, hdelivery, hhandle]
      rw [hnone]
      simp [LinkGroup.maskDeliveries, hhandle]
    · simp [LinkGroup.maskDeliveries, Function.update_of_ne hsame]
  have hregistered : Function.update early.engine.session.linkByInputHandle w.handle (some relay')
      w.handle = some relay' := Function.update_self _ _ _
  have hflow : links.flowStates w.link = early.engine.session.links.flowStates w.link :=
    congrFun hflows w.link
  clear hlate
  generalize (late.engine.session.onIncomingTransfer transfer payload).2 = counted at hcounted ⊢
  simp only [Session.onIncomingTransfer, hkey, hrelay, hout]
  rcases hresult with rfl | rfl | ⟨id, tag, hid, rfl⟩
  · exact ⟨_, _, rfl, .inr rfl, hcounted _ rfl, ⟨relay', hregistered, hidle'.trans hidle⟩, hflow⟩
  · exact ⟨_, _, rfl, .inl rfl, hcounted _ rfl, ⟨relay', hregistered, hidle'.trans hidle⟩, hflow⟩
  · exact ⟨_, _, rfl, .inl rfl, hcounted _ (hrecorded id tag hid),
      ⟨relay', hregistered, hidle'.trans hidle⟩, hflow⟩

theorem step_transfer (h : w.Registered early late) {channel : UInt16} {transfer : Transfer}
    {payload : Payload} (hown : transfer.handle = w.handle.handle)
    (hadmits : w.Admits late (.engine (.incoming (some ⟨channel, .transfer transfer payload⟩)))) :
    (early.onIncoming ⟨channel, .transfer transfer payload⟩).2 =
        (late.onIncoming ⟨channel, .transfer transfer payload⟩).2 ∧
      w.Registered (early.onIncoming ⟨channel, .transfer transfer payload⟩).1
        (late.onIncoming ⟨channel, .transfer transfer payload⟩).1 := by
  obtain ⟨hreceiver, hunused⟩ := hadmits hown
  obtain ⟨result, session, htransfer, hresult, hsession, hregistered, hflow⟩ :=
    h.onIncomingTransfer_early hown hreceiver hunused payload
  have hkey : (⟨transfer.handle⟩ : InputHandle) = w.handle := by rw [hown]
  have hlateFlow : (late.engine.session.onIncomingTransfer transfer payload).2.links =
      late.engine.session.links := by
    simp only [Session.onIncomingTransfer, hkey, h.unregistered]
  have hlateRelay : (late.engine.session.onIncomingTransfer transfer payload).2.linkByInputHandle
      w.handle = none := by
    simp only [Session.onIncomingTransfer, hkey, h.unregistered]
  have hlateResult : (late.engine.session.onIncomingTransfer transfer payload).1 =
      .error .unattachedHandle := by
    simp only [Session.onIncomingTransfer, hkey, h.unregistered]
  -- what the dispatch makes of the session that the Transfer leaves
  let finish (s : Session) : Dispatched :=
    s.maybeOutgoingSessionFlow.2.dispatched (itemFrames s.maybeOutgoingSessionFlow.1)
  have hfinish : ∀ s : Session, (finish s).without w.group = finish (s.without w.group) := by
    intro s
    simp only [finish, Session.maybeOutgoingSessionFlow_without]
    rfl
  have hearlyOut : early.session.onIncoming ⟨channel, .transfer transfer payload⟩ =
      some (finish session, early.listener) := by
    have hinner : early.session.session = early.engine.session := rfl
    rcases hresult with rfl | rfl
    · simp only [ListenerSession.onIncoming, ListenerSession.onIncomingTransfer, hinner, htransfer]
      rfl
    · simp only [ListenerSession.onIncoming, ListenerSession.onIncomingTransfer, hinner, htransfer]
      rfl
  have hlateOut : late.session.onIncoming ⟨channel, .transfer transfer payload⟩ =
      some (finish (late.engine.session.onIncomingTransfer transfer payload).2, late.listener) := by
    have hinner : late.session.session = late.engine.session := rfl
    have hpair : late.engine.session.onIncomingTransfer transfer payload =
        (.error .unattachedHandle, (late.engine.session.onIncomingTransfer transfer payload).2) :=
      Prod.ext hlateResult rfl
    simp only [ListenerSession.onIncoming, ListenerSession.onIncomingTransfer, hinner]
    rw [hpair]
    rfl
  have huntouched : ∀ s : Session, Untouched w.handle w.link s (finish s).session :=
    fun s => Session.maybeOutgoingSessionFlow_untouched s w.handle w.link
  obtain ⟨relay, hrelay, hidle⟩ := hregistered
  refine h.step_dispatch hadmits hearlyOut hlateOut ?_ ?_ ⟨relay, ?_, hidle⟩ ?_ h.earlyKept ?_
  · rw [hfinish, hfinish, hsession]
  · exact congrArg (fun l => l.listener) h.same
  · exact (huntouched session).relay.trans hrelay
  · exact (huntouched _).relay.trans hlateRelay
  · rw [(huntouched session).flow, (huntouched _).flow, hlateFlow, hflow]
    exact h.flowState

/-- One event, whatever link it is for. -/
theorem step (h : w.Registered early late) (hadmits : w.Admits late event) :
    (early.stepBeside w.link event).2 = (late.stepBeside w.link event).2 ∧
      w.Registered (early.stepBeside w.link event).1 (late.stepBeside w.link event).1 := by
  by_cases hown : w.Owns event
  · cases event with
    | listener linkListener => exact hown.elim
    | engine event =>
        cases event with
        | incoming frame =>
            cases frame with
            | none => exact hown.elim
            | some frame =>
                obtain ⟨channel, body⟩ := frame
                cases body with
                | flow flow => exact h.step_flow hown hadmits
                | transfer performative payload => exact h.step_transfer hown hadmits
                | _ => exact hown.elim
        | _ => exact hown.elim
  · exact h.step_other hadmits hown

/-- A run of admitted events emits the same frames in both. -/
theorem run (h : w.Registered early late) {events : List ListenerSessionEvent}
    (hevents : Run.Along (ListenerSessionEngine.stepBeside w.link) w.Admits late events) :
    (Run.run (ListenerSessionEngine.stepBeside w.link) early events).2 =
        (Run.run (ListenerSessionEngine.stepBeside w.link) late events).2 ∧
      w.Registered (Run.run (ListenerSessionEngine.stepBeside w.link) early events).1
        (Run.run (ListenerSessionEngine.stepBeside w.link) late events).1 := by
  induction events generalizing early late with
  | nil => exact ⟨rfl, h⟩
  | cons event events ih =>
      obtain ⟨hfirst, hnext⟩ := h.step hevents.1
      obtain ⟨hrest, hlast⟩ := ih hnext hevents.2
      exact ⟨congrArg₂ (· ++ ·) hfirst hrest, hlast⟩

end Registered

end WaitingLink

/-! ## Acceptance -/

namespace ListenerSessionEngine

/-- The listener with the relay of a waiting link on its handle. -/
def register (l : ListenerSessionEngine) (w : WaitingLink) : ListenerSessionEngine :=
  let s := l.engine.session
  { l with
    engine := l.engine.withSession
      { s with linkByInputHandle := Function.update s.linkByInputHandle w.handle (some w.relay) } }

/-- Acceptance of a link whose relay is on its handle already: its name and its handle number are
entered. -/
def acceptRegistered (l : ListenerSessionEngine) (linkName : String) (responderDropped : Bool) :
    ListenerSessionEngine × List SessionFrame :=
  match l.engine.phase with
  | .eventLoop =>
      let (_, session) := l.engine.session.allocateLink linkName none
      let (engine, frames) := l.engine.settle (session.responded responderDropped)
      ({ l with engine }, frames)
  | _ => (l, [])

end ListenerSessionEngine

/-- The counters and the buffer of a session that rule what it may send and receive. -/
def Session.windows (s : Session) :
    List UInt32 × List BufferedTransfer :=
  ([s.nextIncomingId, s.incomingWindow, s.remoteOutgoingWindow, s.needFlowCount, s.nextOutgoingId,
    s.outgoingWindow, s.remoteIncomingWindow, s.nextOutgoingDeliveryId],
   s.remoteIncomingWindowExhaustedBuffer)

namespace WaitingLink

/-- The two states once the link is accepted. -/
structure Accepted (w : WaitingLink) (early late : ListenerSessionEngine) : Prop where
  same : early.without w.group w.handle = late.without w.group w.handle
  windows : early.engine.session.windows = late.engine.session.windows
  registered : late.engine.session.linkByInputHandle w.handle = some w.relay
  earlyRegistered : ∃ relay, early.engine.session.linkByInputHandle w.handle = some relay ∧
    relay.idle = w.relay.idle
  flowState : early.engine.session.links.flowStates w.link =
    late.engine.session.links.flowStates w.link
  nothingKept : late.listener.pendingLinkFlows w.handle = []

variable {w : WaitingLink} {early late l : ListenerSessionEngine}

theorem windows_of_without {g : LinkGroup} {s s' : Session} (h : s.without g = s'.without g) :
    s.windows = s'.windows := by
  have hwindows : (s.without g).windows = (s'.without g).windows := by rw [h]
  exact hwindows

theorem registered_register (hfresh : l.engine.session.tables.Fresh w.handle w.link)
    (hunregistered : l.engine.session.linkByInputHandle w.handle = none)
    (hkept : l.listener.pendingLinkFlows w.handle = []) : w.Registered (l.register w) l := by
  constructor
  · have hsession : (l.register w).engine.session.without w.group =
        l.engine.session.without w.group := by
      simp only [ListenerSessionEngine.register, SessionEngine.withSession, Session.without,
        Session.mk.injEq, true_and, and_true]
      funext other
      by_cases hother : other = w.handle
      · subst hother
        simp [hunregistered, mem_cells, link]
      · simp [hother]
    simp only [ListenerSessionEngine.without, SessionEngine.without, hsession]
    rfl
  · refine ⟨hfresh.1, fun other relay hother hrelay => hfresh.2 other relay hother ?_⟩
    rw [← hrelay]
    simp [ListenerSessionEngine.register, SessionEngine.withSession, Session.tables_byInput, hother]
  · exact hfresh
  · exact ⟨w.relay, Function.update_self _ _ _, rfl⟩
  · exact hunregistered
  · exact hkept
  · rw [hkept]
    rfl

/-- The session once the late acceptance has put the relay on the handle and replayed the Flows that
were kept; `s` is the session with the name and the handle number entered. -/
def accepted (w : WaitingLink) (late : ListenerSessionEngine) (s : Session) : Session :=
  { s with
    linkByInputHandle := Function.update s.linkByInputHandle w.handle (some w.relay)
    links := (late.listener.pendingLinkFlows w.handle).foldl w.relay.replay s.links }

theorem allocateIncomingLink_eq {s : Session} {linkName : String} {linkRelay : LinkRelay Unit}
    {outputHandle : OutputHandle}
    (hs : late.engine.session.allocateLink linkName none = (.ok outputHandle, s))
    (hrelay : linkRelay.withOutputHandle outputHandle = w.relay) :
    late.session.allocateIncomingLink linkName linkRelay w.handle =
      (.ok outputHandle,
        { session := w.accepted late s
          linkListener := late.listener.linkListener
          pendingLinkFlows := Function.update late.listener.pendingLinkFlows w.handle [] }) := by
  have hinner : late.session.session = late.engine.session := rfl
  have hkept : late.session.pendingLinkFlows = late.listener.pendingLinkFlows := rfl
  simp only [ListenerSession.allocateIncomingLink, Session.allocateIncomingLink, hinner, hs, hrelay,
    Function.update_self, hkept, accepted]
  rfl

theorem accepted_without (late : ListenerSessionEngine) {s : Session}
    (hunregistered : s.linkByInputHandle w.handle = none) :
    (w.accepted late s).without w.group = s.without w.group := by
  have hmem : w.relay.link ∈ w.group.cells := mem_cells.mpr rfl
  have hreplayed : ((late.listener.pendingLinkFlows w.handle).foldl w.relay.replay s.links).without
      w.group.cells = s.links.without w.group.cells :=
    LinkRelay.foldl_replay_hidden hmem _ _
  simp only [accepted, Session.without, hreplayed, Session.mk.injEq, true_and, and_true]
  funext other
  by_cases hother : other = w.handle
  · subst hother
    simp [hunregistered, hmem]
  · simp [hother]

/-- What is done with the handle number once it is entered leaves the relay and the cell alone. -/
theorem settle_responded_untouched (e : SessionEngine) (s : Session) (responderDropped : Bool) :
    Untouched w.handle w.link s (e.settle (s.responded responderDropped)).1.session := by
  have huntouched := e.settle_untouched w.handle w.link (s.responded responderDropped)
  rwa [Session.responded_session] at huntouched

/-- The name and the handle number are entered in the same way. -/
theorem Registered.entered (h : w.Registered early late) (linkName : String) :
    (early.engine.session.allocateLink linkName none).2.without w.group =
      (late.engine.session.allocateLink linkName none).2.without w.group := by
  have hearly := Session.allocateLink_without (g := w.group) (s := early.engine.session)
    (Set.notMem_empty linkName) none
  have hlate := Session.allocateLink_without (g := w.group) (s := late.engine.session)
    (Set.notMem_empty linkName) none
  rw [h.session, hlate] at hearly
  exact (congrArg Prod.snd hearly).symm

/-- What follows for the engines with these sessions. -/
theorem Registered.settled (h : w.Registered early late) {s s' : Session}
    (hsessions : s.without w.group = s'.without w.group) (responderDropped : Bool) :
    Prod.map (SessionEngine.without w.group) id (early.engine.settle (s.responded responderDropped)) =
      Prod.map (SessionEngine.without w.group) id (late.engine.settle (s'.responded responderDropped)) := by
  have hengine : early.engine.without w.group = late.engine.without w.group :=
    congrArg (fun l => l.engine) h.same
  rw [← SessionEngine.settle_without, ← SessionEngine.settle_without, ← Session.responded_without,
    ← Session.responded_without, hengine, hsessions]

/-- Accepting the link gives both states the same name and handle number, and the late one the Flows
that were kept. -/
theorem Registered.accept (h : w.Registered early late) {linkName : String}
    {linkRelay : LinkRelay Unit} {outputHandle : OutputHandle}
    (hphase : late.engine.phase = .eventLoop)
    (hallocated : (late.engine.session.allocateIncomingLink linkName linkRelay w.handle).1 =
      .ok outputHandle)
    (hrelay : linkRelay.withOutputHandle outputHandle = w.relay) (responderDropped : Bool) :
    (early.acceptRegistered linkName responderDropped).2 =
        (late.allocateIncomingLink linkName linkRelay w.handle responderDropped).2 ∧
      w.Accepted (early.acceptRegistered linkName responderDropped).1
        (late.allocateIncomingLink linkName linkRelay w.handle responderDropped).1 := by
  have hearlyPhase : early.engine.phase = .eventLoop := by
    rw [← hphase]
    exact congrArg (fun l => l.engine.phase) h.same
  obtain ⟨_, _, hframe⟩ := early.engine.session.allocateLink_frame linkName none
  obtain ⟨_, _, hlateFrame⟩ := late.engine.session.allocateLink_frame linkName none
  obtain ⟨s, hs⟩ : ∃ s, late.engine.session.allocateLink linkName none = (.ok outputHandle, s) := by
    unfold Session.allocateIncomingLink at hallocated
    split at hallocated
    · next hresult =>
        rw [hresult]
        exact ⟨_, congrArg (·, _) hallocated⟩
    · cases hallocated
  rw [hs] at hlateFrame
  dsimp only at hlateFrame
  have hlinks : s.links = late.engine.session.links := by rw [hlateFrame]
  have hunregistered : s.linkByInputHandle w.handle = none := by
    rw [hlateFrame]
    exact h.unregistered
  have hlate := allocateIncomingLink_eq hs hrelay
  have hhidden : (early.engine.session.allocateLink linkName none).2.without w.group =
      (w.accepted late s).without w.group := by
    rw [accepted_without late hunregistered, h.entered, hs]
  have hsettled := h.settled hhidden responderDropped
  have hframes := congrArg Prod.snd hsettled
  have hearlyUntouched : Untouched w.handle w.link early.engine.session (early.engine.settle
      ((early.engine.session.allocateLink linkName none).2.responded responderDropped)).1.session := by
    refine Untouched.trans ?_ (settle_responded_untouched early.engine _ responderDropped)
    rw [hframe]
    exact .of_eq rfl rfl
  have hlateUntouched := settle_responded_untouched (w := w) late.engine (w.accepted late s)
    responderDropped
  obtain ⟨relay, hregistered, hidle⟩ := h.registered
  have hsame : (early.acceptRegistered linkName responderDropped).1.without w.group w.handle =
      (late.allocateIncomingLink linkName linkRelay w.handle responderDropped).1.without w.group
        w.handle := by
    have hlistener : early.listener.without w.handle = late.listener.without w.handle :=
      congrArg (fun l => l.listener) h.same
    simp only [ListenerSessionEngine.acceptRegistered, hearlyPhase,
      ListenerSessionEngine.allocateIncomingLink, hphase, hlate]
    refine congrArg₂ ListenerSessionEngine.mk (congrArg Prod.fst hsettled) ?_
    rw [hlistener]
    simp [ListenerQueues.without]
  simp only [ListenerSessionEngine.acceptRegistered, hearlyPhase,
    ListenerSessionEngine.allocateIncomingLink, hphase, hlate] at hsame ⊢
  refine ⟨hframes, ?_⟩
  constructor
  · exact hsame
  · exact windows_of_without (congrArg (fun l => l.engine.session) hsame)
  · exact hlateUntouched.relay.trans (Function.update_self _ _ _)
  · exact ⟨relay, hearlyUntouched.relay.trans hregistered, hidle⟩
  · refine (hearlyUntouched.flow.trans h.flowState).trans (hlateUntouched.flow.trans ?_).symm
    show ((late.listener.pendingLinkFlows w.handle).foldl w.relay.replay s.links).flowStates
      w.relay.link = _
    rw [LinkRelay.foldl_replay_flowStates, hlinks]
    rfl
  · exact Function.update_self _ _ _

/-! ## Runs -/

/-- A Flow for the handle is taken by a relay: one is registered, and it can pass on an acquisition. -/
def FindsRelay (handle : InputHandle) (l : ListenerSessionEngine) : ListenerSessionEvent → Prop
  | .engine (.incoming (some ⟨_, .flow flow⟩)) => flow.handle = some handle.handle →
      ∃ relay, l.engine.session.linkByInputHandle handle = some relay ∧
        (relay.isReceiver = true ∨ (l.engine.session.links.cell relay.link).endpointDropped = false)
  | _ => True

theorem drainBuffer_ne_unattached (s : Session) (buffer : List BufferedTransfer)
    (frames : List SessionFrame) : (s.drainBuffer buffer frames).1 ≠ .error .unattachedHandle := by
  induction buffer generalizing s frames with
  | nil => simp [Session.drainBuffer]
  | cons item buffer ih =>
      have hinner : (s.onOutgoingTransferInner item).1 ≠ .error .unattachedHandle := by
        unfold Session.onOutgoingTransferInner
        split
        · split
          · simp
          · simp
        · simp
      unfold Session.drainBuffer
      split
      · split
        · exact ih _ _
        · next hresult =>
            rw [hresult] at hinner
            intro herror
            injection herror with herror
            exact hinner (congrArg Except.error herror)
      · simp

theorem onIncomingFlow_ne_unattached {s : Session} {flow : Flow} {handle : InputHandle}
    {relay : LinkRelay OutputHandle} (hflow : flow.handle = some handle.handle)
    (hrelay : s.linkByInputHandle handle = some relay)
    (htaken : relay.isReceiver = true ∨ (s.links.cell relay.link).endpointDropped = false) :
    (s.onIncomingFlow flow).1 ≠ .error .unattachedHandle := by
  have hreply : ∀ linkFlow, ∃ reply links, relay.onIncomingFlow s.links linkFlow = (.ok reply, links) := by
    intro linkFlow
    cases relay with
    | sender link outputHandle mode =>
        have hopen : (s.links.cell link).endpointDropped = false :=
          htaken.resolve_left Bool.false_ne_true
        simp only [LinkRelay.onIncomingFlow, LinkStore.send, hopen]
        cases LinkRelay.acquisitionTxnId linkFlow <;> exact ⟨_, _, rfl⟩
    | receiver link outputHandle mode more => exact ⟨_, _, rfl⟩
  have hrelay' : (s.applySessionFlow flow).linkByInputHandle ⟨handle.handle⟩ = some relay := hrelay
  have hlinks : (s.applySessionFlow flow).links = s.links := rfl
  obtain ⟨reply, links, hout⟩ := hreply
    { handle := handle.handle
      deliveryCount := flow.deliveryCount
      linkCredit := flow.linkCredit
      available := flow.available
      drain := flow.drain
      echo := flow.echo
      properties := flow.properties }
  simp only [Session.onIncomingFlow, Session.onIncomingFlowInner, LinkFlow.tryFrom, hflow,
    Option.map_some, hrelay', hlinks, hout]
  split
  · have hdrain := drainBuffer_ne_unattached { s.applySessionFlow flow with links }
      s.remoteIncomingWindowExhaustedBuffer
      (reply.map (Session.onOutgoingFlow { s.applySessionFlow flow with links })).toList
    split
    · simp
    · next hresult =>
        unfold Session.prepareSessionFramesFromBufferedTransfers at hresult
        intro herror
        injection herror with herror
        exact hdrain (by rw [← herror]; exact congrArg Prod.fst hresult)
  · simp

theorem pending_of_findsRelay {handle : InputHandle} {l : ListenerSessionEngine}
    {events : List ListenerSessionEvent} (hkept : l.listener.pendingLinkFlows handle = [])
    (hevents : Run.Along ListenerSessionEngine.step (FindsRelay handle) l events) :
    (Run.run ListenerSessionEngine.step l events).1.listener.pendingLinkFlows handle = [] := by
  refine Run.invariant_of_along (I := fun l => l.listener.pendingLinkFlows handle = [])
    (fun l event hl hevent => ?_) hkept hevents
  have hflow : ∀ channel flow, event = .engine (.incoming (some ⟨channel, .flow flow⟩)) →
      flow.handle = some handle.handle →
        (l.engine.session.onIncomingFlow flow).1 ≠ .error .unattachedHandle := by
    rintro channel flow rfl hhandle
    obtain ⟨relay, hrelay, htaken⟩ := hevent hhandle
    exact onIncomingFlow_ne_unattached hhandle hrelay htaken
  rcases ListenerSessionEngine.step_pending hflow with hsame | ⟨hnone, _⟩
  · exact hsame.trans hl
  · exact hnone

/-- Along the events and at the acceptance that follows them, a link that is registered when its
Attach has arrived and one that is registered when it is accepted make no difference. -/
def AcceptedAlike (w : WaitingLink) (arrived : ListenerSessionEngine)
    (events : List ListenerSessionEvent) : Prop :=
  let early := Run.run (ListenerSessionEngine.stepBeside w.link) (arrived.register w) events
  let late := Run.run (ListenerSessionEngine.stepBeside w.link) arrived events
  early.2 = late.2 ∧ early.1.engine.session.windows = late.1.engine.session.windows ∧
    ∀ linkName linkRelay outputHandle responderDropped, late.1.engine.phase = .eventLoop →
      (late.1.engine.session.allocateIncomingLink linkName linkRelay w.handle).1 =
        .ok outputHandle →
      linkRelay.withOutputHandle outputHandle = w.relay →
      (early.1.acceptRegistered linkName responderDropped).2 =
          (late.1.allocateIncomingLink linkName linkRelay w.handle responderDropped).2 ∧
        w.Accepted (early.1.acceptRegistered linkName responderDropped).1
          (late.1.allocateIncomingLink linkName linkRelay w.handle responderDropped).1

/-- When a link is accepted makes no difference in a run whose events meet the condition.  `before`
ends with the Attach of the link; up to then every Flow for the handle was taken by an earlier link. -/
theorem accept_late_eq_accept_early (w : WaitingLink) (l : ListenerSessionEngine)
    (before events : List ListenerSessionEvent)
    (hkept : l.listener.pendingLinkFlows w.handle = [])
    (hbefore : Run.Along ListenerSessionEngine.step (FindsRelay w.handle) l before)
    (hfresh : (Run.run ListenerSessionEngine.step l before).1.engine.session.tables.Fresh w.handle
      w.link)
    (hunregistered : (Run.run ListenerSessionEngine.step l
      before).1.engine.session.linkByInputHandle w.handle = none)
    (hevents : Run.Along (ListenerSessionEngine.stepBeside w.link) w.Admits
      (Run.run ListenerSessionEngine.step l before).1 events) :
    w.AcceptedAlike (Run.run ListenerSessionEngine.step l before).1 events := by
  have hstart := registered_register hfresh hunregistered (pending_of_findsRelay hkept hbefore)
  obtain ⟨hframes, hregistered⟩ := hstart.run hevents
  refine ⟨hframes, windows_of_without hregistered.session, ?_⟩
  intro linkName linkRelay outputHandle responderDropped hphase hallocated hrelay
  exact hregistered.accept hphase hallocated hrelay responderDropped

section PipelinedFlow

private def pipelinedAttach : ListenerSessionEvent :=
  .engine (.incoming (some ⟨0, .attach
    { name := "a", handle := 5, role := .receiver, sndSettleMode := .mixed, rcvSettleMode := .first
      source := none, target := none, unsettled := none, incompleteUnsettled := false
      initialDeliveryCount := none, maxMessageSize := none, offeredCapabilities := none
      desiredCapabilities := none, properties := none }⟩))

private def pipelinedFlow (echo : Bool) : ListenerSessionEvent :=
  .engine (.incoming (some ⟨0, .flow
    { nextIncomingId := some 0, incomingWindow := 5, nextOutgoingId := 0, outgoingWindow := 10
      handle := some 5, deliveryCount := some 0, linkCredit := some 10, available := none
      drain := false, echo, properties := none }⟩))

private def waitingSender : WaitingLink := ⟨⟨5⟩, .sender 0 ⟨0⟩ .first⟩

private def pipelined : ListenerSessionEngine :=
  .start {} 0 .mapped LinkStore.empty

/-- A Flow that grants credit arrives before the sender is accepted. -/
theorem accept_late_eq_accept_early_credit :
    waitingSender.AcceptedAlike
      (Run.run ListenerSessionEngine.step pipelined [pipelinedAttach]).1 [pipelinedFlow false] := by
  refine accept_late_eq_accept_early waitingSender pipelined [pipelinedAttach] [pipelinedFlow false]
    rfl ⟨trivial, trivial⟩ ?_ rfl ⟨?_, trivial⟩
  · exact ⟨fun name relay hrelay => (nomatch hrelay), fun other relay _ hrelay => (nomatch hrelay)⟩
  · intro linkFlow htry _
    cases htry
    exact ⟨⟨rfl, fun _ => ⟨rfl, rfl⟩⟩, .inl rfl⟩

private def pipelinedDetach : ListenerSessionEvent :=
  .engine (.incoming (some ⟨0, .detach ⟨5, true, none⟩⟩))

/-- An early registration answers a Flow that asks for an echo, a late one drops the answer; and a
Flow that was kept for a link that the peer has detached grants its credit to the next link. -/
theorem accept_late_ne_accept_early :
    ¬waitingSender.AcceptedAlike
        (Run.run ListenerSessionEngine.step pipelined [pipelinedAttach]).1 [pipelinedFlow true] ∧
      ¬waitingSender.AcceptedAlike (Run.run ListenerSessionEngine.step pipelined
        [pipelinedAttach, pipelinedFlow false, pipelinedDetach, pipelinedAttach]).1 [] := by
  constructor
  · intro halike
    have hframes := congrArg List.length halike.1
    exact absurd hframes (by decide)
  · intro halike
    obtain ⟨-, haccepted⟩ := halike.2.2 "a" (.sender 0 () .first) ⟨0⟩ false rfl rfl rfl
    have hcredit := congrArg LinkFlowStateInner.linkCredit haccepted.flowState
    exact absurd hcredit (by decide)

end PipelinedFlow

end WaitingLink

end Fe2o3Amqp
