import Fe2o3Amqp.Session.Without
import Fe2o3Amqp.Util.Run

/-!
# The traffic of other links

What a session engine does with the frames, requests and transfers of the links outside a group is
the same whether or not it knows the links of the group: a step of the engine, then leaving the
group out, is leaving the group out and then the same step.
-/

namespace Fe2o3Amqp

open Classical

/-! ## Names stay apart -/

namespace LinkTables

/-- Only an allocation makes a link wait for its Attach under a name. -/
theorem step_byName {t : LinkTables} {op : TableOp} {name : String} {relay : RelayKey}
    (h : (t.step op).1.byName name = some (some relay)) :
    t.byName name = some (some relay) ∨
      ∃ link, op = .allocate name (some link) ∧ relay = (link, t.nextHandle) := by
  have hdeallocate : ∀ (t : LinkTables) (handle : OutputHandle),
      (t.deallocate handle).byName name = some (some relay) →
        t.byName name = some (some relay) := by
    intro t handle h
    unfold deallocate at h
    split at h
    · next name' _ =>
        by_cases hname : name = name'
        · subst hname
          simp at h
        · simpa [hname] using h
    · exact h
  cases op with
  | skip => exact .inl h
  | allocate name' link =>
      simp only [step, allocate] at h
      split at h
      · exact .inl h
      · by_cases hname : name = name'
        · subst hname
          cases link with
          | none => simp at h
          | some link => exact .inr ⟨link, rfl, by simpa using h.symm⟩
        · exact .inl (by simpa [hname] using h)
  | allocateIncoming name' link handle =>
      simp only [step, allocateIncoming] at h
      split at h
      · exact .inl h
      · next hfree =>
          simp only [allocate, if_neg hfree] at h
          by_cases hname : name = name'
          · subst hname
            simp at h
          · exact .inl (by simpa [hname] using h)
  | deallocate handle => exact .inl (hdeallocate t handle h)
  | attach name' handle delivered =>
      simp only [step, attach] at h
      split at h
      · by_cases hname : name = name'
        · subst hname
          simp at h
        · exact .inl (by simpa [hname] using h)
      · exact .inl h
  | localDetach handle =>
      simp only [step] at h
      split at h
      · exact .inl (hdeallocate t handle h)
      · exact .inl h
  | peerDetach handle =>
      simp only [step] at h
      split at h
      · exact .inl h
      · split at h
        · exact .inl h
        · have hbefore := hdeallocate _ _ h
          exact .inl hbefore

/-- A run of operations on the tables, all of them allowed. -/
def Runs (allowed : TableOp → Prop) : LinkTables → LinkTables → Prop :=
  Relation.ReflTransGen fun t t' => ∃ op, allowed op ∧ t' = (t.step op).1

/-- What the frames of local links can do to the tables. -/
def Local (op : TableOp) : Prop := op = .skip ∨ ∃ handle, op = .localDetach handle

theorem Runs.of_step {allowed : TableOp → Prop} {t t' : LinkTables} {op : TableOp} (h : allowed op)
    (heq : t' = (t.step op).1) : Runs allowed t t' :=
  .single ⟨op, h, heq⟩

theorem Runs.of_eq {allowed : TableOp → Prop} {t t' : LinkTables} (h : t' = t) :
    Runs allowed t t' := by
  subst h
  exact .refl

theorem Runs.trans {allowed : TableOp → Prop} {t t' t'' : LinkTables} (h : Runs allowed t t')
    (h' : Runs allowed t' t'') : Runs allowed t t'' :=
  Relation.ReflTransGen.trans h h'

theorem Runs.mono {allowed allowed' : TableOp → Prop} {t t' : LinkTables} (h : Runs allowed t t')
    (himp : ∀ op, allowed op → allowed' op) : Runs allowed' t t' := by
  induction h with
  | refl => exact .refl
  | tail _ hstep ih =>
      obtain ⟨op, hop, heq⟩ := hstep
      exact ih.tail ⟨op, himp op hop, heq⟩

/-- What every allowed operation preserves holds at the end of a run. -/
theorem Runs.invariant {allowed : TableOp → Prop} {P : LinkTables → Prop} {t t' : LinkTables}
    (h : Runs allowed t t') (preserved : ∀ t op, P t → allowed op → P (t.step op).1) (start : P t) :
    P t' :=
  Run.invariant_of_reflTransGen
    (fun t _ ⟨op, hop, heq⟩ hP => heq ▸ preserved t op hP hop) start h

end LinkTables

namespace Session

variable {g : LinkGroup} {s : Session}

/-- Whether the other waiting links stay apart is a matter of the tables. -/
theorem apart_iff_tables :
    s.Apart g ↔ ∀ name ∉ g.names, ∀ relay, s.tables.byName name = some (some relay) →
      relay.1 ∉ g.cells := by
  constructor
  · intro h name hname relay hrelay
    rw [tables_byName] at hrelay
    cases hlink : s.linkByName name with
    | none => simp [hlink] at hrelay
    | some waiting =>
        cases waiting with
        | none => simp [hlink] at hrelay
        | some relay' =>
            have hkey : relay'.key = relay := by simpa [hlink] using hrelay
            rw [← hkey]
            exact h name hname relay' hlink
  · intro h name hname relay hrelay
    exact h name hname relay.key (by rw [tables_byName, hrelay]; rfl)

theorem Apart.of_runs {s' : Session} {allowed : TableOp → Prop} (hs : s.Apart g)
    (hruns : LinkTables.Runs allowed s.tables s'.tables)
    (hallowed : ∀ name ∉ g.names, ∀ link, allowed (.allocate name (some link)) → link ∉ g.cells) :
    s'.Apart g := by
  rw [apart_iff_tables] at hs ⊢
  refine LinkTables.Runs.invariant (P := fun t => ∀ name ∉ g.names, ∀ relay,
    t.byName name = some (some relay) → relay.1 ∉ g.cells) hruns
    (fun t op ht hop name hname relay hrelay => ?_) hs
  rcases LinkTables.step_byName hrelay with hbefore | ⟨link, rfl, hkey⟩
  · exact ht name hname relay hbefore
  · rw [hkey]
    exact hallowed name hname link hop

/-! ## Link frames -/

noncomputable def Dispatched.without (g : LinkGroup) (out : Dispatched) : Dispatched :=
  { out with session := out.session.without g }

theorem dispatched_without (frames : List SessionFrame) :
    (s.without g).dispatched frames = (s.dispatched frames).without g :=
  rfl

theorem onOutgoingLinkFrames_without (frame : LinkFrame) :
    (s.without g).onOutgoingLinkFrames frame = (s.onOutgoingLinkFrames frame).without g := by
  have hstate : (s.without g).localState = s.localState := rfl
  have htransfer : ∀ item : BufferedTransfer,
      (s.without g).dispatchTransfer item = (s.dispatchTransfer item).without g := by
    intro item
    unfold dispatchTransfer
    rw [onOutgoingTransfer_without item]
    cases s.onOutgoingTransfer item with
    | mk result s' => cases result <;> rfl
  unfold onOutgoingLinkFrames
  rw [hstate]
  split
  · rfl
  · cases frame with
    | firstTransfer frame => exact htransfer _
    | transferContinuation frame => exact htransfer _
    | disposition disposition =>
        simp only [onOutgoingDisposition_without]
        rfl
    | detach detach =>
        simp only [onOutgoingDetach_without]
        rfl
    | attach attach => rfl
    | flow flow => rfl
    | remoteTransfer frame => rfl
    | acquisition txnId => rfl

theorem onOutgoingLinkFrames_runs (s : Session) (frame : LinkFrame) :
    LinkTables.Runs LinkTables.Local s.tables (s.onOutgoingLinkFrames frame).session.tables := by
  refine .of_step ?_ (congrArg Prod.fst (s.onOutgoingLinkFrames_tables frame 0))
  cases frame with
  | detach detach =>
      simp only [tableOp]
      split
      · exact .inr ⟨_, rfl⟩
      · exact .inl rfl
  | _ => exact .inl rfl

theorem drainLinkFrames_without (pending : List LinkFrame) :
    (s.without g).drainLinkFrames pending = (s.drainLinkFrames pending).without g := by
  induction pending generalizing s with
  | nil => rfl
  | cons frame pending ih =>
      have hsession : ((s.onOutgoingLinkFrames frame).without g).session =
          (s.onOutgoingLinkFrames frame).session.without g := rfl
      have hresult : ((s.onOutgoingLinkFrames frame).without g).result =
          (s.onOutgoingLinkFrames frame).result := rfl
      simp only [drainLinkFrames, onOutgoingLinkFrames_without, hresult, hsession, ih]
      split <;> rfl

theorem drainLinkFrames_runs (s : Session) (pending : List LinkFrame) :
    LinkTables.Runs LinkTables.Local s.tables (s.drainLinkFrames pending).session.tables := by
  induction pending generalizing s with
  | nil => exact .of_eq rfl
  | cons frame pending ih =>
      have hfirst := s.onOutgoingLinkFrames_runs frame
      simp only [drainLinkFrames]
      split
      · exact hfirst
      · exact hfirst.trans (ih _)

/-! ## Incoming frames -/

/-- An incoming frame that is for no link of the group. -/
def SparesIncoming (g : LinkGroup) (s : Session) (frame : SessionFrame) : Prop :=
  match frame.body with
  | .attach attach => attach.name ∉ g.names ∧ (⟨attach.handle⟩ : InputHandle) ∉ g.handles
  | .flow flow => ∀ handle, flow.handle = some handle → s.Spares g ⟨handle⟩
  | .transfer performative _ => s.Spares g ⟨performative.handle⟩
  | .disposition disposition =>
      ∀ id ∈ deliveryIds disposition.first (disposition.last.getD disposition.first),
        s.Settles g (disposition.role, id)
  | .detach detach => s.Spares g ⟨detach.handle⟩
  | .begin _ | .end _ => True

theorem dispatchEnd_without (pending : List LinkFrame) (end' : End) :
    (s.without g).dispatchEnd pending end' = (s.dispatchEnd pending end').without g := by
  simp only [dispatchEnd, onIncomingEnd_without]
  cases s.onIncomingEnd end' with
  | mk result s' =>
      simp only [Prod.map, id]
      have hstate : (s'.without g).localState = s'.localState := rfl
      rw [hstate]
      split
      · have hreason : ∀ reason, (s'.without g).setSessionStopReason reason =
            (s'.setSessionStopReason reason).without g := fun _ => rfl
        have hconnection : (s'.without g).connectionStopReason = s'.connectionStopReason := rfl
        simp only [hreason, hconnection]
        generalize s'.setSessionStopReason _ = s''
        rw [drainLinkFrames_without]
        have hresult : ((s''.drainLinkFrames pending).without g).result =
            (s''.drainLinkFrames pending).result := rfl
        have hsession : ((s''.drainLinkFrames pending).without g).session =
            (s''.drainLinkFrames pending).session.without g := rfl
        simp only [hresult, hsession, sendEnd_without]
        split
        · rfl
        · cases (s''.drainLinkFrames pending).session.sendEnd none with
          | mk sent s''' =>
              cases sent with
              | error e => rfl
              | ok frame => cases result <;> rfl
      · cases result <;> rfl

theorem onIncoming_without (hs : s.Apart g) (pending : List LinkFrame) {frame : SessionFrame}
    (h : s.SparesIncoming g frame) :
    (s.without g).onIncoming pending frame = (s.onIncoming pending frame).without g := by
  obtain ⟨channel, body⟩ := frame
  cases body with
  | begin begin' =>
      simp only [onIncoming, onIncomingBegin_without]
      cases s.onIncomingBegin channel begin' with
      | mk result s' => cases result <;> rfl
  | attach attach =>
      simp only [onIncoming, onIncomingAttach_without hs h.1 h.2]
      cases s.onIncomingAttach attach with
      | mk result s' => cases result <;> rfl
  | flow flow =>
      simp only [onIncoming, onIncomingFlow_without h]
      cases s.onIncomingFlow flow with
      | mk result s' => cases result <;> rfl
  | transfer performative payload =>
      simp only [onIncoming, onIncomingTransfer_without h]
      cases s.onIncomingTransfer performative payload with
      | mk result s' =>
          cases result with
          | error e => rfl
          | ok disposition =>
              simp only [Prod.map, id, sendDispositions_without, maybeOutgoingSessionFlow_without]
              rfl
  | disposition disposition =>
      simp only [onIncoming, onIncomingDisposition_without h, Prod.map, id,
        sendDispositions_without]
      rfl
  | detach detach =>
      simp only [onIncoming, onIncomingDetach_without h]
      cases s.onIncomingDetach detach with
      | mk reply s' =>
          cases reply with
          | none => rfl
          | some reply =>
              simp only [Prod.map, id, onOutgoingDetach_without]
              rfl
  | «end» end' => exact dispatchEnd_without pending end'

/-! ## The end of the session -/

theorem controlEnd_without (pending : List LinkFrame) (error : Option Error) :
    (s.without g).controlEnd pending error = (s.controlEnd pending error).without g := by
  have hreason : ∀ reason, (s.without g).setSessionStopReason reason =
      (s.setSessionStopReason reason).without g := fun _ => rfl
  have hstop : (s.without g).stopReasonFromConnection = s.stopReasonFromConnection := rfl
  simp only [controlEnd, hreason, hstop]
  generalize s.setSessionStopReason _ = s'
  rw [drainLinkFrames_without]
  have hresult : ((s'.drainLinkFrames pending).without g).result =
      (s'.drainLinkFrames pending).result := rfl
  have hsession : ((s'.drainLinkFrames pending).without g).session =
      (s'.drainLinkFrames pending).session.without g := rfl
  simp only [hresult, hsession, sendEnd_without]
  split
  · rfl
  · cases (s'.drainLinkFrames pending).session.sendEnd error with
    | mk sent s'' => cases sent <;> rfl

theorem sendEnd_tables (s : Session) (error : Option Error) :
    (s.sendEnd error).2.tables = s.tables := by
  unfold sendEnd
  dsimp only
  split <;> rfl

theorem onIncomingEnd_tables (s : Session) (end' : End) :
    (s.onIncomingEnd end').2.tables = s.tables := by
  unfold onIncomingEnd
  split <;> first | rfl | (dsimp only; split <;> rfl)

theorem controlEnd_runs (s : Session) (pending : List LinkFrame) (error : Option Error) :
    LinkTables.Runs LinkTables.Local s.tables (s.controlEnd pending error).session.tables := by
  unfold controlEnd
  dsimp only
  generalize hs' : s.setSessionStopReason _ = s'
  have hreason : s'.tables = s.tables := by
    rw [← hs']
    rfl
  have hdrained : LinkTables.Runs LinkTables.Local s.tables
      (s'.drainLinkFrames pending).session.tables :=
    hreason ▸ s'.drainLinkFrames_runs pending
  have hsent := hdrained.trans
    (.of_eq ((s'.drainLinkFrames pending).session.sendEnd_tables error))
  split
  · exact hdrained
  · cases hend : (s'.drainLinkFrames pending).session.sendEnd error with
    | mk sent s'' =>
        rw [hend] at hsent
        cases sent <;> exact hsent

theorem endWithoutHandles_runs (s : Session) (pending : List LinkFrame) :
    LinkTables.Runs LinkTables.Local s.tables (s.endWithoutHandles pending).2.tables := by
  induction pending generalizing s with
  | nil =>
      have hsent := (s.setSessionStopReason s.stopReasonFromConnection).sendEnd_tables none
      unfold endWithoutHandles
      cases hend : (s.setSessionStopReason s.stopReasonFromConnection).sendEnd none with
      | mk sent s' =>
          rw [hend] at hsent
          cases sent <;> exact .of_eq hsent
  | cons frame pending ih =>
      have hfirst := (s.setSessionStopReason
        s.stopReasonFromConnection).onOutgoingLinkFrames_runs frame
      exact LinkTables.Runs.trans hfirst (ih _)

theorem endWithoutHandles_without (pending : List LinkFrame) :
    (s.without g).endWithoutHandles pending =
      Prod.map id (without g) (s.endWithoutHandles pending) := by
  have hreason : ∀ s : Session,
      (s.without g).setSessionStopReason (s.without g).stopReasonFromConnection =
        (s.setSessionStopReason s.stopReasonFromConnection).without g := fun _ => rfl
  induction pending generalizing s with
  | nil =>
      simp only [endWithoutHandles, hreason, sendEnd_without]
      cases (s.setSessionStopReason s.stopReasonFromConnection).sendEnd none with
      | mk sent s' => cases sent <;> rfl
  | cons frame pending ih =>
      have hsession : ∀ out : Dispatched, (out.without g).session = out.session.without g :=
        fun _ => rfl
      simp only [endWithoutHandles, hreason, onOutgoingLinkFrames_without, hsession, ih]
      rfl

theorem responded_session (s : Session) (responderDropped : Bool) :
    (s.responded responderDropped).session = s := by
  unfold responded
  split <;> rfl

theorem responded_without (s : Session) (responderDropped : Bool) :
    (s.without g).responded responderDropped = (s.responded responderDropped).without g := by
  unfold responded
  split <;> rfl

end Session

/-! ## The engine -/

/-- A request that is made for no link of the group. -/
def LinkGroup.SparesControl (g : LinkGroup) : SessionControl → Prop
  | .allocateLink linkName linkRelay _ => linkName ∉ g.names ∧ linkRelay.link ∉ g.cells
  | .allocateIncomingLink linkName linkRelay inputHandle _ =>
      linkName ∉ g.names ∧ linkRelay.link ∉ g.cells ∧ inputHandle ∉ g.handles
  | _ => True

namespace SessionEngine

open Session (Dispatched Running)

variable {g : LinkGroup} {e : SessionEngine}

noncomputable def without (g : LinkGroup) (e : SessionEngine) : SessionEngine :=
  e.withSession (e.session.without g)

def Apart (g : LinkGroup) (e : SessionEngine) : Prop := e.session.Apart g

/-- An event that is for no link of the group.  What the endpoints of the group do to their cells is
not seen. -/
def Spares (g : LinkGroup) (e : SessionEngine) : SessionEngineEvent → Prop
  | .incoming (some frame) => e.session.SparesIncoming g frame
  | .control (some control) => g.SparesControl control
  | _ => True

theorem endSession_without (cause : SessionInnerError) (error : Option Error) :
    (e.without g).endSession cause error = Prod.map (without g) id (e.endSession cause error) := by
  have hstate : (e.without g).session.localState = e.session.localState := rfl
  have hsend : (e.without g).session.sendEnd error =
      Prod.map id (Session.without g) (e.session.sendEnd error) := Session.sendEnd_without error
  simp only [endSession, hstate, hsend]
  split
  · rfl
  · cases e.session.sendEnd error with
    | mk result s => cases result <;> rfl
  · cases e.session.sendEnd error with
    | mk result s => cases result <;> rfl
  · cases e.session.sendEnd error with
    | mk result s => cases result <;> rfl
  · rfl
  · cases e.session.sendEnd error with
    | mk result s => cases result <;> rfl
  · rfl

theorem onError_without (error : SessionInnerError) :
    (e.without g).onError error = Prod.map (without g) id (e.onError error) := by
  unfold onError
  split
  · rfl
  · exact endSession_without _ _

theorem settle_without (e : SessionEngine) (out : Dispatched) :
    (e.without g).settle (out.without g) = Prod.map (without g) id (e.settle out) := by
  have hresult : (out.without g).result = out.result := rfl
  have hsession : (e.without g).withSession (out.without g).session =
      (e.withSession out.session).without g := rfl
  simp only [settle, hresult, hsession, onError_without]
  split <;> rfl

theorem onHandlesDropped_without :
    (e.without g).onHandlesDropped = Prod.map (without g) id e.onHandlesDropped := by
  have hstate : (e.without g).session.localState = e.session.localState := rfl
  have hqueue : (e.without g).outgoingLinkFrames = e.outgoingLinkFrames := rfl
  have hend : (e.without g).session.endWithoutHandles e.outgoingLinkFrames =
      Prod.map id (Session.without g) (e.session.endWithoutHandles e.outgoingLinkFrames) :=
    Session.endWithoutHandles_without _
  simp only [onHandlesDropped, hstate, hqueue, hend]
  cases e.session.endWithoutHandles e.outgoingLinkFrames with
  | mk frames s =>
      have hafter : (s.without g).localState = s.localState := rfl
      simp only [Prod.map, id, hafter]
      split
      · split <;> rfl
      · split <;> rfl
      · rfl
      · rfl
      · rfl

theorem onIncoming_without (he : e.Apart g) {frame : SessionFrame}
    (h : e.session.SparesIncoming g frame) :
    (e.without g).onIncoming frame = Prod.map (without g) id (e.onIncoming frame) := by
  have hcloses : closesLinkFrames (e.without g).session frame = closesLinkFrames e.session frame := by
    unfold closesLinkFrames
    split
    · next end' _ =>
        have hend : (e.without g).session.onIncomingEnd end' =
            Prod.map id (Session.without g) (e.session.onIncomingEnd end') :=
          Session.onIncomingEnd_without end'
        rw [hend]
        rfl
    · rfl
  have hout : (e.without g).session.onIncoming (e.without g).outgoingLinkFrames frame =
      (e.session.onIncoming e.outgoingLinkFrames frame).without g :=
    Session.onIncoming_without he _ h
  simp only [onIncoming, hcloses, hout]
  split
  · exact settle_without e.closeLinkFrames _
  · exact settle_without e _

theorem onControl_without {control : SessionControl} (h : g.SparesControl control) :
    (e.without g).onControl control = Prod.map (without g) id (e.onControl control) := by
  have hsession : (e.without g).session = e.session.without g := rfl
  cases control with
  | «end» error =>
      simp only [onControl, hsession]
      rw [Session.controlEnd_without]
      exact settle_without e.closeLinkFrames _
  | allocateLink linkName linkRelay responderDropped =>
      simp only [onControl, hsession, Session.allocateLink_without h.1, Prod.map,
        Session.responded_without]
      exact settle_without e _
  | allocateIncomingLink linkName linkRelay inputHandle responderDropped =>
      simp only [onControl, hsession, Session.allocateIncomingLink_without h.1 h.2.1 h.2.2, Prod.map,
        Session.responded_without]
      exact settle_without e _
  | deallocateLink outputHandle =>
      simp only [onControl, hsession, Session.deallocateLink_without, Prod.map,
        Session.dispatched_without]
      exact settle_without e _
  | disposition disposition =>
      simp only [onControl, hsession, Session.onOutgoingDisposition_without, Prod.map, id,
        Session.dispatched_without]
      exact settle_without e _
  | closeConnectionWithError condition description =>
      exact settle_without
        { e with
          connControl := e.connControl ++
            [.close (some ⟨.connectionError condition, description, none⟩)] }
        (e.session.dispatched [])
  | allocateTransactionId responderDropped =>
      simp only [onControl, hsession, Session.responded_without]
      exact settle_without e _
  | commitTransaction txnId responderDropped =>
      simp only [onControl, hsession, Session.responded_without]
      exact settle_without e _
  | rollbackTransaction txnId responderDropped =>
      simp only [onControl, hsession, Session.responded_without]
      exact settle_without e _
  | abortTransaction txnId => exact settle_without e (e.session.dispatched [])

theorem onWaiting_without (he : e.Apart g) {frame : SessionFrame}
    (h : e.session.SparesIncoming g frame) (discardOtherFrame thenEnd : Bool)
    (cause : SessionInnerError) :
    (e.without g).onWaiting discardOtherFrame thenEnd cause frame =
      Prod.map (without g) id (e.onWaiting discardOtherFrame thenEnd cause frame) := by
  have hout : (e.without g).session.onIncoming (e.without g).outgoingLinkFrames frame =
      (e.session.onIncoming e.outgoingLinkFrames frame).without g :=
    Session.onIncoming_without he _ h
  have hresult : ∀ out : Dispatched, (out.without g).result = out.result := fun _ => rfl
  have hend : ∀ end', (e.without g).session.onIncomingEnd end' =
      Prod.map id (Session.without g) (e.session.onIncomingEnd end') :=
    fun end' => Session.onIncomingEnd_without end'
  simp only [onWaiting, hout, hend, hresult]
  split
  · next end' _ =>
      split
      · cases e.session.onIncomingEnd end' with
        | mk result s => cases result <;> rfl
      · rfl
  · split
    · rfl
    · split <;> rfl

end SessionEngine

/-- The event as the session sees it without the group. -/
noncomputable def SessionEngineEvent.without (g : LinkGroup) :
    SessionEngineEvent → SessionEngineEvent
  | .endpoint links => .endpoint (links.without g.cells)
  | event => event

namespace SessionEngine

open Session (Dispatched Running)

variable {g : LinkGroup} {e : SessionEngine}

/-- A step for another link is the same step without the group. -/
theorem step_without (he : e.Apart g) {event : SessionEngineEvent} (h : e.Spares g event) :
    (e.without g).step (event.without g) = Prod.map (without g) id (e.step event) := by
  have hphase : (e.without g).phase = e.phase := rfl
  have hqueue : (e.without g).outgoingLinkFrames = e.outgoingLinkFrames := rfl
  have hstate : (e.without g).session.localState = e.session.localState := rfl
  cases event with
  | incoming frame =>
      simp only [SessionEngineEvent.without, step, hphase]
      cases frame with
      | none =>
          cases e.phase with
          | eventLoop =>
              simp only [hstate]
              split
              · rfl
              · rfl
              · exact onError_without _
          | waitForRemoteEnd discard thenEnd cause => rfl
          | handlesDropped => rfl
          | stopped outcome => rfl
      | some frame =>
          cases e.phase with
          | eventLoop => exact onIncoming_without he h
          | waitForRemoteEnd discard thenEnd cause => exact onWaiting_without he h _ _ _
          | handlesDropped =>
              have hout : (e.without g).session.onIncoming (e.without g).outgoingLinkFrames frame =
                  (e.session.onIncoming e.outgoingLinkFrames frame).without g :=
                Session.onIncoming_without he _ h
              have hnext : ((e.withSession
                  (e.session.onIncoming e.outgoingLinkFrames frame).session).without
                    g).onHandlesDropped = Prod.map (without g) id
                  (e.withSession
                    (e.session.onIncoming e.outgoingLinkFrames frame).session).onHandlesDropped :=
                onHandlesDropped_without
              simp only [hout]
              have hsession : (e.without g).withSession
                  ((e.session.onIncoming e.outgoingLinkFrames frame).without g).session =
                    (e.withSession
                      (e.session.onIncoming e.outgoingLinkFrames frame).session).without g := rfl
              rw [hsession, hnext]
              rfl
          | stopped outcome => rfl
  | control control =>
      simp only [SessionEngineEvent.without, step, hphase]
      cases control with
      | none =>
          cases e.phase with
          | eventLoop => exact onHandlesDropped_without
          | waitForRemoteEnd discard thenEnd cause => rfl
          | handlesDropped => rfl
          | stopped outcome => rfl
      | some control =>
          cases e.phase with
          | eventLoop => exact onControl_without h
          | waitForRemoteEnd discard thenEnd cause => rfl
          | handlesDropped => rfl
          | stopped outcome => rfl
  | linkFrame =>
      simp only [SessionEngineEvent.without, step, hphase, hqueue]
      cases e.phase with
      | eventLoop =>
          cases hframes : e.outgoingLinkFrames with
          | nil => rfl
          | cons frame pending =>
              have hout : (e.without g).session.onOutgoingLinkFrames frame =
                  (e.session.onOutgoingLinkFrames frame).without g :=
                Session.onOutgoingLinkFrames_without frame
              simp only [hout]
              exact settle_without { e with phase := .eventLoop, outgoingLinkFrames := pending } _
      | waitForRemoteEnd discard thenEnd cause => rfl
      | handlesDropped => rfl
      | stopped outcome => rfl
  | handOver frame =>
      simp only [SessionEngineEvent.without, step, hphase]
      have hclosed : (e.without g).linkFramesClosed = e.linkFramesClosed := rfl
      rw [hclosed, hqueue]
      split
      · rfl
      · split <;> rfl
  | endpoint links => rfl
  | connectionStop reason => rfl

/-! ### The tables along a step -/

/-- The operations on the tables that an event can lead to. -/
def Allows (event : SessionEngineEvent) (op : TableOp) : Prop :=
  LinkTables.Local op ∨
    match event with
    | .incoming (some ⟨_, .attach attach⟩) =>
        ∃ delivered, op = .attach attach.name ⟨attach.handle⟩ delivered
    | .incoming (some ⟨_, .detach detach⟩) => op = .peerDetach ⟨detach.handle⟩
    | .control (some (.allocateLink linkName linkRelay _)) =>
        op = .allocate linkName (some linkRelay.link)
    | .control (some (.allocateIncomingLink linkName linkRelay inputHandle _)) =>
        op = .allocateIncoming linkName linkRelay.link inputHandle
    | .control (some (.deallocateLink outputHandle)) => op = .deallocate outputHandle
    | _ => False

theorem endSession_tables (e : SessionEngine) (cause : SessionInnerError) (error : Option Error) :
    (e.endSession cause error).1.session.tables = e.session.tables := by
  have hsend := e.session.sendEnd_tables error
  unfold endSession
  cases hresult : e.session.sendEnd error with
  | mk result s =>
      rw [hresult] at hsend
      split
      · rfl
      · cases result <;> exact hsend
      · cases result <;> exact hsend
      · cases result <;> exact hsend
      · rfl
      · cases result <;> exact hsend
      · rfl

theorem onError_tables (e : SessionEngine) (error : SessionInnerError) :
    (e.onError error).1.session.tables = e.session.tables := by
  unfold onError
  split
  · rfl
  · exact e.endSession_tables _ _

theorem settle_tables (e : SessionEngine) (out : Dispatched) :
    (e.settle out).1.session.tables = out.session.tables := by
  unfold settle
  dsimp only
  split
  · rfl
  · rfl
  · exact (e.withSession out.session).onError_tables _

theorem onHandlesDropped_runs (e : SessionEngine) :
    LinkTables.Runs LinkTables.Local e.session.tables e.onHandlesDropped.1.session.tables := by
  have hend := e.session.endWithoutHandles_runs e.outgoingLinkFrames
  unfold onHandlesDropped
  dsimp only
  split
  · split <;> exact hend
  · split <;> exact hend
  · exact .of_eq rfl
  · exact .of_eq rfl
  · exact .of_eq rfl

theorem onControl_runs (e : SessionEngine) (control : SessionControl) :
    LinkTables.Runs (Allows (.control (some control))) e.session.tables
      (e.onControl control).1.session.tables := by
  have hresponded : ∀ (s : Session) (responderDropped : Bool),
      (s.responded responderDropped).session.tables = s.tables := by
    intro s responderDropped
    rw [Session.responded_session]
  have hact : ∀ (e' : SessionEngine) (out : Dispatched) (action : SessionAction),
      out.session.tables = (e.session.act action).1.tables →
      Allows (.control (some control)) (e.session.tableOp action) →
      LinkTables.Runs (Allows (.control (some control))) e.session.tables
        (e'.settle out).1.session.tables := by
    intro e' out action hout hop
    refine .of_step hop ?_
    rw [settle_tables, hout]
    exact congrArg Prod.fst (e.session.act_tables action)
  have hskip : ∀ (e' : SessionEngine) (out : Dispatched), out.session.tables = e.session.tables →
      LinkTables.Runs (Allows (.control (some control))) e.session.tables
        (e'.settle out).1.session.tables := by
    intro e' out hout
    exact .of_eq ((e'.settle_tables out).trans hout)
  cases control with
  | «end» error =>
      refine LinkTables.Runs.trans
        ((e.session.controlEnd_runs e.outgoingLinkFrames error).mono fun op hop => .inl hop) ?_
      exact .of_eq (e.closeLinkFrames.settle_tables _)
  | allocateLink linkName linkRelay responderDropped =>
      refine hact e _ (.allocateLink linkName (some linkRelay)) (hresponded _ _) ?_
      simp only [Session.tableOp]
      split
      · exact .inr rfl
      · exact .inl (.inl rfl)
  | allocateIncomingLink linkName linkRelay inputHandle responderDropped =>
      refine hact e _ (.allocateIncomingLink linkName linkRelay inputHandle) (hresponded _ _) ?_
      simp only [Session.tableOp]
      split
      · exact .inr rfl
      · exact .inl (.inl rfl)
  | deallocateLink outputHandle =>
      exact hact e ((e.session.deallocateLink outputHandle).2.dispatched [])
        (.deallocateLink outputHandle) rfl (.inr rfl)
  | disposition disposition =>
      exact hskip e ((e.session.onOutgoingDisposition disposition).2.dispatched
        [(e.session.onOutgoingDisposition disposition).1])
        (e.session.onOutgoingDisposition_tables disposition)
  | closeConnectionWithError condition description =>
      exact hskip _ (e.session.dispatched []) rfl
  | allocateTransactionId responderDropped => exact hskip e _ (hresponded _ _)
  | commitTransaction txnId responderDropped => exact hskip e _ (hresponded _ _)
  | rollbackTransaction txnId responderDropped => exact hskip e _ (hresponded _ _)
  | abortTransaction txnId => exact hskip e (e.session.dispatched []) rfl

theorem onIncoming_runs (e : SessionEngine) (frame : SessionFrame) :
    LinkTables.Runs (Allows (.incoming (some frame))) e.session.tables
      (e.session.onIncoming e.outgoingLinkFrames frame).session.tables := by
  refine .of_step ?_ (congrArg Prod.fst (e.session.onIncoming_tables e.outgoingLinkFrames frame))
  obtain ⟨channel, body⟩ := frame
  cases body with
  | attach attach => exact .inr ⟨_, rfl⟩
  | detach detach => exact .inr rfl
  | _ => exact .inl (.inl rfl)

theorem onWaiting_runs (e : SessionEngine) (frame : SessionFrame) (discardOtherFrame thenEnd : Bool)
    (cause : SessionInnerError) :
    LinkTables.Runs (Allows (.incoming (some frame))) e.session.tables
      (e.onWaiting discardOtherFrame thenEnd cause frame).1.session.tables := by
  have hout := e.onIncoming_runs frame
  unfold onWaiting
  split
  · next end' _ =>
      have hend := e.session.onIncomingEnd_tables end'
      split
      · cases hresult : e.session.onIncomingEnd end' with
        | mk result s =>
            rw [hresult] at hend
            cases result <;> exact .of_eq hend
      · exact .of_eq rfl
  · split
    · exact .of_eq rfl
    · dsimp only
      split <;> exact hout

/-- Every step of the engine is a run of the operations that its event allows. -/
theorem step_runs (e : SessionEngine) (event : SessionEngineEvent) :
    LinkTables.Runs (Allows event) e.session.tables (e.step event).1.session.tables := by
  cases event with
  | incoming frame =>
      unfold step
      dsimp only
      split
      · refine LinkTables.Runs.trans (e.onIncoming_runs _) (.of_eq ?_)
        exact settle_tables _ _
      · split
        · exact .of_eq rfl
        · exact .of_eq rfl
        · exact .of_eq (e.onError_tables _)
      · exact e.onWaiting_runs _ _ _ _
      · exact .of_eq rfl
      · next frame _ =>
          have hdropped := onHandlesDropped_runs
            (e.withSession (e.session.onIncoming e.outgoingLinkFrames frame).session)
          exact LinkTables.Runs.trans (e.onIncoming_runs frame)
            (hdropped.mono fun op hop => .inl hop)
      · exact .of_eq rfl
      · exact .of_eq rfl
  | control control =>
      unfold step
      dsimp only
      split
      · exact e.onControl_runs _
      · exact e.onHandlesDropped_runs.mono fun op hop => .inl hop
      · exact .of_eq rfl
  | linkFrame =>
      unfold step
      dsimp only
      split
      · next frame pending _ _ =>
          refine LinkTables.Runs.trans
            ((e.session.onOutgoingLinkFrames_runs frame).mono fun op hop => .inl hop) (.of_eq ?_)
          exact settle_tables _ _
      · exact .of_eq rfl
  | handOver frame =>
      unfold step
      dsimp only
      split
      · exact .of_eq rfl
      · split <;> exact .of_eq rfl
  | endpoint links => exact .of_eq rfl
  | connectionStop reason => exact .of_eq rfl

end SessionEngine

end Fe2o3Amqp
