import Fe2o3Amqp.Connection.OutgoingOrder
import Fe2o3Amqp.Util.TwoEnds

/-!
# The two ends of a connection

Two connection engines write to each other.  Whatever the interleaving of their events and however
long frames travel, the ends agree on what they negotiated, and the frames of the sessions of one end
reach the other one in their order.
-/

namespace Fe2o3Amqp

open TwoEnds (Duplex DuplexEvent DuplexSide)

/-- The heartbeat that the peer asks for. -/
def Open.heartbeat (open' : Open) : Option Milliseconds :=
  match open'.idleTimeOut with
  | some 0 | none => none
  | some millis => some millis

namespace ConnectionEngine

open Connection (Performs)

variable {e : ConnectionEngine}

/-! ## Open frames and the heartbeat -/

/-- None of the frames is an Open. -/
def NoOpen (frames : List Frame) : Prop := ∀ frame ∈ frames, ∀ open', frame.body ≠ .open open'

theorem noOpen_nil : NoOpen [] := by simp [NoOpen]

theorem NoOpen.append {frames frames' : List Frame} (h : NoOpen frames) (h' : NoOpen frames') :
    NoOpen (frames ++ frames') :=
  List.forall_mem_append.mpr ⟨h, h'⟩

theorem noOpen_toFrame (frame : SessionFrame) : NoOpen [frame.toFrame] := by
  obtain ⟨channel, body⟩ := frame
  cases body <;> simp [NoOpen, SessionFrame.toFrame]

/-- The call writes no Open and leaves the heartbeat as it is. -/
structure Steady (beat beat' : Option Milliseconds) (frames : List Frame) : Prop where
  noOpen : NoOpen frames
  heartbeat : beat' = beat

namespace Steady

variable {beat beat₁ beat₂ : Option Milliseconds} {frames frames' : List Frame}

theorem silent (h : beat₁ = beat) : Steady beat beat₁ [] := ⟨noOpen_nil, h⟩

theorem trans (h : Steady beat beat₁ frames) (h' : Steady beat₁ beat₂ frames') :
    Steady beat beat₂ (frames ++ frames') :=
  ⟨h.noOpen.append h'.noOpen, h'.heartbeat.trans h.heartbeat⟩

end Steady

theorem steady_sendClose (error : Option Error) :
    Steady e.heartbeat (e.sendClose error).engine.heartbeat (e.sendClose error).frames := by
  constructor
  · rcases e.sendClose_frames error with h | h <;> rw [h] <;> simp [NoOpen]
  · simp only [sendClose]
    split
    · rfl
    · split <;> rfl

theorem steady_halt (cause error : Option ConnectionInnerError) :
    Steady e.heartbeat (e.halt cause error).heartbeat [] := by
  cases cause <;> exact .silent rfl

theorem steady_closeConnection (cause : Option ConnectionInnerError) (error : Option Error) :
    Steady e.heartbeat (e.closeConnection cause error).1.heartbeat
      (e.closeConnection cause error).2 := by
  have hclose := steady_sendClose (e := e) error
  simp only [closeConnection]
  split
  all_goals try exact steady_halt _ _
  all_goals try exact .silent rfl
  all_goals
    split
    all_goals
      first
        | exact hclose
        | exact ⟨hclose.noOpen, (steady_halt _ _).heartbeat.trans hclose.heartbeat⟩

theorem steady_onError (error : ConnectionInnerError) :
    Steady e.heartbeat (e.onError error).1.heartbeat (e.onError error).2 := by
  cases error with
  | transportError error => exact .silent rfl
  | _ => exact steady_closeConnection _ _

theorem steady_settle {out : Handled} (h : Steady e.heartbeat out.engine.heartbeat out.frames) :
    Steady e.heartbeat (settle out).1.heartbeat (settle out).2 := by
  simp only [settle]
  split
  · exact h
  · exact h
  · exact h.trans (steady_onError _)
  · exact h

theorem steady_onOutgoingSessionFrames (frame : SessionFrame) :
    Steady e.heartbeat (e.onOutgoingSessionFrames frame).engine.heartbeat
      (e.onOutgoingSessionFrames frame).frames := by
  have hwrite : ∀ e' : ConnectionEngine, e'.heartbeat = e.heartbeat → ∀ out : Handled,
      out = (if e'.refuses frame.toFrame then e'.failed [] (.transportError .io)
        else ⟨[frame.toFrame], .running .continue, e'⟩) →
      Steady e.heartbeat out.engine.heartbeat out.frames := by
    rintro e' hbeat _ rfl
    split
    · exact .silent hbeat
    · exact ⟨noOpen_toFrame frame, hbeat⟩
  unfold onOutgoingSessionFrames
  split
  iterate 2
    cases frame.body with
    | begin begin' =>
        simp only
        cases e.connection.onOutgoingBegin frame.channel begin' with
        | mk result connection =>
            cases result with
            | error error => exact .silent rfl
            | ok _ => exact hwrite (e.withConnection connection) rfl _ rfl
    | _ => exact hwrite e rfl _ rfl
  exact .silent rfl

theorem steady_drainSessionFrames (pending : List SessionFrame) :
    Steady e.heartbeat (e.drainSessionFrames pending).engine.heartbeat
      (e.drainSessionFrames pending).frames := by
  induction pending generalizing e with
  | nil => exact .silent rfl
  | cons frame pending ih =>
      have hfirst := steady_onOutgoingSessionFrames (e := { e with outgoingSessionFrames := pending })
        frame
      simp only [drainSessionFrames]
      split
      · exact hfirst.trans ih
      · exact hfirst

theorem steady_drainAndClose (error : Option Error) :
    Steady e.heartbeat (e.drainAndClose error).engine.heartbeat (e.drainAndClose error).frames := by
  have hdrain := steady_drainSessionFrames (e := { e with sessionFramesClosed := true })
    e.outgoingSessionFrames
  simp only [drainAndClose]
  split
  · exact hdrain.trans (steady_sendClose error)
  · exact hdrain

theorem steady_closeWithoutControls (pending : List SessionFrame) :
    Steady e.heartbeat (e.closeWithoutControls pending).2.heartbeat
      (e.closeWithoutControls pending).1 := by
  induction pending generalizing e with
  | nil =>
      have hclose := steady_sendClose (e := { e with outgoingSessionFrames := [] }) none
      exact hclose
  | cons frame pending ih =>
      have hfirst := steady_onOutgoingSessionFrames (e := { e with outgoingSessionFrames := pending })
        frame
      exact hfirst.trans ih

theorem steady_onControlDropped :
    Steady e.heartbeat e.onControlDropped.1.heartbeat e.onControlDropped.2 := by
  have hclose := steady_closeWithoutControls (e := { e with sessionFramesClosed := true })
    e.outgoingSessionFrames
  simp only [onControlDropped]
  split
  all_goals try exact .silent rfl
  all_goals split <;> exact hclose

theorem steady_onControl (control : ConnectionControl) :
    Steady e.heartbeat (e.onControl control).engine.heartbeat (e.onControl control).frames := by
  cases control with
  | close error =>
      have hclose : ∀ e' : ConnectionEngine, e'.heartbeat = e.heartbeat →
          Steady e.heartbeat (e'.closeControl error).engine.heartbeat
            (e'.closeControl error).frames := by
        intro e' hbeat
        have hdrain := steady_drainAndClose (e := e') error
        unfold closeControl
        split <;> exact ⟨hdrain.noOpen, hdrain.heartbeat.trans hbeat⟩
      cases error with
      | none => exact hclose e rfl
      | some error => exact hclose _ rfl
  | allocateSession tx responderDropped =>
      simp only [onControl]
      split <;> exact .silent rfl
  | deallocateSession channel =>
      simp only [onControl]
      split <;> exact .silent rfl

theorem steady_onHeartbeat : Steady e.heartbeat e.onHeartbeat.engine.heartbeat e.onHeartbeat.frames := by
  simp only [onHeartbeat]
  split
  iterate 3 exact .silent rfl
  · split
    · exact .silent rfl
    · exact ⟨by simp [NoOpen, Frame.empty], rfl⟩

theorem steady_onIncomingClose (close : Close) :
    Steady e.heartbeat (e.onIncomingClose close).engine.heartbeat
      (e.onIncomingClose close).frames := by
  simp only [onIncomingClose]
  generalize e.connection.onIncomingClose close = out
  obtain ⟨result, connection⟩ := out
  have hdrain := steady_drainAndClose (e := e.withConnection connection) none
  simp only
  split
  · split
    · cases result <;> exact hdrain
    · exact hdrain
  · cases result <;> exact .silent rfl

theorem steady_onIncoming_of_isClose {frame : Frame} (hclose : frame.isClose = true)
    (newSession : SessionId) :
    Steady e.heartbeat (e.onIncoming frame newSession).engine.heartbeat
      (e.onIncoming frame newSession).frames := by
  obtain ⟨channel, body⟩ := frame
  cases body with
  | close close =>
      rw [onIncoming_close]
      exact steady_onIncomingClose close
  | _ => cases hclose

theorem noOpen_onIncoming (frame : Frame) (newSession : SessionId) :
    NoOpen (e.onIncoming frame newSession).frames := by
  cases hclose : frame.isClose with
  | true => exact (steady_onIncoming_of_isClose hclose newSession).noOpen
  | false =>
      rw [(e.onIncoming_other hclose newSession).1]
      exact noOpen_nil

/-- A second Open changes nothing. -/
theorem heartbeat_onIncoming (hsettled : e.connection.localState.awaitsOpen = false) (frame : Frame)
    (newSession : SessionId) : (e.onIncoming frame newSession).engine.heartbeat = e.heartbeat := by
  have hforward : ∀ frame : SessionFrame, (e.forwardToSession frame).engine.heartbeat = e.heartbeat := by
    intro frame
    simp only [forwardToSession]
    split
    · split
      · rfl
      · split <;> rfl
    · rfl
  cases hclose : frame.isClose with
  | true => exact (steady_onIncoming_of_isClose hclose newSession).heartbeat
  | false =>
      by_cases hdiscarding : e.connection.localState = .discarding
      · rw [onIncoming_discarding hdiscarding hclose newSession]
      · obtain ⟨channel, body⟩ := frame
        cases body with
        | close => cases hclose
        | «open» open' =>
            have hrefused :
                e.connection.onIncomingOpen open' = (.error .illegalState, e.connection) := by
              simp only [Connection.onIncomingOpen]
              split <;> simp_all [ConnectionState.awaitsOpen]
            simp only [onIncoming, hdiscarding, decide_false, Bool.false_and, Bool.false_eq_true,
              if_false, hrefused]
            rfl
        | begin | «end» =>
            simp only [onIncoming, hdiscarding, decide_false, Bool.false_and, Bool.false_eq_true,
              if_false]
            split <;> rfl
        | empty =>
            simp only [onIncoming, hdiscarding, decide_false, Bool.false_and, Bool.false_eq_true,
              if_false]
            rfl
        | _ =>
            simp only [onIncoming, hdiscarding, decide_false, Bool.false_and, Bool.false_eq_true,
              if_false]
            exact hforward _

/-- The one Open that an engine writes is its own. -/
theorem step_open (event : ConnectionEngineEvent) {frame : Frame} (hmem : frame ∈ (e.step event).2)
    {open' : Open} (hbody : frame.body = .open open') : open' = e.connection.localOpen := by
  have hnone : ∀ frames : List Frame, NoOpen frames → frame ∈ frames →
      open' = e.connection.localOpen := fun frames h hmem => absurd hbody (h frame hmem open')
  have hturn := e.step_turn event
  generalize e.step event = out at hturn hmem
  cases hturn with
  | sendOpen =>
      simp only [sendOpen] at hmem
      split at hmem
      · exact hnone _ (steady_closeConnection none none).noOpen hmem
      · split at hmem
        · rw [List.mem_singleton.mp hmem] at hbody
          exact (FrameBody.open.inj hbody).symm
        · rcases List.mem_cons.mp hmem with rfl | hmem
          · exact (FrameBody.open.inj hbody).symm
          · exact hnone _ (steady_closeConnection none none).noOpen hmem
  | openFailed => exact hnone _ (steady_closeConnection none none).noOpen hmem
  | onOpening =>
      simp only [onOpening, openFailed] at hmem
      split at hmem
      · split at hmem
        · exact hnone _ (steady_closeConnection none none).noOpen hmem
        · cases hmem
      · exact hnone _ (steady_closeConnection none none).noOpen hmem
  | onIncoming frame newSession =>
      refine hnone _ ?_ hmem
      simp only [settle]
      split
      all_goals try exact noOpen_onIncoming _ _
      exact (noOpen_onIncoming _ _).append (steady_onError _).noOpen
  | onError => exact hnone _ (steady_onError _).noOpen hmem
  | onWaiting =>
      simp only [onWaiting] at hmem
      split at hmem
      · split at hmem <;> cases hmem
      · split at hmem
        · cases hmem
        · split at hmem <;> exact hnone _ (noOpen_onIncoming _ _) hmem
  | panicked => exact hnone _ (noOpen_onIncoming _ _) hmem
  | dropped =>
      exact hnone _ ((noOpen_onIncoming _ _).append steady_onControlDropped.noOpen) hmem
  | onControl => exact hnone _ (steady_settle (steady_onControl _)).noOpen hmem
  | onControlDropped => exact hnone _ steady_onControlDropped.noOpen hmem
  | sessionFrame => exact hnone _ (steady_settle (steady_onOutgoingSessionFrames _)).noOpen hmem
  | heartbeat => exact hnone _ (steady_settle steady_onHeartbeat).noOpen hmem
  | transportDropped => exact hnone _ steady_onControlDropped.noOpen hmem
  | _ => cases hmem

/-- While the loop runs the heartbeat is that of the Open with which it was entered. -/
theorem step_heartbeat (hkept : e.ChannelsKept) (event : ConnectionEngineEvent)
    (hphase : e.phase = .eventLoop) (hnext : (e.step event).1.phase = .eventLoop) :
    (e.step event).1.heartbeat = e.heartbeat := by
  have hturn := e.step_turn event
  generalize e.step event = out at hturn hnext ⊢
  have hpast : ∀ e' : ConnectionEngine, e'.PastLoop → e'.phase = .eventLoop →
      e'.heartbeat = e.heartbeat := fun e' hpast hnext => absurd hnext hpast.2.2
  cases hturn with
  | ignored => rfl
  | onIncoming frame newSession =>
      simp only [settle] at hnext ⊢
      split at hnext
      · exact heartbeat_onIncoming (hkept.eventLoop hphase).1 frame newSession
      · exact hpast _ (pastLoop_of_silent rfl) hnext
      · exact hpast _ (pastLoop_of_silent (onError_silent _ _)) hnext
      · exact hpast _ (pastLoop_of_silent rfl) hnext
  | onControl => exact (steady_settle (steady_onControl _)).heartbeat
  | sessionFrame frame pending =>
      exact (steady_settle (steady_onOutgoingSessionFrames
        (e := { e with outgoingSessionFrames := pending }) frame)).heartbeat
  | heartbeat => exact (steady_settle steady_onHeartbeat).heartbeat
  | handOver => rfl
  | sessions => rfl
  | transport => rfl
  | onError => exact (steady_onError _).heartbeat
  | stopped => rfl
  | halted => exact (steady_halt _ _).heartbeat
  | onControlDropped => exact steady_onControlDropped.heartbeat
  | transportDropped => exact steady_onControlDropped.heartbeat
  | sendOpen hphase' => simp [hphase] at hphase'
  | openFailed _ hphase' => simp [hphase] at hphase'
  | onOpening _ _ hphase' => simp [hphase] at hphase'
  | onWaiting _ _ _ _ hphase' => simp [hphase] at hphase'
  | panicked _ _ hphase' => simp [hphase] at hphase'
  | dropped _ _ hphase' => simp [hphase] at hphase'

/-! ## What one end has negotiated -/

/-- The frame that an event brings. -/
def frameOf : ConnectionEngineEvent → Option Frame
  | .incoming (some (.ok frame)) _ => some frame
  | _ => none

/-- The Open of the peer has been received, and with it the channel maximum is agreed. -/
structure Negotiated (received : List Frame) (e : ConnectionEngine) : Prop where
  kept : e.ChannelsKept
  agreed : ∀ open', e.connection.remoteOpen = some open' →
    e.connection.agreedChannelMax = min e.connection.localOpen.channelMax open'.channelMax ∧
      ∃ channel, ⟨channel, .open open'⟩ ∈ received
  heartbeat : e.phase = .eventLoop → ∀ open', e.connection.remoteOpen = some open' →
    e.heartbeat = open'.heartbeat

end ConnectionEngine

namespace Connection

variable {act : ChannelAct} {c c' : Connection}

/-- The Open of the peer stays once it is there, as does the maximum that is agreed. -/
theorem Act.remoteOpen (h : Act act c c') :
    (∃ open', act = .negotiated open' ∧ c.localState.awaitsOpen = true ∧
      c'.remoteOpen = some open' ∧
      c'.agreedChannelMax = min c.localOpen.channelMax open'.channelMax) ∨
    (c'.remoteOpen = c.remoteOpen ∧ c'.agreedChannelMax = c.agreedChannelMax) := by
  cases h with
  | negotiated open' localState hstate => exact .inl ⟨open', rfl, hstate, rfl, rfl⟩
  | other h =>
      rw [h.eq]
      exact .inr ⟨rfl, rfl⟩
  | _ => exact .inr ⟨rfl, rfl⟩

theorem Performs.remoteOpen_of_settled {A : ChannelAct → Prop} (h : Performs A c c')
    (hsettled : c.Settled) : c'.remoteOpen = c.remoteOpen := by
  refine (h.keeps (P := fun c' => c'.Settled ∧ c'.remoteOpen = c.remoteOpen) ?_ ⟨hsettled, rfl⟩).2
  rintro act c₁ c₂ - hact ⟨hsettled₁, heq⟩
  refine ⟨hact.settled hsettled₁, ?_⟩
  rcases hact.remoteOpen with ⟨open', -, hawaits, -⟩ | ⟨hsame, -⟩
  · rw [hsettled₁.1] at hawaits
    cases hawaits
  · exact hsame.trans heq

end Connection

namespace ConnectionEngine

open Connection (Performs)

variable {e : ConnectionEngine} {received : List Frame}

/-- The loop is entered with the heartbeat of the Open that has just arrived. -/
theorem heartbeat_of_opening (hkept : e.ChannelsKept) (event : ConnectionEngineEvent)
    (hphase : e.phase = .opening) (hnext : (e.step event).1.phase = .eventLoop) {open' : Open}
    (hopen : (e.step event).1.connection.remoteOpen = some open') :
    (e.step event).1.heartbeat = open'.heartbeat := by
  have hturn := e.step_turn event
  generalize e.step event = out at hturn hnext hopen ⊢
  have hpast : ∀ e' : ConnectionEngine, e'.PastLoop → e'.phase = .eventLoop →
      e'.heartbeat = open'.heartbeat := fun e' hpast hnext => absurd hnext hpast.2.2
  cases hturn with
  | onOpening frame newSession =>
      obtain ⟨channel, body⟩ := frame
      cases body with
      | «open» remote =>
          simp only [onOpening, Connection.onIncomingOpen, hkept.opening hphase] at hopen ⊢
          cases hopen
          rfl
      | _ => exact hpast _ (pastLoop_of_silent (closeConnection_silent _ _ _)) hnext
  | openFailed => exact hpast _ (pastLoop_of_silent (closeConnection_silent _ _ _)) hnext
  | onError => exact hpast _ (pastLoop_of_silent (onError_silent _ _)) hnext
  | halted => exact hpast _ (pastLoop_of_silent (by simp [ConnectionEnginePhase.silent])) hnext
  | stopped => cases hnext
  | onControlDropped hphase' => simp [hphase] at hphase'
  | transportDropped refuses hphase' => simp [hphase] at hphase'
  | sendOpen hphase' => simp [hphase] at hphase'
  | heartbeat hphase' => simp [hphase] at hphase'
  | onControl control hphase' => simp [hphase] at hphase'
  | onIncoming frame newSession hphase' => simp [hphase] at hphase'
  | onWaiting discardOther cause frame newSession hphase' => simp [hphase] at hphase'
  | panicked frame newSession hphase' => simp [hphase] at hphase'
  | dropped frame newSession hphase' => simp [hphase] at hphase'
  | sessionFrame frame pending hphase' => simp [hphase] at hphase'
  | ignored => simp [hphase] at hnext
  | handOver => simp [hphase] at hnext
  | sessions => simp [withConnection, hphase] at hnext
  | transport => simp [hphase] at hnext

theorem Negotiated.step (h : Negotiated received e) (event : ConnectionEngineEvent) :
    Negotiated (received ++ (frameOf event).toList) (e.step event).1 := by
  have hacts := h.kept.performs_step event
  have hagreed := hacts.keeps (P := fun c => c.localOpen = e.connection.localOpen ∧
    ∀ open', c.remoteOpen = some open' →
      c.agreedChannelMax = min e.connection.localOpen.channelMax open'.channelMax ∧
        ∃ channel, ⟨channel, .open open'⟩ ∈ received ++ (frameOf event).toList) ?_ ⟨rfl, ?_⟩
  · refine ⟨h.kept.step event, ?_, ?_⟩
    · rw [hagreed.1]
      exact hagreed.2
    · intro hnext open' hopen
      rcases step_phase h.kept event with hpast | ⟨hphase, -⟩ | ⟨-, hphase, -⟩ | ⟨hphase, -⟩
      · exact absurd hnext hpast.2.2
      · have hloop := hphase.symm.trans hnext
        rw [step_heartbeat h.kept event hloop hnext]
        rw [hacts.remoteOpen_of_settled (h.kept.eventLoop hloop)] at hopen
        exact h.heartbeat hloop open' hopen
      · simp [hphase] at hnext
      · exact heartbeat_of_opening h.kept event hphase hnext hopen
  · rintro act c c' hcaused hact ⟨hlocal, hc⟩
    refine ⟨hact.localOpen.trans hlocal, fun open' hopen => ?_⟩
    rcases hact.remoteOpen with ⟨received', rfl, -, hreceived, hmax⟩ | ⟨hsame, hmax⟩
    · obtain ⟨channel, newSession, rfl⟩ := hcaused
      rw [hreceived] at hopen
      cases hopen
      exact ⟨hlocal ▸ hmax, channel, List.mem_append_right _ (List.mem_singleton_self _)⟩
    · rw [hmax]
      exact hc open' (hsame ▸ hopen)
  · intro open' hopen
    obtain ⟨hmax, channel, hmem⟩ := h.agreed open' hopen
    exact ⟨hmax, channel, List.mem_append_left _ hmem⟩

theorem Negotiated.run (h : Negotiated received e) (events : List ConnectionEngineEvent) :
    Negotiated (received ++ events.filterMap frameOf) (Run.run ConnectionEngine.step e events).1 := by
  induction events generalizing e received with
  | nil => simpa using h
  | cons event events ih =>
      have hrest := ih (h.step event)
      rw [List.append_assoc] at hrest
      have hevents : (event :: events).filterMap frameOf =
          (frameOf event).toList ++ events.filterMap frameOf := by
        cases hframe : frameOf event <;> simp [hframe]
      rw [hevents]
      exact hrest

theorem run_open (h : e.ChannelsKept) (events : List ConnectionEngineEvent) {frame : Frame}
    (hmem : frame ∈ (Run.run step e events).2) {open' : Open} (hbody : frame.body = .open open') :
    open' = e.connection.localOpen := by
  induction events generalizing e with
  | nil => cases hmem
  | cons event events ih =>
      rcases List.mem_append.mp hmem with hmem | hmem
      · exact step_open event hmem hbody
      · exact (ih (h.step event) hmem).trans (run_localOpen h [event])

end ConnectionEngine

/-! ## Both ends -/

section TwoEnds

open ConnectionEngine (frameOf)

variable (localOpen : DuplexSide → Open) (listener : DuplexSide → Option SessionListener)
  (sessions : DuplexSide → SessionStore) (refuses : DuplexSide → Frame → Bool)

/-- The engines of the two ends once they have exchanged headers. -/
def engineOf (side : DuplexSide) : ConnectionEngine :=
  .start (.new .headerExchange (localOpen side) (listener side) (sessions side)) (refuses side)

/-- The two ends after the events. -/
def ends (events : List (DuplexEvent ConnectionEngineEvent SessionId)) :
    Duplex ConnectionEngine ConnectionEngineEvent Frame :=
  (Duplex.start (engineOf localOpen listener sessions refuses)).run ConnectionEngine.step
    (fun frame newSession => .incoming (some (.ok frame)) newSession) frameOf events

theorem ends_joined (events : List (DuplexEvent ConnectionEngineEvent SessionId)) :
    Duplex.Joined ConnectionEngine.step frameOf (engineOf localOpen listener sessions refuses)
      (ends localOpen listener sessions refuses events) :=
  Duplex.joined_run (fun frame newSession => .incoming (some (.ok frame)) newSession) (fun _ _ => rfl) _
    events

theorem engineOf_kept (side : DuplexSide) :
    (engineOf localOpen listener sessions refuses side).ChannelsKept :=
  ConnectionEngine.channelsKept_start _ _ _ _

theorem ends_negotiated (events : List (DuplexEvent ConnectionEngineEvent SessionId))
    (side : DuplexSide) :
    ConnectionEngine.Negotiated
      (((ends localOpen listener sessions refuses events).history side).filterMap frameOf)
      ((ends localOpen listener sessions refuses events).machine side) := by
  have hstart : ConnectionEngine.Negotiated [] (engineOf localOpen listener sessions refuses side) :=
    ⟨engineOf_kept _ _ _ _ side, fun _ h => (by cases h), fun h => (by cases h)⟩
  rw [(ends_joined localOpen listener sessions refuses events).machine_eq]
  exact hstart.run _

/-- The ends agree: what one of them has received is the Open of the other one, so both compute the
same channel maximum and keep to it, and in its loop each sends heartbeats as the other one asks. -/
theorem ends_agree (events : List (DuplexEvent ConnectionEngineEvent SessionId)) (side : DuplexSide) :
    let e := (ends localOpen listener sessions refuses events).machine side
    (∀ open', e.connection.remoteOpen = some open' →
      open' = localOpen side.other ∧
        e.connection.agreedChannelMax =
          min (localOpen .near).channelMax (localOpen .far).channelMax) ∧
    (e.phase = .eventLoop →
      e.connection.remoteOpen = some (localOpen side.other) ∧
        e.heartbeat = (localOpen side.other).heartbeat) ∧
    ∀ key relay, e.connection.sessionByOutgoingChannel.get key = some relay →
      ∀ side', key ≤ (localOpen side').channelMax.toNat := by
  have hjoined := ends_joined localOpen listener sessions refuses events
  have hnegotiated := ends_negotiated localOpen listener sessions refuses events side
  have hlocal : ((ends localOpen listener sessions refuses events).machine side).connection.localOpen =
      localOpen side := by
    rw [hjoined.machine_eq, ConnectionEngine.run_localOpen (engineOf_kept _ _ _ _ side)]
    rfl
  generalize ends localOpen listener sessions refuses events = duplex at hjoined hnegotiated hlocal ⊢
  have hremote : ∀ open', (duplex.machine side).connection.remoteOpen = some open' →
      open' = localOpen side.other := by
    intro open' hopen
    obtain ⟨-, channel, hmem⟩ := hnegotiated.agreed open' hopen
    exact ConnectionEngine.run_open (engineOf_kept _ _ _ _ side.other) _ (hjoined.mem_written hmem) rfl
  have hmax : ∀ open', (duplex.machine side).connection.remoteOpen = some open' →
      (duplex.machine side).connection.agreedChannelMax =
        min (localOpen .near).channelMax (localOpen .far).channelMax := by
    intro open' hopen
    have hagreed := (hnegotiated.agreed open' hopen).1
    rw [hlocal, hremote open' hopen] at hagreed
    rw [hagreed]
    cases side with
    | near => rfl
    | far => exact Std.Commutative.comm _ _
  have hsettled : ∀ c : Connection, c.Settled → ∃ open', c.remoteOpen = some open' :=
    fun c h => Option.isSome_iff_exists.mp h.2
  refine ⟨fun open' hopen => ⟨hremote open' hopen, hmax open' hopen⟩, fun hphase => ?_,
    fun key relay hkey side' => ?_⟩
  · obtain ⟨open', hopen⟩ := hsettled _ (hnegotiated.kept.eventLoop hphase)
    have heq := hremote open' hopen
    exact ⟨heq ▸ hopen, heq ▸ hnegotiated.heartbeat hphase open' hopen⟩
  · obtain ⟨hsettled', hle⟩ := hnegotiated.kept.withinMax.within key relay hkey
    obtain ⟨open', hopen⟩ := hsettled _ hsettled'
    refine hle.trans (UInt16.le_iff_toNat_le.mp ?_)
    rw [hmax open' hopen]
    cases side' with
    | near => exact Std.min_le_left
    | far => exact Std.min_le_right

/-- What the sessions of one end hand over reaches the other end in the same order and not twice: of
the frames that have arrived, that travel and that are still queued none is out of place, and as long
as the loop runs none is missing. -/
theorem session_frames_cross_in_order (events : List (DuplexEvent ConnectionEngineEvent SessionId))
    (side : DuplexSide) :
    let duplex := ends localOpen listener sessions refuses events
    let handed := (engineOf localOpen listener sessions refuses side).handedOver (duplex.history side)
    let arrived := ((duplex.history side.other).filterMap frameOf).filter Frame.ofSession
    let travelling := (duplex.inFlight side.other).filter Frame.ofSession
    let queued := (duplex.machine side).outgoingSessionFrames.map SessionFrame.toFrame
    (arrived ++ travelling ++ queued).Sublist (handed.map SessionFrame.toFrame) ∧
      ((duplex.machine side).phase = .eventLoop →
        arrived ++ travelling ++ queued = handed.map SessionFrame.toFrame) := by
  have hjoined := ends_joined localOpen listener sessions refuses events
  have hwrites := ConnectionEngine.writes_run (engineOf_kept localOpen listener sessions refuses side)
    ((ends localOpen listener sessions refuses events).history side)
  generalize ends localOpen listener sessions refuses events = duplex at hjoined hwrites ⊢
  have hlink := hjoined.link_eq side.other
  rw [DuplexSide.other_other] at hlink
  rw [← hlink, ← hjoined.machine_eq] at hwrites
  have hsublist := hwrites.sublist
  have hall := hwrites.all
  rw [List.filter_append] at hsublist hall
  exact ⟨hsublist, fun hphase => hall fun hpast => hpast.2.2 hphase⟩

end TwoEnds

end Fe2o3Amqp
