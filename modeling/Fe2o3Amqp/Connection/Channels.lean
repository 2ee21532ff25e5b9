import Fe2o3Amqp.Connection.CloseLast

/-!
# The channels of a connection

A connection gives each of its sessions an outgoing channel and learns from the Begin of the peer
which incoming channel belongs to it.  Whatever the engine does on an event is a sequence of a few
acts on these tables; what holds of the channels in every run is read off the acts.
-/

namespace Fe2o3Amqp

/-- The states in which the Open of the peer is taken. -/
def ConnectionState.awaitsOpen : ConnectionState → Bool
  | .headerExchange | .openSent | .closePipe => true
  | _ => false

/-- The states that an Open of the peer leads to. -/
def ConnectionState.hasOpen : ConnectionState → Bool
  | .opened | .openReceived => true
  | _ => false

/-! ## Acts -/

/-- What a call does to the channels of a connection. -/
inductive ChannelAct where
  | negotiated (open' : Open)
  | allocated (tx : SessionId)
  | deallocated (channel : UInt16)
  | registered (channel : UInt16) (relay : SessionId)
  | unregistered (channel : UInt16)
  | forwarded (relay : SessionId) (frame : SessionFrame)
  /-- Sessions and the application use the queues that they share with the connection. -/
  | shared
  | other

namespace Connection

/-- The Open of the peer is there, and no other is taken. -/
def Settled (c : Connection) : Prop := c.localState.awaitsOpen = false ∧ c.remoteOpen.isSome

/-- The calls differ from nothing only by the state, the stop reason and the incoming sessions. -/
structure SameChannels (c c' : Connection) : Prop where
  eq : c' = { c with
    localState := c'.localState, connectionStopReason := c'.connectionStopReason
    sessionListener := c'.sessionListener }
  awaitsOpen : c.localState.awaitsOpen = false → c'.localState.awaitsOpen = false
  hasOpen : c'.localState.hasOpen = true → c.localState.hasOpen = true

inductive Act : ChannelAct → Connection → Connection → Prop where
  | negotiated {c : Connection} (open' : Open) (localState : ConnectionState)
      (hstate : c.localState.awaitsOpen = true) (hstate' : localState.awaitsOpen = false) :
      Act (.negotiated open') c
        { c with
          localState
          agreedChannelMax := min c.localOpen.channelMax open'.channelMax
          remoteOpen := some open' }
  | allocated {c : Connection} (tx : SessionId) (hsettled : c.Settled)
      (hle : c.sessionByOutgoingChannel.vacantKey ≤ c.agreedChannelMax.toNat) :
      Act (.allocated tx) c
        { c with sessionByOutgoingChannel := c.sessionByOutgoingChannel.insert tx }
  | deallocated {c : Connection} (channel : UInt16) :
      Act (.deallocated channel) c
        { c with
          sessionByOutgoingChannel := (c.sessionByOutgoingChannel.tryRemove channel.toNat).2 }
  | registered {c : Connection} (channel : UInt16) (relay : SessionId) :
      Act (.registered channel relay) c
        { c with
          sessionByIncomingChannel :=
            Function.update c.sessionByIncomingChannel channel (some relay) }
  | unregistered {c : Connection} (channel : UInt16) :
      Act (.unregistered channel) c
        { c with
          sessionByIncomingChannel := Function.update c.sessionByIncomingChannel channel none }
  | forwarded {c : Connection} (relay : SessionId) (frame : SessionFrame) (sessions : SessionStore)
      (hroute : c.sessionByIncomingChannel frame.channel = some relay)
      (hsend : c.sessions.send relay frame = .ok sessions) :
      Act (.forwarded relay frame) c { c with sessions }
  | shared {c : Connection} (sessions : SessionStore) (sessionListener : Option SessionListener) :
      Act .shared c { c with sessions, sessionListener }
  | other {c c' : Connection} (h : c.SameChannels c') : Act .other c c'

/-- A sequence of acts. -/
inductive Acts : List ChannelAct → Connection → Connection → Prop where
  | nil (c : Connection) : Acts [] c c
  | cons {act : ChannelAct} {acts : List ChannelAct} {c c₁ c' : Connection} (head : Act act c c₁)
      (tail : Acts acts c₁ c') : Acts (act :: acts) c c'

/-- Acts of the given kind lead from one state to the other. -/
def Performs (A : ChannelAct → Prop) (c c' : Connection) : Prop :=
  ∃ acts, Acts acts c c' ∧ ∀ act ∈ acts, A act

namespace Performs

variable {A A' : ChannelAct → Prop} {c c₁ c' : Connection}

theorem refl (c : Connection) : Performs A c c := ⟨[], .nil c, by simp⟩

theorem single {act : ChannelAct} (h : Act act c c') (hallowed : A act) :
    Performs A c c' :=
  ⟨[act], .cons h (.nil c'), by simpa using hallowed⟩

theorem cons {act : ChannelAct} (h : Act act c c₁) (hallowed : A act)
    (h' : Performs A c₁ c') : Performs A c c' := by
  obtain ⟨acts, hacts, hall⟩ := h'
  exact ⟨act :: acts, .cons h hacts, List.forall_mem_cons.mpr ⟨hallowed, hall⟩⟩

theorem trans (h : Performs A c c₁) (h' : Performs A c₁ c') : Performs A c c' := by
  obtain ⟨acts, hacts, hall⟩ := h
  induction hacts with
  | nil c => exact h'
  | cons head _ ih =>
      obtain ⟨hfirst, hrest⟩ := List.forall_mem_cons.mp hall
      exact .cons head hfirst (ih h' hrest)

theorem mono (himp : ∀ act, A act → A' act) (h : Performs A c c') :
    Performs A' c c' := by
  obtain ⟨acts, hacts, hall⟩ := h
  exact ⟨acts, hacts, fun act hmem => himp act (hall act hmem)⟩

theorem other (hallowed : A .other) (h : c.SameChannels c') : Performs A c c' :=
  .single (.other h) hallowed

end Performs

/-! ## The calls -/

variable (c : Connection)

theorem sameChannels_setConnectionStopReason (reason : ConnectionStopReason) :
    c.SameChannels (c.setConnectionStopReason reason) :=
  ⟨rfl, id, id⟩

theorem sameChannels_openSent : c.SameChannels c.openSent.2 := by
  simp only [openSent]
  split
  all_goals refine ⟨rfl, ?_, ?_⟩ <;> simp_all [ConnectionState.awaitsOpen, ConnectionState.hasOpen]

theorem sameChannels_closeSent (error : Option Error) : c.SameChannels (c.closeSent error).2 := by
  simp only [closeSent]
  split
  all_goals
    refine ⟨rfl, ?_, ?_⟩ <;> cases error <;>
      simp_all [ConnectionState.awaitsOpen, ConnectionState.hasOpen]

theorem sameChannels_onIncomingClose (close : Close) : c.SameChannels (c.onIncomingClose close).2 := by
  simp only [onIncomingClose]
  split
  all_goals try split
  all_goals refine ⟨rfl, ?_, ?_⟩ <;> simp_all [ConnectionState.awaitsOpen, ConnectionState.hasOpen]

variable {c} {A : ChannelAct → Prop}

theorem performs_onIncomingOpen {open' : Open} (hallowed : A (.negotiated open')) :
    Performs A c (c.onIncomingOpen open').2 := by
  simp only [onIncomingOpen]
  split
  iterate 3
    next hstate =>
      have hawaits : c.localState.awaitsOpen = true := by simp [ConnectionState.awaitsOpen, hstate]
      exact .single (.negotiated open' _ hawaits rfl) hallowed
  exact .refl c

theorem performs_allocateSession (hsettled : c.Settled) {tx : SessionId}
    (hallowed : A (.allocated tx)) : Performs A c (c.allocateSession tx).2 := by
  simp only [allocateSession]
  split
  all_goals try exact .refl c
  split
  · exact .refl c
  · next hle => exact .single (.allocated tx hsettled (Nat.not_lt.mp hle)) hallowed

theorem performs_deallocateSession {channel : UInt16} (hallowed : A (.deallocated channel))
    {c' : Connection} (h : c.deallocateSession channel = some c') : Performs A c c' := by
  have hact : Performs A c _ := .single (.deallocated channel) hallowed
  simp only [deallocateSession] at h
  split at h
  · next heq =>
      cases h
      rwa [heq] at hact
  · cases h

theorem performs_sendToSession {relay : SessionId} {frame : SessionFrame}
    (hroute : c.sessionByIncomingChannel frame.channel = some relay)
    (hallowed : A (.forwarded relay frame)) :
    Performs A c (c.sendToSession relay frame).2 := by
  simp only [sendToSession]
  split
  · next hsend => exact .single (.forwarded relay frame _ hroute hsend) hallowed
  · exact .refl c

/-- The route that a Begin of the peer sets. -/
def SetsRoute (c : Connection) (begin' : Begin) (newSession relay : SessionId) : Prop :=
  match begin'.remoteChannel with
  | some outgoingChannel => c.sessionByOutgoingChannel.get outgoingChannel.toNat = some relay
  | none => relay = newSession

theorem performs_onIncomingBegin (hopened : c.localState = .opened → c.Settled) (channel : UInt16)
    (begin' : Begin) (newSession : SessionId) (hallocated : A (.allocated newSession))
    (hother : A .other)
    (hregistered : ∀ relay, c.SetsRoute begin' newSession relay → A (.registered channel relay))
    (hforwarded : ∀ relay, A (.forwarded relay ⟨channel, .begin begin'⟩)) :
    Performs A c (c.onIncomingBegin channel begin' newSession).2 := by
  simp only [onIncomingBegin, onIncomingBeginInner]
  by_cases hstate : c.localState = .opened
  · rw [if_pos hstate]
    cases hremote : begin'.remoteChannel with
    | some outgoingChannel =>
        dsimp only
        cases hrelay : c.sessionByOutgoingChannel.get outgoingChannel.toNat with
        | none => exact .refl c
        | some relay =>
            dsimp only
            refine .cons (.registered channel relay) (hregistered relay ?_)
              (performs_sendToSession (Function.update_self _ _ _) (hforwarded relay))
            simp only [SetsRoute, hremote, hrelay]
    | none =>
        simp only
        cases hlistener : c.sessionListener with
        | none => exact .refl c
        | some listener =>
            have hallocate := performs_allocateSession (hopened hstate) hallocated
            simp only
            cases hresult : c.allocateSession newSession with
            | mk result c' =>
                rw [hresult] at hallocate
                cases result with
                | error error => exact hallocate
                | ok outgoingChannel =>
                    have hregister : Performs A c _ := hallocate.trans
                      (.single (.registered channel newSession)
                        (hregistered newSession (by simp only [SetsRoute, hremote])))
                    simp only
                    split
                    · exact hregister
                    · exact hregister.trans (.other hother ⟨rfl, id, id⟩)
  · rw [if_neg hstate]
    exact .refl c

theorem performs_onIncomingEnd (channel : UInt16) (end' : End)
    (hunregistered : A (.unregistered channel))
    (hforwarded : ∀ relay, A (.forwarded relay ⟨channel, .end end'⟩)) :
    Performs A c (c.onIncomingEnd channel end').2 := by
  simp only [onIncomingEnd]
  split
  · split
    · exact .refl c
    · next relay hroute =>
        -- the relay is taken out of the table before it is used
        simp only [sendToSession]
        cases hsend : c.sessions.send relay ⟨channel, .end end'⟩ with
        | error error => exact .single (.unregistered channel) hunregistered
        | ok sessions =>
            exact .cons (.forwarded relay ⟨channel, .end end'⟩ sessions hroute hsend)
              (hforwarded relay) (.single (.unregistered channel) hunregistered)
  · exact .refl c

theorem performs_onOutgoingBegin (channel : UInt16) (begin' : Begin)
    (hregistered : ∀ remoteChannel relay, begin'.remoteChannel = some remoteChannel →
      c.sessionByOutgoingChannel.get channel.toNat = some relay →
        A (.registered remoteChannel relay)) :
    Performs A c (c.onOutgoingBegin channel begin').2 ∧
      (c.onOutgoingBegin channel begin').2.sessionByOutgoingChannel = c.sessionByOutgoingChannel := by
  simp only [onOutgoingBegin]
  split
  · next remoteChannel _ hremote =>
      split
      · exact ⟨.refl c, rfl⟩
      · next relay hrelay => exact ⟨.single (.registered _ relay) (hregistered _ relay hremote hrelay), rfl⟩
  · exact ⟨.refl c, rfl⟩

end Connection

/-! ## The engine -/

/-- One of the frames answers the Begin that arrived on the channel, and belongs to the session. -/
def RegistersFor (c : Connection) (frames : List SessionFrame) (channel : UInt16)
    (relay : SessionId) : Prop :=
  ∃ frame ∈ frames, ∃ begin', frame.body = .begin begin' ∧ begin'.remoteChannel = some channel ∧
    c.sessionByOutgoingChannel.get frame.channel.toNat = some relay

theorem RegistersFor.mono {c c' : Connection} {frames frames' : List SessionFrame} {channel : UInt16}
    {relay : SessionId} (h : RegistersFor c frames channel relay)
    (hsame : c'.sessionByOutgoingChannel = c.sessionByOutgoingChannel)
    (hsubset : ∀ frame ∈ frames, frame ∈ frames') : RegistersFor c' frames' channel relay := by
  obtain ⟨frame, hmem, begin', hbody, hremote, hrelay⟩ := h
  exact ⟨frame, hsubset frame hmem, begin', hbody, hremote, hsame ▸ hrelay⟩

namespace ConnectionEngine

open Connection (Performs)

variable {e : ConnectionEngine} {A : ChannelAct → Prop}

section Outgoing

variable (hother : A .other)

include hother

theorem performs_stop (outcome : Except ConnectionInnerError Unit) :
    Performs A e.connection (e.stop outcome).connection :=
  .other hother (e.connection.sameChannels_setConnectionStopReason _)

theorem performs_halt (cause error : Option ConnectionInnerError) :
    Performs A e.connection (e.halt cause error).connection := by
  cases cause with
  | none => exact .refl _
  | some cause => exact performs_stop hother _

theorem performs_sendClose (error : Option Error) :
    Performs A e.connection (e.sendClose error).engine.connection := by
  have hclose := e.connection.sameChannels_closeSent error
  simp only [sendClose]
  split
  · exact .refl _
  · cases hresult : e.connection.closeSent error with
    | mk result connection =>
        rw [hresult] at hclose
        cases result <;> exact .other hother hclose

theorem performs_closeConnection (cause : Option ConnectionInnerError) (error : Option Error) :
    Performs A e.connection (e.closeConnection cause error).1.connection := by
  have hclose := performs_sendClose (e := e) hother error
  simp only [closeConnection]
  split
  all_goals try exact performs_halt hother _ _
  all_goals try exact .refl _
  all_goals split
  all_goals first | exact hclose | exact hclose.trans (performs_halt hother _ _)

theorem performs_onError (error : ConnectionInnerError) :
    Performs A e.connection (e.onError error).1.connection := by
  cases error with
  | transportError error => exact performs_stop hother _
  | _ => exact performs_closeConnection hother _ _

theorem performs_settle {c : Connection} {out : Handled}
    (h : Performs A c out.engine.connection) :
    Performs A c (settle out).1.connection := by
  simp only [settle]
  split
  · exact h
  · exact h.trans (performs_stop hother _)
  · exact h.trans (performs_onError hother _)
  · exact h

omit hother in
theorem performs_onOutgoingSessionFrames (frame : SessionFrame)
    (hregistered : ∀ channel relay, RegistersFor e.connection [frame] channel relay →
      A (.registered channel relay)) :
    Performs A e.connection (e.onOutgoingSessionFrames frame).engine.connection ∧
      (e.onOutgoingSessionFrames frame).engine.connection.sessionByOutgoingChannel =
        e.connection.sessionByOutgoingChannel := by
  have hwrite : ∀ (e' : ConnectionEngine), (if e'.refuses frame.toFrame then
      e'.failed [] (.transportError .io)
      else ⟨[frame.toFrame], .running .continue, e'⟩ : Handled).engine.connection = e'.connection := by
    intro e'
    split <;> rfl
  have hbegin : ∀ begin', frame.body = .begin begin' →
      Performs A e.connection (e.connection.onOutgoingBegin frame.channel begin').2 ∧
        (e.connection.onOutgoingBegin frame.channel begin').2.sessionByOutgoingChannel =
          e.connection.sessionByOutgoingChannel := fun begin' hbody =>
    Connection.performs_onOutgoingBegin frame.channel begin' fun channel relay hremote hrelay =>
      hregistered channel relay ⟨frame, List.mem_singleton_self frame, begin', hbody, hremote, hrelay⟩
  unfold onOutgoingSessionFrames
  split
  iterate 2
    cases hbody : frame.body with
    | begin begin' =>
        have hacts := hbegin begin' hbody
        simp only
        cases hout : e.connection.onOutgoingBegin frame.channel begin' with
        | mk result connection =>
            rw [hout] at hacts
            cases result with
            | error error => exact hacts
            | ok _ =>
                simp only
                rw [hwrite]
                exact hacts
    | _ =>
        simp only
        rw [hwrite]
        exact ⟨.refl _, rfl⟩
  exact ⟨.refl _, rfl⟩

omit hother in
theorem performs_drainSessionFrames (pending : List SessionFrame)
    (hregistered : ∀ channel relay, RegistersFor e.connection pending channel relay →
      A (.registered channel relay)) :
    Performs A e.connection (e.drainSessionFrames pending).engine.connection := by
  induction pending generalizing e with
  | nil => exact .refl _
  | cons frame pending ih =>
      obtain ⟨hfirst, hslab⟩ := performs_onOutgoingSessionFrames
        (e := { e with outgoingSessionFrames := pending }) (A := A) frame
        fun channel relay h => hregistered channel relay
          (h.mono rfl fun _ hmem => List.mem_cons.mpr (.inl (List.mem_singleton.mp hmem)))
      simp only [drainSessionFrames]
      split
      · exact hfirst.trans (ih fun channel relay h => hregistered channel relay
          (h.mono hslab.symm fun _ hmem => List.mem_cons_of_mem _ hmem))
      · exact hfirst

theorem performs_closeWithoutControls (pending : List SessionFrame)
    (hregistered : ∀ channel relay, RegistersFor e.connection pending channel relay →
      A (.registered channel relay)) :
    Performs A e.connection (e.closeWithoutControls pending).2.connection := by
  induction pending generalizing e with
  | nil => exact performs_sendClose (e := { e with outgoingSessionFrames := [] }) hother none
  | cons frame pending ih =>
      obtain ⟨hfirst, hslab⟩ := performs_onOutgoingSessionFrames
        (e := { e with outgoingSessionFrames := pending }) (A := A) frame
        fun channel relay h => hregistered channel relay
          (h.mono rfl fun _ hmem => List.mem_cons.mpr (.inl (List.mem_singleton.mp hmem)))
      simp only [closeWithoutControls]
      exact hfirst.trans (ih fun channel relay h => hregistered channel relay
        (h.mono hslab.symm fun _ hmem => List.mem_cons_of_mem _ hmem))

section Queued

variable (hregistered : ∀ channel relay,
  RegistersFor e.connection e.outgoingSessionFrames channel relay → A (.registered channel relay))

include hregistered

theorem performs_drainAndClose (error : Option Error) :
    Performs A e.connection (e.drainAndClose error).engine.connection := by
  have hdrain := performs_drainSessionFrames (e := { e with sessionFramesClosed := true })
    e.outgoingSessionFrames hregistered
  simp only [drainAndClose]
  split
  · exact hdrain.trans (performs_sendClose hother error)
  · exact hdrain

theorem performs_onControlDropped : Performs A e.connection e.onControlDropped.1.connection := by
  have hclose := performs_closeWithoutControls (e := { e with sessionFramesClosed := true }) hother
    e.outgoingSessionFrames hregistered
  simp only [onControlDropped]
  split
  all_goals try exact .refl _
  all_goals try exact performs_stop hother _
  all_goals
    split
    · exact hclose.trans (performs_stop hother _)
    · exact hclose

theorem performs_onIncomingClose (close : Close) :
    Performs A e.connection (e.onIncomingClose close).engine.connection := by
  have hclose := e.connection.sameChannels_onIncomingClose close
  simp only [onIncomingClose]
  generalize e.connection.onIncomingClose close = out at hclose ⊢
  obtain ⟨result, connection⟩ := out
  simp only at hclose ⊢
  have hdrain := performs_drainAndClose (e := e.withConnection connection) hother
    (fun channel relay h => hregistered channel relay (h.mono
      (congrArg Connection.sessionByOutgoingChannel hclose.eq).symm fun _ hmem => hmem)) none
  have hall := (Performs.other hother hclose).trans hdrain
  split
  · split
    · cases result <;> exact hall
    · exact hall
  · cases result <;> exact .other hother hclose

end Queued

end Outgoing

/-! ## One event -/

/-- What the engine does on an event, one rule for each branch of a turn. -/
inductive Turn (e : ConnectionEngine) :
    ConnectionEngineEvent → ConnectionEngine × List Frame → Prop where
  | ignored (event : ConnectionEngineEvent) : Turn e event (e, [])
  | sendOpen (hphase : e.phase = .headerExchanged) : Turn e .open e.sendOpen
  | openFailed (event : ConnectionEngineEvent) (hphase : e.phase = .opening) :
      Turn e event e.openFailed
  | onOpening (frame : Frame) (newSession : SessionId) (hphase : e.phase = .opening) :
      Turn e (.incoming (some (.ok frame)) newSession) (e.onOpening frame)
  | onIncoming (frame : Frame) (newSession : SessionId) (hphase : e.phase = .eventLoop) :
      Turn e (.incoming (some (.ok frame)) newSession) (settle (e.onIncoming frame newSession))
  | onError (event : ConnectionEngineEvent) (error : ConnectionInnerError)
      (hphase : e.phase = .eventLoop) : Turn e event (e.onError error)
  | stopped (event : ConnectionEngineEvent) (outcome : Except ConnectionInnerError Unit) :
      Turn e event (e.stop outcome, [])
  | onWaiting (discardOther : Bool) (cause : Option ConnectionInnerError) (frame : Frame)
      (newSession : SessionId) (hphase : e.phase = .waitForRemoteClose discardOther cause) :
      Turn e (.incoming (some (.ok frame)) newSession) (e.onWaiting discardOther cause frame newSession)
  | halted (event : ConnectionEngineEvent) (cause error : Option ConnectionInnerError) :
      Turn e event (e.halt cause error, [])
  | panicked (frame : Frame) (newSession : SessionId) (hphase : e.phase = .controlDropped) :
      Turn e (.incoming (some (.ok frame)) newSession)
        ({ (e.onIncoming frame newSession).engine with phase := .panicked },
          (e.onIncoming frame newSession).frames)
  | dropped (frame : Frame) (newSession : SessionId) (hphase : e.phase = .controlDropped)
      (hawaits : e.awaitsFrame = true) :
      Turn e (.incoming (some (.ok frame)) newSession)
        ((e.onIncoming frame newSession).engine.onControlDropped.1,
          (e.onIncoming frame newSession).frames ++
            (e.onIncoming frame newSession).engine.onControlDropped.2)
  | onControl (control : ConnectionControl) (hphase : e.phase = .eventLoop) :
      Turn e (.control (some control)) (settle (e.onControl control))
  | onControlDropped (hphase : e.phase = .eventLoop) : Turn e (.control none) e.onControlDropped
  | sessionFrame (frame : SessionFrame) (pending : List SessionFrame) (hphase : e.phase = .eventLoop)
      (hframes : e.outgoingSessionFrames = frame :: pending) :
      Turn e .sessionFrame
        (settle (onOutgoingSessionFrames { e with outgoingSessionFrames := pending } frame))
  | handOver (frame : SessionFrame) (hopen : e.sessionFramesClosed = false) :
      Turn e (.handOver frame)
        ({ e with outgoingSessionFrames := e.outgoingSessionFrames ++ [frame] }, [])
  | heartbeat (hphase : e.phase = .eventLoop) : Turn e .heartbeat (settle e.onHeartbeat)
  | sessions (sessions : SessionStore) (listener : SessionListener) :
      Turn e (.sessions sessions listener)
        (e.withConnection
          { e.connection with
            sessions, sessionListener := e.connection.sessionListener.map fun _ => listener }, [])
  | transport (refuses : Frame → Bool) : Turn e (.transport refuses) ({ e with refuses }, [])
  | transportDropped (refuses : Frame → Bool) (hphase : e.phase = .controlDropped) :
      Turn e (.transport refuses) (onControlDropped { e with refuses })

theorem step_turn (e : ConnectionEngine) (event : ConnectionEngineEvent) :
    e.Turn event (e.step event) := by
  cases event with
  | «open» =>
      simp only [step]
      split
      · next hphase => exact .sendOpen hphase
      · exact .ignored _
  | incoming item newSession =>
      simp only [step]
      split
      · next hphase => exact .onOpening _ _ hphase
      · next hphase _ => exact .openFailed _ hphase
      · next hphase => exact .onIncoming _ _ hphase
      · next hphase => exact .onError _ _ hphase
      · next hphase =>
          simp only [onIncomingClosed]
          split
          all_goals first | exact .stopped _ _ | exact .onError _ _ hphase
      · next hphase => exact .onWaiting _ _ _ _ hphase
      · exact .halted _ _ _
      · exact .halted _ _ _
      · next hphase =>
          split
          · next hawaits =>
              split
              · exact .panicked _ _ hphase
              · exact .dropped _ _ hphase hawaits
          · exact .ignored _
      · exact .ignored _
      · split
        · exact .stopped _ _
        · exact .ignored _
      · exact .ignored _
  | control control =>
      simp only [step]
      split
      · next hphase => exact .onControl _ hphase
      · next hphase => exact .onControlDropped hphase
      · exact .ignored _
  | sessionFrame =>
      simp only [step]
      split
      · next hphase hframes => exact .sessionFrame _ _ hphase hframes
      · exact .ignored _
  | handOver frame =>
      rw [step_handOver]
      split
      · exact .ignored _
      · next hopen => exact .handOver frame (Bool.not_eq_true _ ▸ hopen)
  | heartbeat =>
      simp only [step]
      split
      · next hphase _ => exact .heartbeat hphase
      · exact .ignored _
  | sessions sessions listener => exact .sessions sessions listener
  | transport refuses =>
      simp only [step]
      split
      · next hphase =>
          split
          · exact .transport refuses
          · exact .transportDropped refuses hphase
      · exact .transport refuses

/-! ## What causes an act -/

/-- The event makes the connection route the channel to the session: the peer begins the session on
it, or the session answers the Begin of the peer. -/
def Binds (e : ConnectionEngine) (event : ConnectionEngineEvent) (channel : UInt16)
    (relay : SessionId) : Prop :=
  (∃ begin' newSession, event = .incoming (some (.ok ⟨channel, .begin begin'⟩)) newSession ∧
      e.connection.SetsRoute begin' newSession relay) ∨
    RegistersFor e.connection e.outgoingSessionFrames channel relay

/-- The event is what makes the engine perform the act. -/
def CausedBy (e : ConnectionEngine) (event : ConnectionEngineEvent) : ChannelAct → Prop
  | .negotiated open' =>
      ∃ channel newSession, event = .incoming (some (.ok ⟨channel, .open open'⟩)) newSession
  | .registered channel relay => e.Binds event channel relay
  | .unregistered channel =>
      ∃ end' newSession, event = .incoming (some (.ok ⟨channel, .end end'⟩)) newSession
  | .forwarded _ frame => ∃ newSession, event = .incoming (some (.ok frame.toFrame)) newSession
  | .deallocated channel => event = .control (some (.deallocateSession channel))
  | .shared => ∃ sessions listener, event = .sessions sessions listener
  | _ => True

theorem causedBy_registered (e : ConnectionEngine) (event : ConnectionEngineEvent) :
    ∀ channel relay, RegistersFor e.connection e.outgoingSessionFrames channel relay →
      e.CausedBy event (.registered channel relay) := fun _ _ h => .inr h

/-- What is left of the queue was in it, and no channel has been given out or back. -/
structure Leaves (e e' : ConnectionEngine) (frames : List SessionFrame) : Prop where
  slab : e'.connection.sessionByOutgoingChannel = e.connection.sessionByOutgoingChannel
  queue : ∀ frame ∈ e'.outgoingSessionFrames, frame ∈ frames

theorem leaves_sendClose (error : Option Error) :
    Leaves e (e.sendClose error).engine e.outgoingSessionFrames := by
  have hclose := congrArg Connection.sessionByOutgoingChannel
    (e.connection.sameChannels_closeSent error).eq
  simp only [sendClose]
  split
  · exact ⟨rfl, fun _ h => h⟩
  · cases hresult : e.connection.closeSent error with
    | mk result connection =>
        rw [hresult] at hclose
        cases result <;> exact ⟨hclose, fun _ h => h⟩

theorem outgoingSessionFrames_onOutgoingSessionFrames (e : ConnectionEngine) (frame : SessionFrame) :
    (e.onOutgoingSessionFrames frame).engine.outgoingSessionFrames = e.outgoingSessionFrames := by
  have hwrite : ∀ (e' : ConnectionEngine), (if e'.refuses frame.toFrame then
      e'.failed [] (.transportError .io)
      else ⟨[frame.toFrame], .running .continue, e'⟩ : Handled).engine = e' := by
    intro e'
    split <;> rfl
  unfold onOutgoingSessionFrames
  split
  iterate 2
    cases frame.body with
    | begin begin' =>
        simp only
        cases e.connection.onOutgoingBegin frame.channel begin' with
        | mk result connection =>
            cases result with
            | error error => rfl
            | ok _ =>
                simp only
                rw [hwrite]
                rfl
    | _ =>
        simp only
        rw [hwrite]
  rfl

theorem leaves_drainSessionFrames (pending : List SessionFrame) :
    Leaves e (e.drainSessionFrames pending).engine pending := by
  induction pending generalizing e with
  | nil => exact ⟨rfl, fun _ h => h⟩
  | cons frame pending ih =>
      have hslab := (performs_onOutgoingSessionFrames
        (e := { e with outgoingSessionFrames := pending }) (A := fun _ => True) frame
        fun _ _ _ => trivial).2
      have hqueue := outgoingSessionFrames_onOutgoingSessionFrames
        { e with outgoingSessionFrames := pending } frame
      have hsubset : ∀ frame' ∈ (onOutgoingSessionFrames { e with outgoingSessionFrames := pending }
          frame).engine.outgoingSessionFrames, frame' ∈ pending := by
        rw [hqueue]
        exact fun _ h => h
      simp only [drainSessionFrames]
      split
      · exact ⟨ih.slab.trans hslab, fun frame' hmem => List.mem_cons_of_mem _ (ih.queue frame' hmem)⟩
      · exact ⟨hslab, fun frame' hmem => List.mem_cons_of_mem _ (hsubset frame' hmem)⟩

theorem leaves_drainAndClose (error : Option Error) :
    Leaves e (e.drainAndClose error).engine e.outgoingSessionFrames := by
  have hdrain := leaves_drainSessionFrames (e := { e with sessionFramesClosed := true })
    e.outgoingSessionFrames
  have hclose := leaves_sendClose (e := (drainSessionFrames { e with sessionFramesClosed := true }
    e.outgoingSessionFrames).engine) error
  simp only [drainAndClose]
  split
  · exact ⟨hclose.slab.trans hdrain.slab, fun frame hmem => hdrain.queue frame (hclose.queue frame hmem)⟩
  · exact ⟨hdrain.slab, hdrain.queue⟩

theorem leaves_onIncomingClose (close : Close) :
    Leaves e (e.onIncomingClose close).engine e.outgoingSessionFrames := by
  have hclose := congrArg Connection.sessionByOutgoingChannel
    (e.connection.sameChannels_onIncomingClose close).eq
  simp only [onIncomingClose]
  generalize e.connection.onIncomingClose close = out at hclose ⊢
  obtain ⟨result, connection⟩ := out
  have hdrain := leaves_drainAndClose (e := e.withConnection connection) none
  have hall : Leaves e ((e.withConnection connection).drainAndClose none).engine
      e.outgoingSessionFrames := ⟨hdrain.slab.trans hclose, hdrain.queue⟩
  simp only
  split
  · split
    · cases result <;> exact hall
    · exact hall
  · cases result <;> exact ⟨hclose, fun _ h => h⟩

theorem onIncoming_discarding (h : e.connection.localState = .discarding) {frame : Frame}
    (hclose : frame.isClose = false) (newSession : SessionId) :
    e.onIncoming frame newSession = ⟨[], .running .continue, e⟩ := by
  obtain ⟨channel, body⟩ := frame
  cases body <;> simp_all [onIncoming, Frame.isClose]

/-- A connection that is not open takes a Begin, an End or another frame of a session for nothing. -/
theorem leaves_onIncoming (h : e.connection.localState ≠ .opened) (frame : Frame)
    (newSession : SessionId) :
    Leaves e (e.onIncoming frame newSession).engine e.outgoingSessionFrames := by
  have hsame : Leaves e e e.outgoingSessionFrames := ⟨rfl, fun _ h => h⟩
  have hforward : ∀ frame : SessionFrame, (e.forwardToSession frame).engine = e := by
    intro frame
    simp only [forwardToSession, if_neg h]
    rfl
  obtain ⟨channel, body⟩ := frame
  by_cases hdiscarding : e.connection.localState = .discarding
  · cases body with
    | close close => exact onIncoming_close e channel close newSession ▸ leaves_onIncomingClose close
    | _ =>
        rw [onIncoming_discarding hdiscarding rfl newSession]
        exact hsame
  · cases body with
    | close close => exact onIncoming_close e channel close newSession ▸ leaves_onIncomingClose close
    | «open» open' =>
        have hopen : (e.connection.onIncomingOpen open').2.sessionByOutgoingChannel =
            e.connection.sessionByOutgoingChannel := by
          simp only [Connection.onIncomingOpen]
          split <;> rfl
        simp only [onIncoming, hdiscarding, decide_false, Bool.false_and, Bool.false_eq_true, if_false]
        generalize open'.idleTimeOut = idleTimeOut
        generalize e.connection.onIncomingOpen open' = out at hopen ⊢
        obtain ⟨result, connection⟩ := out
        split
        · next heq =>
            cases heq
            exact ⟨hopen, fun _ h => h⟩
        · next heq =>
            cases heq
            exact ⟨hopen, fun _ h => h⟩
        · next heq _ =>
            cases heq
            exact ⟨hopen, fun _ h => h⟩
    | begin begin' =>
        simp only [onIncoming, hdiscarding, decide_false, Bool.false_and, Bool.false_eq_true, if_false,
          Connection.onIncomingBegin, Connection.onIncomingBeginInner, if_neg h]
        exact hsame
    | «end» end' =>
        simp only [onIncoming, hdiscarding, decide_false, Bool.false_and, Bool.false_eq_true, if_false,
          Connection.onIncomingEnd, if_neg h]
        exact hsame
    | empty =>
        simp only [onIncoming, hdiscarding, decide_false, Bool.false_and, Bool.false_eq_true, if_false]
        exact hsame
    | _ =>
        simp only [onIncoming, hdiscarding, decide_false, Bool.false_and, Bool.false_eq_true, if_false,
          hforward]
        exact hsame

/-! ## The acts of an event -/

theorem performs_forwardToSession (frame : SessionFrame)
    (hallowed : ∀ relay, A (.forwarded relay frame)) :
    Performs A e.connection (e.forwardToSession frame).engine.connection := by
  simp only [forwardToSession]
  split
  · split
    · exact .refl _
    · next relay hroute =>
        have hsend := Connection.performs_sendToSession hroute (hallowed relay)
        cases hout : e.connection.sendToSession relay frame with
        | mk result connection =>
            rw [hout] at hsend
            cases result <;> exact hsend
  · exact .refl _

theorem performs_onIncoming (hopened : e.connection.localState = .opened → e.connection.Settled)
    (frame : Frame) (newSession : SessionId) :
    Performs (e.CausedBy (.incoming (some (.ok frame)) newSession)) e.connection
      (e.onIncoming frame newSession).engine.connection := by
  have hqueued := e.causedBy_registered (.incoming (some (.ok frame)) newSession)
  obtain ⟨channel, body⟩ := frame
  by_cases hdiscarding : e.connection.localState = .discarding
  · cases body with
    | close close =>
        rw [onIncoming_close]
        exact performs_onIncomingClose trivial hqueued close
    | _ =>
        rw [onIncoming_discarding hdiscarding rfl newSession]
        exact .refl _
  · cases body with
    | close close =>
        rw [onIncoming_close]
        exact performs_onIncomingClose trivial hqueued close
    | «open» open' =>
        have hopen : Performs (e.CausedBy (.incoming (some (.ok ⟨channel, .open open'⟩)) newSession))
            e.connection (e.connection.onIncomingOpen open').2 :=
          Connection.performs_onIncomingOpen ⟨channel, newSession, rfl⟩
        simp only [onIncoming, hdiscarding, decide_false, Bool.false_and, Bool.false_eq_true, if_false]
        generalize open'.idleTimeOut = idleTimeOut
        generalize e.connection.onIncomingOpen open' = out at hopen ⊢
        obtain ⟨result, connection⟩ := out
        split
        · next heq =>
            cases heq
            exact hopen
        · next heq =>
            cases heq
            exact hopen
        · next heq _ =>
            cases heq
            exact hopen
    | begin begin' =>
        have hbegin := Connection.performs_onIncomingBegin
          (A := e.CausedBy (.incoming (some (.ok ⟨channel, .begin begin'⟩)) newSession)) hopened
          channel begin' newSession trivial trivial
          (fun relay hroute => .inl ⟨begin', newSession, rfl, hroute⟩) (fun relay => ⟨newSession, rfl⟩)
        simp only [onIncoming, hdiscarding, decide_false, Bool.false_and, Bool.false_eq_true, if_false]
        cases hout : e.connection.onIncomingBegin channel begin' newSession with
        | mk result connection =>
            rw [hout] at hbegin
            cases result <;> exact hbegin
    | «end» end' =>
        have hend := Connection.performs_onIncomingEnd (c := e.connection)
          (A := e.CausedBy (.incoming (some (.ok ⟨channel, .end end'⟩)) newSession)) channel end'
          ⟨end', newSession, rfl⟩ (fun relay => ⟨newSession, rfl⟩)
        simp only [onIncoming, hdiscarding, decide_false, Bool.false_and, Bool.false_eq_true, if_false]
        cases hout : e.connection.onIncomingEnd channel end' with
        | mk result connection =>
            rw [hout] at hend
            cases result <;> exact hend
    | empty =>
        simp only [onIncoming, hdiscarding, decide_false, Bool.false_and, Bool.false_eq_true, if_false]
        exact .refl _
    | attach | flow | transfer | disposition | detach =>
        simp only [onIncoming, hdiscarding, decide_false, Bool.false_and, Bool.false_eq_true, if_false]
        exact performs_forwardToSession _ fun relay => ⟨newSession, rfl⟩

theorem performs_onControl (hsettled : e.connection.Settled) (control : ConnectionControl) :
    Performs (e.CausedBy (.control (some control))) e.connection
      (e.onControl control).engine.connection := by
  cases control with
  | close error =>
      have hclose : ∀ e' : ConnectionEngine, Leaves e e' e.outgoingSessionFrames →
          e'.outgoingSessionFrames = e.outgoingSessionFrames →
          Performs (e.CausedBy (.control (some (.close error)))) e'.connection
            (e'.closeControl error).engine.connection := by
        intro e' hleaves hqueue
        have hdrain := performs_drainAndClose (e := e')
          (A := e.CausedBy (.control (some (.close error)))) trivial
          (fun channel relay h => .inr (h.mono hleaves.slab.symm (hqueue ▸ fun _ h => h))) error
        unfold closeControl
        split
        · exact hdrain
        · exact hdrain
      cases error with
      | none => exact hclose e ⟨rfl, fun _ h => h⟩ rfl
      | some error =>
          have hreason := e.connection.sameChannels_setConnectionStopReason (.closedWithError error)
          exact (Performs.other trivial hreason).trans
            (hclose (e.withConnection (e.connection.setConnectionStopReason (.closedWithError error)))
              ⟨rfl, fun _ h => h⟩ rfl)
  | allocateSession tx responderDropped =>
      have hallocate : Performs (e.CausedBy (.control (some (.allocateSession tx responderDropped))))
          e.connection (e.connection.allocateSession tx).2 :=
        Connection.performs_allocateSession hsettled trivial
      simp only [onControl]
      split <;> exact hallocate
  | deallocateSession channel =>
      simp only [onControl]
      split
      · exact .refl _
      · next connection hconnection =>
          have hcaused : e.CausedBy (.control (some (.deallocateSession channel)))
              (.deallocated channel) := rfl
          exact Connection.performs_deallocateSession hcaused hconnection

theorem performs_onOpening (frame : Frame) (newSession : SessionId) :
    Performs (e.CausedBy (.incoming (some (.ok frame)) newSession)) e.connection
      (e.onOpening frame).1.connection := by
  obtain ⟨channel, body⟩ := frame
  cases body with
  | «open» open' =>
      have hcaused : e.CausedBy (.incoming (some (.ok ⟨channel, .open open'⟩)) newSession)
          (.negotiated open') := ⟨channel, newSession, rfl⟩
      have hopen := Connection.performs_onIncomingOpen (c := e.connection) hcaused
      simp only [onOpening]
      split
      · next connection heq =>
          rw [heq] at hopen
          exact hopen.trans (performs_closeConnection (e := e.withConnection connection) trivial none none)
      · next heq =>
          rw [heq] at hopen
          exact hopen
  | _ => exact performs_closeConnection trivial none none

theorem performs_onWaiting (hopened : e.connection.localState = .opened → e.connection.Settled)
    (discardOther : Bool) (cause : Option ConnectionInnerError) (frame : Frame)
    (newSession : SessionId) :
    Performs (e.CausedBy (.incoming (some (.ok frame)) newSession)) e.connection
      (e.onWaiting discardOther cause frame newSession).1.connection := by
  have hincoming := performs_onIncoming hopened frame newSession
  simp only [onWaiting]
  split
  · next close _ =>
      have hclose := e.connection.sameChannels_onIncomingClose close
      split
      all_goals
        next connection heq =>
          rw [heq] at hclose
          exact (Performs.other trivial hclose).trans
            (performs_halt (e := e.withConnection connection) trivial _ _)
  · split
    · exact .refl _
    · split
      · exact hincoming
      · exact hincoming.trans (performs_halt trivial _ _)
      · exact hincoming

/-- What an event does to the channels is a sequence of acts that it causes. -/
theorem performs_step (hopened : e.connection.localState = .opened → e.connection.Settled)
    (hsettled : e.phase = .eventLoop → e.connection.Settled) (event : ConnectionEngineEvent) :
    Performs (e.CausedBy event) e.connection (e.step event).1.connection := by
  have hturn := e.step_turn event
  generalize e.step event = out at hturn ⊢
  cases hturn with
  | ignored => exact .refl _
  | sendOpen =>
      have hopen := e.connection.sameChannels_openSent
      simp only [sendOpen]
      split
      · exact performs_closeConnection trivial none none
      · split
        · next heq =>
            rw [heq] at hopen
            exact .other trivial hopen
        · next connection heq =>
            rw [heq] at hopen
            exact (Performs.other trivial hopen).trans
              (performs_closeConnection (e := e.withConnection connection) trivial none none)
  | openFailed => exact performs_closeConnection trivial none none
  | onOpening frame newSession => exact performs_onOpening frame newSession
  | onIncoming frame newSession => exact performs_settle trivial (performs_onIncoming hopened _ _)
  | onError => exact performs_onError trivial _
  | stopped => exact performs_stop trivial _
  | onWaiting discardOther cause frame newSession => exact performs_onWaiting hopened _ _ _ _
  | halted => exact performs_halt trivial _ _
  | panicked frame newSession => exact performs_onIncoming hopened frame newSession
  | dropped frame newSession hphase hawaits =>
      have hnot : e.connection.localState ≠ .opened := by
        intro hstate
        simp [awaitsFrame, hstate] at hawaits
      have hleaves := leaves_onIncoming hnot frame newSession
      exact (performs_onIncoming hopened frame newSession).trans <|
        performs_onControlDropped trivial fun channel relay h =>
          .inr (h.mono hleaves.slab.symm hleaves.queue)
  | onControl control hphase =>
      exact performs_settle trivial (performs_onControl (hsettled hphase) control)
  | onControlDropped => exact performs_onControlDropped trivial (e.causedBy_registered _)
  | sessionFrame frame pending hphase hframes =>
      refine performs_settle trivial (performs_onOutgoingSessionFrames
        (e := { e with outgoingSessionFrames := pending }) frame fun channel relay h => .inr ?_).1
      refine h.mono rfl fun frame' hmem => ?_
      rw [hframes, List.mem_singleton.mp hmem]
      exact List.mem_cons_self
  | handOver => exact .refl _
  | heartbeat =>
      refine performs_settle trivial ?_
      simp only [onHeartbeat]
      split
      all_goals try split
      all_goals exact .refl _
  | sessions sessions listener => exact .single (.shared sessions _) ⟨sessions, listener, rfl⟩
  | transport => exact .refl _
  | transportDropped refuses =>
      exact performs_onControlDropped (e := { e with refuses }) trivial (e.causedBy_registered _)

end ConnectionEngine

/-! ## Outgoing channels -/

namespace Connection

/-- Every channel that is given out is at most the maximum of either side. -/
structure WithinMax (c : Connection) : Prop where
  wellFormed : c.sessionByOutgoingChannel.WellFormed
  localMax : c.agreedChannelMax ≤ c.localOpen.channelMax
  remoteMax : ∀ open', c.remoteOpen = some open' → c.agreedChannelMax ≤ open'.channelMax
  hasOpen : c.localState.hasOpen = true → c.remoteOpen.isSome
  within : ∀ key relay, c.sessionByOutgoingChannel.get key = some relay →
    c.Settled ∧ key ≤ c.agreedChannelMax.toNat

variable {act : ChannelAct} {c c' : Connection}

theorem Act.localOpen (h : Act act c c') : c'.localOpen = c.localOpen := by
  cases h with
  | other h => rw [h.eq]
  | _ => rfl

theorem Act.settled (h : Act act c c') (hsettled : c.Settled) : c'.Settled := by
  cases h with
  | negotiated open' localState hstate hstate' => exact ⟨hstate', rfl⟩
  | other h =>
      refine ⟨h.awaitsOpen hsettled.1, ?_⟩
      rw [h.eq]
      exact hsettled.2
  | _ => exact hsettled

theorem Act.withinMax (h : Act act c c') (hwithin : c.WithinMax) : c'.WithinMax := by
  cases h with
  | negotiated open' localState hstate hstate' =>
      refine ⟨hwithin.wellFormed, Std.min_le_left, ?_, fun _ => rfl, ?_⟩
      · rintro _ ⟨⟩
        exact Std.min_le_right
      · -- no channel is given out before the Open of the peer
        intro key relay hkey
        have hsettled := (hwithin.within key relay hkey).1.1
        rw [hstate] at hsettled
        cases hsettled
  | allocated tx hsettled hle =>
      refine ⟨Slab.insert_wellFormed hwithin.wellFormed tx, hwithin.localMax, hwithin.remoteMax,
        hwithin.hasOpen, ?_⟩
      intro key relay hkey
      rw [Slab.get_insert hwithin.wellFormed] at hkey
      split at hkey
      · next hvacant => exact ⟨hsettled, hvacant ▸ hle⟩
      · exact hwithin.within key relay hkey
  | deallocated channel =>
      refine ⟨Slab.tryRemove_wellFormed hwithin.wellFormed _, hwithin.localMax, hwithin.remoteMax,
        hwithin.hasOpen, ?_⟩
      intro key relay hkey
      rw [Slab.get_tryRemove] at hkey
      split at hkey
      · cases hkey
      · exact hwithin.within key relay hkey
  | registered => exact ⟨hwithin.1, hwithin.2, hwithin.3, hwithin.4, hwithin.5⟩
  | unregistered => exact ⟨hwithin.1, hwithin.2, hwithin.3, hwithin.4, hwithin.5⟩
  | forwarded => exact ⟨hwithin.1, hwithin.2, hwithin.3, hwithin.4, hwithin.5⟩
  | shared => exact ⟨hwithin.1, hwithin.2, hwithin.3, hwithin.4, hwithin.5⟩
  | other h =>
      have hsettled : c.Settled → c'.Settled := (Act.other h).settled
      obtain ⟨heq, -, hhasOpen⟩ := h
      rw [heq] at hhasOpen hsettled ⊢
      exact ⟨hwithin.wellFormed, hwithin.localMax, hwithin.remoteMax,
        fun h => hwithin.hasOpen (hhasOpen h),
        fun key relay hkey => ⟨hsettled (hwithin.within key relay hkey).1, (hwithin.within key relay hkey).2⟩⟩

/-- What every act of the kind keeps is kept. -/
theorem Performs.keeps {P : Connection → Prop} {A : ChannelAct → Prop}
    (hact : ∀ act c c', A act → Act act c c' → P c → P c') (h : Performs A c c')
    (hc : P c) : P c' := by
  obtain ⟨acts, hacts, hall⟩ := h
  induction hacts with
  | nil => exact hc
  | cons head _ ih =>
      obtain ⟨hfirst, hrest⟩ := List.forall_mem_cons.mp hall
      exact ih (hact _ _ _ hfirst head hc) hrest

/-- A channel stays with its session unless it is given back. -/
theorem Act.get_outgoing (h : Act act c c') (hwithin : c.WithinMax) {key : Nat} {relay : SessionId}
    (hkept : ∀ channel, act = .deallocated channel → channel.toNat ≠ key)
    (hkey : c.sessionByOutgoingChannel.get key = some relay) :
    c'.sessionByOutgoingChannel.get key = some relay := by
  cases h with
  | allocated tx hsettled hle =>
      rw [Slab.get_insert hwithin.wellFormed, if_neg]
      · exact hkey
      · rintro rfl
        rw [Slab.get_vacantKey hwithin.wellFormed] at hkey
        cases hkey
  | deallocated channel => rwa [Slab.get_tryRemove, if_neg (hkept channel rfl).symm]
  | other h =>
      rw [h.eq]
      exact hkey
  | _ => exact hkey

theorem new_withinMax (localOpen : Open) (listener : Option SessionListener) (sessions : SessionStore) :
    (Connection.new .headerExchange localOpen listener sessions).WithinMax where
  wellFormed := Slab.empty_wellFormed
  localMax := UInt16.le_refl _
  remoteMax _ h := by cases h
  hasOpen h := by cases h
  within := by simp [Connection.new]

end Connection

namespace ConnectionEngine

open Connection (Performs)

variable {e : ConnectionEngine}

/-! ## Phases -/

theorem settle_phase (out : Handled) :
    (settle out).1.phase = out.engine.phase ∨ (settle out).1.phase.silent = true := by
  simp only [settle]
  split
  · exact .inl rfl
  · exact .inr rfl
  · exact .inr (onError_silent _ _)
  · exact .inr rfl

theorem sendClose_phase (error : Option Error) : (e.sendClose error).engine.phase = e.phase := by
  simp only [sendClose]
  split
  · rfl
  · split <;> rfl

theorem drainAndClose_phase (error : Option Error) :
    (e.drainAndClose error).engine.phase = e.phase := by
  have hdrain := (drainSessionFrames_spec { e with sessionFramesClosed := true }
    e.outgoingSessionFrames).2.1
  simp only [drainAndClose]
  split
  · rw [sendClose_phase, hdrain]
  · rw [hdrain]

theorem onIncoming_phase (frame : Frame) (newSession : SessionId) :
    (e.onIncoming frame newSession).engine.phase = e.phase := by
  cases hclose : frame.isClose with
  | false => exact (e.onIncoming_other hclose newSession).2.1
  | true =>
      obtain ⟨channel, body⟩ := frame
      cases body with
      | close close =>
          rw [onIncoming_close]
          simp only [onIncomingClose]
          generalize e.connection.onIncomingClose close = out
          obtain ⟨result, connection⟩ := out
          have hdrain := drainAndClose_phase (e := e.withConnection connection) none
          simp only
          split
          · split
            · cases result <;> exact hdrain
            · exact hdrain
          · cases result <;> rfl
      | _ => cases hclose

theorem onControl_phase (control : ConnectionControl) :
    (e.onControl control).engine.phase = e.phase := by
  cases control with
  | close error =>
      have hclose : ∀ e' : ConnectionEngine, (e'.closeControl error).engine.phase = e'.phase := by
        intro e'
        unfold closeControl
        split <;> exact drainAndClose_phase error
      cases error with
      | none => exact hclose e
      | some error => exact hclose _
  | allocateSession tx responderDropped => exact (e.onControl_other (by simp)).2.1
  | deallocateSession channel => exact (e.onControl_other (by simp)).2.1

theorem onControlDropped_phase (e : ConnectionEngine) :
    e.onControlDropped.1.phase = .controlDropped ∨ e.onControlDropped.1.phase.silent = true := by
  simp only [onControlDropped]
  split
  all_goals try exact .inl rfl
  all_goals try exact .inr rfl
  all_goals
    split
    · exact .inr rfl
    · exact .inl rfl

/-- What holds of the connection in the phases of the engine. -/
structure ChannelsKept (e : ConnectionEngine) : Prop where
  withinMax : e.connection.WithinMax
  headerExchanged : e.phase = .headerExchanged → e.connection.localState = .headerExchange
  opening : e.phase = .opening → e.connection.localState = .openSent
  eventLoop : e.phase = .eventLoop → e.connection.Settled

/-- The engine has left the phases up to the event loop. -/
def PastLoop (e : ConnectionEngine) : Prop :=
  e.phase ≠ .headerExchanged ∧ e.phase ≠ .opening ∧ e.phase ≠ .eventLoop

theorem pastLoop_of_silent (h : e.phase.silent = true) : e.PastLoop := by
  refine ⟨?_, ?_, ?_⟩ <;> intro hphase <;> simp [hphase, ConnectionEnginePhase.silent] at h

theorem pastLoop_onControlDropped (e : ConnectionEngine) : e.onControlDropped.1.PastLoop := by
  rcases e.onControlDropped_phase with h | h
  · simp [PastLoop, h]
  · exact pastLoop_of_silent h

/-- The phases in which an event leaves the engine. -/
theorem step_phase (hkept : e.ChannelsKept) (event : ConnectionEngineEvent) :
    (e.step event).1.PastLoop ∨
      ((e.step event).1.phase = e.phase ∧
        ((e.step event).1.connection.localState = e.connection.localState ∨ e.phase = .eventLoop)) ∨
      (e.phase = .headerExchanged ∧ (e.step event).1.phase = .opening ∧
        (e.step event).1.connection.localState = .openSent) ∨
      (e.phase = .opening ∧ (e.step event).1.phase = .eventLoop ∧
        (e.step event).1.connection.Settled) := by
  have hturn := e.step_turn event
  generalize e.step event = out at hturn ⊢
  have hsettle : ∀ out : Handled, e.phase = .eventLoop → out.engine.phase = e.phase →
      (settle out).1.PastLoop ∨ ((settle out).1.phase = e.phase ∧
        ((settle out).1.connection.localState = e.connection.localState ∨ e.phase = .eventLoop)) := by
    intro out hphase hout
    rcases settle_phase out with h | h
    · exact .inr ⟨h.trans hout, .inr hphase⟩
    · exact .inl (pastLoop_of_silent h)
  cases hturn with
  | ignored => exact .inr (.inl ⟨rfl, .inl rfl⟩)
  | sendOpen hphase =>
      simp only [sendOpen]
      split
      · exact .inl (pastLoop_of_silent (closeConnection_silent _ _ _))
      · simp only [Connection.openSent, hkept.headerExchanged hphase]
        exact .inr (.inr (.inl ⟨hphase, trivial, rfl⟩))
  | openFailed => exact .inl (pastLoop_of_silent (closeConnection_silent _ _ _))
  | onOpening frame newSession hphase =>
      simp only [onOpening]
      split
      · simp only [Connection.onIncomingOpen, hkept.opening hphase]
        exact .inr (.inr (.inr ⟨hphase, trivial, rfl, rfl⟩))
      · exact .inl (pastLoop_of_silent (closeConnection_silent _ _ _))
  | onIncoming frame newSession hphase =>
      exact (hsettle _ hphase (onIncoming_phase frame newSession)).imp_right .inl
  | onError => exact .inl (pastLoop_of_silent (onError_silent _ _))
  | stopped => exact .inl (pastLoop_of_silent rfl)
  | onWaiting discardOther cause frame newSession hphase =>
      exact .inl (pastLoop_of_silent (onWaiting_silent discardOther cause hphase frame newSession).2)
  | halted => exact .inl (pastLoop_of_silent (by simp [ConnectionEnginePhase.silent]))
  | panicked => exact .inl (pastLoop_of_silent rfl)
  | dropped => exact .inl (pastLoop_onControlDropped _)
  | onControl control hphase =>
      exact (hsettle _ hphase (onControl_phase control)).imp_right .inl
  | onControlDropped => exact .inl (pastLoop_onControlDropped _)
  | sessionFrame frame pending hphase hframes =>
      exact (hsettle _ hphase (onOutgoingSessionFrames_spec
        { e with outgoingSessionFrames := pending } frame).2.1).imp_right .inl
  | handOver => exact .inr (.inl ⟨rfl, .inl rfl⟩)
  | heartbeat hphase =>
      refine (hsettle _ hphase ?_).imp_right .inl
      simp only [onHeartbeat]
      split
      all_goals try split
      all_goals rfl
  | sessions => exact .inr (.inl ⟨rfl, .inl rfl⟩)
  | transport => exact .inr (.inl ⟨rfl, .inl rfl⟩)
  | transportDropped => exact .inl (pastLoop_onControlDropped _)

theorem ChannelsKept.performs_step (h : e.ChannelsKept) (event : ConnectionEngineEvent) :
    Performs (e.CausedBy event) e.connection (e.step event).1.connection := by
  refine ConnectionEngine.performs_step (fun hstate => ?_) h.eventLoop event
  refine ⟨by simp [ConnectionState.awaitsOpen, hstate], h.withinMax.hasOpen ?_⟩
  simp [ConnectionState.hasOpen, hstate]

theorem ChannelsKept.step (h : e.ChannelsKept) (event : ConnectionEngineEvent) :
    (e.step event).1.ChannelsKept := by
  have hacts := h.performs_step event
  have hwithin := hacts.keeps (fun _ _ _ _ hact => hact.withinMax) h.withinMax
  have hsettled : e.connection.Settled → (e.step event).1.connection.Settled :=
    hacts.keeps fun _ _ _ _ hact => hact.settled
  rcases step_phase h event with hpast | ⟨hphase, hstate⟩ | ⟨-, hphase, hstate⟩ | ⟨-, hphase, hstate⟩
  · exact ⟨hwithin, fun hp => absurd hp hpast.1, fun hp => absurd hp hpast.2.1,
      fun hp => absurd hp hpast.2.2⟩
  · refine ⟨hwithin, fun hp => ?_, fun hp => ?_, fun hp => hsettled (h.eventLoop (hphase.symm.trans hp))⟩
    · have hp' := hphase.symm.trans hp
      exact (hstate.resolve_right (by simp [hp'])).trans (h.headerExchanged hp')
    · have hp' := hphase.symm.trans hp
      exact (hstate.resolve_right (by simp [hp'])).trans (h.opening hp')
  · exact ⟨hwithin, fun hp => by simp [hphase] at hp, fun _ => hstate, fun hp => by simp [hphase] at hp⟩
  · exact ⟨hwithin, fun hp => by simp [hphase] at hp, fun hp => by simp [hphase] at hp, fun _ => hstate⟩

theorem channelsKept_start (localOpen : Open) (listener : Option SessionListener)
    (sessions : SessionStore) (refuses : Frame → Bool) :
    (start (.new .headerExchange localOpen listener sessions) refuses).ChannelsKept where
  withinMax := Connection.new_withinMax localOpen listener sessions
  headerExchanged _ := rfl
  opening h := by cases h
  eventLoop h := by cases h

theorem ChannelsKept.run (h : e.ChannelsKept) (events : List ConnectionEngineEvent) :
    (Run.run ConnectionEngine.step e events).1.ChannelsKept :=
  Run.invariant_of_along (fun _ event h _ => h.step event) h (Run.along_true e events)

theorem run_localOpen (h : e.ChannelsKept) (events : List ConnectionEngineEvent) :
    (Run.run ConnectionEngine.step e events).1.connection.localOpen = e.connection.localOpen := by
  induction events generalizing e with
  | nil => rfl
  | cons event events ih =>
      refine (ih (h.step event)).trans ?_
      exact (h.performs_step event).keeps (P := fun c => c.localOpen = e.connection.localOpen)
        (fun _ _ _ _ hact heq => hact.localOpen.trans heq) rfl

theorem run_get_outgoing (h : e.ChannelsKept) {key : Nat} {relay : SessionId}
    {events : List ConnectionEngineEvent}
    (hkept : ∀ channel, channel.toNat = key →
      .control (some (.deallocateSession channel)) ∉ events)
    (hkey : e.connection.sessionByOutgoingChannel.get key = some relay) :
    (Run.run ConnectionEngine.step e events).1.connection.sessionByOutgoingChannel.get key =
      some relay := by
  induction events generalizing e with
  | nil => exact hkey
  | cons event events ih =>
      refine ih (h.step event) (fun channel hchannel hmem => hkept channel hchannel ?_) ?_
      · exact List.mem_cons_of_mem _ hmem
      · refine ((h.performs_step event).keeps (P := fun c => c.WithinMax ∧
          c.sessionByOutgoingChannel.get key = some relay) ?_ ⟨h.withinMax, hkey⟩).2
        intro act c c' hcaused hact hc
        refine ⟨hact.withinMax hc.1, hact.get_outgoing hc.1 ?_ hc.2⟩
        rintro channel rfl hchannel
        have hevent : event = .control (some (.deallocateSession channel)) := hcaused
        exact hkept channel hchannel (hevent ▸ List.mem_cons_self)

variable (localOpen : Open) (listener : Option SessionListener) (sessions : SessionStore)
  (refuses : Frame → Bool)

/-- The engine of a connection that has exchanged headers, after the events. -/
def after (events : List ConnectionEngineEvent) : ConnectionEngine × List Frame :=
  Run.run step (start (.new .headerExchange localOpen listener sessions) refuses) events

theorem channelsKept_after (events : List ConnectionEngineEvent) :
    (after localOpen listener sessions refuses events).1.ChannelsKept :=
  (channelsKept_start localOpen listener sessions refuses).run events

/-- A channel that was given to a session is within the maximum of either side, and stays with the
session until it is given back. -/
theorem channel_stays_with_session (events later : List ConnectionEngineEvent) (key : Nat)
    (relay : SessionId)
    (hgiven : (after localOpen listener sessions refuses
      events).1.connection.sessionByOutgoingChannel.get key = some relay)
    (hkept : ∀ channel, channel.toNat = key →
      .control (some (.deallocateSession channel)) ∉ later) :
    (after localOpen listener sessions refuses
        (events ++ later)).1.connection.sessionByOutgoingChannel.get key = some relay ∧
      key ≤ localOpen.channelMax.toNat ∧
      ∃ remoteOpen, (after localOpen listener sessions refuses
          (events ++ later)).1.connection.remoteOpen = some remoteOpen ∧
        key ≤ remoteOpen.channelMax.toNat := by
  have hstart := channelsKept_start localOpen listener sessions refuses
  have hlast : (after localOpen listener sessions refuses
      (events ++ later)).1.connection.sessionByOutgoingChannel.get key = some relay := by
    rw [after, Run.run_append]
    exact run_get_outgoing (hstart.run events) hkept hgiven
  have hwithin := (channelsKept_after localOpen listener sessions refuses (events ++ later)).withinMax
  obtain ⟨hsettled, hle⟩ := hwithin.within key relay hlast
  have hlocal := UInt16.le_iff_toNat_le.mp hwithin.localMax
  rw [after, run_localOpen hstart] at hlocal
  obtain ⟨remoteOpen, hremote⟩ := Option.isSome_iff_exists.mp hsettled.2
  exact ⟨hlast, hle.trans hlocal, remoteOpen, hremote,
    hle.trans (UInt16.le_iff_toNat_le.mp (hwithin.remoteMax remoteOpen hremote))⟩

section

private def openOf (channelMax : UInt16) : Open where
  containerId := "peer"
  hostname := none
  maxFrameSize := 512
  channelMax
  idleTimeOut := none
  outgoingLocales := none
  incomingLocales := none
  offeredCapabilities := none
  desiredCapabilities := none
  properties := none

private def noFrames : SessionStore := ⟨fun _ => ⟨[], false⟩⟩

private def twoSessions : List ConnectionEngineEvent :=
  [.open, .incoming (some (.ok ⟨0, .open (openOf 3)⟩)) 0,
    .control (some (.allocateSession 5 false)), .control (some (.allocateSession 6 false))]

/-- The second session keeps its channel when the first one gives its own back. -/
theorem channel_stays_with_second_session :
    let later : List ConnectionEngineEvent := [.control (some (.deallocateSession 0))]
    (after (openOf 7) none noFrames (fun _ => false)
        (twoSessions ++ later)).1.connection.sessionByOutgoingChannel.get 1 = some 6 ∧
      1 ≤ (openOf 7).channelMax.toNat ∧
      ∃ remoteOpen, (after (openOf 7) none noFrames (fun _ => false)
          (twoSessions ++ later)).1.connection.remoteOpen = some remoteOpen ∧
        1 ≤ remoteOpen.channelMax.toNat := by
  refine channel_stays_with_session (openOf 7) none noFrames (fun _ => false) twoSessions _ 1 6
    (by decide) ?_
  intro channel hchannel hmem
  simp only [List.mem_singleton, ConnectionEngineEvent.control.injEq, Option.some.injEq,
    ConnectionControl.deallocateSession.injEq] at hmem
  subst hmem
  cases hchannel

end

end ConnectionEngine

/-! ## Incoming frames -/

/-- The act leaves the queues of the sessions alone. -/
def ChannelAct.KeepsQueues : ChannelAct → Prop
  | .forwarded _ _ | .shared => False
  | _ => True

namespace Connection

variable {act : ChannelAct} {A : ChannelAct → Prop} {c c' : Connection}

theorem Act.get_incoming (h : Act act c c') {channel : UInt16} {relay : SessionId}
    (hroute : c'.sessionByIncomingChannel channel = some relay) :
    act = .registered channel relay ∨ c.sessionByIncomingChannel channel = some relay := by
  cases h with
  | registered channel' relay' =>
      simp only [Function.update_apply] at hroute
      split at hroute
      · next heq =>
          cases hroute
          exact .inl (heq ▸ rfl)
      · exact .inr hroute
  | unregistered channel' =>
      simp only [Function.update_apply] at hroute
      split at hroute
      · cases hroute
      · exact .inr hroute
  | other h =>
      rw [h.eq] at hroute
      exact .inr hroute
  | _ => exact .inr hroute

/-- A route is an old one or has been registered. -/
theorem Performs.get_incoming (h : Performs A c c') {channel : UInt16} {relay : SessionId}
    (hroute : c'.sessionByIncomingChannel channel = some relay) :
    A (.registered channel relay) ∨ c.sessionByIncomingChannel channel = some relay := by
  obtain ⟨acts, hacts, hall⟩ := h
  induction hacts with
  | nil => exact .inr hroute
  | cons head _ ih =>
      obtain ⟨hfirst, hrest⟩ := List.forall_mem_cons.mp hall
      rcases ih hroute hrest with hnew | hold
      · exact .inl hnew
      · rcases head.get_incoming hold with rfl | hold
        · exact .inl hfirst
        · exact .inr hold

theorem Performs.sessions_eq (h : Performs ChannelAct.KeepsQueues c c') : c'.sessions = c.sessions := by
  refine h.keeps (P := fun c' => c'.sessions = c.sessions) ?_ rfl
  intro act c₁ c₂ hkeeps hact heq
  cases hact with
  | forwarded => exact hkeeps.elim
  | shared => exact hkeeps.elim
  | other h =>
      rw [h.eq]
      exact heq
  | _ => exact heq

theorem sendToSession_sessions (c : Connection) (relay : SessionId) (frame : SessionFrame) :
    (c.sendToSession relay frame).2.sessions = c.sessions ∨
      c.sessions.send relay frame = .ok (c.sendToSession relay frame).2.sessions := by
  simp only [sendToSession]
  split
  · next hsend => exact .inr hsend
  · exact .inl rfl

end Connection

namespace ConnectionEngine

open Connection (Performs)

variable {e e₁ e₂ : ConnectionEngine} {event : ConnectionEngineEvent}

/-- The queues of the sessions are as before, or the frame that arrived is in the queue of the
session to which its channel is routed. -/
def Forwards (e : ConnectionEngine) (event : ConnectionEngineEvent) (e' : ConnectionEngine) : Prop :=
  e'.connection.sessions = e.connection.sessions ∨
    ∃ frame newSession relay, event = .incoming (some (.ok (SessionFrame.toFrame frame))) newSession ∧
      e.connection.sessions.send relay frame = .ok e'.connection.sessions ∧
      (e.Binds event frame.channel relay ∨
        e.connection.sessionByIncomingChannel frame.channel = some relay)

theorem forwards_of_performs (h : Performs ChannelAct.KeepsQueues e.connection e₁.connection) :
    e.Forwards event e₁ :=
  .inl h.sessions_eq

theorem Forwards.then (h : e.Forwards event e₁)
    (h' : Performs ChannelAct.KeepsQueues e₁.connection e₂.connection) : e.Forwards event e₂ := by
  simp only [Forwards, h'.sessions_eq]
  exact h

theorem forwards_forwardToSession (frame : SessionFrame) (newSession : SessionId) :
    e.Forwards (.incoming (some (.ok frame.toFrame)) newSession) (e.forwardToSession frame).engine := by
  simp only [forwardToSession]
  split
  · split
    · exact .inl rfl
    · next relay hroute =>
        have hsend := e.connection.sendToSession_sessions relay frame
        cases hout : e.connection.sendToSession relay frame with
        | mk result connection =>
            rw [hout] at hsend
            have hforwards : e.Forwards (.incoming (some (.ok frame.toFrame)) newSession)
                (e.withConnection connection) :=
              hsend.imp_right fun hsend => ⟨frame, newSession, relay, rfl, hsend, .inr hroute⟩
            cases result <;> exact hforwards
  · exact .inl rfl

theorem forwards_onIncomingBegin (channel : UInt16) (begin' : Begin) (newSession : SessionId) :
    e.Forwards (.incoming (some (.ok ⟨channel, .begin begin'⟩)) newSession)
      (e.withConnection (e.connection.onIncomingBegin channel begin' newSession).2) := by
  simp only [Connection.onIncomingBegin, Connection.onIncomingBeginInner]
  by_cases hstate : e.connection.localState = .opened
  · rw [if_pos hstate]
    cases hremote : begin'.remoteChannel with
    | some outgoingChannel =>
        dsimp only
        cases hrelay : e.connection.sessionByOutgoingChannel.get outgoingChannel.toNat with
        | none => exact .inl rfl
        | some relay =>
            dsimp only
            refine (Connection.sendToSession_sessions _ _ _).imp_right fun hsend => ?_
            refine ⟨⟨channel, .begin begin'⟩, newSession, relay, rfl, hsend, .inl (.inl ?_)⟩
            refine ⟨begin', newSession, rfl, ?_⟩
            simp only [Connection.SetsRoute, hremote, hrelay]
    | none =>
        have hallocate : (e.connection.allocateSession newSession).2.sessions =
            e.connection.sessions := by
          simp only [Connection.allocateSession]
          split
          all_goals try rfl
          split <;> rfl
        simp only
        cases hlistener : e.connection.sessionListener with
        | none => exact .inl rfl
        | some listener =>
            simp only
            cases hresult : e.connection.allocateSession newSession with
            | mk result connection =>
                rw [hresult] at hallocate
                cases result with
                | error error => exact .inl hallocate
                | ok outgoingChannel =>
                    simp only
                    split <;> exact .inl hallocate
  · rw [if_neg hstate]
    exact .inl rfl

theorem forwards_onIncomingEnd (channel : UInt16) (end' : End) (newSession : SessionId) :
    e.Forwards (.incoming (some (.ok ⟨channel, .end end'⟩)) newSession)
      (e.withConnection (e.connection.onIncomingEnd channel end').2) := by
  simp only [Connection.onIncomingEnd]
  split
  · split
    · exact .inl rfl
    · next relay hroute =>
        refine (Connection.sendToSession_sessions _ relay ⟨channel, .end end'⟩).imp_right fun hsend => ?_
        exact ⟨⟨channel, .end end'⟩, newSession, relay, rfl, hsend, .inr hroute⟩
  · exact .inl rfl

theorem forwards_onIncoming (frame : Frame) (newSession : SessionId) :
    e.Forwards (.incoming (some (.ok frame)) newSession) (e.onIncoming frame newSession).engine := by
  obtain ⟨channel, body⟩ := frame
  have hclose : ∀ close, Performs ChannelAct.KeepsQueues e.connection
      (e.onIncomingClose close).engine.connection := fun close =>
    performs_onIncomingClose (A := ChannelAct.KeepsQueues) trivial (fun _ _ _ => trivial) close
  by_cases hdiscarding : e.connection.localState = .discarding
  · cases body with
    | close close =>
        rw [onIncoming_close]
        exact forwards_of_performs (hclose close)
    | _ =>
        rw [onIncoming_discarding hdiscarding rfl newSession]
        exact .inl rfl
  · cases body with
    | close close =>
        rw [onIncoming_close]
        exact forwards_of_performs (hclose close)
    | «open» open' =>
        have hopen : (e.connection.onIncomingOpen open').2.sessions = e.connection.sessions := by
          simp only [Connection.onIncomingOpen]
          split <;> rfl
        simp only [onIncoming, hdiscarding, decide_false, Bool.false_and, Bool.false_eq_true, if_false]
        generalize open'.idleTimeOut = idleTimeOut
        generalize e.connection.onIncomingOpen open' = out at hopen ⊢
        obtain ⟨result, connection⟩ := out
        split
        · next heq =>
            cases heq
            exact .inl hopen
        · next heq =>
            cases heq
            exact .inl hopen
        · next heq _ =>
            cases heq
            exact .inl hopen
    | begin begin' =>
        have hbegin := forwards_onIncomingBegin (e := e) channel begin' newSession
        simp only [onIncoming, hdiscarding, decide_false, Bool.false_and, Bool.false_eq_true, if_false]
        cases hout : e.connection.onIncomingBegin channel begin' newSession with
        | mk result connection =>
            rw [hout] at hbegin
            cases result <;> exact hbegin
    | «end» end' =>
        have hend := forwards_onIncomingEnd (e := e) channel end' newSession
        simp only [onIncoming, hdiscarding, decide_false, Bool.false_and, Bool.false_eq_true, if_false]
        cases hout : e.connection.onIncomingEnd channel end' with
        | mk result connection =>
            rw [hout] at hend
            cases result <;> exact hend
    | empty =>
        simp only [onIncoming, hdiscarding, decide_false, Bool.false_and, Bool.false_eq_true, if_false]
        exact .inl rfl
    | attach | flow | transfer | disposition | detach =>
        simp only [onIncoming, hdiscarding, decide_false, Bool.false_and, Bool.false_eq_true, if_false]
        exact forwards_forwardToSession _ newSession

theorem forwards_onWaiting (discardOther : Bool) (cause : Option ConnectionInnerError) (frame : Frame)
    (newSession : SessionId) :
    e.Forwards (.incoming (some (.ok frame)) newSession)
      (e.onWaiting discardOther cause frame newSession).1 := by
  have hincoming := forwards_onIncoming (e := e) frame newSession
  simp only [onWaiting]
  split
  · next close _ =>
      have hclose := e.connection.sameChannels_onIncomingClose close
      split
      all_goals
        next connection heq =>
          rw [heq] at hclose
          exact forwards_of_performs ((Performs.other (A := ChannelAct.KeepsQueues) trivial
            hclose).trans (performs_halt (e := e.withConnection connection) trivial _ _))
  · split
    · exact .inl rfl
    · split
      · exact hincoming
      · exact hincoming.then (performs_halt trivial _ _)
      · exact hincoming

/-- An event puts at most the frame that arrived into the queue of a session, and only there. -/
theorem ChannelsKept.forwards (h : e.ChannelsKept)
    (hevent : ∀ sessions listener, event ≠ .sessions sessions listener) :
    e.Forwards event (e.step event).1 := by
  cases event with
  | incoming item newSession =>
      have hturn := e.step_turn (.incoming item newSession)
      generalize e.step (.incoming item newSession) = out at hturn ⊢
      cases hturn with
      | ignored => exact .inl rfl
      | openFailed => exact forwards_of_performs (performs_closeConnection trivial none none)
      | onOpening frame newSession =>
          simp only [onOpening]
          split
          · next open' _ =>
              have hopen : Performs ChannelAct.KeepsQueues e.connection
                  (e.connection.onIncomingOpen open').2 := Connection.performs_onIncomingOpen trivial
              split
              · next connection heq =>
                  rw [heq] at hopen
                  exact forwards_of_performs (hopen.trans
                    (performs_closeConnection (e := e.withConnection connection) trivial none none))
              · next heq =>
                  rw [heq] at hopen
                  exact forwards_of_performs hopen
          · exact forwards_of_performs (performs_closeConnection trivial none none)
      | onIncoming frame newSession =>
          exact (forwards_onIncoming frame newSession).then (performs_settle trivial (.refl _))
      | onError => exact forwards_of_performs (performs_onError trivial _)
      | stopped => exact forwards_of_performs (performs_stop trivial _)
      | onWaiting discardOther cause frame newSession => exact forwards_onWaiting _ _ _ _
      | halted => exact forwards_of_performs (performs_halt trivial _ _)
      | panicked frame newSession => exact forwards_onIncoming frame newSession
      | dropped frame newSession =>
          exact (forwards_onIncoming frame newSession).then
            (performs_onControlDropped trivial fun _ _ _ => trivial)
  | sessions sessions listener => exact absurd rfl (hevent sessions listener)
  | _ =>
      refine forwards_of_performs ((h.performs_step _).mono fun act hcaused => ?_)
      cases act with
      | forwarded relay frame =>
          obtain ⟨_, heq⟩ := hcaused
          cases heq
      | shared =>
          obtain ⟨_, _, heq⟩ := hcaused
          cases heq
      | _ => trivial

/-- The event changes to which session the channel is routed. -/
def ChangesRoute (channel : UInt16) (e : ConnectionEngine) (event : ConnectionEngineEvent) : Prop :=
  (e.step event).1.connection.sessionByIncomingChannel channel ≠
    e.connection.sessionByIncomingChannel channel

variable (localOpen : Open) (listener : Option SessionListener) (sessions : SessionStore)
  (refuses : Frame → Bool)

/-- A channel is routed to the session that was last bound to it. -/
theorem bound_since (events : List ConnectionEngineEvent) {channel : UInt16} {relay : SessionId}
    (hroute : (after localOpen listener sessions refuses
      events).1.connection.sessionByIncomingChannel channel = some relay) :
    ∃ before event, Run.Since step (ChangesRoute channel)
        (start (.new .headerExchange localOpen listener sessions) refuses) events before event ∧
      (after localOpen listener sessions refuses before).1.Binds event channel relay := by
  induction events using List.reverseRecOn with
  | nil => cases hroute
  | append_singleton events event ih =>
      have hkept := channelsKept_after localOpen listener sessions refuses events
      have hnext : (after localOpen listener sessions refuses (events ++ [event])).1 =
          ((after localOpen listener sessions refuses events).1.step event).1 := by
        rw [after, Run.run_snoc]
        rfl
      rw [hnext] at hroute
      by_cases hchanges : ChangesRoute channel (after localOpen listener sessions refuses events).1 event
      · rcases (hkept.performs_step event).get_incoming hroute with hbinds | hold
        · exact ⟨events, event, Run.since_snoc _ _ _ _, hbinds⟩
        · exact absurd (hroute.trans hold.symm) hchanges
      · obtain ⟨before, event', hsince, hbinds⟩ := ih ((not_not.mp hchanges).symm.trans hroute)
        exact ⟨before, event', hsince.snoc hchanges, hbinds⟩

/-- A frame for a session that is bound and takes frames is put into its queue. -/
theorem sessions_of_routed (hphase : e.phase = .eventLoop) (hstate : e.connection.localState = .opened)
    {frame : SessionFrame} (hbody : ∀ begin', frame.body ≠ .begin begin') {relay : SessionId}
    (hroute : e.connection.sessionByIncomingChannel frame.channel = some relay)
    {sessions : SessionStore} (hsend : e.connection.sessions.send relay frame = .ok sessions)
    (newSession : SessionId) :
    (e.step (.incoming (some (.ok frame.toFrame)) newSession)).1.connection.sessions = sessions := by
  have hstep : e.step (.incoming (some (.ok frame.toFrame)) newSession) =
      settle (e.onIncoming frame.toFrame newSession) := by
    rw [← at_phase hphase]
    rfl
  have hsettle : ∀ out : Handled, (settle out).1.connection.sessions =
      out.engine.connection.sessions := fun out =>
    (performs_settle (A := ChannelAct.KeepsQueues) trivial (.refl _)).sessions_eq
  have hforward : (e.forwardToSession frame).engine.connection.sessions = sessions := by
    simp only [forwardToSession, if_pos hstate, hroute, Connection.sendToSession, hsend]
    rfl
  have hdiscarding : (decide (e.connection.localState = .discarding)) = false := by simp [hstate]
  rw [hstep, hsettle]
  obtain ⟨channel, body⟩ := frame
  cases body with
  | begin begin' => exact absurd rfl (hbody begin')
  | «end» end' =>
      simp only [onIncoming, SessionFrame.toFrame, Connection.onIncomingEnd, hstate, hroute,
        Connection.sendToSession, hsend]
      rfl
  | _ =>
      simp only [onIncoming, SessionFrame.toFrame, hdiscarding, Bool.false_and, Bool.false_eq_true,
        if_false]
      exact hforward

/-- Nothing but a frame that arrives is put into the queue of a session, and only into that of the
session that was last bound to its channel; while the connection is open every such frame is. -/
theorem frames_reach_bound_session (events : List ConnectionEngineEvent) :
    (∀ event, (∀ sessions listener, event ≠ .sessions sessions listener) →
      (after localOpen listener sessions refuses (events ++ [event])).1.connection.sessions =
        (after localOpen listener sessions refuses events).1.connection.sessions ∨
      ∃ frame newSession relay, event = .incoming (some (.ok (SessionFrame.toFrame frame))) newSession ∧
        (after localOpen listener sessions refuses events).1.connection.sessions.send relay frame =
          .ok (after localOpen listener sessions refuses (events ++ [event])).1.connection.sessions ∧
        ((after localOpen listener sessions refuses events).1.Binds event frame.channel relay ∨
          ∃ before event', Run.Since step (ChangesRoute frame.channel)
              (start (.new .headerExchange localOpen listener sessions) refuses) events before event' ∧
            (after localOpen listener sessions refuses before).1.Binds event' frame.channel relay)) ∧
    ∀ frame newSession relay sessions',
      (after localOpen listener sessions refuses events).1.phase = .eventLoop →
      (after localOpen listener sessions refuses events).1.connection.localState = .opened →
      (∀ begin', frame.body ≠ .begin begin') →
      (after localOpen listener sessions refuses
        events).1.connection.sessionByIncomingChannel frame.channel = some relay →
      (after localOpen listener sessions refuses events).1.connection.sessions.send relay frame =
        .ok sessions' →
      (after localOpen listener sessions refuses (events ++
        [.incoming (some (.ok (SessionFrame.toFrame frame))) newSession])).1.connection.sessions =
          sessions' := by
  have hkept := channelsKept_after localOpen listener sessions refuses events
  have hnext : ∀ event, (after localOpen listener sessions refuses (events ++ [event])).1 =
      ((after localOpen listener sessions refuses events).1.step event).1 := by
    intro event
    rw [after, Run.run_snoc]
    rfl
  refine ⟨fun event hevent => ?_, fun frame newSession relay sessions' hphase hstate hbody hroute
    hsend => ?_⟩
  · rw [hnext]
    refine (hkept.forwards hevent).imp_right ?_
    rintro ⟨frame, newSession, relay, harrives, hsend, hroute⟩
    exact ⟨frame, newSession, relay, harrives, hsend,
      hroute.imp_right (bound_since localOpen listener sessions refuses events)⟩
  · rw [hnext]
    exact sessions_of_routed hphase hstate hbody hroute hsend newSession

section

/-- The peer begins the second session on its channel 4. -/
private def secondBegun : List ConnectionEngineEvent :=
  twoSessions ++ [.incoming (some (.ok ⟨4, .begin ⟨some 1, 0, 8, 8, 7, none, none, none⟩⟩)) 0]

private def endOnFour : SessionFrame := ⟨4, .end ⟨none⟩⟩

/-- The End of the peer on channel 4 goes to the second session. -/
theorem end_reaches_bound_session :
    ((after (openOf 7) none noFrames (fun _ => false) (secondBegun ++
          [.incoming (some (.ok endOnFour.toFrame)) 0])).1.connection.sessions =
        (after (openOf 7) none noFrames (fun _ => false) secondBegun).1.connection.sessions ∨
      ∃ frame newSession relay,
        (.incoming (some (.ok endOnFour.toFrame)) 0 : ConnectionEngineEvent) =
          .incoming (some (.ok (SessionFrame.toFrame frame))) newSession ∧
        (after (openOf 7) none noFrames (fun _ => false)
          secondBegun).1.connection.sessions.send relay frame =
          .ok (after (openOf 7) none noFrames (fun _ => false) (secondBegun ++
            [.incoming (some (.ok endOnFour.toFrame)) 0])).1.connection.sessions ∧
        ((after (openOf 7) none noFrames (fun _ => false) secondBegun).1.Binds
            (.incoming (some (.ok endOnFour.toFrame)) 0) frame.channel relay ∨
          ∃ before event', Run.Since step (ChangesRoute frame.channel)
              (start (.new .headerExchange (openOf 7) none noFrames) fun _ => false)
              secondBegun before event' ∧
            (after (openOf 7) none noFrames (fun _ => false) before).1.Binds event' frame.channel
              relay)) ∧
    (after (openOf 7) none noFrames (fun _ => false) (secondBegun ++
      [.incoming (some (.ok endOnFour.toFrame)) 0])).1.connection.sessions =
        ⟨Function.update (after (openOf 7) none noFrames (fun _ => false)
          secondBegun).1.connection.sessions.queue 6
            ⟨((after (openOf 7) none noFrames (fun _ => false)
              secondBegun).1.connection.sessions.queue 6).incoming ++ [endOnFour], false⟩⟩ := by
  have h := frames_reach_bound_session (openOf 7) none noFrames (fun _ => false) secondBegun
  refine ⟨h.1 _ (by simp), h.2 endOnFour 0 6 _ rfl rfl (by simp [endOnFour]) rfl rfl⟩

end

end ConnectionEngine

end Fe2o3Amqp
