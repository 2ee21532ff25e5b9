import Fe2o3Amqp.Connection.Engine
import Fe2o3Amqp.Util.Run

/-!
# Nothing follows a Close

A Close is written before the state of the connection is looked at, and the heartbeat is silenced in
`CloseSent` but not in `Discarding`.  The Close is the last frame of every run in which no heartbeat
ticks in `Discarding` and no Close is requested once one has been written.
-/

namespace Fe2o3Amqp

open Session (Running)

def Frame.isClose (frame : Frame) : Bool :=
  match frame.body with
  | .close _ => true
  | _ => false

theorem SessionFrame.toFrame_isClose (frame : SessionFrame) : frame.toFrame.isClose = false := by
  obtain ⟨channel, body⟩ := frame
  cases body <;> rfl

/-- The states that follow a Close of this side. -/
def Connection.closeWritten (c : Connection) : Bool :=
  match c.localState with
  | .closeSent | .discarding | .closePipe | .end => true
  | _ => false

/-- The phases in which nothing is written. -/
def ConnectionEnginePhase.silent : ConnectionEnginePhase → Bool
  | .waitForRemoteClose _ _ | .stopped | .panicked => true
  | _ => false

namespace ConnectionEngine

variable {e : ConnectionEngine}

/-- The engine has written a Close, or writes nothing any more. -/
def ClosePut (e : ConnectionEngine) : Prop :=
  e.connection.closeWritten = true ∨ e.phase.silent = true

/-- No heartbeat ticks in `Discarding`, and no Close is requested when one has been written. -/
def Quiet (e : ConnectionEngine) : ConnectionEngineEvent → Prop
  | .heartbeat =>
      match e.phase, e.heartbeat with
      | .eventLoop, some _ => e.connection.localState ≠ .discarding
      | _, _ => True
  | .control (some (.close _)) =>
      match e.phase with
      | .eventLoop => e.connection.closeWritten = false
      | _ => True
  | _ => True

/-- The states of the connection once it is open. -/
def Serving (e : ConnectionEngine) : Prop :=
  e.connection.localState = .opened ∨ e.connection.localState = .closeSent ∨
    e.connection.localState = .discarding

/-- The states of the connection in the phases in which frames are written. -/
def Reached (e : ConnectionEngine) : Prop :=
  match e.phase with
  | .headerExchanged => e.connection.localState = .headerExchange
  | .opening => e.connection.localState = .openSent
  | .eventLoop | .controlDropped => e.Serving
  | _ => True

theorem reached_of_silent (h : e.phase.silent = true) : e.Reached := by
  unfold Reached
  cases hphase : e.phase <;> simp_all [ConnectionEnginePhase.silent]

/-! ## Closing and the rest of a turn -/

@[simp] theorem halt_phase (e : ConnectionEngine) (cause error : Option ConnectionInnerError) :
    (e.halt cause error).phase = .stopped := by
  cases cause <;> rfl

@[simp] theorem stop_phase (e : ConnectionEngine) (outcome : Except ConnectionInnerError Unit) :
    (e.stop outcome).phase = .stopped := rfl

theorem closePut_stop (e : ConnectionEngine) (outcome : Except ConnectionInnerError Unit) :
    (e.stop outcome).ClosePut := .inr rfl

/-- A Close is all that `send_close` writes. -/
theorem sendClose_frames (e : ConnectionEngine) (error : Option Error) :
    (e.sendClose error).frames = [] ∨ (e.sendClose error).frames = [⟨0, .close ⟨error⟩⟩] := by
  simp only [sendClose]
  split
  · exact .inl rfl
  · split <;> exact .inr rfl

theorem closeConnection_silent (e : ConnectionEngine) (cause : Option ConnectionInnerError)
    (error : Option Error) : (e.closeConnection cause error).1.phase.silent = true := by
  simp only [closeConnection]
  split
  all_goals try split
  all_goals simp [ConnectionEnginePhase.silent]

theorem closeConnection_endsAt (e : ConnectionEngine) (cause : Option ConnectionInnerError)
    (error : Option Error) :
    Run.EndsAt (fun frame => frame.isClose = true) (e.closeConnection cause error).1.ClosePut
      (e.closeConnection cause error).2 := by
  have hput : (e.closeConnection cause error).1.ClosePut :=
    .inr (e.closeConnection_silent cause error)
  have hframes : (e.closeConnection cause error).2 = [] ∨
      (e.closeConnection cause error).2 = [⟨0, .close ⟨error⟩⟩] := by
    have hsend := e.sendClose_frames error
    simp only [closeConnection]
    split
    all_goals try split
    all_goals first | exact hsend | exact .inl rfl
  rcases hframes with hframes | hframes
  · rw [hframes]
    exact .inl (by simp)
  · rw [hframes]
    exact Run.endsAt_singleton _ hput

/-- A connection that has written its Close writes no other. -/
theorem closeConnection_closeWritten (h : e.connection.closeWritten = true)
    (cause : Option ConnectionInnerError) (error : Option Error) :
    (e.closeConnection cause error).2 = [] := by
  cases hstate : e.connection.localState <;>
    simp_all [Connection.closeWritten, closeConnection]

theorem onError_silent (e : ConnectionEngine) (error : ConnectionInnerError) :
    (e.onError error).1.phase.silent = true := by
  cases error with
  | transportError error => rfl
  | _ => exact closeConnection_silent e _ _

theorem onError_endsAt (e : ConnectionEngine) (error : ConnectionInnerError) :
    Run.EndsAt (fun frame => frame.isClose = true) (e.onError error).1.ClosePut
      (e.onError error).2 := by
  cases error with
  | transportError error => exact .inl (by simp [onError])
  | _ => exact closeConnection_endsAt e _ _

theorem onError_closeWritten (h : e.connection.closeWritten = true) (error : ConnectionInnerError) :
    (e.onError error).2 = [] := by
  cases error with
  | transportError error => rfl
  | _ => exact closeConnection_closeWritten h _ _

theorem settle_closeWritten {out : Handled} (h : out.engine.connection.closeWritten = true) :
    (settle out).2 = out.frames ∧ (settle out).1.ClosePut := by
  unfold settle
  split
  · exact ⟨rfl, .inl h⟩
  · exact ⟨rfl, closePut_stop _ _⟩
  · next error _ =>
      simp only [onError_closeWritten h error, List.append_nil]
      exact ⟨trivial, .inr (onError_silent _ error)⟩
  · exact ⟨rfl, .inr rfl⟩

theorem settle_endsAt {out : Handled}
    (h : Run.EndsAt (fun frame => frame.isClose = true)
      (out.engine.connection.closeWritten = true) out.frames) :
    Run.EndsAt (fun frame => frame.isClose = true) (settle out).1.ClosePut (settle out).2 := by
  rcases h with hnone | ⟨before, frame, hframes, hbefore, hwritten⟩
  · unfold settle
    split
    · exact .inl hnone
    · exact .inl hnone
    · exact .append hnone (onError_endsAt _ _)
    · exact .inl hnone
  · obtain ⟨hsettle, hput⟩ := settle_closeWritten hwritten
    rw [hsettle]
    exact .inr ⟨before, frame, hframes, hbefore, hput⟩

theorem settle_reached {out : Handled}
    (h : out.outcome = .running .continue → out.engine.Reached) : (settle out).1.Reached := by
  unfold settle
  split
  · next houtcome => exact h houtcome
  · exact reached_of_silent rfl
  · exact reached_of_silent (onError_silent _ _)
  · exact reached_of_silent rfl

/-! ## Outgoing frames -/

/-- A session frame changes neither the state nor the phase and is no Close. -/
theorem onOutgoingSessionFrames_spec (e : ConnectionEngine) (frame : SessionFrame) :
    (e.onOutgoingSessionFrames frame).engine.connection.localState = e.connection.localState ∧
      (e.onOutgoingSessionFrames frame).engine.phase = e.phase ∧
      ∀ out ∈ (e.onOutgoingSessionFrames frame).frames, ¬out.isClose = true := by
  have hwrite : ∀ e' : ConnectionEngine,
      e'.connection.localState = e.connection.localState → e'.phase = e.phase →
      ∀ out : Handled, out = (if e'.refuses frame.toFrame then e'.failed [] (.transportError .io)
        else ⟨[frame.toFrame], .running .continue, e'⟩) →
      out.engine.connection.localState = e.connection.localState ∧ out.engine.phase = e.phase ∧
        ∀ frame ∈ out.frames, ¬frame.isClose = true := by
    rintro e' hstate hphase _ rfl
    split
    · exact ⟨hstate, hphase, by simp [failed]⟩
    · exact ⟨hstate, hphase, by simp [SessionFrame.toFrame_isClose]⟩
  have hbegin : ∀ begin', (e.connection.onOutgoingBegin frame.channel begin').2.localState =
      e.connection.localState := by
    intro begin'
    simp only [Connection.onOutgoingBegin]
    split
    · split <;> rfl
    · rfl
  unfold onOutgoingSessionFrames
  split
  iterate 2
    cases hbody : frame.body with
    | begin begin' =>
        have hstate := hbegin begin'
        simp only
        cases hout : e.connection.onOutgoingBegin frame.channel begin' with
        | mk result connection =>
            rw [hout] at hstate
            cases result with
            | error error => exact ⟨hstate, rfl, by simp [failed]⟩
            | ok _ => exact hwrite (e.withConnection connection) hstate rfl _ rfl
    | _ => exact hwrite e rfl rfl _ rfl
  exact ⟨rfl, rfl, by simp [failed]⟩

theorem drainSessionFrames_spec (e : ConnectionEngine) (pending : List SessionFrame) :
    (e.drainSessionFrames pending).engine.connection.localState = e.connection.localState ∧
      (e.drainSessionFrames pending).engine.phase = e.phase ∧
      ∀ out ∈ (e.drainSessionFrames pending).frames, ¬out.isClose = true := by
  induction pending generalizing e with
  | nil => exact ⟨rfl, rfl, by simp [drainSessionFrames]⟩
  | cons frame pending ih =>
      have hfirst := onOutgoingSessionFrames_spec { e with outgoingSessionFrames := pending } frame
      simp only [drainSessionFrames]
      split
      · obtain ⟨hstate, hphase, hframes⟩ := ih
          (onOutgoingSessionFrames { e with outgoingSessionFrames := pending } frame).engine
        refine ⟨hstate.trans hfirst.1, hphase.trans hfirst.2.1, fun out hmem => ?_⟩
        rcases List.mem_append.mp hmem with hmem | hmem
        · exact hfirst.2.2 out hmem
        · exact hframes out hmem
      · exact hfirst

/-- The Close of an open connection, or of one that has received a Close. -/
theorem sendClose_spec (h : e.connection.localState = .opened ∨
      e.connection.localState = .closeReceived) (error : Option Error) :
    (∃ cause, e.sendClose error = ⟨[], .failed cause, e⟩) ∨
      ∃ engine, e.sendClose error =
          ⟨[⟨0, .close ⟨error⟩⟩], .running .continue, engine⟩ ∧
        engine.connection.closeWritten = true ∧ engine.phase = e.phase ∧
        (e.connection.localState = .opened → engine.Serving) ∧
        (e.connection.localState = .closeReceived → engine.connection.localState = .end) := by
  simp only [sendClose]
  split
  · exact .inl ⟨_, rfl⟩
  · rcases h with h | h
    · simp only [Connection.closeSent, h]
      refine .inr ⟨_, rfl, ?_, rfl, fun _ => ?_, nofun⟩
      · cases error <;> rfl
      · cases error
        · exact .inr (.inl rfl)
        · exact .inr (.inr rfl)
    · simp only [Connection.closeSent, h]
      exact .inr ⟨_, rfl, rfl, rfl, nofun, fun _ => rfl⟩

/-- The queue is drained and the Close written, or the state is still what it was. -/
theorem drainAndClose_spec (h : e.connection.localState = .opened ∨
      e.connection.localState = .closeReceived) (error : Option Error) :
    Run.EndsAt (fun frame => frame.isClose = true)
        ((e.drainAndClose error).engine.connection.closeWritten = true)
        (e.drainAndClose error).frames ∧
      (e.drainAndClose error).engine.phase = e.phase ∧
      (∀ running, (e.drainAndClose error).outcome = .running running →
        (e.connection.localState = .opened → (e.drainAndClose error).engine.Serving) ∧
        (e.connection.localState = .closeReceived →
          (e.drainAndClose error).engine.connection.localState = .end)) := by
  have hdrained := drainSessionFrames_spec { e with sessionFramesClosed := true }
    e.outgoingSessionFrames
  simp only [drainAndClose]
  generalize drainSessionFrames _ _ = drained at hdrained ⊢
  obtain ⟨hstate, hphase, hframes⟩ := hdrained
  simp only at hstate hphase
  cases houtcome : drained.outcome with
  | failed error => exact ⟨.inl hframes, hphase, by simp [houtcome]⟩
  | panicked => exact ⟨.inl hframes, hphase, by simp [houtcome]⟩
  | running running =>
      simp only
      rcases sendClose_spec (hstate ▸ h) error with
        ⟨cause, heq⟩ | ⟨engine, heq, hwritten, hphase', hserving, hend⟩
      · rw [heq]
        refine ⟨.inl ?_, hphase, by simp⟩
        simpa using hframes
      · rw [heq]
        exact ⟨.append hframes (Run.endsAt_singleton _ hwritten), hphase'.trans hphase,
          fun _ _ => ⟨fun hopened => hserving (hstate.trans hopened),
            fun hreceived => hend (hstate.trans hreceived)⟩⟩

theorem closeWithoutControls_spec (h : e.connection.localState = .opened)
    (pending : List SessionFrame) :
    Run.EndsAt (fun frame => frame.isClose = true)
        ((e.closeWithoutControls pending).2.connection.closeWritten = true)
        (e.closeWithoutControls pending).1 ∧
      (e.closeWithoutControls pending).2.Serving := by
  induction pending generalizing e with
  | nil =>
      simp only [closeWithoutControls]
      have hopened : ({ e with outgoingSessionFrames := [] } : ConnectionEngine).connection.localState =
        .opened := h
      rcases sendClose_spec (.inl hopened) none with ⟨cause, heq⟩ | ⟨engine, heq, hwritten, -, hserving, -⟩
      · rw [heq]
        exact ⟨.inl (by simp), .inl h⟩
      · rw [heq]
        exact ⟨Run.endsAt_singleton _ hwritten, hserving h⟩
  | cons frame pending ih =>
      obtain ⟨hstate, -, hframes⟩ :=
        onOutgoingSessionFrames_spec { e with outgoingSessionFrames := pending } frame
      obtain ⟨hrest, hserving⟩ := ih (hstate.trans h)
      simp only [closeWithoutControls]
      exact ⟨.append hframes hrest, hserving⟩

theorem onControlDropped_opened (h : e.connection.localState = .opened) :
    Run.EndsAt (fun frame => frame.isClose = true) e.onControlDropped.1.ClosePut
        e.onControlDropped.2 ∧ e.onControlDropped.1.Reached := by
  obtain ⟨hends, hserving⟩ := closeWithoutControls_spec
    (e := { e with sessionFramesClosed := true }) h e.outgoingSessionFrames
  simp only [onControlDropped, h]
  split
  · exact ⟨hends.imp fun _ => closePut_stop _ _, reached_of_silent rfl⟩
  · exact ⟨hends.imp fun hwritten => .inl hwritten, hserving⟩

/-- A connection that waits for the Close of the peer. -/
def AwaitsClose (e : ConnectionEngine) : Prop :=
  e.connection.localState = .closeSent ∨ e.connection.localState = .discarding

theorem AwaitsClose.closeWritten (h : e.AwaitsClose) : e.connection.closeWritten = true := by
  rcases h with h | h <;> simp [Connection.closeWritten, h]

theorem onControlDropped_awaitsClose (h : e.AwaitsClose ∨ e.connection.localState = .end) :
    e.onControlDropped.2 = [] ∧ e.onControlDropped.1.ClosePut ∧ e.onControlDropped.1.Reached := by
  rcases h with h | h
  · have hwritten := h.closeWritten
    have hserving : e.Serving := .inr h
    rcases h with h | h <;> simp only [onControlDropped, h] <;> exact ⟨trivial, .inl hwritten, hserving⟩
  · simp only [onControlDropped, h]
    exact ⟨trivial, closePut_stop _ _, reached_of_silent rfl⟩

/-! ## Incoming frames -/

theorem sendToSession_localState (c : Connection) (relay : SessionId) (frame : SessionFrame) :
    (c.sendToSession relay frame).2.localState = c.localState := by
  simp only [Connection.sendToSession]
  split <;> rfl

theorem allocateSession_localState (c : Connection) (tx : SessionId) :
    (c.allocateSession tx).2.localState = c.localState := by
  simp only [Connection.allocateSession]
  split
  all_goals try rfl
  split <;> rfl

theorem onIncomingBegin_localState (c : Connection) (channel : UInt16) (begin' : Begin)
    (newSession : SessionId) :
    (c.onIncomingBegin channel begin' newSession).2.localState = c.localState := by
  have hinner : (c.onIncomingBeginInner channel begin').2.localState = c.localState := by
    simp only [Connection.onIncomingBeginInner]
    split
    · split
      · split <;> rfl
      · rfl
    · rfl
  simp only [Connection.onIncomingBegin]
  cases hout : c.onIncomingBeginInner channel begin' with
  | mk result c' =>
      rw [hout] at hinner
      simp only at hinner
      cases result with
      | error error => exact hinner
      | ok relay =>
          cases relay with
          | some relay => exact (sendToSession_localState c' relay _).trans hinner
          | none =>
              simp only
              split
              · exact hinner
              · have hallocate := allocateSession_localState c' newSession
                cases hnew : c'.allocateSession newSession with
                | mk result c'' =>
                    rw [hnew] at hallocate
                    cases result with
                    | error error => exact hallocate.trans hinner
                    | ok outgoingChannel =>
                        simp only
                        split <;> exact hallocate.trans hinner

theorem onIncomingEnd_localState (c : Connection) (channel : UInt16) (end' : End) :
    (c.onIncomingEnd channel end').2.localState = c.localState := by
  simp only [Connection.onIncomingEnd]
  split
  · split
    · rfl
    · exact sendToSession_localState _ _ _
  · rfl

theorem forwardToSession_spec (e : ConnectionEngine) (frame : SessionFrame) :
    (e.forwardToSession frame).frames = [] ∧ (e.forwardToSession frame).engine.phase = e.phase ∧
      (e.forwardToSession frame).engine.connection.localState = e.connection.localState := by
  simp only [forwardToSession]
  split
  · split
    · exact ⟨rfl, rfl, rfl⟩
    · next relay _ =>
        have hsend := sendToSession_localState e.connection relay frame
        cases hout : e.connection.sendToSession relay frame with
        | mk result connection =>
            rw [hout] at hsend
            cases result <;> exact ⟨rfl, rfl, hsend⟩
  · exact ⟨rfl, rfl, rfl⟩

/-- A frame other than Close makes the engine write nothing. -/
theorem onIncoming_other (e : ConnectionEngine) {frame : Frame} (hclose : frame.isClose = false)
    (newSession : SessionId) :
    (e.onIncoming frame newSession).frames = [] ∧
      (e.onIncoming frame newSession).engine.phase = e.phase ∧
      (e.Serving → (e.onIncoming frame newSession).engine.connection.localState =
        e.connection.localState) := by
  have hforward : ∀ frame : SessionFrame, (e.forwardToSession frame).frames = [] ∧
      (e.forwardToSession frame).engine.phase = e.phase ∧
      (e.Serving → (e.forwardToSession frame).engine.connection.localState =
        e.connection.localState) := by
    intro frame
    obtain ⟨hframes, hphase, hstate⟩ := e.forwardToSession_spec frame
    exact ⟨hframes, hphase, fun _ => hstate⟩
  obtain ⟨channel, body⟩ := frame
  by_cases hdiscarding : e.connection.localState = .discarding
  · have hskip : e.onIncoming ⟨channel, body⟩ newSession = ⟨[], .running .continue, e⟩ := by
      cases body <;> simp_all [onIncoming, Frame.isClose]
    rw [hskip]
    exact ⟨rfl, rfl, fun _ => rfl⟩
  · cases body with
    | close close => cases hclose
    | «open» open' =>
        simp only [onIncoming, hdiscarding, decide_false, Bool.false_and, Bool.false_eq_true, if_false]
        -- a connection that is open takes no second Open
        have hopen : e.Serving → (e.connection.onIncomingOpen open').2 = e.connection := by
          rintro (h | h | h) <;> simp [Connection.onIncomingOpen, h]
        generalize open'.idleTimeOut = idleTimeOut
        generalize e.connection.onIncomingOpen open' = out at hopen ⊢
        obtain ⟨result, connection⟩ := out
        have hstate : e.Serving → connection.localState = e.connection.localState :=
          fun h => congrArg Connection.localState (hopen h)
        split
        · next heq =>
            cases heq
            exact ⟨rfl, rfl, hstate⟩
        · next heq =>
            cases heq
            exact ⟨rfl, rfl, hstate⟩
        · next heq _ =>
            cases heq
            exact ⟨rfl, rfl, hstate⟩
    | begin begin' =>
        simp only [onIncoming, hdiscarding, decide_false, Bool.false_and, Bool.false_eq_true, if_false]
        have hstate := onIncomingBegin_localState e.connection channel begin' newSession
        generalize e.connection.onIncomingBegin channel begin' newSession = out at hstate ⊢
        obtain ⟨result, connection⟩ := out
        cases result <;> exact ⟨rfl, rfl, fun _ => hstate⟩
    | «end» end' =>
        simp only [onIncoming, hdiscarding, decide_false, Bool.false_and, Bool.false_eq_true, if_false]
        have hstate := onIncomingEnd_localState e.connection channel end'
        generalize e.connection.onIncomingEnd channel end' = out at hstate ⊢
        obtain ⟨result, connection⟩ := out
        cases result <;> exact ⟨rfl, rfl, fun _ => hstate⟩
    | attach | flow | transfer | disposition | detach =>
        simp only [onIncoming, hdiscarding, decide_false, Bool.false_and, Bool.false_eq_true, if_false]
        exact hforward _
    | empty =>
        simp only [onIncoming, hdiscarding, decide_false, Bool.false_and, Bool.false_eq_true, if_false]
        exact ⟨rfl, rfl, fun _ => rfl⟩

/-- The Close of the peer answers the one that was written. -/
theorem onIncomingClose_awaitsClose (h : e.AwaitsClose) (close : Close) :
    (e.onIncomingClose close).frames = [] ∧
      (e.onIncomingClose close).engine.connection.localState = .end ∧
      (e.onIncomingClose close).outcome ≠ .running .continue := by
  have hend : (e.connection.onIncomingClose close).2.localState = .end := by
    rcases h with h | h <;> simp only [Connection.onIncomingClose, h] <;> split <;> rfl
  simp only [onIncomingClose]
  generalize e.connection.onIncomingClose close = out at hend ⊢
  obtain ⟨result, connection⟩ := out
  simp only at hend ⊢
  rw [if_neg (by simp [hend])]
  cases result with
  | ok _ => exact ⟨rfl, hend, by simp [handled, withConnection, hend]⟩
  | error error => exact ⟨rfl, hend, by simp [failed]⟩

/-- The Close of the peer is answered at once and the loop is left. -/
theorem onIncomingClose_opened (h : e.connection.localState = .opened) (close : Close) :
    Run.EndsAt (fun frame => frame.isClose = true)
        ((e.onIncomingClose close).engine.connection.closeWritten = true)
        (e.onIncomingClose close).frames ∧
      (e.onIncomingClose close).outcome ≠ .running .continue := by
  have hreceived : (e.connection.onIncomingClose close).2.localState = .closeReceived ∧
      ∃ error, (e.connection.onIncomingClose close).1 = .error error := by
    simp only [Connection.onIncomingClose, h]
    split <;> exact ⟨rfl, _, rfl⟩
  simp only [onIncomingClose]
  generalize e.connection.onIncomingClose close = out at hreceived ⊢
  obtain ⟨result, connection⟩ := out
  obtain ⟨hstate, error, herror⟩ := hreceived
  simp only at hstate herror ⊢
  subst herror
  rw [if_pos hstate]
  have hclosing := drainAndClose_spec (e := e.withConnection connection) (.inr hstate) none
  generalize (e.withConnection connection).drainAndClose none = closing at hclosing ⊢
  obtain ⟨hends, -, -⟩ := hclosing
  cases houtcome : closing.outcome with
  | running running => exact ⟨hends, by simp [failed]⟩
  | failed error => exact ⟨hends, by simp [houtcome]⟩
  | panicked => exact ⟨hends, by simp [houtcome]⟩

theorem onIncoming_close (e : ConnectionEngine) (channel : UInt16) (close : Close)
    (newSession : SessionId) :
    e.onIncoming ⟨channel, .close close⟩ newSession = e.onIncomingClose close := by
  simp [onIncoming]

/-! ## One event -/

/-- An incoming frame after the Close has been written. -/
theorem onIncoming_awaitsClose (h : e.AwaitsClose) (frame : Frame) (newSession : SessionId) :
    (e.onIncoming frame newSession).frames = [] ∧
      ((e.onIncoming frame newSession).engine.AwaitsClose ∨
        (e.onIncoming frame newSession).engine.connection.localState = .end) ∧
      ((e.onIncoming frame newSession).outcome = .running .continue →
        (e.onIncoming frame newSession).engine.phase = e.phase ∧
          (e.onIncoming frame newSession).engine.Serving) := by
  cases hclose : frame.isClose with
  | false =>
      obtain ⟨hframes, hphase, hstate⟩ := e.onIncoming_other hclose newSession
      have hawaits : (e.onIncoming frame newSession).engine.AwaitsClose := by
        simp only [AwaitsClose, hstate (.inr h)]
        exact h
      exact ⟨hframes, .inl hawaits, fun _ => ⟨hphase, .inr hawaits⟩⟩
  | true =>
      obtain ⟨channel, body⟩ := frame
      cases body with
      | close close =>
          obtain ⟨hframes, hstate, houtcome⟩ := onIncomingClose_awaitsClose h close
          rw [onIncoming_close]
          exact ⟨hframes, .inr hstate, fun hcontinue => absurd hcontinue houtcome⟩
      | _ => cases hclose

theorem closeWritten_of_ended (h : e.AwaitsClose ∨ e.connection.localState = .end) :
    e.connection.closeWritten = true := by
  rcases h with h | h
  · exact h.closeWritten
  · simp [Connection.closeWritten, h]

/-- A control other than Close writes nothing and leaves the state alone. -/
theorem onControl_other (e : ConnectionEngine) {control : ConnectionControl}
    (hcontrol : ∀ error, control ≠ .close error) :
    (e.onControl control).frames = [] ∧ (e.onControl control).engine.phase = e.phase ∧
      (e.onControl control).engine.connection.localState = e.connection.localState := by
  cases control with
  | close error => exact absurd rfl (hcontrol error)
  | allocateSession tx responderDropped =>
      have hstate := allocateSession_localState e.connection tx
      simp only [onControl]
      split <;> exact ⟨rfl, rfl, hstate⟩
  | deallocateSession channel =>
      have hstate : ∀ connection, e.connection.deallocateSession channel = some connection →
          connection.localState = e.connection.localState := by
        intro connection hconnection
        simp only [Connection.deallocateSession] at hconnection
        split at hconnection
        · cases hconnection
          rfl
        · cases hconnection
      simp only [onControl]
      split
      · exact ⟨rfl, rfl, rfl⟩
      · next connection hconnection => exact ⟨rfl, rfl, hstate connection hconnection⟩

/-- The `Close` control once the stop reason is set. -/
def closeControl (e : ConnectionEngine) (error : Option Error) : Handled :=
  match (e.drainAndClose error).outcome with
  | .running _ => (e.drainAndClose error).engine.handled (e.drainAndClose error).frames
  | _ => e.drainAndClose error

/-- The Close control of an open connection. -/
theorem onControl_close (h : e.connection.localState = .opened) (error : Option Error) :
    Run.EndsAt (fun frame => frame.isClose = true)
        ((e.onControl (.close error)).engine.connection.closeWritten = true)
        (e.onControl (.close error)).frames ∧
      (e.onControl (.close error)).engine.phase = e.phase ∧
      ((e.onControl (.close error)).outcome = .running .continue →
        (e.onControl (.close error)).engine.Serving) := by
  have hclose : ∀ e' : ConnectionEngine, e'.connection.localState = .opened → e'.phase = e.phase →
      ∀ out : Handled, out = e'.closeControl error →
      Run.EndsAt (fun frame => frame.isClose = true)
          (out.engine.connection.closeWritten = true) out.frames ∧
        out.engine.phase = e.phase ∧ (out.outcome = .running .continue → out.engine.Serving) := by
    rintro e' hopened hphase _ rfl
    obtain ⟨hends, hphase', hserving⟩ := drainAndClose_spec (.inl hopened) error
    unfold closeControl
    generalize e'.drainAndClose error = closing at hends hphase' hserving ⊢
    cases houtcome : closing.outcome with
    | running running =>
        exact ⟨hends, hphase'.trans hphase, fun _ => (hserving running houtcome).1 hopened⟩
    | failed error => exact ⟨hends, hphase'.trans hphase, by simp [houtcome]⟩
    | panicked => exact ⟨hends, hphase'.trans hphase, by simp [houtcome]⟩
  cases error with
  | none => exact hclose e h rfl _ rfl
  | some error =>
      exact hclose (e.withConnection (e.connection.setConnectionStopReason (.closedWithError error)))
        h rfl _ rfl

theorem Serving.awaitsClose (h : e.Serving) (hwritten : e.connection.closeWritten = true) :
    e.AwaitsClose := by
  rcases h with h | h
  · simp [Connection.closeWritten, h] at hwritten
  · exact h

/-! ## What a phase does on an event -/

theorem at_phase {phase : ConnectionEnginePhase} (hphase : e.phase = phase) : { e with phase } = e := by
  subst hphase
  rfl

/-- Whether the engine does anything on the event. -/
def heeds (e : ConnectionEngine) : ConnectionEngineEvent → Bool
  | .open => (e.phase matches .headerExchanged)
  | .incoming _ _ =>
      (e.phase matches .opening | .eventLoop | .controlDropped | .waitForRemoteClose _ _)
  | .control _ | .sessionFrame | .heartbeat => (e.phase matches .eventLoop)
  | .handOver _ | .sessions _ _ | .transport _ => true

theorem step_of_not_heeds {event : ConnectionEngineEvent} (h : e.heeds event = false) :
    e.step event = (e, []) := by
  cases hphase : e.phase with
  | _ =>
      rw [← at_phase hphase] at h ⊢
      cases event <;> first | rfl | cases h

theorem step_handOver (frame : SessionFrame) :
    e.step (.handOver frame) =
      if e.sessionFramesClosed then (e, [])
      else ({ e with outgoingSessionFrames := e.outgoingSessionFrames ++ [frame] }, []) := rfl

theorem step_transport (h : e.phase ≠ .controlDropped) (refuses : Frame → Bool) :
    e.step (.transport refuses) = ({ e with refuses }, []) := by
  cases hphase : e.phase with
  | controlDropped => exact absurd hphase h
  | _ =>
      rw [← at_phase hphase]
      rfl

section

variable (hphase : e.phase = .eventLoop)
include hphase

theorem step_incoming_none (newSession : SessionId) :
    e.step (.incoming none newSession) = e.onIncomingClosed := by
  rw [← at_phase hphase]
  rfl

theorem step_incoming_error (error : TransportError) (newSession : SessionId) :
    e.step (.incoming (some (.error error)) newSession) = e.onError (.transportError error) := by
  rw [← at_phase hphase]
  rfl

theorem step_incoming_ok (frame : Frame) (newSession : SessionId) :
    e.step (.incoming (some (.ok frame)) newSession) = settle (e.onIncoming frame newSession) := by
  rw [← at_phase hphase]
  rfl

theorem step_control_none : e.step (.control none) = e.onControlDropped := by
  rw [← at_phase hphase]
  rfl

theorem step_control_some (control : ConnectionControl) :
    e.step (.control (some control)) = settle (e.onControl control) := by
  rw [← at_phase hphase]
  rfl

theorem step_sessionFrame_nil (hframes : e.outgoingSessionFrames = []) :
    e.step .sessionFrame = (e, []) := by
  have hsame : { e with phase := .eventLoop, outgoingSessionFrames := [] } = e := by
    rw [← hphase, ← hframes]
  rw [← hsame]
  rfl

theorem step_sessionFrame_cons {frame : SessionFrame} {pending : List SessionFrame}
    (hframes : e.outgoingSessionFrames = frame :: pending) :
    e.step .sessionFrame =
      settle (onOutgoingSessionFrames { e with outgoingSessionFrames := pending } frame) := by
  have hsame : { e with phase := .eventLoop, outgoingSessionFrames := frame :: pending } = e := by
    rw [← hphase, ← hframes]
  rw [← hsame]
  rfl

theorem step_heartbeat_none (hbeat : e.heartbeat = none) : e.step .heartbeat = (e, []) := by
  have hsame : { e with phase := .eventLoop, heartbeat := none } = e := by
    rw [← hphase, ← hbeat]
  rw [← hsame]
  rfl

theorem step_heartbeat_some {period : Milliseconds} (hbeat : e.heartbeat = some period) :
    e.step .heartbeat = settle e.onHeartbeat := by
  have hsame : { e with phase := .eventLoop, heartbeat := some period } = e := by
    rw [← hphase, ← hbeat]
  rw [← hsame]
  rfl

end

/-- While the engine waits for the Close of the peer nothing is written. -/
theorem onWaiting_silent (discardOther : Bool) (cause : Option ConnectionInnerError)
    (hphase : e.phase = .waitForRemoteClose discardOther cause) (frame : Frame)
    (newSession : SessionId) :
    (e.onWaiting discardOther cause frame newSession).2 = [] ∧
      (e.onWaiting discardOther cause frame newSession).1.phase.silent = true := by
  cases hclose : frame.isClose with
  | true =>
      obtain ⟨channel, body⟩ := frame
      cases body with
      | close close =>
          simp only [onWaiting]
          split <;> exact ⟨rfl, by simp [ConnectionEnginePhase.silent]⟩
      | _ => cases hclose
  | false =>
      obtain ⟨hframes, hphase', -⟩ := e.onIncoming_other hclose newSession
      obtain ⟨channel, body⟩ := frame
      cases body with
      | close close => cases hclose
      | _ =>
          simp only [onWaiting]
          split
          · exact ⟨rfl, by simp [hphase, ConnectionEnginePhase.silent]⟩
          · split
            · exact ⟨hframes, by simp [hphase', hphase, ConnectionEnginePhase.silent]⟩
            · exact ⟨hframes, by simp [ConnectionEnginePhase.silent]⟩
            · exact ⟨hframes, rfl⟩

theorem Serving.reached (h : e.Serving) (hphase : e.phase = .eventLoop) : e.Reached := by
  simp only [Reached, hphase]
  exact h

theorem eventLoop_incoming_silent (hphase : e.phase = .eventLoop) (h : e.AwaitsClose)
    (item : Option (Except TransportError Frame)) (newSession : SessionId) :
    (e.step (.incoming item newSession)).2 = [] ∧ (e.step (.incoming item newSession)).1.ClosePut ∧
      (e.step (.incoming item newSession)).1.Reached := by
  have hwritten := h.closeWritten
  cases item with
  | none =>
      rw [step_incoming_none hphase]
      simp only [onIncomingClosed]
      rcases h with h | h
      · simp only [h]
        exact ⟨onError_closeWritten hwritten _, .inr (onError_silent _ _),
          reached_of_silent (onError_silent _ _)⟩
      · simp only [h]
        exact ⟨trivial, closePut_stop _ _, reached_of_silent rfl⟩
  | some item =>
      cases item with
      | error error =>
          rw [step_incoming_error hphase]
          exact ⟨onError_closeWritten hwritten _, .inr (onError_silent _ _),
            reached_of_silent (onError_silent _ _)⟩
      | ok frame =>
          rw [step_incoming_ok hphase]
          obtain ⟨hframes, hended, hloop⟩ := onIncoming_awaitsClose h frame newSession
          obtain ⟨hsettle, hput⟩ := settle_closeWritten (closeWritten_of_ended hended)
          refine ⟨hsettle.trans hframes, hput, settle_reached fun hcontinue => ?_⟩
          obtain ⟨hphase', hserving⟩ := hloop hcontinue
          exact hserving.reached (hphase'.trans hphase)

/-- Once the Close is written a quiet event makes the loop write nothing. -/
theorem eventLoop_silent (hphase : e.phase = .eventLoop) (h : e.AwaitsClose)
    {event : ConnectionEngineEvent} (hquiet : e.Quiet event) :
    (e.step event).2 = [] ∧ (e.step event).1.ClosePut ∧ (e.step event).1.Reached := by
  have hwritten := h.closeWritten
  have hput : e.ClosePut := .inl hwritten
  have hreached : e.Reached := Serving.reached (.inr h) hphase
  cases event with
  | «open» =>
      rw [step_of_not_heeds (by simp only [heeds, hphase])]
      exact ⟨rfl, hput, hreached⟩
  | incoming item newSession => exact eventLoop_incoming_silent hphase h item newSession
  | control control =>
      cases control with
      | none =>
          rw [step_control_none hphase]
          exact onControlDropped_awaitsClose (.inl h)
      | some control =>
          rw [step_control_some hphase]
          have hcontrol : ∀ error, control ≠ .close error := by
            rintro error rfl
            simp only [Quiet, hphase, hwritten] at hquiet
            cases hquiet
          obtain ⟨hframes, hphase', hstate⟩ := e.onControl_other hcontrol
          have hkept : (e.onControl control).engine.connection.closeWritten = true := by
            simp only [Connection.closeWritten, hstate]
            exact hwritten
          have hawaits : (e.onControl control).engine.AwaitsClose := by
            simp only [AwaitsClose, hstate]
            exact h
          obtain ⟨hsettle, hput⟩ := settle_closeWritten hkept
          exact ⟨hsettle.trans hframes, hput,
            settle_reached fun _ => Serving.reached (.inr hawaits) (hphase'.trans hphase)⟩
  | sessionFrame =>
      cases hframes : e.outgoingSessionFrames with
      | nil =>
          rw [step_sessionFrame_nil hphase hframes]
          exact ⟨rfl, hput, hreached⟩
      | cons frame pending =>
          rw [step_sessionFrame_cons hphase hframes]
          have hout : onOutgoingSessionFrames { e with outgoingSessionFrames := pending } frame =
              failed { e with outgoingSessionFrames := pending } [] .illegalState := by
            rcases h with h | h <;> simp [onOutgoingSessionFrames, h]
          rw [hout]
          have hkept : (failed { e with outgoingSessionFrames := pending } []
              .illegalState).engine.connection.closeWritten = true := hwritten
          obtain ⟨hsettle, hput⟩ := settle_closeWritten hkept
          exact ⟨hsettle, hput, settle_reached nofun⟩
  | handOver frame =>
      rw [step_handOver]
      split
      · exact ⟨rfl, hput, hreached⟩
      · exact ⟨rfl, .inl hwritten, hreached⟩
  | heartbeat =>
      cases hbeat : e.heartbeat with
      | none =>
          rw [step_heartbeat_none hphase hbeat]
          exact ⟨rfl, hput, hreached⟩
      | some period =>
          rw [step_heartbeat_some hphase hbeat]
          simp only [Quiet, hphase, hbeat] at hquiet
          rcases h with h | h
          · have hsilent : e.onHeartbeat = ⟨[], .running .continue, e⟩ := by simp [onHeartbeat, h]
            rw [hsilent]
            exact ⟨rfl, hput, hreached⟩
          · exact absurd h hquiet
  | sessions sessions listener => exact ⟨rfl, .inl hwritten, hreached⟩
  | transport refuses =>
      rw [step_transport (by simp [hphase])]
      exact ⟨rfl, .inl hwritten, Serving.reached (.inr h) hphase⟩

/-- In the inner loop nothing is written once the Close is. -/
theorem controlDropped_silent (hphase : e.phase = .controlDropped) (h : e.AwaitsClose)
    (event : ConnectionEngineEvent) :
    (e.step event).2 = [] ∧ (e.step event).1.ClosePut ∧ (e.step event).1.Reached := by
  have hwritten := h.closeWritten
  have hput : e.ClosePut := .inl hwritten
  have hreached : e.Reached := by
    simp only [Reached, hphase]
    exact .inr h
  have hawaits : e.awaitsFrame = true := by
    rcases h with h | h <;> simp [awaitsFrame, h]
  cases event with
  | incoming item newSession =>
      cases item with
      | none =>
          have hstep : e.step (.incoming none newSession) =
              if e.awaitsFrame then (e.stop (.ok ()), []) else (e, []) := by
            rw [← at_phase hphase]
            rfl
          rw [hstep, hawaits, if_pos rfl]
          exact ⟨rfl, closePut_stop _ _, reached_of_silent rfl⟩
      | some item =>
          cases item with
          | error error =>
              have hstep : e.step (.incoming (some (.error error)) newSession) = (e, []) := by
                rw [← at_phase hphase]
                rfl
              rw [hstep]
              exact ⟨rfl, hput, hreached⟩
          | ok frame =>
              obtain ⟨hframes, hended, -⟩ := onIncoming_awaitsClose h frame newSession
              obtain ⟨hdropped, hput, hreached⟩ := onControlDropped_awaitsClose hended
              simp only [step, hphase, hawaits, if_true]
              split
              · exact ⟨hframes, .inr rfl, reached_of_silent rfl⟩
              · simp only [hframes, hdropped, List.append_nil]
                exact ⟨trivial, hput, hreached⟩
  | handOver frame =>
      rw [step_handOver]
      split
      · exact ⟨rfl, hput, hreached⟩
      · exact ⟨rfl, .inl hwritten, hreached⟩
  | sessions sessions listener => exact ⟨rfl, .inl hwritten, hreached⟩
  | transport refuses =>
      have hawaits' : ({ e with refuses } : ConnectionEngine).awaitsFrame = true := hawaits
      simp only [step, hawaits', if_true]
      split <;> exact ⟨rfl, .inl hwritten, hreached⟩
  | «open» | control | sessionFrame | heartbeat =>
      rw [step_of_not_heeds (by simp only [heeds, hphase])]
      exact ⟨rfl, hput, hreached⟩

/-- In a phase in which nothing is written nothing is written, and the phase is never left. -/
theorem step_of_silent (h : e.phase.silent = true) (event : ConnectionEngineEvent) :
    (e.step event).2 = [] ∧ (e.step event).1.phase.silent = true := by
  cases hphase : e.phase with
  | headerExchanged | opening | eventLoop | controlDropped =>
      simp [hphase, ConnectionEnginePhase.silent] at h
  | stopped | panicked =>
      cases event with
      | handOver frame =>
          rw [step_handOver]
          split <;> exact ⟨rfl, h⟩
      | sessions sessions listener => exact ⟨rfl, h⟩
      | transport refuses =>
          rw [step_transport (by simp [hphase])]
          exact ⟨rfl, h⟩
      | «open» | incoming | control | sessionFrame | heartbeat =>
          rw [step_of_not_heeds (by simp only [heeds, hphase])]
          exact ⟨rfl, h⟩
  | waitForRemoteClose discardOther cause =>
      cases event with
      | incoming item newSession =>
          cases item with
          | none =>
              have hstep : e.step (.incoming none newSession) =
                  (e.halt cause (some (.transportError .io)), []) := by
                rw [← at_phase hphase]
                rfl
              rw [hstep]
              exact ⟨rfl, by simp [ConnectionEnginePhase.silent]⟩
          | some item =>
              cases item with
              | error error =>
                  have hstep : e.step (.incoming (some (.error error)) newSession) =
                      (e.halt cause (some (.transportError error)), []) := by
                    rw [← at_phase hphase]
                    rfl
                  rw [hstep]
                  exact ⟨rfl, by simp [ConnectionEnginePhase.silent]⟩
              | ok frame =>
                  have hstep : e.step (.incoming (some (.ok frame)) newSession) =
                      e.onWaiting discardOther cause frame newSession := by
                    rw [← at_phase hphase]
                    rfl
                  rw [hstep]
                  exact onWaiting_silent discardOther cause hphase frame newSession
      | handOver frame =>
          rw [step_handOver]
          split <;> exact ⟨rfl, h⟩
      | sessions sessions listener => exact ⟨rfl, h⟩
      | transport refuses =>
          rw [step_transport (by simp [hphase])]
          exact ⟨rfl, h⟩
      | «open» | control | sessionFrame | heartbeat =>
          rw [step_of_not_heeds (by simp only [heeds, hphase])]
          exact ⟨rfl, h⟩

theorem step_silent {event : ConnectionEngineEvent} (hreached : e.Reached) (hquiet : e.Quiet event)
    (h : e.ClosePut) : (e.step event).2 = [] ∧ (e.step event).1.ClosePut := by
  rcases h with hwritten | hsilent
  · cases hphase : e.phase with
    | headerExchanged =>
        simp only [Reached, hphase] at hreached
        simp [Connection.closeWritten, hreached] at hwritten
    | opening =>
        simp only [Reached, hphase] at hreached
        simp [Connection.closeWritten, hreached] at hwritten
    | eventLoop =>
        simp only [Reached, hphase] at hreached
        obtain ⟨hframes, hput, -⟩ := eventLoop_silent hphase (hreached.awaitsClose hwritten) hquiet
        exact ⟨hframes, hput⟩
    | controlDropped =>
        simp only [Reached, hphase] at hreached
        obtain ⟨hframes, hput, -⟩ :=
          controlDropped_silent hphase (hreached.awaitsClose hwritten) event
        exact ⟨hframes, hput⟩
    | waitForRemoteClose | stopped | panicked =>
        obtain ⟨hframes, hsilent⟩ := step_of_silent (e := e) (by rw [hphase]; rfl) event
        exact ⟨hframes, .inr hsilent⟩
  · obtain ⟨hframes, hsilent⟩ := step_of_silent hsilent event
    exact ⟨hframes, .inr hsilent⟩

/-- The Open is written and the connection waits for that of the peer. -/
theorem headerExchanged_step (hphase : e.phase = .headerExchanged)
    (h : e.connection.localState = .headerExchange) (event : ConnectionEngineEvent) :
    Run.EndsAt (fun frame => frame.isClose = true) (e.step event).1.ClosePut (e.step event).2 ∧
      (e.step event).1.Reached := by
  have hreached : e.Reached := by
    simp only [Reached, hphase]
    exact h
  cases event with
  | «open» =>
      have hstep : e.step .open = e.sendOpen := by
        rw [← at_phase hphase]
        rfl
      rw [hstep, sendOpen]
      split
      · exact ⟨closeConnection_endsAt _ _ _, reached_of_silent (closeConnection_silent _ _ _)⟩
      · simp only [Connection.openSent, h]
        exact ⟨.inl (by simp [Frame.isClose]), rfl⟩
  | handOver frame =>
      rw [step_handOver]
      split <;> exact ⟨.inl (by simp), hreached⟩
  | sessions sessions listener => exact ⟨.inl (by simp [step]), hreached⟩
  | transport refuses =>
      rw [step_transport (by simp [hphase])]
      exact ⟨.inl (by simp), hreached⟩
  | incoming | control | sessionFrame | heartbeat =>
      rw [step_of_not_heeds (by simp only [heeds, hphase])]
      exact ⟨.inl (by simp), hreached⟩

theorem opening_step (hphase : e.phase = .opening) (h : e.connection.localState = .openSent)
    (event : ConnectionEngineEvent) :
    Run.EndsAt (fun frame => frame.isClose = true) (e.step event).1.ClosePut (e.step event).2 ∧
      (e.step event).1.Reached := by
  have hreached : e.Reached := by
    simp only [Reached, hphase]
    exact h
  have hfailed : ∀ e' : ConnectionEngine,
      Run.EndsAt (fun frame => frame.isClose = true) e'.openFailed.1.ClosePut e'.openFailed.2 ∧
        e'.openFailed.1.Reached := fun e' =>
    ⟨closeConnection_endsAt _ _ _, reached_of_silent (closeConnection_silent _ _ _)⟩
  cases event with
  | incoming item newSession =>
      cases item with
      | none =>
          have hstep : e.step (.incoming none newSession) = e.openFailed := by
            rw [← at_phase hphase]
            rfl
          rw [hstep]
          exact hfailed e
      | some item =>
          cases item with
          | error error =>
              have hstep : e.step (.incoming (some (.error error)) newSession) = e.openFailed := by
                rw [← at_phase hphase]
                rfl
              rw [hstep]
              exact hfailed e
          | ok frame =>
              have hstep : e.step (.incoming (some (.ok frame)) newSession) = e.onOpening frame := by
                rw [← at_phase hphase]
                rfl
              rw [hstep]
              simp only [onOpening]
              split
              · simp only [Connection.onIncomingOpen, h]
                exact ⟨.inl (by simp), .inl rfl⟩
              · exact hfailed e
  | handOver frame =>
      rw [step_handOver]
      split <;> exact ⟨.inl (by simp), hreached⟩
  | sessions sessions listener => exact ⟨.inl (by simp [step]), hreached⟩
  | transport refuses =>
      rw [step_transport (by simp [hphase])]
      exact ⟨.inl (by simp), hreached⟩
  | «open» | control | sessionFrame | heartbeat =>
      rw [step_of_not_heeds (by simp only [heeds, hphase])]
      exact ⟨.inl (by simp), hreached⟩

/-- A call that writes no Close and leaves the connection open. -/
theorem settle_opened (hphase : e.phase = .eventLoop) (h : e.connection.localState = .opened)
    {out : Handled} (hframes : ∀ frame ∈ out.frames, ¬frame.isClose = true)
    (hphase' : out.engine.phase = e.phase)
    (hstate : out.engine.connection.localState = e.connection.localState) :
    Run.EndsAt (fun frame => frame.isClose = true) (settle out).1.ClosePut (settle out).2 ∧
      (settle out).1.Reached := by
  refine ⟨settle_endsAt (.inl hframes), settle_reached fun _ => ?_⟩
  exact Serving.reached (.inl (hstate.trans h)) (hphase'.trans hphase)

theorem eventLoop_incoming (hphase : e.phase = .eventLoop) (h : e.connection.localState = .opened)
    (item : Option (Except TransportError Frame)) (newSession : SessionId) :
    Run.EndsAt (fun frame => frame.isClose = true) (e.step (.incoming item newSession)).1.ClosePut
        (e.step (.incoming item newSession)).2 ∧
      (e.step (.incoming item newSession)).1.Reached := by
  cases item with
  | none =>
      rw [step_incoming_none hphase]
      simp only [onIncomingClosed, h]
      exact ⟨onError_endsAt _ _, reached_of_silent (onError_silent _ _)⟩
  | some item =>
      cases item with
      | error error =>
          rw [step_incoming_error hphase]
          exact ⟨onError_endsAt _ _, reached_of_silent (onError_silent _ _)⟩
      | ok frame =>
          rw [step_incoming_ok hphase]
          cases hclose : frame.isClose with
          | false =>
              obtain ⟨hframes, hphase', hstate⟩ := e.onIncoming_other hclose newSession
              exact settle_opened hphase h (by simp [hframes]) hphase' (hstate (.inl h))
          | true =>
              obtain ⟨channel, body⟩ := frame
              cases body with
              | close close =>
                  obtain ⟨hends, houtcome⟩ := onIncomingClose_opened h close
                  simp only [onIncoming_close]
                  exact ⟨settle_endsAt hends,
                    settle_reached fun hcontinue => absurd hcontinue houtcome⟩
              | _ => cases hclose

/-- One event in the loop of an open connection. -/
theorem eventLoop_step (hphase : e.phase = .eventLoop) (h : e.connection.localState = .opened)
    (event : ConnectionEngineEvent) :
    Run.EndsAt (fun frame => frame.isClose = true) (e.step event).1.ClosePut (e.step event).2 ∧
      (e.step event).1.Reached := by
  have hreached : e.Reached := Serving.reached (.inl h) hphase
  cases event with
  | incoming item newSession => exact eventLoop_incoming hphase h item newSession
  | control control =>
      cases control with
      | none =>
          rw [step_control_none hphase]
          exact onControlDropped_opened h
      | some control =>
          rw [step_control_some hphase]
          by_cases hclose : ∃ error, control = .close error
          · obtain ⟨error, rfl⟩ := hclose
            obtain ⟨hends, hphase', hserving⟩ := onControl_close h error
            exact ⟨settle_endsAt hends, settle_reached fun hcontinue =>
              (hserving hcontinue).reached (hphase'.trans hphase)⟩
          · obtain ⟨hframes, hphase', hstate⟩ :=
              e.onControl_other fun error hcontrol => hclose ⟨error, hcontrol⟩
            exact settle_opened hphase h (by simp [hframes]) hphase' hstate
  | sessionFrame =>
      cases hpending : e.outgoingSessionFrames with
      | nil =>
          rw [step_sessionFrame_nil hphase hpending]
          exact ⟨.inl (by simp), hreached⟩
      | cons frame pending =>
          rw [step_sessionFrame_cons hphase hpending]
          obtain ⟨hstate, hphase', hframes⟩ :=
            onOutgoingSessionFrames_spec { e with outgoingSessionFrames := pending } frame
          exact settle_opened hphase h hframes hphase' hstate
  | heartbeat =>
      cases hbeat : e.heartbeat with
      | none =>
          rw [step_heartbeat_none hphase hbeat]
          exact ⟨.inl (by simp), hreached⟩
      | some period =>
          rw [step_heartbeat_some hphase hbeat]
          refine settle_opened hphase h ?_ ?_ ?_
          · simp only [onHeartbeat, h]
            split <;> simp [failed, Frame.isClose, Frame.empty]
          · simp only [onHeartbeat, h]
            split <;> rfl
          · simp only [onHeartbeat, h]
            split <;> exact h
  | handOver frame =>
      rw [step_handOver]
      split <;> exact ⟨.inl (by simp), hreached⟩
  | sessions sessions listener => exact ⟨.inl (by simp [step]), hreached⟩
  | transport refuses =>
      rw [step_transport (by simp [hphase])]
      exact ⟨.inl (by simp), hreached⟩
  | «open» =>
      rw [step_of_not_heeds (by simp only [heeds, hphase])]
      exact ⟨.inl (by simp), hreached⟩

/-- One event in the inner loop while the Close cannot be written. -/
theorem controlDropped_step (hphase : e.phase = .controlDropped)
    (h : e.connection.localState = .opened) (event : ConnectionEngineEvent) :
    Run.EndsAt (fun frame => frame.isClose = true) (e.step event).1.ClosePut (e.step event).2 ∧
      (e.step event).1.Reached := by
  have hreached : e.Reached := by
    simp only [Reached, hphase]
    exact .inl h
  have hawaits : e.awaitsFrame = false := by simp [awaitsFrame, h]
  cases event with
  | incoming item newSession =>
      have hsame : e.step (.incoming item newSession) = (e, []) := by
        rcases item with _ | error | frame <;> simp [step, hphase, hawaits]
      rw [hsame]
      exact ⟨.inl (by simp), hreached⟩
  | transport refuses =>
      have hawaits' : ({ e with refuses } : ConnectionEngine).awaitsFrame = false := hawaits
      simp only [step, hawaits', Bool.false_eq_true, if_false]
      split
      · exact onControlDropped_opened (e := { e with refuses }) h
      · exact ⟨.inl (by simp), hreached⟩
  | handOver frame =>
      rw [step_handOver]
      split <;> exact ⟨.inl (by simp), hreached⟩
  | sessions sessions listener => exact ⟨.inl (by simp [step]), hreached⟩
  | «open» | control | sessionFrame | heartbeat =>
      rw [step_of_not_heeds (by simp only [heeds, hphase])]
      exact ⟨.inl (by simp), hreached⟩

/-- Any Close that an event makes the engine write is the last frame of that event. -/
theorem step_endsAt {event : ConnectionEngineEvent} (hreached : e.Reached) (hquiet : e.Quiet event) :
    Run.EndsAt (fun frame => frame.isClose = true) (e.step event).1.ClosePut (e.step event).2 ∧
      (e.step event).1.Reached := by
  cases hphase : e.phase with
  | headerExchanged =>
      simp only [Reached, hphase] at hreached
      exact headerExchanged_step hphase hreached event
  | opening =>
      simp only [Reached, hphase] at hreached
      exact opening_step hphase hreached event
  | eventLoop =>
      simp only [Reached, hphase] at hreached
      rcases hreached with h | h
      · exact eventLoop_step hphase h event
      · obtain ⟨hframes, -, hreached⟩ := eventLoop_silent hphase h hquiet
        exact ⟨.inl (by simp [hframes]), hreached⟩
  | controlDropped =>
      simp only [Reached, hphase] at hreached
      rcases hreached with h | h
      · exact controlDropped_step hphase h event
      · obtain ⟨hframes, -, hreached⟩ := controlDropped_silent hphase h event
        exact ⟨.inl (by simp [hframes]), hreached⟩
  | waitForRemoteClose | stopped | panicked =>
      obtain ⟨hframes, hsilent⟩ := step_of_silent (e := e) (by rw [hphase]; rfl) event
      exact ⟨.inl (by simp [hframes]), reached_of_silent hsilent⟩

/-- In every run whose events are quiet at most one Close is written, and nothing after it. -/
theorem close_is_last (connection : Connection) (refuses : Frame → Bool)
    (hstate : connection.localState = .headerExchange) (events : List ConnectionEngineEvent)
    (hquiet : Run.Along step Quiet (start connection refuses) events) :
    ((Run.run step (start connection refuses) events).2.filter Frame.isClose).length ≤ 1 ∧
    ∀ before frame after, (Run.run step (start connection refuses) events).2 =
      before ++ frame :: after → frame.isClose = true → after = [] := by
  have hends := Run.run_endsAt (fun _ _ hreached hquiet => (step_endsAt hreached hquiet).2)
    (fun _ _ hreached hquiet hput => step_silent hreached hquiet hput)
    (fun _ _ hreached hquiet => (step_endsAt hreached hquiet).1)
    (show (start connection refuses).Reached from hstate) hquiet
  refine ⟨?_, fun before frame after hframes hclose => hends.eq_nil hframes hclose⟩
  rcases hends with hnone | ⟨before, frame, hframes, hbefore, -⟩
  · rw [List.filter_eq_nil_iff.mpr hnone]
    exact Nat.zero_le 1
  · rw [hframes, List.filter_append, List.filter_eq_nil_iff.mpr hbefore, List.nil_append]
    exact List.length_filter_le _ _

section HeartbeatInDiscarding

private def plainOpen (idleTimeOut : Option Milliseconds) : Open where
  containerId := "peer"
  hostname := none
  maxFrameSize := 512
  channelMax := 7
  idleTimeOut
  outgoingLocales := none
  incomingLocales := none
  offeredCapabilities := none
  desiredCapabilities := none
  properties := none

private def negotiated : Connection :=
  .new .headerExchange (plainOpen none) none ⟨fun _ => ⟨[], false⟩⟩

private def openExchange : List ConnectionEngineEvent :=
  [.open, .incoming (some (.ok ⟨0, .open (plainOpen (some 100))⟩)) 0]

private def closeWithError : ConnectionEngineEvent :=
  .control (some (.close (some ⟨.amqpError .internalError, none, none⟩)))

/-- The connection is closed without an error while the heartbeat goes on: one Close, and nothing
after it. -/
theorem close_is_last_close_sent :
    let events := openExchange ++ [.heartbeat, .control (some (.close none)), .heartbeat]
    ((Run.run step (start negotiated fun _ => false) events).2.filter Frame.isClose).length ≤ 1 ∧
    ∀ before frame after, (Run.run step (start negotiated fun _ => false) events).2 =
      before ++ frame :: after → frame.isClose = true → after = [] := by
  refine close_is_last negotiated (fun _ => false) rfl _ ⟨trivial, trivial, ?_, rfl, ?_, trivial⟩
  · exact nofun
  · exact nofun

private def heartbeatInDiscarding : List ConnectionEngineEvent :=
  openExchange ++ [closeWithError, .heartbeat]

private theorem heartbeatInDiscarding_frames :
    (Run.run step (start negotiated fun _ => false) heartbeatInDiscarding).2.map Frame.isClose =
      [false, true, false] := by
  decide

/-- The connection is closed with an error: the next heartbeat writes an empty frame after the
Close. -/
theorem heartbeat_follows_close :
    ¬∀ (connection : Connection) (refuses : Frame → Bool),
      connection.localState = .headerExchange → ∀ events : List ConnectionEngineEvent,
      ((Run.run step (start connection refuses) events).2.filter Frame.isClose).length ≤ 1 ∧
      ∀ before frame after, (Run.run step (start connection refuses) events).2 =
        before ++ frame :: after → frame.isClose = true → after = [] := by
  intro hclaim
  obtain ⟨-, hlast⟩ := hclaim negotiated (fun _ => false) rfl heartbeatInDiscarding
  obtain ⟨first, rest, hframes, -, hrest⟩ :=
    List.map_eq_cons_iff.mp heartbeatInDiscarding_frames
  obtain ⟨second, rest', hrest', hsecond, hlength⟩ := List.map_eq_cons_iff.mp hrest
  rw [hrest'] at hframes
  have hnil := hlast [first] second rest' hframes hsecond
  rw [hnil] at hlength
  cases hlength

end HeartbeatInDiscarding

end ConnectionEngine

end Fe2o3Amqp
