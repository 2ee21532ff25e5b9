import Fe2o3Amqp.Connection.Channels

/-!
# The order of the outgoing frames

Sessions hand their frames to the connection in a queue.  Whatever happens on the connection, the
frames are written in the order of the queue, none of them twice; as long as the loop runs none is
missing.
-/

namespace Fe2o3Amqp

def Frame.ofSession (frame : Frame) : Bool :=
  match frame.body with
  | .open _ | .close _ | .empty => false
  | _ => true

theorem SessionFrame.toFrame_ofSession (frame : SessionFrame) : frame.toFrame.ofSession = true := by
  obtain ⟨channel, body⟩ := frame
  cases body <;> rfl

/-- The frames of sessions that have been written, and then those that are left in the queue, are in
the order of the queue; they are the whole queue if nothing went wrong. -/
structure WritesQueued (queue : List SessionFrame) (frames : List Frame) (left : List SessionFrame)
    (complete : Prop) : Prop where
  sublist : (frames.filter Frame.ofSession ++ left.map SessionFrame.toFrame).Sublist
    (queue.map SessionFrame.toFrame)
  all : complete →
    frames.filter Frame.ofSession ++ left.map SessionFrame.toFrame = queue.map SessionFrame.toFrame

namespace WritesQueued

variable {queue left left' : List SessionFrame} {frames frames' : List Frame}
  {complete complete' : Prop}

theorem of_eq (h : frames.filter Frame.ofSession ++ left.map SessionFrame.toFrame =
    queue.map SessionFrame.toFrame) : WritesQueued queue frames left complete :=
  ⟨h ▸ .refl _, fun _ => h⟩

/-- Only frames of the connection are written. -/
theorem none (h : frames.filter Frame.ofSession = []) : WritesQueued queue frames queue complete :=
  of_eq (by rw [h, List.nil_append])

theorem mono (h : WritesQueued queue frames left complete) (himp : complete' → complete) :
    WritesQueued queue frames left complete' :=
  ⟨h.sublist, fun hcomplete => h.all (himp hcomplete)⟩

theorem trans (h : WritesQueued queue frames left complete) (h' : WritesQueued left frames' left' complete') :
    WritesQueued queue (frames ++ frames') left' (complete ∧ complete') := by
  have hsplit : (frames ++ frames').filter Frame.ofSession ++ left'.map SessionFrame.toFrame =
      frames.filter Frame.ofSession ++
        (frames'.filter Frame.ofSession ++ left'.map SessionFrame.toFrame) := by
    rw [List.filter_append, List.append_assoc]
  constructor
  · rw [hsplit]
    exact (List.Sublist.append (.refl _) h'.sublist).trans h.sublist
  · intro hcomplete
    rw [hsplit, h'.all hcomplete.2]
    exact h.all hcomplete.1

/-- More frames may be queued behind. -/
theorem append (h : WritesQueued queue frames left complete) (more : List SessionFrame) :
    WritesQueued (queue ++ more) frames (left ++ more) complete := by
  constructor
  · rw [List.map_append, List.map_append, ← List.append_assoc]
    exact h.sublist.append (.refl _)
  · intro hcomplete
    rw [List.map_append, List.map_append, ← List.append_assoc, h.all hcomplete]

end WritesQueued

namespace ConnectionEngine

variable {e : ConnectionEngine}

/-- The call has not failed. -/
def Handled.Runs (out : Handled) : Prop := ∃ running, out.outcome = .running running

theorem writes_onOutgoingSessionFrames (frame : SessionFrame) :
    WritesQueued (frame :: e.outgoingSessionFrames) (e.onOutgoingSessionFrames frame).frames
      (e.onOutgoingSessionFrames frame).engine.outgoingSessionFrames
      (Handled.Runs (e.onOutgoingSessionFrames frame)) := by
  have hfailed : ∀ out : Handled, out.frames = [] → (∀ running, out.outcome ≠ .running running) →
      WritesQueued (frame :: e.outgoingSessionFrames) out.frames e.outgoingSessionFrames
        (Handled.Runs out) := by
    intro out hframes houtcome
    refine ⟨?_, ?_⟩
    · rw [hframes, List.map_cons]
      exact List.sublist_cons_self _ _
    · rintro ⟨running, hrunning⟩
      exact absurd hrunning (houtcome running)
  have hwrite : ∀ e' : ConnectionEngine, WritesQueued (frame :: e.outgoingSessionFrames)
      (if e'.refuses frame.toFrame then e'.failed [] (.transportError .io)
        else ⟨[frame.toFrame], .running .continue, e'⟩ : Handled).frames e.outgoingSessionFrames
      (Handled.Runs (if e'.refuses frame.toFrame then e'.failed [] (.transportError .io)
        else ⟨[frame.toFrame], .running .continue, e'⟩)) := by
    intro e'
    split
    · exact hfailed _ rfl (by simp [failed])
    · refine WritesQueued.of_eq ?_
      simp [frame.toFrame_ofSession]
  rw [outgoingSessionFrames_onOutgoingSessionFrames]
  unfold onOutgoingSessionFrames
  split
  iterate 2
    cases frame.body with
    | begin begin' =>
        simp only
        cases e.connection.onOutgoingBegin frame.channel begin' with
        | mk result connection =>
            cases result with
            | error error => exact hfailed _ rfl (by simp [failed])
            | ok _ => exact hwrite _
    | _ => exact hwrite e
  exact hfailed _ rfl (by simp [failed])

theorem writes_drainSessionFrames (pending : List SessionFrame) :
    WritesQueued pending (e.drainSessionFrames pending).frames
      (e.drainSessionFrames pending).engine.outgoingSessionFrames
      (Handled.Runs (e.drainSessionFrames pending)) := by
  induction pending generalizing e with
  | nil => exact .none rfl
  | cons frame pending ih =>
      have hfirst := writes_onOutgoingSessionFrames (e := { e with outgoingSessionFrames := pending })
        frame
      have hqueue := outgoingSessionFrames_onOutgoingSessionFrames
        { e with outgoingSessionFrames := pending } frame
      simp only [drainSessionFrames]
      split
      · next running hrunning =>
          rw [hqueue] at hfirst
          exact (hfirst.trans ih).mono fun hruns => ⟨⟨running, hrunning⟩, hruns⟩
      · exact hfirst

theorem sendClose_writes (error : Option Error) :
    (e.sendClose error).frames.filter Frame.ofSession = [] ∧
      (e.sendClose error).engine.outgoingSessionFrames = e.outgoingSessionFrames := by
  constructor
  · rcases e.sendClose_frames error with h | h <;> rw [h] <;> rfl
  · simp only [sendClose]
    split
    · rfl
    · split <;> rfl

theorem writes_drainAndClose (error : Option Error) :
    WritesQueued e.outgoingSessionFrames (e.drainAndClose error).frames
      (e.drainAndClose error).engine.outgoingSessionFrames
      (Handled.Runs (e.drainAndClose error)) := by
  have hdrain := writes_drainSessionFrames (e := { e with sessionFramesClosed := true })
    e.outgoingSessionFrames
  simp only [drainAndClose]
  split
  · next running hrunning =>
      obtain ⟨hframes, hqueue⟩ := sendClose_writes (e := (drainSessionFrames
        { e with sessionFramesClosed := true } e.outgoingSessionFrames).engine) error
      simp only [hqueue]
      exact (hdrain.trans (.none hframes)).mono fun hruns => ⟨⟨running, hrunning⟩, hruns⟩
  · exact hdrain

theorem writes_closeWithoutControls (pending : List SessionFrame) :
    WritesQueued pending (e.closeWithoutControls pending).1
      (e.closeWithoutControls pending).2.outgoingSessionFrames False := by
  induction pending generalizing e with
  | nil =>
      obtain ⟨hframes, hqueue⟩ := sendClose_writes (e := { e with outgoingSessionFrames := [] }) none
      simp only [closeWithoutControls, hqueue]
      exact .none hframes
  | cons frame pending ih =>
      have hfirst := writes_onOutgoingSessionFrames (e := { e with outgoingSessionFrames := pending })
        frame
      rw [outgoingSessionFrames_onOutgoingSessionFrames] at hfirst
      simp only [closeWithoutControls]
      exact (hfirst.trans ih).mono False.elim

theorem writes_onControlDropped :
    WritesQueued e.outgoingSessionFrames e.onControlDropped.2
      e.onControlDropped.1.outgoingSessionFrames False := by
  have hclose := writes_closeWithoutControls (e := { e with sessionFramesClosed := true })
    e.outgoingSessionFrames
  simp only [onControlDropped]
  split
  all_goals try exact .none rfl
  all_goals split <;> exact hclose

theorem writes_onControl (control : ConnectionControl) :
    WritesQueued e.outgoingSessionFrames (e.onControl control).frames
      (e.onControl control).engine.outgoingSessionFrames (Handled.Runs (e.onControl control)) := by
  cases control with
  | close error =>
      have hclose : ∀ e' : ConnectionEngine, WritesQueued e'.outgoingSessionFrames
          (e'.closeControl error).frames (e'.closeControl error).engine.outgoingSessionFrames
          (Handled.Runs (e'.closeControl error)) := by
        intro e'
        have hdrain := writes_drainAndClose (e := e') error
        unfold closeControl
        split
        · next running hrunning => exact hdrain.mono fun _ => ⟨running, hrunning⟩
        · exact hdrain
      cases error with
      | none => exact hclose e
      | some error =>
          exact hclose (e.withConnection (e.connection.setConnectionStopReason (.closedWithError error)))
  | allocateSession tx responderDropped =>
      simp only [onControl]
      split <;> exact .none rfl
  | deallocateSession channel =>
      simp only [onControl]
      split <;> exact .none rfl

theorem writes_onIncomingClose (close : Close) :
    WritesQueued e.outgoingSessionFrames (e.onIncomingClose close).frames
      (e.onIncomingClose close).engine.outgoingSessionFrames
      (Handled.Runs (e.onIncomingClose close)) := by
  simp only [onIncomingClose]
  generalize e.connection.onIncomingClose close = out
  obtain ⟨result, connection⟩ := out
  have hdrain := writes_drainAndClose (e := e.withConnection connection) none
  simp only
  split
  · split
    · next running hrunning =>
        have hall := hdrain.mono fun _ : True => ⟨running, hrunning⟩
        cases result <;> exact hall.mono fun _ => trivial
    · exact hdrain
  · cases result <;> exact .none rfl

theorem outgoingSessionFrames_onIncoming {frame : Frame} (hclose : frame.isClose = false)
    (newSession : SessionId) :
    (e.onIncoming frame newSession).engine.outgoingSessionFrames = e.outgoingSessionFrames := by
  have hforward : ∀ frame : SessionFrame,
      (e.forwardToSession frame).engine.outgoingSessionFrames = e.outgoingSessionFrames := by
    intro frame
    simp only [forwardToSession]
    split
    · split
      · rfl
      · split <;> rfl
    · rfl
  by_cases hdiscarding : e.connection.localState = .discarding
  · rw [onIncoming_discarding hdiscarding hclose]
  · obtain ⟨channel, body⟩ := frame
    cases body with
    | close close => cases hclose
    | «open» | begin | «end» =>
        simp only [onIncoming, hdiscarding, decide_false, Bool.false_and, Bool.false_eq_true, if_false]
        split <;> rfl
    | empty =>
        simp only [onIncoming, hdiscarding, decide_false, Bool.false_and, Bool.false_eq_true, if_false]
        rfl
    | _ =>
        simp only [onIncoming, hdiscarding, decide_false, Bool.false_and, Bool.false_eq_true, if_false]
        exact hforward _

theorem writes_onIncoming (frame : Frame) (newSession : SessionId) :
    WritesQueued e.outgoingSessionFrames (e.onIncoming frame newSession).frames
      (e.onIncoming frame newSession).engine.outgoingSessionFrames
      (Handled.Runs (e.onIncoming frame newSession)) := by
  cases hclose : frame.isClose with
  | true =>
      obtain ⟨channel, body⟩ := frame
      cases body with
      | close close =>
          rw [onIncoming_close]
          exact writes_onIncomingClose close
      | _ => cases hclose
  | false =>
      rw [outgoingSessionFrames_onIncoming hclose]
      exact .none (by rw [(e.onIncoming_other hclose newSession).1]; rfl)

/-! ## One event -/

theorem halt_outgoingSessionFrames (cause error : Option ConnectionInnerError) :
    (e.halt cause error).outgoingSessionFrames = e.outgoingSessionFrames := by
  cases cause <;> rfl

theorem closeConnection_writes (cause : Option ConnectionInnerError) (error : Option Error) :
    (e.closeConnection cause error).2.filter Frame.ofSession = [] ∧
      (e.closeConnection cause error).1.outgoingSessionFrames = e.outgoingSessionFrames := by
  have hclose := sendClose_writes (e := e) error
  simp only [closeConnection]
  split
  all_goals try exact ⟨rfl, halt_outgoingSessionFrames _ _⟩
  all_goals try exact ⟨rfl, rfl⟩
  all_goals
    split
    all_goals
      first
        | exact hclose
        | exact ⟨hclose.1, (halt_outgoingSessionFrames _ _).trans hclose.2⟩

theorem onError_writes (error : ConnectionInnerError) :
    (e.onError error).2.filter Frame.ofSession = [] ∧
      (e.onError error).1.outgoingSessionFrames = e.outgoingSessionFrames := by
  cases error with
  | transportError error => exact ⟨rfl, rfl⟩
  | _ => exact closeConnection_writes _ _

/-- The call went well if the engine stays in its loop. -/
theorem writes_settle {queue : List SessionFrame} {out : Handled}
    (h : WritesQueued queue out.frames out.engine.outgoingSessionFrames (Handled.Runs out)) :
    WritesQueued queue (settle out).2 (settle out).1.outgoingSessionFrames ¬(settle out).1.PastLoop := by
  simp only [settle]
  split
  · next houtcome => exact h.mono fun _ => ⟨_, houtcome⟩
  · next houtcome => exact h.mono fun _ => ⟨_, houtcome⟩
  · next error _ =>
      obtain ⟨hframes, hqueue⟩ := onError_writes (e := out.engine) error
      simp only [hqueue]
      have hrest : WritesQueued out.engine.outgoingSessionFrames (out.engine.onError error).2
          out.engine.outgoingSessionFrames True := .none hframes
      exact (h.trans hrest).mono fun hloop => absurd (pastLoop_of_silent (onError_silent _ _)) hloop
  · exact h.mono fun hloop => absurd (pastLoop_of_silent rfl) hloop

theorem writes_onWaiting (discardOther : Bool) (cause : Option ConnectionInnerError) (frame : Frame)
    (newSession : SessionId) :
    WritesQueued e.outgoingSessionFrames (e.onWaiting discardOther cause frame newSession).2
      (e.onWaiting discardOther cause frame newSession).1.outgoingSessionFrames False := by
  have hincoming := (writes_onIncoming (e := e) frame newSession).mono False.elim
  simp only [onWaiting]
  split
  · split <;> exact .of_eq (by rw [halt_outgoingSessionFrames]; rfl)
  · split
    · exact .none rfl
    · split
      · exact hincoming
      · rw [halt_outgoingSessionFrames]
        exact hincoming
      · exact hincoming

/-- The frame that the connection takes from a session. -/
def accepted (e : ConnectionEngine) : ConnectionEngineEvent → List SessionFrame
  | .handOver frame => if e.sessionFramesClosed then [] else [frame]
  | _ => []

theorem writes_step (event : ConnectionEngineEvent) :
    WritesQueued (e.outgoingSessionFrames ++ e.accepted event) (e.step event).2
      (e.step event).1.outgoingSessionFrames ¬(e.step event).1.PastLoop := by
  by_cases hhandOver : ∃ frame, event = .handOver frame
  · obtain ⟨frame, rfl⟩ := hhandOver
    rw [step_handOver]
    simp only [accepted]
    split
    · rw [List.append_nil]
      exact .none rfl
    · exact .none rfl
  · have haccepted : e.accepted event = [] := by
      cases event with
      | handOver frame => exact absurd ⟨frame, rfl⟩ hhandOver
      | _ => rfl
    have hturn := e.step_turn event
    rw [haccepted, List.append_nil]
    generalize e.step event = out at hturn ⊢
    cases hturn with
    | ignored => exact .none rfl
    | sendOpen =>
        simp only [sendOpen]
        split
        · obtain ⟨hframes, hqueue⟩ := closeConnection_writes (e := e) none none
          rw [openFailed, hqueue]
          exact .none hframes
        · split
          · exact .none rfl
          · next connection _ =>
              obtain ⟨hframes, hqueue⟩ :=
                closeConnection_writes (e := e.withConnection connection) none none
              simp only [openFailed, hqueue]
              exact .none hframes
    | openFailed =>
        obtain ⟨hframes, hqueue⟩ := closeConnection_writes (e := e) none none
        rw [openFailed, hqueue]
        exact .none hframes
    | onOpening frame newSession =>
        simp only [onOpening, openFailed]
        split
        · split
          · next connection _ =>
              obtain ⟨hframes, hqueue⟩ :=
                closeConnection_writes (e := e.withConnection connection) none none
              rw [hqueue]
              exact .none hframes
          · exact .none rfl
        · obtain ⟨hframes, hqueue⟩ := closeConnection_writes (e := e) none none
          rw [hqueue]
          exact .none hframes
    | onIncoming frame newSession => exact writes_settle (writes_onIncoming frame newSession)
    | onError =>
        obtain ⟨hframes, hqueue⟩ := onError_writes (e := e) _
        rw [hqueue]
        exact .none hframes
    | stopped => exact .none rfl
    | onWaiting discardOther cause frame newSession hphase =>
        refine (writes_onWaiting discardOther cause frame newSession).mono fun hloop => hloop ?_
        exact pastLoop_of_silent (onWaiting_silent discardOther cause hphase frame newSession).2
    | halted =>
        rw [halt_outgoingSessionFrames]
        exact .none rfl
    | panicked frame newSession =>
        exact (writes_onIncoming frame newSession).mono fun hloop =>
          absurd (pastLoop_of_silent rfl) hloop
    | dropped frame newSession =>
        exact ((writes_onIncoming frame newSession).trans writes_onControlDropped).mono fun hloop =>
          absurd (pastLoop_onControlDropped _) hloop
    | onControl control => exact writes_settle (writes_onControl control)
    | onControlDropped =>
        exact writes_onControlDropped.mono fun hloop => absurd (pastLoop_onControlDropped _) hloop
    | sessionFrame frame pending hphase hframes =>
        rw [hframes]
        exact writes_settle (writes_onOutgoingSessionFrames
          (e := { e with outgoingSessionFrames := pending }) frame)
    | handOver frame => exact absurd ⟨frame, rfl⟩ hhandOver
    | heartbeat =>
        refine writes_settle ?_
        simp only [onHeartbeat]
        split
        all_goals try split
        all_goals exact .none rfl
    | sessions => exact .none rfl
    | transport => exact .none rfl
    | transportDropped refuses =>
        exact (writes_onControlDropped (e := { e with refuses })).mono fun hloop =>
          absurd (pastLoop_onControlDropped _) hloop

/-! ## Every run -/

/-- The frames that the connection takes from its sessions in a run. -/
def handedOver (e : ConnectionEngine) : List ConnectionEngineEvent → List SessionFrame
  | [] => []
  | event :: events => e.accepted event ++ (e.step event).1.handedOver events

theorem ChannelsKept.pastLoop (h : e.ChannelsKept) (hpast : e.PastLoop)
    (event : ConnectionEngineEvent) : (e.step event).1.PastLoop := by
  rcases step_phase h event with hnext | ⟨hphase, -⟩ | ⟨hphase, -⟩ | ⟨hphase, -⟩
  · exact hnext
  · simp only [PastLoop, hphase]
    exact hpast
  · exact absurd hphase hpast.1
  · exact absurd hphase hpast.2.1

theorem ChannelsKept.run_pastLoop (h : e.ChannelsKept) (hpast : e.PastLoop)
    (events : List ConnectionEngineEvent) : (Run.run ConnectionEngine.step e events).1.PastLoop := by
  induction events generalizing e with
  | nil => exact hpast
  | cons event events ih => exact ih (h.step event) (h.pastLoop hpast event)

theorem writes_run (h : e.ChannelsKept) (events : List ConnectionEngineEvent) :
    WritesQueued (e.outgoingSessionFrames ++ e.handedOver events) (Run.run step e events).2
      (Run.run step e events).1.outgoingSessionFrames ¬(Run.run step e events).1.PastLoop := by
  induction events generalizing e with
  | nil =>
      rw [handedOver, List.append_nil]
      exact .none rfl
  | cons event events ih =>
      have hfirst := (writes_step (e := e) event).append ((e.step event).1.handedOver events)
      have hrest := hfirst.trans (ih (h.step event))
      rw [List.append_assoc] at hrest
      refine hrest.mono fun hloop => ⟨fun hpast => hloop ?_, hloop⟩
      exact (h.step event).run_pastLoop hpast events

/-- The frames of the sessions are written in the order in which they were handed over and none is
written twice; while the loop runs, those not yet written are still queued. -/
theorem session_frames_in_order (localOpen : Open) (listener : Option SessionListener)
    (sessions : SessionStore) (refuses : Frame → Bool) (events : List ConnectionEngineEvent) :
    let handed := (start (.new .headerExchange localOpen listener sessions) refuses).handedOver events
    let last := after localOpen listener sessions refuses events
    (last.2.filter Frame.ofSession ++ last.1.outgoingSessionFrames.map SessionFrame.toFrame).Sublist
        (handed.map SessionFrame.toFrame) ∧
      (last.1.phase = .eventLoop →
        last.2.filter Frame.ofSession ++ last.1.outgoingSessionFrames.map SessionFrame.toFrame =
          handed.map SessionFrame.toFrame) := by
  have hwrites := writes_run (channelsKept_start localOpen listener sessions refuses) events
  exact ⟨hwrites.sublist, fun hphase => hwrites.all fun hpast => hpast.2.2 hphase⟩

section

private def endOnChannel (channel : UInt16) : SessionFrame := ⟨channel, .end ⟨none⟩⟩

private def noneOpen : Open :=
  ⟨"peer", none, 512, 7, none, none, none, none, none, none⟩

/-- Of two frames one is written and the other one is still queued. -/
example :
    let last := after noneOpen none ⟨fun _ => ⟨[], false⟩⟩ (fun _ => false)
      [.open, .incoming (some (.ok ⟨0, .open noneOpen⟩)) 0, .handOver (endOnChannel 1),
        .handOver (endOnChannel 2), .sessionFrame]
    last.2.map Frame.channel = [0, 1] ∧
      last.1.outgoingSessionFrames.map SessionFrame.channel = [2] := by decide

end

end ConnectionEngine

end Fe2o3Amqp
