import Fe2o3Amqp.Control
import Fe2o3Amqp.Session.Endpoint

/-!
# The session engine

`SessionEngine::event_loop` as a machine that takes one event at a time.  The places at which the
source waits for a frame outside the loop are phases of the machine: `wait_for_remote_end` after an
error, and the inner loop that completes the end once all handles are dropped.  An event that the
engine does not listen to in its phase leaves it as it is.  The outgoing queue takes every frame;
that the connection has gone shows as the end of the incoming queue.
-/

namespace Fe2o3Amqp

inductive SessionEnginePhase where
  | eventLoop
  /-- `wait_for_remote_end` inside `end_session`: `thenEnd` if the End is still to be given to the
  session, `cause` the error that led here. -/
  | waitForRemoteEnd (discardOtherFrame thenEnd : Bool) (cause : SessionInnerError)
  | handlesDropped
  | stopped (outcome : Except SessionInnerError Unit)

structure SessionEngine where
  session : Session
  phase : SessionEnginePhase
  outgoingLinkFrames : List LinkFrame
  linkFramesClosed : Bool
  connControl : List ConnectionControl

inductive SessionEngineEvent where
  /-- The next frame from the connection, `none` when the connection has dropped its half. -/
  | incoming (frame : Option SessionFrame)
  /-- The next control, `none` when all handles are dropped. -/
  | control (control : Option SessionControl)
  /-- The engine takes the next link frame of its queue. -/
  | linkFrame
  /-- A link hands over a frame. -/
  | handOver (frame : LinkFrame)
  /-- What link endpoints do to the state they share with the session. -/
  | endpoint (links : LinkStore)
  | connectionStop (reason : ConnectionStopReason)

def connectionStopReasonOrClosed (reason : Option ConnectionStopReason) : ConnectionStopReason :=
  reason.getD .closed

/-- The error with which `on_error` ends the session. -/
def SessionInnerError.endError : SessionInnerError → Option Error
  | .unattachedHandle => some ⟨.sessionError .unattachedHandle, none, none⟩
  | .remoteAttachingLinkNameNotFound =>
      some ⟨.amqpError .internalError, some "Link name is not found", none⟩
  | .handleInUse => some ⟨.sessionError .handleInUse, none, none⟩
  | .illegalState => some ⟨.amqpError .illegalState, none, none⟩
  | .transferFrameToSender =>
      some ⟨.amqpError .notAllowed, some "Found Transfer frame sent Sender link", none⟩
  | .connectionStopped _ | .remoteEnded | .remoteEndedWithError _ => none
  | .unknownTxnId => some ⟨.transactionError .unknownId, none, none⟩

namespace Session

/-- `session_stop_reason_from_connection`. -/
def stopReasonFromConnection (s : Session) : SessionStopReason :=
  match s.connectionStopReason with
  | some reason => .connectionStopped reason
  | none => .ended

/-- The `End` control: the link frames still queued are handled before the End is sent. -/
def controlEnd (s : Session) (pending : List LinkFrame) (error : Option Error) : Dispatched :=
  let s := s.setSessionStopReason <|
    match error with
    | some error => .endedWithError error
    | none => s.stopReasonFromConnection
  let drained := s.drainLinkFrames pending
  match drained.result with
  | .error e => ⟨drained.frames, .error e, drained.session⟩
  | .ok _ =>
      match drained.session.sendEnd error with
      | (.error e, s) => ⟨drained.frames, .error e, s⟩
      | (.ok frame, s) => s.dispatched (drained.frames ++ [frame])

/-- The end of a control that was answered; a responder whose receiving half is gone fails. -/
def responded (s : Session) (responderDropped : Bool) : Dispatched :=
  if responderDropped then ⟨[], .error .unattachedHandle, s⟩ else s.dispatched []

/-- The `End` control of the inner loop, which is tried again until the queue is empty. -/
def endWithoutHandles (s : Session) : List LinkFrame → List SessionFrame × Session
  | [] =>
      match (s.setSessionStopReason s.stopReasonFromConnection).sendEnd none with
      | (.ok frame, s) => ([frame], s)
      | (.error _, s) => ([], s)
  | frame :: pending =>
      let out := (s.setSessionStopReason s.stopReasonFromConnection).onOutgoingLinkFrames frame
      let rest := out.session.endWithoutHandles pending
      (out.frames ++ rest.1, rest.2)

end Session

namespace SessionEngine

def start (builder : SessionBuilder) (outgoingChannel : UInt16) (localState : SessionState)
    (links : LinkStore) : SessionEngine where
  session := builder.intoSession outgoingChannel localState links
  phase := .eventLoop
  outgoingLinkFrames := []
  linkFramesClosed := false
  connControl := []

def withSession (e : SessionEngine) (session : Session) : SessionEngine := { e with session }

/-- What follows the loop: the stop reason is published and the channel given back. -/
def stop (e : SessionEngine) (outcome : Except SessionInnerError Unit) : SessionEngine :=
  let reason : SessionStopReason :=
    match outcome with
    | .error (.connectionStopped reason) => .connectionStopped reason
    | .error (.remoteEndedWithError error) => .remoteEndedWithError error
    | .error .remoteEnded => .remoteEnded
    | _ => .ended
  { e with
    session := e.session.setSessionStopReason reason
    phase := .stopped outcome
    connControl := e.connControl ++ [.deallocateSession e.session.outgoingChannel] }

def connectionStopped (e : SessionEngine) : SessionInnerError :=
  .connectionStopped (connectionStopReasonOrClosed e.session.connectionStopReason)

def endSession (e : SessionEngine) (cause : SessionInnerError) (error : Option Error) :
    SessionEngine × List SessionFrame :=
  match e.session.localState with
  | .unmapped => (e.stop (.error cause), [])
  | .beginSent | .beginReceived | .mapped =>
      match e.session.sendEnd error with
      | (.error _, s) => ((e.withSession s).stop (.error e.connectionStopped), [])
      | (.ok frame, s) =>
          ({ e.withSession s with phase := .waitForRemoteEnd false true cause }, [frame])
  | .endSent => ({ e with phase := .waitForRemoteEnd false false cause }, [])
  | .endReceived =>
      match e.session.sendEnd error with
      | (.error _, s) => ((e.withSession s).stop (.error e.connectionStopped), [])
      | (.ok frame, s) => ((e.withSession s).stop (.error cause), [frame])
  | .discarding => ({ e with phase := .waitForRemoteEnd true false cause }, [])

def onError (e : SessionEngine) (error : SessionInnerError) : SessionEngine × List SessionFrame :=
  match error with
  | .connectionStopped reason => (e.stop (.error (.connectionStopped reason)), [])
  | error => e.endSession error error.endError

/-- The rest of one turn of the loop: go on, stop, or handle the error. -/
def settle (e : SessionEngine) (out : Session.Dispatched) : SessionEngine × List SessionFrame :=
  let e := e.withSession out.session
  match out.result with
  | .ok .continue => (e, out.frames)
  | .ok .stop => (e.stop (.ok ()), out.frames)
  | .error error =>
      let (e, frames) := e.onError error
      (e, out.frames ++ frames)

/-- The link-frame queue is closed and drained.  A frame that a failing drain leaves in it is never
read. -/
def closeLinkFrames (e : SessionEngine) : SessionEngine :=
  { e with outgoingLinkFrames := [], linkFramesClosed := true }

/-- Only an End that the peer initiated closes the queue. -/
def closesLinkFrames (s : Session) (frame : SessionFrame) : Bool :=
  match frame.body with
  | .end end' => decide ((s.onIncomingEnd end').2.localState = .endReceived)
  | _ => false

/-- One incoming frame in the event loop. -/
def onIncoming (e : SessionEngine) (frame : SessionFrame) : SessionEngine × List SessionFrame :=
  let out := e.session.onIncoming e.outgoingLinkFrames frame
  (if closesLinkFrames e.session frame then e.closeLinkFrames else e).settle out

def onControl (e : SessionEngine) (control : SessionControl) : SessionEngine × List SessionFrame :=
  let s := e.session
  match control with
  | .end error => e.closeLinkFrames.settle (s.controlEnd e.outgoingLinkFrames error)
  | .allocateLink linkName linkRelay responderDropped =>
      e.settle ((s.allocateLink linkName (some linkRelay)).2.responded responderDropped)
  | .allocateIncomingLink linkName linkRelay inputHandle responderDropped =>
      e.settle ((s.allocateIncomingLink linkName linkRelay inputHandle).2.responded responderDropped)
  | .deallocateLink outputHandle => e.settle ((s.deallocateLink outputHandle).2.dispatched [])
  | .disposition disposition =>
      let (frame, s) := s.onOutgoingDisposition disposition
      e.settle (s.dispatched [frame])
  | .closeConnectionWithError condition description =>
      let error : Error := ⟨.connectionError condition, description, none⟩
      let e : SessionEngine := { e with connControl := e.connControl ++ [.close (some error)] }
      e.settle (s.dispatched [])
  -- a session that is no transaction resource answers each of these with an error
  | .allocateTransactionId responderDropped => e.settle (s.responded responderDropped)
  | .commitTransaction _ responderDropped => e.settle (s.responded responderDropped)
  | .rollbackTransaction _ responderDropped => e.settle (s.responded responderDropped)
  | .abortTransaction _ => e.settle (s.dispatched [])

/-- The inner loop that is entered when all handles are dropped, up to its next wait. -/
def onHandlesDropped (e : SessionEngine) : SessionEngine × List SessionFrame :=
  match e.session.localState with
  | .mapped | .endReceived =>
      let (frames, s) := e.session.endWithoutHandles e.outgoingLinkFrames
      let e := e.closeLinkFrames.withSession s
      match s.localState with
      | .discarding | .endSent => ({ e with phase := .handlesDropped }, frames)
      | _ => (e.stop (.ok ()), frames)
  | .discarding | .endSent => ({ e with phase := .handlesDropped }, [])
  | _ => (e.stop (.ok ()), [])

/-- A frame that arrives while `wait_for_remote_end` waits. -/
def onWaiting (e : SessionEngine) (discardOtherFrame thenEnd : Bool) (cause : SessionInnerError)
    (frame : SessionFrame) : SessionEngine × List SessionFrame :=
  match frame.body with
  | .end end' =>
      if thenEnd then
        match e.session.onIncomingEnd end' with
        | (.ok _, s) => ((e.withSession s).stop (.error cause), [])
        | (.error error, s) => ((e.withSession s).stop (.error error), [])
      else (e.stop (.error cause), [])
  | _ =>
      if discardOtherFrame then (e, [])
      else
        let out := e.session.onIncoming e.outgoingLinkFrames frame
        match out.result with
        | .ok _ => (e.withSession out.session, out.frames)
        | .error error => ((e.withSession out.session).stop (.error error), out.frames)

def step (e : SessionEngine) : SessionEngineEvent → SessionEngine × List SessionFrame
  | .incoming frame =>
      match e.phase, frame with
      | .eventLoop, some frame => e.onIncoming frame
      | .eventLoop, none =>
          match e.session.localState with
          | .unmapped | .discarding => (e.stop (.ok ()), [])
          | _ => e.onError e.connectionStopped
      | .waitForRemoteEnd discardOtherFrame thenEnd cause, some frame =>
          e.onWaiting discardOtherFrame thenEnd cause frame
      | .waitForRemoteEnd _ _ _, none => (e.stop (.error e.connectionStopped), [])
      | .handlesDropped, some frame =>
          let out := e.session.onIncoming e.outgoingLinkFrames frame
          let (e, frames) := (e.withSession out.session).onHandlesDropped
          (e, out.frames ++ frames)
      | .handlesDropped, none => (e.stop (.ok ()), [])
      | .stopped _, _ => (e, [])
  | .control control =>
      match e.phase, control with
      | .eventLoop, some control => e.onControl control
      | .eventLoop, none => e.onHandlesDropped
      | _, _ => (e, [])
  | .linkFrame =>
      match e.phase, e.outgoingLinkFrames with
      | .eventLoop, frame :: pending =>
          let out := e.session.onOutgoingLinkFrames frame
          SessionEngine.settle { e with outgoingLinkFrames := pending } out
      | _, _ => (e, [])
  | .handOver frame =>
      match e.phase with
      | .stopped _ => (e, [])
      | _ =>
          if e.linkFramesClosed then (e, [])
          else ({ e with outgoingLinkFrames := e.outgoingLinkFrames ++ [frame] }, [])
  | .endpoint links => ({ e with session := { e.session with links } }, [])
  | .connectionStop reason =>
      -- the first recorded reason stays
      ({ e with
        session :=
          { e.session with
            connectionStopReason := e.session.connectionStopReason.or (some reason) } }, [])

end SessionEngine

end Fe2o3Amqp
