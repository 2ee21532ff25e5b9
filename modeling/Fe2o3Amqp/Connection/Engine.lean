import Fe2o3Amqp.Connection.Model
import Fe2o3Amqp.Session.Endpoint

/-!
# The connection engine

`ConnectionEngine::open` and `ConnectionEngine::event_loop` as a machine that takes one event at a
time; its outputs are the frames that it writes to the transport.  The places at which the source
waits for a frame outside the loop are phases of the machine: the Open of the peer, the Close of the
peer in `wait_for_remote_close`, and the inner loop that completes the close once all control
channels are dropped.  The transport refuses the frames it cannot write.
-/

namespace Fe2o3Amqp

open Session (Running)

inductive ConnectionEnginePhase where
  | headerExchanged
  /-- `open_inner` waits for the Open of the peer. -/
  | opening
  | eventLoop
  /-- `wait_for_remote_close` inside `close_connection`: `cause` is the error that led here, `none`
  if the connection could not be opened. -/
  | waitForRemoteClose (discardOther : Bool) (cause : Option ConnectionInnerError)
  | controlDropped
  | stopped
  | panicked

structure ConnectionEngine where
  connection : Connection
  phase : ConnectionEnginePhase
  outgoingSessionFrames : List SessionFrame
  sessionFramesClosed : Bool
  /-- The period of the heartbeat, `none` if it never ticks. -/
  heartbeat : Option Milliseconds
  refuses : Frame → Bool

inductive ConnectionEngineEvent where
  | «open»
  /-- What the transport yields next, `none` at its end.  `newSession` is the channel that a listener
  creates if the frame begins a session. -/
  | incoming (item : Option (Except TransportError Frame)) (newSession : SessionId)
  /-- The next control, `none` when all control channels are dropped. -/
  | control (control : Option ConnectionControl)
  /-- The engine takes the next session frame of its queue. -/
  | sessionFrame
  /-- A session hands over a frame. -/
  | handOver (frame : SessionFrame)
  | heartbeat
  /-- What sessions and the application do to the queues they share with the connection. -/
  | sessions (sessions : SessionStore) (listener : SessionListener)
  /-- What the transport can write changes. -/
  | transport (refuses : Frame → Bool)

/-- How a call of the engine ends. -/
inductive Handling where
  | running (running : Running)
  | failed (error : ConnectionInnerError)
  | panicked

/-- The frames written by a call, how it ended, and the engine. -/
structure Handled where
  frames : List Frame
  outcome : Handling
  engine : ConnectionEngine

/-- The error with which `on_error` closes the connection. -/
def ConnectionInnerError.closeError : ConnectionInnerError → Option Error
  | .illegalState => some ⟨.amqpError .illegalState, none, none⟩
  | .notImplemented description => some ⟨.amqpError .notImplemented, description, none⟩
  | .notFound description => some ⟨.amqpError .notFound, description, none⟩
  | .transportError _ | .remoteClosed | .remoteClosedWithError _ => none

namespace ConnectionEngine

def start (connection : Connection) (refuses : Frame → Bool) : ConnectionEngine where
  connection
  phase := .headerExchanged
  outgoingSessionFrames := []
  sessionFramesClosed := false
  heartbeat := none
  refuses

def withConnection (e : ConnectionEngine) (connection : Connection) : ConnectionEngine :=
  { e with connection }

def failed (e : ConnectionEngine) (frames : List Frame) (error : ConnectionInnerError) : Handled :=
  ⟨frames, .failed error, e⟩

/-- The end of a call that met no error. -/
def handled (e : ConnectionEngine) (frames : List Frame) : Handled :=
  ⟨frames, .running (if e.connection.localState = .end then .stop else .continue), e⟩

/-! ## Outgoing frames -/

def sendClose (e : ConnectionEngine) (error : Option Error) : Handled :=
  let frame : Frame := ⟨0, .close ⟨error⟩⟩
  if e.refuses frame then e.failed [] (.transportError .io)
  else
    -- the state is looked at after the frame has been written
    match e.connection.closeSent error with
    | (.ok _, connection) => ⟨[frame], .running .continue, e.withConnection connection⟩
    | (.error error, connection) => (e.withConnection connection).failed [frame] error

def onOutgoingSessionFrames (e : ConnectionEngine) (frame : SessionFrame) : Handled :=
  let write (e : ConnectionEngine) : Handled :=
    if e.refuses frame.toFrame then e.failed [] (.transportError .io)
    else ⟨[frame.toFrame], .running .continue, e⟩
  match e.connection.localState with
  | .opened | .closeReceived =>
      match frame.body with
      | .begin begin' =>
          match e.connection.onOutgoingBegin frame.channel begin' with
          | (.error error, connection) => (e.withConnection connection).failed [] error
          | (.ok _, connection) => write (e.withConnection connection)
      | _ => write e
  | _ => e.failed [] .illegalState

/-- Handle the session frames that are still queued when the queue is closed. -/
def drainSessionFrames (e : ConnectionEngine) : List SessionFrame → Handled
  | [] => ⟨[], .running .continue, { e with outgoingSessionFrames := [] }⟩
  | frame :: pending =>
      let first := onOutgoingSessionFrames { e with outgoingSessionFrames := pending } frame
      match first.outcome with
      | .running _ =>
          let rest := first.engine.drainSessionFrames pending
          { rest with frames := first.frames ++ rest.frames }
      | _ => first

/-- The queue of session frames is closed and drained, then a Close is sent. -/
def drainAndClose (e : ConnectionEngine) (error : Option Error) : Handled :=
  let drained := drainSessionFrames { e with sessionFramesClosed := true } e.outgoingSessionFrames
  match drained.outcome with
  | .running _ =>
      let closing := drained.engine.sendClose error
      { closing with frames := drained.frames ++ closing.frames }
  | _ => drained

def onHeartbeat (e : ConnectionEngine) : Handled :=
  match e.connection.localState with
  | .start | .closeSent => ⟨[], .running .continue, e⟩
  | .end => ⟨[], .running .stop, e⟩
  | _ =>
      if e.refuses .empty then e.failed [] (.transportError .io)
      else ⟨[.empty], .running .continue, e⟩

/-! ## Incoming frames and controls -/

def forwardToSession (e : ConnectionEngine) (frame : SessionFrame) : Handled :=
  if e.connection.localState = .opened then
    match e.connection.sessionByIncomingChannel frame.channel with
    | none => e.failed [] (.notFound none)
    | some relay =>
        match e.connection.sendToSession relay frame with
        | (.ok _, connection) => (e.withConnection connection).handled []
        | (.error error, connection) => (e.withConnection connection).failed [] error
  else e.failed [] .illegalState

/-- The Close of the peer: what is queued is written before it is answered. -/
def onIncomingClose (e : ConnectionEngine) (close : Close) : Handled :=
  let (result, connection) := e.connection.onIncomingClose close
  let e := e.withConnection connection
  let finish (e : ConnectionEngine) (frames : List Frame) : Handled :=
    match result with
    | .ok _ => e.handled frames
    | .error error => e.failed frames error
  if connection.localState = .closeReceived then
    let closing := e.drainAndClose none
    match closing.outcome with
    | .running _ => finish closing.engine closing.frames
    | _ => closing
  else finish e []

def onIncoming (e : ConnectionEngine) (frame : Frame) (newSession : SessionId) : Handled :=
  let taken (out : Except ConnectionInnerError Unit × Connection) : Handled :=
    match out with
    | (.ok _, connection) => (e.withConnection connection).handled []
    | (.error error, connection) => (e.withConnection connection).failed [] error
  let isClose :=
    match frame.body with
    | .close _ => true
    | _ => false
  if e.connection.localState = .discarding && !isClose then ⟨[], .running .continue, e⟩
  else
    match frame.body with
    | .open open' =>
        match e.connection.onIncomingOpen open', open'.idleTimeOut with
        | (.error error, connection), _ => (e.withConnection connection).failed [] error
        -- an interval of no length panics
        | (.ok _, connection), some 0 => ⟨[], .panicked, e.withConnection connection⟩
        | (.ok _, connection), heartbeat =>
            handled { e.withConnection connection with heartbeat } []
    | .begin begin' => taken (e.connection.onIncomingBegin frame.channel begin' newSession)
    | .attach attach => e.forwardToSession ⟨frame.channel, .attach attach⟩
    | .flow flow => e.forwardToSession ⟨frame.channel, .flow flow⟩
    | .transfer performative payload =>
        e.forwardToSession ⟨frame.channel, .transfer performative payload⟩
    | .disposition disposition => e.forwardToSession ⟨frame.channel, .disposition disposition⟩
    | .detach detach => e.forwardToSession ⟨frame.channel, .detach detach⟩
    | .end end' => taken (e.connection.onIncomingEnd frame.channel end')
    | .close close => e.onIncomingClose close
    | .empty => e.handled []

def onControl (e : ConnectionEngine) (control : ConnectionControl) : Handled :=
  match control with
  | .close error =>
      let e :=
        match error with
        | some error => e.withConnection (e.connection.setConnectionStopReason (.closedWithError error))
        | none => e
      let closing := e.drainAndClose error
      match closing.outcome with
      | .running _ => closing.engine.handled closing.frames
      | _ => closing
  | .allocateSession tx responderDropped =>
      let e := e.withConnection (e.connection.allocateSession tx).2
      if responderDropped then e.failed [] .illegalState else e.handled []
  | .deallocateSession channel =>
      match e.connection.deallocateSession channel with
      | none => ⟨[], .panicked, e⟩
      | some connection => (e.withConnection connection).handled []

/-! ## The end of the loop -/

/-- What follows the loop: the stop reason is published and the queues are closed. -/
def stop (e : ConnectionEngine) (outcome : Except ConnectionInnerError Unit) : ConnectionEngine :=
  let reason : ConnectionStopReason :=
    match outcome with
    | .error (.remoteClosedWithError error) => .remoteClosedWithError error
    | .error .remoteClosed => .remoteClosed
    | _ => .closed
  { e with
    connection := e.connection.setConnectionStopReason reason
    phase := .stopped
    sessionFramesClosed := true }

/-- `close_connection` has returned, with `error` if it failed.  A connection that could not be
opened has no loop to leave. -/
def halt (e : ConnectionEngine) (cause error : Option ConnectionInnerError) : ConnectionEngine :=
  match cause with
  | none => { e with phase := .stopped }
  | some cause => e.stop (.error (error.getD cause))

def closeConnection (e : ConnectionEngine) (cause : Option ConnectionInnerError)
    (error : Option Error) : ConnectionEngine × List Frame :=
  match e.connection.localState with
  | .start | .headerReceived | .headerSent | .headerExchange =>
      (e.halt cause (some .illegalState), [])
  | .openPipe | .openClosePipe | .openReceived | .openSent | .opened =>
      let closing := e.sendClose error
      match closing.outcome with
      | .running _ =>
          ({ closing.engine with phase := .waitForRemoteClose false cause }, closing.frames)
      | .failed error => (closing.engine.halt cause (some error), closing.frames)
      | .panicked => ({ closing.engine with phase := .panicked }, closing.frames)
  | .closeReceived =>
      let closing := e.sendClose error
      match closing.outcome with
      | .running _ => (closing.engine.halt cause none, closing.frames)
      | .failed error => (closing.engine.halt cause (some error), closing.frames)
      | .panicked => ({ closing.engine with phase := .panicked }, closing.frames)
  | .closePipe | .closeSent => ({ e with phase := .waitForRemoteClose false cause }, [])
  | .discarding => ({ e with phase := .waitForRemoteClose true cause }, [])
  | .end => (e.halt cause none, [])

def onError (e : ConnectionEngine) (error : ConnectionInnerError) :
    ConnectionEngine × List Frame :=
  match error with
  | .transportError _ => (e.stop (.error error), [])
  | error => e.closeConnection (some error) error.closeError

/-- The rest of one turn of the loop: go on, stop, or handle the error. -/
def settle (out : Handled) : ConnectionEngine × List Frame :=
  match out.outcome with
  | .running .continue => (out.engine, out.frames)
  | .running .stop => (out.engine.stop (.ok ()), out.frames)
  | .failed error =>
      let (e, frames) := out.engine.onError error
      (e, out.frames ++ frames)
  | .panicked => ({ out.engine with phase := .panicked }, out.frames)

/-! ## The other waits -/

/-- `open_inner` fails: the connection is closed and given up. -/
def openFailed (e : ConnectionEngine) : ConnectionEngine × List Frame := e.closeConnection none none

def sendOpen (e : ConnectionEngine) : ConnectionEngine × List Frame :=
  let frame : Frame := ⟨0, .open e.connection.localOpen⟩
  if e.refuses frame then e.openFailed
  else
    match e.connection.openSent with
    | (.ok _, connection) => ({ e.withConnection connection with phase := .opening }, [frame])
    | (.error _, connection) =>
        let (e, frames) := (e.withConnection connection).openFailed
        (e, frame :: frames)

/-- The first frame of the peer. -/
def onOpening (e : ConnectionEngine) (frame : Frame) : ConnectionEngine × List Frame :=
  match frame.body with
  | .open open' =>
      match e.connection.onIncomingOpen open' with
      | (.error _, connection) => (e.withConnection connection).openFailed
      | (.ok _, connection) =>
          let heartbeat :=
            match open'.idleTimeOut with
            | some 0 | none => none
            | some millis => some millis
          ({ e.withConnection connection with phase := .eventLoop, heartbeat }, [])
  | _ => e.openFailed

/-- A frame that arrives while `wait_for_remote_close` waits. -/
def onWaiting (e : ConnectionEngine) (discardOther : Bool) (cause : Option ConnectionInnerError)
    (frame : Frame) (newSession : SessionId) : ConnectionEngine × List Frame :=
  match frame.body with
  | .close close =>
      match e.connection.onIncomingClose close with
      | (.ok _, connection) => ((e.withConnection connection).halt cause none, [])
      | (.error error, connection) => ((e.withConnection connection).halt cause (some error), [])
  | _ =>
      if discardOther then (e, [])
      else
        let out := e.onIncoming frame newSession
        match out.outcome with
        | .running _ => (out.engine, out.frames)
        | .failed error => (out.engine.halt cause (some error), out.frames)
        | .panicked => ({ out.engine with phase := .panicked }, out.frames)

/-- The `Close` control of the inner loop, which is tried again until the queue is empty. -/
def closeWithoutControls (e : ConnectionEngine) : List SessionFrame → List Frame × ConnectionEngine
  | [] =>
      let closing := sendClose { e with outgoingSessionFrames := [] } none
      (closing.frames, closing.engine)
  | frame :: pending =>
      let out := onOutgoingSessionFrames { e with outgoingSessionFrames := pending } frame
      let rest := out.engine.closeWithoutControls pending
      (out.frames ++ rest.1, rest.2)

/-- The inner loop that is entered when all control channels are dropped, up to its next wait.  While
the Close cannot be written the loop is tried again without one. -/
def onControlDropped (e : ConnectionEngine) : ConnectionEngine × List Frame :=
  match e.connection.localState with
  | .opened | .closeReceived | .openSent | .openPipe =>
      let (frames, e) :=
        closeWithoutControls { e with sessionFramesClosed := true } e.outgoingSessionFrames
      match e.connection.localState with
      | .end => (e.stop (.ok ()), frames)
      | _ => ({ e with phase := .controlDropped }, frames)
  | .discarding | .closeSent | .openClosePipe | .closePipe =>
      ({ e with phase := .controlDropped }, [])
  | _ => (e.stop (.ok ()), [])

/-- Whether the inner loop waits for a frame of the peer. -/
def awaitsFrame (e : ConnectionEngine) : Bool :=
  match e.connection.localState with
  | .discarding | .closeSent | .openClosePipe | .closePipe => true
  | _ => false

/-! ## One event -/

/-- The end of the incoming stream in the event loop. -/
def onIncomingClosed (e : ConnectionEngine) : ConnectionEngine × List Frame :=
  match e.connection.localState with
  | .closePipe | .discarding | .end => (e.stop (.ok ()), [])
  | _ => e.onError .illegalState

def step (e : ConnectionEngine) : ConnectionEngineEvent → ConnectionEngine × List Frame
  | .open =>
      match e.phase with
      | .headerExchanged => e.sendOpen
      | _ => (e, [])
  | .incoming item newSession =>
      match e.phase, item with
      | .opening, some (.ok frame) => e.onOpening frame
      | .opening, _ => e.openFailed
      | .eventLoop, some (.ok frame) => settle (e.onIncoming frame newSession)
      | .eventLoop, some (.error error) => e.onError (.transportError error)
      | .eventLoop, none => e.onIncomingClosed
      | .waitForRemoteClose discardOther cause, some (.ok frame) =>
          e.onWaiting discardOther cause frame newSession
      | .waitForRemoteClose _ cause, some (.error error) =>
          (e.halt cause (some (.transportError error)), [])
      | .waitForRemoteClose _ cause, none => (e.halt cause (some (.transportError .io)), [])
      | .controlDropped, some (.ok frame) =>
          if e.awaitsFrame then
            let out := e.onIncoming frame newSession
            match out.outcome with
            | .panicked => ({ out.engine with phase := .panicked }, out.frames)
            | _ =>
                let (e, frames) := out.engine.onControlDropped
                (e, out.frames ++ frames)
          else (e, [])
      | .controlDropped, some (.error _) => (e, [])
      | .controlDropped, none => if e.awaitsFrame then (e.stop (.ok ()), []) else (e, [])
      | _, _ => (e, [])
  | .control control =>
      match e.phase, control with
      | .eventLoop, some control => settle (e.onControl control)
      | .eventLoop, none => e.onControlDropped
      | _, _ => (e, [])
  | .sessionFrame =>
      match e.phase, e.outgoingSessionFrames with
      | .eventLoop, frame :: pending =>
          settle (onOutgoingSessionFrames { e with outgoingSessionFrames := pending } frame)
      | _, _ => (e, [])
  | .handOver frame =>
      if e.sessionFramesClosed then (e, [])
      else ({ e with outgoingSessionFrames := e.outgoingSessionFrames ++ [frame] }, [])
  | .heartbeat =>
      match e.phase, e.heartbeat with
      | .eventLoop, some _ => settle e.onHeartbeat
      | _, _ => (e, [])
  | .sessions sessions listener =>
      (e.withConnection
        { e.connection with
          sessions, sessionListener := e.connection.sessionListener.map fun _ => listener }, [])
  | .transport refuses =>
      let e := { e with refuses }
      match e.phase with
      | .controlDropped => if e.awaitsFrame then (e, []) else e.onControlDropped
      | _ => (e, [])

end ConnectionEngine

end Fe2o3Amqp
