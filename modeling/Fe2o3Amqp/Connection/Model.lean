import Fe2o3Amqp.Control
import Fe2o3Amqp.Frames.Amqp

/-!
# The connection endpoint

The state of a connection and the methods of its endpoint that touch no transport: allocation of
sessions, and what an incoming Open, Begin, End or Close does to the state.  A connection opened by
this side and one accepted by a listener differ in how they take a Begin.
-/

namespace Fe2o3Amqp

inductive ConnectionState where
  | start | headerReceived | headerSent | headerExchange | openPipe | openClosePipe | openReceived
  | openSent | closePipe | opened | closeReceived | closeSent | discarding | «end»
deriving DecidableEq, Repr

inductive TransportError where
  | io
  | idleTimeoutElapsed
  | decodeError (description : String)
  | notImplemented (description : Option String)
  | framingError

inductive ConnectionInnerError where
  | transportError (error : TransportError)
  | illegalState
  | notImplemented (description : Option String)
  | notFound (description : Option String)
  | remoteClosed
  | remoteClosedWithError (error : Error)

inductive AllocSessionError where
  | connectionNotOpened
  | connectionStopped (reason : ConnectionStopReason)
  | channelMaxReached

/-- The channel on which a connection forwards frames to one of its sessions. -/
structure SessionQueue where
  incoming : List SessionFrame
  dropped : Bool

structure SessionStore where
  queue : SessionId → SessionQueue

/-- `mpsc::Sender::send`. -/
def SessionStore.send (store : SessionStore) (tx : SessionId) (frame : SessionFrame) :
    Except ConnectionInnerError SessionStore :=
  if (store.queue tx).dropped then .error (.notFound (some "Session is not found"))
  else
    .ok ⟨Function.update store.queue tx
      ⟨(store.queue tx).incoming ++ [frame], (store.queue tx).dropped⟩⟩

/-- A session begun by the peer, which the application has yet to accept. -/
structure IncomingSession where
  channel : UInt16
  begin : Begin
  incomingRx : SessionId
  outgoingChannel : UInt16

/-- The channel on which a listener hands out incoming sessions. -/
structure SessionListener where
  incoming : List IncomingSession
  dropped : Bool

structure Connection where
  localState : ConnectionState
  localOpen : Open
  sessionByIncomingChannel : UInt16 → Option SessionId
  sessionByOutgoingChannel : Slab SessionId
  remoteOpen : Option Open
  agreedChannelMax : UInt16
  connectionStopReason : Option ConnectionStopReason
  /-- `none` if the connection was opened by this side. -/
  sessionListener : Option SessionListener
  sessions : SessionStore

namespace Connection

def new (localState : ConnectionState) (localOpen : Open) (sessionListener : Option SessionListener)
    (sessions : SessionStore) : Connection where
  localState
  localOpen
  sessionByIncomingChannel _ := none
  sessionByOutgoingChannel := .empty
  remoteOpen := none
  agreedChannelMax := localOpen.channelMax
  connectionStopReason := none
  sessionListener
  sessions

/-- `OnceLock::set`: the first recorded reason stays. -/
def setConnectionStopReason (c : Connection) (reason : ConnectionStopReason) : Connection :=
  { c with connectionStopReason := c.connectionStopReason.or (some reason) }

def allocateSession (c : Connection) (tx : SessionId) :
    Except AllocSessionError UInt16 × Connection :=
  match c.localState with
  | .start | .headerSent | .headerReceived | .headerExchange => (.error .connectionNotOpened, c)
  | .closeSent | .discarding | .end =>
      (.error (.connectionStopped (c.connectionStopReason.getD .closed)), c)
  | _ =>
      let outgoingChannel := c.sessionByOutgoingChannel.vacantKey
      if outgoingChannel > c.agreedChannelMax.toNat then (.error .channelMaxReached, c)
      else
        (.ok (UInt16.ofNat outgoingChannel),
          { c with sessionByOutgoingChannel := c.sessionByOutgoingChannel.insert tx })

/-- `Slab::remove` panics on a vacant key. -/
def deallocateSession (c : Connection) (outgoingChannel : UInt16) : Option Connection :=
  match c.sessionByOutgoingChannel.tryRemove outgoingChannel.toNat with
  | (some _, sessions) => some { c with sessionByOutgoingChannel := sessions }
  | (none, _) => none

def onIncomingOpen (c : Connection) (open' : Open) : Except ConnectionInnerError Unit × Connection :=
  let accepted (localState : ConnectionState) : Except ConnectionInnerError Unit × Connection :=
    (.ok (),
      { c with
        localState
        agreedChannelMax := min c.localOpen.channelMax open'.channelMax
        remoteOpen := some open' })
  match c.localState with
  | .headerExchange => accepted .openReceived
  | .openSent => accepted .opened
  | .closePipe => accepted .closeSent
  | _ => (.error .illegalState, c)

/-- The session of a Begin that answers one of this side, `none` for a session begun by the peer. -/
def onIncomingBeginInner (c : Connection) (channel : UInt16) (begin' : Begin) :
    Except ConnectionInnerError (Option SessionId) × Connection :=
  if c.localState = .opened then
    match begin'.remoteChannel with
    | some outgoingChannel =>
        match c.sessionByOutgoingChannel.get outgoingChannel.toNat with
        | none => (.error (.notFound none), c)
        | some relay =>
            (.ok (some relay),
              { c with
                sessionByIncomingChannel :=
                  Function.update c.sessionByIncomingChannel channel (some relay) })
    | none => (.ok none, c)
  else (.error .illegalState, c)

/-- Forward a frame to a session. -/
def sendToSession (c : Connection) (relay : SessionId) (frame : SessionFrame) :
    Except ConnectionInnerError Unit × Connection :=
  match c.sessions.send relay frame with
  | .ok sessions => (.ok (), { c with sessions })
  | .error error => (.error error, c)

/-- `on_incoming_begin`; a listener creates the channel `newSession` for a session begun by the
peer and registers it before the application accepts the session. -/
def onIncomingBegin (c : Connection) (channel : UInt16) (begin' : Begin) (newSession : SessionId) :
    Except ConnectionInnerError Unit × Connection :=
  match c.onIncomingBeginInner channel begin' with
  | (.error error, c) => (.error error, c)
  | (.ok (some relay), c) => c.sendToSession relay ⟨channel, .begin begin'⟩
  | (.ok none, c) =>
      match c.sessionListener with
      | none =>
          (.error (.notImplemented (some "Remotely initiazted session is not supported yet")), c)
      | some listener =>
          match c.allocateSession newSession with
          | (.error _, c) => (.error (.notImplemented none), c)
          | (.ok outgoingChannel, c) =>
              let c :=
                { c with
                  sessionByIncomingChannel :=
                    Function.update c.sessionByIncomingChannel channel (some newSession) }
              if listener.dropped then (.error (.notImplemented none), c)
              else
                let incoming := listener.incoming ++ [⟨channel, begin', newSession, outgoingChannel⟩]
                (.ok (), { c with sessionListener := some { listener with incoming } })

def onIncomingEnd (c : Connection) (channel : UInt16) (end' : End) :
    Except ConnectionInnerError Unit × Connection :=
  if c.localState = .opened then
    match c.sessionByIncomingChannel channel with
    | none => (.error (.notFound none), c)
    | some relay =>
        let c :=
          { c with
            sessionByIncomingChannel := Function.update c.sessionByIncomingChannel channel none }
        c.sendToSession relay ⟨channel, .end end'⟩
  else (.error .illegalState, c)

def onIncomingClose (c : Connection) (close : Close) :
    Except ConnectionInnerError Unit × Connection :=
  match c.localState with
  | .opened | .openPipe | .openClosePipe | .openReceived | .openSent =>
      let c := { c with localState := .closeReceived }
      match close.error with
      | some error => (.error (.remoteClosedWithError error), c)
      | none => (.error .remoteClosed, c)
  | .closeSent | .discarding =>
      let c := { c with localState := .end }
      match close.error with
      | some error => (.error (.remoteClosedWithError error), c)
      | none => (.ok (), c)
  | _ => (.error .illegalState, c)

/-- The state after an Open has been written. -/
def openSent (c : Connection) : Except ConnectionInnerError Unit × Connection :=
  match c.localState with
  | .headerExchange => (.ok (), { c with localState := .openSent })
  | .openReceived => (.ok (), { c with localState := .opened })
  | .headerSent => (.ok (), { c with localState := .openPipe })
  | _ => (.error .illegalState, c)

/-- The state after a Close has been written. -/
def closeSent (c : Connection) (error : Option Error) :
    Except ConnectionInnerError Unit × Connection :=
  let sent (withoutError : ConnectionState) : Except ConnectionInnerError Unit × Connection :=
    (.ok (), { c with localState := if error.isSome then .discarding else withoutError })
  match c.localState with
  | .opened => sent .closeSent
  | .closeReceived => (.ok (), { c with localState := .end })
  | .openSent => sent .closePipe
  | .openPipe => sent .openClosePipe
  | _ => (.error .illegalState, c)

/-- `on_outgoing_begin`; a listener registers the session for the channel of the peer. -/
def onOutgoingBegin (c : Connection) (channel : UInt16) (begin' : Begin) :
    Except ConnectionInnerError Unit × Connection :=
  match c.sessionListener, begin'.remoteChannel with
  | some _, some remoteChannel =>
      match c.sessionByOutgoingChannel.get channel.toNat with
      | none => (.error (.notFound (some "Outgoing channel is not found")), c)
      | some relay =>
          (.ok (),
            { c with
              sessionByIncomingChannel :=
                Function.update c.sessionByIncomingChannel remoteChannel (some relay) })
  | _, _ => (.ok (), c)

end Connection

end Fe2o3Amqp
