import Fe2o3Amqp.Session.Engine

/-!
# The session of a listener

`ListenerSession` wraps a session and hands the links that the peer attaches to the application.  A
frame for a handle that is not registered yet takes a path of its own: the link part of a Flow is
kept until the link is accepted, a Transfer is dropped.  The engine is the session engine, run with
the methods that the wrapper replaces.
-/

namespace Fe2o3Amqp

open Session (Dispatched itemFrames)

/-- The channel on which a listener hands out the Attach of an incoming link. -/
structure LinkListener where
  incoming : List Attach
  dropped : Bool

/-- What a listener keeps beside its session.  `pendingLinkFlows` are the Flows of links that are
not accepted yet. -/
structure ListenerQueues where
  linkListener : LinkListener
  pendingLinkFlows : InputHandle → List LinkFlow

structure ListenerSession extends ListenerQueues where
  session : Session

/-- Apply a Flow that was kept; the reply that it may ask for is dropped. -/
def LinkRelay.replay (relay : LinkRelay OutputHandle) (links : LinkStore) (flow : LinkFlow) :
    LinkStore :=
  match relay with
  | .sender link outputHandle _ =>
      links.modify link fun cell =>
        { cell with flowState := (cell.flowState.senderOnIncomingFlow flow outputHandle).1 }
  | .receiver link outputHandle _ _ =>
      links.modify link fun cell =>
        { cell with flowState := (cell.flowState.receiverOnIncomingFlow flow outputHandle).1 }

namespace ListenerSession

def allocateIncomingLink (l : ListenerSession) (linkName : String) (linkRelay : LinkRelay Unit)
    (inputHandle : InputHandle) : Except AllocLinkError OutputHandle × ListenerSession :=
  match l.session.allocateIncomingLink linkName linkRelay inputHandle with
  | (.error e, session) => (.error e, { l with session })
  | (.ok outputHandle, session) =>
      let links :=
        match session.linkByInputHandle inputHandle with
        | some relay => (l.pendingLinkFlows inputHandle).foldl relay.replay session.links
        | none => session.links
      (.ok outputHandle,
        { l with
          session := { session with links }
          pendingLinkFlows := Function.update l.pendingLinkFlows inputHandle [] })

/-- Hand an Attach to the application. -/
def listen (l : ListenerSession) (attach : Attach) (error : SessionInnerError) :
    Except SessionInnerError Unit × ListenerSession :=
  if l.linkListener.dropped then (.error error, l)
  else
    (.ok (),
      { l with linkListener := ⟨l.linkListener.incoming ++ [attach], l.linkListener.dropped⟩ })

def onIncomingAttach (l : ListenerSession) (attach : Attach) :
    Except SessionInnerError Unit × ListenerSession :=
  match l.session.linkByName attach.name with
  | some (some _) =>
      let (result, session) := l.session.onIncomingAttach attach
      (result, { l with session })
  | some none => l.listen attach .handleInUse
  | none => l.listen attach .unattachedHandle

def onIncomingFlow (l : ListenerSession) (flow : Flow) :
    Except SessionInnerError (Option SessionOutgoingItem) × ListenerSession :=
  match l.session.onIncomingFlow flow with
  | (.error .unattachedHandle, session) =>
      let l := { l with session }
      match LinkFlow.tryFrom flow with
      | some linkFlow =>
          let inputHandle : InputHandle := ⟨linkFlow.handle⟩
          (.ok none,
            { l with
              pendingLinkFlows := Function.update l.pendingLinkFlows inputHandle
                (l.pendingLinkFlows inputHandle ++ [linkFlow]) })
      | none => (.ok none, l)
  | (result, session) => (result, { l with session })

def onIncomingTransfer (l : ListenerSession) (transfer : Transfer) (payload : Payload) :
    Except SessionInnerError (Option Disposition) × ListenerSession :=
  match l.session.onIncomingTransfer transfer payload with
  | (.error .unattachedHandle, session) => (.ok none, { l with session })
  | (result, session) => (result, { l with session })

/-- The dispatch of the frames whose methods a listener replaces, `none` for any other frame. -/
def onIncoming (l : ListenerSession) (incoming : SessionFrame) :
    Option (Dispatched × ListenerQueues) :=
  match incoming.body with
  | .attach attach =>
      some <|
        match l.onIncomingAttach attach with
        | (.ok _, l) => (l.session.dispatched [], l.toListenerQueues)
        | (.error e, l) => (⟨[], .error e, l.session⟩, l.toListenerQueues)
  | .flow flow =>
      some <|
        match l.onIncomingFlow flow with
        | (.ok item, l) => (l.session.dispatched (itemFrames item), l.toListenerQueues)
        | (.error e, l) => (⟨[], .error e, l.session⟩, l.toListenerQueues)
  | .transfer performative payload =>
      some <|
        match l.onIncomingTransfer performative payload with
        | (.error e, l) => (⟨[], .error e, l.session⟩, l.toListenerQueues)
        | (.ok disposition, l) =>
            let (frames, s) := l.session.sendDispositions disposition.toList
            let (item, s) := s.maybeOutgoingSessionFlow
            (s.dispatched (frames ++ itemFrames item), l.toListenerQueues)
  | _ => none

end ListenerSession

/-- What follows the dispatch of a frame other than End, wherever the engine waited for it. -/
def SessionEngine.resume (e : SessionEngine) (out : Dispatched) :
    SessionEngine × List SessionFrame :=
  match e.phase with
  | .waitForRemoteEnd _ _ _ =>
      match out.result with
      | .ok _ => (e.withSession out.session, out.frames)
      | .error error => ((e.withSession out.session).stop (.error error), out.frames)
  | .handlesDropped =>
      let (e, frames) := (e.withSession out.session).onHandlesDropped
      (e, out.frames ++ frames)
  | _ => e.settle out

structure ListenerSessionEngine where
  engine : SessionEngine
  listener : ListenerQueues

inductive ListenerSessionEvent where
  | engine (event : SessionEngineEvent)
  /-- What the application does to the channel of incoming links. -/
  | listener (linkListener : LinkListener)

namespace ListenerSessionEngine

/-- The engine of a session that the listener has just accepted. -/
def start (builder : SessionBuilder) (outgoingChannel : UInt16) (localState : SessionState)
    (links : LinkStore) : ListenerSessionEngine where
  engine := .start builder outgoingChannel localState links
  listener := ⟨⟨[], false⟩, fun _ => []⟩

def session (l : ListenerSessionEngine) : ListenerSession :=
  { l.listener with session := l.engine.session }

/-- An event that the session handles by itself. -/
def stepEngine (l : ListenerSessionEngine) (event : SessionEngineEvent) :
    ListenerSessionEngine × List SessionFrame :=
  let (engine, frames) := l.engine.step event
  ({ l with engine }, frames)

def onIncoming (l : ListenerSessionEngine) (frame : SessionFrame) :
    ListenerSessionEngine × List SessionFrame :=
  match l.session.onIncoming frame with
  | none => l.stepEngine (.incoming (some frame))
  | some (out, listener) =>
      match l.engine.phase with
      | .waitForRemoteEnd true _ _ | .stopped _ => (l, [])
      | _ =>
          let (engine, frames) := l.engine.resume out
          (⟨engine, listener⟩, frames)

def allocateIncomingLink (l : ListenerSessionEngine) (linkName : String)
    (linkRelay : LinkRelay Unit) (inputHandle : InputHandle) (responderDropped : Bool) :
    ListenerSessionEngine × List SessionFrame :=
  match l.engine.phase with
  | .eventLoop =>
      let (_, session) := l.session.allocateIncomingLink linkName linkRelay inputHandle
      let (engine, frames) := l.engine.settle (session.session.responded responderDropped)
      (⟨engine, session.toListenerQueues⟩, frames)
  | _ => (l, [])

def step (l : ListenerSessionEngine) :
    ListenerSessionEvent → ListenerSessionEngine × List SessionFrame
  | .engine (.incoming (some frame)) => l.onIncoming frame
  | .engine (.control (some (.allocateIncomingLink linkName linkRelay inputHandle
      responderDropped))) => l.allocateIncomingLink linkName linkRelay inputHandle responderDropped
  | .engine event => l.stepEngine event
  | .listener linkListener => ({ l with listener := { l.listener with linkListener } }, [])

end ListenerSessionEngine

end Fe2o3Amqp
