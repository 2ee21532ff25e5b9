import Fe2o3Amqp.Session.Model

/-!
# AMQP frames

A frame as the connection sees it: a channel and a performative, or nothing.
-/

namespace Fe2o3Amqp

inductive FrameBody where
  -- frames handled by the links
  | attach (attach : Attach)
  | flow (flow : Flow)
  | transfer (performative : Transfer) (payload : Payload)
  | disposition (disposition : Disposition)
  | detach (detach : Detach)
  -- frames handled by the session
  | begin (begin : Begin)
  | «end» (end' : End)
  -- frames handled by the connection
  | open (open' : Open)
  | close (close : Close)
  /-- Only resets the idle timeout. -/
  | empty

structure Frame where
  channel : UInt16
  body : FrameBody

def Frame.empty : Frame := ⟨0, .empty⟩

/-- The frame that carries a session frame. -/
def SessionFrame.toFrame (frame : SessionFrame) : Frame where
  channel := frame.channel
  body :=
    match frame.body with
    | .begin begin' => .begin begin'
    | .attach attach => .attach attach
    | .flow flow => .flow flow
    | .transfer performative payload => .transfer performative payload
    | .disposition disposition => .disposition disposition
    | .detach detach => .detach detach
    | .end end' => .end end'

end Fe2o3Amqp
