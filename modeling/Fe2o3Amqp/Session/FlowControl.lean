import Fe2o3Amqp.Session.OutgoingWindow

/-!
# Two sessions and their flow control

Two mapped sessions connected by FIFO channels.  A step of the net lets one session act on its own
(a link hands over a frame, a link is allocated, a session flow is due, the link endpoints use their
cells) or process the oldest frame in flight to it; the frames it emits are appended to the channel
towards the peer.  A dispatch that fails ends the session, so such steps leave the net and are not
part of it.
-/

namespace Fe2o3Amqp

inductive Side where
  | left | right
deriving DecidableEq, Repr

def Side.other : Side → Side
  | .left => .right
  | .right => .left

@[simp] theorem Side.other_ne (x : Side) : x.other ≠ x := by cases x <;> decide

@[simp] theorem Side.ne_other (x : Side) : x ≠ x.other := by cases x <;> decide

@[simp] theorem Side.other_other (x : Side) : x.other.other = x := by cases x <;> rfl

/-- `inbox x` are the frames in flight to `x`, oldest first. -/
structure Net where
  session : Side → Session
  inbox : Side → List SessionFrame

/-- What a session does without an incoming frame. -/
inductive LocalAction where
  | linkFrame (frame : LinkFrame)
  | sessionFlow
  | allocateLink (name : String) (relay : Option (LinkRelay Unit))
  | allocateIncomingLink (name : String) (relay : LinkRelay Unit) (inputHandle : InputHandle)
  | deallocateLink (outputHandle : OutputHandle)
  | links (store : LinkStore)

namespace LocalAction

/-- First transfers carry a delivery-tag, continuations no delivery-id. -/
def WellFormed : LocalAction → Prop
  | .linkFrame (.firstTransfer frame) => frame.performative.deliveryTag.isSome
  | .linkFrame (.transferContinuation frame) => frame.performative.deliveryId = none
  | _ => True

def dispatch (s : Session) : LocalAction → Session.Dispatched
  | .linkFrame frame => s.onOutgoingLinkFrames frame
  | .sessionFlow =>
      let (item, s) := s.maybeOutgoingSessionFlow
      s.dispatched (Session.itemFrames item)
  | .allocateLink name relay => (s.allocateLink name relay).2.dispatched []
  | .allocateIncomingLink name relay inputHandle =>
      (s.allocateIncomingLink name relay inputHandle).2.dispatched []
  | .deallocateLink outputHandle => (s.deallocateLink outputHandle).2.dispatched []
  | .links store => Session.dispatched { s with links := store } []

end LocalAction

namespace Net

/-- `x` has taken its inbox down to `rest` and dispatched. -/
def commit (net : Net) (x : Side) (rest : List SessionFrame) (d : Session.Dispatched) : Net where
  session := Function.update net.session x d.session
  inbox := Function.update (Function.update net.inbox x rest) x.other (net.inbox x.other ++ d.frames)

/-- One step; `admits x frame` restricts the frames that `x` may be given. -/
inductive Step (admits : Side → SessionFrame → Prop) (net : Net) : Net → Prop
  | act (x : Side) (action : LocalAction) (h : action.WellFormed)
      (ok : (action.dispatch (net.session x)).result = .ok .continue) :
      Step admits net (net.commit x (net.inbox x) (action.dispatch (net.session x)))
  | deliver (x : Side) (pending : List LinkFrame) (frame : SessionFrame) (rest : List SessionFrame)
      (h : net.inbox x = frame :: rest) (admitted : admits x frame)
      (ok : ((net.session x).onIncoming pending frame).result = .ok .continue) :
      Step admits net (net.commit x rest ((net.session x).onIncoming pending frame))

def Reachable (admits : Side → SessionFrame → Prop) : Net → Net → Prop :=
  Relation.ReflTransGen (Step admits)

/-- The net after the begin exchange that `left` opens. -/
def begin (builder : Side → SessionBuilder) (store : Side → LinkStore) : Net :=
  let left := (builder .left).intoSession 0 .unmapped (store .left)
  let right := (builder .right).intoSession 0 .unmapped (store .right)
  let beginOf (frame : Except SessionInnerError SessionFrame) : Option Begin :=
    match frame with
    | .ok ⟨_, .begin b⟩ => some b
    | _ => none
  let receive (s : Session) (b : Option Begin) : Session :=
    match b with
    | some b => (s.onIncomingBegin 0 b).2
    | none => s
  let (frameL, left) := left.sendBegin
  let right := receive right (beginOf frameL)
  let (frameR, right) := right.sendBegin
  let left := receive left (beginOf frameR)
  { session := fun x => match x with | .left => left | .right => right
    inbox := fun _ => [] }

end Net

/-! ## Counting along a channel -/

/-- A receiver whose next-incoming-id is `n` reaches `m` over the frames, and every flow among them
announces the count reached so far. -/
def Counts (n m : Nat) : List SessionFrame → Prop
  | [] => n = m
  | frame :: frames =>
      match frame.body with
      | .transfer _ _ => Counts (n + 1) m frames
      | .flow flow => flow.nextOutgoingId.toNat = n ∧ Counts n m frames
      | _ => Counts n m frames

/-- The flows among the frames advertise the window `w` at next-incoming-ids that grow from `a`
to `b`. -/
def Acknowledges (w : UInt32) (a b : Nat) : List SessionFrame → Prop
  | [] => a = b
  | frame :: frames =>
      match frame.body with
      | .flow flow =>
          ∃ n, flow.nextIncomingId = some n ∧ a ≤ n.toNat ∧ flow.incomingWindow = w ∧
            Acknowledges w n.toNat b frames
      | _ => Acknowledges w a b frames

theorem counts_append {n m : Nat} {frames frames' : List SessionFrame} :
    Counts n m (frames ++ frames') ↔ ∃ k, Counts n k frames ∧ Counts k m frames' := by
  induction frames generalizing n with
  | nil => simp [Counts]
  | cons frame frames ih =>
      cases hbody : frame.body <;> simp [Counts, hbody, ih, and_assoc]

theorem acknowledges_append {w : UInt32} {a b : Nat} {frames frames' : List SessionFrame} :
    Acknowledges w a b (frames ++ frames') ↔
      ∃ k, Acknowledges w a k frames ∧ Acknowledges w k b frames' := by
  induction frames generalizing a with
  | nil => simp [Acknowledges]
  | cons frame frames ih =>
      cases hbody : frame.body with
      | flow flow =>
          simp only [List.cons_append, Acknowledges, hbody, ih]
          constructor
          · rintro ⟨n, hn, ha, hw, k, h, h'⟩
            exact ⟨k, ⟨n, hn, ha, hw, h⟩, h'⟩
          · rintro ⟨k, ⟨n, hn, ha, hw, h⟩, h'⟩
            exact ⟨n, hn, ha, hw, k, h, h'⟩
      | _ => simp [Acknowledges, hbody, ih]

theorem counts_length {n m : Nat} {frames : List SessionFrame} (h : Counts n m frames) :
    n + (transfersOf frames).length = m := by
  induction frames generalizing n with
  | nil => simpa [Counts] using h
  | cons frame frames ih =>
      cases hbody : frame.body <;> simp only [Counts, hbody] at h <;>
        simp only [transfersOf, List.filterMap_cons, hbody]
      case transfer =>
        have := ih h
        simp only [transfersOf] at this
        rw [List.length_cons]
        omega
      case flow => exact ih h.2
      all_goals exact ih h

theorem acknowledges_le {w : UInt32} {a b : Nat} {frames : List SessionFrame}
    (h : Acknowledges w a b frames) : a ≤ b := by
  induction frames generalizing a with
  | nil => exact Nat.le_of_eq h
  | cons frame frames ih =>
      cases hbody : frame.body <;> simp only [Acknowledges, hbody] at h
      case flow =>
        obtain ⟨n, -, ha, -, h⟩ := h
        exact ha.trans (ih h)
      all_goals exact ih h

/-- Neither a transfer nor a flow. -/
def SessionFrame.isPlain (frame : SessionFrame) : Bool :=
  match frame.body with
  | .transfer _ _ | .flow _ => false
  | _ => true

theorem counts_plain (n : Nat) {frames : List SessionFrame} (h : ∀ f ∈ frames, f.isPlain) :
    Counts n n frames := by
  induction frames with
  | nil => rfl
  | cons frame frames ih =>
      have hframe := h frame (by simp)
      have hrest := ih fun f hf => h f (by simp [hf])
      cases hbody : frame.body <;> simp_all [Counts, SessionFrame.isPlain]

theorem acknowledges_plain (w : UInt32) (a : Nat) {frames : List SessionFrame}
    (h : ∀ f ∈ frames, f.isPlain) : Acknowledges w a a frames := by
  induction frames with
  | nil => rfl
  | cons frame frames ih =>
      have hframe := h frame (by simp)
      have hrest := ih fun f hf => h f (by simp [hf])
      cases hbody : frame.body <;> simp_all [Acknowledges, SessionFrame.isPlain]

end Fe2o3Amqp
