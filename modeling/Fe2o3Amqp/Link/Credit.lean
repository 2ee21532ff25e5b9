import Fe2o3Amqp.Link.SenderLink
import Fe2o3Amqp.Util.Run

/-!
# Credit between a sender and a receiver

The flow states at the two ends of a link and everything between them: the frames of a send in
progress, those that the sender's session has not written, the wire, and the queue of the receiving
link.  A session applies an incoming flow to the shared flow state at once, so that a flow passes
the transfers that still wait in front of a link.
-/

namespace Fe2o3Amqp

structure LinkPair where
  sender : LinkFlowStateInner
  senderHandle : OutputHandle
  /-- The send in progress, which has consumed its credit. -/
  sending : Option TransferSplit
  /-- The frames that were handed to the sender's session and not written. -/
  outgoing : List LinkFrame
  toReceiver : List LinkFrame
  receiver : ReceiverLink
  receiverHandle : OutputHandle
  /-- The transfers that wait for the receiver. -/
  incoming : List LinkTransfer
  toSender : List LinkFlow

inductive PairEvent where
  /-- A send takes a credit and begins its delivery. -/
  | send (split : TransferSplit)
  /-- The send in progress hands a frame to its session. -/
  | handOver
  /-- The sender's session writes a frame of the link. -/
  | write
  /-- A frame reaches the receiver's session. -/
  | arrive
  /-- The receiver takes a frame off its queue; the rest is what it has put together of the delivery
  that the frame completes. -/
  | receive (transfer : Transfer) (payload : List Payload) (sectionNumber : UInt32)
      (sectionOffset : UInt64)
  /-- `send_flow`: `set_credit`, `drain`, the refill of the credit and the echo request. -/
  | flow (linkCredit : Option UInt32) (drain : Option Bool) (echo includeProperties : Bool)
  /-- A flow reaches the sender's session. -/
  | grant

/-- The receiver's `set_credit`. -/
def PairEvent.setCredit (credit : UInt32) : PairEvent := .flow (some credit) (some false) false false

/-- The receiver's `drain`, if it is not draining. -/
def PairEvent.drain : PairEvent := .flow none (some true) false false

namespace LinkPair

section Step

variable {M E : Type} (decode : Bytes → Except E M)

def withReceiverState (p : LinkPair) (flowState : LinkFlowStateInner) : LinkPair :=
  { p with receiver := { p.receiver with flowState } }

def handOver (p : LinkPair) : LinkPair :=
  match p.sending with
  | none => p
  | some split =>
      { p with outgoing := p.outgoing ++ [split.next.1], sending := split.next.2 }

def arrive (p : LinkPair) : LinkPair :=
  match p.toReceiver with
  | [] => p
  | .flow flow :: toReceiver =>
      let (flowState, reply) := p.receiver.flowState.receiverOnIncomingFlow flow p.receiverHandle
      { p.withReceiverState flowState with
        toReceiver
        toSender := p.toSender ++ reply.toList }
  | .firstTransfer frame :: toReceiver | .transferContinuation frame :: toReceiver
  | .remoteTransfer frame :: toReceiver =>
      { p with toReceiver, incoming := p.incoming ++ [frame] }
  | _ :: toReceiver => { p with toReceiver }

def receive (p : LinkPair) (transfer : Transfer) (payload : List Payload) (sectionNumber : UInt32)
    (sectionOffset : UInt64) :
    LinkPair × List (Except (ReceiverTransferError E) (Delivery M)) :=
  match p.incoming with
  | [] => (p, [])
  | frame :: incoming =>
      if frame.performative.more then ({ p with incoming }, [])
      else
        let (result, receiver) :=
          p.receiver.onCompleteTransfer decode transfer payload sectionNumber sectionOffset
        ({ p with incoming, receiver }, [result])

def flow (p : LinkPair) (linkCredit : Option UInt32) (drain : Option Bool)
    (echo includeProperties : Bool) : LinkPair :=
  match p.receiver.outputHandle with
  | none => p
  | some handle =>
      let (flow, receiver) :=
        p.receiver.getLinkFlow handle.handle linkCredit drain echo includeProperties
      { p with receiver, toSender := p.toSender ++ [flow] }

/-- The reply is written at once; it passes what waits in the queue of the session. -/
def grant (p : LinkPair) : LinkPair :=
  match p.toSender with
  | [] => p
  | flow :: toSender =>
      let (sender, reply) := p.sender.senderOnIncomingFlow flow p.senderHandle
      { p with sender, toSender, toReceiver := p.toReceiver ++ (reply.map .flow).toList }

/-- One event, and the result of a delivery that it completes. -/
def step (p : LinkPair) :
    PairEvent → LinkPair × List (Except (ReceiverTransferError E) (Delivery M))
  | .send split =>
      match p.sending, p.sender.consumeLinkCredit 1 with
      | none, some (_, sender) => ({ p with sender, sending := some split }, [])
      | _, _ => (p, [])
  | .handOver => (p.handOver, [])
  | .write =>
      match p.outgoing with
      | [] => (p, [])
      | frame :: outgoing => ({ p with outgoing, toReceiver := p.toReceiver ++ [frame] }, [])
  | .arrive => (p.arrive, [])
  | .receive transfer payload sectionNumber sectionOffset =>
      p.receive decode transfer payload sectionNumber sectionOffset
  | .flow linkCredit drain echo includeProperties =>
      (p.flow linkCredit drain echo includeProperties, [])
  | .grant => (p.grant, [])

end Step

/-- Nothing is queued or on the way. -/
structure Quiet (p : LinkPair) : Prop where
  sending : p.sending = none
  outgoing : p.outgoing = []
  toReceiver : p.toReceiver = []
  incoming : p.incoming = []
  toSender : p.toSender = []

/-- A link that was just attached for the first time. -/
def attached (flowState : LinkFlowStateInner) (senderHandle receiverHandle : OutputHandle)
    (receiver : ReceiverLink) : LinkPair where
  sender := { flowState with deliveryCount := flowState.initialDeliveryCount, linkCredit := 0 }
  senderHandle := senderHandle
  sending := none
  outgoing := []
  toReceiver := []
  receiver :=
    { receiver with
      localState := .attached
      flowState :=
        { receiver.flowState with
          initialDeliveryCount := flowState.initialDeliveryCount
          deliveryCount := flowState.initialDeliveryCount } }
  receiverHandle := receiverHandle
  incoming := []
  toSender := []

/-! ## When the two ends agree -/

/-- The delivery-limit that a flow of the receiver carries. -/
def limitOf (flow : LinkFlow) : Nat :=
  (flow.deliveryCount.getD 0).toNat + (flow.linkCredit.getD 0).toNat

/-- The sender's session answers a flow only when no frame of the link waits in front of it; the
receiver's session takes an answer only when no transfer waits in front of the receiver; and the
receiver does not take back a credit that the sender has or is about to get. -/
def Orderly (p : LinkPair) : PairEvent → Prop
  | .grant =>
      ∀ flow ∈ p.toSender.head?, flow.drain = true ∨ flow.echo = true →
        p.sending = none ∧ p.outgoing = []
  | .arrive => ∀ flow, p.toReceiver.head? = some (.flow flow) → p.incoming = []
  | .flow (some linkCredit) _ _ _ =>
      let limit := p.receiver.flowState.deliveryCount.toNat + linkCredit.toNat
      p.sender.deliveryCount.toNat + p.sender.linkCredit.toNat ≤ limit ∧
        ∀ flow ∈ p.toSender, limitOf flow ≤ limit
  | _ => True

instance (p : LinkPair) : (e : PairEvent) → Decidable (p.Orderly e)
  | .grant =>
      inferInstanceAs (Decidable (∀ flow ∈ p.toSender.head?, flow.drain = true ∨ flow.echo = true →
        p.sending = none ∧ p.outgoing = []))
  | .arrive =>
      match h : p.toReceiver.head? with
      | some (.flow _) =>
          decidable_of_iff (p.incoming = []) <| by simp [Orderly, h]
      | none | some (.attach _) | some (.firstTransfer _) | some (.transferContinuation _)
      | some (.remoteTransfer _) | some (.disposition _) | some (.detach _)
      | some (.acquisition _) => .isTrue <| by simp [Orderly, h]
  | .flow (some linkCredit) _ _ _ =>
      inferInstanceAs (Decidable (p.sender.deliveryCount.toNat + p.sender.linkCredit.toNat ≤
        p.receiver.flowState.deliveryCount.toNat + linkCredit.toNat ∧ ∀ flow ∈ p.toSender,
          limitOf flow ≤ p.receiver.flowState.deliveryCount.toNat + linkCredit.toNat))
  | .flow none _ _ _ | .send _ | .handOver | .write | .receive .. => .isTrue trivial

/-- The count that the receiver reaches from `r` by the frames, if no answer on the way takes it
back. -/
def Climbs (r : Nat) : List LinkFrame → Nat → Prop
  | [], s => r = s
  | .flow flow :: frames, s =>
      ∃ count, flow.deliveryCount = some count ∧ r ≤ count.toNat ∧ Climbs count.toNat frames s
  | .firstTransfer frame :: frames, s | .transferContinuation frame :: frames, s
  | .remoteTransfer frame :: frames, s =>
      Climbs (if frame.performative.more then r else r + 1) frames s
  | _ :: frames, s => Climbs r frames s

theorem climbs_append {r s : Nat} {frames frames' : List LinkFrame} :
    Climbs r (frames ++ frames') s ↔ ∃ m, Climbs r frames m ∧ Climbs m frames' s := by
  induction frames generalizing r with
  | nil => simp [Climbs]
  | cons frame frames ih =>
      cases frame with
      | flow flow =>
          simp only [List.cons_append, Climbs, ih]
          constructor
          · rintro ⟨count, hcount, hle, m, hfirst, hrest⟩
            exact ⟨m, ⟨count, hcount, hle, hfirst⟩, hrest⟩
          · rintro ⟨m, ⟨count, hcount, hle, hfirst⟩, hrest⟩
            exact ⟨count, hcount, hle, m, hfirst, hrest⟩
      | _ => simp only [List.cons_append, Climbs, ih]

theorem Climbs.le {r s : Nat} {frames : List LinkFrame} (h : Climbs r frames s) : r ≤ s := by
  induction frames generalizing r with
  | nil => exact Nat.le_of_eq h
  | cons frame frames ih =>
      cases frame with
      | flow flow =>
          obtain ⟨count, -, hle, hrest⟩ := h
          exact hle.trans (ih hrest)
      | firstTransfer frame | transferContinuation frame | remoteTransfer frame =>
          have hrest : (if frame.performative.more then r else r + 1) ≤ s := ih h
          split_ifs at hrest <;> omega
      | attach attach => exact ih h
      | disposition disposition => exact ih h
      | detach detach => exact ih h
      | acquisition txnId => exact ih h

/-- The frames between the two ends, the one that the receiver takes next first. -/
def pipeline (p : LinkPair) : List LinkFrame :=
  p.incoming.map .remoteTransfer ++ (p.toReceiver ++ p.outgoing)

/-- A delivery that was begun and whose last frame is still with the sender. -/
def begun (p : LinkPair) : Nat := if p.sending.isSome then 1 else 0

structure Agrees (p : LinkPair) : Prop where
  attached : p.receiver.localState = .attached
  counts : ∃ s, Climbs p.receiver.flowState.deliveryCount.toNat p.pipeline s ∧
    p.sender.deliveryCount.toNat = s + p.begun
  room : p.sender.deliveryCount.toNat + p.sender.linkCredit.toNat < 2 ^ 32
  limit : p.sender.deliveryCount.toNat + p.sender.linkCredit.toNat ≤
    p.receiver.flowState.deliveryCount.toNat + p.receiver.flowState.linkCredit.toNat
  grants : ∀ flow ∈ p.toSender, ∃ count credit, flow.deliveryCount = some count ∧
    flow.linkCredit = some credit ∧ count.toNat + credit.toNat ≤
      p.receiver.flowState.deliveryCount.toNat + p.receiver.flowState.linkCredit.toNat

/-! ## One event -/

section Events

variable {p : LinkPair}

/-- The frame of a split completes a delivery exactly when nothing is left of the split. -/
theorem climbs_next (split : TransferSplit) (r s : Nat) :
    Climbs r [split.next.1] s ↔ (if split.next.2.isSome then r else r + 1) = s := by
  by_cases hmore : split.payload.length > split.maxPayload
  · cases hfirst : split.isFirst <;>
      simp [TransferSplit.next, hmore, TransferSplit.frame, hfirst, Climbs]
  · cases hfirst : split.isFirst <;>
      simp [TransferSplit.next, hmore, TransferSplit.frame, hfirst, Climbs]

theorem Agrees.send (h : p.Agrees) (hidle : p.sending = none) (split : TransferSplit)
    {tag : DeliveryTag} {sender : LinkFlowStateInner}
    (hconsume : p.sender.consumeLinkCredit 1 = some (tag, sender)) :
    Agrees { p with sender, sending := some split } := by
  simp only [LinkFlowStateInner.consumeLinkCredit] at hconsume
  split_ifs at hconsume with hcredit
  have hone : (1 : UInt32).toNat = 1 := rfl
  have hpositive : 1 ≤ p.sender.linkCredit.toNat := by
    rw [UInt32.lt_iff_toNat_lt, hone] at hcredit
    omega
  have hroom := h.room
  have hlimit := h.limit
  have hcount : (p.sender.deliveryCount + 1).toNat = p.sender.deliveryCount.toNat + 1 :=
    UInt32.toNat_add_one (by omega)
  cases hconsume
  obtain ⟨s, hclimbs, hcounted⟩ := h.counts
  refine ⟨h.attached, ⟨s, hclimbs, ?_⟩, ?_, ?_, h.grants⟩
  · simp only [begun, hidle, Option.isSome_none, Bool.false_eq_true, if_false] at hcounted
    simp only [begun, Option.isSome_some, if_true, hcount]
    omega
  · simp only [hcount, UInt32.toNat_saturatingSub, hone]
    omega
  · simp only [hcount, UInt32.toNat_saturatingSub, hone]
    omega

theorem Agrees.handOver (h : p.Agrees) : p.handOver.Agrees := by
  simp only [LinkPair.handOver]
  cases hsending : p.sending with
  | none => exact h
  | some split =>
      obtain ⟨s, hclimbs, hcounted⟩ := h.counts
      simp only [begun, hsending, Option.isSome_some, if_true] at hcounted
      refine ⟨h.attached, ⟨if split.next.2.isSome then s else s + 1, ?_, ?_⟩, h.room, h.limit, h.grants⟩
      · have hpipeline : pipeline { p with
            outgoing := p.outgoing ++ [split.next.1], sending := split.next.2 } =
            p.pipeline ++ [split.next.1] := by
          simp [pipeline]
        rw [hpipeline]
        exact climbs_append.mpr ⟨s, hclimbs, (climbs_next split s _).mpr rfl⟩
      · simp only [begun]
        split_ifs <;> omega

theorem Agrees.write (h : p.Agrees) {frame : LinkFrame} {outgoing : List LinkFrame}
    (hqueue : p.outgoing = frame :: outgoing) :
    Agrees { p with outgoing, toReceiver := p.toReceiver ++ [frame] } := by
  have hpipeline : pipeline { p with outgoing, toReceiver := p.toReceiver ++ [frame] } =
      p.pipeline := by
    simp [pipeline, hqueue]
  obtain ⟨s, hclimbs, hcounted⟩ := h.counts
  refine ⟨h.attached, ⟨s, ?_, hcounted⟩, h.room, h.limit, h.grants⟩
  rw [hpipeline]
  exact hclimbs

/-- A transfer moves from the wire to the queue of the receiver. -/
theorem Agrees.queue (h : p.Agrees) {frame : LinkFrame} {transfer : LinkTransfer}
    {toReceiver : List LinkFrame} (hwire : p.toReceiver = frame :: toReceiver)
    (hsame : ∀ r frames s, Climbs r (frame :: frames) s ↔ Climbs r (.remoteTransfer transfer :: frames) s) :
    Agrees { p with toReceiver, incoming := p.incoming ++ [transfer] } := by
  obtain ⟨s, hclimbs, hcounted⟩ := h.counts
  refine ⟨h.attached, ⟨s, ?_, hcounted⟩, h.room, h.limit, h.grants⟩
  simp only [pipeline, hwire, List.map_append, List.map_singleton, List.append_assoc,
    List.cons_append, List.nil_append] at hclimbs ⊢
  obtain ⟨m, hqueued, hrest⟩ := climbs_append.mp hclimbs
  exact climbs_append.mpr ⟨m, hqueued, (hsame m _ s).mp hrest⟩

theorem Agrees.arrive (h : p.Agrees)
    (hqueue : ∀ flow, p.toReceiver.head? = some (.flow flow) → p.incoming = []) :
    p.arrive.Agrees := by
  simp only [LinkPair.arrive]
  cases hwire : p.toReceiver with
  | nil => exact h
  | cons frame toReceiver =>
      obtain ⟨s, hclimbs, hcounted⟩ := h.counts
      cases frame with
      | flow flow =>
          have hempty : p.incoming = [] := hqueue flow (by simp [hwire])
          simp only [pipeline, hempty, hwire, List.map_nil, List.nil_append, List.cons_append, Climbs] at hclimbs
          obtain ⟨count, hcount, hle, hrest⟩ := hclimbs
          -- the answer takes the receiver to the sender's count and leaves its credit
          have hstate : (p.receiver.flowState.receiverOnIncomingFlow flow p.receiverHandle).1.deliveryCount = count ∧
              (p.receiver.flowState.receiverOnIncomingFlow flow p.receiverHandle).1.linkCredit =
                p.receiver.flowState.linkCredit := by
            simp only [LinkFlowStateInner.receiverOnIncomingFlow, hcount, Option.getD_some]
            split_ifs <;> exact ⟨rfl, rfl⟩
          have hreply : ∀ reply ∈ (p.receiver.flowState.receiverOnIncomingFlow flow p.receiverHandle).2,
              reply.deliveryCount = some count ∧
                reply.linkCredit = some p.receiver.flowState.linkCredit := by
            intro reply hmem
            simp only [LinkFlowStateInner.receiverOnIncomingFlow, hcount, Option.getD_some] at hmem
            split_ifs at hmem
            · cases hmem
              exact ⟨rfl, rfl⟩
            · cases hmem
          obtain ⟨hcount', hcredit'⟩ := hstate
          refine ⟨h.attached, ⟨s, ?_, hcounted⟩, h.room, ?_, ?_⟩
          · simp only [pipeline, withReceiverState, hempty, List.map_nil, List.nil_append, hcount']
            exact hrest
          · simp only [withReceiverState, hcount', hcredit']
            exact h.limit.trans (by omega)
          · intro flow' hmem
            simp only [withReceiverState, hcount', hcredit']
            rcases List.mem_append.mp hmem with hmem | hmem
            · obtain ⟨count', credit, hcount'', hcredit, hbound⟩ := h.grants flow' hmem
              exact ⟨count', credit, hcount'', hcredit, hbound.trans (by omega)⟩
            · obtain ⟨hcount'', hcredit⟩ := hreply flow' (Option.mem_toList.mp hmem)
              exact ⟨count, _, hcount'', hcredit, le_rfl⟩
      | firstTransfer transfer => exact h.queue hwire fun _ _ _ => Iff.rfl
      | transferContinuation transfer => exact h.queue hwire fun _ _ _ => Iff.rfl
      | remoteTransfer transfer => exact h.queue hwire fun _ _ _ => Iff.rfl
      | attach _ | disposition _ | detach _ | acquisition _ =>
          refine ⟨h.attached, ⟨s, ?_, hcounted⟩, h.room, h.limit, h.grants⟩
          simp only [pipeline, hwire, List.cons_append] at hclimbs ⊢
          obtain ⟨m, hqueued, hrest⟩ := climbs_append.mp hclimbs
          exact climbs_append.mpr ⟨m, hqueued, hrest⟩

/-- What a completed delivery does to an attached link that has credit for it: one credit is gone,
whatever becomes of the message. -/
theorem onCompleteTransfer_consumes {M E : Type} (decode : Bytes → Except E M) (link : ReceiverLink)
    (hattached : link.localState = .attached) (hcredit : 1 ≤ link.flowState.linkCredit.toNat)
    (transfer : Transfer) (payload : List Payload) (sectionNumber : UInt32) (sectionOffset : UInt64) :
    let out := link.onCompleteTransfer decode transfer payload sectionNumber sectionOffset
    out.1 ≠ .error .transferLimitExceeded ∧ out.2.localState = .attached ∧
      out.2.flowState.deliveryCount = link.flowState.deliveryCount + 1 ∧
      out.2.flowState.linkCredit = link.flowState.linkCredit.saturatingSub 1 := by
  have hone : (1 : UInt32).toNat = 1 := rfl
  have henough : ¬link.flowState.linkCredit < 1 := by
    rw [UInt32.lt_iff_toNat_lt, hone]
    omega
  have hhandOver : ∀ (link : ReceiverLink) (info : DeliveryInfo) (messageFormat : Option MessageFormat)
      (result : Except E M), link.handOver info messageFormat result ≠ .error .transferLimitExceeded := by
    intro link info messageFormat result
    simp only [ReceiverLink.handOver]
    cases result with
    | error source => simp
    | ok message => cases link.outputHandle <;> simp
  simp only [ReceiverLink.onCompleteTransfer, hattached, ne_eq, not_true, false_and, if_false,
    ReceiverLink.consume, henough]
  cases transfer.deliveryId with
  | none => simp
  | some deliveryId =>
      cases transfer.deliveryTag with
      | none => simp
      | some deliveryTag =>
          dsimp only
          split_ifs
          · exact ⟨hhandOver _ _ _ _, rfl, rfl, rfl⟩
          · simp only [ReceiverLink.transferSettleMode]
            cases transfer.rcvSettleMode with
            | none => exact ⟨hhandOver _ _ _ _, rfl, rfl, rfl⟩
            | some mode =>
                dsimp only
                split_ifs
                · exact ⟨by simp, rfl, rfl, rfl⟩
                · exact ⟨hhandOver _ _ _ _, rfl, rfl, rfl⟩

theorem Agrees.receive {M E : Type} (decode : Bytes → Except E M) (h : p.Agrees)
    (transfer : Transfer) (payload : List Payload) (sectionNumber : UInt32) (sectionOffset : UInt64) :
    (p.receive decode transfer payload sectionNumber sectionOffset).1.Agrees ∧
      ∀ result ∈ (p.receive decode transfer payload sectionNumber sectionOffset).2,
        result ≠ .error .transferLimitExceeded := by
  obtain ⟨s, hclimbs, hcounted⟩ := h.counts
  simp only [LinkPair.receive]
  cases hqueue : p.incoming with
  | nil => exact ⟨h, by simp⟩
  | cons frame incoming =>
      simp only [pipeline, hqueue, List.map_cons, List.cons_append, Climbs] at hclimbs
      cases hmore : frame.performative.more with
      | true =>
          simp only [hmore, if_true] at hclimbs ⊢
          exact ⟨⟨h.attached, ⟨s, hclimbs, hcounted⟩, h.room, h.limit, h.grants⟩, by simp⟩
      | false =>
          simp only [hmore, Bool.false_eq_true, if_false] at hclimbs ⊢
          have hone : (1 : UInt32).toNat = 1 := rfl
          have hlast := hclimbs.le
          have hroom := h.room
          have hlimit := h.limit
          have hcredit : 1 ≤ p.receiver.flowState.linkCredit.toNat := by omega
          obtain ⟨hresult, hattached, hcount, hleft⟩ := onCompleteTransfer_consumes decode
            p.receiver h.attached hcredit transfer payload sectionNumber sectionOffset
          have hcount' : (p.receiver.flowState.deliveryCount + 1).toNat =
              p.receiver.flowState.deliveryCount.toNat + 1 := UInt32.toNat_add_one (by omega)
          refine ⟨⟨hattached, ⟨s, ?_, hcounted⟩, hroom, ?_, ?_⟩, ?_⟩
          · simp only [pipeline, hcount, hcount']
            exact hclimbs
          · simp only [hcount, hcount', hleft, UInt32.toNat_saturatingSub, hone]
            omega
          · intro flow hmem
            obtain ⟨count, credit, hflowCount, hflowCredit, hbound⟩ := h.grants flow hmem
            refine ⟨count, credit, hflowCount, hflowCredit, ?_⟩
            simp only [hcount, hcount', hleft, UInt32.toNat_saturatingSub, hone]
            omega
          · intro result hmem
            rw [List.mem_singleton] at hmem
            rw [hmem]
            exact hresult

theorem Agrees.flow (h : p.Agrees) {linkCredit : Option UInt32} {drain : Option Bool}
    {echo includeProperties : Bool}
    (horderly : p.Orderly (.flow linkCredit drain echo includeProperties)) :
    (p.flow linkCredit drain echo includeProperties).Agrees := by
  simp only [LinkPair.flow]
  cases p.receiver.outputHandle with
  | none => exact h
  | some handle =>
      simp only [ReceiverLink.getLinkFlow]
      obtain ⟨s, hclimbs, hcounted⟩ := h.counts
      cases linkCredit with
      | none =>
          refine ⟨h.attached, ⟨s, hclimbs, hcounted⟩, h.room, h.limit, ?_⟩
          intro flow hmem
          rcases List.mem_append.mp hmem with hmem | hmem
          · exact h.grants flow hmem
          · rw [List.mem_singleton] at hmem
            rw [hmem]
            exact ⟨_, _, rfl, rfl, le_rfl⟩
      | some credit =>
          obtain ⟨hlimit, hgrants⟩ := horderly
          refine ⟨h.attached, ⟨s, hclimbs, hcounted⟩, h.room, hlimit, ?_⟩
          intro flow hmem
          rcases List.mem_append.mp hmem with hmem | hmem
          · obtain ⟨count, credit', hflowCount, hflowCredit, -⟩ := h.grants flow hmem
            have hbound := hgrants flow hmem
            simp only [limitOf, hflowCount, hflowCredit, Option.getD_some] at hbound
            exact ⟨count, credit', hflowCount, hflowCredit, hbound⟩
          · rw [List.mem_singleton] at hmem
            rw [hmem]
            exact ⟨_, _, rfl, rfl, le_rfl⟩

/-- What a flow with a count and a credit does to the sender: its limit is that of the flow, unless
it is already past it; a flow that drains takes the rest of the credit; a reply carries the new
count. -/
theorem senderOnIncomingFlow_limit (state : LinkFlowStateInner) (flow : LinkFlow)
    (handle : OutputHandle) {count credit : UInt32} (hcount : flow.deliveryCount = some count)
    (hcredit : flow.linkCredit = some credit) :
    let out := state.senderOnIncomingFlow flow handle
    state.deliveryCount.toNat ≤ out.1.deliveryCount.toNat ∧
      out.1.deliveryCount.toNat + out.1.linkCredit.toNat =
        max state.deliveryCount.toNat (min (count.toNat + credit.toNat) (2 ^ 32 - 1)) ∧
      (∀ reply ∈ out.2, reply.deliveryCount = some out.1.deliveryCount) ∧
      (out.2 = none → out.1.deliveryCount = state.deliveryCount) ∧
      (out.2.isSome → flow.drain = true ∨ flow.echo = true) := by
  have hgranted : ((count.saturatingAdd credit).saturatingSub state.deliveryCount).toNat =
      min (count.toNat + credit.toNat) (2 ^ 32 - 1) - state.deliveryCount.toNat := by
    rw [UInt32.toNat_saturatingSub, UInt32.toNat_saturatingAdd]
  have hbound := state.deliveryCount.toNat_lt
  have hsum : state.deliveryCount.toNat +
      ((count.saturatingAdd credit).saturatingSub state.deliveryCount).toNat < 2 ^ 32 := by
    rw [hgranted]
    omega
  have hadd : (state.deliveryCount +
      (count.saturatingAdd credit).saturatingSub state.deliveryCount).toNat =
        state.deliveryCount.toNat +
          ((count.saturatingAdd credit).saturatingSub state.deliveryCount).toNat := by
    rw [UInt32.toNat_add]
    omega
  have hzero : (0 : UInt32).toNat = 0 := rfl
  simp only [LinkFlowStateInner.senderOnIncomingFlow, hcount, hcredit, Option.getD_some]
  cases hdrain : flow.drain with
  | true =>
      simp only [if_true]
      refine ⟨by omega, by rw [hadd, hzero, hgranted]; omega, ?_, by simp, by simp⟩
      intro reply hmem
      cases hmem
      rfl
  | false =>
      cases hecho : flow.echo with
      | true =>
          simp only [Bool.false_eq_true, if_false, if_true]
          refine ⟨le_rfl, by rw [hgranted]; omega, ?_, by simp, by simp⟩
          intro reply hmem
          cases hmem
          rfl
      | false =>
          simp only [Bool.false_eq_true, if_false]
          refine ⟨le_rfl, by rw [hgranted]; omega, by simp, by simp, by simp⟩

theorem Agrees.grant (h : p.Agrees) (horderly : p.Orderly .grant) : p.grant.Agrees := by
  simp only [LinkPair.grant]
  cases hgrant : p.toSender with
  | nil => exact h
  | cons flow toSender =>
      obtain ⟨count, credit, hcount, hcredit, hbound⟩ := h.grants flow (by simp [hgrant])
      obtain ⟨hle, hsum, hreply, hsilent, hasks⟩ :=
        senderOnIncomingFlow_limit p.sender flow p.senderHandle hcount hcredit
      have hroom := h.room
      have hlimit := h.limit
      obtain ⟨s, hclimbs, hcounted⟩ := h.counts
      refine ⟨h.attached, ?_, by dsimp only; omega, by dsimp only; omega,
        fun flow' hmem => h.grants flow' (by simp [hgrant, hmem])⟩
      cases hout : (p.sender.senderOnIncomingFlow flow p.senderHandle).2 with
      | none =>
          refine ⟨s, by simpa [pipeline, hout] using hclimbs, ?_⟩
          dsimp only
          rw [hsilent hout]
          exact hcounted
      | some reply =>
          -- nothing of the link is behind the reply
          have hasked : flow.drain = true ∨ flow.echo = true := hasks (by simp [hout])
          obtain ⟨hsending, houtgoing⟩ := horderly flow (by simp [hgrant]) hasked
          have hnew := hreply reply (by simp [hout])
          refine ⟨(p.sender.senderOnIncomingFlow flow p.senderHandle).1.deliveryCount.toNat, ?_, ?_⟩
          · simp only [pipeline, houtgoing, hout, List.append_nil, Option.map_some,
              Option.toList_some] at hclimbs ⊢
            rw [← List.append_assoc]
            refine climbs_append.mpr ⟨s, hclimbs, _, hnew, ?_, rfl⟩
            simp only [begun, hsending, Option.isSome_none, Bool.false_eq_true, if_false] at hcounted
            omega
          · simp [begun, hsending]

/-- One orderly event keeps the agreement, and no delivery that it completes is one too many. -/
theorem Agrees.step {M E : Type} (decode : Bytes → Except E M) (h : p.Agrees) {e : PairEvent}
    (horderly : p.Orderly e) :
    (p.step decode e).1.Agrees ∧
      ∀ result ∈ (p.step decode e).2, result ≠ .error .transferLimitExceeded := by
  cases e with
  | send split =>
      simp only [LinkPair.step]
      cases hsending : p.sending with
      | some _ => exact ⟨h, by simp⟩
      | none =>
          cases hconsume : p.sender.consumeLinkCredit 1 with
          | none => exact ⟨h, by simp⟩
          | some taken => exact ⟨h.send hsending split hconsume, by simp⟩
  | handOver => exact ⟨h.handOver, by simp [LinkPair.step]⟩
  | write =>
      simp only [LinkPair.step]
      cases hqueue : p.outgoing with
      | nil => exact ⟨h, by simp⟩
      | cons frame outgoing => exact ⟨h.write hqueue, by simp⟩
  | arrive => exact ⟨h.arrive horderly, by simp [LinkPair.step]⟩
  | receive transfer payload sectionNumber sectionOffset =>
      exact h.receive decode transfer payload sectionNumber sectionOffset
  | flow linkCredit drain echo includeProperties => exact ⟨h.flow horderly, by simp [LinkPair.step]⟩
  | grant => exact ⟨h.grant horderly, by simp [LinkPair.step]⟩

theorem Agrees.run {M E : Type} (decode : Bytes → Except E M) (h : p.Agrees)
    {events : List PairEvent} (horderly : Run.Along (LinkPair.step decode) Orderly p events) :
    (Run.run (LinkPair.step decode) p events).1.Agrees ∧
      ∀ result ∈ (Run.run (LinkPair.step decode) p events).2,
        result ≠ .error .transferLimitExceeded := by
  induction events generalizing p with
  | nil => exact ⟨h, by simp⟩
  | cons e events ih =>
      obtain ⟨hnext, hfirst⟩ := h.step decode horderly.1
      obtain ⟨hlast, hrest⟩ := ih hnext horderly.2
      refine ⟨hlast, fun result hmem => ?_⟩
      rcases List.mem_append.mp hmem with hmem | hmem
      · exact hfirst result hmem
      · exact hrest result hmem

theorem Agrees.quiet (h : p.Agrees) (hquiet : p.Quiet) :
    p.receiver.flowState.deliveryCount = p.sender.deliveryCount := by
  obtain ⟨s, hclimbs, hcounted⟩ := h.counts
  simp only [pipeline, hquiet.incoming, hquiet.toReceiver, hquiet.outgoing, List.map_nil,
    List.append_nil, Climbs] at hclimbs
  simp only [begun, hquiet.sending, Option.isSome_none, Bool.false_eq_true, if_false] at hcounted
  rw [← UInt32.toNat_inj]
  omega

end Events

/-- In every run of a freshly attached link whose flows do not pass transfers and in which no credit
is taken back, no delivery exceeds the receiver's credit, and the counts are equal whenever nothing
is on the way. -/
theorem credit_agrees {M E : Type} (decode : Bytes → Except E M) (flowState : LinkFlowStateInner)
    (senderHandle receiverHandle : OutputHandle) (receiver : ReceiverLink) (events : List PairEvent)
    (horderly : Run.Along (LinkPair.step decode) Orderly
      (attached flowState senderHandle receiverHandle receiver) events) :
    let out := Run.run (LinkPair.step decode)
      (attached flowState senderHandle receiverHandle receiver) events
    (∀ result ∈ out.2, result ≠ .error .transferLimitExceeded) ∧
      (out.1.Quiet → out.1.receiver.flowState.deliveryCount = out.1.sender.deliveryCount) := by
  have hzero : (0 : UInt32).toNat = 0 := rfl
  have hbound := flowState.initialDeliveryCount.toNat_lt
  have hstart : (attached flowState senderHandle receiverHandle receiver).Agrees := by
    refine ⟨rfl, ⟨flowState.initialDeliveryCount.toNat, rfl, rfl⟩, ?_, ?_, ?_⟩
    · simp only [attached, hzero]
      omega
    · simp only [attached, hzero]
      omega
    · intro flow hmem
      cases hmem
  obtain ⟨hagrees, hresults⟩ := hstart.run decode horderly
  exact ⟨hresults, hagrees.quiet⟩

section Runs

private def noCredit : LinkFlowStateInner := ⟨0, 0, 0, 0, false, none⟩

private def receiving : ReceiverLink where
  localState := .attached
  outputHandle := some ⟨0⟩
  rcvSettleMode := .first
  maxMessageSize := 0
  flowState := noCredit
  unsettled := none
  sessionStopReason := none

private def settledTransfer : Transfer where
  handle := 0
  deliveryId := some 0
  deliveryTag := some [0, 0, 0, 0]
  messageFormat := some 0
  settled := some true
  more := false
  rcvSettleMode := none
  state := none
  resume := false
  aborted := false
  batchable := false

private def delivery (size : Nat) : TransferSplit where
  inputHandle := ⟨0⟩
  transfer := settledTransfer
  payload := List.replicate size 0
  maxPayload := 4
  isFirst := true

private def accepting : Bytes → Except Unit Unit := fun _ => .ok ()

private def received : PairEvent := .receive settledTransfer [] 0 0

/-- A delivery of two frames is received while the credit is raised; then the link is drained. -/
theorem drained_link_agrees :
    let out := Run.run (LinkPair.step accepting) (attached noCredit ⟨0⟩ ⟨0⟩ receiving)
      [.setCredit 1, .grant, .send (delivery 5), .handOver, .setCredit 3, .write, .arrive, .handOver,
        .grant, .write, .arrive, received, received, .drain, .grant, .arrive]
    (∀ result ∈ out.2, result ≠ .error .transferLimitExceeded) ∧
      (out.1.Quiet → out.1.receiver.flowState.deliveryCount = out.1.sender.deliveryCount) := by
  apply credit_agrees
  decide +kernel

/-- The answer to a drain passes the one delivery, which is counted twice; the next credit of one
lets the sender send two. -/
theorem drain_overtakes_delivery :
    let counted := Run.run (LinkPair.step accepting) (attached noCredit ⟨0⟩ ⟨0⟩ receiving)
      [.setCredit 1, .grant, .send (delivery 1), .handOver, .write, .arrive, .drain, .grant, .arrive,
        received]
    let refused := Run.run (LinkPair.step accepting) counted.1
      [.setCredit 1, .grant, .send (delivery 1), .handOver, .write, .send (delivery 1), .handOver,
        .write, .arrive, .arrive, received, received]
    (counted.1.Quiet ∧
        counted.1.receiver.flowState.deliveryCount = 2 ∧ counted.1.sender.deliveryCount = 1) ∧
      .error .transferLimitExceeded ∈ refused.2 := by
  refine ⟨⟨⟨rfl, rfl, rfl, rfl, rfl⟩, rfl, rfl⟩, ?_⟩
  exact List.mem_of_getLast? rfl

end Runs

end LinkPair

end Fe2o3Amqp
