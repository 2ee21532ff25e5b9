import Fe2o3Amqp.Link.Attach
import Fe2o3Amqp.Link.SenderLink
import Fe2o3Amqp.Util.Run

/-!
# The delivery count after an attach

The two ends of a link through attaches, sends, flows and detaches.  An Attach of the sender carries
the initial delivery count of its endpoint, and the receiver counts from there; the sender keeps
counting from where it is.
-/

namespace Fe2o3Amqp

/-- The endpoints of a link, each with the cell that it shares with its relay. -/
structure AttachPair where
  sender : LinkEndpoint
  senderRole : sender.role = .sender
  senderCell : LinkCell
  senderMaxFrameSize : Nat
  receiver : LinkEndpoint
  receiverRole : receiver.role = .receiver
  receiverCell : LinkCell
  receiverMaxFrameSize : Nat

/-- Which end sends its Attach before it takes that of the peer. -/
inductive AttachOrder where
  | crossed | senderFirst | receiverFirst

inductive AttachPairEvent where
  /-- A send consumes its credit. -/
  | send
  /-- A delivery is received. -/
  | receive
  | flowToSender (flow : LinkFlow) (handle : OutputHandle)
  | flowToReceiver (flow : LinkFlow) (handle : OutputHandle)
  /-- What the dispositions and the frames of deliveries leave in the unsettled maps. -/
  | unsettled (senderMap : Option (IndexMap DeliveryTag UnsettledMessage))
      (receiverMap : Option ReceiverUnsettledMap)
  /-- What a detach, a close or a new handle leaves of the endpoints. -/
  | endpoints (sender receiver : LinkEndpoint) (senderRole : sender.role = .sender)
      (receiverRole : receiver.role = .receiver)
  /-- An attach exchange, after which the receiver grants `credit`. -/
  | exchange (order : AttachOrder) (senderReattaching receiverReattaching : Bool) (credit : UInt32)

/-- The counts after an attach exchange, and what the sender makes of the credit that the receiver
grants then. -/
structure AttachedCounts where
  sender : SequenceNo
  receiver : SequenceNo
  credit : UInt32
  granted : UInt32

/-- The receiver counts where the sender does, and a credit arrives as it was granted. -/
def AttachedCounts.Agree (counts : AttachedCounts) : Prop :=
  counts.receiver = counts.sender ∧ counts.granted = counts.credit

namespace AttachPair

def senderSends (p : AttachPair) (isReattaching : Bool) : Option (Attach × AttachPair) :=
  match p.sender.prepareAttach p.senderCell p.senderMaxFrameSize isReattaching with
  | (.error _, _) => none
  | (.ok attach, senderCell) =>
      some (attach,
        { p with sender := p.sender.attachSent attach, senderRole := p.senderRole, senderCell })

def receiverSends (p : AttachPair) (isReattaching : Bool) : Option (Attach × AttachPair) :=
  match p.receiver.prepareAttach p.receiverCell p.receiverMaxFrameSize isReattaching with
  | (.error _, _) => none
  | (.ok attach, receiverCell) =>
      some (attach,
        { p with
          receiver := p.receiver.attachSent attach
          receiverRole := p.receiverRole
          receiverCell })

/-- The sender takes the Attach; its unsettled map goes into what it resumes. -/
def senderTakes (p : AttachPair) (attach : Attach) : Option AttachPair :=
  let out := p.sender.acceptAttach p.senderCell attach
  match out.1 with
  | .error _ => none
  | .ok _ =>
      some { p with
        sender := out.2.1
        senderRole := (p.sender.acceptAttach_frame p.senderCell attach).role.trans p.senderRole
        senderCell := { out.2.2 with senderUnsettled := none } }

def receiverTakes (p : AttachPair) (attach : Attach) : Option AttachPair :=
  let out := p.receiver.acceptAttach p.receiverCell attach
  match out.1 with
  | .error _ => none
  | .ok _ =>
      some { p with
        receiver := out.2.1
        receiverRole := (p.receiver.acceptAttach_frame p.receiverCell attach).role.trans p.receiverRole
        receiverCell := out.2.2 }

/-- `none` for an exchange that fails. -/
def exchange (p : AttachPair) (order : AttachOrder) (senderReattaching receiverReattaching : Bool) :
    Option AttachPair :=
  match order with
  | .crossed => do
      let (senderAttach, p) ← p.senderSends senderReattaching
      let (receiverAttach, p) ← p.receiverSends receiverReattaching
      let p ← p.receiverTakes senderAttach
      p.senderTakes receiverAttach
  | .senderFirst => do
      let (senderAttach, p) ← p.senderSends senderReattaching
      let p ← p.receiverTakes senderAttach
      let (receiverAttach, p) ← p.receiverSends receiverReattaching
      p.senderTakes receiverAttach
  | .receiverFirst => do
      let (receiverAttach, p) ← p.receiverSends receiverReattaching
      let p ← p.senderTakes receiverAttach
      let (senderAttach, p) ← p.senderSends senderReattaching
      p.receiverTakes senderAttach

/-- The receiving link over its cell. -/
def receiverLink (p : AttachPair) : ReceiverLink where
  localState := p.receiver.localState
  outputHandle := p.receiver.outputHandle
  rcvSettleMode := p.receiver.rcvSettleMode
  maxMessageSize := p.receiver.maxMessageSize
  flowState := p.receiverCell.flowState
  unsettled := p.receiverCell.receiverUnsettled
  sessionStopReason := none

/-- The sender's credit once the receiver's `set_credit` has arrived. -/
def granted (p : AttachPair) (handle : OutputHandle) (credit : UInt32) : UInt32 :=
  let flow := (p.receiverLink.getLinkFlow handle.handle (some credit) (some false) false false).1
  (p.senderCell.flowState.senderOnIncomingFlow flow handle).1.linkCredit

def counts (p : AttachPair) (credit : UInt32) : AttachedCounts where
  sender := p.senderCell.flowState.deliveryCount
  receiver := p.receiverCell.flowState.deliveryCount
  credit := credit
  granted := p.granted (p.receiver.outputHandle.getD ⟨0⟩) credit

def withSenderState (p : AttachPair) (flowState : LinkFlowStateInner) : AttachPair :=
  { p with senderCell := { p.senderCell with flowState } }

def withReceiverState (p : AttachPair) (flowState : LinkFlowStateInner) : AttachPair :=
  { p with receiverCell := { p.receiverCell with flowState } }

/-- One event, and the counts after an attach exchange that it completes. -/
def step (p : AttachPair) : AttachPairEvent → AttachPair × List AttachedCounts
  | .send =>
      match p.senderCell.flowState.consumeLinkCredit 1 with
      | none => (p, [])
      | some (_, flowState) => (p.withSenderState flowState, [])
  | .receive =>
      match (p.receiverLink.consume 1 : Except (ReceiverTransferError Unit) ReceiverLink) with
      | .error _ => (p, [])
      | .ok link => (p.withReceiverState link.flowState, [])
  | .flowToSender flow handle =>
      (p.withSenderState (p.senderCell.flowState.senderOnIncomingFlow flow handle).1, [])
  | .flowToReceiver flow handle =>
      (p.withReceiverState (p.receiverCell.flowState.receiverOnIncomingFlow flow handle).1, [])
  | .unsettled senderMap receiverMap =>
      ({ p with
         senderCell := { p.senderCell with senderUnsettled := senderMap }
         receiverCell := { p.receiverCell with receiverUnsettled := receiverMap } }, [])
  | .endpoints sender receiver senderRole receiverRole =>
      ({ p with sender, senderRole, receiver, receiverRole }, [])
  | .exchange order senderReattaching receiverReattaching credit =>
      match p.exchange order senderReattaching receiverReattaching with
      | none => (p, [])
      | some p => (p, [p.counts credit])

/-- An attach exchange that completes finds the sender at its initial delivery count, and the credit
does not reach past the largest one. -/
def AtInitialCount (p : AttachPair) : AttachPairEvent → Prop
  | .exchange order senderReattaching receiverReattaching credit =>
      (p.exchange order senderReattaching receiverReattaching).isSome →
        p.senderCell.flowState.deliveryCount = p.senderCell.flowState.initialDeliveryCount ∧
          p.senderCell.flowState.deliveryCount.toNat + credit.toNat < 2 ^ 32
  | _ => True

/-! ## What an exchange does to the counts -/

/-- The sender counts as before. -/
structure KeepsSender (p p' : AttachPair) : Prop where
  deliveryCount : p'.senderCell.flowState.deliveryCount = p.senderCell.flowState.deliveryCount
  initial : p'.senderCell.flowState.initialDeliveryCount = p.senderCell.flowState.initialDeliveryCount

theorem KeepsSender.trans {p p' p'' : AttachPair} (h : KeepsSender p p') (h' : KeepsSender p' p'') :
    KeepsSender p p'' :=
  ⟨h'.deliveryCount.trans h.deliveryCount, h'.initial.trans h.initial⟩

theorem clearUnsettled_flowState (cell : LinkCell) (isReattaching : Bool) :
    (LinkEndpoint.clearUnsettled cell isReattaching).flowState = cell.flowState := by
  simp only [LinkEndpoint.clearUnsettled]
  split_ifs <;> rfl

section Exchange

variable {p p' : AttachPair} {attach : Attach} {isReattaching : Bool}

theorem senderSends_some (h : p.senderSends isReattaching = some (attach, p')) :
    attach.initialDeliveryCount = some p.senderCell.flowState.initialDeliveryCount ∧
      KeepsSender p p' ∧ p'.receiverCell = p.receiverCell := by
  simp only [senderSends] at h
  split at h
  · cases h
  · next _ _ hprepare =>
      cases h
      obtain ⟨htold, hcell, -⟩ := LinkEndpoint.prepareAttach_ok hprepare
      refine ⟨htold, ⟨?_, ?_⟩, rfl⟩
      · rw [hcell, clearUnsettled_flowState]
      · rw [hcell, clearUnsettled_flowState]

theorem receiverSends_some (h : p.receiverSends isReattaching = some (attach, p')) :
    p'.receiverCell.flowState = p.receiverCell.flowState ∧ KeepsSender p p' := by
  simp only [receiverSends] at h
  split at h
  · cases h
  · next _ _ hprepare =>
      cases h
      refine ⟨?_, rfl, rfl⟩
      rw [(LinkEndpoint.prepareAttach_ok hprepare).2.1, clearUnsettled_flowState]

theorem senderTakes_some (h : p.senderTakes attach = some p') :
    KeepsSender p p' ∧ p'.receiverCell = p.receiverCell := by
  simp only [senderTakes] at h
  obtain ⟨properties, hsame⟩ :=
    LinkEndpoint.acceptAttach_flowState_sender p.senderRole p.senderCell attach
  split at h
  · cases h
  · cases h
    refine ⟨⟨?_, ?_⟩, rfl⟩
    · dsimp only
      rw [hsame]
    · dsimp only
      rw [hsame]

theorem receiverTakes_some {count : SequenceNo} (hcount : attach.initialDeliveryCount = some count)
    (h : p.receiverTakes attach = some p') :
    p'.receiverCell.flowState.deliveryCount = count ∧ KeepsSender p p' := by
  simp only [receiverTakes] at h
  split at h
  · cases h
  · next hok =>
      cases h
      exact ⟨LinkEndpoint.acceptAttach_deliveryCount p.receiverRole p.receiverCell hcount hok, rfl, rfl⟩

/-- Whoever begins, the receiver leaves an exchange with the sender's initial count, and the sender
with its own. -/
theorem exchange_some {order : AttachOrder} {senderReattaching receiverReattaching : Bool}
    (h : p.exchange order senderReattaching receiverReattaching = some p') :
    p'.receiverCell.flowState.deliveryCount = p.senderCell.flowState.initialDeliveryCount ∧
      KeepsSender p p' := by
  cases order with
  | crossed =>
      simp only [exchange, Option.bind_eq_bind, Option.bind_eq_some_iff, Prod.exists] at h
      obtain ⟨attach, p₁, h₁, attach', p₂, h₂, p₃, h₃, h₄⟩ := h
      obtain ⟨htold, hkeeps₁, -⟩ := senderSends_some h₁
      obtain ⟨-, hkeeps₂⟩ := receiverSends_some h₂
      obtain ⟨hcount, hkeeps₃⟩ := receiverTakes_some htold h₃
      obtain ⟨hkeeps₄, hcell⟩ := senderTakes_some h₄
      refine ⟨?_, ((hkeeps₁.trans hkeeps₂).trans hkeeps₃).trans hkeeps₄⟩
      rw [hcell, hcount]
  | senderFirst =>
      simp only [exchange, Option.bind_eq_bind, Option.bind_eq_some_iff, Prod.exists] at h
      obtain ⟨attach, p₁, h₁, p₂, h₂, attach', p₃, h₃, h₄⟩ := h
      obtain ⟨htold, hkeeps₁, -⟩ := senderSends_some h₁
      obtain ⟨hcount, hkeeps₂⟩ := receiverTakes_some htold h₂
      obtain ⟨hsame, hkeeps₃⟩ := receiverSends_some h₃
      obtain ⟨hkeeps₄, hcell⟩ := senderTakes_some h₄
      refine ⟨?_, ((hkeeps₁.trans hkeeps₂).trans hkeeps₃).trans hkeeps₄⟩
      rw [hcell, hsame, hcount]
  | receiverFirst =>
      simp only [exchange, Option.bind_eq_bind, Option.bind_eq_some_iff, Prod.exists] at h
      obtain ⟨attach, p₁, h₁, p₂, h₂, attach', p₃, h₃, h₄⟩ := h
      obtain ⟨-, hkeeps₁⟩ := receiverSends_some h₁
      obtain ⟨hkeeps₂, -⟩ := senderTakes_some h₂
      obtain ⟨htold, hkeeps₃, -⟩ := senderSends_some h₃
      obtain ⟨hcount, hkeeps₄⟩ := receiverTakes_some htold h₄
      refine ⟨?_, ((hkeeps₁.trans hkeeps₂).trans hkeeps₃).trans hkeeps₄⟩
      rw [hcount, hkeeps₂.initial, hkeeps₁.initial]

end Exchange

/-- The sender's credit is the receiver's limit less what it has sent, as saturated sums. -/
theorem granted_toNat (p : AttachPair) (handle : OutputHandle) (credit : UInt32) :
    (p.granted handle credit).toNat =
      min (p.receiverCell.flowState.deliveryCount.toNat + credit.toNat) (2 ^ 32 - 1) -
        p.senderCell.flowState.deliveryCount.toNat := by
  simp only [granted, ReceiverLink.getLinkFlow, receiverLink, LinkFlowStateInner.senderOnIncomingFlow,
    Option.getD_some, Bool.false_eq_true, if_false]
  rw [UInt32.toNat_saturatingSub, UInt32.toNat_saturatingAdd]

theorem counts_agree_iff (p : AttachPair) (credit : UInt32) :
    (p.counts credit).Agree ↔
      p.receiverCell.flowState.deliveryCount = p.senderCell.flowState.deliveryCount ∧
        p.senderCell.flowState.deliveryCount.toNat + credit.toNat < 2 ^ 32 := by
  simp only [AttachedCounts.Agree, counts]
  apply and_congr_right
  intro hsame
  rw [← UInt32.toNat_inj, granted_toNat, hsame]
  have hbound := p.senderCell.flowState.deliveryCount.toNat_lt
  omega

/-- One event leaves the ends in agreement exactly when it meets the condition. -/
theorem step_agree_iff (p : AttachPair) (e : AttachPairEvent) :
    (∀ counts ∈ (p.step e).2, counts.Agree) ↔ p.AtInitialCount e := by
  cases e with
  | exchange order senderReattaching receiverReattaching credit =>
      simp only [step, AtInitialCount]
      cases hexchange : p.exchange order senderReattaching receiverReattaching with
      | none => simp
      | some p' =>
          obtain ⟨hcount, hkeeps⟩ := exchange_some hexchange
          simp only [List.mem_singleton, forall_eq, counts_agree_iff, hcount, hkeeps.deliveryCount,
            Option.isSome_some, true_imp_iff, eq_comm]
  | send =>
      simp only [step, AtInitialCount]
      split <;> simp
  | receive =>
      simp only [step, AtInitialCount]
      split <;> simp
  | flowToSender flow handle => simp [step, AtInitialCount]
  | flowToReceiver flow handle => simp [step, AtInitialCount]
  | unsettled senderMap receiverMap => simp [step, AtInitialCount]
  | endpoints sender receiver senderRole receiverRole => simp [step, AtInitialCount]

/-- After every attach exchange of a run the counts agree and a credit is granted in full, exactly
when every exchange finds the sender at its initial delivery count, with room for the credit. -/
theorem attached_counts_agree_iff (p : AttachPair) (events : List AttachPairEvent) :
    (∀ counts ∈ (Run.run step p events).2, counts.Agree) ↔
      Run.Along step AtInitialCount p events := by
  rw [Run.forall_output_iff_along]
  exact Run.along_congr step_agree_iff

section Reattached

private def endpoint (role : Role) (localState : LinkState) : LinkEndpoint where
  name := "link"
  role := role
  localState := localState
  outputHandle := some ⟨0⟩
  inputHandle := none
  sndSettleMode := .mixed
  rcvSettleMode := .first
  source := some ⟨none, .none, .sessionEnd, 0, false, none, none, none, none, none, none⟩
  targetKind := .target
  target := some (.target ⟨none, .none, .sessionEnd, 0, false, none, none⟩)
  maxMessageSize := 0
  offeredCapabilities := none
  desiredCapabilities := none
  verifyIncomingSource := true
  verifyIncomingTarget := true

private def unused : LinkCell where
  flowState := ⟨0, 0, 0, 0, false, none⟩
  senderUnsettled := none
  receiverUnsettled := none
  incoming := []
  endpointDropped := false

private def unattached : AttachPair where
  sender := endpoint .sender .unattached
  senderRole := rfl
  senderCell := unused
  senderMaxFrameSize := 512
  receiver := endpoint .receiver .unattached
  receiverRole := rfl
  receiverCell := unused
  receiverMaxFrameSize := 512

private def tenCredits : LinkFlow := ⟨0, some 0, some 10, none, false, false, none⟩

/-- One delivery is sent and the link is detached and attached again: of ten credits, nine arrive. -/
theorem attached_again_after_delivery :
    ¬∀ counts ∈ (Run.run step unattached
      [.exchange .senderFirst false false 10, .flowToSender tenCredits ⟨0⟩, .send,
        .endpoints (endpoint .sender .detached) (endpoint .receiver .detached) rfl rfl,
        .exchange .senderFirst false false 10]).2, counts.Agree := by
  intro h
  have hlast := h ⟨1, 0, 10, 9⟩ (List.mem_of_getLast? rfl)
  exact absurd hlast.1 (by decide)

end Reattached

end AttachPair

end Fe2o3Amqp
