import Fe2o3Amqp.Link.Relay

/-!
# The credit that a flow gives a sender

A flow carries the receiver's view of the link: its delivery-count and the credit from there on.  The
sender may be ahead of that view by the deliveries that the receiver had not seen.  Delivery-counts
are sequence numbers, and the sender is ahead by a difference modulo 2³²; the code takes the
difference of the counts as numbers.
-/

namespace Fe2o3Amqp

namespace LinkFlowStateInner

/-- The receiver's delivery-count; one that it does not know yet is the initial one. -/
def deliveryCountRcv (state : LinkFlowStateInner) (flow : LinkFlow) : SequenceNo :=
  flow.deliveryCount.getD state.initialDeliveryCount

/-- `link-credit_snd := delivery-count_rcv + link-credit_rcv - delivery-count_snd`, never below zero. -/
def specifiedCredit (state : LinkFlowStateInner) (flow : LinkFlow) (linkCreditRcv : UInt32) : Nat :=
  linkCreditRcv.toNat - (state.deliveryCount - state.deliveryCountRcv flow).toNat

/-- The state behind a flow that leaves the sender with `credit`; a drain uses it up at once. -/
structure Credited (state : LinkFlowStateInner) (flow : LinkFlow) (credit : Nat)
    (state' : LinkFlowStateInner) : Prop where
  granted : flow.drain = false →
    state'.linkCredit.toNat = credit ∧ state'.deliveryCount = state.deliveryCount
  drained : flow.drain = true →
    state'.linkCredit = 0 ∧ state'.deliveryCount = state.deliveryCount + UInt32.ofNat credit

/-- The credit that the code computes. -/
def computedCredit (state : LinkFlowStateInner) (flow : LinkFlow) (linkCreditRcv : UInt32) : UInt32 :=
  ((state.deliveryCountRcv flow).saturatingAdd linkCreditRcv).saturatingSub state.deliveryCount

theorem toNat_computedCredit (state : LinkFlowStateInner) (flow : LinkFlow) (linkCreditRcv : UInt32) :
    (state.computedCredit flow linkCreditRcv).toNat =
      min ((state.deliveryCountRcv flow).toNat + linkCreditRcv.toNat) (2 ^ 32 - 1) -
        state.deliveryCount.toNat := by
  rw [computedCredit, UInt32.toNat_saturatingSub, UInt32.toNat_saturatingAdd]

theorem specifiedCredit_lt (state : LinkFlowStateInner) (flow : LinkFlow) (linkCreditRcv : UInt32) :
    state.specifiedCredit flow linkCreditRcv < 2 ^ 32 := by
  have hlt := linkCreditRcv.toNat_lt
  simp only [specifiedCredit]
  omega

/-- The computed credit is the specified one as long as neither the receiver's count nor its limit is
on the other side of 2³². -/
theorem computedCredit_eq_iff (state : LinkFlowStateInner) (flow : LinkFlow) (linkCreditRcv : UInt32) :
    (state.computedCredit flow linkCreditRcv).toNat = state.specifiedCredit flow linkCreditRcv ↔
      (state.deliveryCountRcv flow).toNat ≤ state.deliveryCount.toNat ∧
        (state.deliveryCountRcv flow).toNat + linkCreditRcv.toNat < 2 ^ 32 := by
  have hsnd := state.deliveryCount.toNat_lt
  have hrcv := (state.deliveryCountRcv flow).toNat_lt
  have hcredit := linkCreditRcv.toNat_lt
  rw [toNat_computedCredit, specifiedCredit, UInt32.toNat_sub]
  omega

theorem credited_iff (state : LinkFlowStateInner) (flow : LinkFlow) (outputHandle : OutputHandle)
    {linkCreditRcv : UInt32} (h : flow.linkCredit = some linkCreditRcv) {credit : Nat}
    (hcredit : credit < 2 ^ 32) :
    state.Credited flow credit (state.senderOnIncomingFlow flow outputHandle).1 ↔
      (state.computedCredit flow linkCreditRcv).toNat = credit := by
  cases hdrain : flow.drain with
  | false =>
      have hafter : (state.senderOnIncomingFlow flow outputHandle).1.linkCredit =
            state.computedCredit flow linkCreditRcv ∧
          (state.senderOnIncomingFlow flow outputHandle).1.deliveryCount = state.deliveryCount := by
        simp only [senderOnIncomingFlow, h, hdrain, Bool.false_eq_true, if_false]
        split_ifs <;> exact ⟨rfl, rfl⟩
      constructor
      · intro hcredited
        rw [← hafter.1]
        exact (hcredited.granted hdrain).1
      · intro hcomputed
        refine ⟨fun _ => ⟨by rw [hafter.1, hcomputed], hafter.2⟩, fun htrue => ?_⟩
        cases hdrain.symm.trans htrue
  | true =>
      have hused : (state.senderOnIncomingFlow flow outputHandle).1.linkCredit = 0 := by
        simp only [senderOnIncomingFlow, hdrain, if_true]
      have hadvanced : (state.senderOnIncomingFlow flow outputHandle).1.deliveryCount =
          state.deliveryCount + state.computedCredit flow linkCreditRcv := by
        simp only [senderOnIncomingFlow, h, hdrain, if_true]
        rfl
      constructor
      · intro hcredited
        have hcount := (hcredited.drained hdrain).2
        rw [hadvanced, UInt32.add_right_inj] at hcount
        rw [hcount, UInt32.toNat_ofNat_of_lt' hcredit]
      · intro hcomputed
        refine ⟨fun hfalse => ?_, fun _ => ⟨hused, ?_⟩⟩
        · cases hdrain.symm.trans hfalse
        · rw [hadvanced, ← hcomputed, UInt32.ofNat_toNat]

/-- A flow with a link-credit leaves the sender with the credit of the specification just when the
receiver's count is not numerically ahead of the sender's, and its limit is below 2³². -/
theorem credited_specified_iff (state : LinkFlowStateInner) (flow : LinkFlow)
    (outputHandle : OutputHandle) (linkCreditRcv : UInt32)
    (h : flow.linkCredit = some linkCreditRcv) :
    state.Credited flow (state.specifiedCredit flow linkCreditRcv)
        (state.senderOnIncomingFlow flow outputHandle).1 ↔
      (state.deliveryCountRcv flow).toNat ≤ state.deliveryCount.toNat ∧
        (state.deliveryCountRcv flow).toNat + linkCreditRcv.toNat < 2 ^ 32 := by
  rw [credited_iff state flow outputHandle h (state.specifiedCredit_lt flow linkCreditRcv)]
  exact state.computedCredit_eq_iff flow linkCreditRcv

/-- A sender that has sent five deliveries of a link that began at 10. -/
def fiveSent : LinkFlowStateInner where
  initialDeliveryCount := 10
  deliveryCount := 15
  linkCredit := 0
  available := 0
  drain := false
  properties := none

def grantOf (deliveryCount linkCredit : UInt32) : LinkFlow where
  handle := 0
  deliveryCount := some deliveryCount
  linkCredit := some linkCredit
  available := none
  drain := false
  echo := false
  properties := none

theorem fiveSent_credited :
    fiveSent.Credited (grantOf 12 10) (fiveSent.specifiedCredit (grantOf 12 10) 10)
      (fiveSent.senderOnIncomingFlow (grantOf 12 10) ⟨0⟩).1 :=
  (credited_specified_iff fiveSent (grantOf 12 10) ⟨0⟩ 10 rfl).mpr (by decide)

/-- The receiver has seen all deliveries up to two before 2³², so that seven of the ten are used up. -/
theorem behind_zero_not_credited :
    ¬LinkFlowStateInner.Credited { fiveSent with deliveryCount := 5 } (grantOf 0xfffffffe 10)
      (LinkFlowStateInner.specifiedCredit { fiveSent with deliveryCount := 5 }
        (grantOf 0xfffffffe 10) 10)
      (LinkFlowStateInner.senderOnIncomingFlow { fiveSent with deliveryCount := 5 }
        (grantOf 0xfffffffe 10) ⟨0⟩).1 := by
  intro hcredited
  have hcredit := (hcredited.granted rfl).1
  revert hcredit
  decide

end LinkFlowStateInner

end Fe2o3Amqp
