import Fe2o3Amqp.Link.SenderLink
import Fe2o3Amqp.Util.Run

/-!
# Waiting for link credit

A sender tests the credit and waits for a notification if there is not enough; the relay updates the
credit and then notifies.  The test is made under the lock, and so is the update, but the future that
waits is created after the lock has been released: a notification that falls between the test and the
future wakes nobody.
-/

namespace Fe2o3Amqp

/-! ## The notifier -/

/-- `tokio::sync::Notify`: the calls of `notify_waiters` so far, which leave no permit. -/
structure Notify where
  calls : Nat

/-- The future of `notified`, with the calls that were made before it was created. -/
structure Notified where
  createdAt : Nat

namespace Notify

def notified (notify : Notify) : Notified := ⟨notify.calls⟩

def notifyWaiters (notify : Notify) : Notify := ⟨notify.calls + 1⟩

end Notify

def Notified.isReady (future : Notified) (notify : Notify) : Bool := future.createdAt < notify.calls

@[simp] theorem Notify.isReady_notified (notify : Notify) : notify.notified.isReady notify = false := by
  simp [Notified.isReady, Notify.notified]

/-! ## Consumers and their producer -/

inductive ConsumePhase where
  /-- Before `consume_link_credit`. -/
  | testing
  /-- Behind a test that failed, before `notified`. -/
  | insufficient
  | waiting (future : Notified)
  | consumed
  | dropped

structure ConsumeCall where
  count : UInt32
  phase : ConsumePhase

/-- The calls of `consume` on one sender link, and its relay. -/
structure CreditWaits where
  flowState : LinkFlowStateInner
  notifier : Notify
  /-- The relay is between `update_state` and `notify_waiters`. -/
  due : Bool
  calls : List ConsumeCall

inductive CreditWaitEvent where
  | consume (count : UInt32)
  | test (call : Nat)
  | createNotified (call : Nat)
  | wake (call : Nat)
  | drop (call : Nat)
  | updateState (flow : LinkFlow) (outputHandle : OutputHandle)
  | notifyWaiters

namespace CreditWaits

def new (flowState : LinkFlowStateInner) : CreditWaits := ⟨flowState, ⟨0⟩, false, []⟩

def withPhase (s : CreditWaits) (call : Nat) (count : UInt32) (phase : ConsumePhase) : CreditWaits :=
  { s with calls := s.calls.set call ⟨count, phase⟩ }

/-- One atomic step, and the tag that a call returns in it. -/
def step (s : CreditWaits) : CreditWaitEvent → CreditWaits × List DeliveryTag
  | .consume count => ({ s with calls := s.calls ++ [⟨count, .testing⟩] }, [])
  | .test call =>
      match s.calls[call]? with
      | some ⟨count, .testing⟩ =>
          match s.flowState.consumeLinkCredit count with
          | some (tag, flowState) => ({ s with flowState }.withPhase call count .consumed, [tag])
          | none => (s.withPhase call count .insufficient, [])
      | _ => (s, [])
  | .createNotified call =>
      match s.calls[call]? with
      | some ⟨count, .insufficient⟩ => (s.withPhase call count (.waiting s.notifier.notified), [])
      | _ => (s, [])
  | .wake call =>
      match s.calls[call]? with
      | some ⟨count, .waiting future⟩ =>
          (if future.isReady s.notifier then s.withPhase call count .testing else s, [])
      | _ => (s, [])
  | .drop call =>
      match s.calls[call]? with
      | some ⟨count, _⟩ => (s.withPhase call count .dropped, [])
      | none => (s, [])
  | .updateState flow outputHandle =>
      -- one task runs `produce`, so that the next update follows the notification of the last
      if s.due then (s, [])
      else
        ({ s with
          flowState := (s.flowState.senderOnIncomingFlow flow outputHandle).1
          due := true }, [])
  | .notifyWaiters =>
      if s.due then ({ s with notifier := s.notifier.notifyWaiters, due := false }, []) else (s, [])

/-- A call waits for a notification that is not due, although there is credit for it. -/
def Stranded (s : CreditWaits) : Prop :=
  s.due = false ∧ ∃ call ∈ s.calls, call.count ≤ s.flowState.linkCredit ∧
    ∃ future, call.phase = .waiting future ∧ future.isReady s.notifier = false

/-- No notification falls between a failed test and the future, unless the credit is still too low. -/
def Timely (s : CreditWaits) : CreditWaitEvent → Prop
  | .notifyWaiters =>
      s.due = true → ∀ call ∈ s.calls, call.phase = .insufficient → s.flowState.linkCredit < call.count
  | _ => True

/-- A call that is waiting, or about to, lacks credit, or a notification is due. -/
structure Woken (s : CreditWaits) : Prop where
  insufficient : ∀ call ∈ s.calls, call.phase = .insufficient → s.due = false →
    s.flowState.linkCredit < call.count
  waiting : ∀ call ∈ s.calls, ∀ future, call.phase = .waiting future → s.due = false →
    future.isReady s.notifier = false → s.flowState.linkCredit < call.count
  created : ∀ call ∈ s.calls, ∀ future, call.phase = .waiting future →
    future.createdAt ≤ s.notifier.calls

theorem woken_new (flowState : LinkFlowStateInner) : (new flowState).Woken := by
  constructor <;> intro call hcall <;> cases hcall

theorem Woken.not_stranded {s : CreditWaits} (h : s.Woken) : ¬s.Stranded := by
  rintro ⟨hdue, call, hcall, hcredit, future, hphase, hready⟩
  exact UInt32.not_le.mpr (h.waiting call hcall future hphase hdue hready) hcredit

/-- Another phase for one call; the credit may shrink meanwhile. -/
theorem Woken.withPhase {s : CreditWaits} (h : s.Woken) {flowState : LinkFlowStateInner}
    (hcredit : flowState.linkCredit ≤ s.flowState.linkCredit) (call : Nat) {count : UInt32}
    {phase : ConsumePhase}
    (hinsufficient : phase = .insufficient → s.due = false → flowState.linkCredit < count)
    (hwaiting : ∀ future, phase = .waiting future →
      (s.due = false → flowState.linkCredit < count) ∧ future.createdAt ≤ s.notifier.calls) :
    ({ s with flowState }.withPhase call count phase).Woken := by
  constructor
  · intro other hother hphase hdue
    rcases List.mem_or_eq_of_mem_set hother with hother | rfl
    · exact UInt32.lt_of_le_of_lt hcredit (h.insufficient other hother hphase hdue)
    · exact hinsufficient hphase hdue
  · intro other hother future hphase hdue hready
    rcases List.mem_or_eq_of_mem_set hother with hother | rfl
    · exact UInt32.lt_of_le_of_lt hcredit (h.waiting other hother future hphase hdue hready)
    · exact (hwaiting future hphase).1 hdue
  · intro other hother future hphase
    rcases List.mem_or_eq_of_mem_set hother with hother | rfl
    · exact h.created other hother future hphase
    · exact (hwaiting future hphase).2

theorem consumeLinkCredit_linkCredit_le {state state' : LinkFlowStateInner} {count : UInt32}
    {tag : DeliveryTag} (h : state.consumeLinkCredit count = some (tag, state')) :
    state'.linkCredit ≤ state.linkCredit := by
  simp only [LinkFlowStateInner.consumeLinkCredit] at h
  split_ifs at h
  cases h
  rw [UInt32.le_iff_toNat_le, UInt32.toNat_saturatingSub]
  omega

theorem consumeLinkCredit_eq_none {state : LinkFlowStateInner} {count : UInt32}
    (h : state.consumeLinkCredit count = none) : state.linkCredit < count := by
  simp only [LinkFlowStateInner.consumeLinkCredit] at h
  split_ifs at h with hcredit
  exact hcredit

theorem Woken.step {s : CreditWaits} (h : s.Woken) {event : CreditWaitEvent} (htimely : s.Timely event) :
    (s.step event).1.Woken := by
  cases event with
  | consume count =>
      constructor
      · intro call hcall hphase
        rcases List.mem_append.mp hcall with hcall | hcall
        · exact h.insufficient call hcall hphase
        · cases List.mem_singleton.mp hcall
          cases hphase
      · intro call hcall future hphase
        rcases List.mem_append.mp hcall with hcall | hcall
        · exact h.waiting call hcall future hphase
        · cases List.mem_singleton.mp hcall
          cases hphase
      · intro call hcall future hphase
        rcases List.mem_append.mp hcall with hcall | hcall
        · exact h.created call hcall future hphase
        · cases List.mem_singleton.mp hcall
          cases hphase
  | test call =>
      simp only [CreditWaits.step]
      split
      next count hcall =>
        cases hconsume : s.flowState.consumeLinkCredit count with
        | none =>
            apply h.withPhase (UInt32.le_refl _)
            · exact fun _ _ => consumeLinkCredit_eq_none hconsume
            · intro future hphase
              cases hphase
        | some taken =>
            apply h.withPhase (consumeLinkCredit_linkCredit_le hconsume)
            · intro hphase
              cases hphase
            · intro future hphase
              cases hphase
      next => exact h
  | createNotified call =>
      simp only [CreditWaits.step]
      split
      next count hcall =>
        have hinsufficient := h.insufficient _ (List.mem_of_getElem? hcall) rfl
        apply h.withPhase (UInt32.le_refl _)
        · intro hphase
          cases hphase
        · intro future hphase
          cases hphase
          exact ⟨hinsufficient, Nat.le_refl _⟩
      next => exact h
  | wake call =>
      simp only [CreditWaits.step]
      split
      next count future hcall =>
        split_ifs
        · apply h.withPhase (UInt32.le_refl _)
          · intro hphase
            cases hphase
          · intro future hphase
            cases hphase
        · exact h
      next => exact h
  | drop call =>
      simp only [CreditWaits.step]
      split
      next count phase hcall =>
        apply h.withPhase (UInt32.le_refl _)
        · intro hphase
          cases hphase
        · intro future hphase
          cases hphase
      next => exact h
  | updateState flow outputHandle =>
      simp only [CreditWaits.step]
      split_ifs
      · exact h
      · refine ⟨?_, ?_, h.created⟩
        · intro _ _ _ hdue
          cases hdue
        · intro _ _ _ _ hdue
          cases hdue
  | notifyWaiters =>
      simp only [CreditWaits.step]
      split_ifs with hdue
      · refine ⟨fun call hcall hphase _ => htimely hdue call hcall hphase, ?_, ?_⟩
        · intro call hcall future hphase _ hready
          -- every future was created before
          have hcreated := h.created call hcall future hphase
          have hnot : ¬future.createdAt < s.notifier.calls + 1 := of_decide_eq_false hready
          omega
        · intro call hcall future hphase
          exact Nat.le_succ_of_le (h.created call hcall future hphase)
      · exact h

/-- No call is left waiting with credit for it, in any run in which no notification falls between a
failed test and the future, unless the credit is still too low. -/
theorem not_stranded_of_timely (flowState : LinkFlowStateInner) (events : List CreditWaitEvent)
    (h : Run.Along step Timely (new flowState) events) :
    ¬(Run.run step (new flowState) events).1.Stranded :=
  (Run.invariant_of_along (fun _ _ hwoken htimely => hwoken.step htimely) (woken_new flowState)
    h).not_stranded

/-- A notification that comes between strands the call as soon as it waits. -/
theorem stranded_of_not_timely {s : CreditWaits} (h : ¬s.Timely .notifyWaiters) :
    ∃ call, (Run.run step s [.notifyWaiters, .createNotified call]).1.Stranded := by
  simp only [Timely, Classical.not_forall, UInt32.not_lt] at h
  obtain ⟨hdue, ⟨count, phase⟩, hcall, hphase, hcredit⟩ := h
  cases hphase
  obtain ⟨call, hlt, hget⟩ := List.mem_iff_getElem.mp hcall
  have hcall : s.calls[call]? = some ⟨count, .insufficient⟩ := by
    rw [List.getElem?_eq_getElem hlt, hget]
  refine ⟨call, ?_⟩
  simp only [Run.run, step, hdue, if_true, hcall, withPhase]
  refine ⟨rfl, ⟨count, .waiting s.notifier.notifyWaiters.notified⟩, ?_, hcredit, _, rfl,
    Notify.isReady_notified _⟩
  exact List.mem_set hlt _

section Witnesses

private def noCredit : LinkFlowStateInner := ⟨0, 0, 0, 0, false, none⟩

private def oneCredit : LinkFlow where
  handle := 0
  deliveryCount := some 0
  linkCredit := some 1
  available := none
  drain := false
  echo := false
  properties := none

/-- The flow arrives behind the creation of the future. -/
theorem waited_in_time :
    ¬(Run.run step (new noCredit)
      [.consume 1, .test 0, .createNotified 0, .updateState oneCredit ⟨0⟩, .notifyWaiters]).1.Stranded := by
  apply not_stranded_of_timely
  refine ⟨trivial, trivial, trivial, trivial, ?_, trivial⟩
  intro _ call hcall hphase
  cases List.mem_singleton.mp hcall
  cases hphase

/-- The flow arrives between the test and the creation of the future. -/
theorem notified_too_early :
    (Run.run step (new noCredit)
      [.consume 1, .test 0, .updateState oneCredit ⟨0⟩, .notifyWaiters, .createNotified 0]).1.Stranded :=
  ⟨rfl, ⟨1, .waiting ⟨1⟩⟩, List.mem_singleton_self _, by decide, ⟨1⟩, rfl, rfl⟩

end Witnesses

end CreditWaits

end Fe2o3Amqp
