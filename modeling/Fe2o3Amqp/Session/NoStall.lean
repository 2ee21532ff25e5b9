import Fe2o3Amqp.Session.WindowEffects

/-!
# Flow control does not stall

The invariant behind the session window: what the sender may still send plus what it has sent is the
last acknowledged id plus the window, and what the receiver has counted since it last advertised its
window is bounded by `need_flow_count`.  It holds as long as no window computation saturates at the
top of the 32-bit range, and it fails to prevent a stall as soon as one does.
-/

namespace Fe2o3Amqp

open Session

/-- Taking the flow in does not saturate the sum of its next-incoming-id and its window. -/
def SessionFrame.Unsaturated (frame : SessionFrame) : Prop :=
  ∀ flow n, frame.body = .flow flow → flow.nextIncomingId = some n →
    n.toNat + flow.incomingWindow.toNat < 2 ^ 32

namespace Net

section Commit

variable (net : Net) (x : Side) (rest : List SessionFrame) (d : Dispatched)

@[simp] theorem commit_session_self : (net.commit x rest d).session x = d.session := by
  simp [commit]

@[simp] theorem commit_session_other :
    (net.commit x rest d).session x.other = net.session x.other := by
  simp [commit]

@[simp] theorem commit_inbox_self : (net.commit x rest d).inbox x = rest := by
  simp [commit]

@[simp] theorem commit_inbox_other :
    (net.commit x rest d).inbox x.other = net.inbox x.other ++ d.frames := by
  simp [commit]

end Commit

/-- The invariant of the direction in which `x` sends.  The sender has taken in the acknowledgement
`a` and may send up to `a` plus the window; the receiver last acknowledged `b`. -/
structure FlowInvariant (x : Side) (w : UInt32) (net : Net) : Prop where
  healthy : ∀ y, Healthy (net.session y)
  window : (net.session x.other).incomingWindow = w
  counts : Counts (net.session x.other).nextIncomingId.toNat (net.session x).nextOutgoingId.toNat
    (net.inbox x.other)
  acknowledged : ∃ a b,
    Sendable (net.session x) (a + w.toNat) ∧ Acknowledges w a b (net.inbox x) ∧
    Advertised (net.session x.other) b

private theorem healthy_commit {net : Net} {y : Side} {rest : List SessionFrame} {d : Dispatched}
    (h : ∀ z, Healthy (net.session z)) (hd : Healthy d.session) (z : Side) :
    Healthy ((net.commit y rest d).session z) := by
  by_cases hz : z = y
  · rw [hz, commit_session_self]
    exact hd
  · have hother : z = y.other := by
      cases z <;> cases y <;> simp_all [Side.other]
    rw [hother, commit_session_other]
    exact h _

/-- A step of the sender: its counters stay within the limit it was granted. -/
private theorem sender_step {net : Net} {x : Side} {w : UInt32} {rest : List SessionFrame}
    {d : Dispatched} {a b : Nat} (h : FlowInvariant x w net) (hd : Healthy d.session)
    (hsend : Sendable d.session (a + w.toNat))
    (hcounts : Counts (net.session x).nextOutgoingId.toNat d.session.nextOutgoingId.toNat d.frames)
    (hack : Acknowledges w a b rest) (hadv : Advertised (net.session x.other) b) :
    FlowInvariant x w (net.commit x rest d) where
  healthy := healthy_commit h.healthy hd
  window := by rw [commit_session_other]; exact h.window
  counts := by
    simp only [commit_session_self, commit_session_other, commit_inbox_other]
    exact counts_append.mpr ⟨_, h.counts, hcounts⟩
  acknowledged := by
    simp only [commit_session_self, commit_session_other, commit_inbox_self]
    exact ⟨a, b, hsend, hack, hadv⟩

/-- A step of the receiver: what it emits continues its advertisements. -/
private theorem receiver_step {net : Net} {x : Side} {w : UInt32} {rest : List SessionFrame}
    {d : Dispatched} {a b b' : Nat} (h : FlowInvariant x w net) (hd : Healthy d.session)
    (hcounts : Counts d.session.nextIncomingId.toNat (net.session x).nextOutgoingId.toNat rest)
    (hwindow : d.session.incomingWindow = (net.session x.other).incomingWindow)
    (hsend : Sendable (net.session x) (a + w.toNat)) (hack : Acknowledges w a b (net.inbox x))
    (hframes : Acknowledges (net.session x.other).incomingWindow b b' d.frames)
    (hadv : Advertised d.session b') : FlowInvariant x w (net.commit x.other rest d) := by
  have hself : (net.commit x.other rest d).session x = net.session x := by
    simpa using net.commit_session_other x.other rest d
  have hinbox : (net.commit x.other rest d).inbox x = net.inbox x ++ d.frames := by
    simpa using net.commit_inbox_other x.other rest d
  rw [h.window] at hframes hwindow
  refine ⟨healthy_commit h.healthy hd, ?_, ?_, a, b', ?_, ?_, ?_⟩
  · rw [commit_session_self]
    exact hwindow
  · rw [commit_session_self, commit_inbox_self, hself]
    exact hcounts
  · rw [hself]
    exact hsend
  · rw [hinbox]
    exact acknowledges_append.mpr ⟨b, hack, hframes⟩
  · rw [commit_session_self]
    exact hadv

private theorem flowInvariant_act {net : Net} {x : Side} {w : UInt32} (h : FlowInvariant x w net)
    (y : Side) (action : LocalAction) (hwf : action.WellFormed)
    (hok : (action.dispatch (net.session y)).result = .ok .continue) :
    FlowInvariant x w (net.commit y (net.inbox y) (action.dispatch (net.session y))) := by
  obtain ⟨a, b, hsend, hack, hadv⟩ := h.acknowledged
  have hhealthy := LocalAction.dispatch_healthy (h.healthy y) hwf hok
  by_cases hy : y = x
  · subst hy
    obtain ⟨hsend', hcounts⟩ := LocalAction.dispatch_sendsAs _ action hwf hok _ hsend
    exact sender_step h hhealthy hsend' hcounts hack hadv
  · obtain rfl : y = x.other := by cases x <;> cases y <;> simp_all [Side.other]
    obtain ⟨hnext, hwindow, b', hadv', hframes⟩ :=
      LocalAction.dispatch_receivesAs _ action hwf (h.healthy _).wellFormed hok hadv
    exact receiver_step h hhealthy (by rw [hnext]; exact h.counts) hwindow hsend hack hframes hadv'

private theorem flowInvariant_deliver_sender {net : Net} {x : Side} {w : UInt32}
    (h : FlowInvariant x w net) {pending : List LinkFrame} {frame : SessionFrame}
    {rest : List SessionFrame} (hinbox : net.inbox x = frame :: rest)
    (hadmitted : frame.Unsaturated)
    (hok : ((net.session x).onIncoming pending frame).result = .ok .continue) :
    FlowInvariant x w (net.commit x rest ((net.session x).onIncoming pending frame)) := by
  obtain ⟨a, b, hsend, hack, hadv⟩ := h.acknowledged
  have hhealthy := onIncoming_healthy (h.healthy x) hok
  rw [hinbox] at hack
  cases hbody : frame.body with
  | transfer performative payload =>
      obtain ⟨hsend', hcounts⟩ := onIncoming_transfer_sendsAs hbody hok _ hsend
      simp only [Acknowledges, hbody] at hack
      exact sender_step h hhealthy hsend' hcounts hack hadv
  | flow flow =>
      simp only [Acknowledges, hbody] at hack
      obtain ⟨n, hn, han, hflow, hrest⟩ := hack
      have hbound := hadmitted flow n hbody hn
      obtain ⟨out, heq, hframes⟩ := onIncoming_flow hbody hok
      rw [hflow] at hbound
      obtain ⟨hsend', hcounts⟩ := onIncomingFlow_sendable hsend hn
        (by rw [hflow]; omega) (by rw [hflow]; exact hbound) heq
      rw [hflow] at hsend'
      rw [← hframes] at hcounts
      exact sender_step h hhealthy hsend' hcounts hrest hadv
  | _ =>
      have hplain : frame.isPlain := by simp [SessionFrame.isPlain, hbody]
      obtain ⟨hsame, hframes⟩ := onIncoming_plain (h.healthy x).mapped hplain hok
      obtain ⟨hsend', hcounts⟩ := hsame.sendsAs hframes _ hsend
      simp only [Acknowledges, hbody] at hack
      exact sender_step h hhealthy hsend' hcounts hack hadv

private theorem flowInvariant_deliver_receiver {net : Net} {x : Side} {w : UInt32}
    (h : FlowInvariant x w net) {pending : List LinkFrame} {frame : SessionFrame}
    {rest : List SessionFrame} (hinbox : net.inbox x.other = frame :: rest)
    (hok : ((net.session x.other).onIncoming pending frame).result = .ok .continue) :
    FlowInvariant x w
      (net.commit x.other rest ((net.session x.other).onIncoming pending frame)) := by
  obtain ⟨a, b, hsend, hack, hadv⟩ := h.acknowledged
  have hhealthy := onIncoming_healthy (h.healthy x.other) hok
  have hcounts := h.counts
  rw [hinbox] at hcounts
  cases hbody : frame.body with
  | transfer performative payload =>
      simp only [Counts, hbody] at hcounts
      have hwrap : (net.session x.other).nextIncomingId.toNat + 1 < 2 ^ 32 := by
        have := counts_length hcounts
        have := hsend.limit_eq
        have := hsend.bounded
        omega
      obtain ⟨hnext, hwindow, b', hadv', hframes⟩ :=
        onIncoming_transfer_advertised hbody hok hadv hwrap
      exact receiver_step h hhealthy (by rw [hnext]; exact hcounts) hwindow hsend hack hframes hadv'
  | flow flow =>
      simp only [Counts, hbody] at hcounts
      have hnext : flow.nextOutgoingId = (net.session x.other).nextIncomingId :=
        UInt32.toNat_inj.mp hcounts.1
      obtain ⟨out, heq, hout⟩ := onIncoming_flow hbody hok
      obtain ⟨hid, hwindow⟩ := onIncomingFlow_counters (h.healthy _).wellFormed heq
      obtain ⟨b', hadv', hframes⟩ :=
        onIncomingFlow_receivesAs (h.healthy _).wellFormed hnext heq b hadv
      rw [← hout] at hframes
      exact receiver_step h hhealthy (by rw [hid, hnext]; exact hcounts.2) hwindow hsend hack
        hframes hadv'
  | _ =>
      have hplain : frame.isPlain := by simp [SessionFrame.isPlain, hbody]
      obtain ⟨hsame, hframes⟩ := onIncoming_plain (h.healthy _).mapped hplain hok
      obtain ⟨b', hadv', hack'⟩ := hsame.receivesAs hframes b hadv
      simp only [Counts, hbody] at hcounts
      exact receiver_step h hhealthy (by rw [hsame.nextIncomingId]; exact hcounts)
        hsame.incomingWindow hsend hack hack' hadv'

/-- The invariant is preserved by every step that gives `x` only unsaturated flows. -/
theorem flowInvariant_step {net net' : Net} {x : Side} {w : UInt32}
    (hstep : Step (fun y frame => y = x → frame.Unsaturated) net net')
    (h : FlowInvariant x w net) : FlowInvariant x w net' := by
  cases hstep with
  | act y action hwf hok => exact flowInvariant_act h y action hwf hok
  | deliver y pending frame rest hinbox hadmitted hok =>
      by_cases hy : y = x
      · subst hy
        exact flowInvariant_deliver_sender h hinbox (hadmitted rfl) hok
      · obtain rfl : y = x.other := by cases x <;> cases y <;> simp_all [Side.other]
        exact flowInvariant_deliver_receiver h hinbox hok

theorem flowInvariant_begin (builder : Side → SessionBuilder) (store : Side → LinkStore) (x : Side)
    (hid : (builder x).nextOutgoingId.toNat + (builder x.other).incomingWindow.toNat < 2 ^ 32) :
    FlowInvariant x (builder x.other).incomingWindow (begin builder store) := by
  cases x <;>
    refine ⟨?_, rfl, rfl, _, _, ⟨Nat.add_comm _ _, hid, ?_, ?_⟩, rfl,
      ⟨rfl, Nat.le_refl _, Nat.le_add_right _ _, Or.inl rfl⟩⟩ <;>
    first
      | exact fun item hitem => absurd hitem (by simp [begin, SessionBuilder.intoSession,
          sendBegin, onIncomingBegin])
      | exact fun hne => absurd rfl hne
      | exact fun y => by cases y <;> exact ⟨rfl, fun item hitem => absurd hitem (by simp [begin,
          SessionBuilder.intoSession, sendBegin, onIncomingBegin])⟩

/-- Flow control in the direction of `x` does not stall, whatever the interleaving, as long as no
flow that `x` takes in saturates. -/
theorem flow_control_never_stalls (builder : Side → SessionBuilder) (store : Side → LinkStore)
    (x : Side) (net : Net) (hwindow : 1 ≤ (builder x.other).incomingWindow.toNat)
    (hid : (builder x).nextOutgoingId.toNat + (builder x.other).incomingWindow.toNat < 2 ^ 32)
    (h : Reachable (fun y frame => y = x → frame.Unsaturated) (begin builder store) net) :
    (net.inbox x = [] → net.inbox x.other = [] →
      (net.session x).remoteIncomingWindowExhaustedBuffer = [] ∧
        1 ≤ (net.session x).remoteIncomingWindow.toNat) ∧
      (transfersOf (net.inbox x.other)).length ≤ (builder x.other).incomingWindow.toNat := by
  have hinv : FlowInvariant x (builder x.other).incomingWindow net :=
    Run.invariant_of_reflTransGen (fun _ _ hstep => flowInvariant_step hstep)
      (flowInvariant_begin builder store x hid) h
  obtain ⟨a, b, hsend, hack, hadv⟩ := hinv.acknowledged
  have hflight := counts_length hinv.counts
  have hlimit := hsend.limit_eq
  have hab := acknowledges_le hack
  have hle := hadv.le_next
  refine ⟨fun hx hother => ?_, by omega⟩
  rw [hx] at hack
  have hlast : a = b := hack
  have hdelivered := hinv.counts
  rw [hother] at hdelivered
  have hcounted : (net.session x.other).nextIncomingId.toNat =
      (net.session x).nextOutgoingId.toNat := hdelivered
  have hpos : 1 ≤ (net.session x).remoteIncomingWindow.toNat := by
    have hneed := hadv.next_le
    have hdue := hadv.notDue
    rw [hinv.window] at hdue
    omega
  refine ⟨?_, hpos⟩
  by_contra hne
  have := hsend.idle hne
  omega

/-! ## A short run, away from and at the top of the id range -/

/-- A session that starts at transfer-id `id` towards a receiver with a window of two. -/
def smallWindow (id : UInt32) : Side → SessionBuilder
  | .left => { nextOutgoingId := id }
  | .right => { incomingWindow := 2 }

private def singleTransfer : LinkFrame :=
  .firstTransfer
    { inputHandle := ⟨0⟩
      performative :=
        { handle := 0, deliveryId := none, deliveryTag := some [0, 0, 0, 0], messageFormat := some 0
          settled := none, more := false, rcvSettleMode := none, state := none, resume := false
          aborted := false, batchable := false }
      payload := [1] }

private def perform (net : Net) (x : Side) (action : LocalAction) : Net :=
  net.commit x (net.inbox x) (action.dispatch (net.session x))

private def deliverNext (net : Net) (x : Side) : Net :=
  match net.inbox x with
  | [] => net
  | frame :: rest => net.commit x rest ((net.session x).onIncoming [] frame)

/-- The receiver accepts a link, one transfer crosses, and the session flow it causes comes back. -/
private def acknowledgedTransfer (id : UInt32) : Net :=
  let net := begin (smallWindow id) fun _ => LinkStore.empty
  let net := net.perform .right (.allocateIncomingLink "link" (.receiver 0 () .first false) ⟨0⟩)
  let net := net.perform .left (.linkFrame singleTransfer)
  (net.deliverNext .right).deliverNext .left

theorem flow_control_never_stalls_small_window :
    1 ≤ ((acknowledgedTransfer 0).session .left).remoteIncomingWindow.toNat := by
  have hreach : Reachable (fun y frame => y = .left → frame.Unsaturated)
      (begin (smallWindow 0) fun _ => LinkStore.empty) (acknowledgedTransfer 0) := by
    refine .head (.act .right
      (.allocateIncomingLink "link" (.receiver 0 () .first false) ⟨0⟩) trivial rfl) ?_
    refine .head (.act .left (.linkFrame singleTransfer) rfl rfl) ?_
    refine .head (.deliver .right [] _ _ rfl (fun h => by cases h) rfl) ?_
    refine .head (.deliver .left [] _ _ rfl (fun _ flow n hbody hn => ?_) rfl) .refl
    cases hbody
    cases hn
    decide
  exact ((flow_control_never_stalls (smallWindow 0) (fun _ => LinkStore.empty) .left _
    (by decide) (by decide) hreach).1 rfl rfl).2

/-- Next to the top of the id range the sum in the sender's window saturates: one transfer-id below
the last one, with no id wrapped and nothing in flight, the window is closed for good. -/
theorem flow_control_stalls_at_top :
    ∃ net, Reachable (fun _ _ => True) (begin (smallWindow 0xfffffffe) fun _ => LinkStore.empty) net ∧
      (net.session .right).incomingWindow = 2 ∧
      (net.session .left).initialOutgoingId.toNat + 1 = (net.session .left).nextOutgoingId.toNat ∧
      net.inbox .left = [] ∧ net.inbox .right = [] ∧
      (net.session .left).remoteIncomingWindow = 0 := by
  refine ⟨acknowledgedTransfer 0xfffffffe, ?_, rfl, by decide, rfl, rfl, by decide⟩
  refine .head (.act .right
    (.allocateIncomingLink "link" (.receiver 0 () .first false) ⟨0⟩) trivial rfl) ?_
  refine .head (.act .left (.linkFrame singleTransfer) rfl rfl) ?_
  refine .head (.deliver .right [] _ _ rfl trivial rfl) ?_
  exact .head (.deliver .left [] _ _ rfl trivial rfl) .refl

end Net

end Fe2o3Amqp
