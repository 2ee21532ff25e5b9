import Fe2o3Amqp.Session.FlowControl

/-!
# What a dispatch does to the session window

Every dispatch of the session engine is described twice, once for the session as the sender of
transfers (`Sendable`) and once as their receiver (`Advertised`).  A sender may send up to a limit
that only a flow moves; a receiver counts transfers and advertises its window in the flows it emits.
-/

namespace Fe2o3Amqp

namespace Session

/-- The two sessions agree on everything the session window depends on. -/
structure SameWindow (s s' : Session) : Prop where
  localState : s'.localState = s.localState
  nextOutgoingId : s'.nextOutgoingId = s.nextOutgoingId
  incomingWindow : s'.incomingWindow = s.incomingWindow
  nextIncomingId : s'.nextIncomingId = s.nextIncomingId
  needFlowCount : s'.needFlowCount = s.needFlowCount
  remoteIncomingWindow : s'.remoteIncomingWindow = s.remoteIncomingWindow
  buffer : s'.remoteIncomingWindowExhaustedBuffer = s.remoteIncomingWindowExhaustedBuffer

namespace SameWindow

theorem refl (s : Session) : SameWindow s s := ⟨rfl, rfl, rfl, rfl, rfl, rfl, rfl⟩

theorem trans {s s' s'' : Session} (h : SameWindow s s') (h' : SameWindow s' s'') :
    SameWindow s s'' where
  localState := h'.localState.trans h.localState
  nextOutgoingId := h'.nextOutgoingId.trans h.nextOutgoingId
  incomingWindow := h'.incomingWindow.trans h.incomingWindow
  nextIncomingId := h'.nextIncomingId.trans h.nextIncomingId
  needFlowCount := h'.needFlowCount.trans h.needFlowCount
  remoteIncomingWindow := h'.remoteIncomingWindow.trans h.remoteIncomingWindow
  buffer := h'.buffer.trans h.buffer

theorem foldl {α : Type} {f : Session → α → Session} (h : ∀ s a, SameWindow s (f s a)) (s : Session)
    (as : List α) : SameWindow s (as.foldl f s) := by
  induction as generalizing s with
  | nil => exact refl s
  | cons a as ih => exact (h s a).trans (ih (f s a))

end SameWindow

theorem allocateLink_sameWindow (s : Session) (name : String) (relay : Option (LinkRelay Unit)) :
    SameWindow s (s.allocateLink name relay).2 := by
  unfold allocateLink
  split
  · split <;> exact ⟨rfl, rfl, rfl, rfl, rfl, rfl, rfl⟩
  · split
    · exact .refl s
    · split <;> exact .refl s

theorem allocateIncomingLink_sameWindow (s : Session) (name : String) (relay : LinkRelay Unit)
    (inputHandle : InputHandle) :
    SameWindow s (s.allocateIncomingLink name relay inputHandle).2 := by
  have h := s.allocateLink_sameWindow name none
  unfold allocateIncomingLink
  cases hresult : s.allocateLink name none with
  | mk result s' =>
      rw [hresult] at h
      cases result with
      | error e => exact h
      | ok handle => exact h.trans ⟨rfl, rfl, rfl, rfl, rfl, rfl, rfl⟩

theorem deallocateLink_sameWindow (s : Session) (outputHandle : OutputHandle) :
    SameWindow s (s.deallocateLink outputHandle).2 := by
  unfold deallocateLink
  split
  · exact ⟨rfl, rfl, rfl, rfl, rfl, rfl, rfl⟩
  · exact .refl s

theorem onIncomingAttach_sameWindow (s : Session) (attach : Attach) :
    SameWindow s (s.onIncomingAttach attach).2 := by
  unfold onIncomingAttach
  split
  · exact .refl s
  · exact .refl s
  · simp only
    split <;> exact ⟨rfl, rfl, rfl, rfl, rfl, rfl, rfl⟩

private theorem settleDelivery_sameWindow (d : Disposition) (s : Session) (id : DeliveryNumber) :
    SameWindow s (settleDelivery d s id) := by
  unfold settleDelivery
  simp only
  split
  · exact .refl s
  · split <;> exact ⟨rfl, rfl, rfl, rfl, rfl, rfl, rfl⟩

private theorem updateDelivery_sameWindow (d : Disposition) (acc : List DeliveryNumber × Session)
    (id : DeliveryNumber) : SameWindow acc.2 (updateDelivery d acc id).2 := by
  unfold updateDelivery
  simp only
  split
  · exact .refl _
  · split
    · exact .refl _
    · exact ⟨rfl, rfl, rfl, rfl, rfl, rfl, rfl⟩

private theorem foldl_updateDelivery_sameWindow (d : Disposition) (ids : List DeliveryNumber)
    (acc : List DeliveryNumber × Session) :
    SameWindow acc.2 (ids.foldl (updateDelivery d) acc).2 := by
  induction ids generalizing acc with
  | nil => exact .refl _
  | cons id ids ih => exact (updateDelivery_sameWindow d acc id).trans (ih _)

theorem onIncomingDisposition_sameWindow (s : Session) (d : Disposition) :
    SameWindow s (s.onIncomingDisposition d).2 := by
  unfold onIncomingDisposition
  simp only
  split
  · exact SameWindow.foldl (settleDelivery_sameWindow d) s _
  · exact foldl_updateDelivery_sameWindow d _ ([], s)

theorem onIncomingDetach_sameWindow (s : Session) (detach : Detach) :
    SameWindow s (s.onIncomingDetach detach).2 := by
  unfold onIncomingDetach
  simp only
  split
  · exact .refl s
  · exact ⟨rfl, rfl, rfl, rfl, rfl, rfl, rfl⟩

theorem onOutgoingDisposition_sameWindow (s : Session) (d : Disposition) :
    SameWindow s (s.onOutgoingDisposition d).2 := by
  unfold onOutgoingDisposition
  simp only
  split <;> split <;> exact ⟨rfl, rfl, rfl, rfl, rfl, rfl, rfl⟩

theorem sendDispositions_sameWindow (s : Session) (ds : List Disposition) :
    SameWindow s (s.sendDispositions ds).2 := by
  induction ds generalizing s with
  | nil => exact .refl s
  | cons d ds ih => exact (s.onOutgoingDisposition_sameWindow d).trans (ih _)

theorem onOutgoingDetach_sameWindow (s : Session) (detach : Detach) (expectsEcho : Bool) :
    SameWindow s (s.onOutgoingDetach detach expectsEcho).2 := by
  have h := s.deallocateLink_sameWindow ⟨detach.handle⟩
  unfold onOutgoingDetach
  simp only
  split
  · split
    · exact h.trans ⟨rfl, rfl, rfl, rfl, rfl, rfl, rfl⟩
    · exact h
  · exact h

theorem sendDispositions_plain (s : Session) (ds : List Disposition) :
    ∀ frame ∈ (s.sendDispositions ds).1, frame.isPlain := by
  induction ds generalizing s with
  | nil => simp [sendDispositions]
  | cons d ds ih =>
      simp only [sendDispositions, List.mem_cons, forall_eq_or_imp]
      exact ⟨rfl, ih _⟩

theorem onOutgoingDetach_plain (s : Session) (detach : Detach) (expectsEcho : Bool) :
    ∀ frame ∈ (s.onOutgoingDetach detach expectsEcho).1.toList, frame.isPlain := by
  unfold onOutgoingDetach
  simp only
  split
  · split
    · simp [SessionFrame.isPlain]
    · simp
  · simp [SessionFrame.isPlain]

/-- A mapped session whose waiting transfers are well formed. -/
structure Healthy (s : Session) : Prop where
  mapped : s.localState = .mapped
  wellFormed : ∀ item ∈ s.remoteIncomingWindowExhaustedBuffer, item.WellFormed

theorem SameWindow.healthy {s s' : Session} (h : SameWindow s s') (hs : Healthy s) : Healthy s' where
  mapped := h.localState.trans hs.mapped
  wellFormed := by rw [h.buffer]; exact hs.wellFormed

private theorem healthy_sendAll {s : Session} {waiting items rest : List BufferedTransfer}
    (hfits : Fits s waiting items rest) (hmapped : s.localState = .mapped)
    (hwf : ∀ item ∈ waiting, item.WellFormed) : Healthy ((s.sendAll items).withBuffer rest) where
  mapped := by rw [s.sendAll_frame items]; exact hmapped
  wellFormed := fun item hitem => hwf item (by
    rw [hfits.split]
    exact List.mem_append_right _ hitem)

theorem onOutgoingTransfer_healthy {s s' : Session} {item : BufferedTransfer}
    {out : Option SessionOutgoingItem} (hs : Healthy s) (hitem : item.WellFormed)
    (heq : s.onOutgoingTransfer item = (.ok out, s')) : Healthy s' := by
  have hall : ∀ item' ∈ s.remoteIncomingWindowExhaustedBuffer ++ [item], item'.WellFormed := by
    intro item' hmem
    rcases List.mem_append.mp hmem with hmem | hmem
    · exact hs.wellFormed item' hmem
    · rw [List.mem_singleton.mp hmem]
      exact hitem
  obtain ⟨out', items, rest, hfits, -, hok⟩ := s.onOutgoingTransfer_eq item hall
  rw [heq] at hok
  cases hok
  exact healthy_sendAll hfits hs.mapped hall

theorem onIncomingFlow_healthy {s s' : Session} {flow : Flow} {out : Option SessionOutgoingItem}
    (hs : Healthy s) (heq : s.onIncomingFlow flow = (.ok out, s')) : Healthy s' := by
  obtain ⟨links, -, hflow⟩ := s.onIncomingFlow_eq flow hs.wellFormed
  rcases hflow with ⟨e, herror⟩ | ⟨out', reply, items, rest, hfits, -, hok⟩
  · rw [heq] at herror
    cases herror
  · rw [heq] at hok
    cases hok
    exact healthy_sendAll hfits hs.mapped hs.wellFormed

/-! ## The session as a sender -/

/-- The sender may send up to the transfer-id `limit`, and transfers wait only on a closed window. -/
structure Sendable (s : Session) (limit : Nat) : Prop where
  limit_eq : s.remoteIncomingWindow.toNat + s.nextOutgoingId.toNat = limit
  bounded : limit < 2 ^ 32
  wellFormed : ∀ item ∈ s.remoteIncomingWindowExhaustedBuffer, item.WellFormed
  idle : s.remoteIncomingWindowExhaustedBuffer ≠ [] → s.remoteIncomingWindow.toNat = 0

/-- The frames emitted between `s` and `s'` respect the sender's counters. -/
def SendsAs (s s' : Session) (frames : List SessionFrame) : Prop :=
  ∀ limit, Sendable s limit →
    Sendable s' limit ∧ Counts s.nextOutgoingId.toNat s'.nextOutgoingId.toNat frames

theorem SameWindow.sendable {s s' : Session} (h : SameWindow s s') {limit : Nat}
    (hs : Sendable s limit) : Sendable s' limit where
  limit_eq := by rw [h.remoteIncomingWindow, h.nextOutgoingId]; exact hs.limit_eq
  bounded := hs.bounded
  wellFormed := by rw [h.buffer]; exact hs.wellFormed
  idle := by rw [h.buffer, h.remoteIncomingWindow]; exact hs.idle

theorem SameWindow.sendsAs {s s' : Session} (h : SameWindow s s') {frames : List SessionFrame}
    (hplain : ∀ frame ∈ frames, frame.isPlain) : SendsAs s s' frames := by
  intro limit hs
  rw [h.nextOutgoingId]
  exact ⟨h.sendable hs, counts_plain _ hplain⟩

private theorem counts_framesFor (s : Session) (items : List BufferedTransfer) (n : Nat) :
    Counts n (n + items.length) (s.framesFor items) := by
  induction items generalizing s n with
  | nil => rfl
  | cons item items ih =>
      rw [framesFor_cons, List.length_cons, Nat.add_comm items.length, ← Nat.add_assoc]
      exact ih (s.afterSend item) (n + 1)

private theorem toNat_add_ofNat {id : UInt32} {n : Nat} (h : id.toNat + n < 2 ^ 32) :
    (id + UInt32.ofNat n).toNat = id.toNat + n := by
  rw [UInt32.toNat_add, UInt32.toNat_ofNat']
  omega

/-- Sending what fits keeps the limit. -/
private theorem sendable_sendAll {s : Session} {limit : Nat}
    {waiting items rest : List BufferedTransfer} (hfits : Fits s waiting items rest)
    (hlimit : s.remoteIncomingWindow.toNat + s.nextOutgoingId.toNat = limit)
    (hbounded : limit < 2 ^ 32) (hwf : ∀ item ∈ waiting, item.WellFormed) :
    Sendable ((s.sendAll items).withBuffer rest) limit ∧
      ∀ other, Counts s.nextOutgoingId.toNat s.nextOutgoingId.toNat other →
        Counts s.nextOutgoingId.toNat ((s.sendAll items).withBuffer rest).nextOutgoingId.toNat
          (other ++ s.framesFor items) := by
  have hwithin := hfits.withinWindow
  have hwindow : ((s.sendAll items).withBuffer rest).remoteIncomingWindow.toNat =
      s.remoteIncomingWindow.toNat - items.length := s.sendAll_remoteIncomingWindow items
  have hid : ((s.sendAll items).withBuffer rest).nextOutgoingId.toNat =
      s.nextOutgoingId.toNat + items.length := by
    have hsum : s.nextOutgoingId.toNat + items.length < 2 ^ 32 := by omega
    rw [← toNat_add_ofNat hsum, ← s.sendAll_nextOutgoingId items]
    rfl
  refine ⟨⟨by omega, hbounded, ?_, ?_⟩, ?_⟩
  · intro item hitem
    refine hwf item ?_
    rw [hfits.split]
    exact List.mem_append_right _ hitem
  · intro hrest
    have := hfits.exhausted hrest
    omega
  · intro other hother
    rw [hid]
    exact counts_append.mpr ⟨_, hother, counts_framesFor s items _⟩

theorem onOutgoingTransfer_sendsAs (s : Session) (item : BufferedTransfer) (h : item.WellFormed) :
    ∀ limit, Sendable s limit → ∃ out s', s.onOutgoingTransfer item = (.ok out, s') ∧
      Sendable s' limit ∧
      Counts s.nextOutgoingId.toNat s'.nextOutgoingId.toNat (itemFrames out) := by
  intro limit hs
  have hwf : ∀ item' ∈ s.remoteIncomingWindowExhaustedBuffer ++ [item], item'.WellFormed := by
    intro item' hmem
    rcases List.mem_append.mp hmem with hmem | hmem
    · exact hs.wellFormed item' hmem
    · rw [List.mem_singleton.mp hmem]
      exact h
  obtain ⟨out, items, rest, hfits, hout, heq⟩ := s.onOutgoingTransfer_eq item hwf
  obtain ⟨hsendable, hcounts⟩ := sendable_sendAll hfits hs.limit_eq hs.bounded hwf
  refine ⟨out, _, heq, hsendable, ?_⟩
  rw [hout]
  exact hcounts [] rfl

/-- A flow whose window does not saturate moves the limit to what it grants. -/
theorem onIncomingFlow_sendable {s : Session} {limit : Nat} {flow : Flow} {n : UInt32}
    (hs : Sendable s limit) (hnext : flow.nextIncomingId = some n)
    (hgrant : limit ≤ n.toNat + flow.incomingWindow.toNat)
    (hbounded : n.toNat + flow.incomingWindow.toNat < 2 ^ 32)
    {out : Option SessionOutgoingItem} {s' : Session} (heq : s.onIncomingFlow flow = (.ok out, s')) :
    Sendable s' (n.toNat + flow.incomingWindow.toNat) ∧
      Counts s.nextOutgoingId.toNat s'.nextOutgoingId.toNat (itemFrames out) := by
  obtain ⟨links, -, hflow⟩ := s.onIncomingFlow_eq flow hs.wellFormed
  rcases hflow with ⟨e, herror⟩ | ⟨out', reply, items, rest, hfits, hout, hok⟩
  · rw [heq] at herror
    cases herror
  rw [heq] at hok
  cases hok
  have hwindow : (s.applySessionFlow flow).remoteIncomingWindow.toNat =
      n.toNat + flow.incomingWindow.toNat - s.nextOutgoingId.toNat := by
    simp only [applySessionFlow, hnext, UInt32.toNat_saturatingSub, UInt32.toNat_saturatingAdd]
    omega
  have hlimit : (s.applySessionFlow flow).remoteIncomingWindow.toNat + s.nextOutgoingId.toNat =
      n.toNat + flow.incomingWindow.toNat := by
    have := hs.limit_eq
    omega
  obtain ⟨hsendable, hcounts⟩ := sendable_sendAll hfits hlimit hbounded hs.wellFormed
  refine ⟨hsendable, ?_⟩
  rw [hout]
  refine hcounts _ ?_
  cases reply with
  | none => rfl
  | some reply => exact ⟨rfl, rfl⟩

/-! ## The session as a receiver -/

/-- The receiver last advertised its window at next-incoming-id `b`, and a session flow is not
overdue. -/
structure Advertised (r : Session) (b : Nat) : Prop where
  mapped : r.localState = .mapped
  le_next : b ≤ r.nextIncomingId.toNat
  next_le : r.nextIncomingId.toNat ≤ b + r.needFlowCount.toNat
  notDue : r.needFlowCount.toNat = 0 ∨ r.needFlowCount.toNat < r.incomingWindow.toNat / 2

/-- The frames emitted between `r` and `r'` carry the receiver's advertisements. -/
def ReceivesAs (r r' : Session) (frames : List SessionFrame) : Prop :=
  ∀ b, Advertised r b → ∃ b', Advertised r' b' ∧ Acknowledges r.incomingWindow b b' frames

theorem SameWindow.receivesAs {r r' : Session} (h : SameWindow r r') {frames : List SessionFrame}
    (hplain : ∀ frame ∈ frames, frame.isPlain) : ReceivesAs r r' frames := by
  intro b hr
  refine ⟨b, ⟨?_, ?_, ?_, ?_⟩, acknowledges_plain _ _ hplain⟩
  · rw [h.localState]
    exact hr.mapped
  · rw [h.nextIncomingId]
    exact hr.le_next
  · rw [h.nextIncomingId, h.needFlowCount]
    exact hr.next_le
  · rw [h.needFlowCount, h.incomingWindow]
    exact hr.notDue

/-- A flow of the receiver advertises the window at its current next-incoming-id. -/
private theorem acknowledges_flow {r : Session} {b : Nat} (hb : b ≤ r.nextIncomingId.toNat)
    (flow : LinkFlow) :
    Acknowledges r.incomingWindow b r.nextIncomingId.toNat [r.onOutgoingFlow flow] :=
  ⟨r.nextIncomingId, rfl, hb, rfl, rfl⟩

theorem onOutgoingFlow_receivesAs (r : Session) (flow : LinkFlow) :
    ReceivesAs r r [r.onOutgoingFlow flow] := by
  intro b hr
  exact ⟨r.nextIncomingId.toNat, ⟨hr.mapped, Nat.le_refl _, by omega, hr.notDue⟩,
    acknowledges_flow hr.le_next flow⟩

private theorem acknowledges_framesFor (s : Session) (items : List BufferedTransfer) (w : UInt32)
    (b : Nat) : Acknowledges w b b (s.framesFor items) := by
  induction items generalizing s with
  | nil => rfl
  | cons item items ih => exact ih (s.afterSend item)

private theorem advertised_sendAll {r : Session} {b : Nat} (items rest : List BufferedTransfer)
    (hr : Advertised r b) : Advertised ((r.sendAll items).withBuffer rest) b := by
  have hframe := r.sendAll_frame items
  rw [hframe]
  exact ⟨hr.mapped, hr.le_next, hr.next_le, hr.notDue⟩

theorem onOutgoingTransfer_receivesAs {r r' : Session} {item : BufferedTransfer}
    {out : Option SessionOutgoingItem}
    (h : ∀ item' ∈ r.remoteIncomingWindowExhaustedBuffer ++ [item], item'.WellFormed)
    (heq : r.onOutgoingTransfer item = (.ok out, r')) : ReceivesAs r r' (itemFrames out) := by
  obtain ⟨out', items, rest, -, hout, hok⟩ := r.onOutgoingTransfer_eq item h
  rw [heq] at hok
  cases hok
  intro b hr
  refine ⟨b, advertised_sendAll items rest hr, ?_⟩
  rw [hout]
  exact acknowledges_framesFor r items _ b

/-- A flow that announces the count already reached leaves the advertisement as it was. -/
theorem onIncomingFlow_receivesAs {r r' : Session} {flow : Flow} {out : Option SessionOutgoingItem}
    (h : ∀ item ∈ r.remoteIncomingWindowExhaustedBuffer, item.WellFormed)
    (hnext : flow.nextOutgoingId = r.nextIncomingId)
    (heq : r.onIncomingFlow flow = (.ok out, r')) : ReceivesAs r r' (itemFrames out) := by
  obtain ⟨links, -, hflow⟩ := r.onIncomingFlow_eq flow h
  rcases hflow with ⟨e, herror⟩ | ⟨out', reply, items, rest, -, hout, hok⟩
  · rw [heq] at herror
    cases herror
  rw [heq] at hok
  cases hok
  intro b hr
  have hnextNat : flow.nextOutgoingId.toNat = r.nextIncomingId.toNat := by rw [hnext]
  have hr₁ : Advertised ((r.applySessionFlow flow).withLinks links) b :=
    ⟨hr.mapped, hr.le_next.trans_eq hnextNat.symm, hnextNat.trans_le hr.next_le, hr.notDue⟩
  rw [hout]
  cases reply with
  | none =>
      exact ⟨b, advertised_sendAll items rest hr₁, acknowledges_framesFor _ items _ b⟩
  | some reply =>
      refine ⟨flow.nextOutgoingId.toNat, ?_, ?_⟩
      · refine advertised_sendAll items rest ⟨hr.mapped, Nat.le_refl _, ?_, hr.notDue⟩
        exact Nat.le_add_right _ _
      · exact acknowledges_append.mpr ⟨_, acknowledges_flow hr₁.le_next reply,
          acknowledges_framesFor _ items _ _⟩

/-- What an accepted flow does to the counters of the receiving role. -/
theorem onIncomingFlow_counters {r r' : Session} {flow : Flow} {out : Option SessionOutgoingItem}
    (h : ∀ item ∈ r.remoteIncomingWindowExhaustedBuffer, item.WellFormed)
    (heq : r.onIncomingFlow flow = (.ok out, r')) :
    r'.nextIncomingId = flow.nextOutgoingId ∧ r'.incomingWindow = r.incomingWindow := by
  obtain ⟨links, -, hflow⟩ := r.onIncomingFlow_eq flow h
  rcases hflow with ⟨e, herror⟩ | ⟨out', reply, items, rest, -, -, hok⟩
  · rw [heq] at herror
    cases herror
  · rw [heq] at hok
    cases hok
    rw [sendAll_frame]
    exact ⟨rfl, rfl⟩

/-! ## Counting a received transfer -/

/-- The session counters after a transfer has been received. -/
def countTransfer (s : Session) : Session :=
  { s with
    nextIncomingId := s.nextIncomingId + 1
    needFlowCount := s.needFlowCount.saturatingAdd 1 }

theorem onIncomingTransfer_sameWindow (s : Session) (transfer : Transfer) (payload : Payload) :
    SameWindow s.countTransfer (s.onIncomingTransfer transfer payload).2 := by
  unfold onIncomingTransfer
  simp only
  split
  · exact ⟨rfl, rfl, rfl, rfl, rfl, rfl, rfl⟩
  · split <;> exact ⟨rfl, rfl, rfl, rfl, rfl, rfl, rfl⟩

private theorem onIncomingTransfer_ok {s s' : Session} {transfer : Transfer} {payload : Payload}
    {disposition : Option Disposition}
    (h : s.onIncomingTransfer transfer payload = (.ok disposition, s')) : disposition = none := by
  unfold onIncomingTransfer at h
  simp only at h
  split at h
  · cases h
  · split at h <;> cases h <;> rfl

/-- A session flow is due once `need_flow_count` has reached half the window. -/
theorem maybeOutgoingSessionFlow_eq {s : Session} (h : s.localState = .mapped) :
    s.maybeOutgoingSessionFlow =
      if s.incomingWindow.toNat / 2 ≤ s.needFlowCount.toNat then
        (some (.singleFrame s.onOutgoingSessionFlow), { s with needFlowCount := 0 })
      else (none, s) := by
  have htwo : (2 : UInt32).toNat = 2 := rfl
  have hdue : s.needFlowCount ≥ s.incomingWindow / 2 ↔
      s.incomingWindow.toNat / 2 ≤ s.needFlowCount.toNat := by
    rw [ge_iff_le, UInt32.le_iff_toNat_le, UInt32.toNat_div, htwo]
  unfold maybeOutgoingSessionFlow
  simp only [h, ne_eq, not_true_eq_false, if_false, hdue]
  rfl

private theorem maybeOutgoingSessionFlow_sendsAs (s : Session) :
    SendsAs s s.maybeOutgoingSessionFlow.2 (itemFrames s.maybeOutgoingSessionFlow.1) := by
  intro limit hs
  have hquiet : Sendable s limit ∧ Counts s.nextOutgoingId.toNat s.nextOutgoingId.toNat [] :=
    ⟨hs, rfl⟩
  unfold maybeOutgoingSessionFlow
  split
  · exact hquiet
  · split
    · exact ⟨⟨hs.limit_eq, hs.bounded, hs.wellFormed, hs.idle⟩, rfl, rfl⟩
    · exact hquiet

/-- The receiver's side of a check for a due session flow: whatever was counted before, no flow is
due afterwards. -/
private theorem maybeOutgoingSessionFlow_advertised {r : Session} {b : Nat}
    (hmapped : r.localState = .mapped) (hle : b ≤ r.nextIncomingId.toNat)
    (hnext : r.nextIncomingId.toNat ≤ b + r.needFlowCount.toNat) :
    ∃ b', Advertised r.maybeOutgoingSessionFlow.2 b' ∧
      Acknowledges r.incomingWindow b b' (itemFrames r.maybeOutgoingSessionFlow.1) := by
  rw [maybeOutgoingSessionFlow_eq hmapped]
  split
  · refine ⟨r.nextIncomingId.toNat, ⟨hmapped, Nat.le_refl _, Nat.le_add_right _ _, Or.inl rfl⟩, ?_⟩
    exact ⟨r.nextIncomingId, rfl, hle, rfl, rfl⟩
  · rename_i hdue
    exact ⟨b, ⟨hmapped, hle, hnext, Or.inr (Nat.lt_of_not_le hdue)⟩, rfl⟩

theorem onIncoming_transfer_sendsAs {s : Session} {pending : List LinkFrame} {frame : SessionFrame}
    {transfer : Transfer} {payload : Payload} (hbody : frame.body = .transfer transfer payload)
    (hok : (s.onIncoming pending frame).result = .ok .continue) :
    SendsAs s (s.onIncoming pending frame).session (s.onIncoming pending frame).frames := by
  intro limit hs
  have hcount : Sendable s.countTransfer limit := ⟨hs.limit_eq, hs.bounded, hs.wellFormed, hs.idle⟩
  have hsame := s.onIncomingTransfer_sameWindow transfer payload
  unfold onIncoming at hok ⊢
  rw [hbody] at hok ⊢
  cases hresult : s.onIncomingTransfer transfer payload with
  | mk result s' =>
      rw [hresult] at hsame
      simp only [hresult] at hok ⊢
      cases result with
      | error e => cases hok
      | ok disposition =>
          rw [onIncomingTransfer_ok hresult]
          have hflow := maybeOutgoingSessionFlow_sendsAs s' limit (hsame.sendable hcount)
          rw [hsame.nextOutgoingId] at hflow
          exact hflow

theorem onIncoming_transfer_advertised {r : Session} {b : Nat} {pending : List LinkFrame}
    {frame : SessionFrame} {transfer : Transfer} {payload : Payload}
    (hbody : frame.body = .transfer transfer payload)
    (hok : (r.onIncoming pending frame).result = .ok .continue) (hr : Advertised r b)
    (hwrap : r.nextIncomingId.toNat + 1 < 2 ^ 32) :
    (r.onIncoming pending frame).session.nextIncomingId.toNat = r.nextIncomingId.toNat + 1 ∧
      (r.onIncoming pending frame).session.incomingWindow = r.incomingWindow ∧
      ∃ b', Advertised (r.onIncoming pending frame).session b' ∧
        Acknowledges r.incomingWindow b b' (r.onIncoming pending frame).frames := by
  have hsame := r.onIncomingTransfer_sameWindow transfer payload
  have hnext : r.countTransfer.nextIncomingId.toNat = r.nextIncomingId.toNat + 1 :=
    UInt32.toNat_add_one hwrap
  have hneed : r.countTransfer.needFlowCount.toNat = r.needFlowCount.toNat + 1 := by
    have hone : (1 : UInt32).toNat = 1 := rfl
    have hlt := r.incomingWindow.toNat_lt
    have hdue := hr.notDue
    simp only [countTransfer, UInt32.toNat_saturatingAdd, hone]
    omega
  unfold onIncoming at hok ⊢
  rw [hbody] at hok ⊢
  cases hresult : r.onIncomingTransfer transfer payload with
  | mk result r' =>
      rw [hresult] at hsame
      simp only [hresult] at hok ⊢
      cases result with
      | error e => cases hok
      | ok disposition =>
          rw [onIncomingTransfer_ok hresult]
          have hmapped : r'.localState = .mapped := hsame.localState.trans hr.mapped
          have hwindow : r'.incomingWindow = r.incomingWindow := hsame.incomingWindow
          have hkeep : r'.maybeOutgoingSessionFlow.2.nextIncomingId = r'.nextIncomingId ∧
              r'.maybeOutgoingSessionFlow.2.incomingWindow = r'.incomingWindow := by
            rw [maybeOutgoingSessionFlow_eq hmapped]
            split <;> exact ⟨rfl, rfl⟩
          have hle := hr.le_next
          have hbound := hr.next_le
          have hadvertised := maybeOutgoingSessionFlow_advertised (r := r') (b := b) hmapped
            (by rw [hsame.nextIncomingId, hnext]; omega)
            (by rw [hsame.nextIncomingId, hsame.needFlowCount, hnext, hneed]; omega)
          rw [hwindow] at hadvertised
          exact ⟨by rw [← hnext, ← hsame.nextIncomingId, ← hkeep.1]; rfl,
            hkeep.2.trans hwindow, hadvertised⟩

end Session

/-! ## Dispatches -/

namespace LocalAction

open Session

/-- The cases of a local action that leave the window alone and emit plain frames. -/
private theorem dispatch_cases (s : Session) (action : LocalAction)
    (hok : (action.dispatch s).result = .ok .continue) :
    (SameWindow s (action.dispatch s).session ∧
        ∀ frame ∈ (action.dispatch s).frames, frame.isPlain) ∨
      (∃ flow, action = .linkFrame (.flow flow)) ∨ action = .sessionFlow ∨
      (∃ frame, action = .linkFrame (.firstTransfer frame)) ∨
      ∃ frame, action = .linkFrame (.transferContinuation frame) := by
  cases action with
  | sessionFlow => exact Or.inr (Or.inr (Or.inl rfl))
  | allocateLink name relay =>
      exact Or.inl ⟨s.allocateLink_sameWindow name relay, by simp [dispatch, dispatched]⟩
  | allocateIncomingLink name relay inputHandle =>
      exact Or.inl ⟨s.allocateIncomingLink_sameWindow name relay inputHandle,
        by simp [dispatch, dispatched]⟩
  | deallocateLink outputHandle =>
      exact Or.inl ⟨s.deallocateLink_sameWindow outputHandle, by simp [dispatch, dispatched]⟩
  | links store =>
      exact Or.inl ⟨⟨rfl, rfl, rfl, rfl, rfl, rfl, rfl⟩, by simp [dispatch, dispatched]⟩
  | linkFrame frame =>
      by_cases hmapped : s.localState = .mapped
      · cases frame with
        | flow flow => exact Or.inr (Or.inl ⟨flow, rfl⟩)
        | firstTransfer frame => exact Or.inr (Or.inr (Or.inr (Or.inl ⟨frame, rfl⟩)))
        | transferContinuation frame => exact Or.inr (Or.inr (Or.inr (Or.inr ⟨frame, rfl⟩)))
        | attach attach =>
            left
            simp only [dispatch, onOutgoingLinkFrames, hmapped, ne_eq, not_true_eq_false, if_false]
            exact ⟨.refl s, by simp [dispatched, onOutgoingAttach, SessionFrame.isPlain]⟩
        | disposition d =>
            left
            simp only [dispatch, onOutgoingLinkFrames, hmapped, ne_eq, not_true_eq_false, if_false]
            exact ⟨s.onOutgoingDisposition_sameWindow d,
              by simp [dispatched, onOutgoingDisposition, SessionFrame.isPlain]⟩
        | detach detach =>
            left
            simp only [dispatch, onOutgoingLinkFrames, hmapped, ne_eq, not_true_eq_false, if_false]
            exact ⟨s.onOutgoingDetach_sameWindow detach true, s.onOutgoingDetach_plain detach true⟩
        | remoteTransfer frame => simp [dispatch, onOutgoingLinkFrames, hmapped] at hok
        | acquisition txnId => simp [dispatch, onOutgoingLinkFrames, hmapped] at hok
      · simp [dispatch, onOutgoingLinkFrames, hmapped] at hok

/-- A transfer handed over by a link of a mapped session is a call of `on_outgoing_transfer`. -/
private theorem dispatch_transfer {s : Session} {action : LocalAction}
    (hwf : action.WellFormed) (hok : (action.dispatch s).result = .ok .continue)
    (haction : (∃ frame, action = .linkFrame (.firstTransfer frame)) ∨
      ∃ frame, action = .linkFrame (.transferContinuation frame)) :
    ∃ item out, item.WellFormed ∧
      s.onOutgoingTransfer item = (.ok out, (action.dispatch s).session) ∧
      (action.dispatch s).frames = itemFrames out := by
  have key : ∀ item : BufferedTransfer, item.WellFormed →
      action.dispatch s = (if s.localState ≠ .mapped then ⟨[], .error .illegalState, s⟩ else
        s.dispatchTransfer item) →
      ∃ item out, item.WellFormed ∧
        s.onOutgoingTransfer item = (.ok out, (action.dispatch s).session) ∧
        (action.dispatch s).frames = itemFrames out := by
    intro item hitem heq
    rw [heq] at hok
    by_cases hmapped : s.localState = .mapped
    · simp only [hmapped, ne_eq, not_true_eq_false, if_false, dispatchTransfer] at hok heq
      cases hresult : s.onOutgoingTransfer item with
      | mk result s' =>
          simp only [hresult] at hok heq
          cases result with
          | error e => cases hok
          | ok out =>
              rw [heq]
              exact ⟨item, out, hitem, hresult, rfl⟩
    · simp [hmapped] at hok
  rcases haction with ⟨frame, rfl⟩ | ⟨frame, rfl⟩
  · exact key ⟨frame.inputHandle, frame.performative, frame.payload, true⟩
      ⟨fun _ => hwf, fun h => absurd h (by simp)⟩ rfl
  · exact key ⟨frame.inputHandle, frame.performative, frame.payload, false⟩
      ⟨fun h => absurd h (by simp), fun _ => hwf⟩ rfl

private theorem dispatch_flow {s : Session} {flow : LinkFlow}
    (hok : ((linkFrame (.flow flow)).dispatch s).result = .ok .continue) :
    (linkFrame (.flow flow)).dispatch s = s.dispatched [s.onOutgoingFlow flow] := by
  by_cases hmapped : s.localState = .mapped
  · simp [dispatch, onOutgoingLinkFrames, hmapped]
  · simp [dispatch, onOutgoingLinkFrames, hmapped] at hok

theorem dispatch_healthy {s : Session} {action : LocalAction} (hs : Healthy s)
    (hwf : action.WellFormed) (hok : (action.dispatch s).result = .ok .continue) :
    Healthy (action.dispatch s).session := by
  rcases dispatch_cases s action hok with ⟨hsame, -⟩ | ⟨flow, rfl⟩ | rfl | htransfer
  · exact hsame.healthy hs
  · rw [dispatch_flow hok]
    exact hs
  · simp only [dispatch, dispatched, maybeOutgoingSessionFlow_eq hs.mapped]
    split <;> exact ⟨hs.mapped, hs.wellFormed⟩
  · obtain ⟨item, out, hitem, heq, -⟩ := dispatch_transfer hwf hok htransfer
    exact onOutgoingTransfer_healthy hs hitem heq

theorem dispatch_sendsAs (s : Session) (action : LocalAction) (hwf : action.WellFormed)
    (hok : (action.dispatch s).result = .ok .continue) :
    SendsAs s (action.dispatch s).session (action.dispatch s).frames := by
  rcases dispatch_cases s action hok with ⟨hsame, hplain⟩ | ⟨flow, rfl⟩ | rfl | htransfer
  · exact hsame.sendsAs hplain
  · rw [dispatch_flow hok]
    intro limit hs
    exact ⟨hs, rfl, rfl⟩
  · exact maybeOutgoingSessionFlow_sendsAs s
  · intro limit hs
    obtain ⟨item, out, hitem, heq, hframes⟩ := dispatch_transfer hwf hok htransfer
    obtain ⟨out', s', heq', hsendable, hcounts⟩ := s.onOutgoingTransfer_sendsAs item hitem limit hs
    rw [heq] at heq'
    cases heq'
    rw [hframes]
    exact ⟨hsendable, hcounts⟩

/-- A local action leaves the receiver's counters alone and advertises them in its flows. -/
theorem dispatch_receivesAs (r : Session) (action : LocalAction) (hwf : action.WellFormed)
    (hbuffer : ∀ item ∈ r.remoteIncomingWindowExhaustedBuffer, item.WellFormed)
    (hok : (action.dispatch r).result = .ok .continue) {b : Nat} (hr : Advertised r b) :
    (action.dispatch r).session.nextIncomingId = r.nextIncomingId ∧
      (action.dispatch r).session.incomingWindow = r.incomingWindow ∧
      ∃ b', Advertised (action.dispatch r).session b' ∧
        Acknowledges r.incomingWindow b b' (action.dispatch r).frames := by
  rcases dispatch_cases r action hok with ⟨hsame, hplain⟩ | ⟨flow, rfl⟩ | rfl | htransfer
  · exact ⟨hsame.nextIncomingId, hsame.incomingWindow, hsame.receivesAs hplain b hr⟩
  · rw [dispatch_flow hok]
    exact ⟨rfl, rfl, r.onOutgoingFlow_receivesAs flow b hr⟩
  · refine ⟨?_, ?_, maybeOutgoingSessionFlow_advertised hr.mapped hr.le_next hr.next_le⟩
    · simp only [dispatch, dispatched, maybeOutgoingSessionFlow_eq hr.mapped]
      split <;> rfl
    · simp only [dispatch, dispatched, maybeOutgoingSessionFlow_eq hr.mapped]
      split <;> rfl
  · obtain ⟨item, out, hitem, heq, hframes⟩ := dispatch_transfer hwf hok htransfer
    have hall : ∀ item' ∈ r.remoteIncomingWindowExhaustedBuffer ++ [item], item'.WellFormed := by
      intro item' hmem
      rcases List.mem_append.mp hmem with hmem | hmem
      · exact hbuffer item' hmem
      · rw [List.mem_singleton.mp hmem]
        exact hitem
    obtain ⟨out', items, rest, -, hout, hsession⟩ := r.onOutgoingTransfer_eq item hall
    have hreceives := onOutgoingTransfer_receivesAs hall heq b hr
    rw [heq] at hsession
    simp only [Prod.mk.injEq] at hsession
    rw [hframes]
    refine ⟨?_, ?_, hreceives⟩ <;> rw [hsession.2, r.sendAll_frame items] <;> rfl

end LocalAction

namespace Session

private theorem dispatchEnd_not_ok {s : Session} (hmapped : s.localState = .mapped)
    (pending : List LinkFrame) (e : End) (running : Running) :
    (s.dispatchEnd pending e).result ≠ .ok running := by
  cases herror : e.error <;>
    simp only [dispatchEnd, onIncomingEnd, hmapped, herror, if_true] <;>
    split <;> simp only [ne_eq, reduceCtorEq, not_false_eq_true] <;>
    split <;> simp

/-- An incoming frame that is neither a transfer nor a flow leaves the window alone. -/
theorem onIncoming_plain {s : Session} (hmapped : s.localState = .mapped) {pending : List LinkFrame}
    {frame : SessionFrame} (hplain : frame.isPlain)
    (hok : (s.onIncoming pending frame).result = .ok .continue) :
    SameWindow s (s.onIncoming pending frame).session ∧
      ∀ f ∈ (s.onIncoming pending frame).frames, f.isPlain := by
  unfold onIncoming at hok ⊢
  unfold SessionFrame.isPlain at hplain
  cases hbody : frame.body with
  | transfer performative payload => simp [hbody] at hplain
  | flow flow => simp [hbody] at hplain
  | begin b => simp [hbody, onIncomingBegin, hmapped] at hok
  | «end» e =>
      rw [hbody] at hok
      exact absurd hok (dispatchEnd_not_ok hmapped pending e _)
  | attach attach =>
      have hsame := s.onIncomingAttach_sameWindow attach
      simp only [hbody] at hok ⊢
      cases hresult : s.onIncomingAttach attach with
      | mk result s' =>
          rw [hresult] at hsame
          simp only [hresult] at hok ⊢
          cases result with
          | error e => cases hok
          | ok _ => exact ⟨hsame, by simp [dispatched]⟩
  | disposition d =>
      exact ⟨(s.onIncomingDisposition_sameWindow d).trans (sendDispositions_sameWindow _ _),
        sendDispositions_plain _ _⟩
  | detach detach =>
      have hsame := s.onIncomingDetach_sameWindow detach
      simp only
      cases hresult : s.onIncomingDetach detach with
      | mk reply s' =>
          rw [hresult] at hsame
          cases reply with
          | none => exact ⟨hsame, by simp [dispatched]⟩
          | some reply =>
              exact ⟨hsame.trans (s'.onOutgoingDetach_sameWindow reply false),
                s'.onOutgoingDetach_plain reply false⟩

/-- An incoming flow is a call of `on_incoming_flow`. -/
theorem onIncoming_flow {s : Session} {pending : List LinkFrame} {frame : SessionFrame} {flow : Flow}
    (hbody : frame.body = .flow flow)
    (hok : (s.onIncoming pending frame).result = .ok .continue) :
    ∃ out, s.onIncomingFlow flow = (.ok out, (s.onIncoming pending frame).session) ∧
      (s.onIncoming pending frame).frames = itemFrames out := by
  unfold onIncoming at hok ⊢
  simp only [hbody] at hok ⊢
  cases hresult : s.onIncomingFlow flow with
  | mk result s' =>
      simp only [hresult] at hok ⊢
      cases result with
      | error e => cases hok
      | ok out => exact ⟨out, rfl, rfl⟩

theorem onIncoming_healthy {s : Session} (hs : Healthy s) {pending : List LinkFrame}
    {frame : SessionFrame} (hok : (s.onIncoming pending frame).result = .ok .continue) :
    Healthy (s.onIncoming pending frame).session := by
  by_cases hplain : frame.isPlain
  · exact (onIncoming_plain hs.mapped hplain hok).1.healthy hs
  cases hbody : frame.body with
  | flow flow =>
      obtain ⟨out, heq, -⟩ := onIncoming_flow hbody hok
      exact onIncomingFlow_healthy hs heq
  | transfer performative payload =>
      have hcount : Healthy s.countTransfer := ⟨hs.mapped, hs.wellFormed⟩
      have hsame := s.onIncomingTransfer_sameWindow performative payload
      unfold onIncoming at hok ⊢
      simp only [hbody] at hok ⊢
      cases hresult : s.onIncomingTransfer performative payload with
      | mk result s' =>
          rw [hresult] at hsame
          have hs' := hsame.healthy hcount
          simp only [hresult] at hok ⊢
          cases result with
          | error e => cases hok
          | ok disposition =>
              rw [onIncomingTransfer_ok hresult]
              simp only [Option.toList_none, sendDispositions, dispatched,
                maybeOutgoingSessionFlow_eq hs'.mapped]
              split <;> exact ⟨hs'.mapped, hs'.wellFormed⟩
  | _ => simp [SessionFrame.isPlain, hbody] at hplain

end Session

end Fe2o3Amqp
