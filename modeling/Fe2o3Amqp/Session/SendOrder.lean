import Fe2o3Amqp.Session.LinkTables
import Fe2o3Amqp.Util.Run

/-!
# Transfers and the Detach of their link

A session emits the transfers that its links hand over in the order of the hand-over, so the `i`-th
transfer on the wire is the `i`-th one handed over.  A Detach does not take part in that order: it
goes out at once, while a transfer may wait for the peer's window.  A link whose transfers have all
left when its Detach is handed over sends none of them afterwards.
-/

namespace Fe2o3Amqp

/-- Between `s` and `s'` the transfers `items` were emitted, as part of `frames`; they are the first
of those that were waiting or `submitted`. -/
structure Sent (s s' : Session) (submitted items : List BufferedTransfer)
    (frames : List SessionFrame) : Prop where
  split : items ++ s'.remoteIncomingWindowExhaustedBuffer =
    s.remoteIncomingWindowExhaustedBuffer ++ submitted
  nextOutgoingDeliveryId :
    s'.nextOutgoingDeliveryId = s.nextOutgoingDeliveryId + UInt32.ofNat (firstCount items)
  transfers : transfersOf frames = sentTransfers s.nextOutgoingDeliveryId items

namespace Sent

variable {s s' s'' : Session} {submitted submitted' items items' : List BufferedTransfer}
  {frames frames' : List SessionFrame}

/-- Nothing was handed over and no transfer left. -/
theorem of_sending (h : s'.sending = s.sending) (hframes : transfersOf frames = []) :
    Sent s s' [] [] frames := by
  obtain ⟨hid, -, hbuffer⟩ : s'.nextOutgoingDeliveryId = s.nextOutgoingDeliveryId ∧
      s'.remoteIncomingWindow = s.remoteIncomingWindow ∧
      s'.remoteIncomingWindowExhaustedBuffer = s.remoteIncomingWindowExhaustedBuffer := by
    simpa [Session.sending] using h
  exact ⟨by simp [hbuffer], by simp [hid, firstCount], hframes⟩

theorem of_emitted (h : Emitted s s' items frames)
    (hsplit : items ++ s'.remoteIncomingWindowExhaustedBuffer =
      s.remoteIncomingWindowExhaustedBuffer ++ submitted) : Sent s s' submitted items frames :=
  ⟨hsplit, h.nextOutgoingDeliveryId, h.transfers⟩

theorem trans (h : Sent s s' submitted items frames) (h' : Sent s' s'' submitted' items' frames') :
    Sent s s'' (submitted ++ submitted') (items ++ items') (frames ++ frames') where
  split := by rw [List.append_assoc, h'.split, ← List.append_assoc, h.split, List.append_assoc]
  nextOutgoingDeliveryId := by
    rw [h'.nextOutgoingDeliveryId, h.nextOutgoingDeliveryId, firstCount_append, UInt32.ofNat_add,
      UInt32.add_assoc]
  transfers := by
    rw [transfersOf_append, h.transfers, h'.transfers, h.nextOutgoingDeliveryId,
      sentTransfers_append]

theorem length_transfers (h : Sent s s' submitted items frames) :
    (transfersOf frames).length = items.length := by
  rw [h.transfers, length_sentTransfers]

/-- What waits afterwards is well formed if what waited and what was submitted is. -/
theorem wellFormed (h : Sent s s' submitted items frames)
    (hwf : ∀ item ∈ s.remoteIncomingWindowExhaustedBuffer ++ submitted, item.WellFormed) :
    ∀ item ∈ s'.remoteIncomingWindowExhaustedBuffer, item.WellFormed := by
  intro item hitem
  refine hwf item ?_
  rw [← h.split]
  exact List.mem_append_right _ hitem

end Sent

/-- The transfer that a link frame carries. -/
def LinkFrame.transfer? : LinkFrame → Option BufferedTransfer
  | .firstTransfer frame => some ⟨frame.inputHandle, frame.performative, frame.payload, true⟩
  | .transferContinuation frame =>
      some ⟨frame.inputHandle, frame.performative, frame.payload, false⟩
  | _ => none

/-- First transfers carry a tag, continuations carry no delivery-id. -/
def LinkFrame.WellFormed (frame : LinkFrame) : Prop := ∀ item ∈ frame.transfer?, item.WellFormed

namespace Session

/-- One transfer handed over by a link. -/
theorem onOutgoingTransfer_sent (s : Session) (item : BufferedTransfer)
    (hwf : ∀ item' ∈ s.remoteIncomingWindowExhaustedBuffer ++ [item], item'.WellFormed) :
    ∃ out s' items, s.onOutgoingTransfer item = (.ok out, s') ∧
      Sent s s' [item] items (itemFrames out) := by
  obtain ⟨items, hsplit, hemitted⟩ := s.windowStep_emitted (.submit item) hwf
  obtain ⟨out, sent, rest, -, -, heq⟩ := s.onOutgoingTransfer_eq item hwf
  simp only [windowStep, heq] at hsplit hemitted
  exact ⟨out, _, items, heq, .of_emitted hemitted hsplit⟩

theorem onIncoming_flow_sent (s : Session) (pending : List LinkFrame) (channel : UInt16)
    (flow : Flow) (hwf : ∀ item ∈ s.remoteIncomingWindowExhaustedBuffer, item.WellFormed) :
    ∃ items, Sent s (s.onIncoming pending ⟨channel, .flow flow⟩).session [] items
      (s.onIncoming pending ⟨channel, .flow flow⟩).frames := by
  obtain ⟨items, hsplit, hemitted⟩ := s.windowStep_emitted (.flow flow)
    (by simpa [WindowEvent.submitted] using hwf)
  have hstep : ((s.onIncoming pending ⟨channel, .flow flow⟩).session,
      (s.onIncoming pending ⟨channel, .flow flow⟩).frames) = s.windowStep (.flow flow) := by
    simp only [onIncoming, windowStep]
    cases hflow : s.onIncomingFlow flow with
    | mk result s' => cases result <;> rfl
  obtain ⟨hsession, hframes⟩ := Prod.ext_iff.mp hstep
  simp only at hsession hframes
  rw [hsession, hframes]
  exact ⟨items, .of_emitted hemitted hsplit⟩

/-- An incoming frame may release waiting transfers. -/
theorem onIncoming_sent (s : Session) (pending : List LinkFrame) (frame : SessionFrame)
    (hwf : ∀ item ∈ s.remoteIncomingWindowExhaustedBuffer, item.WellFormed) :
    ∃ items, Sent s (s.onIncoming pending frame).session [] items
      (s.onIncoming pending frame).frames := by
  obtain ⟨channel, body⟩ := frame
  by_cases hflow : ∃ flow, body = .flow flow
  · obtain ⟨flow, rfl⟩ := hflow
    exact s.onIncoming_flow_sent pending channel flow hwf
  by_cases hbegin : ∃ begin', body = .begin begin'
  · obtain ⟨begin', rfl⟩ := hbegin
    refine ⟨[], ?_, ?_, ?_⟩ <;> simp only [onIncoming, onIncomingBegin] <;>
      cases s.localState <;> simp [dispatched, firstCount, sentTransfers]
  · obtain ⟨hsending, hframes⟩ := s.onIncoming_sending pending ⟨channel, body⟩
      (fun begin' hbody => hbegin ⟨begin', hbody⟩) (fun flow hbody => hflow ⟨flow, hbody⟩)
    exact ⟨[], .of_sending hsending hframes⟩

/-- The transfers that a session takes from a link frame; it takes link frames when mapped only. -/
def takes (s : Session) (frame : LinkFrame) : List BufferedTransfer :=
  if s.localState = .mapped then frame.transfer?.toList else []

theorem onOutgoingLinkFrames_sent (s : Session) (frame : LinkFrame)
    (hwf : ∀ item ∈ s.remoteIncomingWindowExhaustedBuffer ++ s.takes frame, item.WellFormed) :
    ∃ items, Sent s (s.onOutgoingLinkFrames frame).session (s.takes frame) items
      (s.onOutgoingLinkFrames frame).frames := by
  by_cases hmapped : s.localState = .mapped
  · have hdispatch : ¬s.localState ≠ .mapped := not_not_intro hmapped
    simp only [takes, if_pos hmapped] at hwf ⊢
    simp only [onOutgoingLinkFrames, if_neg hdispatch]
    cases frame with
    | firstTransfer frame =>
        obtain ⟨out, s', items, heq, hsent⟩ := s.onOutgoingTransfer_sent _ hwf
        simp only [heq]
        exact ⟨items, hsent⟩
    | transferContinuation frame =>
        obtain ⟨out, s', items, heq, hsent⟩ := s.onOutgoingTransfer_sent _ hwf
        simp only [heq]
        exact ⟨items, hsent⟩
    | disposition disposition =>
        obtain ⟨window, hframe⟩ := s.onOutgoingDisposition_frame disposition
        refine ⟨[], .of_sending ?_ rfl⟩
        simp only [dispatched]
        rw [hframe]
        rfl
    | detach detach =>
        obtain ⟨slab, names, closing, hframe⟩ := s.onOutgoingDetach_frame detach true
        refine ⟨[], .of_sending ?_ (transfersOf_of_isPlain (s.onOutgoingDetach_plain detach true))⟩
        simp only [dispatched]
        rw [hframe]
        rfl
    | attach attach => exact ⟨[], .of_sending rfl rfl⟩
    | flow flow => exact ⟨[], .of_sending rfl rfl⟩
    | remoteTransfer frame => exact ⟨[], .of_sending rfl rfl⟩
    | acquisition txnId => exact ⟨[], .of_sending rfl rfl⟩
  · simp only [takes, if_neg hmapped, onOutgoingLinkFrames, if_pos hmapped]
    exact ⟨[], .of_sending rfl rfl⟩

/-! ## Runs -/

/-- The transfers that an action hands over to the session. -/
def submits (s : Session) : SessionAction → List BufferedTransfer
  | .linkFrame frame _ => s.takes frame
  | _ => []

/-- The transfers handed over in a run, in order. -/
def handedOver (s : Session) : List SessionAction → List BufferedTransfer
  | [] => []
  | action :: actions => s.submits action ++ handedOver (s.act action).1 actions

theorem handedOver_append (s : Session) (actions actions' : List SessionAction) :
    s.handedOver (actions ++ actions') =
      s.handedOver actions ++ (Run.run act s actions).1.handedOver actions' := by
  induction actions generalizing s with
  | nil => rfl
  | cons action actions ih => simp [handedOver, Run.run, ih]

end Session

/-- Links hand over well-formed transfers. -/
def SessionAction.WellFormed : SessionAction → Prop
  | .linkFrame frame _ => frame.WellFormed
  | _ => True

namespace Session

theorem submits_wellFormed (s : Session) {action : SessionAction} (h : action.WellFormed) :
    ∀ item ∈ s.submits action, item.WellFormed := by
  intro item hitem
  cases action with
  | linkFrame frame delivery =>
      simp only [submits, takes] at hitem
      split_ifs at hitem
      · exact h item (by simpa using hitem)
      · cases hitem
  | _ => cases hitem

/-- One action: a prefix of what was waiting or handed over leaves, the rest waits. -/
theorem act_sent (s : Session) (action : SessionAction) (h : action.WellFormed)
    (hwf : ∀ item ∈ s.remoteIncomingWindowExhaustedBuffer, item.WellFormed) :
    ∃ items, Sent s (s.act action).1 (s.submits action) items (s.act action).2 := by
  have hsubmits := s.submits_wellFormed h
  cases action with
  | incoming pending frame => exact s.onIncoming_sent pending frame hwf
  | linkFrame frame delivery =>
      refine s.onOutgoingLinkFrames_sent frame fun item hitem => ?_
      rcases List.mem_append.mp hitem with hitem | hitem
      · exact hwf item hitem
      · exact hsubmits item hitem
  | allocateLink name relay =>
      obtain ⟨slab, names, hframe⟩ := s.allocateLink_frame name relay
      refine ⟨[], .of_sending ?_ rfl⟩
      simp only [act, hframe]
      rfl
  | allocateIncomingLink name relay handle =>
      obtain ⟨slab, names, relays, hframe⟩ := s.allocateIncomingLink_frame name relay handle
      refine ⟨[], .of_sending ?_ rfl⟩
      simp only [act, hframe]
      rfl
  | deallocateLink handle =>
      obtain ⟨slab, names, hframe⟩ := s.deallocateLink_frame handle
      refine ⟨[], .of_sending ?_ rfl⟩
      simp only [act, hframe]
      rfl
  | sendBegin =>
      refine ⟨[], .of_sending ?_ ?_⟩ <;> simp only [act, sendBegin] <;> cases s.localState <;> rfl
  | sendEnd error =>
      refine ⟨[], .of_sending ?_ ?_⟩ <;> simp only [act, sendEnd] <;> cases s.localState <;> rfl
  | register link tag msg => exact ⟨[], .of_sending rfl rfl⟩
  | endpoint links => exact ⟨[], .of_sending rfl rfl⟩

/-- A run emits the transfers in the order in which they were handed over. -/
theorem run_sent (s : Session) (actions : List SessionAction) (h : ∀ action ∈ actions, action.WellFormed)
    (hwf : ∀ item ∈ s.remoteIncomingWindowExhaustedBuffer, item.WellFormed) :
    ∃ items, Sent s (Run.run act s actions).1 (s.handedOver actions) items
        (Run.run act s actions).2 ∧
      ∀ item ∈ (Run.run act s actions).1.remoteIncomingWindowExhaustedBuffer, item.WellFormed := by
  induction actions generalizing s with
  | nil => exact ⟨[], .of_sending rfl rfl, hwf⟩
  | cons action actions ih =>
      have haction := h action (by simp)
      obtain ⟨items, hsent⟩ := s.act_sent action haction hwf
      have hwf' := hsent.wellFormed fun item hitem => by
        rcases List.mem_append.mp hitem with hitem | hitem
        · exact hwf item hitem
        · exact s.submits_wellFormed haction item hitem
      obtain ⟨items', hsent', hrest⟩ := ih (s.act action).1
        (fun action' hmem => h action' (by simp [hmem])) hwf'
      exact ⟨items ++ items', hsent.trans hsent', hrest⟩

/-! ## Delivery-ids -/

/-- The delivery-id of the delivery that is handed over next, behind those that wait. -/
def deliveryIdOfNext (s : Session) : DeliveryNumber :=
  s.nextOutgoingDeliveryId + UInt32.ofNat (firstCount s.remoteIncomingWindowExhaustedBuffer)

end Session

theorem Sent.deliveryIdOfNext {s s' : Session} {submitted items : List BufferedTransfer}
    {frames : List SessionFrame} (h : Sent s s' submitted items frames) :
    s'.deliveryIdOfNext = s.deliveryIdOfNext + UInt32.ofNat (firstCount submitted) := by
  have hcount := congrArg firstCount h.split
  simp only [firstCount_append] at hcount
  rw [Session.deliveryIdOfNext, h.nextOutgoingDeliveryId, UInt32.add_assoc, ← UInt32.ofNat_add, hcount,
    UInt32.ofNat_add, ← UInt32.add_assoc]
  rfl

namespace Session

/-- Every delivery that is handed over takes one delivery-id. -/
theorem run_deliveryIdOfNext (s : Session) (actions : List SessionAction)
    (h : ∀ action ∈ actions, action.WellFormed)
    (hwf : ∀ item ∈ s.remoteIncomingWindowExhaustedBuffer, item.WellFormed) :
    (Run.run act s actions).1.deliveryIdOfNext =
      s.deliveryIdOfNext + UInt32.ofNat (firstCount (s.handedOver actions)) := by
  obtain ⟨items, hsent, -⟩ := s.run_sent actions h hwf
  exact hsent.deliveryIdOfNext

/-- A transfer that a mapped session takes goes out behind all that were handed over before it, with
the delivery-id of the next delivery if it starts one. -/
theorem run_numbered (s : Session) (before after : List SessionAction) (frame : LinkFrame)
    (sender : OneshotId)
    (h : ∀ action ∈ before ++ .linkFrame frame sender :: after, action.WellFormed)
    (hwf : ∀ item ∈ s.remoteIncomingWindowExhaustedBuffer, item.WellFormed)
    (hmapped : (Run.run act s before).1.localState = .mapped) {item : BufferedTransfer}
    (hitem : frame.transfer? = some item) :
    let wire := transfersOf (Run.run act s (before ++ .linkFrame frame sender :: after)).2
    let i := (s.remoteIncomingWindowExhaustedBuffer ++ s.handedOver before).length
    i < wire.length →
      wire[i]? = some (item.asSent (Run.run act s before).1.deliveryIdOfNext, item.payload) := by
  intro wire i hi
  obtain ⟨items, hsent, -⟩ := s.run_sent _ h hwf
  have hid := s.run_deliveryIdOfNext before
    (fun action hmem => h action (List.mem_append_left _ hmem)) hwf
  have hhanded : s.handedOver (before ++ .linkFrame frame sender :: after) =
      s.handedOver before ++ item :: (act (Run.run act s before).1
        (.linkFrame frame sender)).1.handedOver after := by
    simp [handedOver_append, handedOver, submits, takes, hmapped, hitem]
  have hsplit := hsent.split
  rw [hhanded, ← List.append_assoc] at hsplit
  have hlength : i < items.length := hsent.length_transfers ▸ hi
  have hat : items[i]? = some item := by
    rw [← List.getElem?_append_left hlength, hsplit, List.getElem?_append_right le_rfl]
    simp
  have hbefore : items.take i = s.remoteIncomingWindowExhaustedBuffer ++ s.handedOver before := by
    rw [← List.take_append_of_le_length hlength.le, hsplit, List.take_left]
  have hwire : wire = sentTransfers s.nextOutgoingDeliveryId items := hsent.transfers
  rw [hwire, sentTransfers_getElem?, hat, hbefore, hid, deliveryIdOfNext, firstCount_append,
    UInt32.ofNat_add, UInt32.add_assoc]
  rfl

/-- The transfers on the wire are the first of those handed over, in order; and if no transfer of a
link waits for the window when the link hands over its Detach, then every transfer of that handle
that is emitted after the Detach was handed over after it. -/
theorem transfers_precede_detach (builder : SessionBuilder) (outgoingChannel : UInt16)
    (localState : SessionState) (links : LinkStore) (before after : List SessionAction)
    (detach : Detach) (delivery : OneshotId)
    (hwf : ∀ action ∈ before ++ .linkFrame (.detach detach) delivery :: after, action.WellFormed)
    (hclear : ∀ item ∈ (Run.run act (builder.intoSession outgoingChannel localState links)
      before).1.remoteIncomingWindowExhaustedBuffer, item.transfer.handle ≠ detach.handle) :
    let start := builder.intoSession outgoingChannel localState links
    let actions := before ++ .linkFrame (.detach detach) delivery :: after
    let earlier := transfersOf (Run.run act start before).2
    let wire := transfersOf (Run.run act start actions).2
    wire = sentTransfers start.nextOutgoingDeliveryId
      ((start.handedOver actions).take wire.length) ∧
    ∀ i item, earlier.length ≤ i → i < wire.length →
      (start.handedOver actions)[i]? = some item → item.transfer.handle = detach.handle →
      (start.handedOver before).length ≤ i := by
  intro start actions earlier wire
  have hempty : start.remoteIncomingWindowExhaustedBuffer = [] := rfl
  obtain ⟨items, hsent, hwfBuffer⟩ := start.run_sent before
    (fun action hmem => hwf action (List.mem_append_left _ hmem)) (by simp [hempty])
  obtain ⟨items', hsent', -⟩ := (Run.run act start before).1.run_sent
    (.linkFrame (.detach detach) delivery :: after)
    (fun action hmem => hwf action (List.mem_append_right _ hmem)) hwfBuffer
  have hall := hsent.trans hsent'
  have hwire : wire = transfersOf ((Run.run act start before).2 ++
      (Run.run act (Run.run act start before).1
        (.linkFrame (.detach detach) delivery :: after)).2) := by
    simp only [wire, actions, Run.run_append]
  have hhanded : start.handedOver actions = start.handedOver before ++
      (Run.run act start before).1.handedOver (.linkFrame (.detach detach) delivery :: after) :=
    start.handedOver_append before _
  have hlength : wire.length = (items ++ items').length := by
    rw [hwire, hall.length_transfers]
  obtain ⟨rest, hsplit⟩ : ∃ rest, (items ++ items') ++ rest = start.handedOver actions := by
    rw [hhanded]
    exact ⟨_, hall.split⟩
  refine ⟨?_, ?_⟩
  · rw [hlength, ← hsplit, List.take_left, hwire]
    exact hall.transfers
  · intro i item hearlier _ hitem hhandle
    by_contra hlt
    have hi : i < (start.handedOver before).length := by omega
    -- the item was handed over before the Detach and has not left: it is in the buffer
    have hbuffer : items ++ (Run.run act start before).1.remoteIncomingWindowExhaustedBuffer =
        start.handedOver before := hsent.split
    have hpast : items.length ≤ i := by
      have hitems : earlier.length = items.length := hsent.length_transfers
      omega
    rw [hhanded, List.getElem?_append_left hi, ← hbuffer, List.getElem?_append_right hpast] at hitem
    exact hclear item (List.mem_of_getElem? hitem) hhandle

section WindowExhausted

private def attachFirst : List SessionAction :=
  [.allocateLink "a" (some (.sender 0 () .first)),
    .incoming [] ⟨0, .attach
      { name := "a", handle := 7, role := .receiver, sndSettleMode := .mixed, rcvSettleMode := .first
        source := none, target := none, unsettled := none, incompleteUnsettled := false
        initialDeliveryCount := none, maxMessageSize := none, offeredCapabilities := none
        desiredCapabilities := none, properties := none }⟩]

private def openWindow : SessionAction :=
  .incoming [] ⟨0, .flow
    { nextIncomingId := some 0, incomingWindow := 10, nextOutgoingId := 0, outgoingWindow := 10
      handle := none, deliveryCount := none, linkCredit := none, available := none
      drain := false, echo := false, properties := none }⟩

private def firstTransfer : BufferedTransfer where
  inputHandle := ⟨7⟩
  transfer :=
    { handle := 0, deliveryId := none, deliveryTag := some [0, 0, 0, 0], messageFormat := some 0
      settled := some true, more := false, rcvSettleMode := none, state := none, resume := false
      aborted := false, batchable := false }
  payload := [1]
  isFirst := true

private def sendFirst : SessionAction :=
  .linkFrame (.firstTransfer ⟨⟨7⟩, firstTransfer.transfer, [1]⟩) 0

private def closeFirst : Detach := { handle := 0, closed := true, error := none }

private theorem windowExhausted_wellFormed :
    ∀ action ∈ attachFirst ++ [openWindow, sendFirst, .linkFrame (.detach closeFirst) 0],
      action.WellFormed := by
  simp [attachFirst, openWindow, sendFirst, firstTransfer, SessionAction.WellFormed, LinkFrame.WellFormed,
    LinkFrame.transfer?, BufferedTransfer.WellFormed]

private def openAndSend : List SessionAction := attachFirst ++ [openWindow, sendFirst]

private theorem openAndSend_clear :
    (Run.run act (SessionBuilder.intoSession {} 0 .mapped LinkStore.empty)
      openAndSend).1.remoteIncomingWindowExhaustedBuffer = [] := by
  refine List.length_eq_zero_iff.mp ?_
  decide

/-- With an open window the transfer leaves before the Detach. -/
theorem transfers_precede_detach_open_window :
    let start := SessionBuilder.intoSession {} 0 .mapped LinkStore.empty
    let actions := openAndSend ++ [.linkFrame (.detach closeFirst) 0, openWindow]
    (transfersOf (Run.run act start openAndSend).2).length = 1 ∧
    ∀ i item, 1 ≤ i → i < (transfersOf (Run.run act start actions).2).length →
      (start.handedOver actions)[i]? = some item → item.transfer.handle = closeFirst.handle →
      (start.handedOver openAndSend).length ≤ i := by
  have hone : (transfersOf (Run.run act (SessionBuilder.intoSession {} 0 .mapped LinkStore.empty)
      openAndSend).2).length = 1 := by decide
  have hwf : ∀ action ∈ openAndSend ++ .linkFrame (.detach closeFirst) 0 :: [openWindow],
      action.WellFormed := by
    intro action hmem
    refine windowExhausted_wellFormed action ?_
    simp only [openAndSend, List.mem_append, List.mem_cons, List.not_mem_nil, or_false] at hmem ⊢
    tauto
  have hclear : ∀ item ∈ (Run.run act (SessionBuilder.intoSession {} 0 .mapped LinkStore.empty)
      openAndSend).1.remoteIncomingWindowExhaustedBuffer,
      item.transfer.handle ≠ closeFirst.handle := by
    rw [openAndSend_clear]
    simp
  have horder := transfers_precede_detach {} 0 .mapped LinkStore.empty openAndSend [openWindow]
    closeFirst 0 hwf hclear
  refine ⟨hone, fun i item hi => ?_⟩
  rw [← hone] at hi
  exact horder.2 i item hi

/-- The window is exhausted: the Detach of the link overtakes its transfer, which reaches the peer
on a detached handle as soon as a flow opens the window. -/
theorem detach_overtakes_waiting_transfer :
    ¬∀ (builder : SessionBuilder) (outgoingChannel : UInt16) (localState : SessionState)
        (links : LinkStore) (before after : List SessionAction) (detach : Detach)
        (delivery : OneshotId),
      (∀ action ∈ before ++ .linkFrame (.detach detach) delivery :: after, action.WellFormed) →
      let start := builder.intoSession outgoingChannel localState links
      let actions := before ++ .linkFrame (.detach detach) delivery :: after
      detachesOf ((Run.run act start before).1.act (.linkFrame (.detach detach) delivery)).2 =
        [⟨detach.handle⟩] →
      ∀ i item, (transfersOf (Run.run act start before).2).length ≤ i →
        i < (transfersOf (Run.run act start actions).2).length →
        (start.handedOver actions)[i]? = some item → item.transfer.handle = detach.handle →
        (start.handedOver before).length ≤ i := by
  intro hclaim
  have hlate := hclaim {} 0 .mapped LinkStore.empty (attachFirst ++ [sendFirst]) [openWindow]
    closeFirst 0 (fun action hmem => windowExhausted_wellFormed action (by
      simp only [List.mem_append, List.mem_cons, List.not_mem_nil, or_false] at hmem ⊢
      tauto))
    (by decide) 0 firstTransfer (Nat.zero_le _) (by decide) rfl rfl
  revert hlate
  decide

end WindowExhausted

end Session

end Fe2o3Amqp
