import Fe2o3Amqp.Session.Endpoint
import Fe2o3Amqp.Util.Run

/-!
# The outgoing window

Outgoing transfers either leave at once, wait in the exhausted-window buffer, or leave when a flow
reopens the window.  Whatever path they take, the session sends them in the order of submission.
The three paths are described by one operation, `sendAll`, on the prefix of the waiting transfers
that fits into the window.
-/

namespace Fe2o3Amqp

namespace BufferedTransfer

/-- First frames carry a delivery-tag, continuations carry no delivery-id. -/
def WellFormed (item : BufferedTransfer) : Prop :=
  (item.isFirst = true → item.transfer.deliveryTag.isSome) ∧
    (item.isFirst = false → item.transfer.deliveryId = none)

def unsettled (item : BufferedTransfer) : Bool := !item.transfer.settled.getD false

/-- The performative on the wire once the delivery-id `id` is assigned to a first frame. -/
def asSent (item : BufferedTransfer) (id : DeliveryNumber) : Transfer :=
  if item.isFirst then { item.transfer with deliveryId := some id } else item.transfer

end BufferedTransfer

/-- The number of deliveries started by a list of frames. -/
def firstCount (items : List BufferedTransfer) : Nat := items.countP (·.isFirst)

@[simp] theorem firstCount_nil : firstCount [] = 0 := rfl

theorem firstCount_append (items items' : List BufferedTransfer) :
    firstCount (items ++ items') = firstCount items + firstCount items' := by
  simp [firstCount]

theorem firstCount_cons (item : BufferedTransfer) (items : List BufferedTransfer) :
    firstCount (item :: items) = firstCount [item] + firstCount items := by
  rw [← firstCount_append]
  rfl

/-- The entries that an emitted frame adds to `delivery_tag_by_id`. -/
def register (byId : Role × DeliveryNumber → Option (InputHandle × DeliveryTag))
    (id : DeliveryNumber) (item : BufferedTransfer) :
    Role × DeliveryNumber → Option (InputHandle × DeliveryTag) :=
  if item.isFirst && item.unsettled then
    Function.update byId (.receiver, id) (item.transfer.deliveryTag.map (item.inputHandle, ·))
  else byId

/-- Registration of a list of emitted frames; the first of them to start a delivery has id `id`. -/
def registerAll (byId : Role × DeliveryNumber → Option (InputHandle × DeliveryTag))
    (id : DeliveryNumber) : List BufferedTransfer →
      Role × DeliveryNumber → Option (InputHandle × DeliveryTag)
  | [] => byId
  | item :: items =>
      registerAll (register byId id item) (if item.isFirst then id + 1 else id) items

/-- The transfers on the wire for a list of emitted frames. -/
def sentTransfers (id : DeliveryNumber) : List BufferedTransfer → List (Transfer × Payload)
  | [] => []
  | item :: items =>
      (item.asSent id, item.payload) :: sentTransfers (if item.isFirst then id + 1 else id) items

/-- The transfers among a list of session frames. -/
def transfersOf (frames : List SessionFrame) : List (Transfer × Payload) :=
  frames.filterMap fun frame =>
    match frame.body with
    | .transfer performative payload => some (performative, payload)
    | _ => none

@[simp] theorem transfersOf_nil : transfersOf [] = [] := rfl

theorem transfersOf_append (frames frames' : List SessionFrame) :
    transfersOf (frames ++ frames') = transfersOf frames ++ transfersOf frames' := by
  simp [transfersOf]

private theorem nextId_eq (id : DeliveryNumber) (item : BufferedTransfer) :
    (if item.isFirst then id + 1 else id) = id + UInt32.ofNat (firstCount [item]) := by
  cases h : item.isFirst <;> simp [firstCount, h]

private theorem ofNat_add_assoc (id : UInt32) (a b : Nat) :
    id + UInt32.ofNat a + UInt32.ofNat b = id + UInt32.ofNat (a + b) := by
  rw [UInt32.ofNat_add, UInt32.add_assoc]

theorem sentTransfers_append (id : DeliveryNumber) (items items' : List BufferedTransfer) :
    sentTransfers id (items ++ items') =
      sentTransfers id items ++ sentTransfers (id + UInt32.ofNat (firstCount items)) items' := by
  induction items generalizing id with
  | nil => simp [sentTransfers]
  | cons item items ih =>
      rw [List.cons_append, sentTransfers, ih, sentTransfers, nextId_eq, ofNat_add_assoc,
        firstCount_cons item items]
      rfl

theorem registerAll_append (byId : Role × DeliveryNumber → Option (InputHandle × DeliveryTag))
    (id : DeliveryNumber) (items items' : List BufferedTransfer) :
    registerAll byId id (items ++ items') =
      registerAll (registerAll byId id items) (id + UInt32.ofNat (firstCount items)) items' := by
  induction items generalizing byId id with
  | nil => simp [registerAll]
  | cons item items ih =>
      rw [List.cons_append, registerAll, ih, registerAll, nextId_eq, ofNat_add_assoc,
        firstCount_cons item items]

theorem length_sentTransfers (id : DeliveryNumber) (items : List BufferedTransfer) :
    (sentTransfers id items).length = items.length := by
  induction items generalizing id with
  | nil => rfl
  | cons item items ih => simp [sentTransfers, ih]

/-- The `i`-th transfer on the wire carries the id of the deliveries started before it. -/
theorem sentTransfers_getElem? (id : DeliveryNumber) (items : List BufferedTransfer) (i : Nat) :
    (sentTransfers id items)[i]? =
      items[i]?.map fun item =>
        (item.asSent (id + UInt32.ofNat (firstCount (items.take i))), item.payload) := by
  induction items generalizing id i with
  | nil => simp [sentTransfers]
  | cons item items ih =>
      cases i with
      | zero => simp [sentTransfers]
      | succ i =>
          rw [sentTransfers, List.getElem?_cons_succ, ih, List.getElem?_cons_succ, nextId_eq,
            List.take_succ_cons, firstCount_cons item (items.take i), ofNat_add_assoc]

namespace Session

/-- The session after one frame has been sent. -/
def afterSend (s : Session) (item : BufferedTransfer) : Session :=
  { s with
    nextOutgoingId := s.nextOutgoingId + 1
    nextOutgoingDeliveryId :=
      if item.isFirst then s.nextOutgoingDeliveryId + 1 else s.nextOutgoingDeliveryId
    remoteIncomingWindow := s.remoteIncomingWindow.saturatingSub 1
    deliveryTagById := register s.deliveryTagById s.nextOutgoingDeliveryId item }

def sendAll (s : Session) (items : List BufferedTransfer) : Session := items.foldl afterSend s

def withBuffer (s : Session) (buffer : List BufferedTransfer) : Session :=
  { s with remoteIncomingWindowExhaustedBuffer := buffer }

def withLinks (s : Session) (links : LinkStore) : Session := { s with links }

/-- The frames put on the wire for a list of transfers. -/
def framesFor (s : Session) (items : List BufferedTransfer) : List SessionFrame :=
  (sentTransfers s.nextOutgoingDeliveryId items).map fun sent =>
    ⟨s.outgoingChannel, .transfer sent.1 sent.2⟩

/-- Sending a well-formed frame always succeeds. -/
theorem onOutgoingTransferInner_eq (s : Session) (item : BufferedTransfer) (h : item.WellFormed) :
    onOutgoingTransferInner s item =
      (.ok ⟨s.outgoingChannel, .transfer (item.asSent s.nextOutgoingDeliveryId) item.payload⟩,
        s.afterSend item) := by
  cases hfirst : item.isFirst with
  | false =>
      simp [onOutgoingTransferInner, hfirst, BufferedTransfer.asSent, afterSend, register]
  | true =>
      obtain ⟨tag, htag⟩ := Option.isSome_iff_exists.mp (h.1 hfirst)
      cases hsettled : item.transfer.settled.getD false <;>
        simp [onOutgoingTransferInner, hfirst, htag, hsettled, BufferedTransfer.asSent, afterSend,
          register, BufferedTransfer.unsettled]

@[simp] theorem sendAll_nil (s : Session) : s.sendAll [] = s := rfl

@[simp] theorem sendAll_cons (s : Session) (item : BufferedTransfer) (items : List BufferedTransfer) :
    s.sendAll (item :: items) = (s.afterSend item).sendAll items := rfl

theorem sendAll_append (s : Session) (items items' : List BufferedTransfer) :
    s.sendAll (items ++ items') = (s.sendAll items).sendAll items' := by
  simp [sendAll]

section SendAllFields

variable (s : Session) (items : List BufferedTransfer)

theorem sendAll_nextOutgoingId :
    (s.sendAll items).nextOutgoingId = s.nextOutgoingId + UInt32.ofNat items.length := by
  induction items generalizing s with
  | nil => simp
  | cons item items ih =>
      rw [sendAll_cons, ih, List.length_cons, Nat.add_comm, UInt32.ofNat_add, ← UInt32.add_assoc]
      rfl

theorem sendAll_nextOutgoingDeliveryId :
    (s.sendAll items).nextOutgoingDeliveryId =
      s.nextOutgoingDeliveryId + UInt32.ofNat (firstCount items) := by
  induction items generalizing s with
  | nil => simp
  | cons item items ih =>
      rw [sendAll_cons, ih, firstCount_cons, ← ofNat_add_assoc, ← nextId_eq]
      rfl

theorem sendAll_remoteIncomingWindow :
    (s.sendAll items).remoteIncomingWindow.toNat =
      s.remoteIncomingWindow.toNat - items.length := by
  induction items generalizing s with
  | nil => simp
  | cons item items ih =>
      rw [sendAll_cons, ih]
      have hone : (1 : UInt32).toNat = 1 := rfl
      simp only [afterSend, UInt32.toNat_saturatingSub, hone, List.length_cons]
      omega

theorem sendAll_deliveryTagById :
    (s.sendAll items).deliveryTagById =
      registerAll s.deliveryTagById s.nextOutgoingDeliveryId items := by
  induction items generalizing s with
  | nil => rfl
  | cons item items ih =>
      rw [sendAll_cons, ih]
      rfl

/-- Sending leaves everything but the four outgoing counters and tables alone. -/
theorem sendAll_frame :
    s.sendAll items =
      { s with
        nextOutgoingId := (s.sendAll items).nextOutgoingId
        nextOutgoingDeliveryId := (s.sendAll items).nextOutgoingDeliveryId
        remoteIncomingWindow := (s.sendAll items).remoteIncomingWindow
        deliveryTagById := (s.sendAll items).deliveryTagById } := by
  induction items generalizing s with
  | nil => rfl
  | cons item items ih =>
      rw [sendAll_cons, ih]
      rfl

end SendAllFields

/-! ## The three paths -/

theorem framesFor_cons (s : Session) (item : BufferedTransfer) (items : List BufferedTransfer) :
    s.framesFor (item :: items) =
      ⟨s.outgoingChannel, .transfer (item.asSent s.nextOutgoingDeliveryId) item.payload⟩ ::
        (s.afterSend item).framesFor items := rfl

theorem framesFor_append (s : Session) (items items' : List BufferedTransfer) :
    s.framesFor (items ++ items') = s.framesFor items ++ (s.sendAll items).framesFor items' := by
  induction items generalizing s with
  | nil => simp [framesFor, sentTransfers]
  | cons item items ih =>
      rw [List.cons_append, framesFor_cons, ih, framesFor_cons]
      rfl

theorem transfersOf_framesFor (s : Session) (items : List BufferedTransfer) :
    transfersOf (s.framesFor items) = sentTransfers s.nextOutgoingDeliveryId items := by
  simp [transfersOf, framesFor]

/-- `items` is the part of `waiting` that the window of `s` lets through, `rest` what stays. -/
structure Fits (s : Session) (waiting items rest : List BufferedTransfer) : Prop where
  split : waiting = items ++ rest
  withinWindow : items.length ≤ s.remoteIncomingWindow.toNat
  exhausted : rest ≠ [] → items.length = s.remoteIncomingWindow.toNat

private theorem window_pos_iff (s : Session) :
    s.remoteIncomingWindow > 0 ↔ 0 < s.remoteIncomingWindow.toNat :=
  UInt32.pos_iff_toNat _

private theorem afterSend_window (s : Session) (item : BufferedTransfer) :
    (s.afterSend item).remoteIncomingWindow.toNat = s.remoteIncomingWindow.toNat - 1 :=
  UInt32.toNat_saturatingSub _ _

theorem drainBuffer_eq (s : Session) (buffer : List BufferedTransfer) (frames : List SessionFrame)
    (h : ∀ item ∈ buffer, item.WellFormed) :
    ∃ items rest, Fits s buffer items rest ∧
      drainBuffer s buffer frames =
        (.ok (frames ++ s.framesFor items), (s.sendAll items).withBuffer rest) := by
  induction buffer generalizing s frames with
  | nil =>
      exact ⟨[], [], ⟨rfl, Nat.zero_le _, fun hne => absurd rfl hne⟩,
        by simp [drainBuffer, framesFor, sentTransfers, withBuffer]⟩
  | cons item buffer ih =>
      by_cases hwindow : s.remoteIncomingWindow > 0
      · have hpos := (window_pos_iff s).mp hwindow
        obtain ⟨items, rest, hfits, hdrain⟩ := ih (s.afterSend item)
          (frames ++ [⟨s.outgoingChannel,
            .transfer (item.asSent s.nextOutgoingDeliveryId) item.payload⟩])
          fun item' hitem' => h item' (by simp [hitem'])
        have hafter := afterSend_window s item
        refine ⟨item :: items, rest, ⟨?_, ?_, ?_⟩, ?_⟩
        · rw [hfits.split, List.cons_append]
        · have := hfits.withinWindow
          rw [List.length_cons]
          omega
        · intro hrest
          have := hfits.exhausted hrest
          rw [List.length_cons]
          omega
        · rw [drainBuffer, if_pos hwindow, onOutgoingTransferInner_eq s item (h item (by simp))]
          simp only
          rw [hdrain, framesFor_cons, List.append_assoc]
          rfl
      · have hzero : s.remoteIncomingWindow.toNat = 0 := by
          have := mt (window_pos_iff s).mpr hwindow
          omega
        refine ⟨[], item :: buffer, ⟨rfl, Nat.zero_le _, fun _ => hzero.symm⟩, ?_⟩
        simp [drainBuffer, hwindow, framesFor, sentTransfers, withBuffer]

/-- A submitted transfer goes to the end of the waiting transfers, of which the session sends as
many as the window allows. -/
theorem onOutgoingTransfer_eq (s : Session) (item : BufferedTransfer)
    (h : ∀ item' ∈ s.remoteIncomingWindowExhaustedBuffer ++ [item], item'.WellFormed) :
    ∃ out items rest, Fits s (s.remoteIncomingWindowExhaustedBuffer ++ [item]) items rest ∧
      itemFrames out = s.framesFor items ∧
      onOutgoingTransfer s item = (.ok out, (s.sendAll items).withBuffer rest) := by
  have hitem : item.WellFormed := h item (by simp)
  have hbuffer : ∀ item' ∈ s.remoteIncomingWindowExhaustedBuffer, item'.WellFormed :=
    fun item' hmem => h item' (by simp [hmem])
  by_cases hzero : s.remoteIncomingWindow = 0
  · have hnat := (UInt32.eq_zero_iff_toNat _).mp hzero
    refine ⟨none, [], _, ⟨rfl, Nat.zero_le _, fun _ => hnat.symm⟩, rfl, ?_⟩
    simp [onOutgoingTransfer, hzero, pushBuffer, withBuffer]
  have hpos : 0 < s.remoteIncomingWindow.toNat := by
    have := mt (UInt32.eq_zero_iff_toNat s.remoteIncomingWindow).mpr hzero
    omega
  by_cases hempty : s.remoteIncomingWindowExhaustedBuffer = []
  · refine ⟨some (.singleFrame _), [item], [], ⟨by simp [hempty], hpos, fun hne => absurd rfl hne⟩,
      rfl, ?_⟩
    simp only [onOutgoingTransfer, hzero, hempty, if_false, if_true,
      onOutgoingTransferInner_eq s item hitem, sendAll_cons, sendAll_nil]
    congr 1
    exact congrArg (fun b => { s.afterSend item with remoteIncomingWindowExhaustedBuffer := b }) hempty
  · obtain ⟨items, rest, hfits, hdrain⟩ :=
      drainBuffer_eq s s.remoteIncomingWindowExhaustedBuffer [] hbuffer
    have hwindow := sendAll_remoteIncomingWindow s items
    by_cases hleft : ((s.sendAll items).withBuffer rest).remoteIncomingWindow > 0
    · -- the whole buffer is gone and the current transfer still fits
      have hleft' : 0 < s.remoteIncomingWindow.toNat - items.length := by
        rw [← hwindow]
        exact (window_pos_iff ((s.sendAll items).withBuffer rest)).mp hleft
      have hrest : rest = [] := by
        by_contra hne
        have := hfits.exhausted hne
        omega
      subst hrest
      refine ⟨some (.multipleFrames (s.framesFor (items ++ [item]))), items ++ [item], [],
        ⟨by rw [hfits.split]; simp, ?_, fun hne => absurd rfl hne⟩, rfl, ?_⟩
      · rw [List.length_append, List.length_singleton]
        omega
      · simp only [onOutgoingTransfer, hzero, hempty, if_false,
          prepareSessionFramesFromBufferedAndCurrentTransfers,
          prepareSessionFramesFromBufferedTransfers, hdrain, hleft, if_true,
          onOutgoingTransferInner_eq _ item hitem, framesFor_append, sendAll_append]
        rfl
    · refine ⟨some (.multipleFrames (s.framesFor items)), items, rest ++ [item], ⟨?_,
        hfits.withinWindow, fun _ => ?_⟩, rfl, ?_⟩
      · rw [hfits.split, List.append_assoc]
      · have := mt (window_pos_iff ((s.sendAll items).withBuffer rest)).mpr hleft
        have hle := hfits.withinWindow
        have hnot : ¬ 0 < s.remoteIncomingWindow.toNat - items.length := by
          rw [← hwindow]
          exact this
        omega
      · simp only [onOutgoingTransfer, hzero, hempty, if_false,
          prepareSessionFramesFromBufferedAndCurrentTransfers,
          prepareSessionFramesFromBufferedTransfers, hdrain, hleft, List.nil_append]
        rfl

private theorem onIncomingFlowInner_session (s : Session) (flow : Flow) :
    ∃ links, (s.onIncomingFlowInner flow).2 = (s.applySessionFlow flow).withLinks links := by
  unfold onIncomingFlowInner
  cases LinkFlow.tryFrom flow with
  | none => exact ⟨s.links, rfl⟩
  | some linkFlow =>
      cases hrelay : (s.applySessionFlow flow).linkByInputHandle ⟨linkFlow.handle⟩ with
      | none => exact ⟨s.links, by simp [hrelay]; rfl⟩
      | some relay =>
          cases hflow : relay.onIncomingFlow (s.applySessionFlow flow).links linkFlow with
          | mk result links => cases result <;> exact ⟨links, by simp [hrelay, hflow, withLinks]⟩

/-- A flow that the session accepts sets the window and then sends as many of the buffered
transfers as it allows, after the reply to the flow. -/
theorem onIncomingFlow_eq (s : Session) (flow : Flow)
    (h : ∀ item ∈ s.remoteIncomingWindowExhaustedBuffer, item.WellFormed) :
    ∃ links, (s.onIncomingFlowInner flow).2 = (s.applySessionFlow flow).withLinks links ∧
      let s₁ := (s.applySessionFlow flow).withLinks links
      (∃ e, s.onIncomingFlow flow = (.error e, s₁)) ∨
      ∃ (out : Option SessionOutgoingItem) (reply : Option LinkFlow) (items rest : List BufferedTransfer),
        Fits s₁ s₁.remoteIncomingWindowExhaustedBuffer items rest ∧
        itemFrames out = (reply.map s₁.onOutgoingFlow).toList ++ s₁.framesFor items ∧
        s.onIncomingFlow flow = (.ok out, (s₁.sendAll items).withBuffer rest) := by
  obtain ⟨links, hinner⟩ := s.onIncomingFlowInner_session flow
  refine ⟨links, hinner, ?_⟩
  intro s₁
  cases hresult : s.onIncomingFlowInner flow with
  | mk result s' =>
      rw [hresult] at hinner
      simp only at hinner
      subst hinner
      cases result with
      | error e => exact Or.inl ⟨e, by simp [onIncomingFlow, hresult, s₁]⟩
      | ok reply =>
          right
          by_cases hdrain : s₁.remoteIncomingWindow > 0 ∧ s₁.remoteIncomingWindowExhaustedBuffer ≠ []
          · obtain ⟨items, rest, hfits, heq⟩ :=
              drainBuffer_eq s₁ s₁.remoteIncomingWindowExhaustedBuffer
                (reply.map s₁.onOutgoingFlow).toList h
            refine ⟨some (.multipleFrames _), reply, items, rest, hfits, rfl, ?_⟩
            simp only [onIncomingFlow, hresult, prepareSessionFramesFromBufferedTransfers]
            rw [if_pos hdrain, heq]
          · refine ⟨(reply.map s₁.onOutgoingFlow).map .singleFrame, reply, [], _,
              ⟨rfl, Nat.zero_le _, fun hne => ?_⟩, ?_, ?_⟩
            · have := mt (fun hpos => (⟨(window_pos_iff s₁).mpr hpos, hne⟩ : _ ∧ _)) hdrain
              have hlen : ([] : List BufferedTransfer).length = 0 := rfl
              omega
            · cases reply <;> simp [itemFrames, framesFor, sentTransfers]
            · simp only [onIncomingFlow, hresult]
              rw [if_neg hdrain]
              rfl

end Session

/-! ## Runs -/

/-- One call on the session: a link frame is submitted or a flow arrives. -/
inductive WindowEvent where
  | submit (item : BufferedTransfer)
  | flow (flow : Flow)

def WindowEvent.submitted : WindowEvent → List BufferedTransfer
  | .submit item => [item]
  | .flow _ => []

/-- The session after a call and the frames it returned.  A call that fails returns none. -/
def Session.windowStep (s : Session) : WindowEvent → Session × List SessionFrame
  | .submit item =>
      match s.onOutgoingTransfer item with
      | (.ok out, s) => (s, Session.itemFrames out)
      | (.error _, s) => (s, [])
  | .flow flow =>
      match s.onIncomingFlow flow with
      | (.ok out, s) => (s, Session.itemFrames out)
      | (.error _, s) => (s, [])

/-- Between `s` and `s'` exactly the transfers `items` were emitted, as part of `frames`. -/
structure Emitted (s s' : Session) (items : List BufferedTransfer) (frames : List SessionFrame) :
    Prop where
  nextOutgoingId : s'.nextOutgoingId = s.nextOutgoingId + UInt32.ofNat items.length
  nextOutgoingDeliveryId :
    s'.nextOutgoingDeliveryId = s.nextOutgoingDeliveryId + UInt32.ofNat (firstCount items)
  deliveryTagById :
    s'.deliveryTagById = registerAll s.deliveryTagById s.nextOutgoingDeliveryId items
  transfers : transfersOf frames = sentTransfers s.nextOutgoingDeliveryId items

namespace Emitted

theorem refl (s : Session) : Emitted s s [] [] where
  nextOutgoingId := by simp
  nextOutgoingDeliveryId := by simp
  deliveryTagById := rfl
  transfers := rfl

theorem trans {s s' s'' : Session} {items items' : List BufferedTransfer}
    {frames frames' : List SessionFrame} (h : Emitted s s' items frames)
    (h' : Emitted s' s'' items' frames') :
    Emitted s s'' (items ++ items') (frames ++ frames') where
  nextOutgoingId := by
    rw [h'.nextOutgoingId, h.nextOutgoingId, ofNat_add_assoc, List.length_append]
  nextOutgoingDeliveryId := by
    rw [h'.nextOutgoingDeliveryId, h.nextOutgoingDeliveryId, ofNat_add_assoc, firstCount_append]
  deliveryTagById := by
    rw [h'.deliveryTagById, h.deliveryTagById, h.nextOutgoingDeliveryId, registerAll_append]
  transfers := by
    rw [transfersOf_append, h.transfers, h'.transfers, h.nextOutgoingDeliveryId,
      sentTransfers_append]

/-- The frames before the transfers may be anything but transfers. -/
private theorem of_sendAll (s : Session) (items rest : List BufferedTransfer)
    (other : List SessionFrame) (hother : transfersOf other = []) :
    Emitted s ((s.sendAll items).withBuffer rest) items (other ++ s.framesFor items) where
  nextOutgoingId := s.sendAll_nextOutgoingId items
  nextOutgoingDeliveryId := s.sendAll_nextOutgoingDeliveryId items
  deliveryTagById := s.sendAll_deliveryTagById items
  transfers := by rw [transfersOf_append, hother, Session.transfersOf_framesFor, List.nil_append]

end Emitted

/-- One call: a prefix of what was waiting or submitted leaves, the rest waits. -/
theorem Session.windowStep_emitted (s : Session) (event : WindowEvent)
    (h : ∀ item ∈ s.remoteIncomingWindowExhaustedBuffer ++ event.submitted, item.WellFormed) :
    ∃ items, items ++ (s.windowStep event).1.remoteIncomingWindowExhaustedBuffer =
        s.remoteIncomingWindowExhaustedBuffer ++ event.submitted ∧
      Emitted s (s.windowStep event).1 items (s.windowStep event).2 := by
  cases event with
  | submit item =>
      obtain ⟨out, items, rest, hfits, hout, heq⟩ := s.onOutgoingTransfer_eq item h
      refine ⟨items, ?_, ?_⟩
      · simp only [windowStep, heq]
        exact hfits.split.symm
      · simp only [windowStep, heq, hout]
        exact Emitted.of_sendAll s items rest [] rfl
  | flow flow =>
      simp only [WindowEvent.submitted, List.append_nil] at h ⊢
      obtain ⟨links, -, hflow⟩ := s.onIncomingFlow_eq flow h
      rcases hflow with ⟨e, heq⟩ | ⟨out, reply, items, rest, hfits, hout, heq⟩
      · refine ⟨[], by simp [windowStep, heq, applySessionFlow, withLinks], ?_⟩
        simp only [windowStep, heq]
        exact ⟨by simp [applySessionFlow, withLinks], by simp [applySessionFlow, withLinks], rfl, rfl⟩
      · refine ⟨items, ?_, ?_⟩
        · simp only [windowStep, heq]
          exact hfits.split.symm
        · simp only [windowStep, heq, hout]
          have hreply : transfersOf (reply.map
              ((s.applySessionFlow flow).withLinks links).onOutgoingFlow).toList = [] := by
            cases reply <;> rfl
          have hsent := Emitted.of_sendAll ((s.applySessionFlow flow).withLinks links) items rest _ hreply
          exact ⟨hsent.nextOutgoingId, hsent.nextOutgoingDeliveryId, hsent.deliveryTagById,
            hsent.transfers⟩

/-- The transfers submitted during a run. -/
def submittedTransfers (events : List WindowEvent) : List BufferedTransfer :=
  events.flatMap WindowEvent.submitted

/-- After a run from `s`: all submissions were well formed, and the emitted transfers followed by
the buffer are the submissions. -/
def WindowProgress (s : Session) (events : List WindowEvent) (s' : Session)
    (frames : List SessionFrame) : Prop :=
  (∀ item ∈ s.remoteIncomingWindowExhaustedBuffer ++ submittedTransfers events, item.WellFormed) ∧
    ∃ items, items ++ s'.remoteIncomingWindowExhaustedBuffer =
        s.remoteIncomingWindowExhaustedBuffer ++ submittedTransfers events ∧
      Emitted s s' items frames

private theorem windowProgress_step (s : Session) (events : List WindowEvent) (s' : Session)
    (frames : List SessionFrame) (event : WindowEvent) (h : WindowProgress s events s' frames)
    (hevent : ∀ item ∈ event.submitted, item.WellFormed) :
    WindowProgress s (events ++ [event]) (s'.windowStep event).1
      (frames ++ (s'.windowStep event).2) := by
  obtain ⟨hwf, items, hsplit, hemitted⟩ := h
  have hsubmitted : submittedTransfers (events ++ [event]) =
      submittedTransfers events ++ event.submitted := by
    simp [submittedTransfers]
  have hwaiting : ∀ item ∈ s'.remoteIncomingWindowExhaustedBuffer ++ event.submitted,
      item.WellFormed := by
    intro item hitem
    rcases List.mem_append.mp hitem with hmem | hmem
    · exact hwf item (by rw [← hsplit]; exact List.mem_append_right _ hmem)
    · exact hevent item hmem
  obtain ⟨more, hmore, hstep⟩ := s'.windowStep_emitted event hwaiting
  refine ⟨?_, items ++ more, ?_, hemitted.trans hstep⟩
  · intro item hitem
    rw [hsubmitted, ← List.append_assoc] at hitem
    rcases List.mem_append.mp hitem with hmem | hmem
    · exact hwf item hmem
    · exact hevent item hmem
  · rw [List.append_assoc, hmore, ← List.append_assoc, hsplit, hsubmitted, List.append_assoc]

/-- Every run makes progress in this sense. -/
theorem windowProgress_run (s : Session) (events : List WindowEvent)
    (h : ∀ item ∈ s.remoteIncomingWindowExhaustedBuffer ++ submittedTransfers events,
      item.WellFormed) :
    WindowProgress s events (Run.run Session.windowStep s events).1
      (Run.run Session.windowStep s events).2 := by
  have hstart : WindowProgress s [] s [] :=
    ⟨fun item hitem => h item (by simp [submittedTransfers] at hitem ⊢; exact Or.inl hitem),
      [], by simp [submittedTransfers], Emitted.refl s⟩
  have hevents : ∀ event ∈ events, ∀ item ∈ event.submitted, item.WellFormed := by
    intro event hevent item hitem
    exact h item (List.mem_append_right _ (List.mem_flatMap.mpr ⟨event, hevent, hitem⟩))
  exact Run.run_invariant (fun event => ∀ item ∈ event.submitted, item.WellFormed) (WindowProgress s)
    (windowProgress_step s) hstart events hevents

/-- In every interleaving of submissions and incoming flows, the emitted transfers followed by the
buffer are the submitted transfers: `items` left in order, numbered by the deliveries they start. -/
theorem outgoing_window_sends_in_order (s : Session) (events : List WindowEvent)
    (h : ∀ item ∈ s.remoteIncomingWindowExhaustedBuffer ++ submittedTransfers events,
      item.WellFormed) :
    let s' := (Run.run Session.windowStep s events).1
    let emitted := transfersOf (Run.run Session.windowStep s events).2
    ∃ items, items ++ s'.remoteIncomingWindowExhaustedBuffer =
        s.remoteIncomingWindowExhaustedBuffer ++ submittedTransfers events ∧
      emitted.length = items.length ∧
      (∀ (i : Nat) (item : BufferedTransfer), items[i]? = some item →
        ∃ transfer, emitted[i]? = some (transfer, item.payload) ∧
          (item.isFirst = true → transfer =
            { item.transfer with
              deliveryId := some (s.nextOutgoingDeliveryId +
                UInt32.ofNat (firstCount (items.take i))) }) ∧
          (item.isFirst = false → transfer = item.transfer ∧ transfer.deliveryId = none)) ∧
      s'.nextOutgoingId = s.nextOutgoingId + UInt32.ofNat emitted.length ∧
      s'.nextOutgoingDeliveryId = s.nextOutgoingDeliveryId + UInt32.ofNat (firstCount items) ∧
      s'.deliveryTagById = registerAll s.deliveryTagById s.nextOutgoingDeliveryId items := by
  intro s' emitted
  obtain ⟨hwf, items, hsplit, hemitted⟩ := windowProgress_run s events h
  have htransfers : emitted = sentTransfers s.nextOutgoingDeliveryId items := hemitted.transfers
  have hlength : emitted.length = items.length := by
    rw [htransfers, length_sentTransfers]
  refine ⟨items, hsplit, hlength, ?_, ?_, hemitted.nextOutgoingDeliveryId, hemitted.deliveryTagById⟩
  · intro i item hitem
    have hwfItem : item.WellFormed := hwf item <| by
      rw [← hsplit]
      exact List.mem_append_left _ (List.mem_of_getElem? hitem)
    refine ⟨item.asSent (s.nextOutgoingDeliveryId + UInt32.ofNat (firstCount (items.take i))),
      by rw [htransfers, sentTransfers_getElem?, hitem]; rfl, ?_, ?_⟩
    · intro hfirst
      simp [BufferedTransfer.asSent, hfirst]
    · intro hfirst
      simp [BufferedTransfer.asSent, hfirst, hwfItem.2 hfirst]
  · rw [hlength]
    exact hemitted.nextOutgoingId

/-- A store in which no link is attached. -/
def LinkStore.empty : LinkStore where
  cell := fun _ =>
    { flowState := ⟨0, 0, 0, 0, false, none⟩
      senderUnsettled := none
      receiverUnsettled := none
      incoming := []
      endpointDropped := false }
  outcomes := fun _ => none

/-- A two-frame delivery submitted on a closed window, which a flow then opens by one frame. -/
private def straddlingDelivery : List WindowEvent :=
  let transfer : Transfer :=
    { handle := 0, deliveryId := none, deliveryTag := some [0, 0, 0, 0], messageFormat := some 0
      settled := none, more := true, rcvSettleMode := none, state := none, resume := false
      aborted := false, batchable := false }
  [.submit ⟨⟨0⟩, transfer, [1], true⟩,
    .submit ⟨⟨0⟩, { transfer with deliveryTag := none, more := false }, [2], false⟩,
    .flow
      { nextIncomingId := some 0, incomingWindow := 1, nextOutgoingId := 0, outgoingWindow := 1
        handle := none, deliveryCount := none, linkCredit := none, available := none
        drain := false, echo := false, properties := none }]

theorem outgoing_window_sends_in_order_straddling :
    let s := SessionBuilder.intoSession {} 0 .mapped LinkStore.empty
    let s' := (Run.run Session.windowStep s straddlingDelivery).1
    s'.remoteIncomingWindowExhaustedBuffer.length = 1 ∧
      ∃ items, items ++ s'.remoteIncomingWindowExhaustedBuffer =
        submittedTransfers straddlingDelivery := by
  intro s s'
  refine ⟨by decide, ?_⟩
  obtain ⟨items, hsplit, -⟩ := outgoing_window_sends_in_order s straddlingDelivery (by
    simp [s, SessionBuilder.intoSession, submittedTransfers, straddlingDelivery,
      WindowEvent.submitted, BufferedTransfer.WellFormed])
  exact ⟨items, hsplit⟩

end Fe2o3Amqp
