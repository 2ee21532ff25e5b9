import Fe2o3Amqp.Link.Resumption
import Fe2o3Amqp.Serde.SizeSer
import Fe2o3Amqp.Types.Codec

/-!
# Attaching

The Attach that a link of either role sends, with its unsettled map or a part of it that fits in a
frame, and what an incoming Attach does to the link before the unsettled maps are compared.  A link
that is reattached on another session sends no map.
-/

namespace Fe2o3Amqp

/-- How an attach fails. -/
inductive AttachFailure where
  | attach (error : AttachError)
  | sessionStopped (reason : SessionStopReason)
  | panic

namespace LinkEndpoint

/-- The states of the unsettled deliveries, as an Attach tells them. -/
def unsettledStates (l : LinkEndpoint) (cell : LinkCell) :
    Option (OrderedMap DeliveryTag (Option DeliveryState)) :=
  match l.role with
  | .sender => cell.senderUnsettled.map fun m => m.entries.map fun entry => (entry.1, entry.2.state)
  | .receiver => cell.receiverUnsettled.map fun m => m.entries

/-- The share `1 / partialUnsettled` of the unsettled map. -/
def getUnsettledMap (l : LinkEndpoint) (cell : LinkCell) (isReattaching : Bool)
    (partialUnsettled : Nat) : Option (OrderedMap DeliveryTag (Option DeliveryState)) :=
  if isReattaching then none
  else
    match l.unsettledStates cell with
    | none => none
    | some states =>
        if states.isEmpty then none
        else if partialUnsettled ≤ 1 then some states
        else some (states.take (states.length / partialUnsettled))

def asAttachInner (l : LinkEndpoint) (cell : LinkCell) (handle : OutputHandle)
    (isReattaching : Bool) (partialUnsettled : Nat) : Attach where
  name := l.name
  handle := handle.handle
  role := l.role
  sndSettleMode := l.sndSettleMode
  rcvSettleMode := l.rcvSettleMode
  source := l.source
  target := l.target
  unsettled := l.getUnsettledMap cell isReattaching partialUnsettled
  incompleteUnsettled := partialUnsettled > 1
  initialDeliveryCount := some cell.flowState.initialDeliveryCount
  maxMessageSize := if l.maxMessageSize = 0 then none else some l.maxMessageSize
  offeredCapabilities := l.offeredCapabilities
  desiredCapabilities := l.desiredCapabilities
  properties := cell.flowState.properties

/-- The share of the map is halved until the Attach fits.  When even the Attach with an empty map
does not fit, the denominator overflows. -/
def asMaybeIncompleteAttach (l : LinkEndpoint) (cell : LinkCell) (maxFrameSize : Nat)
    (handle : OutputHandle) (isReattaching : Bool) : Except AttachFailure Attach :=
  loop 1 63
where
  loop (denominator : Nat) (doublings : Nat) : Except AttachFailure Attach :=
    let attach := l.asAttachInner cell handle isReattaching denominator
    match serializedSize attach.toSer with
    | .error (.err _) => .error (.attach .illegalState)
    | .error .panic | .error .stack => .error .panic
    | .ok size =>
        if size ≤ maxFrameSize then .ok attach
        else
          match doublings with
          | 0 => .error .panic
          | doublings + 1 => loop (denominator * 2) doublings

/-- The state of a link once its Attach was handed over; `none` where it may not send one. -/
def attachSentState (localState : LinkState) (incompleteUnsettled : Bool) : Option LinkState :=
  match localState with
  | .unattached | .detached | .detachSent =>
      some (if incompleteUnsettled then .incompleteAttachSent else .attachSent)
  | .attachReceived => some (if incompleteUnsettled then .incompleteAttachExchanged else .attached)
  | _ => none

/-- The unsettled map of a link that is reattached is dropped. -/
def clearUnsettled (cell : LinkCell) (isReattaching : Bool) : LinkCell :=
  if isReattaching then { cell with senderUnsettled := none, receiverUnsettled := none } else cell

/-- The whole map is told where it is empty; where it is not, what fits of it. -/
def asAttach (l : LinkEndpoint) (cell : LinkCell) (maxFrameSize : Nat) (handle : OutputHandle)
    (isReattaching : Bool) : Except AttachFailure Attach :=
  if ((l.unsettledStates cell).getD []).isEmpty then
    .ok (l.asAttachInner cell handle isReattaching 1)
  else l.asMaybeIncompleteAttach cell maxFrameSize handle isReattaching

/-- `send_attach_inner` up to the send. -/
def prepareAttach (l : LinkEndpoint) (cell : LinkCell) (maxFrameSize : Nat) (isReattaching : Bool) :
    Except AttachFailure Attach × LinkCell :=
  match l.outputHandle with
  | none => (.error (.attach .illegalState), cell)
  | some handle =>
      let cell := clearUnsettled cell isReattaching
      match l.asAttach cell maxFrameSize handle isReattaching with
      | .error failure => (.error failure, cell)
      | .ok attach =>
          match attachSentState l.localState attach.incompleteUnsettled with
          | none => (.error (.attach .illegalState), cell)
          | some _ => (.ok attach, cell)

/-- The Attach was handed to the session. -/
def attachSent (l : LinkEndpoint) (attach : Attach) : LinkEndpoint :=
  { l with
    localState := (attachSentState l.localState attach.incompleteUnsettled).getD l.localState }

/-- The sizes and properties that both ends of a link agree on. -/
def negotiate (l : LinkEndpoint) (cell : LinkCell) (remoteAttach : Attach) :
    LinkEndpoint × LinkCell :=
  ({ l with maxMessageSize := getMaxMessageSize l.maxMessageSize remoteAttach.maxMessageSize },
    { cell with
      flowState := { cell.flowState with
        properties := extendProperties cell.flowState.properties remoteAttach.properties } })

/-- `on_incoming_attach` of either role, until the unsettled maps are compared. -/
def acceptAttach (l : LinkEndpoint) (cell : LinkCell) (remoteAttach : Attach) :
    Except AttachError Unit × LinkEndpoint × LinkCell :=
  match attachState l.localState remoteAttach.incompleteUnsettled with
  | none => (.error .illegalState, l, cell)
  | some localState =>
      let l := { l with localState, inputHandle := some ⟨remoteAttach.handle⟩ }
      match l.role with
      | .sender =>
          match l.acceptAsSender remoteAttach with
          | (.error e, l) => (.error e, l, cell)
          | (.ok _, l) => (.ok (), l.negotiate cell remoteAttach)
      | .receiver =>
          match l.acceptAsReceiver remoteAttach with
          | (.error e, l) => (.error e, l, cell)
          | (.ok initialDeliveryCount, l) =>
              -- the receiver starts to count where the Attach says
              let flowState := { cell.flowState with
                initialDeliveryCount
                deliveryCount := initialDeliveryCount }
              (.ok (), l.negotiate { cell with flowState } remoteAttach)

/-! ## What an incoming Attach leaves as it is -/

theorem acceptAsSender_snd (l : LinkEndpoint) (remoteAttach : Attach) :
    ∃ target rcvSettleMode, (l.acceptAsSender remoteAttach).2 = { l with target, rcvSettleMode } := by
  simp only [acceptAsSender]
  cases l.checkAsSender remoteAttach with
  | error e => exact ⟨l.target, l.rcvSettleMode, rfl⟩
  | ok target =>
      refine ⟨some target, remoteAttach.rcvSettleMode, ?_⟩
      dsimp only
      split_ifs <;> rfl

theorem acceptAsReceiver_snd (l : LinkEndpoint) (remoteAttach : Attach) :
    ∃ source sndSettleMode,
      (l.acceptAsReceiver remoteAttach).2 = { l with source, sndSettleMode } := by
  simp only [acceptAsReceiver]
  cases l.checkSource remoteAttach with
  | error e => exact ⟨l.source, l.sndSettleMode, rfl⟩
  | ok source => exact ⟨some source, remoteAttach.sndSettleMode, rfl⟩

/-- What an incoming Attach never changes: of the endpoint, and of the cell. -/
structure AttachFrame (l : LinkEndpoint) (cell : LinkCell) (l' : LinkEndpoint) (cell' : LinkCell) :
    Prop where
  role : l'.role = l.role
  outputHandle : l'.outputHandle = l.outputHandle
  senderUnsettled : cell'.senderUnsettled = cell.senderUnsettled
  receiverUnsettled : cell'.receiverUnsettled = cell.receiverUnsettled
  incoming : cell'.incoming = cell.incoming

theorem acceptAttach_frame (l : LinkEndpoint) (cell : LinkCell) (remoteAttach : Attach) :
    AttachFrame l cell (l.acceptAttach cell remoteAttach).2.1
      (l.acceptAttach cell remoteAttach).2.2 := by
  simp only [acceptAttach]
  cases attachState l.localState remoteAttach.incompleteUnsettled with
  | none => exact ⟨rfl, rfl, rfl, rfl, rfl⟩
  | some localState =>
      dsimp only
      cases hrole : l.role with
      | sender =>
          dsimp only
          generalize hl : LinkEndpoint.mk _ _ _ _ _ _ _ _ _ _ _ _ _ _ _ = l'
          obtain ⟨target, rcvSettleMode, hsame⟩ := l'.acceptAsSender_snd remoteAttach
          rw [← Prod.mk.eta (p := l'.acceptAsSender remoteAttach), hsame]
          subst hl
          cases (LinkEndpoint.acceptAsSender _ remoteAttach).1 <;>
            exact ⟨hrole.symm, rfl, rfl, rfl, rfl⟩
      | receiver =>
          dsimp only
          generalize hl : LinkEndpoint.mk _ _ _ _ _ _ _ _ _ _ _ _ _ _ _ = l'
          obtain ⟨source, sndSettleMode, hsame⟩ := l'.acceptAsReceiver_snd remoteAttach
          rw [← Prod.mk.eta (p := l'.acceptAsReceiver remoteAttach), hsame]
          subst hl
          cases (LinkEndpoint.acceptAsReceiver _ remoteAttach).1 <;>
            exact ⟨hrole.symm, rfl, rfl, rfl, rfl⟩

theorem acceptAttach_flowState_sender {l : LinkEndpoint} (hrole : l.role = .sender) (cell : LinkCell)
    (remoteAttach : Attach) :
    ∃ properties, (l.acceptAttach cell remoteAttach).2.2.flowState =
      { cell.flowState with properties } := by
  simp only [acceptAttach]
  cases attachState l.localState remoteAttach.incompleteUnsettled with
  | none => exact ⟨cell.flowState.properties, rfl⟩
  | some localState =>
      dsimp only
      rw [hrole]
      dsimp only
      generalize acceptAsSender _ remoteAttach = accepted
      obtain ⟨result, l'⟩ := accepted
      cases result with
      | error e => exact ⟨cell.flowState.properties, rfl⟩
      | ok _ => exact ⟨_, rfl⟩

theorem acceptAttach_localState (l : LinkEndpoint) (cell : LinkCell) (remoteAttach : Attach)
    (hok : (l.acceptAttach cell remoteAttach).1 = .ok ()) :
    attachState l.localState remoteAttach.incompleteUnsettled =
      some (l.acceptAttach cell remoteAttach).2.1.localState := by
  simp only [acceptAttach] at hok ⊢
  cases hstate : attachState l.localState remoteAttach.incompleteUnsettled with
  | none => simp [hstate] at hok
  | some localState =>
      simp only [hstate] at hok ⊢
      cases hrole : l.role with
      | sender =>
          simp only [hrole] at hok ⊢
          generalize hl : LinkEndpoint.mk _ _ _ _ _ _ _ _ _ _ _ _ _ _ _ = l' at hok ⊢
          obtain ⟨target, rcvSettleMode, hsame⟩ := l'.acceptAsSender_snd remoteAttach
          rw [← Prod.mk.eta (p := l'.acceptAsSender remoteAttach), hsame] at hok ⊢
          subst hl
          generalize (LinkEndpoint.acceptAsSender _ remoteAttach).1 = result at hok ⊢
          cases result <;> simp_all [negotiate]
      | receiver =>
          simp only [hrole] at hok ⊢
          generalize hl : LinkEndpoint.mk _ _ _ _ _ _ _ _ _ _ _ _ _ _ _ = l' at hok ⊢
          obtain ⟨source, sndSettleMode, hsame⟩ := l'.acceptAsReceiver_snd remoteAttach
          rw [← Prod.mk.eta (p := l'.acceptAsReceiver remoteAttach), hsame] at hok ⊢
          subst hl
          generalize (LinkEndpoint.acceptAsReceiver _ remoteAttach).1 = result at hok ⊢
          cases result <;> simp_all [negotiate]

/-- A receiver that accepts an Attach counts from the count that it carries. -/
theorem acceptAttach_deliveryCount {l : LinkEndpoint} (hrole : l.role = .receiver) (cell : LinkCell)
    {remoteAttach : Attach} {count : SequenceNo}
    (hcount : remoteAttach.initialDeliveryCount = some count)
    (hok : (l.acceptAttach cell remoteAttach).1 = .ok ()) :
    (l.acceptAttach cell remoteAttach).2.2.flowState.deliveryCount = count := by
  have htold : ∀ (l : LinkEndpoint) (told : SequenceNo),
      (l.acceptAsReceiver remoteAttach).1 = .ok told → told = count := by
    intro l told hok
    simp only [acceptAsReceiver] at hok
    cases hsource : l.checkSource remoteAttach with
    | error e => simp [hsource] at hok
    | ok source =>
        simp only [hsource, checkTarget, hcount] at hok
        generalize (remoteAttach.target.mapM l.targetKind.tryFrom :
          Except AttachError (Option TargetArchetype)) = target at hok
        cases target with
        | error e => cases hok
        | ok target =>
            simp only [bind, Except.bind] at hok
            split at hok
            · next localTarget remoteTarget _ =>
                split_ifs at hok
                · cases hverify : localTarget.verifyAsReceiver remoteTarget with
                  | error e => simp [hverify] at hok
                  | ok _ =>
                      simp only [hverify] at hok
                      exact (Except.ok.inj hok).symm
                · exact (Except.ok.inj hok).symm
            · exact (Except.ok.inj hok).symm
  simp only [acceptAttach] at hok ⊢
  cases hstate : attachState l.localState remoteAttach.incompleteUnsettled with
  | none => simp [hstate] at hok
  | some localState =>
      simp only [hstate, hrole] at hok ⊢
      have htold' := htold
        { l with
          localState
          role := .receiver
          inputHandle := some ⟨remoteAttach.handle⟩ }
      generalize acceptAsReceiver _ remoteAttach = accepted at hok htold' ⊢
      obtain ⟨result, l'⟩ := accepted
      cases result with
      | error e => cases hok
      | ok told => exact htold' told rfl

/-! ## What an Attach tells -/

theorem asMaybeIncompleteAttach_eq {l : LinkEndpoint} {cell : LinkCell} {maxFrameSize : Nat}
    {handle : OutputHandle} {isReattaching : Bool} {attach : Attach}
    (h : l.asMaybeIncompleteAttach cell maxFrameSize handle isReattaching = .ok attach) :
    ∃ partialUnsettled, attach = l.asAttachInner cell handle isReattaching partialUnsettled := by
  simp only [asMaybeIncompleteAttach] at h
  generalize 1 = denominator at h
  generalize 63 = doublings at h
  induction doublings generalizing denominator with
  | zero =>
      simp only [asMaybeIncompleteAttach.loop] at h
      split at h
      · cases h
      · cases h
      · cases h
      · split_ifs at h
        exact ⟨denominator, (Except.ok.inj h).symm⟩
  | succ doublings ih =>
      simp only [asMaybeIncompleteAttach.loop] at h
      split at h
      · cases h
      · cases h
      · cases h
      · split_ifs at h
        · exact ⟨denominator, (Except.ok.inj h).symm⟩
        · exact ih _ h

theorem asAttach_eq {l : LinkEndpoint} {cell : LinkCell} {maxFrameSize : Nat}
    {handle : OutputHandle} {isReattaching : Bool} {attach : Attach}
    (h : l.asAttach cell maxFrameSize handle isReattaching = .ok attach) :
    ∃ partialUnsettled, attach = l.asAttachInner cell handle isReattaching partialUnsettled := by
  simp only [asAttach] at h
  split_ifs at h
  · exact ⟨1, (Except.ok.inj h).symm⟩
  · exact asMaybeIncompleteAttach_eq h

/-- Whatever part of the unsettled map it carries, an Attach tells the initial delivery count. -/
theorem prepareAttach_ok {l : LinkEndpoint} {cell cell' : LinkCell} {maxFrameSize : Nat}
    {isReattaching : Bool} {attach : Attach}
    (h : l.prepareAttach cell maxFrameSize isReattaching = (.ok attach, cell')) :
    attach.initialDeliveryCount = some cell.flowState.initialDeliveryCount ∧
      cell' = clearUnsettled cell isReattaching ∧
      (attachSentState l.localState attach.incompleteUnsettled).isSome := by
  simp only [prepareAttach] at h
  cases hhandle : l.outputHandle with
  | none => simp [hhandle] at h
  | some handle =>
      simp only [hhandle] at h
      cases hattach : l.asAttach (clearUnsettled cell isReattaching) maxFrameSize handle
          isReattaching with
      | error failure => simp [hattach] at h
      | ok attach' =>
          simp only [hattach] at h
          split at h
          · cases h
          · next hsent =>
              cases h
              refine ⟨?_, rfl, by rw [hsent]; rfl⟩
              obtain ⟨partialUnsettled, rfl⟩ := asAttach_eq hattach
              simp only [asAttachInner, clearUnsettled]
              split_ifs <;> rfl

end LinkEndpoint

end Fe2o3Amqp
