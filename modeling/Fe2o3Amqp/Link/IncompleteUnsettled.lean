import Fe2o3Amqp.Link.ResumeKept

/-!
# Deliveries that an incomplete unsettled map leaves out

An Attach whose unsettled map is incomplete says nothing about a delivery that the map does not name.
The sender takes its own map out of the lock for every Attach that it accepts and decides on each
delivery without looking at the flag.
-/

namespace Fe2o3Amqp

/-- The unsettled map of the Attach has the delivery. -/
def Attach.names (attach : Attach) (tag : DeliveryTag) : Bool :=
  (IndexMap.lookupEntries tag (attach.unsettled.getD [])).isSome

theorem resumeDeliveries_cell (store : LinkStore) (localMap : List (DeliveryTag × UnsettledMessage))
    (remoteMap : OrderedMap DeliveryTag (Option DeliveryState)) :
    (resumeDeliveries store localMap remoteMap).2.2.cell = store.cell := by
  induction localMap generalizing store remoteMap with
  | nil => rfl
  | cons entry localMap ih =>
      obtain ⟨tag, message⟩ := entry
      simp only [resumeDeliveries]
      obtain ⟨resuming, hresume, -⟩ | ⟨state, hresume⟩ :=
        resumeDelivery_cases store message (IndexMap.lookupEntries tag remoteMap)
      · rw [hresume]
        exact ih _ _
      · rw [hresume]
        exact ih _ _

/-- The comparison of the unsettled maps leaves the sender without one. -/
theorem LinkStore.handleUnsettledInAttach_senderUnsettled (store : LinkStore) (link : LinkId)
    (remoteUnsettled : Option (OrderedMap DeliveryTag (Option DeliveryState))) :
    ((store.handleUnsettledInAttach link remoteUnsettled).2.cell link).senderUnsettled = none := by
  have htaken : ((store.takeSenderUnsettled link).cell link).senderUnsettled = none := by
    rw [takeSenderUnsettled, modify_cell_self]
  rw [handleUnsettledInAttach_eq]
  dsimp only
  split_ifs
  · exact htaken
  · rw [resumeDeliveries_cell]
    exact htaken

namespace ResumeTask

/-- The deliveries that the exchange has yet to handle. -/
def pending (t : ResumeTask) : List (DeliveryTag × ResumingDelivery) :=
  match t.awaiting with
  | .next (.deliveries rest _) => rest
  | _ => []

/-- An unsettled delivery of the sender. -/
def unsettled (t : ResumeTask) (tag : DeliveryTag) : Option UnsettledMessage :=
  t.cell.senderUnsettled.bind (·.get tag)

/-- Nothing was concluded about a delivery: its result was not reported, it is not sent again and it
is still unsettled. -/
structure LeftAlone (t : ResumeTask) (tag : DeliveryTag) (message : UnsettledMessage)
    (t' : ResumeTask) : Prop where
  unreported : t'.store.outcomes message.sender = t.store.outcomes message.sender
  notResent : ∀ resent, (tag, .resend resent) ∉ t'.pending
  unsettled : t'.unsettled tag = some message

/-- An accepted Attach takes the unsettled deliveries out of the map. -/
theorem onIncomingAttach_unsettled {t : ResumeTask} {remoteAttach : Attach}
    (haccepted : (t.link.acceptAttach t.cell remoteAttach).1 = .ok ()) (tag : DeliveryTag) :
    (t.onIncomingAttach remoteAttach).1.unsettled tag = none := by
  have hnone : (t.onIncomingAttach remoteAttach).1.cell.senderUnsettled = none := by
    rw [onIncomingAttach]
    cases haccept : t.link.acceptAttach t.cell remoteAttach with
    | mk result rest =>
        rw [haccept] at haccepted
        obtain rfl : result = .ok () := haccepted
        have htaken := LinkStore.handleUnsettledInAttach_senderUnsettled
          ((t.withCell fun _ => rest.2).withEndpoint rest.1).store t.id remoteAttach.unsettled
        simp only
        split <;> exact htaken
  rw [unsettled, hnone]
  rfl

/-- An incomplete unsettled map of the peer leaves the deliveries that it does not name alone exactly
if there are none. -/
theorem leftAlone_iff_named (t : ResumeTask) (remoteAttach : Attach)
    (haccepted : (t.link.acceptAttach t.cell remoteAttach).1 = .ok ()) :
    (remoteAttach.incompleteUnsettled = true → ∀ tag message, t.unsettled tag = some message →
        remoteAttach.names tag = false →
          t.LeftAlone tag message (t.onIncomingAttach remoteAttach).1) ↔
      (remoteAttach.incompleteUnsettled = true → ∀ tag message, t.unsettled tag = some message →
        remoteAttach.names tag = true) := by
  refine imp_congr_right fun hincomplete => ⟨?_, ?_⟩
  · intro h tag message hlocal
    by_contra hmissing
    have hkept := (h tag message hlocal (Bool.not_eq_true _ ▸ hmissing)).unsettled
    rw [onIncomingAttach_unsettled haccepted tag] at hkept
    cases hkept
  · intro h tag message hlocal hmissing
    rw [h tag message hlocal] at hmissing
    cases hmissing

/-! ## What becomes of a delivery that is left out -/

theorem lookupEntries_swapRemoveEntries_of_none {tag : DeliveryTag}
    {remoteMap : OrderedMap DeliveryTag (Option DeliveryState)}
    (h : IndexMap.lookupEntries tag remoteMap = none) (tag' : DeliveryTag) :
    IndexMap.lookupEntries tag (IndexMap.swapRemoveEntries tag' remoteMap) = none := by
  simp only [IndexMap.lookupEntries, Option.map_eq_none_iff, List.find?_eq_none] at h ⊢
  intro entry hmem
  exact h entry (List.mem_of_mem_eraseP ((IndexMap.swapRemoveEntries_perm tag' remoteMap).mem_iff.mp hmem))

/-- A missing delivery is sent again, aborted or reported with its local state. -/
theorem resumeDelivery_missing (store : LinkStore) (message : UnsettledMessage) :
    resumeDelivery store message none = (some (.resend message), store) ∨
      resumeDelivery store message none =
        (some (.abort message.messageFormat (some message.sender)), store) ∨
      resumeDelivery store message none = (none, store.resolve message.sender (.ok message.state)) := by
  cases hstate : message.state with
  | none => exact .inl (by simp [resumeDelivery, hstate])
  | some state => cases state <;> simp [resumeDelivery, hstate]

/-- What the comparison concludes about the delivery. -/
def Concludes (deliveries : List (DeliveryTag × ResumingDelivery)) (store : LinkStore)
    (tag : DeliveryTag) (message : UnsettledMessage) : Prop :=
  (tag, .resend message) ∈ deliveries ∨
    (tag, .abort message.messageFormat (some message.sender)) ∈ deliveries ∨
    store.Resolved message.sender

theorem resumeDeliveries_missing {tag : DeliveryTag} {message : UnsettledMessage}
    {localMap : List (DeliveryTag × UnsettledMessage)} (hmem : (tag, message) ∈ localMap)
    {remoteMap : OrderedMap DeliveryTag (Option DeliveryState)}
    (hmissing : IndexMap.lookupEntries tag remoteMap = none) (store : LinkStore) :
    let out := resumeDeliveries store localMap remoteMap
    Concludes out.1 out.2.2 tag message := by
  induction localMap generalizing store remoteMap with
  | nil => cases hmem
  | cons entry localMap ih =>
      obtain ⟨tag', message'⟩ := entry
      simp only [resumeDeliveries]
      rcases List.mem_cons.mp hmem with hentry | hmem
      · cases hentry
        rw [hmissing]
        rcases resumeDelivery_missing store message with hresume | hresume | hresume
        · rw [hresume]
          exact .inl List.mem_cons_self
        · rw [hresume]
          exact .inr (.inl List.mem_cons_self)
        · rw [hresume]
          exact .inr (.inr ((LinkStore.resumeDeliveries_keeps _ _ _).1 _
            (LinkStore.resolved_resolve _ _ _)))
      · have hrest (store : LinkStore) :=
          ih hmem (lookupEntries_swapRemoveEntries_of_none hmissing tag') store
        rcases resumeDelivery_cases store message' (IndexMap.lookupEntries tag' remoteMap) with
          ⟨resuming, hresume, -⟩ | ⟨state, hresume⟩
        · rw [hresume]
          exact (hrest store).imp (List.mem_cons_of_mem _) (.imp_left (List.mem_cons_of_mem _))
        · rw [hresume]
          exact hrest _

theorem handleUnsettledInAttach_missing {store : LinkStore} {link : LinkId}
    {localMap : IndexMap DeliveryTag UnsettledMessage}
    (hmap : (store.cell link).senderUnsettled = some localMap) {tag : DeliveryTag}
    {message : UnsettledMessage} (hlocal : localMap.get tag = some message)
    {remoteUnsettled : Option (OrderedMap DeliveryTag (Option DeliveryState))}
    (hmissing : IndexMap.lookupEntries tag (remoteUnsettled.getD []) = none) :
    ∃ deliveries, (store.handleUnsettledInAttach link remoteUnsettled).1 = some deliveries ∧
      Concludes deliveries (store.handleUnsettledInAttach link remoteUnsettled).2 tag message := by
  have hmem := (IndexMap.get_eq_some_iff localMap tag message).mp hlocal
  have hnonempty : ¬(localMap.entries.isEmpty && (remoteUnsettled.getD []).isEmpty) = true := by
    rw [List.isEmpty_eq_false_iff.mpr (List.ne_nil_of_mem hmem), Bool.false_and]
    exact Bool.false_ne_true
  have hconcludes := resumeDeliveries_missing hmem hmissing (store.takeSenderUnsettled link)
  rw [LinkStore.handleUnsettledInAttach_eq, hmap]
  dsimp only [Option.elim_some]
  rw [if_neg hnonempty]
  exact ⟨_, rfl, hconcludes.imp (List.mem_append_left _) (.imp_left (List.mem_append_left _))⟩

/-- Every delivery that the Attach does not name is sent again, aborted or reported. -/
theorem onIncomingAttach_missing {t : ResumeTask} {remoteAttach : Attach}
    (haccepted : (t.link.acceptAttach t.cell remoteAttach).1 = .ok ()) {tag : DeliveryTag}
    {message : UnsettledMessage} (hlocal : t.unsettled tag = some message)
    (hmissing : remoteAttach.names tag = false) :
    let t' := (t.onIncomingAttach remoteAttach).1
    Concludes t'.pending t'.store tag message := by
  obtain ⟨localMap, hmap, hget⟩ := Option.bind_eq_some_iff.mp hlocal
  have habsent : IndexMap.lookupEntries tag (remoteAttach.unsettled.getD []) = none := by
    simpa [Attach.names] using hmissing
  have hframe := (t.link.acceptAttach_frame t.cell remoteAttach).senderUnsettled
  rw [onIncomingAttach]
  cases haccept : t.link.acceptAttach t.cell remoteAttach with
  | mk result rest =>
      obtain ⟨endpoint, cell⟩ := rest
      rw [haccept] at haccepted hframe
      obtain rfl : result = .ok () := haccepted
      have hunsettled : (((t.withCell fun _ => cell).withEndpoint endpoint).store.cell
          t.id).senderUnsettled = some localMap := by
        rw [← hmap, ← hframe]
        exact congrArg LinkCell.senderUnsettled
          (LinkStore.modify_cell_self t.store t.id fun _ => cell)
      obtain ⟨deliveries, hdeliveries, hconcludes⟩ :=
        handleUnsettledInAttach_missing hunsettled hget habsent
      dsimp only
      generalize hout : ((t.withCell fun _ => cell).withEndpoint endpoint).store.handleUnsettledInAttach
        ((t.withCell fun _ => cell).withEndpoint endpoint).id remoteAttach.unsettled = out
      have hsame : ((t.withCell fun _ => cell).withEndpoint endpoint).id = t.id := rfl
      rw [← hsame, hout] at hdeliveries hconcludes
      rw [hdeliveries]
      cases endpoint.localState <;> exact hconcludes

section Witnesses

/-- A sender that has sent its Attach; the delivery `[1]` was accepted while the link was down. -/
private def awaitingAttach : ResumeTask where
  link :=
    { name := "link"
      role := .sender
      localState := .attachSent
      outputHandle := some ⟨0⟩
      inputHandle := none
      sndSettleMode := .mixed
      rcvSettleMode := .first
      source := none
      targetKind := .target
      target := none
      maxMessageSize := 0
      offeredCapabilities := none
      desiredCapabilities := none
      verifyIncomingSource := false
      verifyIncomingTarget := false
      maxFrameSize := 512
      sessionStopReason := none }
  id := 0
  store :=
    { cell := fun _ =>
        { flowState := ⟨0, 7, 10, 0, false, none⟩
          senderUnsettled := some (IndexMap.empty.insert [1] ⟨[0], some .accepted, 0, 0⟩)
          receiverUnsettled := none
          incoming := []
          endpointDropped := false }
      outcomes := fun _ => none }
  isReattaching := false
  remoteAttach := none
  resendBuf := []
  writerClosed := false
  incomingClosed := false
  awaiting := .remoteAttach

/-- The answer of a receiver that had no room for the delivery `[1]` in its Attach. -/
private def trimmedAttach : Attach where
  name := "link"
  handle := 0
  role := .receiver
  sndSettleMode := .mixed
  rcvSettleMode := .first
  source := none
  target := some (.target ⟨none, .none, .sessionEnd, 0, false, none, none⟩)
  unsettled := some [([2], none)]
  incompleteUnsettled := true
  initialDeliveryCount := none
  maxMessageSize := none
  offeredCapabilities := none
  desiredCapabilities := none
  properties := none

theorem trimmed_leftAlone_iff_named :
    (trimmedAttach.incompleteUnsettled = true → ∀ tag message,
        awaitingAttach.unsettled tag = some message → trimmedAttach.names tag = false →
          awaitingAttach.LeftAlone tag message (awaitingAttach.onIncomingAttach trimmedAttach).1) ↔
      (trimmedAttach.incompleteUnsettled = true → ∀ tag message,
        awaitingAttach.unsettled tag = some message → trimmedAttach.names tag = true) :=
  leftAlone_iff_named awaitingAttach trimmedAttach rfl

/-- The sender of the delivery that was left out is told that it is settled, and the delivery is no
longer unsettled. -/
theorem left_out_reported_settled :
    ¬∀ (t : ResumeTask) (remoteAttach : Attach), remoteAttach.incompleteUnsettled = true →
      ∀ tag message, t.unsettled tag = some message → remoteAttach.names tag = false →
        t.LeftAlone tag message (t.onIncomingAttach remoteAttach).1 := by
  intro hclaim
  have hleft := hclaim awaitingAttach trimmedAttach rfl [1] ⟨[0], some .accepted, 0, 0⟩ rfl rfl
  have hreported : (awaitingAttach.onIncomingAttach trimmedAttach).1.store.outcomes 0 =
      some (.ok (some .accepted)) := rfl
  have hsilent : (awaitingAttach.onIncomingAttach trimmedAttach).1.store.outcomes 0 = none :=
    hleft.unreported
  rw [hreported] at hsilent
  cases hsilent

end Witnesses

end ResumeTask

end Fe2o3Amqp
