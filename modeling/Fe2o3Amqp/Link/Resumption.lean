import Fe2o3Amqp.Link.Detach

/-!
# What to do with an unsettled delivery

When a sender is attached again, the unsettled maps of the two ends are compared: `resume_delivery`
decides for each delivery of the local map whether it is sent again, resumed, aborted or restated, or
is over.  A delivery that is over gives its result to its oneshot channel in the store.
-/

namespace Fe2o3Amqp

inductive ResumingDelivery where
  | abort (messageFormat : MessageFormat) (sender : Option OneshotId)
  | resend (message : UnsettledMessage)
  | resume (message : UnsettledMessage)
  | restateOutcome (payload : Payload) (localState : DeliveryState) (messageFormat : MessageFormat)
      (sender : OneshotId)

namespace ResumingDelivery

/-- The oneshot channel on which the outcome of the delivery is awaited. -/
def sender : ResumingDelivery → Option OneshotId
  | .abort _ sender => sender
  | .resend message | .resume message => some message.sender
  | .restateOutcome _ _ _ sender => some sender

end ResumingDelivery

/-- The derived `PartialOrd`. -/
def Received.le (v other : Received) : Bool :=
  v.sectionNumber < other.sectionNumber ||
    (v.sectionNumber == other.sectionNumber && v.sectionOffset ≤ other.sectionOffset)

/-- The rest of the payload from a section number and an offset in that section, both counted from
zero.  The last two bytes are never reached. -/
def splitOffAtSectionAndOffset (payload : Payload) (sectionNumber offset : Nat) : Option Payload :=
  scan none 0 payload
where
  /-- `sinceSection` is the distance from the last section header. -/
  scan (sectionCounter : Option Nat) (sinceSection : Nat) : Payload → Option Payload
    | b0 :: b1 :: b2 :: rest =>
        let header := isSectionHeader b0 b1 b2
        let sectionCounter := if header then some (sectionCounter.elim 0 (· + 1)) else sectionCounter
        let sinceSection := if header then 0 else sinceSection
        if sectionCounter = some sectionNumber ∧ sinceSection = offset then
          some (b0 :: b1 :: b2 :: rest)
        else scan sectionCounter (sinceSection + 1) (b1 :: b2 :: rest)
    | _ => none

/-- The message with the part of its payload that the receiver does not have.  A position that is not
found leaves the whole payload. -/
def UnsettledMessage.remainingFrom (message : UnsettledMessage) (received : Received) :
    UnsettledMessage :=
  { message with
    payload := (splitOffAtSectionAndOffset message.payload received.sectionNumber.toNat
      received.sectionOffset.toNat).getD message.payload }

/-- `none` for a delivery that is over.  An entry without a state is one of which nothing was
received. -/
def resumeDelivery (store : LinkStore) (message : UnsettledMessage)
    (remote : Option (Option DeliveryState)) : Option ResumingDelivery × LinkStore :=
  let remoteState : Option DeliveryState := remote.map fun inner => inner.getD (.received ⟨0, 0⟩)
  let abort : Option ResumingDelivery × LinkStore :=
    (some (.abort message.messageFormat (some message.sender)), store)
  let settle (state : Option DeliveryState) : Option ResumingDelivery × LinkStore :=
    (none, store.resolve message.sender (.ok state))
  match message.state, remoteState with
  | _, some (.declared _) | _, some (.transactionalState _) => abort
  | some (.declared _), _ | some (.transactionalState _), _ => abort
  | none, none => (some (.resend message), store)
  | none, some (.received received) => (some (.resume (message.remainingFrom received)), store)
  | none, some _ => settle remoteState
  | some (.received _), none => (some (.resend message), store)
  | some (.received localRecved), some (.received remoteRecved) =>
      if localRecved.le remoteRecved then
        (some (.resume (message.remainingFrom remoteRecved)), store)
      else abort
  | some (.received _), some _ => settle remoteState
  | some _, none => settle message.state
  | some _, some (.received _) => abort
  | some .accepted, some .accepted | some (.modified _), some (.modified _)
  | some (.rejected _), some (.rejected _) | some .released, some .released => settle message.state
  | some localState, some _ =>
      (some (.restateOutcome message.payload localState message.messageFormat message.sender), store)

inductive SenderAttachExchange where
  | complete
  | incompleteUnsettled (deliveries : List (DeliveryTag × ResumingDelivery))
  | resume (deliveries : List (DeliveryTag × ResumingDelivery))

/-- The local entries in order, with what is left of the remote map. -/
def resumeDeliveries (store : LinkStore) :
    List (DeliveryTag × UnsettledMessage) → OrderedMap DeliveryTag (Option DeliveryState) →
      List (DeliveryTag × ResumingDelivery) × OrderedMap DeliveryTag (Option DeliveryState) × LinkStore
  | [], remoteMap => ([], remoteMap, store)
  | (tag, message) :: localMap, remoteMap =>
      let (resuming, store) := resumeDelivery store message (IndexMap.lookupEntries tag remoteMap)
      let (rest, remoteMap, store) :=
        resumeDeliveries store localMap (IndexMap.swapRemoveEntries tag remoteMap)
      (match resuming with
        | some resuming => (tag, resuming) :: rest
        | none => rest, remoteMap, store)

/-- What only the receiver knows is aborted; its message format is not known. -/
def abortUnknown (remoteMap : OrderedMap DeliveryTag (Option DeliveryState)) :
    List (DeliveryTag × ResumingDelivery) :=
  remoteMap.map fun entry => (entry.1, .abort 0 none)

namespace LinkStore

/-- The map of a sender is taken out of its lock. -/
def takeSenderUnsettled (store : LinkStore) (link : LinkId) : LinkStore :=
  store.modify link fun cell => { cell with senderUnsettled := none }

/-- `handle_unsettled_in_attach` of a sender up to the kind of the exchange; `none` where there is
nothing to resume. -/
def handleUnsettledInAttach (store : LinkStore) (link : LinkId)
    (remoteUnsettled : Option (OrderedMap DeliveryTag (Option DeliveryState))) :
    Option (List (DeliveryTag × ResumingDelivery)) × LinkStore :=
  let taken := store.takeSenderUnsettled link
  match (store.cell link).senderUnsettled, remoteUnsettled with
  | none, none => (none, taken)
  | none, some remoteMap =>
      if remoteMap.isEmpty then (none, taken) else (some (abortUnknown remoteMap), taken)
  | some localMap, none =>
      if localMap.entries.isEmpty then (none, taken)
      else
        let (deliveries, _, store) := resumeDeliveries taken localMap.entries []
        (some deliveries, store)
  | some localMap, some remoteMap =>
      if localMap.entries.isEmpty && remoteMap.isEmpty then (none, taken)
      else
        let (deliveries, remoteMap, store) := resumeDeliveries taken localMap.entries remoteMap
        (some (deliveries ++ abortUnknown remoteMap), store)

/-! ## Whose deliveries are resumed -/

@[simp] theorem modify_cell_self (store : LinkStore) (link : LinkId) (f : LinkCell → LinkCell) :
    (store.modify link f).cell link = f (store.cell link) :=
  Function.update_self ..

@[simp] theorem modify_outcomes (store : LinkStore) (link : LinkId) (f : LinkCell → LinkCell) :
    (store.modify link f).outcomes = store.outcomes := rfl

@[simp] theorem resolve_cell (store : LinkStore) (sender : OneshotId)
    (result : Except LinkStateError (Option DeliveryState)) :
    (store.resolve sender result).cell = store.cell := rfl

end LinkStore

/-- The senders of the entries of an unsettled map. -/
def unsettledSenders (unsettled : Option (IndexMap DeliveryTag UnsettledMessage)) : List OneshotId :=
  (unsettled.elim [] (·.entries)).map fun entry => entry.2.sender

/-- A delivery is resumed with its own oneshot channel, or its result is sent on it. -/
theorem resumeDelivery_cases (store : LinkStore) (message : UnsettledMessage)
    (remote : Option (Option DeliveryState)) :
    (∃ resuming, resumeDelivery store message remote = (some resuming, store) ∧
        resuming.sender = some message.sender) ∨
      ∃ state, resumeDelivery store message remote =
        (none, store.resolve message.sender (.ok state)) := by
  simp only [resumeDelivery]
  split
  all_goals first
    | exact .inl ⟨_, rfl, rfl⟩
    | exact .inr ⟨_, rfl⟩
    | (split_ifs <;> exact .inl ⟨_, rfl, rfl⟩)

/-- The deliveries that are resumed are those of the local map, in order, less those that are over. -/
theorem resumeDeliveries_senders (store : LinkStore)
    (localMap : List (DeliveryTag × UnsettledMessage))
    (remoteMap : OrderedMap DeliveryTag (Option DeliveryState)) :
    ((resumeDeliveries store localMap remoteMap).1.filterMap fun entry => entry.2.sender).Sublist
      (localMap.map fun entry => entry.2.sender) := by
  induction localMap generalizing store remoteMap with
  | nil => exact List.Sublist.refl _
  | cons entry localMap ih =>
      obtain ⟨tag, message⟩ := entry
      simp only [resumeDeliveries, List.map_cons]
      rcases resumeDelivery_cases store message (IndexMap.lookupEntries tag remoteMap) with
        ⟨resuming, hresume, hsender⟩ | ⟨state, hresume⟩
      · simp only [hresume, List.filterMap_cons, hsender]
        exact (ih _ _).cons_cons _
      · simp only [hresume]
        exact (ih _ _).cons _

theorem resumeDeliveries_nil (store : LinkStore) (localMap : List (DeliveryTag × UnsettledMessage)) :
    (resumeDeliveries store localMap []).2.1 = [] := by
  induction localMap generalizing store with
  | nil => rfl
  | cons entry localMap ih => exact ih _

theorem abortUnknown_senders (remoteMap : OrderedMap DeliveryTag (Option DeliveryState)) :
    ((abortUnknown remoteMap).filterMap fun entry => entry.2.sender) = [] := by
  simp [abortUnknown, ResumingDelivery.sender]

namespace LinkStore

/-- The four cases are one: a map that is null is an empty one. -/
theorem handleUnsettledInAttach_eq (store : LinkStore) (link : LinkId)
    (remoteUnsettled : Option (OrderedMap DeliveryTag (Option DeliveryState))) :
    store.handleUnsettledInAttach link remoteUnsettled =
      let localMap := (store.cell link).senderUnsettled.elim [] (·.entries)
      let remoteMap := remoteUnsettled.getD []
      let taken := store.takeSenderUnsettled link
      if localMap.isEmpty && remoteMap.isEmpty then (none, taken)
      else
        let (deliveries, unknown, store) := resumeDeliveries taken localMap remoteMap
        (some (deliveries ++ abortUnknown unknown), store) := by
  simp only [handleUnsettledInAttach]
  cases (store.cell link).senderUnsettled with
  | none =>
      cases remoteUnsettled with
      | none => rfl
      | some remoteMap => rfl
  | some localMap =>
      cases remoteUnsettled with
      | none =>
          simp only [Option.elim_some, Option.getD_none, List.isEmpty_nil, Bool.and_true,
            resumeDeliveries_nil, abortUnknown, List.map_nil, List.append_nil]
      | some remoteMap => rfl

theorem handleUnsettledInAttach_isNone (store : LinkStore) (link : LinkId)
    (remoteUnsettled : Option (OrderedMap DeliveryTag (Option DeliveryState))) :
    (store.handleUnsettledInAttach link remoteUnsettled).1.isNone =
      ((unsettledSenders (store.cell link).senderUnsettled).isEmpty &&
        (remoteUnsettled.getD []).isEmpty) := by
  rw [handleUnsettledInAttach_eq]
  simp only [unsettledSenders, List.isEmpty_map]
  split_ifs with hempty
  · exact hempty.symm
  · simpa using hempty

theorem handleUnsettledInAttach_senders {store store' : LinkStore} {link : LinkId}
    {remoteUnsettled : Option (OrderedMap DeliveryTag (Option DeliveryState))}
    {deliveries : List (DeliveryTag × ResumingDelivery)}
    (h : store.handleUnsettledInAttach link remoteUnsettled = (some deliveries, store')) :
    (deliveries.filterMap fun entry => entry.2.sender).Sublist
      (unsettledSenders (store.cell link).senderUnsettled) := by
  rw [handleUnsettledInAttach_eq] at h
  dsimp only at h
  split_ifs at h
  · simp at h
  · rw [Prod.mk.injEq, Option.some.injEq] at h
    rw [← h.1, List.filterMap_append, abortUnknown_senders, List.append_nil]
    exact resumeDeliveries_senders _ _ _

end LinkStore

/-- The kind of the exchange, by the state that the incoming Attach led to. -/
def SenderAttachExchange.ofDeliveries (localState : LinkState) :
    Option (List (DeliveryTag × ResumingDelivery)) → SenderAttachExchange
  | none => .complete
  | some deliveries =>
      match localState with
      | .incompleteAttachReceived | .incompleteAttachSent | .incompleteAttachExchanged =>
          .incompleteUnsettled deliveries
      | _ => .resume deliveries

inductive ReceiverAttachExchange where
  | complete | incompleteUnsettled | resume
deriving DecidableEq, Repr

/-- `handle_unsettled_in_attach` of a receiver. -/
def ReceiverAttachExchange.ofUnsettled (localState : LinkState)
    (remoteUnsettled : Option (OrderedMap DeliveryTag (Option DeliveryState))) :
    ReceiverAttachExchange :=
  if (remoteUnsettled.getD []).isEmpty then .complete
  else
    match localState with
    | .incompleteAttachReceived | .incompleteAttachSent | .incompleteAttachExchanged =>
        .incompleteUnsettled
    | _ => .resume

end Fe2o3Amqp
