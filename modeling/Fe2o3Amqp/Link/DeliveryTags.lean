import Fe2o3Amqp.Link.Resume
import Fe2o3Amqp.Link.SendCancel
import Fe2o3Amqp.Session.LinkEffects
import Fe2o3Amqp.Util.Except

/-!
# Delivery tags

A sender takes the tag of a delivery from its delivery count.  A send reads the count before it counts
the delivery; the rollback that a dropped transaction sends on its control link reads it afterwards,
so that it takes the tag of the next send.
-/

namespace Fe2o3Amqp

/-- `rollback_on_drop` between its accesses to the state that it shares with the relay. -/
inductive RollbackPhase where
  /-- The credit is consumed, the tag is not read yet. -/
  | consumed (payload : Payload) (channel : OneshotId)
  /-- The transfer is with the session, the delivery is not registered yet. -/
  | handedOver (deliveryTag : DeliveryTag) (message : UnsettledMessage)

/-- A sender with the relay's side of its link.  What follows `relayMode` only watches: the count
without its bound, what it was when a tag was last read from it, and the tag that a rollback has read
if the count has not moved since. -/
structure TaggedSender where
  task : SendTask
  rollback : Option RollbackPhase
  relayHandle : OutputHandle
  relayMode : ReceiverSettleMode
  counted : Nat
  readAt : DeliveryTag → Nat
  ahead : Option DeliveryTag

inductive TagEvent where
  | send (request : SendRequest)
  | poll
  /-- The future of the send is dropped. -/
  | cancel
  | closeWriter
  | closeIncoming
  /-- The session's relay handles a flow, a disposition or a detach of the peer. -/
  | relay (action : RelayAction)
  /-- A transaction is dropped while no send holds the link; its discharge is encoded. -/
  | rollback (payload : Payload) (channel : OneshotId)
  /-- The rollback goes on; `locked` is the failure of a `try_read` or `try_write`, `full` that of the
  `try_send`. -/
  | handOver (locked full : Bool)
  | register (locked : Bool)

def Settlement.channel : Settlement → Option OneshotId
  | .settled _ => none
  | .unsettled _ channel => some channel

def SendTask.deliveryCount (t : SendTask) : UInt32 := t.cell.flowState.deliveryCount

/-- The entry of the unsettled map. -/
def SendTask.unsettled (t : SendTask) (tag : DeliveryTag) : Option UnsettledMessage :=
  t.store.unsettled t.id tag

/-- `delivery_count.to_be_bytes()`. -/
def tagOf (deliveryCount : UInt32) : DeliveryTag := BigEndian.encode 4 deliveryCount.toNat

/-- The send is about to take a tag. -/
def SendTask.Draws (t : SendTask) : Prop :=
  (∃ request, t.future = some (.credit request)) ∧ t.cell.incoming = [] ∧
    t.incomingClosed = false ∧ 1 ≤ t.cell.flowState.linkCredit ∧ t.link.outputHandle.isSome

namespace TaggedSender

def relay (w : TaggedSender) : LinkRelay OutputHandle :=
  .sender w.task.id w.relayHandle w.relayMode

/-- The task goes on, and the count with it. -/
def track (w : TaggedSender) (task : SendTask) : TaggedSender :=
  { w with
    task
    counted := w.counted + (task.deliveryCount - w.task.deliveryCount).toNat
    ahead := if task.deliveryCount = w.task.deliveryCount then w.ahead else none }

/-- A tag is read from the count of the task. -/
def read (w : TaggedSender) (t : SendTask) : DeliveryTag → Nat :=
  Function.update w.readAt (tagOf t.deliveryCount) w.counted

/-- `try_consume` of `rollback_on_drop`. -/
def startRollback (w : TaggedSender) (payload : Payload) (channel : OneshotId) : TaggedSender :=
  match w.task.cell.flowState.consumeLinkCredit 1 with
  | none => w
  | some (_, flowState) =>
      { w.track (w.task.withCell fun cell => { cell with flowState }) with
        rollback := some (.consumed payload channel) }

/-- `rollback_on_drop` from the credit to the hand-over of the transfer. -/
def handOver (w : TaggedSender) (payload : Payload) (channel : OneshotId) (locked full : Bool) :
    TaggedSender × List LinkFrame :=
  let ended := { w with rollback := none }
  match w.task.link.inputHandle, w.task.link.outputHandle with
  | some inputHandle, some handle =>
      if locked then (ended, [])
      else
        let deliveryTag := tagOf w.task.deliveryCount
        let transfer : Transfer :=
          { handle := handle.handle
            deliveryId := none
            deliveryTag := some deliveryTag
            messageFormat := some 0
            settled := some false
            more := false
            rcvSettleMode := none
            state := none
            resume := false
            aborted := false
            batchable := false }
        match w.task.cell.incoming with
        | _ :: incoming =>
            ({ ended with task := w.task.withCell fun cell => { cell with incoming } }, [])
        | [] =>
            if w.task.incomingClosed || w.task.writerClosed || full then (ended, [])
            else
              ({ w with
                  rollback := some (.handedOver deliveryTag
                    { payload, state := none, messageFormat := 0, sender := channel })
                  readAt := w.read w.task
                  ahead := some deliveryTag },
                [.firstTransfer ⟨inputHandle, transfer, payload⟩])
  | _, _ => (ended, [])

/-- `rollback_on_drop` registers its delivery behind the hand-over. -/
def register (w : TaggedSender) (deliveryTag : DeliveryTag) (message : UnsettledMessage)
    (locked : Bool) : TaggedSender :=
  if locked then { w with rollback := none }
  else
    { w with
      rollback := none
      task := w.task.withCell fun cell =>
        { cell with
          senderUnsettled := some ((cell.senderUnsettled.getD IndexMap.empty).insert deliveryTag
            message) } }

/-- One event, and the frames that it hands to the session.  Sends and rollbacks hold the link
exclusively. -/
def step (w : TaggedSender) : TagEvent → TaggedSender × List LinkFrame
  | .send request =>
      if w.task.future.isSome || w.rollback.isSome then (w, [])
      else ({ w with task := w.task.send request }, [])
  | .poll =>
      let (task, frames) := w.task.poll
      ({ w.track task with
          readAt := if task.deliveryCount = w.task.deliveryCount then w.readAt else w.read w.task },
        frames)
  | .cancel => ({ w with task := w.task.drop }, [])
  | .closeWriter => ({ w with task := { w.task with writerClosed := true } }, [])
  | .closeIncoming => ({ w with task := { w.task with incomingClosed := true } }, [])
  | .relay action => (w.track { w.task with store := action.apply w.relay w.task.store }, [])
  | .rollback payload channel =>
      if w.task.future.isSome || w.rollback.isSome then (w, []) else (w.startRollback payload channel, [])
  | .handOver locked full =>
      match w.rollback with
      | some (.consumed payload channel) => w.handOver payload channel locked full
      | _ => (w, [])
  | .register locked =>
      match w.rollback with
      | some (.handedOver deliveryTag message) => (w.register deliveryTag message locked, [])
      | _ => (w, [])

/-- A new sender, its link in any state but without unsettled deliveries. -/
def start (link : SenderLink) (id : LinkId) (store : LinkStore) (relayHandle : OutputHandle)
    (relayMode : ReceiverSettleMode) : TaggedSender where
  task :=
    { link, id, store := store.modify id fun cell => { cell with senderUnsettled := none }
      writerClosed := false, incomingClosed := false, future := none, returned := none }
  rollback := none
  relayHandle
  relayMode
  counted := (store.cell id).flowState.deliveryCount.toNat
  readAt := fun _ => 0
  ahead := none

/-- The outcome channel of the delivery that a send is handing over. -/
def inHand (w : TaggedSender) : Option OneshotId :=
  match w.task.future with
  | some (.transferring _ _ settlement) => settlement.channel
  | _ => none

/-- The tag that a frame carries for the session. -/
def frameTag : LinkFrame → Option DeliveryTag
  | .firstTransfer frame | .transferContinuation frame => frame.performative.deliveryTag
  | _ => none

/-- No entry of the unsettled map is overwritten by another delivery's, and no transfer is handed over
with the tag of an entry other than its own. -/
structure KeepsApart (w : TaggedSender) (e : TagEvent) : Prop where
  kept : ∀ tag message message', w.task.unsettled tag = some message →
    (w.step e).1.task.unsettled tag = some message' → message'.sender = message.sender
  handed : ∀ frame ∈ (w.step e).2, ∀ tag, frameTag frame = some tag →
    ∀ message, w.task.unsettled tag = some message → w.inHand = some message.sender

/-- No delivery is unsettled since the count stood a multiple of its range lower. -/
def NoneOld (w : TaggedSender) : Prop :=
  ∀ tag, (w.task.unsettled tag).isSome → w.counted % 2 ^ 32 = w.readAt tag % 2 ^ 32 →
    w.counted = w.readAt tag

/-- No send takes a tag while the discharge of a dropped transaction, behind which the count has not
moved, is unsettled; and no tag is taken while a delivery is unsettled since the count stood a
multiple of its range lower. -/
def TagFree (w : TaggedSender) : TagEvent → Prop
  | .poll => w.task.Draws → (∀ tag, w.ahead = some tag → w.task.unsettled tag = none) ∧ w.NoneOld
  | .handOver _ _ => w.NoneOld
  | _ => True

theorem tagOf_injective {a b : UInt32} (h : tagOf a = tagOf b) : a = b := by
  rw [← BigEndian.ofNat_decode_uint32 a, ← BigEndian.ofNat_decode_uint32 b]
  simp only [tagOf] at h
  rw [h]

/-! ## What a send does to the unsettled map -/

/-- The task keeps no entry that was not there, and hands over no other delivery. -/
structure Follows (t t' : SendTask) : Prop where
  unsettled : ∀ tag message', t'.unsettled tag = some message' →
    ∃ message, t.unsettled tag = some message ∧ message.sender = message'.sender
  future : ∀ split registered settlement,
    t'.future = some (.transferring split registered settlement) →
      ∃ before registered', t.future = some (.transferring before registered' settlement) ∧
        (split.transfer.deliveryTag = none ∨
          split.transfer.deliveryTag = before.transfer.deliveryTag)

namespace Follows

variable {t t' t'' : SendTask}

theorem future_of_eq (hfuture : t'.future = none ∨ t'.future = t.future) :
    ∀ split registered settlement,
      t'.future = some (.transferring split registered settlement) →
        ∃ before registered', t.future = some (.transferring before registered' settlement) ∧
          (split.transfer.deliveryTag = none ∨
            split.transfer.deliveryTag = before.transfer.deliveryTag) := by
  intro split registered settlement h
  rcases hfuture with hnone | hsame
  · rw [hnone] at h
    cases h
  · rw [hsame] at h
    exact ⟨split, registered, h, .inr rfl⟩

theorem of_unsettled (hunsettled : ∀ tag, t'.unsettled tag = t.unsettled tag)
    (hfuture : t'.future = none ∨ t'.future = t.future) : Follows t t' := by
  refine ⟨fun tag message' h => ?_, future_of_eq hfuture⟩
  rw [hunsettled] at h
  exact ⟨message', h, rfl⟩

theorem of_shrinksTo (h : t.store.ShrinksTo t'.store) (hid : t'.id = t.id)
    (hfuture : t'.future = none ∨ t'.future = t.future) : Follows t t' := by
  refine ⟨fun tag message' hafter => ?_, future_of_eq hfuture⟩
  rw [SendTask.unsettled, hid] at hafter
  exact h t.id tag message' hafter

end Follows

/-- A change of the cell that leaves the map. -/
theorem unsettled_withCell (t : SendTask) (f : LinkCell → LinkCell)
    (hf : (f t.cell).senderUnsettled = t.cell.senderUnsettled) (tag : DeliveryTag) :
    (t.withCell f).unsettled tag = t.unsettled tag := by
  simp only [SendTask.unsettled, SendTask.withCell, LinkStore.unsettled_modify, if_true]
  simp only [SendTask.cell] at hf
  rw [hf]
  rfl

theorem unsettled_withdraw (t : SendTask) (registered : Option DeliveryTag) (tag : DeliveryTag) :
    (t.withdraw registered).unsettled tag = if registered = some tag then none else t.unsettled tag := by
  cases registered with
  | none => simp [SendTask.withdraw]
  | some tag' =>
      simp only [SendTask.withdraw, SendTask.unsettled, SendTask.withCell, LinkStore.unsettled_modify,
        if_true, Option.some.injEq]
      simp only [LinkStore.unsettled]
      cases (t.store.cell t.id).senderUnsettled with
      | none => simp
      | some m =>
          by_cases htag : tag' = tag
          · simp [htag, IndexMap.get_swapRemove]
          · simp [htag, Ne.symm htag, IndexMap.get_swapRemove]

theorem unsettled_insert (t : SendTask) (tag : DeliveryTag) (message : UnsettledMessage)
    (tag' : DeliveryTag) :
    (t.withCell fun cell => { cell with
      senderUnsettled := some ((cell.senderUnsettled.getD IndexMap.empty).insert tag message) }).unsettled
        tag' = if tag' = tag then some message else t.unsettled tag' := by
  simp only [SendTask.unsettled, SendTask.withCell, LinkStore.unsettled_modify, if_true,
    Option.bind_some, IndexMap.get_insert]
  simp only [LinkStore.unsettled]
  cases (t.store.cell t.id).senderUnsettled with
  | none => simp
  | some m => rfl

theorem follows_withdraw (t : SendTask) (registered : Option DeliveryTag) {t' : SendTask}
    (hstore : t'.store = (t.withdraw registered).store) (hid : t'.id = t.id)
    (hfuture : t'.future = none) : Follows t t' := by
  constructor
  · intro tag message' h
    have hsame : t'.unsettled tag = (t.withdraw registered).unsettled tag := by
      have hid' : (t.withdraw registered).id = t.id := by cases registered <;> rfl
      rw [SendTask.unsettled, SendTask.unsettled, hstore, hid, hid']
    rw [hsame, unsettled_withdraw] at h
    split_ifs at h
    exact ⟨message', h, rfl⟩
  · intro split registered settlement h
    rw [hfuture] at h
    cases h

/-- The delivery with the tag is registered, if it is, by the send that hands it over. -/
structure Registers (t t' : SendTask) (tag : DeliveryTag) : Prop where
  others : ∀ tag', tag' ≠ tag → t'.unsettled tag' = t.unsettled tag'
  future : ∀ split registered settlement,
    t'.future = some (.transferring split registered settlement) →
      split.transfer.deliveryTag = some tag ∧
        ∀ message, t'.unsettled tag = some message → settlement.channel = some message.sender

theorem deliveryCount_withCell (t : SendTask) (f : LinkCell → LinkCell)
    (hf : (f t.cell).flowState = t.cell.flowState) :
    (t.withCell f).deliveryCount = t.deliveryCount := by
  simp only [SendTask.cell] at hf
  simp [SendTask.deliveryCount, SendTask.cell, SendTask.withCell, LinkStore.modify, hf]

theorem deliveryCount_withdraw (t : SendTask) (registered : Option DeliveryTag) :
    (t.withdraw registered).deliveryCount = t.deliveryCount := by
  cases registered with
  | none => rfl
  | some tag => exact deliveryCount_withCell t _ rfl

theorem sendPayloadWithTransfer_deliveryCount (t : SendTask) (transfer : Transfer)
    (tag : DeliveryTag) (request : SendRequest) :
    (t.sendPayloadWithTransfer transfer tag request).deliveryCount = t.deliveryCount := by
  simp only [SendTask.sendPayloadWithTransfer]
  generalize hregistered : (if t.link.isSettledOnSend transfer = true then t else _) = t₁
  have hcount : t₁.deliveryCount = t.deliveryCount := by
    rw [← hregistered]
    split_ifs
    · rfl
    · exact deliveryCount_withCell t _ rfl
  split
  · exact (deliveryCount_withdraw t₁ _).trans hcount
  · exact hcount

theorem sendPayloadWithTransfer_registers (t : SendTask) {transfer : Transfer} {tag : DeliveryTag}
    (request : SendRequest) (htag : transfer.deliveryTag = some tag) (hfree : t.unsettled tag = none) :
    Registers t (t.sendPayloadWithTransfer transfer tag request) tag := by
  have hstart : ∀ {link : SenderLink} {split : TransferSplit},
      link.startTransfer transfer request.payload = .ok split → split.transfer = transfer := by
    intro link split hsplit
    simp only [SenderLink.startTransfer] at hsplit
    split at hsplit
    · cases hsplit
    · obtain ⟨maxPayload, -, hsplit⟩ := Except.bind_eq_ok.mp hsplit
      cases hsplit
      rfl
  simp only [SendTask.sendPayloadWithTransfer]
  by_cases hsettled : t.link.isSettledOnSend transfer
  · simp only [hsettled, if_true]
    cases hsplit : t.link.startTransfer transfer request.payload with
    | error failure =>
        refine ⟨fun _ _ => rfl, fun _ _ _ h => ?_⟩
        cases h
    | ok split =>
        refine ⟨fun _ _ => rfl, ?_⟩
        rintro _ _ _ ⟨⟩
        refine ⟨by rw [hstart hsplit, htag], fun message h => ?_⟩
        have hnone : t.unsettled tag = some message := h
        rw [hfree] at hnone
        cases hnone
  · simp only [hsettled, Bool.false_eq_true, if_false]
    generalize hregistered : t.withCell (fun cell => { cell with
      senderUnsettled := some ((cell.senderUnsettled.getD IndexMap.empty).insert tag
        { payload := request.payload, state := none, messageFormat := request.messageFormat
          sender := request.channel }) }) = t₁
    have hafter : ∀ tag', t₁.unsettled tag' = if tag' = tag then some
        { payload := request.payload, state := none, messageFormat := request.messageFormat
          sender := request.channel } else t.unsettled tag' := by
      intro tag'
      rw [← hregistered, unsettled_insert]
    cases hsplit : t₁.link.startTransfer transfer request.payload with
    | error failure =>
        refine ⟨fun tag' hne => ?_, fun _ _ _ h => ?_⟩
        · have hwithdrawn : ((t₁.withdraw (some tag)).finish (.error failure)).unsettled tag' =
              (t₁.withdraw (some tag)).unsettled tag' := rfl
          rw [hwithdrawn, unsettled_withdraw, hafter, if_neg hne, if_neg (by simpa using Ne.symm hne)]
        · cases h
    | ok split =>
        refine ⟨fun tag' hne => ?_, ?_⟩
        · have hsame : t₁.unsettled tag' = t.unsettled tag' := by rw [hafter, if_neg hne]
          exact hsame
        · rintro _ _ _ ⟨⟩
          refine ⟨by rw [hstart hsplit, htag], fun message h => ?_⟩
          have hown : t₁.unsettled tag = some message := h
          rw [hafter, if_pos rfl] at hown
          cases hown
          rfl

theorem pollCredit_cases (t : SendTask) (request : SendRequest)
    (hfuture : t.future = some (.credit request)) :
    (Follows t (t.pollCredit request) ∧
        ((t.pollCredit request).deliveryCount = t.deliveryCount ∨
          (t.pollCredit request).deliveryCount = t.deliveryCount + 1)) ∨
      (t.Draws ∧ (t.pollCredit request).deliveryCount = t.deliveryCount + 1 ∧
        (t.unsettled (tagOf t.deliveryCount) = none →
          Registers t (t.pollCredit request) (tagOf t.deliveryCount))) := by
  -- a task whose cell is changed beside the map, and whose send is over
  have hover : ∀ (f : LinkCell → LinkCell) (t' : SendTask),
      (f t.cell).senderUnsettled = t.cell.senderUnsettled →
      ((f t.cell).flowState.deliveryCount = t.deliveryCount ∨
        (f t.cell).flowState.deliveryCount = t.deliveryCount + 1) →
      t'.store = (t.withCell f).store → t'.id = t.id → t'.future = none →
        Follows t t' ∧
          (t'.deliveryCount = t.deliveryCount ∨ t'.deliveryCount = t.deliveryCount + 1) := by
    intro f t' hf hcount hstore hid hnone
    constructor
    · refine .of_unsettled (fun tag => ?_) (.inl hnone)
      rw [← unsettled_withCell t f hf tag, SendTask.unsettled, SendTask.unsettled, hstore, hid]
      rfl
    · have hsame : t'.deliveryCount = (f t.cell).flowState.deliveryCount := by
        simp [SendTask.deliveryCount, SendTask.cell, hstore, hid, SendTask.withCell, LinkStore.modify]
      rw [hsame]
      exact hcount
  simp only [SendTask.pollCredit]
  split
  · next detach incoming hincoming =>
      exact .inl (hover (fun cell => { cell with incoming }) _ rfl (.inl rfl) rfl rfl rfl)
  · next frame incoming hframe hincoming =>
      exact .inl (hover (fun cell => { cell with incoming }) _ rfl (.inl rfl) rfl rfl rfl)
  · next hincoming =>
      split_ifs with hclosed
      · exact .inl ⟨.of_unsettled (fun _ => rfl) (.inl rfl), .inl rfl⟩
      · cases hconsume : t.cell.flowState.consumeLinkCredit 1 with
        | none => exact .inl ⟨.of_unsettled (fun _ => rfl) (.inr rfl), .inl rfl⟩
        | some consumed =>
            obtain ⟨deliveryTag, flowState⟩ := consumed
            obtain ⟨hcredit, htag, hcounted⟩ : 1 ≤ t.cell.flowState.linkCredit ∧
                deliveryTag = tagOf t.deliveryCount ∧
                  flowState.deliveryCount = t.deliveryCount + 1 := by
              simp only [LinkFlowStateInner.consumeLinkCredit] at hconsume
              split_ifs at hconsume with hless
              cases hconsume
              exact ⟨UInt32.not_lt.mp hless, rfl, rfl⟩
            subst htag
            dsimp only
            have hlink : (t.withCell fun cell => { cell with flowState }).link = t.link := rfl
            rw [hlink]
            cases hperformative : t.link.generateNonResumingTransferPerformative
              (tagOf t.deliveryCount) request.messageFormat request.settled request.state
              request.batchable with
            | error error =>
                exact .inl (hover (fun cell => { cell with flowState }) _ rfl (.inr hcounted) rfl
                  rfl rfl)
            | ok transfer =>
                right
                obtain ⟨htransfer, hhandle⟩ : transfer.deliveryTag = some (tagOf t.deliveryCount) ∧
                    t.link.outputHandle.isSome := by
                  simp only [SenderLink.generateNonResumingTransferPerformative] at hperformative
                  split at hperformative
                  · cases hperformative
                  · next hsome =>
                      cases hperformative
                      exact ⟨rfl, by simp [hsome]⟩
                have hsame : ∀ tag, (t.withCell fun cell => { cell with flowState }).unsettled tag =
                    t.unsettled tag := unsettled_withCell t _ rfl
                refine ⟨⟨⟨request, hfuture⟩, hincoming, by simpa using hclosed, hcredit, hhandle⟩,
                  ?_, fun hfree => ?_⟩
                · rw [sendPayloadWithTransfer_deliveryCount]
                  simpa [SendTask.deliveryCount, SendTask.cell, SendTask.withCell, LinkStore.modify]
                    using hcounted
                · have hregisters := sendPayloadWithTransfer_registers
                    (t.withCell fun cell => { cell with flowState }) request htransfer
                    ((hsame _).trans hfree)
                  exact ⟨fun tag' hne => (hregisters.others tag' hne).trans (hsame tag'),
                    hregisters.future⟩

theorem frameTag_next (split : TransferSplit) :
    frameTag split.next.1 = split.transfer.deliveryTag := by
  simp only [TransferSplit.next, TransferSplit.frame]
  split_ifs <;> rfl

/-- What is left of a split has the same tag, or none. -/
theorem next_deliveryTag {split rest : TransferSplit} (h : split.next.2 = some rest) :
    rest.transfer.deliveryTag = none ∨ rest.transfer.deliveryTag = split.transfer.deliveryTag := by
  simp only [TransferSplit.next] at h
  split_ifs at h with hmore hfirst
  · cases h
    exact .inl rfl
  · cases h
    exact .inr rfl

/-- Any other await point: the entries stay or one is withdrawn, and a frame carries the tag of the
delivery that is being handed over, if any. -/
theorem poll_follows (t : SendTask) (hfuture : ∀ request, t.future ≠ some (.credit request)) :
    Follows t t.poll.1 ∧ t.poll.1.deliveryCount = t.deliveryCount ∧
      ∀ frame ∈ t.poll.2, ∃ split registered settlement,
        t.future = some (.transferring split registered settlement) ∧
          frameTag frame = split.transfer.deliveryTag := by
  have hquiet : ∀ t' : SendTask, t'.store = t.store → t'.id = t.id →
      (t'.future = none ∨ t'.future = t.future) → Follows t t' ∧ t'.deliveryCount = t.deliveryCount := by
    intro t' hstore hid hnext
    refine ⟨.of_unsettled (fun tag => ?_) hnext, ?_⟩
    · rw [SendTask.unsettled, SendTask.unsettled, hstore, hid]
    · rw [SendTask.deliveryCount, SendTask.deliveryCount, SendTask.cell, SendTask.cell, hstore, hid]
  simp only [SendTask.poll]
  split
  · exact ⟨(hquiet t rfl rfl (.inr rfl)).1, rfl, by simp⟩
  · next request hcredit => exact absurd hcredit (hfuture request)
  · next split registered settlement htransferring =>
      simp only [SendTask.pollTransfer]
      split_ifs
      · refine ⟨follows_withdraw t registered rfl ?_ rfl, deliveryCount_withdraw t registered, by simp⟩
        cases registered <;> rfl
      · have hframe := frameTag_next split
        have hrest := fun rest => @next_deliveryTag split rest
        cases hnext : split.next with
        | mk frame rest =>
            rw [hnext] at hframe hrest
            cases rest with
            | some rest =>
                refine ⟨⟨fun tag message' h => ⟨message', h, rfl⟩, ?_⟩, rfl, ?_⟩
                · rintro _ _ _ ⟨⟩
                  exact ⟨split, _, htransferring, hrest rest rfl⟩
                · simp [htransferring, hframe]
            | none =>
                cases settlement with
                | settled tag =>
                    obtain ⟨hfollows, hcount⟩ := hquiet (t.finish (.ok (.settled tag))) rfl rfl (.inl rfl)
                    exact ⟨hfollows, hcount, by simp [htransferring, hframe]⟩
                | unsettled tag channel =>
                    refine ⟨⟨fun tag message' h => ⟨message', h, rfl⟩, fun _ _ _ h => ?_⟩, rfl, ?_⟩
                    · cases h
                    · simp [htransferring, hframe]
  · split_ifs
    · next tag channel houtcome _ =>
        obtain ⟨hfollows, hcount⟩ := hquiet (t.finish (.ok (.unsettled tag channel))) rfl rfl (.inl rfl)
        exact ⟨hfollows, hcount, by simp⟩
    · exact ⟨(hquiet t rfl rfl (.inr rfl)).1, rfl, by simp⟩

/-! ## Where the tags of unsettled deliveries come from -/

variable {w : TaggedSender}

/-- The tag was read from the count, and where the count has not moved since, by a rollback. -/
structure Known (w : TaggedSender) (tag : DeliveryTag) : Prop where
  read : tag = tagOf (UInt32.ofNat (w.readAt tag))
  le : w.readAt tag ≤ w.counted
  ahead : w.readAt tag = w.counted → w.ahead = some tag

structure Sound (w : TaggedSender) : Prop where
  count : w.task.deliveryCount = UInt32.ofNat w.counted
  known : ∀ tag, (w.task.unsettled tag).isSome → w.Known tag
  transferring : ∀ split registered settlement,
    w.task.future = some (.transferring split registered settlement) →
      ∀ tag, split.transfer.deliveryTag = some tag →
        ∀ message, w.task.unsettled tag = some message → settlement.channel = some message.sender
  consumed : ∀ payload channel, w.rollback = some (.consumed payload channel) → w.ahead = none
  handedOver : ∀ tag message, w.rollback = some (.handedOver tag message) →
    w.task.unsettled tag = none ∧ w.Known tag
  exclusive : w.rollback.isSome → w.task.future = none

theorem sound_start (link : SenderLink) (id : LinkId) (store : LinkStore)
    (relayHandle : OutputHandle) (relayMode : ReceiverSettleMode) :
    (start link id store relayHandle relayMode).Sound := by
  have hnone : ∀ tag, (start link id store relayHandle relayMode).task.unsettled tag = none := by
    intro tag
    simp [start, SendTask.unsettled, LinkStore.unsettled_modify]
  constructor
  · simp [start, SendTask.deliveryCount, SendTask.cell, LinkStore.modify]
  · intro tag hsome
    rw [hnone] at hsome
    cases hsome
  · rintro _ _ _ ⟨⟩
  · rintro _ _ ⟨⟩
  · rintro _ _ ⟨⟩
  · rintro ⟨⟩

/-- The tag that is read next is not in the map. -/
theorem Sound.free (h : w.Sound) (hold : w.NoneOld)
    (hahead : ∀ tag, w.ahead = some tag → w.task.unsettled tag = none) :
    w.task.unsettled (tagOf w.task.deliveryCount) = none := by
  by_contra hne
  have hsome := Option.isSome_iff_ne_none.mpr hne
  have hknown := h.known _ hsome
  have hcount := tagOf_injective hknown.read
  rw [h.count] at hcount
  have hmod : w.counted % 2 ^ 32 = w.readAt (tagOf w.task.deliveryCount) % 2 ^ 32 := by
    have htoNat := congrArg UInt32.toNat hcount
    rw [h.count]
    simpa using htoNat
  exact hne (hahead _ (hknown.ahead (hold _ hsome hmod).symm))

theorem track_counted (h : w.Sound) (task : SendTask) :
    task.deliveryCount = UInt32.ofNat (w.track task).counted := by
  simp only [track]
  rw [UInt32.ofNat_add, ← h.count, UInt32.ofNat_toNat, UInt32.add_comm, UInt32.sub_add_cancel]

theorem Known.track {tag : DeliveryTag} (h : w.Known tag) (task : SendTask) : (w.track task).Known tag := by
  refine ⟨h.read, le_trans h.le (Nat.le_add_right _ _), fun heq => ?_⟩
  have hzero : (task.deliveryCount - w.task.deliveryCount).toNat = 0 := by
    have hle := h.le
    simp only [TaggedSender.track] at heq
    omega
  have hsame : task.deliveryCount = w.task.deliveryCount := by
    have hdiff : task.deliveryCount - w.task.deliveryCount = 0 := UInt32.toNat_inj.mp hzero
    rw [UInt32.sub_eq_iff_eq_add.mp hdiff, UInt32.zero_add]
  simp only [TaggedSender.track, hsame, UInt32.sub_self, if_true] at heq ⊢
  exact h.ahead heq

/-- A task that follows the one before keeps everything. -/
theorem Sound.track (h : w.Sound) {task : SendTask} (hfollows : Follows w.task task)
    (hexclusive : w.rollback.isSome → task.future = none) : (w.track task).Sound := by
  constructor
  · exact track_counted h task
  · intro tag hsome
    obtain ⟨message', hafter⟩ := Option.isSome_iff_exists.mp hsome
    obtain ⟨message, hbefore, -⟩ := hfollows.unsettled tag message' hafter
    exact (h.known tag (by rw [hbefore]; rfl)).track task
  · intro split registered settlement hfuture tag htag message' hafter
    obtain ⟨before, registered', hbefore, htags⟩ := hfollows.future split registered settlement hfuture
    obtain ⟨message, hold, hsender⟩ := hfollows.unsettled tag message' hafter
    rcases htags with hnone | hsame
    · rw [hnone] at htag
      cases htag
    · rw [← hsender]
      exact h.transferring before registered' settlement hbefore tag (hsame ▸ htag) message hold
  · intro payload channel hphase
    have hnone := h.consumed payload channel hphase
    simp [TaggedSender.track, hnone]
  · intro tag message hphase
    obtain ⟨hfree, hknown⟩ := h.handedOver tag message hphase
    refine ⟨?_, hknown.track task⟩
    cases hafter : (w.track task).task.unsettled tag with
    | none => rfl
    | some message' =>
        obtain ⟨message, hbefore, -⟩ := hfollows.unsettled tag message' hafter
        rw [hfree] at hbefore
        cases hbefore
  · exact hexclusive

theorem Follows.kept {t t' : SendTask} (h : Follows t t') {tag : DeliveryTag}
    {message message' : UnsettledMessage} (hbefore : t.unsettled tag = some message)
    (hafter : t'.unsettled tag = some message') :
    message'.sender = message.sender := by
  obtain ⟨original, horiginal, hsender⟩ := h.unsettled tag message' hafter
  rw [hbefore] at horiginal
  cases horiginal
  exact hsender.symm

theorem track_of_eq (w : TaggedSender) {task : SendTask}
    (hcount : task.deliveryCount = w.task.deliveryCount) : w.track task = { w with task } := by
  simp [track, hcount]

theorem Sound.withTask (h : w.Sound) {task : SendTask} (hfollows : Follows w.task task)
    (hcount : task.deliveryCount = w.task.deliveryCount)
    (hexclusive : w.rollback.isSome → task.future = none) : Sound { w with task } := by
  rw [← w.track_of_eq hcount]
  exact h.track hfollows hexclusive

/-- An event that hands nothing over and after which the task follows the one before. -/
theorem keepsApart_of_follows {e : TagEvent} (hfollows : Follows w.task (w.step e).1.task)
    (hsilent : (w.step e).2 = []) : w.KeepsApart e := by
  refine ⟨fun tag message message' hbefore hafter => hfollows.kept hbefore hafter, ?_⟩
  rw [hsilent]
  simp

theorem sub_succ (count : UInt32) : (count + 1 - count).toNat = 1 ∧ count + 1 ≠ count := by
  have hone : count + 1 - count = 1 := by
    rw [UInt32.add_comm, UInt32.add_sub_cancel]
  refine ⟨by rw [hone]; rfl, fun heq => ?_⟩
  rw [heq, UInt32.sub_self] at hone
  exact absurd hone (by decide)

/-- A send takes the tag of the count and moves it. -/
theorem Sound.draw (h : w.Sound) (hrollback : w.rollback = none) {task : SendTask}
    (hcount : task.deliveryCount = w.task.deliveryCount + 1)
    (hknown : ∀ tag, (task.unsettled tag).isSome → tag = tagOf w.task.deliveryCount ∨ w.Known tag)
    (htransferring : ∀ split registered settlement,
      task.future = some (.transferring split registered settlement) →
        ∀ tag, split.transfer.deliveryTag = some tag →
          ∀ message, task.unsettled tag = some message → settlement.channel = some message.sender) :
    Sound { w.track task with readAt := w.read w.task } := by
  obtain ⟨hone, hmoved⟩ := sub_succ w.task.deliveryCount
  have hcounted : (w.track task).counted = w.counted + 1 := by
    simp only [TaggedSender.track, hcount, hone]
  constructor
  · exact track_counted h task
  · intro tag hsome
    by_cases hread : tag = tagOf w.task.deliveryCount
    · have hat : w.read w.task tag = w.counted := by simp [read, hread]
      refine ⟨?_, ?_, fun heq => ?_⟩
      · simp only [hat, ← h.count]
        exact hread
      · simp only [hat, hcounted]
        omega
      · simp only [hat, hcounted] at heq
        omega
    · have hat : w.read w.task tag = w.readAt tag := Function.update_of_ne hread _ _
      rcases hknown tag hsome with heq | hknown
      · exact absurd heq hread
      · have hle := hknown.le
        refine ⟨?_, ?_, fun heq => ?_⟩
        · simp only [hat]
          exact hknown.read
        · simp only [hat, hcounted]
          omega
        · simp only [hat, hcounted] at heq
          omega
  · exact htransferring
  · intro payload channel hphase
    have hnone : w.rollback = some (.consumed payload channel) := hphase
    rw [hrollback] at hnone
    cases hnone
  · intro tag message hphase
    have hnone : w.rollback = some (.handedOver tag message) := hphase
    rw [hrollback] at hnone
    cases hnone
  · intro hphase
    have hsome : w.rollback.isSome := hphase
    rw [hrollback] at hsome
    cases hsome

theorem Sound.poll (h : w.Sound) (hfree : w.TagFree .poll) :
    (w.step .poll).1.Sound ∧ w.KeepsApart .poll := by
  by_cases hcredit : ∃ request, w.task.future = some (.credit request)
  · obtain ⟨request, hcredit⟩ := hcredit
    have hrollback : w.rollback = none := by
      cases hphase : w.rollback with
      | none => rfl
      | some phase =>
          have hnone := h.exclusive (by rw [hphase]; rfl)
          rw [hcredit] at hnone
          cases hnone
    have hpoll : w.task.poll = (w.task.pollCredit request, []) := by simp [SendTask.poll, hcredit]
    have hmoved := (sub_succ w.task.deliveryCount).2
    rcases pollCredit_cases w.task request hcredit with ⟨hfollows, hcount⟩ | ⟨hdraws, hcount, hregisters⟩
    · have hkept : w.KeepsApart .poll := by
        apply keepsApart_of_follows
        · simp only [step, hpoll]
          exact hfollows
        · simp only [step, hpoll]
      refine ⟨?_, hkept⟩
      simp only [step, hpoll]
      rcases hcount with hsame | hcount
      · rw [if_pos hsame]
        exact h.track hfollows (by simp [hrollback])
      · rw [hcount, if_neg hmoved]
        apply h.draw hrollback hcount
        · intro tag hsome
          obtain ⟨message', hafter⟩ := Option.isSome_iff_exists.mp hsome
          obtain ⟨message, hbefore, -⟩ := hfollows.unsettled tag message' hafter
          exact .inr (h.known tag (by rw [hbefore]; rfl))
        · intro split registered settlement hfuture
          obtain ⟨before, registered', hbefore, -⟩ := hfollows.future split registered settlement hfuture
          rw [hcredit] at hbefore
          cases hbefore
    · obtain ⟨hahead, hold⟩ := hfree hdraws
      have hnone := h.free hold hahead
      obtain ⟨hothers, hfuture⟩ := hregisters hnone
      constructor
      · simp only [step, hpoll]
        rw [hcount, if_neg hmoved]
        apply h.draw hrollback hcount
        · intro tag hsome
          by_cases hread : tag = tagOf w.task.deliveryCount
          · exact .inl hread
          · rw [hothers tag hread] at hsome
            exact .inr (h.known tag hsome)
        · intro split registered settlement htransferring tag htag message hafter
          obtain ⟨hown, hchannel⟩ := hfuture split registered settlement htransferring
          rw [hown] at htag
          cases htag
          exact hchannel message hafter
      · constructor
        · intro tag message message' hbefore hafter
          simp only [step, hpoll] at hafter
          have hne : tag ≠ tagOf w.task.deliveryCount := by
            rintro rfl
            rw [hnone] at hbefore
            cases hbefore
          have hsame : (w.task.pollCredit request).unsettled tag = some message' := hafter
          rw [hothers tag hne, hbefore] at hsame
          cases hsame
          rfl
        · simp only [step, hpoll]
          simp
  · obtain ⟨hfollows, hcount, hframes⟩ := poll_follows w.task fun request heq => hcredit ⟨request, heq⟩
    constructor
    · simp only [step]
      rw [if_pos hcount]
      apply h.track hfollows
      intro hphase
      simp [SendTask.poll, h.exclusive hphase]
    · constructor
      · intro tag message message' hbefore hafter
        exact hfollows.kept hbefore hafter
      · intro frame hmem tag htag message hbefore
        obtain ⟨split, registered, settlement, hfuture, hsame⟩ := hframes frame hmem
        rw [htag] at hsame
        simp only [inHand, hfuture]
        exact h.transferring split registered settlement hfuture tag hsame.symm message hbefore

/-! ## The rollback of a dropped transaction -/

theorem Sound.startRollback (h : w.Sound) (hfuture : w.task.future = none) (payload : Payload)
    (channel : OneshotId) :
    (w.startRollback payload channel).Sound ∧ Follows w.task (w.startRollback payload channel).task := by
  simp only [TaggedSender.startRollback]
  cases hconsume : w.task.cell.flowState.consumeLinkCredit 1 with
  | none => exact ⟨h, .of_unsettled (fun _ => rfl) (.inr rfl)⟩
  | some consumed =>
      obtain ⟨tag, flowState⟩ := consumed
      have hcounted : flowState.deliveryCount = w.task.deliveryCount + 1 := by
        simp only [LinkFlowStateInner.consumeLinkCredit] at hconsume
        split_ifs at hconsume
        cases hconsume
        rfl
      have hcount : (w.task.withCell fun cell => { cell with flowState }).deliveryCount =
          w.task.deliveryCount + 1 := by
        simpa [SendTask.deliveryCount, SendTask.cell, SendTask.withCell, LinkStore.modify] using hcounted
      have hfollows : Follows w.task (w.task.withCell fun cell => { cell with flowState }) :=
        .of_unsettled (unsettled_withCell w.task _ rfl) (.inr rfl)
      have htracked := h.track hfollows fun _ => hfuture
      dsimp only
      refine ⟨⟨htracked.count, fun tag hsome => ?_, htracked.transferring, fun _ _ _ => ?_, ?_,
        fun _ => hfuture⟩, hfollows⟩
      · have hknown := htracked.known tag hsome
        exact ⟨hknown.read, hknown.le, hknown.ahead⟩
      · -- the count has moved
        simp only [TaggedSender.track, hcount, if_neg (sub_succ w.task.deliveryCount).2]
      · rintro _ _ ⟨⟩

/-- A rollback that ends before its delivery is registered. -/
theorem Sound.ended (h : w.Sound) : Sound { w with rollback := none } := by
  refine ⟨h.count, fun tag hsome => ?_, h.transferring, ?_, ?_, ?_⟩
  · have hknown := h.known tag hsome
    exact ⟨hknown.read, hknown.le, hknown.ahead⟩
  · rintro _ _ ⟨⟩
  · rintro _ _ ⟨⟩
  · rintro ⟨⟩

theorem Sound.handOver (h : w.Sound) {payload : Payload} {channel : OneshotId}
    (hphase : w.rollback = some (.consumed payload channel)) (hold : w.NoneOld) (locked full : Bool) :
    (w.handOver payload channel locked full).1.Sound ∧
      Follows w.task (w.handOver payload channel locked full).1.task ∧
      ∀ frame ∈ (w.handOver payload channel locked full).2, ∀ tag, frameTag frame = some tag →
        w.task.unsettled tag = none := by
  have hahead := h.consumed payload channel hphase
  have hfree := h.free hold (by simp [hahead])
  have hfuture := h.exclusive (by rw [hphase]; rfl)
  have hsame : Follows w.task w.task := .of_unsettled (fun _ => rfl) (.inr rfl)
  simp only [TaggedSender.handOver]
  split
  · next inputHandle handle hinput houtput =>
      by_cases hlocked : locked = true
      · rw [if_pos hlocked]
        exact ⟨h.ended, hsame, by simp⟩
      · rw [if_neg hlocked]
        split
        · next frame incoming hincoming =>
            have hfollows : Follows w.task (w.task.withCell fun cell => { cell with incoming }) :=
              .of_unsettled (unsettled_withCell w.task _ rfl) (.inr rfl)
            refine ⟨?_, hfollows, by simp⟩
            apply h.ended.withTask hfollows (deliveryCount_withCell w.task _ rfl)
            rintro ⟨⟩
        · split_ifs
          · exact ⟨h.ended, hsame, by simp⟩
          · refine ⟨?_, hsame, ?_⟩
            · have hown : Known { w with
                  rollback := some (.handedOver (tagOf w.task.deliveryCount)
                    { payload, state := none, messageFormat := 0, sender := channel })
                  readAt := w.read w.task
                  ahead := some (tagOf w.task.deliveryCount) } (tagOf w.task.deliveryCount) := by
                have hat : w.read w.task (tagOf w.task.deliveryCount) = w.counted := by simp [read]
                refine ⟨?_, hat.le, fun _ => rfl⟩
                dsimp only
                rw [hat, ← h.count]
              refine ⟨h.count, fun tag hsome => ?_, h.transferring, ?_, ?_, fun _ => hfuture⟩
              · have hne : tag ≠ tagOf w.task.deliveryCount := by
                  rintro rfl
                  rw [hfree] at hsome
                  cases hsome
                have hknown := h.known tag hsome
                have hat : w.read w.task tag = w.readAt tag := Function.update_of_ne hne _ _
                refine ⟨?_, hat.le.trans hknown.le, fun heq => ?_⟩
                · dsimp only
                  rw [hat]
                  exact hknown.read
                · have hnone := hknown.ahead (hat ▸ heq)
                  rw [hahead] at hnone
                  cases hnone
              · rintro _ _ ⟨⟩
              · rintro _ _ ⟨⟩
                exact ⟨hfree, hown⟩
            · intro frame hmem tag htag
              rw [List.mem_singleton.mp hmem] at htag
              cases htag
              exact hfree
  · exact ⟨h.ended, hsame, by simp⟩

theorem Sound.register (h : w.Sound) {deliveryTag : DeliveryTag} {message : UnsettledMessage}
    (hphase : w.rollback = some (.handedOver deliveryTag message)) (locked : Bool) :
    (w.register deliveryTag message locked).Sound ∧
      ∀ tag original after, w.task.unsettled tag = some original →
        (w.register deliveryTag message locked).task.unsettled tag = some after →
          after.sender = original.sender := by
  obtain ⟨hfree, hknown⟩ := h.handedOver deliveryTag message hphase
  have hfuture := h.exclusive (by rw [hphase]; rfl)
  simp only [TaggedSender.register]
  split_ifs
  · refine ⟨h.ended, fun tag original after hbefore hafter => ?_⟩
    have hsame : w.task.unsettled tag = some after := hafter
    rw [hbefore] at hsame
    cases hsame
    rfl
  · have hafter := unsettled_insert w.task deliveryTag message
    constructor
    · refine ⟨?_, fun tag hsome => ?_, ?_, ?_, ?_, ?_⟩
      · exact (deliveryCount_withCell w.task _ rfl).trans h.count
      · simp only [hafter] at hsome
        split_ifs at hsome with htag
        · rw [htag]
          exact ⟨hknown.read, hknown.le, hknown.ahead⟩
        · have hother := h.known tag hsome
          exact ⟨hother.read, hother.le, hother.ahead⟩
      · intro split registered settlement htransferring
        have hnone : w.task.future = some (.transferring split registered settlement) := htransferring
        rw [hfuture] at hnone
        cases hnone
      · rintro _ _ ⟨⟩
      · rintro _ _ ⟨⟩
      · rintro ⟨⟩
    · intro tag original after hbefore hlater
      simp only [hafter] at hlater
      split_ifs at hlater with htag
      · rw [htag, hfree] at hbefore
        cases hbefore
      · rw [hbefore] at hlater
        cases hlater
        rfl

/-! ## Runs -/

theorem relayAction_shrinksTo (relay : LinkRelay OutputHandle) (store : LinkStore)
    (action : RelayAction) : store.ShrinksTo (action.apply relay store) := by
  cases action with
  | attach frame =>
      simp only [RelayAction.apply]
      cases hsend : store.send relay.link (.attach frame) with
      | none => exact .refl store
      | some store' => exact (@LinkStore.changesOnly_send (fun _ => True) _ _ _ _ hsend).shrinks
  | flow frame => exact (@LinkRelay.onIncomingFlow_changesOnly (fun _ => True) relay store frame).shrinks
  | disposition settled state deliveryTag =>
      exact (relay.onIncomingDisposition_changesOnly store settled state deliveryTag).shrinks
  | detach frame remoteInitiated => exact relay.onIncomingDetach_shrinksTo store frame remoteInitiated

/-- An event that is not for this state changes nothing. -/
theorem Sound.stay (h : w.Sound) {e : TagEvent} (hstep : w.step e = (w, [])) :
    (w.step e).1.Sound ∧ w.KeepsApart e := by
  refine ⟨by rw [hstep]; exact h, keepsApart_of_follows ?_ (by rw [hstep])⟩
  rw [hstep]
  exact .of_unsettled (fun _ => rfl) (.inr rfl)

theorem send_follows (t : SendTask) (request : SendRequest) :
    Follows t (t.send request) ∧ (t.send request).deliveryCount = t.deliveryCount := by
  simp only [SendTask.send]
  split_ifs
  · exact ⟨.of_unsettled (fun _ => rfl) (.inl rfl), rfl⟩
  · refine ⟨⟨fun tag message' hafter => ⟨message', hafter, rfl⟩, ?_⟩, rfl⟩
    rintro _ _ _ ⟨⟩

theorem Sound.step_send (h : w.Sound) (request : SendRequest) :
    (w.step (.send request)).1.Sound ∧ w.KeepsApart (.send request) := by
  by_cases hbusy : (w.task.future.isSome || w.rollback.isSome) = true
  · exact h.stay (by simp only [TaggedSender.step, if_pos hbusy])
  · obtain ⟨-, hidle⟩ : w.task.future.isSome = false ∧ w.rollback.isSome = false := by
      simpa using hbusy
    obtain ⟨hfollows, hcount⟩ := send_follows w.task request
    refine ⟨?_, keepsApart_of_follows ?_ ?_⟩
    · simp only [TaggedSender.step, if_neg hbusy]
      exact h.withTask hfollows hcount (by simp [hidle])
    · simpa only [TaggedSender.step, if_neg hbusy] using hfollows
    · simp only [TaggedSender.step, if_neg hbusy]

theorem drop_follows (t : SendTask) :
    Follows t t.drop ∧ t.drop.deliveryCount = t.deliveryCount ∧ t.drop.future = none := by
  simp only [SendTask.drop]
  split
  · next split registered settlement hfuture =>
      refine ⟨follows_withdraw t registered rfl ?_ rfl, deliveryCount_withdraw t registered, rfl⟩
      cases registered <;> rfl
  · exact ⟨.of_unsettled (fun _ => rfl) (.inl rfl), rfl, rfl⟩

theorem Sound.step_rollback (h : w.Sound) (payload : Payload) (channel : OneshotId) :
    (w.step (.rollback payload channel)).1.Sound ∧ w.KeepsApart (.rollback payload channel) := by
  by_cases hbusy : (w.task.future.isSome || w.rollback.isSome) = true
  · exact h.stay (by simp only [TaggedSender.step, if_pos hbusy])
  · obtain ⟨hidle, -⟩ : w.task.future = none ∧ w.rollback = none := by simpa using hbusy
    obtain ⟨hsound, hfollows⟩ := h.startRollback hidle payload channel
    refine ⟨?_, keepsApart_of_follows ?_ ?_⟩
    · simpa only [TaggedSender.step, if_neg hbusy] using hsound
    · simpa only [TaggedSender.step, if_neg hbusy] using hfollows
    · simp only [TaggedSender.step, if_neg hbusy]

theorem Sound.step_handOver (h : w.Sound) (hold : w.NoneOld) (locked full : Bool) :
    (w.step (.handOver locked full)).1.Sound ∧ w.KeepsApart (.handOver locked full) := by
  cases hphase : w.rollback with
  | none => exact h.stay (by simp [TaggedSender.step, hphase])
  | some phase =>
      cases phase with
      | handedOver tag message => exact h.stay (by simp [TaggedSender.step, hphase])
      | consumed payload channel =>
          have hstep : w.step (.handOver locked full) = w.handOver payload channel locked full := by
            simp [TaggedSender.step, hphase]
          obtain ⟨hsound, hfollows, hframes⟩ := h.handOver hphase hold locked full
          refine ⟨by rw [hstep]; exact hsound, ⟨fun tag message message' hbefore hafter => ?_, ?_⟩⟩
          · rw [hstep] at hafter
            exact hfollows.kept hbefore hafter
          · rw [hstep]
            intro frame hmem tag htag message hbefore
            rw [hframes frame hmem tag htag] at hbefore
            cases hbefore

theorem Sound.step_register (h : w.Sound) (locked : Bool) :
    (w.step (.register locked)).1.Sound ∧ w.KeepsApart (.register locked) := by
  cases hphase : w.rollback with
  | none => exact h.stay (by simp [TaggedSender.step, hphase])
  | some phase =>
      cases phase with
      | consumed payload channel => exact h.stay (by simp [TaggedSender.step, hphase])
      | handedOver tag message =>
          have hstep : w.step (.register locked) = (w.register tag message locked, []) := by
            simp [TaggedSender.step, hphase]
          obtain ⟨hsound, hkept⟩ := h.register hphase locked
          refine ⟨by rw [hstep]; exact hsound, ⟨fun tag' message' after hbefore hafter => ?_, ?_⟩⟩
          · rw [hstep] at hafter
            exact hkept tag' message' after hbefore hafter
          · rw [hstep]
            simp

theorem Sound.step (h : w.Sound) {e : TagEvent} (hfree : w.TagFree e) :
    (w.step e).1.Sound ∧ w.KeepsApart e := by
  cases e with
  | send request => exact h.step_send request
  | poll => exact h.poll hfree
  | cancel =>
      obtain ⟨hfollows, hcount, hover⟩ := drop_follows w.task
      exact ⟨h.withTask hfollows hcount fun _ => hover, keepsApart_of_follows hfollows rfl⟩
  | closeWriter =>
      have hfollows : Follows w.task { w.task with writerClosed := true } :=
        .of_unsettled (fun _ => rfl) (.inr rfl)
      exact ⟨h.withTask hfollows rfl h.exclusive, keepsApart_of_follows hfollows rfl⟩
  | closeIncoming =>
      have hfollows : Follows w.task { w.task with incomingClosed := true } :=
        .of_unsettled (fun _ => rfl) (.inr rfl)
      exact ⟨h.withTask hfollows rfl h.exclusive, keepsApart_of_follows hfollows rfl⟩
  | relay action =>
      have hfollows : Follows w.task { w.task with store := action.apply w.relay w.task.store } :=
        .of_shrinksTo (relayAction_shrinksTo w.relay w.task.store action) rfl (.inr rfl)
      exact ⟨h.track hfollows h.exclusive, keepsApart_of_follows hfollows rfl⟩
  | rollback payload channel => exact h.step_rollback payload channel
  | handOver locked full => exact h.step_handOver hfree locked full
  | register locked => exact h.step_register locked

/-- In every run of a sender in which a tag is taken only when it is free in the sense of the
condition, no entry is overwritten and no transfer carries the tag of another delivery's entry. -/
theorem tags_distinct (link : SenderLink) (id : LinkId) (store : LinkStore)
    (relayHandle : OutputHandle) (relayMode : ReceiverSettleMode) (events : List TagEvent)
    (hfree : Run.Along step TagFree (start link id store relayHandle relayMode) events) :
    Run.Along step KeepsApart (start link id store relayHandle relayMode) events := by
  have hrun : ∀ (events : List TagEvent) (w : TaggedSender), w.Sound → Run.Along step TagFree w events →
      Run.Along step KeepsApart w events := by
    intro events
    induction events with
    | nil => exact fun _ _ _ => trivial
    | cons e events ih =>
        intro w h hfree
        obtain ⟨hsound, hkept⟩ := h.step hfree.1
        exact ⟨hkept, ih _ hsound hfree.2⟩
  exact hrun events _ (sound_start link id store relayHandle relayMode) hfree

private def controlLink : SenderLink where
  name := "control"
  role := .sender
  localState := .attached
  outputHandle := some ⟨0⟩
  inputHandle := some ⟨0⟩
  sndSettleMode := .mixed
  rcvSettleMode := .first
  source := none
  targetKind := .coordinator
  target := none
  maxMessageSize := 0
  offeredCapabilities := none
  desiredCapabilities := none
  verifyIncomingSource := false
  verifyIncomingTarget := false
  maxFrameSize := 512
  sessionStopReason := none

private def controlSender : TaggedSender :=
  start controlLink 0
    (LinkStore.empty.modify 0 fun cell => { cell with flowState := ⟨0, 0, 10, 0, false, none⟩ }) ⟨0⟩ .first

private def declareRequest : SendRequest where
  payload := [0]
  messageFormat := 0
  settled := none
  state := none
  batchable := false
  channel := 1

theorem unsettled_of_empty {t : SendTask}
    (h : (t.cell.senderUnsettled.elim [] (·.entries)).length = 0) (tag : DeliveryTag) :
    t.unsettled tag = none := by
  have hempty := List.eq_nil_of_length_eq_zero h
  simp only [SendTask.unsettled, LinkStore.unsettled]
  simp only [SendTask.cell] at hempty
  cases hmap : (t.store.cell t.id).senderUnsettled with
  | none => rfl
  | some m =>
      rw [hmap] at hempty
      simp only [Option.elim_some] at hempty
      simp [IndexMap.get, IndexMap.lookupEntries, hempty]

theorem noneOld_of_empty (h : (w.task.cell.senderUnsettled.elim [] (·.entries)).length = 0) :
    w.NoneOld := by
  intro tag hsome
  rw [unsettled_of_empty h] at hsome
  cases hsome

/-- A discharge that is settled before the next declare. -/
theorem tags_distinct_settled :
    Run.Along step KeepsApart controlSender
      [.rollback [1] 0, .handOver false false, .register false,
        .relay (.disposition true none (tagOf 1)), .send declareRequest, .poll, .poll] := by
  apply tags_distinct
  refine ⟨trivial, noneOld_of_empty (by decide +kernel), trivial, trivial, trivial, fun _ => ?_, ?_,
    trivial⟩
  · exact ⟨fun tag _ => unsettled_of_empty (by decide +kernel) tag, noneOld_of_empty (by decide +kernel)⟩
  · rintro ⟨⟨request, hcredit⟩, -⟩
    cases hcredit

/-- The declare behind a dropped transaction takes the tag of its discharge. -/
theorem rollback_tag_reused :
    ¬Run.Along step KeepsApart controlSender
      [.rollback [1] 0, .handOver false false, .register false, .send declareRequest, .poll] := by
  rintro ⟨-, -, -, -, hpoll, -⟩
  have hbefore : ((Run.run step controlSender [.rollback [1] 0, .handOver false false, .register false,
      .send declareRequest]).1.task.unsettled (tagOf 1)).map (·.sender) = some 0 := by
    decide +kernel
  have hafter : ((Run.run step controlSender [.rollback [1] 0, .handOver false false, .register false,
      .send declareRequest, .poll]).1.task.unsettled (tagOf 1)).map (·.sender) = some 1 := by
    decide +kernel
  obtain ⟨message, hmessage, hsender⟩ := Option.map_eq_some_iff.mp hbefore
  obtain ⟨message', hmessage', hsender'⟩ := Option.map_eq_some_iff.mp hafter
  have hsame := hpoll.kept (tagOf 1) message message' hmessage hmessage'
  rw [hsender, hsender'] at hsame
  exact absurd hsame (by decide)

end TaggedSender

end Fe2o3Amqp
