import Fe2o3Amqp.Link.SenderLink
import Fe2o3Amqp.Session.OutgoingWindow
import Fe2o3Amqp.Util.Run

/-!
# Sends that are dropped

A sender runs one send at a time.  A send is a future with three kinds of await points: for credit
or a detach, for room in the session's queue before each frame of the delivery, and for the outcome.
It may be dropped at any of them.  The registration of an unsettled delivery is withdrawn then, but
the frames that were handed over stay with the session, and the next send starts a new delivery
behind them.
-/

namespace Fe2o3Amqp

/-- The arguments of a send, its message encoded; `channel` is the oneshot of its outcome. -/
structure SendRequest where
  payload : Payload
  messageFormat : MessageFormat
  settled : Option Bool
  state : Option DeliveryState
  batchable : Bool
  channel : OneshotId

inductive Settlement where
  | settled (deliveryTag : DeliveryTag)
  | unsettled (deliveryTag : DeliveryTag) (outcome : OneshotId)

/-- A send at one of its await points. -/
inductive SendFuture where
  /-- In `get_delivery_tag_or_detached`. -/
  | credit (request : SendRequest)
  /-- In `send_transfer`; `registered` is the tag to withdraw. -/
  | transferring (split : TransferSplit) (registered : Option DeliveryTag) (settlement : Settlement)
  /-- The whole delivery was handed over. -/
  | outcome (deliveryTag : DeliveryTag) (channel : OneshotId)

/-- A sender and what it shares with its session: the cell of the link in the store, the queue of
the session's link frames and that of the link's own frames. -/
structure SendTask where
  link : SenderLink
  id : LinkId
  store : LinkStore
  writerClosed : Bool
  incomingClosed : Bool
  future : Option SendFuture
  returned : Option (Except SendFailure Settlement)

namespace SendTask

def cell (t : SendTask) : LinkCell := t.store.cell t.id

def withCell (t : SendTask) (f : LinkCell → LinkCell) : SendTask :=
  { t with store := t.store.modify t.id f }

/-- The send returns. -/
def finish (t : SendTask) (result : Except SendFailure Settlement) : SendTask :=
  { t with future := none, returned := some result }

/-- `UnsettledRegistration::drop`. -/
def withdraw (t : SendTask) (registered : Option DeliveryTag) : SendTask :=
  match registered with
  | none => t
  | some tag => t.withCell fun cell =>
      { cell with senderUnsettled := cell.senderUnsettled.map (·.swapRemove tag) }

/-- `send_payload` of `SenderInner`, up to its first await point. -/
def send (t : SendTask) (request : SendRequest) : SendTask :=
  if t.link.maxMessageSize ≠ 0 ∧ request.payload.length > t.link.maxMessageSize.toNat then
    t.finish (.error (.messageSizeExceeded request.payload.length t.link.maxMessageSize.toNat))
  else { t with future := some (.credit request) }

/-- `send_payload_with_transfer` up to the first frame: the delivery is registered first. -/
def sendPayloadWithTransfer (t : SendTask) (transfer : Transfer) (deliveryTag : DeliveryTag)
    (request : SendRequest) : SendTask :=
  let settled := t.link.isSettledOnSend transfer
  let registered := if settled then none else some deliveryTag
  let t :=
    if settled then t
    else
      t.withCell fun cell =>
        { cell with
          senderUnsettled := some ((cell.senderUnsettled.getD IndexMap.empty).insert deliveryTag
            { payload := request.payload, state := none, messageFormat := request.messageFormat
              sender := request.channel }) }
  match t.link.startTransfer transfer request.payload with
  | .error failure => (t.withdraw registered).finish (.error failure)
  | .ok split =>
      { t with
        future := some (.transferring split registered
          (if settled then .settled deliveryTag else .unsettled deliveryTag request.channel)) }

/-- `get_delivery_tag_or_detached`: a frame of the link is looked at before the credit. -/
def pollCredit (t : SendTask) (request : SendRequest) : SendTask :=
  match t.cell.incoming with
  | .detach detach :: incoming =>
      let t := t.withCell fun cell => { cell with incoming }
      let (result, endpoint) := t.link.toLinkEndpoint.applyRemoteDetachOutcome detach
      let error :=
        match result, detach.closed with
        | .ok _, true => .remoteClosed
        | .ok _, false => .remoteDetached
        | .error e, _ => LinkStateError.ofDetachError e
      { t with link := { t.link with toLinkEndpoint := endpoint } }.finish (.error (.link error))
  | _ :: incoming =>
      (t.withCell fun cell => { cell with incoming }).finish (.error (.link .expectImmediateDetach))
  | [] =>
      if t.incomingClosed then
        t.finish <| .error <| .link <|
          match t.link.sessionStopReason with
          | some reason => .sessionStopped reason
          | none => .expectImmediateDetach
      else
        match t.cell.flowState.consumeLinkCredit 1 with
        | none => t
        | some (deliveryTag, flowState) =>
            let t := t.withCell fun cell => { cell with flowState }
            match t.link.generateNonResumingTransferPerformative deliveryTag request.messageFormat
              request.settled request.state request.batchable with
            | .error e => t.finish (.error (.link e))
            | .ok transfer => t.sendPayloadWithTransfer transfer deliveryTag request

/-- `send_transfer`: hands one frame over, unless the session is gone. -/
def pollTransfer (t : SendTask) (split : TransferSplit) (registered : Option DeliveryTag)
    (settlement : Settlement) : SendTask × List LinkFrame :=
  if t.writerClosed then
    ((t.withdraw registered).finish (.error (.link t.link.stopped)), [])
  else
    match split.next with
    | (frame, some rest) =>
        ({ t with future := some (.transferring rest registered settlement) }, [frame])
    | (frame, none) =>
        match settlement with
        | .settled tag => (t.finish (.ok (.settled tag)), [frame])
        | .unsettled tag channel => ({ t with future := some (.outcome tag channel) }, [frame])

/-- The send goes on from its await point, if it can. -/
def poll (t : SendTask) : SendTask × List LinkFrame :=
  match t.future with
  | none => (t, [])
  | some (.credit request) => (t.pollCredit request, [])
  | some (.transferring split registered settlement) => t.pollTransfer split registered settlement
  | some (.outcome tag channel) =>
      if (t.store.outcomes channel).isSome then (t.finish (.ok (.unsettled tag channel)), [])
      else (t, [])

/-- The future is dropped at its await point. -/
def drop (t : SendTask) : SendTask :=
  match t.future with
  | some (.transferring _ registered _) => { t.withdraw registered with future := none }
  | _ => { t with future := none }

end SendTask

inductive SendEvent where
  | send (request : SendRequest)
  | poll
  | drop
  /-- What the session and its relay do to the state they share with the link. -/
  | relay (store : LinkStore)
  | closeWriter
  | closeIncoming

namespace SendTask

/-- One event, and the frames that it hands to the session.  A send holds the sender exclusively, so
that none begins before the one in progress has returned or was dropped. -/
def step (t : SendTask) : SendEvent → SendTask × List LinkFrame
  | .send request => if t.future.isSome then (t, []) else (t.send request, [])
  | .poll => t.poll
  | .drop => (t.drop, [])
  | .relay store => ({ t with store }, [])
  | .closeWriter => ({ t with writerClosed := true }, [])
  | .closeIncoming => ({ t with incomingClosed := true }, [])

end SendTask

/-! ## Streams of transfers -/

/-- The frame of a delivery leaves it unfinished. -/
def LinkTransfer.unfinished (frame : LinkTransfer) : Bool :=
  frame.performative.more && !frame.performative.aborted

/-- The transfers are deliveries one after the other, each begun by a first transfer and ended by a
frame without `more` or by an abort; only the last may be unfinished.  `inside` says whether a
delivery is unfinished before the frames. -/
def Framed (inside : Bool) : List LinkFrame → Prop
  | [] => True
  | .firstTransfer frame :: frames => inside = false ∧ Framed frame.unfinished frames
  | .transferContinuation frame :: frames => inside = true ∧ Framed frame.unfinished frames
  | _ :: frames => Framed inside frames

instance decidableFramed : (inside : Bool) → (frames : List LinkFrame) → Decidable (Framed inside frames)
  | _, [] => inferInstanceAs (Decidable True)
  | inside, .firstTransfer frame :: frames =>
      have := decidableFramed frame.unfinished frames
      inferInstanceAs (Decidable (inside = false ∧ Framed frame.unfinished frames))
  | inside, .transferContinuation frame :: frames =>
      have := decidableFramed frame.unfinished frames
      inferInstanceAs (Decidable (inside = true ∧ Framed frame.unfinished frames))
  | inside, .attach _ :: frames | inside, .flow _ :: frames | inside, .remoteTransfer _ :: frames
  | inside, .disposition _ :: frames | inside, .detach _ :: frames
  | inside, .acquisition _ :: frames => decidableFramed inside frames

namespace SendTask

/-- The send is between its first and its last frame. -/
def midDelivery (t : SendTask) : Bool :=
  match t.future with
  | some (.transferring split _ _) => !split.isFirst
  | _ => false

/-- The event hands over the first frame of a delivery. -/
def handsOverFirst (t : SendTask) : SendEvent → Bool
  | .poll =>
      match t.future with
      | some (.transferring split _ _) => split.isFirst && !t.writerClosed
      | _ => false
  | _ => false

/-- The event drops a send between its first and its last frame. -/
def abandons (t : SendTask) : SendEvent → Bool
  | .drop => t.midDelivery
  | _ => false

/-- No delivery is begun after a send was dropped between its first and its last frame. -/
def NoneAfterAbandoned (abandoned : Bool) (t : SendTask) : List SendEvent → Prop
  | [] => True
  | e :: es =>
      ¬(abandoned ∧ t.handsOverFirst e) ∧
        NoneAfterAbandoned (abandoned || t.abandons e) (t.step e).1 es

/-! ## What one event does -/

/-- No send of this sender is an abort. -/
def Plain (t : SendTask) : Prop :=
  ∀ split registered settlement, t.future = some (.transferring split registered settlement) →
    split.transfer.aborted = false

/-- A send that has not reached its first frame, or is over. -/
structure Outside (t t' : SendTask) : Prop where
  midDelivery : t'.midDelivery = false
  plain : t'.Plain
  writerClosed : t'.writerClosed = t.writerClosed

@[simp] theorem withdraw_writerClosed (t : SendTask) (registered : Option DeliveryTag) :
    (t.withdraw registered).writerClosed = t.writerClosed := by
  cases registered <;> rfl

theorem outside_finish (t : SendTask) (result : Except SendFailure Settlement) :
    Outside t (t.finish result) where
  midDelivery := rfl
  plain := fun _ _ _ h => by cases h
  writerClosed := rfl

theorem Outside.of_writerClosed {t t' t'' : SendTask} (h : Outside t' t'')
    (hclosed : t'.writerClosed = t.writerClosed) : Outside t t'' :=
  ⟨h.midDelivery, h.plain, h.writerClosed.trans hclosed⟩

theorem sendPayloadWithTransfer_outside (t : SendTask) {transfer : Transfer}
    (hplain : transfer.aborted = false) (deliveryTag : DeliveryTag) (request : SendRequest) :
    Outside t (t.sendPayloadWithTransfer transfer deliveryTag request) := by
  simp only [sendPayloadWithTransfer]
  generalize hregistered : (if t.link.isSettledOnSend transfer = true then t else _) = t'
  have hclosed : t'.writerClosed = t.writerClosed := by
    rw [← hregistered]
    split_ifs <;> rfl
  split
  · apply (outside_finish _ _).of_writerClosed
    rw [withdraw_writerClosed, hclosed]
  · next split hsplit =>
      have hstart : split.isFirst = true ∧ split.transfer = transfer := by
        simp only [SenderLink.startTransfer] at hsplit
        cases hhandle : t'.link.inputHandle with
        | none => simp [hhandle] at hsplit
        | some inputHandle =>
            simp only [hhandle] at hsplit
            cases hmax : t'.link.maxPayload transfer with
            | error failure => simp [hmax, bind, Except.bind] at hsplit
            | ok maxPayload =>
                simp only [hmax, bind, Except.bind, pure, Except.pure, Except.ok.injEq] at hsplit
                subst hsplit
                exact ⟨rfl, rfl⟩
      refine ⟨?_, ?_, hclosed⟩
      · simp [midDelivery, hstart.1]
      · intro split' registered settlement h
        cases h
        rw [hstart.2]
        exact hplain

theorem pollCredit_outside (t : SendTask) (request : SendRequest)
    (hfuture : t.future = some (.credit request)) : Outside t (t.pollCredit request) := by
  have hwaits : Outside t t := by
    refine ⟨by simp [midDelivery, hfuture], fun split registered settlement h => ?_, rfl⟩
    rw [hfuture] at h
    cases h
  simp only [pollCredit]
  split
  · exact (outside_finish _ _).of_writerClosed rfl
  · exact (outside_finish _ _).of_writerClosed rfl
  · split_ifs
    · exact outside_finish _ _
    · split
      · exact hwaits
      · split
        · exact (outside_finish _ _).of_writerClosed rfl
        · next transfer htransfer =>
            have hplain : transfer.aborted = false := by
              simp only [SenderLink.generateNonResumingTransferPerformative] at htransfer
              split at htransfer
              · cases htransfer
              · cases htransfer
                rfl
            exact (sendPayloadWithTransfer_outside _ hplain _ _).of_writerClosed rfl

theorem send_outside (t : SendTask) (request : SendRequest) : Outside t (t.send request) := by
  simp only [send]
  split_ifs
  · exact outside_finish _ _
  · refine ⟨rfl, fun _ _ _ h => ?_, rfl⟩
    cases h

/-- Nothing is handed to a session that is gone. -/
theorem run_of_writerClosed (t : SendTask) (h : t.writerClosed = true) (abandoned : Bool)
    (events : List SendEvent) :
    (Run.run step t events).2 = [] ∧ NoneAfterAbandoned abandoned t events := by
  induction events generalizing t abandoned with
  | nil => exact ⟨rfl, trivial⟩
  | cons e events ih =>
      have hstep : (t.step e).2 = [] ∧ (t.step e).1.writerClosed = true := by
        cases e with
        | send request =>
            simp only [step]
            split_ifs
            · exact ⟨rfl, h⟩
            · exact ⟨rfl, (t.send_outside request).writerClosed.trans h⟩
        | poll =>
            simp only [step, poll]
            cases hfuture : t.future with
            | none => exact ⟨rfl, h⟩
            | some future =>
                cases future with
                | credit request =>
                    exact ⟨rfl, (t.pollCredit_outside request hfuture).writerClosed.trans h⟩
                | transferring split registered settlement =>
                    simp [pollTransfer, h, finish]
                | outcome tag channel =>
                    dsimp only
                    split_ifs
                    · exact ⟨rfl, h⟩
                    · exact ⟨rfl, h⟩
        | drop =>
            simp only [step, drop]
            split
            · exact ⟨trivial, by rw [withdraw_writerClosed, h]⟩
            · exact ⟨trivial, h⟩
        | relay store => exact ⟨rfl, h⟩
        | closeWriter => exact ⟨rfl, rfl⟩
        | closeIncoming => exact ⟨rfl, h⟩
      have hfirst : t.handsOverFirst e = false := by
        cases e with
        | poll =>
            simp only [handsOverFirst]
            split
            · simp [h]
            · rfl
        | _ => rfl
      obtain ⟨hsilent, hrest⟩ := ih (t.step e).1 hstep.2 (abandoned || t.abandons e)
      exact ⟨by simp [Run.run, hstep.1, hsilent], by simp [hfirst], hrest⟩

/-- The frame of a split is a first transfer or a continuation of it, and leaves the delivery
unfinished exactly when something of the split is left. -/
theorem next_framed {split : TransferSplit} (hplain : split.transfer.aborted = false)
    (inside : Bool) (frames : List LinkFrame) :
    Framed inside (split.next.1 :: frames) ↔
      inside = !split.isFirst ∧ Framed split.next.2.isSome frames := by
  by_cases hmore : split.payload.length > split.maxPayload
  · cases hfirst : split.isFirst <;>
      simp [TransferSplit.next, hmore, TransferSplit.frame, Framed, LinkTransfer.unfinished, hfirst,
        hplain]
  · cases hfirst : split.isFirst <;>
      simp [TransferSplit.next, hmore, TransferSplit.frame, Framed, LinkTransfer.unfinished, hfirst]

theorem next_rest {split rest : TransferSplit} (h : split.next.2 = some rest) :
    rest.isFirst = false ∧ rest.transfer.aborted = split.transfer.aborted := by
  by_cases hmore : split.payload.length > split.maxPayload
  · simp only [TransferSplit.next, hmore, if_true, Option.some.injEq] at h
    subst h
    cases split.isFirst <;> exact ⟨rfl, rfl⟩
  · simp [TransferSplit.next, hmore] at h

/-- What a poll before a frame hands over, and what it leaves. -/
theorem pollTransfer_spec {t : SendTask} {split : TransferSplit} (registered : Option DeliveryTag)
    (settlement : Settlement) (hopen : t.writerClosed = false)
    (hplain : split.transfer.aborted = false) :
    (t.pollTransfer split registered settlement).2 = [split.next.1] ∧
      (t.pollTransfer split registered settlement).1.midDelivery = split.next.2.isSome ∧
      (t.pollTransfer split registered settlement).1.Plain := by
  simp only [pollTransfer, hopen, Bool.false_eq_true, if_false]
  cases hnext : split.next with
  | mk frame rest =>
      cases rest with
      | some rest =>
          have hleft : split.next.2 = some rest := by rw [hnext]
          obtain ⟨hlater, haborted⟩ := next_rest hleft
          refine ⟨rfl, by simp [midDelivery, hlater], fun split' registered' settlement' h => ?_⟩
          cases h
          rw [haborted]
          exact hplain
      | none =>
          cases settlement with
          | settled tag => exact ⟨rfl, rfl, fun _ _ _ h => by cases h⟩
          | unsettled tag channel => exact ⟨rfl, rfl, fun _ _ _ h => by cases h⟩

/-- An event that hands nothing over.  The last delivery is in progress as it was, or is abandoned. -/
structure Silent (t : SendTask) (e : SendEvent) : Prop where
  frames : (t.step e).2 = []
  first : t.handsOverFirst e = false
  plain : (t.step e).1.Plain
  midDelivery : ((t.step e).1.midDelivery || t.abandons e) = t.midDelivery
  once : (t.step e).1.midDelivery = true → t.abandons e = false

/-- A send that is outside a delivery before and after the event. -/
theorem Silent.of_outside {t t' t'' : SendTask} {e : SendEvent} (hstep : t.step e = (t', []))
    (hmid : t.midDelivery = false) (houtside : Outside t'' t') (hfirst : t.handsOverFirst e = false)
    (habandons : t.abandons e = false) : Silent t e where
  frames := by rw [hstep]
  first := hfirst
  plain := by rw [hstep]; exact houtside.plain
  midDelivery := by rw [hstep, habandons, hmid]; simpa using houtside.midDelivery
  once := fun _ => habandons

/-- An event that leaves the send as it is. -/
theorem Silent.of_stays {t t' : SendTask} {e : SendEvent} (hplain : t.Plain) (hstep : t.step e = (t', []))
    (hfuture : t'.future = t.future) (hfirst : t.handsOverFirst e = false)
    (habandons : t.abandons e = false) : Silent t e where
  frames := by rw [hstep]
  first := hfirst
  plain := by
    rw [hstep]
    intro split registered settlement h
    exact hplain split registered settlement (hfuture ▸ h)
  midDelivery := by rw [hstep, habandons, Bool.or_false, SendTask.midDelivery, SendTask.midDelivery, hfuture]
  once := fun _ => habandons

theorem silent_send {t : SendTask} (hplain : t.Plain) (request : SendRequest) :
    Silent t (.send request) := by
  cases hfuture : t.future with
  | some future => exact .of_stays hplain (by simp [step, hfuture]) rfl rfl rfl
  | none =>
      exact .of_outside (by simp [step, hfuture]) (by simp [midDelivery, hfuture])
        (t.send_outside request) rfl rfl

theorem silent_poll {t : SendTask} (hplain : t.Plain)
    (hfuture : ∀ split registered settlement,
      t.future ≠ some (.transferring split registered settlement)) : Silent t .poll := by
  cases hsend : t.future with
  | none =>
      exact .of_stays hplain (by simp [step, poll, hsend]) rfl (by simp [handsOverFirst, hsend]) rfl
  | some future =>
      cases future with
      | transferring split registered settlement =>
          exact absurd hsend (hfuture split registered settlement)
      | credit request =>
          exact .of_outside (by simp [step, poll, hsend]) (by simp [midDelivery, hsend])
            (t.pollCredit_outside request hsend) (by simp [handsOverFirst, hsend]) rfl
      | outcome tag channel =>
          have hfirst : t.handsOverFirst .poll = false := by simp [handsOverFirst, hsend]
          by_cases hover : (t.store.outcomes channel).isSome
          · exact .of_outside (by simp [step, poll, hsend, hover]) (by simp [midDelivery, hsend])
              (outside_finish t (.ok (.unsettled tag channel))) hfirst rfl
          · exact .of_stays hplain (by simp [step, poll, hsend, hover]) rfl hfirst rfl

theorem silent_drop (t : SendTask) : Silent t .drop := by
  have hover : t.drop.midDelivery = false ∧ t.drop.Plain := by
    simp only [drop]
    split <;> exact ⟨rfl, fun _ _ _ h => by cases h⟩
  refine ⟨rfl, rfl, hover.2, ?_, fun hmid => ?_⟩
  · rw [step, hover.1, Bool.false_or]
    rfl
  · rw [step, hover.1] at hmid
    cases hmid

/-- The stream that follows is well framed, given the state of the last delivery, exactly when no
delivery is begun after an abandoned one. -/
theorem framed_run_iff {t : SendTask} {inside abandoned : Bool} (hplain : t.Plain)
    (hinside : inside = (t.midDelivery || abandoned))
    (hone : t.midDelivery = true → abandoned = false) (events : List SendEvent) :
    Framed inside (Run.run step t events).2 ↔ NoneAfterAbandoned abandoned t events := by
  induction events generalizing t inside abandoned with
  | nil => exact Iff.rfl
  | cons e events ih =>
      have hsilent (h : Silent t e) : Framed inside (Run.run step t (e :: events)).2 ↔
          NoneAfterAbandoned abandoned t (e :: events) := by
        have hmid := h.midDelivery
        have hrest := @ih (t.step e).1 inside (abandoned || t.abandons e) h.plain
          (by rw [hinside, ← hmid]; ac_rfl) (fun hmid' => by
            rw [h.once hmid', Bool.or_false]
            exact hone (by rw [← hmid, hmid']; rfl))
        simp only [Run.run, NoneAfterAbandoned, h.frames, List.nil_append, h.first]
        rw [hrest]
        simp
      cases e with
      | send request => exact hsilent (silent_send hplain request)
      | drop => exact hsilent (silent_drop t)
      | relay store => exact hsilent (.of_stays hplain rfl rfl rfl rfl)
      | closeWriter => exact hsilent (.of_stays hplain rfl rfl rfl rfl)
      | closeIncoming => exact hsilent (.of_stays hplain rfl rfl rfl rfl)
      | poll =>
          by_cases hpolled : ∃ split registered settlement,
              t.future = some (.transferring split registered settlement)
          · obtain ⟨split, registered, settlement, hfuture⟩ := hpolled
            cases hopen : t.writerClosed with
            | true =>
                obtain ⟨hnothing, hnone⟩ := t.run_of_writerClosed hopen abandoned (.poll :: events)
                rw [hnothing]
                exact ⟨fun _ => hnone, fun _ => trivial⟩
            | false =>
                have haborted := hplain split registered settlement hfuture
                obtain ⟨hframe, hmid', hplain'⟩ :=
                  pollTransfer_spec registered settlement hopen haborted
                have hmid : t.midDelivery = !split.isFirst := by simp [midDelivery, hfuture]
                have hfirst : t.handsOverFirst .poll = split.isFirst := by
                  simp [handsOverFirst, hfuture, hopen]
                have hstep : t.step .poll = t.pollTransfer split registered settlement := by
                  simp [step, poll, hfuture]
                simp only [Run.run, NoneAfterAbandoned, hstep, hframe, List.singleton_append, hfirst,
                  abandons, Bool.or_false]
                rw [next_framed haborted, hinside, hmid]
                cases hisFirst : split.isFirst with
                | true =>
                    cases abandoned with
                    | true => simp
                    | false => simpa using ih hplain' (by simp [hmid']) (fun _ => rfl)
                | false =>
                    have hkept : abandoned = false := hone (by simp [hmid, hisFirst])
                    subst hkept
                    simpa using ih hplain' (by simp [hmid']) (fun _ => rfl)
          · refine hsilent (silent_poll hplain fun split registered settlement h => ?_)
            exact hpolled ⟨split, registered, settlement, h⟩

/-- A sender with no send in progress. -/
def idle (link : SenderLink) (id : LinkId) (store : LinkStore) : SendTask where
  link := link
  id := id
  store := store
  writerClosed := false
  incomingClosed := false
  future := none
  returned := none

/-- Whatever sends are begun, polled and dropped, the frames handed to the session are whole
deliveries one after the other exactly when none is begun after one was dropped between its first
and its last frame. -/
theorem sends_framed_iff (link : SenderLink) (id : LinkId) (store : LinkStore)
    (events : List SendEvent) :
    Framed false (Run.run step (idle link id store) events).2 ↔
      NoneAfterAbandoned false (idle link id store) events := by
  apply framed_run_iff
  · exact fun _ _ _ h => by cases h
  · rfl
  · exact fun _ => rfl

section Dropped

private def smallFrames : SenderLink where
  name := "out"
  role := .sender
  localState := .attached
  outputHandle := some ⟨0⟩
  inputHandle := some ⟨0⟩
  sndSettleMode := .mixed
  rcvSettleMode := .first
  source := none
  targetKind := .target
  target := none
  maxMessageSize := 0
  offeredCapabilities := none
  desiredCapabilities := none
  verifyIncomingSource := false
  verifyIncomingTarget := false
  maxFrameSize := 512
  sessionStopReason := none

private def withCredit : LinkStore :=
  LinkStore.empty.modify 0 fun cell => { cell with flowState := ⟨0, 0, 10, 0, false, none⟩ }

private def message (size : Nat) (channel : OneshotId) : SendRequest where
  payload := List.replicate size 0
  messageFormat := 0
  settled := none
  state := none
  batchable := false
  channel := channel

/-- A send of three frames is dropped after the first of them, and the next one is sent. -/
theorem dropped_send_breaks_stream :
    ¬Framed false (Run.run step (idle smallFrames 0 withCredit)
      [.send (message 1200 0), .poll, .poll, .drop, .send (message 1 1), .poll, .poll]).2 := by
  decide +kernel

end Dropped

end SendTask

end Fe2o3Amqp
