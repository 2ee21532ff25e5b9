import Fe2o3Amqp.Link.DisposeAll
import Fe2o3Amqp.Link.Receiver
import Fe2o3Amqp.Util.Run

/-!
# Disposal through a disposer

A `ReceiverDisposer` disposes of deliveries without the receiver.  It shares the unsettled map, the
flow state, the counter of processed deliveries and the channel to the session with the receiver that
made it, and keeps copies of the receiver's settle mode, output handle and credit mode.  A receiver
and its disposers are one machine here, whose events are disposals.
-/

namespace Fe2o3Amqp

structure ReceiverDisposer where
  rcvSettleMode : ReceiverSettleMode
  outputHandle : Option OutputHandle
  creditMode : CreditMode

/-- `Receiver::disposer`. -/
def ReceiverInner.disposer (r : ReceiverInner) : ReceiverDisposer :=
  ⟨r.link.rcvSettleMode, r.link.outputHandle, r.creditMode⟩

namespace ReceiverDisposer

/-- `r` is the receiver, for what the disposer shares with it. -/
def refreshCreditIfNeeded (disposer : ReceiverDisposer) (r : ReceiverInner) (processed : UInt32) :
    Except IllegalLinkStateError Unit × ReceiverInner :=
  match disposer.creditMode with
  | .manual => (.ok (), r)
  | .auto maxCredit =>
      if processed ≥ maxCredit / 2 then
        let r := { r with processed := 0 }
        match disposer.outputHandle with
        | none => (.error .illegalState, r)
        | some handle =>
            let flowState := { r.link.flowState with linkCredit := maxCredit, drain := false }
            let r := r.withLink { r.link with flowState }
            match r.outgoing.send (.flow
              { handle := handle.handle
                deliveryCount := some flowState.deliveryCount
                linkCredit := some maxCredit
                available := none
                drain := false
                echo := false
                properties := none }) with
            | none => (.error r.link.stopped, r)
            | some outgoing => (.ok (), { r with outgoing })
      else (.ok (), r)

def dispose (disposer : ReceiverDisposer) (r : ReceiverInner) (info : DeliveryInfo)
    (state : DeliveryState) : Except IllegalLinkStateError Unit × ReceiverInner :=
  let settled := info.rcvSettleMode.getD disposer.rcvSettleMode == .first
  let known := (r.link.unsettled.bind (·.get info.deliveryTag)).isSome
  let r := r.withLink
    (if settled then
      { r.link with unsettled := r.link.unsettled.map (·.swapRemove info.deliveryTag) }
    else r.link.insertUnsettled info.deliveryTag (some state))
  let sent :=
    if known then
      r.outgoing.send (.disposition
        { role := .receiver, first := info.deliveryId, last := none, settled, state := some state
          batchable := false })
    else some r.outgoing
  match sent with
  | none => (.error r.link.stopped, r)
  | some outgoing =>
      let prev := r.processed
      disposer.refreshCreditIfNeeded { r with outgoing, processed := prev + 1 } (prev + 1)

/-- The receiver itself refreshes the credit in the same way. -/
theorem refreshCreditIfNeeded_disposer (r : ReceiverInner) (processed : UInt32) :
    r.disposer.refreshCreditIfNeeded r processed = r.updateCreditIfAuto processed := by
  simp only [refreshCreditIfNeeded, ReceiverInner.updateCreditIfAuto, ReceiverInner.disposer]
  cases r.creditMode with
  | manual => rfl
  | auto maxCredit =>
      by_cases hfull : processed ≥ maxCredit / 2
      · simp only [if_pos hfull, ReceiverLink.sendFlow]
        cases houtput : r.link.outputHandle with
        | none => rfl
        | some handle =>
            simp only [ReceiverLink.getLinkFlow, ReceiverInner.withLink, Option.getD_some, houtput]
            split <;> simp_all
      · simp only [if_neg hfull]

/-- A disposer disposes of a delivery as its receiver does. -/
theorem dispose_disposer (r : ReceiverInner) (info : DeliveryInfo) (state : DeliveryState) :
    r.disposer.dispose r info state = r.dispose info none state := by
  have hrefresh (r' : ReceiverInner) (hr' : r'.disposer = r.disposer) (processed : UInt32) :
      r.disposer.refreshCreditIfNeeded r' processed = r'.updateCreditIfAuto processed := by
    rw [← hr', refreshCreditIfNeeded_disposer]
  have hsettled : (info.rcvSettleMode.getD r.disposer.rcvSettleMode == .first) =
      r.link.disposesSettled info none := rfl
  simp only [dispose, ReceiverInner.dispose, ReceiverLink.dispose, hsettled]
  cases r.link.disposesSettled info none with
  | true =>
      simp only [if_true, ReceiverInner.withLink]
      cases (r.link.unsettled.bind (·.get info.deliveryTag)).isSome with
      | true =>
          simp only [if_true]
          split
          case h_1 hsend => simp only [hsend]
          case h_2 outgoing hsend =>
            simp only [hsend]
            apply hrefresh
            rfl
      | false =>
          simp only [Bool.false_eq_true, if_false]
          apply hrefresh
          rfl
  | false =>
      simp only [Bool.false_eq_true, if_false, ReceiverInner.withLink]
      cases (r.link.unsettled.bind (·.get info.deliveryTag)).isSome with
      | true =>
          simp only [if_true]
          split
          case h_1 hsend => simp only [hsend]
          case h_2 outgoing hsend =>
            simp only [hsend]
            apply hrefresh
            rfl
      | false =>
          simp only [Bool.false_eq_true, if_false]
          apply hrefresh
          rfl

end ReceiverDisposer

/-! ## Disposal by the link -/

namespace ReceiverLink

theorem unsettled_disposeEntry_of_not_knows {link : ReceiverLink} {info : DeliveryInfo}
    (h : link.knows info.deliveryTag = false) (state : DeliveryState) :
    (link.disposeEntry true state info).unsettled = link.unsettled := by
  simp only [disposeEntry, if_true]
  cases hmap : link.unsettled with
  | none => rfl
  | some map =>
      have hget : map.get info.deliveryTag = none := by simpa [knows, hmap] using h
      rw [Option.map_some, IndexMap.swapRemove_of_get_eq_none hget]

/-- The disposition that one disposal sends. -/
def disposition (link : ReceiverLink) (info : DeliveryInfo) (settled : Option Bool)
    (state : DeliveryState) (batchable : Bool) : Disposition where
  role := .receiver
  first := info.deliveryId
  last := none
  settled := link.disposesSettled info settled
  state := some state
  batchable := batchable

/-- The entry is removed or replaced, and one disposition goes out if it was there and the session
listens. -/
theorem dispose_cases (link : ReceiverLink) (writer : LinkWriter) (info : DeliveryInfo)
    (settled : Option Bool) (state : DeliveryState) (batchable : Bool) :
    (link.dispose writer info settled state batchable).2 =
        link.disposeEntry (link.disposesSettled info settled) state info ∧
      (link.knows info.deliveryTag = false ∧
          (link.dispose writer info settled state batchable).1 = .ok writer ∨
        link.knows info.deliveryTag = true ∧ writer.closed = true ∧
          (link.dispose writer info settled state batchable).1 = .error link.stopped ∨
        link.knows info.deliveryTag = true ∧ writer.closed = false ∧
          (link.dispose writer info settled state batchable).1 =
            .ok { writer with
              sent := writer.sent ++
                [.disposition (link.disposition info settled state batchable)] }) := by
  have hstopped (flag : Bool) : (link.disposeEntry flag state info).stopped = link.stopped := by
    obtain ⟨unsettled, hlink⟩ := disposeEntry_eq flag state link info
    rw [hlink]
    rfl
  cases hknown : link.knows info.deliveryTag with
  | false =>
      have hdispose : link.dispose writer info settled state batchable =
          (.ok writer, link.disposeEntry (link.disposesSettled info settled) state info) := by
        rw [knows] at hknown
        simp only [dispose, hknown, Bool.false_eq_true, if_false]
        rfl
      rw [hdispose]
      exact ⟨rfl, .inl ⟨rfl, rfl⟩⟩
  | true =>
      rw [knows] at hknown
      cases hclosed : writer.closed with
      | true =>
          have hdispose : link.dispose writer info settled state batchable =
              (.error link.stopped,
                link.disposeEntry (link.disposesSettled info settled) state info) := by
            rw [← hstopped (link.disposesSettled info settled)]
            simp only [dispose, hknown, LinkWriter.send, hclosed, if_true]
            rfl
          rw [hdispose]
          exact ⟨rfl, .inr (.inl ⟨rfl, rfl, rfl⟩)⟩
      | false =>
          simp only [dispose, hknown, LinkWriter.send, hclosed, if_true, Bool.false_eq_true, if_false]
          exact ⟨rfl, .inr (.inr ⟨trivial, trivial, rfl⟩)⟩

end ReceiverLink

/-! ## A receiver and its disposers -/

structure ReceiverHandles where
  receiver : ReceiverInner
  disposers : List ReceiverDisposer

inductive Disposal where
  /-- The application asks for another disposer. -/
  | disposer
  /-- `ReceiverLink::dispose`, on the channel of the receiver. -/
  | byLink (info : DeliveryInfo) (settled : Option Bool) (state : DeliveryState) (batchable : Bool)
  | byReceiver (info : DeliveryInfo) (settled : Option Bool) (state : DeliveryState)
  | byDisposer (i : Nat) (info : DeliveryInfo) (state : DeliveryState)

/-- A disposition that was handed to the session for a delivery. -/
structure SentDisposition where
  deliveryTag : DeliveryTag
  disposition : Disposition

def LinkFrame.disposition? : LinkFrame → Option Disposition
  | .disposition sent => some sent
  | _ => none

/-- The dispositions among the frames that `after` holds and `before` does not. -/
def dispositionsSince (before after : LinkWriter) : List Disposition :=
  (after.sent.drop before.sent.length).filterMap LinkFrame.disposition?

namespace ReceiverHandles

/-- The receiver and the dispositions for the delivery after one of its operations. -/
def after (s : ReceiverHandles) (info : DeliveryInfo) (receiver : ReceiverInner) :
    ReceiverHandles × List SentDisposition :=
  ({ s with receiver },
    (dispositionsSince s.receiver.outgoing receiver.outgoing).map fun disposition =>
      ⟨info.deliveryTag, disposition⟩)

/-- The receiver after `ReceiverLink::dispose`. -/
def linkDispose (receiver : ReceiverInner) (info : DeliveryInfo) (settled : Option Bool)
    (state : DeliveryState) (batchable : Bool) : ReceiverInner :=
  match receiver.link.dispose receiver.outgoing info settled state batchable with
  | (.error _, link) => receiver.withLink link
  | (.ok outgoing, link) => { receiver with outgoing, link }

def step (s : ReceiverHandles) : Disposal → ReceiverHandles × List SentDisposition
  | .disposer => ({ s with disposers := s.disposers ++ [s.receiver.disposer] }, [])
  | .byLink info settled state batchable =>
      s.after info (linkDispose s.receiver info settled state batchable)
  | .byReceiver info settled state => s.after info (s.receiver.dispose info settled state).2
  | .byDisposer i info state =>
      match s.disposers[i]? with
      | none => (s, [])
      | some disposer => s.after info (disposer.dispose s.receiver info state).2

end ReceiverHandles

/-- The delivery that an event disposes of, and the settled flag that it passes. -/
def ReceiverHandles.target (s : ReceiverHandles) : Disposal → Option (DeliveryInfo × Option Bool)
  | .disposer => none
  | .byLink info settled _ _ => some (info, settled)
  | .byReceiver info settled _ => some (info, settled)
  | .byDisposer i info _ => s.disposers[i]?.map fun _ => (info, none)

/-! ## What one disposal does -/

/-- A receiver has disposed of a delivery: its entry is removed or replaced, and a disposition goes
out for a delivery whose entry was there. -/
structure Disposed (r : ReceiverInner) (info : DeliveryInfo) (settled : Option Bool)
    (state : DeliveryState) (batchable : Bool) (r' : ReceiverInner) : Prop where
  unsettled : r'.link.unsettled =
    (r.link.disposeEntry (r.link.disposesSettled info settled) state info).unsettled
  dispositions : dispositionsSince r.outgoing r'.outgoing =
    if r.link.knows info.deliveryTag ∧ r.outgoing.closed = false then
      [r.link.disposition info settled state batchable]
    else []
  disposer : r'.disposer = r.disposer

theorem dispositionsSince_append {before after : LinkWriter} {frames : List LinkFrame}
    (h : after.sent = before.sent ++ frames) :
    dispositionsSince before after = frames.filterMap LinkFrame.disposition? := by
  rw [dispositionsSince, h, List.drop_left]

/-- A refresh of the credit sends at most a flow and leaves the unsettled map alone. -/
theorem Disposed.updateCreditIfAuto {r r' : ReceiverInner} {info : DeliveryInfo}
    {settled : Option Bool} {state : DeliveryState} {batchable : Bool}
    (h : Disposed r info settled state batchable r')
    (hsent : ∃ frames, r'.outgoing.sent = r.outgoing.sent ++ frames) (processed : UInt32) :
    Disposed r info settled state batchable (r'.updateCreditIfAuto processed).2 := by
  obtain ⟨frames, hsent⟩ := hsent
  obtain ⟨hcredit, -⟩ | ⟨maxCredit, -, -, ⟨-, hcredit⟩ | ⟨-, hcredit⟩ | ⟨-, flow, hcredit⟩⟩ :=
    r'.updateCreditIfAuto_cases processed
  · rw [hcredit]
    exact h
  · rw [hcredit]
    exact ⟨h.unsettled, h.dispositions, h.disposer⟩
  · rw [hcredit]
    exact ⟨h.unsettled, h.dispositions, h.disposer⟩
  · rw [hcredit]
    refine ⟨h.unsettled, ?_, h.disposer⟩
    rw [← h.dispositions, dispositionsSince_append hsent]
    have hframes : (r'.outgoing.sent ++ [LinkFrame.flow flow]) =
        r.outgoing.sent ++ (frames ++ [.flow flow]) := by rw [hsent, List.append_assoc]
    rw [dispositionsSince_append hframes, List.filterMap_append]
    simp [LinkFrame.disposition?]

namespace ReceiverHandles

theorem disposed_linkDispose (r : ReceiverInner) (info : DeliveryInfo) (settled : Option Bool)
    (state : DeliveryState) (batchable : Bool) :
    Disposed r info settled state batchable (linkDispose r info settled state batchable) ∧
      ∃ frames, (linkDispose r info settled state batchable).outgoing.sent =
        r.outgoing.sent ++ frames := by
  obtain ⟨hlink, hwriter⟩ := r.link.dispose_cases r.outgoing info settled state batchable
  obtain ⟨unsettled, hentry⟩ :=
    r.link.disposeEntry_eq (r.link.disposesSettled info settled) state info
  have hcall : r.link.dispose r.outgoing info settled state batchable =
      ((r.link.dispose r.outgoing info settled state batchable).1, { r.link with unsettled }) := by
    rw [← hentry, ← hlink]
  rw [linkDispose, hcall]
  rcases hwriter with ⟨hknown, hsent⟩ | ⟨hknown, hclosed, hsent⟩ | ⟨hknown, hclosed, hsent⟩
  · rw [hsent]
    exact ⟨⟨by rw [hentry], by simp [dispositionsSince, hknown], rfl⟩, [], by simp⟩
  · rw [hsent]
    exact ⟨⟨by rw [hentry]; rfl, by simp [dispositionsSince, hclosed, ReceiverInner.withLink], rfl⟩,
      [], by simp [ReceiverInner.withLink]⟩
  · rw [hsent]
    refine ⟨⟨by rw [hentry], ?_, rfl⟩, _, rfl⟩
    simp [dispositionsSince, hknown, hclosed, LinkFrame.disposition?]

/-- The receiver disposes as its link does, and then counts the delivery. -/
theorem disposed_dispose (r : ReceiverInner) (info : DeliveryInfo) (settled : Option Bool)
    (state : DeliveryState) :
    Disposed r info settled state false (r.dispose info settled state).2 := by
  obtain ⟨hdisposed, hframes⟩ := disposed_linkDispose r info settled state false
  rw [linkDispose] at hdisposed hframes
  rw [ReceiverInner.dispose]
  cases hlink : r.link.dispose r.outgoing info settled state false with
  | mk result link =>
      rw [hlink] at hdisposed hframes
      cases result with
      | error e => exact hdisposed
      | ok outgoing =>
          have hcounted : Disposed r info settled state false
              { r with outgoing, link, processed := r.processed + 1 } :=
            ⟨hdisposed.unsettled, hdisposed.dispositions, hdisposed.disposer⟩
          exact hcounted.updateCreditIfAuto hframes _

/-! ## Runs -/

/-- The disposers are those that the receiver would make now. -/
def Cloned (s : ReceiverHandles) : Prop :=
  ∀ disposer ∈ s.disposers, disposer = s.receiver.disposer

/-- An event disposes of no delivery and sends nothing, or the receiver has disposed of its target. -/
theorem step_cases {s : ReceiverHandles} (hs : s.Cloned) (e : Disposal) :
    (s.target e = none ∧ (s.step e).2 = [] ∧ (s.step e).1.receiver = s.receiver) ∨
      ∃ info settled state batchable r', s.target e = some (info, settled) ∧
        s.step e = s.after info r' ∧ Disposed s.receiver info settled state batchable r' := by
  cases e with
  | disposer => exact .inl ⟨rfl, rfl, rfl⟩
  | byLink info settled state batchable =>
      exact .inr ⟨info, settled, state, batchable, _, rfl, rfl, (disposed_linkDispose ..).1⟩
  | byReceiver info settled state =>
      exact .inr ⟨info, settled, state, false, _, rfl, rfl, disposed_dispose ..⟩
  | byDisposer i info state =>
      cases hi : s.disposers[i]? with
      | none => exact .inl (by simp [target, step, hi])
      | some disposer =>
          obtain rfl := hs disposer (List.mem_of_getElem? hi)
          refine .inr ⟨info, none, state, false, _, by simp [target, hi], ?_, disposed_dispose ..⟩
          simp only [step, hi, ReceiverDisposer.dispose_disposer]

theorem Cloned.step {s : ReceiverHandles} (hs : s.Cloned) (e : Disposal) : (s.step e).1.Cloned := by
  obtain ⟨-, -, hreceiver⟩ | ⟨info, settled, state, batchable, r', -, hstep, hdisposed⟩ :=
    step_cases hs e
  · intro disposer hmem
    rw [hreceiver]
    cases e with
    | disposer =>
        rcases List.mem_append.mp hmem with hmem | hmem
        · exact hs disposer hmem
        · exact List.mem_singleton.mp hmem
    | byLink info settled state batchable => exact hs disposer hmem
    | byReceiver info settled state => exact hs disposer hmem
    | byDisposer i info state =>
        simp only [ReceiverHandles.step] at hmem
        split at hmem <;> exact hs disposer hmem
  · rw [hstep]
    intro disposer hmem
    rw [hs disposer hmem]
    exact hdisposed.disposer.symm

/-- A disposal settles its delivery, or the unsettled map has the delivery. -/
def SettlesOrKnows (s : ReceiverHandles) (e : Disposal) : Prop :=
  ∀ info settled, s.target e = some (info, settled) →
    s.receiver.link.disposesSettled info settled = true ∨
      s.receiver.link.knows info.deliveryTag = true

end ReceiverHandles

/-- Along the events no disposition goes out for a delivery that the unsettled map lacks, a disposal
of such a delivery leaves the map alone, none goes out for a delivery after the one that settled it,
and a disposer changes the map and sends a disposition as the link does. -/
structure DisposesOnce (s : ReceiverHandles) (es : List Disposal) : Prop where
  known : Run.Along ReceiverHandles.step (fun s e => ∀ sent ∈ (s.step e).2,
    s.receiver.link.knows sent.deliveryTag = true) s es
  unchanged : Run.Along ReceiverHandles.step (fun s e => ∀ info settled,
    s.target e = some (info, settled) → s.receiver.link.knows info.deliveryTag = false →
      (s.step e).1.receiver.link.unsettled = s.receiver.link.unsettled) s es
  once : (Run.run ReceiverHandles.step s es).2.Pairwise fun sent later =>
    sent.disposition.settled = true → later.deliveryTag ≠ sent.deliveryTag
  alike : Run.Along ReceiverHandles.step (fun s e => ∀ i info state, e = .byDisposer i info state →
    i < s.disposers.length →
      (s.step e).1.receiver.link.unsettled =
          (s.step (.byLink info none state false)).1.receiver.link.unsettled ∧
        (s.step e).2 = (s.step (.byLink info none state false)).2) s es

theorem Disposed.knows {r r' : ReceiverInner} {info : DeliveryInfo} {settled : Option Bool}
    {state : DeliveryState} {batchable : Bool} (h : Disposed r info settled state batchable r')
    (tag : DeliveryTag) : r'.link.knows tag =
      if tag = info.deliveryTag then !r.link.disposesSettled info settled
      else r.link.knows tag := by
  have hentry := ReceiverLink.disposeEntry_unsettledEntry (r.link.disposesSettled info settled) state
    r.link info tag
  rw [ReceiverLink.unsettledEntry, ← h.unsettled] at hentry
  rw [ReceiverLink.knows, hentry]
  split_ifs <;> simp_all [ReceiverLink.knows, ReceiverLink.unsettledEntry]

namespace ReceiverHandles

theorem mem_after {s : ReceiverHandles} {info : DeliveryInfo} {settled : Option Bool}
    {state : DeliveryState} {batchable : Bool} {r' : ReceiverInner}
    (h : Disposed s.receiver info settled state batchable r') {sent : SentDisposition}
    (hsent : sent ∈ (s.after info r').2) :
    sent = ⟨info.deliveryTag, s.receiver.link.disposition info settled state batchable⟩ ∧
      s.receiver.link.knows info.deliveryTag = true := by
  simp only [after, h.dispositions] at hsent
  split_ifs at hsent with hknown
  · exact ⟨List.mem_singleton.mp hsent, hknown.1⟩
  · cases hsent

theorem knows_of_mem_step {s : ReceiverHandles} (hs : s.Cloned) {e : Disposal}
    {sent : SentDisposition} (hsent : sent ∈ (s.step e).2) :
    s.receiver.link.knows sent.deliveryTag = true := by
  obtain ⟨-, hnothing, -⟩ | ⟨info, settled, state, batchable, r', -, hstep, hdisposed⟩ :=
    step_cases hs e
  · rw [hnothing] at hsent
    cases hsent
  · rw [hstep] at hsent
    obtain ⟨rfl, hknown⟩ := mem_after hdisposed hsent
    exact hknown

/-- Once a disposition has settled a delivery its tag is gone. -/
theorem not_knows_of_settled {s : ReceiverHandles} (hs : s.Cloned) {e : Disposal}
    {sent : SentDisposition} (hsent : sent ∈ (s.step e).2)
    (hsettled : sent.disposition.settled = true) :
    (s.step e).1.receiver.link.knows sent.deliveryTag = false := by
  obtain ⟨-, hnothing, -⟩ | ⟨info, settled, state, batchable, r', -, hstep, hdisposed⟩ :=
    step_cases hs e
  · rw [hnothing] at hsent
    cases hsent
  · rw [hstep] at hsent ⊢
    obtain ⟨rfl, -⟩ := mem_after hdisposed hsent
    have hflag : s.receiver.link.disposesSettled info settled = true := hsettled
    have hknows := hdisposed.knows info.deliveryTag
    rwa [if_pos rfl, hflag] at hknows

/-- A tag that is gone stays gone. -/
theorem not_knows_step {s : ReceiverHandles} (hs : s.Cloned) {e : Disposal}
    (he : s.SettlesOrKnows e) {tag : DeliveryTag} (htag : s.receiver.link.knows tag = false) :
    (s.step e).1.receiver.link.knows tag = false := by
  obtain ⟨-, -, hreceiver⟩ | ⟨info, settled, state, batchable, r', htarget, hstep, hdisposed⟩ :=
    step_cases hs e
  · rw [hreceiver]
    exact htag
  · rw [hstep]
    have hknows := hdisposed.knows tag
    by_cases hsame : tag = info.deliveryTag
    · subst hsame
      rcases he info settled htarget with hsettled | hknown
      · rwa [if_pos rfl, hsettled] at hknows
      · rw [hknown] at htag
        cases htag
    · rw [if_neg hsame] at hknows
      exact hknows.trans htag

theorem silent_of_not_knows {s : ReceiverHandles} (hs : s.Cloned) {tag : DeliveryTag}
    (htag : s.receiver.link.knows tag = false) {es : List Disposal}
    (hes : Run.Along step SettlesOrKnows s es) :
    ∀ sent ∈ (Run.run step s es).2, sent.deliveryTag ≠ tag := by
  induction es generalizing s with
  | nil => exact List.forall_mem_nil _
  | cons e es ih =>
      intro sent hsent
      rcases List.mem_append.mp hsent with hsent | hsent
      · intro hsame
        have hknown := knows_of_mem_step hs hsent
        rw [hsame, htag] at hknown
        cases hknown
      · exact ih (hs.step e) (not_knows_step hs hes.1 htag) hes.2 sent hsent

theorem pairwise_step {s : ReceiverHandles} (hs : s.Cloned) (e : Disposal)
    (R : SentDisposition → SentDisposition → Prop) : (s.step e).2.Pairwise R := by
  obtain ⟨-, hnothing, -⟩ | ⟨info, settled, state, batchable, r', -, hstep, hdisposed⟩ :=
    step_cases hs e
  · rw [hnothing]
    exact List.Pairwise.nil
  · simp only [hstep, after, hdisposed.dispositions]
    split_ifs
    · exact List.pairwise_singleton _ _
    · exact List.Pairwise.nil

theorem once_of_along {s : ReceiverHandles} (hs : s.Cloned) {es : List Disposal}
    (hes : Run.Along step SettlesOrKnows s es) : (Run.run step s es).2.Pairwise fun sent later =>
      sent.disposition.settled = true → later.deliveryTag ≠ sent.deliveryTag := by
  induction es generalizing s with
  | nil => exact List.Pairwise.nil
  | cons e es ih =>
      refine List.pairwise_append.mpr ⟨pairwise_step hs e _, ih (hs.step e) hes.2, ?_⟩
      intro sent hsent later hlater hsettled
      have hgone := not_knows_of_settled hs hsent hsettled
      exact silent_of_not_knows (hs.step e) hgone hes.2 later hlater

/-- A disposal that does not settle its delivery leaves an entry for it. -/
theorem unchanged_iff {s : ReceiverHandles} (hs : s.Cloned) (e : Disposal) :
    (∀ info settled, s.target e = some (info, settled) →
      s.receiver.link.knows info.deliveryTag = false →
        (s.step e).1.receiver.link.unsettled = s.receiver.link.unsettled) ↔ s.SettlesOrKnows e := by
  obtain ⟨htarget, -, -⟩ | ⟨info, settled, state, batchable, r', htarget, hstep, hdisposed⟩ :=
    step_cases hs e
  · simp [SettlesOrKnows, htarget]
  · have hreceiver : (s.step e).1.receiver = r' := by rw [hstep]; rfl
    simp only [SettlesOrKnows, htarget, Option.some.injEq, Prod.mk.injEq, hreceiver]
    constructor
    · rintro h info' settled' ⟨rfl, rfl⟩
      by_contra hneither
      simp only [not_or, Bool.not_eq_true] at hneither
      have hsame := h info settled ⟨rfl, rfl⟩ hneither.2
      have hknows := hdisposed.knows info.deliveryTag
      rw [if_pos rfl, hneither.1, ReceiverLink.knows, hsame] at hknows
      rw [ReceiverLink.knows, hknows] at hneither
      exact absurd hneither.2 (by decide)
    · rintro h info' settled' ⟨rfl, rfl⟩ hunknown
      rcases h info settled ⟨rfl, rfl⟩ with hsettled | hknown
      · rw [hdisposed.unsettled, hsettled]
        exact ReceiverLink.unsettled_disposeEntry_of_not_knows hunknown state
      · rw [hknown] at hunknown
        cases hunknown

theorem unsettled_congr_of_disposed {r r' r'' : ReceiverInner} {info : DeliveryInfo}
    {settled : Option Bool} {state : DeliveryState} {batchable : Bool}
    (h : Disposed r info settled state batchable r')
    (h' : Disposed r info settled state batchable r'') :
    r'.link.unsettled = r''.link.unsettled ∧
      dispositionsSince r.outgoing r'.outgoing = dispositionsSince r.outgoing r''.outgoing :=
  ⟨h.unsettled.trans h'.unsettled.symm, h.dispositions.trans h'.dispositions.symm⟩

/-- A disposer changes the map and sends a disposition as the link does. -/
theorem byDisposer_alike {s : ReceiverHandles} (hs : s.Cloned) {i : Nat} {info : DeliveryInfo}
    {state : DeliveryState} (hi : i < s.disposers.length) :
    (s.step (.byDisposer i info state)).1.receiver.link.unsettled =
        (s.step (.byLink info none state false)).1.receiver.link.unsettled ∧
      (s.step (.byDisposer i info state)).2 = (s.step (.byLink info none state false)).2 := by
  have hdisposer : s.disposers[i]? = some s.receiver.disposer := by
    rw [List.getElem?_eq_getElem hi, hs _ (List.getElem_mem hi)]
  simp only [step, hdisposer, ReceiverDisposer.dispose_disposer, after]
  obtain ⟨hmap, hsent⟩ := unsettled_congr_of_disposed (disposed_dispose s.receiver info none state)
    (disposed_linkDispose s.receiver info none state false).1
  exact ⟨hmap, by rw [hsent]⟩

end ReceiverHandles

/-- Disposals through a receiver and its disposers go out once and leave unknown deliveries alone
exactly if no disposal keeps a delivery unsettled that the unsettled map does not have. -/
theorem disposesOnce_iff (receiver : ReceiverInner) (es : List Disposal) :
    DisposesOnce ⟨receiver, []⟩ es ↔
      Run.Along ReceiverHandles.step ReceiverHandles.SettlesOrKnows ⟨receiver, []⟩ es := by
  have hstart : ReceiverHandles.Cloned ⟨receiver, []⟩ := List.forall_mem_nil _
  have hkept : ∀ (s : ReceiverHandles) (e : Disposal), s.Cloned → (s.step e).1.Cloned :=
    fun s e hs => hs.step e
  constructor
  · intro h
    refine Run.Along.imp hkept ?_ hstart h.unchanged
    exact fun s e hs => (ReceiverHandles.unchanged_iff hs e).mp
  · intro h
    refine ⟨?_, ?_, ReceiverHandles.once_of_along hstart h, ?_⟩
    · refine Run.Along.imp hkept ?_ hstart h
      exact fun s e hs _ sent hsent => ReceiverHandles.knows_of_mem_step hs hsent
    · refine Run.Along.imp hkept ?_ hstart h
      exact fun s e hs => (ReceiverHandles.unchanged_iff hs e).mpr
    · refine Run.Along.imp hkept ?_ hstart h
      rintro s e hs - i info state rfl hi
      exact ReceiverHandles.byDisposer_alike hs hi

section Witnesses

/-- A receiver that settles second, with nothing unsettled. -/
private def settlingSecond : ReceiverInner where
  link :=
    { localState := .attached
      outputHandle := some ⟨0⟩
      rcvSettleMode := .second
      maxMessageSize := 0
      flowState := ⟨0, 0, 10, 0, false, none⟩
      unsettled := none
      sessionStopReason := none }
  creditMode := .manual
  processed := 0
  autoAccept := false
  outgoing := ⟨[], false⟩
  incompleteTransfer := none

/-- A delivery that the sender settled is accepted: the map gets an entry for it. -/
theorem not_disposesOnce_presettled :
    ¬DisposesOnce ⟨settlingSecond, []⟩ [.byReceiver ⟨7, [1], none⟩ none .accepted] := by
  intro h
  have hsame := h.unchanged.1 ⟨7, [1], none⟩ none rfl rfl
  have hchanged : (settlingSecond.dispose ⟨7, [1], none⟩ none .accepted).2.link.knows [1] = true := by
    decide
  rw [ReceiverLink.knows] at hchanged
  exact absurd (hsame ▸ hchanged) (by decide)

end Witnesses

end Fe2o3Amqp
