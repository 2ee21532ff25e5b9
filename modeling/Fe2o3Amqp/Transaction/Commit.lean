import Fe2o3Amqp.Transaction.Isolation

/-!
# Whether a commit is all or nothing

A commit hands the frames of a transaction to the session one by one, by the input handles that they
carry.  It is atomic exactly when no link of the transaction was detached, and no handle of it given
to another link, since the frames were buffered: a frame that does not find its link fails in the
middle, or passes by the link in silence, and what went before it stays.
-/

namespace Fe2o3Amqp

namespace Session

/-- The session after one frame of a commit. -/
def discharge (s : Session) : TxnWorkFrame → Session
  | .post transfer payload => (s.onIncomingTransfer transfer.discharged payload).2
  | .retire disposition => (s.onIncomingDisposition disposition.discharged).2

end Session

/-- A frame of a transaction, and the link that each handle had when the frame was buffered. -/
structure BufferedWork where
  frame : TxnWorkFrame
  linkAt : InputHandle → Option LinkId

namespace BufferedWork

/-- In the session `s` the frame is applied to the link on which it was posted: a transfer is queued
for it, and every delivery that a retirement finds is settled on the link that its handle had. -/
def Reaches (work : BufferedWork) (s : Session) : Prop :=
  match work.frame with
  | .post transfer payload =>
      ∃ link, work.linkAt ⟨transfer.handle⟩ = some link ∧
        ((s.discharge work.frame).links.cell link).incoming =
          (s.links.cell link).incoming ++
            [.remoteTransfer ⟨⟨transfer.handle⟩, transfer.discharged, payload⟩]
  | .retire disposition =>
      ∀ id ∈ Session.deliveryIds disposition.first (disposition.last.getD disposition.first),
        ∀ handle tag, s.deliveryTagById (disposition.role, id) = some (handle, tag) →
          ∃ relay, s.linkByInputHandle handle = some relay ∧ work.linkAt handle = some relay.link

/-- Every frame reaches its link in the session that the frames before it leave. -/
def AllReach (s : Session) : List BufferedWork → Prop
  | [] => True
  | work :: rest => work.Reaches s ∧ AllReach (s.discharge work.frame) rest

end BufferedWork

namespace TxnSession

/-- The commit applies every frame to the link on which it was posted, or it fails and leaves the
wrapped session as it was. -/
def AllOrNothing (s : TxnSession Session) (txnId : TransactionId) (work : List BufferedWork) : Prop :=
  ((s.commitTransaction txnId).1.isOk ∧ BufferedWork.AllReach s.session work) ∨
    ((s.commitTransaction txnId).1.isOk = false ∧ (s.commitTransaction txnId).2.session = s.session)

end TxnSession

/-! ## The condition -/

namespace Session

/-- The relay waits for the settlement of the transfer, and remembers it by its delivery-id. -/
def awaitsSecond (s : Session) (transfer : Transfer) : Bool :=
  match s.linkByInputHandle ⟨transfer.handle⟩ with
  | some (.receiver _ _ .second _) => !transfer.settled.getD false
  | _ => false

/-- Whether the relay at a handle is inside a delivery, after the frames `earlier` of the
transaction (the last of them first). -/
def moreAfter (s : Session) (handle : InputHandle) : List TxnWorkFrame → Bool
  | [] =>
      match s.linkByInputHandle handle with
      | some (.receiver _ _ _ more) => more
      | _ => false
  | .post transfer _ :: earlier =>
      if (⟨transfer.handle⟩ : InputHandle) = handle ∧ s.awaitsSecond transfer ∧
          s.moreAfter handle earlier then transfer.more
      else s.moreAfter handle earlier
  | .retire _ :: earlier => s.moreAfter handle earlier

/-- Where a delivery is registered after the frames `earlier` of the transaction: the session's own
entry, unless a post of the transaction registers the id or a retirement takes it. -/
def registered (s : Session) :
    List TxnWorkFrame → Role × DeliveryNumber → Option (InputHandle × DeliveryTag)
  | [], key => s.deliveryTagById key
  | .post transfer _ :: earlier, key =>
      match transfer.deliveryId, transfer.deliveryTag with
      | some id, some tag =>
          if s.awaitsSecond transfer ∧ s.moreAfter ⟨transfer.handle⟩ earlier = false ∧
              key = (.sender, id) then some (⟨transfer.handle⟩, tag)
          else s.registered earlier key
      | _, _ => s.registered earlier key
  | .retire disposition :: earlier, key =>
      if key.1 = disposition.role ∧
          key.2 ∈ deliveryIds disposition.first (disposition.last.getD disposition.first) then none
      else s.registered earlier key

end Session

/-- The link on which the frame was posted is attached under the same handle in the session before
the commit; for a retirement, the links of the deliveries that it covers are. -/
def BufferedWork.Attached (work : BufferedWork) (s : Session) (earlier : List TxnWorkFrame) : Prop :=
  match work.frame with
  | .post transfer _ =>
      ∃ link outputHandle mode more,
        s.linkByInputHandle ⟨transfer.handle⟩ = some (.receiver link outputHandle mode more) ∧
          (s.links.cell link).endpointDropped = false ∧
          work.linkAt ⟨transfer.handle⟩ = some link
  | .retire disposition =>
      ∀ id ∈ Session.deliveryIds disposition.first (disposition.last.getD disposition.first),
        ∀ handle tag, s.registered earlier (disposition.role, id) = some (handle, tag) →
          ∃ relay, s.linkByInputHandle handle = some relay ∧ work.linkAt handle = some relay.link

namespace Session

/-! ## One frame -/

/-- The relay with another value of `more`. -/
def withMore (more : Bool) : LinkRelay OutputHandle → LinkRelay OutputHandle
  | .receiver link outputHandle mode _ => .receiver link outputHandle mode more
  | relay => relay

@[simp] theorem link_withMore (more : Bool) (relay : LinkRelay OutputHandle) :
    (withMore more relay).link = relay.link := by
  cases relay <;> rfl

/-- The session `s'` is what the frames `earlier` of a transaction leave of `s`. -/
structure Discharged (s : Session) (earlier : List TxnWorkFrame) (s' : Session) : Prop where
  relays : ∀ handle, s'.linkByInputHandle handle =
    (s.linkByInputHandle handle).map (withMore (s.moreAfter handle earlier))
  alive : ∀ link, (s'.links.cell link).endpointDropped = (s.links.cell link).endpointDropped
  tags : s'.deliveryTagById = s.registered earlier

theorem discharged_nil (s : Session) : s.Discharged [] s := by
  refine ⟨fun handle => ?_, fun _ => rfl, rfl⟩
  simp only [moreAfter]
  cases s.linkByInputHandle handle with
  | none => rfl
  | some relay => cases relay <;> rfl

/-- A transfer to a relay that takes it. -/
theorem onIncomingTransfer_of_receiver {s : Session} {transfer : Transfer} (payload : Payload)
    {link : LinkId} {outputHandle : OutputHandle} {mode : ReceiverSettleMode} {more : Bool}
    (hrelay : s.linkByInputHandle ⟨transfer.handle⟩ = some (.receiver link outputHandle mode more))
    (halive : (s.links.cell link).endpointDropped = false) :
    (s.onIncomingTransfer transfer payload).1 = .ok none ∧
      (s.onIncomingTransfer transfer payload).2.links =
        s.links.modify link (fun cell => { cell with
          incoming := cell.incoming ++ [.remoteTransfer ⟨⟨transfer.handle⟩, transfer, payload⟩] }) ∧
      (s.onIncomingTransfer transfer payload).2.linkByInputHandle =
        Function.update s.linkByInputHandle ⟨transfer.handle⟩ (some (.receiver link outputHandle mode
          (if s.awaitsSecond transfer ∧ more then transfer.more else more))) ∧
      (s.onIncomingTransfer transfer payload).2.deliveryTagById =
        match transfer.deliveryId, transfer.deliveryTag with
        | some id, some tag =>
            if s.awaitsSecond transfer ∧ more = false then
              Function.update s.deliveryTagById (.sender, id) (some (⟨transfer.handle⟩, tag))
            else s.deliveryTagById
        | _, _ => s.deliveryTagById := by
  have hsend : s.links.send link (.remoteTransfer ⟨⟨transfer.handle⟩, transfer, payload⟩) =
      some (s.links.modify link fun cell => { cell with
        incoming := cell.incoming ++ [.remoteTransfer ⟨⟨transfer.handle⟩, transfer, payload⟩] }) := by
    simp [LinkStore.send, halive]
  simp only [onIncomingTransfer, hrelay, LinkRelay.onIncomingTransfer, hsend, awaitsSecond]
  cases hsettled : transfer.settled.getD false <;> cases mode <;> cases more <;>
    cases hid : transfer.deliveryId <;> cases htag : transfer.deliveryTag <;> simp

/-- A transfer is taken, or it finds no live receiver; it is counted then as well. -/
theorem onIncomingTransfer_cases (s : Session) (transfer : Transfer) (payload : Payload) :
    (∃ link outputHandle mode more,
      s.linkByInputHandle ⟨transfer.handle⟩ = some (.receiver link outputHandle mode more) ∧
        (s.links.cell link).endpointDropped = false) ∨
      ((s.onIncomingTransfer transfer payload).1.isOk = false ∧
        (s.onIncomingTransfer transfer payload).2.links = s.links ∧
        (s.onIncomingTransfer transfer payload).2.nextIncomingId = s.nextIncomingId + 1) := by
  cases hrelay : s.linkByInputHandle ⟨transfer.handle⟩ with
  | none => exact .inr (by simp [onIncomingTransfer, hrelay, Except.isOk, Except.toBool])
  | some relay =>
      cases relay with
      | sender link outputHandle mode =>
          refine .inr ?_
          simp [onIncomingTransfer, hrelay, LinkRelay.onIncomingTransfer, Except.isOk, Except.toBool]
      | receiver link outputHandle mode more =>
          cases halive : (s.links.cell link).endpointDropped with
          | false => exact .inl ⟨link, outputHandle, mode, more, rfl, halive⟩
          | true =>
              refine .inr ?_
              simp [onIncomingTransfer, hrelay, LinkRelay.onIncomingTransfer, LinkStore.send, halive,
                Except.isOk, Except.toBool]

/-- What a disposition leaves alone in the link store. -/
theorem onIncomingDisposition_queues (relay : LinkRelay OutputHandle) (store : LinkStore)
    (settled : Bool) (state : Option DeliveryState) (tag : DeliveryTag) (link : LinkId) :
    ((relay.onIncomingDisposition store settled state tag).2.cell link).incoming =
        (store.cell link).incoming ∧
      ((relay.onIncomingDisposition store settled state tag).2.cell link).endpointDropped =
        (store.cell link).endpointDropped := by
  have hmodify : ∀ (link' : LinkId) (f : LinkCell → LinkCell),
      (∀ cell, (f cell).incoming = cell.incoming ∧ (f cell).endpointDropped = cell.endpointDropped) →
        ((store.modify link' f).cell link).incoming = (store.cell link).incoming ∧
          ((store.modify link' f).cell link).endpointDropped = (store.cell link).endpointDropped := by
    intro link' f hf
    by_cases heq : link = link'
    · subst heq
      simpa [LinkStore.modify] using hf (store.cell link)
    · simp [LinkStore.modify, heq]
  have hsettle : ∀ link', ((store.settle link' tag state).cell link).incoming =
        (store.cell link).incoming ∧
      ((store.settle link' tag state).cell link).endpointDropped =
        (store.cell link).endpointDropped := by
    intro link'
    simp only [LinkStore.settle]
    split
    · exact ⟨rfl, rfl⟩
    · split
      · exact ⟨rfl, rfl⟩
      · simp only [LinkStore.resolve]
        apply hmodify
        exact fun _ => ⟨rfl, rfl⟩
  cases relay with
  | sender link' outputHandle mode =>
      simp only [LinkRelay.onIncomingDisposition]
      split_ifs
      · exact hsettle link'
      · exact hsettle link'
      · dsimp only
        apply hmodify
        exact fun _ => ⟨rfl, rfl⟩
  | receiver link' outputHandle mode more =>
      simp only [LinkRelay.onIncomingDisposition]
      apply hmodify
      exact fun _ => ⟨rfl, rfl⟩

/-- The settled deliveries are no longer registered, and nothing else about the session changes that
later frames read. -/
theorem foldl_settleDelivery (disposition : Disposition) (ids : List DeliveryNumber) (s : Session) :
    (ids.foldl (settleDelivery disposition) s).linkByInputHandle = s.linkByInputHandle ∧
      (ids.foldl (settleDelivery disposition) s).nextIncomingId = s.nextIncomingId ∧
      (∀ link, ((ids.foldl (settleDelivery disposition) s).links.cell link).incoming =
        (s.links.cell link).incoming) ∧
      (∀ link, ((ids.foldl (settleDelivery disposition) s).links.cell link).endpointDropped =
        (s.links.cell link).endpointDropped) ∧
      (ids.foldl (settleDelivery disposition) s).deliveryTagById =
        fun key => if key.1 = disposition.role ∧ key.2 ∈ ids then none else s.deliveryTagById key := by
  induction ids generalizing s with
  | nil => simp
  | cons id ids ih =>
      have hstep : (settleDelivery disposition s id).linkByInputHandle = s.linkByInputHandle ∧
          (settleDelivery disposition s id).nextIncomingId = s.nextIncomingId ∧
          (∀ link, ((settleDelivery disposition s id).links.cell link).incoming =
            (s.links.cell link).incoming) ∧
          (∀ link, ((settleDelivery disposition s id).links.cell link).endpointDropped =
            (s.links.cell link).endpointDropped) ∧
          (settleDelivery disposition s id).deliveryTagById =
            Function.update s.deliveryTagById (disposition.role, id) none := by
        simp only [settleDelivery]
        cases htag : s.deliveryTagById (disposition.role, id) with
        | none =>
            refine ⟨rfl, rfl, fun _ => rfl, fun _ => rfl, ?_⟩
            have hsame := Function.update_eq_self (disposition.role, id) s.deliveryTagById
            rw [htag] at hsame
            exact hsame.symm
        | some entry =>
            obtain ⟨handle, tag⟩ := entry
            dsimp only
            cases s.linkByInputHandle handle with
            | none => exact ⟨rfl, rfl, fun _ => rfl, fun _ => rfl, rfl⟩
            | some relay =>
                exact ⟨rfl, rfl, fun link => (onIncomingDisposition_queues relay _ _ _ tag link).1,
                  fun link => (onIncomingDisposition_queues relay _ _ _ tag link).2, rfl⟩
      obtain ⟨hrelays, hnext, hqueues, halive, htags⟩ := hstep
      obtain ⟨hrelays', hnext', hqueues', halive', htags'⟩ := ih (settleDelivery disposition s id)
      refine ⟨hrelays'.trans hrelays, hnext'.trans hnext, fun link => (hqueues' link).trans (hqueues link),
        fun link => (halive' link).trans (halive link), ?_⟩
      rw [List.foldl_cons, htags', htags]
      funext key
      obtain ⟨role, id'⟩ := key
      by_cases hrole : role = disposition.role
      · by_cases hid : id' = id
        · simp [hrole, hid]
        · simp [hrole, hid]
      · simp [hrole]

/-- A retirement keeps what the earlier frames left and takes the deliveries that it covers. -/
theorem Discharged.retire {s s' : Session} {earlier : List TxnWorkFrame} (h : s.Discharged earlier s')
    (disposition : Disposition) :
    s.Discharged (.retire disposition :: earlier) (s'.discharge (.retire disposition)) := by
  obtain ⟨hrelays, -, -, halive, htags⟩ := foldl_settleDelivery disposition.discharged
    (deliveryIds disposition.first (disposition.last.getD disposition.first)) s'
  refine ⟨fun handle => ?_, fun link => (halive link).trans (h.alive link), ?_⟩
  · exact (congrFun hrelays handle).trans (h.relays handle)
  · refine htags.trans ?_
    funext key
    rw [h.tags]
    rfl

/-- A post that its relay takes. -/
theorem Discharged.post {s s' : Session} {earlier : List TxnWorkFrame} (h : s.Discharged earlier s')
    {transfer : Transfer} (payload : Payload) {link : LinkId} {outputHandle : OutputHandle}
    {mode : ReceiverSettleMode} {more : Bool}
    (hrelay : s.linkByInputHandle ⟨transfer.handle⟩ = some (.receiver link outputHandle mode more))
    (halive : (s.links.cell link).endpointDropped = false) :
    s.Discharged (.post transfer payload :: earlier) (s'.discharge (.post transfer payload)) ∧
      (s'.onIncomingTransfer transfer.discharged payload).1.isOk ∧
      (s'.discharge (.post transfer payload)).links =
        s'.links.modify link (fun cell => { cell with
          incoming := cell.incoming ++
            [.remoteTransfer ⟨⟨transfer.handle⟩, transfer.discharged, payload⟩] }) := by
  have hrelay' : s'.linkByInputHandle ⟨transfer.discharged.handle⟩ =
      some (.receiver link outputHandle mode (s.moreAfter ⟨transfer.handle⟩ earlier)) := by
    have hsame := h.relays ⟨transfer.handle⟩
    rw [hrelay] at hsame
    exact hsame
  have halive' : (s'.links.cell link).endpointDropped = false := (h.alive link).trans halive
  obtain ⟨hok, hlinks, hrelays, htags⟩ := onIncomingTransfer_of_receiver payload hrelay' halive'
  have hawaits : s'.awaitsSecond transfer.discharged = s.awaitsSecond transfer := by
    simp only [awaitsSecond, hrelay']
    rw [hrelay]
    cases mode <;> rfl
  refine ⟨⟨fun handle => ?_, fun link' => ?_, ?_⟩, by rw [hok]; rfl, hlinks⟩
  · simp only [discharge, hrelays, hawaits, moreAfter]
    by_cases heq : handle = ⟨transfer.handle⟩
    · subst heq
      have hsame : (⟨transfer.discharged.handle⟩ : InputHandle) = ⟨transfer.handle⟩ := rfl
      rw [hsame, Function.update_self, hrelay]
      simp [withMore, Transfer.discharged]
    · have hne : ¬(⟨transfer.handle⟩ : InputHandle) = handle := fun he => heq he.symm
      have hother : handle ≠ ⟨transfer.discharged.handle⟩ := heq
      rw [Function.update_of_ne hother]
      simpa [hne] using h.relays handle
  · simp only [discharge, hlinks]
    rw [← h.alive link']
    by_cases heq : link' = link
    · subst heq
      simp [LinkStore.modify]
    · simp [LinkStore.modify, heq]
  · simp only [discharge]
    rw [htags, h.tags, hawaits]
    funext key
    have hid : transfer.discharged.deliveryId = transfer.deliveryId := rfl
    have htag : transfer.discharged.deliveryTag = transfer.deliveryTag := rfl
    rw [hid, htag]
    simp only [registered]
    cases transfer.deliveryId with
    | none => rfl
    | some id =>
        cases transfer.deliveryTag with
        | none => rfl
        | some tag =>
            by_cases hregisters : s.awaitsSecond transfer = true ∧
                s.moreAfter ⟨transfer.handle⟩ earlier = false
            · by_cases hkey : key = (.sender, id)
              · simp [hregisters, hkey, Transfer.discharged]
              · simp [hregisters, hkey]
            · have hnot : ¬(s.awaitsSecond transfer = true ∧
                  s.moreAfter ⟨transfer.handle⟩ earlier = false ∧ key = (.sender, id)) := by
                rintro ⟨hawait, hmore, -⟩
                exact hregisters ⟨hawait, hmore⟩
              simp only [if_neg hregisters, if_neg hnot]

end Session

/-- A frame reaches its link, in the session that the earlier frames leave, exactly when the link is
attached in the session before the commit. -/
theorem BufferedWork.reaches_iff {work : BufferedWork} {s s' : Session}
    {earlier : List TxnWorkFrame} (h : s.Discharged earlier s') :
    work.Reaches s' ↔ work.Attached s earlier := by
  obtain ⟨frame, linkAt⟩ := work
  cases frame with
  | post transfer payload =>
      simp only [Reaches, Attached]
      constructor
      · rintro ⟨link, hlink, hqueued⟩
        rcases s'.onIncomingTransfer_cases transfer.discharged payload with
          ⟨link', outputHandle, mode, more, hrelay, halive⟩ | ⟨-, hlinks, -⟩
        · obtain ⟨-, hlinks, -, -⟩ := Session.onIncomingTransfer_of_receiver payload hrelay halive
          -- it was queued for the link that the handle has now
          have heq : link = link' := by
            by_contra hne
            simp [Session.discharge, hlinks, LinkStore.modify, hne] at hqueued
          subst heq
          have hsame : s'.linkByInputHandle ⟨transfer.handle⟩ = _ := hrelay
          rw [h.relays] at hsame
          obtain ⟨relay, hfound, hkind⟩ := Option.map_eq_some_iff.mp hsame
          cases relay with
          | sender link' outputHandle' mode' => cases hkind
          | receiver link' outputHandle' mode' more' =>
              cases hkind
              exact ⟨link, outputHandle, mode, more', hfound, (h.alive link).symm.trans halive, hlink⟩
        · simp [Session.discharge, hlinks] at hqueued
      · rintro ⟨link, outputHandle, mode, more, hrelay, halive, hlink⟩
        obtain ⟨-, -, hlinks⟩ := h.post payload hrelay halive
        refine ⟨link, hlink, ?_⟩
        rw [hlinks]
        simp [LinkStore.modify]
  | retire disposition =>
      simp only [Reaches, Attached]
      rw [h.tags]
      refine forall₅_congr fun id _ handle tag _ => ?_
      rw [h.relays]
      constructor
      · rintro ⟨relay, hfound, hlink⟩
        obtain ⟨relay', hfound', rfl⟩ := Option.map_eq_some_iff.mp hfound
        rw [Session.link_withMore] at hlink
        exact ⟨relay', hfound', hlink⟩
      · rintro ⟨relay, hfound, hlink⟩
        exact ⟨_, Option.map_eq_some_iff.mpr ⟨relay, hfound, rfl⟩, by rwa [Session.link_withMore]⟩

namespace TxnSession

/-! ## The whole commit -/

@[simp] theorem applyFrame_session (s : TxnSession Session) (frame : TxnWorkFrame) :
    (s.applyFrame frame).2.session = s.session.discharge frame := by
  cases frame with
  | post transfer payload =>
      simp only [applyFrame, EndpointSession.onIncomingTransfer, Session.discharge]
      cases s.session.onIncomingTransfer transfer.discharged payload with
      | mk result session => cases result <;> rfl
  | retire disposition => rfl

/-- One iteration fails only on a post that the session refuses. -/
theorem applyFrame_isOk (s : TxnSession Session) (frame : TxnWorkFrame) :
    (s.applyFrame frame).1.isOk =
      match frame with
      | .post transfer payload => (s.session.onIncomingTransfer transfer.discharged payload).1.isOk
      | .retire _ => true := by
  cases frame with
  | post transfer payload =>
      simp only [applyFrame, EndpointSession.onIncomingTransfer]
      cases s.session.onIncomingTransfer transfer.discharged payload with
      | mk result session => cases result <;> rfl
  | retire disposition => rfl

/-- Every frame of the transaction finds its link attached, given those before it. -/
def AllAttached (s : Session) : List TxnWorkFrame → List BufferedWork → Prop
  | _, [] => True
  | earlier, work :: rest => work.Attached s earlier ∧ AllAttached s (work.frame :: earlier) rest

/-- A frame whose link is attached is applied without an error. -/
theorem applyFrame_attached {s : TxnSession Session} {start : Session} {earlier : List TxnWorkFrame}
    {work : BufferedWork} (h : start.Discharged earlier s.session)
    (hattached : work.Attached start earlier) :
    (s.applyFrame work.frame).1.isOk ∧
      start.Discharged (work.frame :: earlier) (s.applyFrame work.frame).2.session := by
  obtain ⟨frame, linkAt⟩ := work
  rw [applyFrame_isOk, applyFrame_session]
  cases frame with
  | post transfer payload =>
      obtain ⟨link, outputHandle, mode, more, hrelay, halive, -⟩ := hattached
      obtain ⟨hnext, hok, -⟩ := h.post payload hrelay halive
      exact ⟨hok, hnext⟩
  | retire disposition => exact ⟨rfl, h.retire disposition⟩

/-- All frames reach their links exactly when the links are attached, and then no iteration fails. -/
theorem allReach_iff {s : TxnSession Session} {start : Session} {earlier : List TxnWorkFrame}
    (h : start.Discharged earlier s.session) (work : List BufferedWork) :
    (BufferedWork.AllReach s.session work ↔ AllAttached start earlier work) ∧
      (AllAttached start earlier work → (s.applyFrames (work.map BufferedWork.frame)).1.isOk) := by
  induction work generalizing s earlier with
  | nil => exact ⟨Iff.rfl, fun _ => rfl⟩
  | cons first rest ih =>
      simp only [BufferedWork.AllReach, AllAttached, BufferedWork.reaches_iff h, List.map_cons,
        applyFrames]
      constructor
      · refine and_congr_right fun hattached => ?_
        have hnext := (applyFrame_attached h hattached).2
        rw [← applyFrame_session]
        exact (ih hnext).1
      · rintro ⟨hattached, hrest⟩
        obtain ⟨hok, hnext⟩ := applyFrame_attached h hattached
        have hloop := (ih hnext).2 hrest
        cases hframe : s.applyFrame first.frame with
        | mk result s' =>
            rw [hframe] at hok hloop
            cases result with
            | error error => cases hok
            | ok _ => exact hloop

/-- No frame of a commit takes a link frame off a queue. -/
theorem length_incoming_discharge (s : Session) (frame : TxnWorkFrame) (link : LinkId) :
    (s.links.cell link).incoming.length ≤ ((s.discharge frame).links.cell link).incoming.length := by
  cases frame with
  | post transfer payload =>
      rcases s.onIncomingTransfer_cases transfer.discharged payload with
        ⟨link', outputHandle, mode, more, hrelay, halive⟩ | ⟨-, hlinks, -⟩
      · obtain ⟨-, hlinks, -, -⟩ := Session.onIncomingTransfer_of_receiver payload hrelay halive
        simp only [Session.discharge, hlinks, LinkStore.modify]
        by_cases heq : link = link'
        · subst heq
          simp
        · simp [heq]
      · simp only [Session.discharge, hlinks, le_refl]
  | retire disposition =>
      obtain ⟨-, -, hqueues, -⟩ := Session.foldl_settleDelivery disposition.discharged
        (Session.deliveryIds disposition.first (disposition.last.getD disposition.first)) s
      exact (congrArg List.length (hqueues link)).ge

/-- Compared with the session `start`, no queue is shorter and either no transfer was counted or one
was queued. -/
structure Ahead (start s : Session) : Prop where
  queues : ∀ link, (start.links.cell link).incoming.length ≤ (s.links.cell link).incoming.length
  counted : s.nextIncomingId = start.nextIncomingId ∨
    ∃ link, (start.links.cell link).incoming.length < (s.links.cell link).incoming.length

/-- A commit that fails has counted a transfer or queued one. -/
theorem applyFrames_ne {start : Session} {s : TxnSession Session} (h : Ahead start s.session)
    (frames : List TxnWorkFrame) (herror : (s.applyFrames frames).1.isOk = false) :
    (s.applyFrames frames).2.session ≠ start := by
  induction frames generalizing s with
  | nil => cases herror
  | cons frame frames ih =>
      have hsession := s.applyFrame_session frame
      have hisOk := s.applyFrame_isOk frame
      simp only [applyFrames] at herror ⊢
      cases hframe : s.applyFrame frame with
      | mk result s' =>
          rw [hframe] at herror hsession hisOk
          simp only at herror hsession hisOk ⊢
          cases frame with
          | post transfer payload =>
              rcases s.session.onIncomingTransfer_cases transfer.discharged payload with
                ⟨link, outputHandle, mode, more, hrelay, halive⟩ | ⟨hfails, hlinks, hcounted⟩
              · -- the transfer was queued, and whatever follows leaves it there
                obtain ⟨hok, hlinks, -, -⟩ :=
                  Session.onIncomingTransfer_of_receiver payload hrelay halive
                simp only [hok] at hisOk
                cases result with
                | error error => cases hisOk
                | ok _ =>
                    apply ih _ herror
                    rw [hsession]
                    constructor
                    · intro link'
                      exact (h.queues link').trans (length_incoming_discharge _ _ link')
                    · refine .inr ⟨link, ?_⟩
                      have hbefore := h.queues link
                      simp only [Session.discharge, hlinks, LinkStore.modify, Function.update_self,
                        List.length_append, List.length_singleton]
                      omega
              · simp only [hfails] at hisOk
                cases result with
                | ok _ => cases hisOk
                | error error =>
                    dsimp only
                    rw [hsession]
                    intro hsame
                    rcases h.counted with hnext | ⟨link, hlonger⟩
                    · have hadvanced := congrArg Session.nextIncomingId hsame
                      simp only [Session.discharge, hcounted, hnext] at hadvanced
                      exact absurd hadvanced (by simp)
                    · have hqueue := congrArg (fun t : Session => (t.links.cell link).incoming.length) hsame
                      simp only [Session.discharge, hlinks] at hqueue
                      omega
          | retire disposition =>
              cases result with
              | error error => cases hisOk
              | ok _ =>
                  apply ih _ herror
                  rw [hsession]
                  obtain ⟨-, hnext, hqueues, -⟩ := Session.foldl_settleDelivery disposition.discharged
                    (Session.deliveryIds disposition.first (disposition.last.getD disposition.first))
                    s.session
                  have hlength : ∀ link, ((s.session.discharge (.retire disposition)).links.cell
                      link).incoming.length = (s.session.links.cell link).incoming.length :=
                    fun link => congrArg List.length (hqueues link)
                  constructor
                  · intro link
                    rw [hlength]
                    exact h.queues link
                  · rcases h.counted with hsame | ⟨link, hlonger⟩
                    · exact .inl (hnext.trans hsame)
                    · exact .inr ⟨link, by rwa [hlength]⟩

/-- The commit of a live transaction is all or nothing exactly when every frame of it finds the link
on which it was posted still attached under the handle that it had. -/
theorem commit_allOrNothing_iff (s : TxnSession Session) (txnId : TransactionId)
    (work : List BufferedWork)
    (hlive : s.txns.get txnId = some ⟨work.map BufferedWork.frame⟩) :
    s.AllOrNothing txnId work ↔ AllAttached s.session [] work := by
  let taken : TxnSession Session := { s with txns := s.txns.swapRemove txnId }
  obtain ⟨hreach, hloop⟩ := allReach_iff (s := taken) s.session.discharged_nil work
  have hok : (s.commitTransaction txnId).1.isOk =
      (taken.applyFrames (work.map BufferedWork.frame)).1.isOk := by
    rw [commitTransaction_live hlive]
    cases taken.applyFrames (work.map BufferedWork.frame) with
    | mk result s' => cases result <;> rfl
  have hsession : (s.commitTransaction txnId).2.session =
      (taken.applyFrames (work.map BufferedWork.frame)).2.session := by
    rw [commitTransaction_live hlive]
    rfl
  have hstart : Ahead s.session taken.session := ⟨fun _ => le_rfl, .inl rfl⟩
  constructor
  · rintro (⟨-, hall⟩ | ⟨hfails, hsame⟩)
    · exact hreach.mp hall
    · rw [hok] at hfails
      rw [hsession] at hsame
      exact absurd hsame (applyFrames_ne hstart _ hfails)
  · intro hattached
    refine .inl ⟨?_, hreach.mpr hattached⟩
    rw [hok]
    exact hloop hattached

section TwoLinks

private def twoLinks : Session :=
  (((SessionBuilder.intoSession {} 0 .mapped LinkStore.empty).allocateIncomingLink "a"
    (.receiver 0 () .first false) ⟨0⟩).2.allocateIncomingLink "b" (.receiver 1 () .first false) ⟨1⟩).2

private def posted (handle : Handle) : TxnWorkFrame :=
  .post
    { handle, deliveryId := some handle, deliveryTag := some [0], messageFormat := some 0
      settled := some true, more := false, rcvSettleMode := none
      state := some (.transactionalState ⟨[1], none⟩), resume := false, aborted := false
      batchable := false } []

/-- A transaction with a post on each of the links. -/
private def openOnBoth : TxnSession Session :=
  (Run.run act (fresh twoLinks)
    [.declare [[1]], .incoming (posted 0), .incoming (posted 1)]).1

private def workOnBoth : List BufferedWork :=
  [posted 0, posted 1].map fun frame =>
    ⟨frame, fun handle => (twoLinks.linkByInputHandle handle).map LinkRelay.link⟩

theorem commit_allOrNothing_both_attached : openOnBoth.AllOrNothing [1] workOnBoth := by
  apply (commit_allOrNothing_iff openOnBoth [1] workOnBoth rfl).mpr
  exact ⟨⟨0, ⟨0⟩, .first, false, rfl, rfl, rfl⟩, ⟨1, ⟨1⟩, .first, false, rfl, rfl, rfl⟩, trivial⟩

/-- The second link is detached before the commit: the post on the first link is queued, and the
commit fails at the other. -/
theorem commit_fails_in_the_middle :
    ¬TxnSession.AllOrNothing
      { openOnBoth with session := (openOnBoth.session.onIncomingDetach ⟨1, true, none⟩).2 } [1]
      workOnBoth := by
  rintro (⟨hok, -⟩ | ⟨-, hsame⟩)
  · exact absurd hok (by decide)
  · have hcounted := congrArg Session.nextIncomingId hsame
    exact absurd hcounted (by decide)

end TwoLinks

end TxnSession

end Fe2o3Amqp
