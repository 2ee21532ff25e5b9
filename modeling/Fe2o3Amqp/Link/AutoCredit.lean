import Fe2o3Amqp.Link.Disposer
import Mathlib.Order.Interval.Finset.Nat

/-!
# Automatic credit

A receiver in `CreditMode::Auto(max)` counts the deliveries it has disposed of and sets its credit
back to `max` when the count reaches half of it.  The machine of this file is an attached receiver
with its disposers, and remembers which deliveries have reached the application and which of them
have been disposed of.
-/

namespace Fe2o3Amqp

namespace ReceiverInner

def disposeAll (r : ReceiverInner) (deliveryInfos : List DeliveryInfo) (settled : Option Bool)
    (state : DeliveryState) : Except IllegalLinkStateError Unit × ReceiverInner :=
  -- `delivery_infos.len() as u32`
  let total := UInt32.ofNat deliveryInfos.length
  match r.link.disposeAll r.outgoing deliveryInfos settled state false with
  | (.error e, link) => (.error e, r.withLink link)
  | (.ok outgoing, link) =>
      let prev := r.processed
      { r with outgoing, link, processed := prev + total }.updateCreditIfAuto (prev + total)

end ReceiverInner

/-! ## Deliveries and disposals -/

/-- The delivery that a disposal is about: one that this receiver has received, or another one. -/
inductive DisposalTarget where
  | received (k : Nat)
  | other (info : DeliveryInfo)

inductive CreditEvent where
  | transfer (closing : Closing) (transfer : Transfer) (payload : Payload)
  /-- The application asks for another disposer. -/
  | disposer
  | dispose (target : DisposalTarget) (settled : Option Bool) (state : DeliveryState)
  | disposeAll (targets : List DisposalTarget) (settled : Option Bool) (state : DeliveryState)
  | disposeBy (i : Nat) (target : DisposalTarget) (state : DeliveryState)

/-- `received` lists the deliveries that have reached the application, `disposed` the places of those
that were disposed of. -/
structure DeliveryLog where
  handles : ReceiverHandles
  received : List DeliveryInfo
  disposed : List Nat

variable {M E : Type}

/-- The delivery that reaches the application, decoded or with the error of its decoding. -/
def reached : Except (RecvError E) (Option (Delivery M)) → Option DeliveryInfo
  | .ok (some delivery) => some delivery.info
  | .error (.messageDecode error) => some error.info
  | _ => none

namespace DeliveryLog

def info? (s : DeliveryLog) : DisposalTarget → Option DeliveryInfo
  | .received k => s.received[k]?
  | .other info => some info

/-- The places of the received deliveries among the targets. -/
def places (s : DeliveryLog) (targets : List DisposalTarget) : List Nat :=
  targets.filterMap fun
    | .received k => if k < s.received.length then some k else none
    | .other _ => none

/-- The receiver after a disposal of the deliveries at the places; one that fails counts for none. -/
def afterDisposal (s : DeliveryLog) (places : List Nat)
    (out : Except IllegalLinkStateError Unit × ReceiverInner) : DeliveryLog :=
  { s with
    handles := { s.handles with receiver := out.2 }
    disposed :=
      match out.1 with
      | .ok _ => s.disposed ++ places
      | .error _ => s.disposed }

/-- The receiver after a transfer; in auto-accept mode a decoded delivery is disposed of at once. -/
def afterTransfer (s : DeliveryLog)
    (out : Except (RecvError E) (Option (Delivery M)) × ReceiverInner) : DeliveryLog :=
  { handles := { s.handles with receiver := out.2 }
    received := s.received ++ (reached out.1).toList
    disposed :=
      match out.1 with
      | .ok (some _) =>
          if s.handles.receiver.autoAccept then s.disposed ++ [s.received.length] else s.disposed
      | _ => s.disposed }

/-- The outputs are the deliveries that reach the application. -/
def step (decode : Bytes → Except E M) (s : DeliveryLog) :
    CreditEvent → DeliveryLog × List DeliveryInfo
  | .transfer closing transfer payload =>
      let out := s.handles.receiver.onIncomingTransfer decode closing transfer payload
      (s.afterTransfer out, (reached out.1).toList)
  | .disposer =>
      let disposers := s.handles.disposers ++ [s.handles.receiver.disposer]
      ({ s with handles := { s.handles with disposers } }, [])
  | .dispose target settled state =>
      match s.info? target with
      | none => (s, [])
      | some info =>
          let out := s.handles.receiver.dispose info settled state
          (s.afterDisposal (s.places [target]) out, [])
  | .disposeAll targets settled state =>
      let out := s.handles.receiver.disposeAll (targets.filterMap s.info?) settled state
      (s.afterDisposal (s.places targets) out, [])
  | .disposeBy i target state =>
      match s.handles.disposers[i]?, s.info? target with
      | some disposer, some info =>
          let out := disposer.dispose s.handles.receiver info state
          (s.afterDisposal (s.places [target]) out, [])
      | _, _ => (s, [])

end DeliveryLog

/-! ## The credit after a transfer -/

/-- Nothing that the credit depends on has changed. -/
structure SameCredit (r r' : ReceiverInner) : Prop where
  linkCredit : r'.link.flowState.linkCredit = r.link.flowState.linkCredit
  processed : r'.processed = r.processed
  autoAccept : r'.autoAccept = r.autoAccept
  disposer : r'.disposer = r.disposer

/-- One credit has been used up. -/
structure UsesCredit (r r' : ReceiverInner) : Prop where
  linkCredit : r'.link.flowState.linkCredit.toNat + 1 = r.link.flowState.linkCredit.toNat
  processed : r'.processed = r.processed
  autoAccept : r'.autoAccept = r.autoAccept
  disposer : r'.disposer = r.disposer

theorem SameCredit.refl (r : ReceiverInner) : SameCredit r r := ⟨rfl, rfl, rfl, rfl⟩

theorem SameCredit.uses {r r₁ r' : ReceiverInner} (h : SameCredit r r₁) (h' : UsesCredit r₁ r') :
    UsesCredit r r' :=
  ⟨h.linkCredit ▸ h'.linkCredit, h'.processed.trans h.processed, h'.autoAccept.trans h.autoAccept,
    h'.disposer.trans h.disposer⟩

/-- A transfer that yields no delivery uses no credit, and one that yields a delivery uses one; in
auto-accept mode a decoded delivery is then disposed of. -/
structure Credited (r : ReceiverInner)
    (out : Except (RecvError E) (Option (Delivery M)) × ReceiverInner) : Prop where
  partly : out.1 = .ok none → SameCredit r out.2
  whole : ∀ delivery, out.1 = .ok (some delivery) → ∃ r', UsesCredit r r' ∧
    if r.autoAccept then r'.dispose delivery.info none .accepted = (.ok (), out.2) else out.2 = r'
  undecoded : ∀ error, out.1 = .error (.messageDecode error) → UsesCredit r out.2

namespace Credited

variable {r r₁ : ReceiverInner} {out : Except (RecvError E) (Option (Delivery M)) × ReceiverInner}

theorem of_same (h : SameCredit r r₁) (hout : Credited r₁ out) : Credited r out := by
  refine ⟨fun hpartly => ?_, fun delivery hwhole => ?_, fun error hundecoded => ?_⟩
  · have hsame := hout.partly hpartly
    exact ⟨hsame.linkCredit.trans h.linkCredit, hsame.processed.trans h.processed,
      hsame.autoAccept.trans h.autoAccept, hsame.disposer.trans h.disposer⟩
  · obtain ⟨r', huses, hafter⟩ := hout.whole delivery hwhole
    rw [h.autoAccept] at hafter
    exact ⟨r', h.uses huses, hafter⟩
  · exact h.uses (hout.undecoded error hundecoded)

theorem ok_none (h : SameCredit r r₁) : Credited (M := M) (E := E) r (.ok none, r₁) :=
  ⟨fun _ => h, nofun, nofun⟩

theorem of_error {e : RecvError E} (h : ∀ error, e ≠ .messageDecode error) :
    Credited (M := M) r (.error e, r₁) :=
  ⟨nofun, nofun, fun error heq => absurd (Except.error.inj heq) (h error)⟩

end Credited

/-! ### No error but that of the decoder carries a delivery -/

/-- An error of the rules of a delivery, not of the decoder. -/
def Undecoded (e : ReceiverTransferError E) : Prop :=
  ∀ error, e ≠ .messageDecode error

theorem orAssignField_undecoded {α : Type} [DecidableEq α] {value other : Option α}
    {e : ReceiverTransferError E} (h : orAssignField value other = .error e) : Undecoded e := by
  cases value with
  | none => cases h
  | some value =>
      cases other with
      | none => cases h
      | some other =>
          simp only [orAssignField] at h
          split_ifs at h
          cases h
          exact nofun

theorem IncompleteTransfer.orAssign_undecoded {performative other : Transfer}
    {e : ReceiverTransferError E} (h : orAssign performative other = .error e) : Undecoded e := by
  rw [orAssign] at h
  cases hid : orAssignField (E := E) performative.deliveryId other.deliveryId with
  | error e' =>
      rw [hid] at h
      cases h
      exact orAssignField_undecoded hid
  | ok deliveryId =>
      cases htag : orAssignField (E := E) performative.deliveryTag other.deliveryTag with
      | error e' =>
          rw [hid, htag] at h
          cases h
          exact orAssignField_undecoded htag
      | ok deliveryTag =>
          cases hformat : orAssignField (E := E) performative.messageFormat other.messageFormat with
          | error e' =>
              rw [hid, htag, hformat] at h
              cases h
              exact orAssignField_undecoded hformat
          | ok messageFormat =>
              rw [hid, htag, hformat] at h
              cases h

theorem IncompleteTransfer.tryAppend_undecoded {incomplete : IncompleteTransfer} {transfer : Transfer}
    {payload : Payload} {e : ReceiverTransferError E}
    (h : incomplete.tryAppend transfer payload = .error e) : Undecoded e := by
  rw [tryAppend] at h
  split_ifs at h
  · cases h
    exact nofun
  · cases hassign : orAssign (E := E) incomplete.performative transfer with
    | error e' =>
        rw [hassign] at h
        cases h
        exact orAssign_undecoded hassign
    | ok performative =>
        rw [hassign] at h
        cases h

theorem IncompleteTransfer.start_undecoded {transfer : Transfer} {payload : Payload}
    {e : ReceiverTransferError E} (h : start transfer payload = .error e) : Undecoded e := by
  rw [start] at h
  split_ifs at h
  · cases h
    exact nofun
  · split at h
    · cases h
      exact nofun
    · cases h

theorem ensureDeliveryIdentity_undecoded {transfer : Transfer} {e : ReceiverTransferError E}
    (h : ensureDeliveryIdentity transfer = .error e) : Undecoded e := by
  rw [ensureDeliveryIdentity] at h
  split_ifs at h
  · cases h
    exact nofun
  · cases h
    exact nofun

namespace ReceiverInner

/-- A receive that closes the link yields no delivery. -/
theorem credited_closeOnMalformedDelivery (r r₁ : ReceiverInner) (closing : Closing)
    {e : ReceiverTransferError E} (he : Undecoded e) :
    Credited (M := M) r (.error (r₁.closeOnMalformedDelivery closing e).1,
      (r₁.closeOnMalformedDelivery closing e).2) := by
  apply Credited.of_error
  intro error
  rw [closeOnMalformedDelivery]
  simp only [closed]
  split
  · cases e <;> first | exact absurd rfl (he _) | exact nofun
  · exact nofun

theorem credited_closeOnMessageSizeExceeded (r r₁ : ReceiverInner) (closing : Closing) (total : Nat)
    (maxSize : UInt64) :
    Credited (M := M) (E := E) r (.error (r₁.closeOnMessageSizeExceeded closing total maxSize).1,
      (r₁.closeOnMessageSizeExceeded (E := E) closing total maxSize).2) := by
  apply Credited.of_error
  intro error
  rw [closeOnMessageSizeExceeded]
  simp only [closed]
  split <;> exact nofun

end ReceiverInner

/-! ### The delivery -/

theorem ReceiverLink.consume_one {link link' : ReceiverLink}
    (h : link.consume (E := E) 1 = .ok link') :
    link'.flowState.linkCredit.toNat + 1 = link.flowState.linkCredit.toNat ∧
      link'.outputHandle = link.outputHandle ∧ link'.rcvSettleMode = link.rcvSettleMode := by
  simp only [consume] at h
  split_ifs at h with hcredit
  cases h
  have hpos : ¬link.flowState.linkCredit.toNat < 1 := fun hlt => hcredit (UInt32.lt_iff_toNat_lt.mpr hlt)
  refine ⟨?_, rfl, rfl⟩
  simp only [UInt32.toNat_saturatingSub]
  have hone : (1 : UInt32).toNat = 1 := rfl
  omega

/-- The link uses up a credit for a delivery that it hands over, and for one that does not decode. -/
theorem ReceiverLink.onCompleteTransfer_uses {decode : Bytes → Except E M} {link link' : ReceiverLink}
    {transfer : Transfer} {payload : List Payload} {number : UInt32} {offset : UInt64}
    {result : Except (ReceiverTransferError E) (Delivery M)}
    (h : link.onCompleteTransfer decode transfer payload number offset = (result, link'))
    (hreached : ∀ e, result = .error e → ¬Undecoded e) :
    link'.flowState.linkCredit.toNat + 1 = link.flowState.linkCredit.toNat ∧
      link'.outputHandle = link.outputHandle ∧ link'.rcvSettleMode = link.rcvSettleMode := by
  rw [onCompleteTransfer] at h
  split_ifs at h
  · cases h
    exact absurd nofun (hreached _ rfl)
  · split at h
    · next e hconsume =>
        cases h
        simp only [consume] at hconsume
        split_ifs at hconsume
        cases hconsume
        exact absurd nofun (hreached _ rfl)
    · next link₁ hconsume =>
        have hused := consume_one hconsume
        simp only at h
        split at h
        · cases h
          exact absurd nofun (hreached _ rfl)
        · cases h
          exact absurd nofun (hreached _ rfl)
        · split_ifs at h
          · cases h
            exact hused
          · split at h
            · next e hmode =>
                cases h
                simp only [transferSettleMode] at hmode
                split at hmode
                · cases hmode
                · split_ifs at hmode
                  cases hmode
                  exact absurd nofun (hreached _ rfl)
            · cases h
              exact hused

namespace ReceiverInner

variable (decode : Bytes → Except E M) (r : ReceiverInner) (closing : Closing) (transfer : Transfer)

theorem credited_complete (payload : List Payload) (number : UInt32) (offset : UInt64) :
    Credited r (r.complete decode transfer payload number offset) := by
  rw [complete]
  cases hlink : r.link.onCompleteTransfer decode transfer payload number offset with
  | mk result link =>
      cases result with
      | error e =>
          by_cases he : Undecoded e
          · apply Credited.of_error
            intro error heq
            cases e with
            | messageDecode error' => exact he error' rfl
            | _ => cases heq
          · obtain ⟨hcredit, houtput, hmode⟩ := ReceiverLink.onCompleteTransfer_uses hlink (by
              intro e' heq
              cases heq
              exact he)
            refine ⟨fun heq => ?_, fun _ heq => ?_, fun _ _ => ⟨hcredit, rfl, rfl, ?_⟩⟩
            · cases heq
            · cases heq
            · simp only [disposer, withLink, houtput, hmode]
      | ok delivery =>
          obtain ⟨hcredit, houtput, hmode⟩ := ReceiverLink.onCompleteTransfer_uses hlink
            (fun _ heq => by cases heq)
          have huses : UsesCredit r (r.withLink link) := by
            refine ⟨hcredit, rfl, rfl, ?_⟩
            simp only [disposer, withLink, houtput, hmode]
          simp only
          split_ifs with hauto
          · have hauto' : r.autoAccept = true := hauto
            split
            · exact Credited.of_error (fun _ heq => by cases heq)
            · next hdispose =>
                refine ⟨fun heq => ?_, fun delivery' hdelivery => ⟨_, huses, ?_⟩, fun _ heq => ?_⟩
                · cases heq
                · cases hdelivery
                  rw [if_pos hauto']
                  exact hdispose
                · cases heq
          · have hauto' : ¬r.autoAccept = true := hauto
            refine ⟨fun heq => ?_, fun delivery' _ => ⟨_, huses, ?_⟩, fun _ heq => ?_⟩
            · cases heq
            · rw [if_neg hauto']
            · cases heq

theorem credited_completeSingle (payload : Payload) :
    Credited r (r.completeSingle decode closing transfer payload) := by
  rw [completeSingle]
  cases hidentity : ensureDeliveryIdentity (E := E) transfer with
  | error e =>
      exact credited_closeOnMalformedDelivery r r closing (ensureDeliveryIdentity_undecoded hidentity)
  | ok _ => exact credited_complete ..

theorem credited_onCompleteTransfer (payload : Payload) :
    Credited r (r.onCompleteTransfer decode closing transfer payload) := by
  rw [onCompleteTransfer]
  cases r.incompleteTransfer with
  | none => exact credited_completeSingle ..
  | some incomplete =>
      simp only
      have htaken : SameCredit r { r with incompleteTransfer := none } := ⟨rfl, rfl, rfl, rfl⟩
      cases happend : incomplete.tryAppend (E := E) transfer payload with
      | error e =>
          exact credited_closeOnMalformedDelivery r _ closing
            (IncompleteTransfer.tryAppend_undecoded happend)
      | ok incomplete => exact Credited.of_same htaken (credited_complete ..)

theorem credited_onAbortedTransfer : Credited (M := M) (E := E) r (r.onAbortedTransfer closing transfer) := by
  rw [onAbortedTransfer]
  cases r.incompleteTransfer with
  | none => exact Credited.ok_none (SameCredit.refl r)
  | some incomplete =>
      simp only
      split_ifs
      · exact credited_closeOnMalformedDelivery r r closing nofun
      · exact Credited.ok_none ⟨rfl, rfl, rfl, rfl⟩

/-- A partial frame is buffered, or the link is closed. -/
theorem onIncompleteTransfer_credit (payload : Payload) :
    (∃ r', r.onIncompleteTransfer (E := E) closing transfer payload = (.ok (), r') ∧ SameCredit r r') ∨
      ∃ e, Undecoded e ∧ r.onIncompleteTransfer (E := E) closing transfer payload =
        (.error (r.closeOnMalformedDelivery closing e).1, (r.closeOnMalformedDelivery closing e).2) := by
  cases hincomplete : r.incompleteTransfer with
  | none =>
      cases hstart : IncompleteTransfer.start (E := E) transfer payload with
      | error e =>
          refine .inr ⟨e, IncompleteTransfer.start_undecoded hstart, ?_⟩
          simp only [onIncompleteTransfer, hincomplete, hstart]
      | ok incomplete =>
          left
          simp only [onIncompleteTransfer, hincomplete, hstart]
          exact ⟨_, rfl, ⟨rfl, rfl, rfl, rfl⟩⟩
  | some incomplete =>
      cases happend : incomplete.tryAppend (E := E) transfer payload with
      | error e =>
          refine .inr ⟨e, IncompleteTransfer.tryAppend_undecoded happend, ?_⟩
          simp only [onIncompleteTransfer, hincomplete, happend]
      | ok incomplete =>
          left
          simp only [onIncompleteTransfer, hincomplete, happend]
          exact ⟨_, rfl, ⟨rfl, rfl, rfl, rfl⟩⟩

theorem credited_takeIn (payload : Payload) (matchesBuffer : Bool) :
    Credited r (r.takeIn decode closing transfer payload matchesBuffer) := by
  rw [takeIn]
  split
  · exact credited_closeOnMessageSizeExceeded ..
  · split_ifs
    · obtain ⟨r', hbuffered, hsame⟩ | ⟨e, he, hclosed⟩ :=
        r.onIncompleteTransfer_credit (E := E) closing transfer payload
      · rw [hbuffered]
        exact Credited.ok_none hsame
      · rw [hclosed]
        exact credited_closeOnMalformedDelivery r r closing he
    · exact credited_completeSingle ..
    · exact credited_onCompleteTransfer ..

/-- A state that a transfer carries is applied, or the link is closed. -/
theorem onTransferState_credit (deliveryTag : Option DeliveryTag) (settled : Option Bool)
    (state : DeliveryState) :
    (∃ r', r.onTransferState (E := E) closing deliveryTag settled state = (.ok (), r') ∧
        SameCredit r r') ∨
      ∃ e r', (∀ error, e ≠ .messageDecode error) ∧
        r.onTransferState (E := E) closing deliveryTag settled state = (.error e, r') := by
  rw [onTransferState]
  cases htag : deliveryTag.or (r.incompleteTransfer.map (·.deliveryTag)) with
  | none =>
      refine .inr ⟨_, _, ?_, rfl⟩
      intro error heq
      simp only [closed] at heq
      split at heq <;> cases heq
  | some effectiveTag =>
      simp only
      split
      · next e hlink =>
          simp only [ReceiverLink.onTransferState] at hlink
          split_ifs at hlink
          split at hlink
          · cases hlink
          · split_ifs at hlink
      · next link hlink =>
          refine .inl ⟨_, rfl, ?_⟩
          simp only [ReceiverLink.onTransferState] at hlink
          split_ifs at hlink
          · cases hlink
            exact ⟨rfl, rfl, rfl, rfl⟩
          · split at hlink
            · cases hlink
              exact ⟨rfl, rfl, rfl, rfl⟩
            · split_ifs at hlink
              · cases hlink
                exact ⟨rfl, rfl, rfl, rfl⟩
              · cases hlink
                exact ⟨rfl, rfl, rfl, rfl⟩

theorem credited_onIncomingTransfer (payload : Payload) :
    Credited r (r.onIncomingTransfer decode closing transfer payload) := by
  rw [onIncomingTransfer]
  split_ifs
  · exact credited_onAbortedTransfer ..
  · exact Credited.ok_none (SameCredit.refl r)
  · cases transfer.state with
    | none => exact credited_takeIn ..
    | some state =>
        obtain ⟨r', hstate, hsame⟩ | ⟨e, r', he, hstate⟩ :=
          r.onTransferState_credit (E := E) closing transfer.deliveryTag transfer.settled state
        · simp only [hstate]
          exact Credited.of_same hsame (credited_takeIn ..)
        · simp only [hstate]
          exact Credited.of_error he

end ReceiverInner

/-! ## The credit after a disposal -/

/-- The counter of processed deliveries has moved on. -/
structure CountsDisposed (n : UInt32) (r r' : ReceiverInner) : Prop where
  linkCredit : r'.link.flowState.linkCredit = r.link.flowState.linkCredit
  processed : r'.processed = r.processed + n
  autoAccept : r'.autoAccept = r.autoAccept
  disposer : r'.disposer = r.disposer

/-- The credit has been set back and the counter started again. -/
structure RefreshesCredit (maxCredit : SequenceNo) (r r' : ReceiverInner) : Prop where
  linkCredit : r'.link.flowState.linkCredit = maxCredit
  processed : r'.processed = 0
  autoAccept : r'.autoAccept = r.autoAccept
  disposer : r'.disposer = r.disposer

/-- A disposal of `n` deliveries fails before it counts them, or it counts them and they are still
fewer than half of the credit, or it refreshes the credit. -/
def CreditAfter (maxCredit : SequenceNo) (n : UInt32) (r : ReceiverInner)
    (out : Except IllegalLinkStateError Unit × ReceiverInner) : Prop :=
  ((∃ e, out.1 = .error e) ∧ SameCredit r out.2) ∨
    (r.processed + n < maxCredit / 2 ∧ CountsDisposed n r out.2) ∨
    RefreshesCredit maxCredit r out.2

namespace ReceiverInner

variable {r : ReceiverInner} {maxCredit : SequenceNo}

theorem creditAfter_updateCreditIfAuto {n : UInt32} {r' : ReceiverInner}
    (hmode : r.creditMode = .auto maxCredit) (houtput : r.link.outputHandle ≠ none)
    (h : CountsDisposed n r r') :
    CreditAfter maxCredit n r (r'.updateCreditIfAuto (r.processed + n)) := by
  have hdisposer := h.disposer
  simp only [disposer, ReceiverDisposer.mk.injEq] at hdisposer
  obtain ⟨hsettle, hhandle, hmode'⟩ := hdisposer
  have hrefreshes : RefreshesCredit maxCredit r (r'.refreshed maxCredit) :=
    ⟨rfl, rfl, h.autoAccept, h.disposer⟩
  obtain ⟨hcredit, hfew⟩ | ⟨maxCredit', hauto, -, hrefresh⟩ :=
    r'.updateCreditIfAuto_cases (r.processed + n)
  · rw [hcredit]
    exact .inr (.inl ⟨hfew maxCredit (hmode'.trans hmode), h⟩)
  · obtain rfl : maxCredit' = maxCredit := by
      rw [hmode', hmode] at hauto
      exact (CreditMode.auto.inj hauto).symm
    obtain ⟨hnone, -⟩ | ⟨-, hcredit⟩ | ⟨-, flow, hcredit⟩ := hrefresh
    · exact absurd (hhandle.symm.trans hnone) houtput
    · rw [hcredit]
      exact .inr (.inr hrefreshes)
    · rw [hcredit]
      exact .inr (.inr ⟨rfl, rfl, h.autoAccept, h.disposer⟩)

theorem creditAfter_dispose (hmode : r.creditMode = .auto maxCredit)
    (houtput : r.link.outputHandle ≠ none) (info : DeliveryInfo) (settled : Option Bool)
    (state : DeliveryState) : CreditAfter maxCredit 1 r (r.dispose info settled state) := by
  obtain ⟨hlink, hresult⟩ := r.link.dispose_cases r.outgoing info settled state false
  obtain ⟨unsettled, hentry⟩ :=
    r.link.disposeEntry_eq (r.link.disposesSettled info settled) state info
  rw [dispose]
  cases hcall : r.link.dispose r.outgoing info settled state false with
  | mk result link =>
      rw [hcall] at hlink
      obtain rfl : link = { r.link with unsettled } := hlink.trans hentry
      cases result with
      | error e => exact .inl ⟨⟨e, rfl⟩, ⟨rfl, rfl, rfl, rfl⟩⟩
      | ok outgoing => exact creditAfter_updateCreditIfAuto hmode houtput ⟨rfl, rfl, rfl, rfl⟩

end ReceiverInner

namespace ReceiverLink

theorem disposeConsecutive_unsettled (link : ReceiverLink) (writer : LinkWriter)
    (infos : List DeliveryInfo) (settled : Option Bool) (state : DeliveryState) (batchable : Bool) :
    ∃ unsettled, (link.disposeConsecutive writer infos settled state batchable).2 =
      { link with unsettled } := by
  have hfold (flag : Bool) (infos : List DeliveryInfo) (link : ReceiverLink) :
      ∃ unsettled, infos.foldl (disposeEntry flag state) link = { link with unsettled } := by
    induction infos generalizing link with
    | nil => exact ⟨link.unsettled, rfl⟩
    | cons info infos ih =>
        obtain ⟨unsettled, hentry⟩ := disposeEntry_eq flag state link info
        rw [List.foldl_cons, hentry]
        exact ih _
  cases infos with
  | nil => exact ⟨link.unsettled, rfl⟩
  | cons info infos =>
      obtain ⟨unsettled, hlink⟩ := hfold (link.disposesSettled info settled) (info :: infos) link
      simp only [disposeConsecutive, hlink]
      split <;> exact ⟨unsettled, rfl⟩

theorem disposeChunks_unsettled (infos : List DeliveryInfo) (settled : Option Bool)
    (state : DeliveryState) (batchable : Bool) (link : ReceiverLink) (writer : LinkWriter)
    (prevInd : Nat) (inds : List Nat) :
    ∃ unsettled, (disposeChunks infos settled state batchable link writer prevInd inds).2 =
      { link with unsettled } := by
  induction inds generalizing link writer prevInd with
  | nil => exact link.disposeConsecutive_unsettled ..
  | cons ind inds ih =>
      obtain ⟨unsettled, hrun⟩ := link.disposeConsecutive_unsettled writer
        ((infos.drop prevInd).take (ind - prevInd)) settled state batchable
      rw [disposeChunks]
      split
      · next e link' hcall =>
          rw [hcall] at hrun
          exact ⟨unsettled, hrun⟩
      · next writer' link' hcall =>
          rw [hcall] at hrun
          obtain rfl : link' = { link with unsettled } := hrun
          exact ih _ _ _

end ReceiverLink

namespace ReceiverInner

variable {r : ReceiverInner} {maxCredit : SequenceNo}

theorem creditAfter_disposeAll (hmode : r.creditMode = .auto maxCredit)
    (houtput : r.link.outputHandle ≠ none) (infos : List DeliveryInfo) (settled : Option Bool)
    (state : DeliveryState) :
    CreditAfter maxCredit (UInt32.ofNat infos.length) r (r.disposeAll infos settled state) := by
  have hunsettled : ∃ unsettled, (r.link.disposeAll r.outgoing infos settled state false).2 =
      { r.link with unsettled } := ReceiverLink.disposeChunks_unsettled ..
  obtain ⟨unsettled, hlink⟩ := hunsettled
  rw [disposeAll]
  cases hcall : r.link.disposeAll r.outgoing infos settled state false with
  | mk result link =>
      rw [hcall] at hlink
      obtain rfl : link = { r.link with unsettled } := hlink
      cases result with
      | error e => exact .inl ⟨⟨e, rfl⟩, ⟨rfl, rfl, rfl, rfl⟩⟩
      | ok outgoing => exact creditAfter_updateCreditIfAuto hmode houtput ⟨rfl, rfl, rfl, rfl⟩

end ReceiverInner

/-! ## Runs -/

namespace DeliveryLog

/-- The smallest number of disposals that refreshes the credit. -/
def refreshAt (maxCredit : SequenceNo) : Nat :=
  max 1 (maxCredit.toNat / 2)

/-- The received deliveries from the place `refreshed` on have come since the last refresh. -/
def Balanced (maxCredit : SequenceNo) (s : DeliveryLog) (refreshed : Nat) : Prop :=
  refreshed ≤ s.received.length ∧
    s.handles.receiver.link.flowState.linkCredit.toNat + (s.received.length - refreshed) =
      maxCredit.toNat ∧
    (s.disposed.toFinset.filter (refreshed ≤ ·)).card ≤ s.handles.receiver.processed.toNat

structure InCredit (maxCredit : SequenceNo) (s : DeliveryLog) : Prop where
  mode : s.handles.receiver.creditMode = .auto maxCredit
  output : s.handles.receiver.link.outputHandle ≠ none
  cloned : s.handles.Cloned
  few : s.handles.receiver.processed.toNat < refreshAt maxCredit
  valid : ∀ k ∈ s.disposed, k < s.received.length
  balanced : ∃ refreshed, Balanced maxCredit s refreshed

variable {maxCredit : SequenceNo} {s : DeliveryLog}

theorem lt_refreshAt {processed : UInt32} (h : processed < maxCredit / 2) :
    processed.toNat < refreshAt maxCredit := by
  have hlt := UInt32.lt_iff_toNat_lt.mp h
  have htwo : (2 : UInt32).toNat = 2 := rfl
  rw [UInt32.toNat_div, htwo] at hlt
  exact Nat.lt_of_lt_of_le hlt (le_max_right _ _)

theorem InCredit.congr {r' : ReceiverInner} (h : s.InCredit maxCredit)
    (hdisposer : r'.disposer = s.handles.receiver.disposer) :
    r'.creditMode = .auto maxCredit ∧ r'.link.outputHandle ≠ none ∧
      ({ s.handles with receiver := r' } : ReceiverHandles).Cloned := by
  have hcloned : ({ s.handles with receiver := r' } : ReceiverHandles).Cloned := by
    intro disposer hmem
    exact (h.cloned disposer hmem).trans hdisposer.symm
  simp only [ReceiverInner.disposer, ReceiverDisposer.mk.injEq] at hdisposer
  obtain ⟨-, houtput, hmode⟩ := hdisposer
  exact ⟨hmode.trans h.mode, by rw [houtput]; exact h.output, hcloned⟩

/-- Deliveries that were not counted before are at most as many as their places. -/
theorem card_disposed_append (disposed places : List Nat) (refreshed : Nat) :
    ((disposed ++ places).toFinset.filter (refreshed ≤ ·)).card ≤
      (disposed.toFinset.filter (refreshed ≤ ·)).card + places.length := by
  rw [List.toFinset_append, Finset.filter_union]
  refine (Finset.card_union_le _ _).trans (Nat.add_le_add_left ?_ _)
  exact (Finset.card_filter_le _ _).trans (List.toFinset_card_le places)

theorem InCredit.afterDisposal (h : s.InCredit maxCredit) {n : UInt32} {places : List Nat}
    {out : Except IllegalLinkStateError Unit × ReceiverInner}
    (hplaces : ∀ k ∈ places, k < s.received.length) (hlength : places.length ≤ n.toNat)
    (hfits : s.handles.receiver.processed.toNat + n.toNat < 2 ^ 32)
    (hafter : CreditAfter maxCredit n s.handles.receiver out) :
    (s.afterDisposal places out).InCredit maxCredit := by
  have hdisposed : ∀ k ∈ (s.afterDisposal places out).disposed, k < s.received.length := by
    intro k hk
    rw [DeliveryLog.afterDisposal] at hk
    simp only at hk
    split at hk
    · rcases List.mem_append.mp hk with hk | hk
      · exact h.valid k hk
      · exact hplaces k hk
    · exact h.valid k hk
  obtain ⟨refreshed, hle, hcredit, hcard⟩ := h.balanced
  obtain ⟨⟨e, herror⟩, hsame⟩ | ⟨hfew, hcounts⟩ | hrefreshes := hafter
  · obtain ⟨hmode, houtput, hcloned⟩ := h.congr hsame.disposer
    refine ⟨hmode, houtput, hcloned, ?_, hdisposed, refreshed, hle, ?_, ?_⟩
    · simpa only [DeliveryLog.afterDisposal, hsame.processed] using h.few
    · simpa only [DeliveryLog.afterDisposal, hsame.linkCredit] using hcredit
    · simpa only [DeliveryLog.afterDisposal, hsame.processed, herror] using hcard
  · obtain ⟨hmode, houtput, hcloned⟩ := h.congr hcounts.disposer
    have hprocessed : (s.handles.receiver.processed + n).toNat =
        s.handles.receiver.processed.toNat + n.toNat := by
      rw [UInt32.toNat_add, Nat.mod_eq_of_lt hfits]
    refine ⟨hmode, houtput, hcloned, ?_, hdisposed, refreshed, hle, ?_, ?_⟩
    · simpa only [DeliveryLog.afterDisposal, hcounts.processed] using lt_refreshAt hfew
    · simpa only [DeliveryLog.afterDisposal, hcounts.linkCredit] using hcredit
    · simp only [DeliveryLog.afterDisposal, hcounts.processed, hprocessed]
      have happend := card_disposed_append s.disposed places refreshed
      split <;> omega
  · obtain ⟨hmode, houtput, hcloned⟩ := h.congr hrefreshes.disposer
    refine ⟨hmode, houtput, hcloned, ?_, hdisposed, s.received.length, le_rfl, ?_, ?_⟩
    · simp only [DeliveryLog.afterDisposal, hrefreshes.processed, refreshAt]
      exact Nat.lt_of_lt_of_le Nat.zero_lt_one (le_max_left _ _)
    · simp only [DeliveryLog.afterDisposal, hrefreshes.linkCredit, Nat.sub_self, Nat.add_zero]
    · -- all disposals so far are of deliveries from before the refresh
      have hnone : (s.afterDisposal places out).disposed.toFinset.filter (s.received.length ≤ ·) =
          ∅ := by
        rw [Finset.filter_eq_empty_iff]
        intro k hk
        exact Nat.not_le.mpr (hdisposed k (List.mem_toFinset.mp hk))
      rw [hnone, Finset.card_empty]
      exact Nat.zero_le _

theorem InCredit.afterDisposal_one (h : s.InCredit maxCredit) {places : List Nat}
    {out : Except IllegalLinkStateError Unit × ReceiverInner}
    (hplaces : ∀ k ∈ places, k < s.received.length) (hlength : places.length ≤ 1)
    (hafter : CreditAfter maxCredit 1 s.handles.receiver out) :
    (s.afterDisposal places out).InCredit maxCredit := by
  apply h.afterDisposal (n := 1) hplaces hlength _ hafter
  have hone : (1 : UInt32).toNat = 1 := rfl
  have hfew := h.few
  have hmax := maxCredit.toNat_lt
  rw [refreshAt] at hfew
  omega

theorem lt_of_mem_places {targets : List DisposalTarget} {k : Nat} (hk : k ∈ s.places targets) :
    k < s.received.length := by
  obtain ⟨target, -, htarget⟩ := List.mem_filterMap.mp hk
  cases target with
  | received k' =>
      simp only at htarget
      split_ifs at htarget with hlt
      exact Option.some.inj htarget ▸ hlt
  | other info => cases htarget

theorem length_places_le (targets : List DisposalTarget) :
    (s.places targets).length ≤ (targets.filterMap s.info?).length := by
  induction targets with
  | nil => exact le_rfl
  | cons target targets ih =>
      cases target with
      | received k =>
          by_cases hk : k < s.received.length
          · simpa [places, info?, hk] using ih
          · simpa [places, info?, hk] using ih
      | other info =>
          simp only [places, info?, List.filterMap_cons, List.length_cons] at ih ⊢
          omega

theorem length_places_singleton (target : DisposalTarget) : (s.places [target]).length ≤ 1 :=
  List.length_filterMap_le ..

/-- A transfer that uses up a credit brings a delivery. -/
theorem InCredit.receive (h : s.InCredit maxCredit) {r' : ReceiverInner} (info : DeliveryInfo)
    (huses : UsesCredit s.handles.receiver r') :
    InCredit maxCredit
      { s with handles := { s.handles with receiver := r' }, received := s.received ++ [info] } := by
  obtain ⟨hmode, houtput, hcloned⟩ := h.congr huses.disposer
  obtain ⟨refreshed, hle, hcredit, hcard⟩ := h.balanced
  refine ⟨hmode, houtput, hcloned, ?_, ?_, refreshed, ?_, ?_, ?_⟩
  · simpa only [huses.processed] using h.few
  · intro k hk
    have hlt := h.valid k hk
    simp only [List.length_append, List.length_singleton]
    omega
  · simp only [List.length_append, List.length_singleton]
    omega
  · have hused := huses.linkCredit
    simp only [List.length_append, List.length_singleton]
    omega
  · simpa only [huses.processed] using hcard

/-- The event is no transfer, or one that brings a delivery or a part of one. -/
def Receives (decode : Bytes → Except E M) (s : DeliveryLog) : CreditEvent → Prop
  | .transfer closing transfer payload =>
      let out := s.handles.receiver.onIncomingTransfer decode closing transfer payload
      (∃ delivery?, out.1 = .ok delivery?) ∨ ∃ error, out.1 = .error (.messageDecode error)
  | _ => True

/-- The counter of processed deliveries has room for a batch. -/
def Countable (s : DeliveryLog) : CreditEvent → Prop
  | .disposeAll targets _ _ =>
      s.handles.receiver.processed.toNat + (targets.filterMap s.info?).length < 2 ^ 32
  | _ => True

theorem InCredit.transfer (h : s.InCredit maxCredit) {decode : Bytes → Except E M}
    {closing : Closing} {transfer : Transfer} {payload : Payload}
    (he : s.Receives decode (.transfer closing transfer payload)) :
    (s.step decode (.transfer closing transfer payload)).1.InCredit maxCredit := by
  have hcredited :=
    s.handles.receiver.credited_onIncomingTransfer decode closing transfer payload
  simp only [Receives] at he
  simp only [step]
  obtain ⟨delivery?, hok⟩ | ⟨error, herror⟩ := he
  · cases delivery? with
    | none =>
        have hsame := hcredited.partly hok
        obtain ⟨hmode, houtput, hcloned⟩ := h.congr hsame.disposer
        obtain ⟨refreshed, hbalanced⟩ := h.balanced
        simp only [afterTransfer, reached, hok, Option.toList_none, List.append_nil]
        refine ⟨hmode, houtput, hcloned, ?_, h.valid, refreshed, ?_⟩
        · simpa only [hsame.processed] using h.few
        · simpa only [Balanced, hsame.processed, hsame.linkCredit] using hbalanced
    | some delivery =>
        obtain ⟨r', huses, hafter⟩ := hcredited.whole delivery hok
        have hreceived := h.receive delivery.info huses
        simp only [afterTransfer, reached, hok, Option.toList_some]
        by_cases hauto : s.handles.receiver.autoAccept = true
        · rw [if_pos hauto] at hafter ⊢
          have hplace : ∀ k ∈ [s.received.length], k < (s.received ++ [delivery.info]).length := by
            simp
          have hdisposed := hreceived.afterDisposal_one hplace le_rfl
            (ReceiverInner.creditAfter_dispose hreceived.mode hreceived.output delivery.info none
              .accepted)
          rw [hafter] at hdisposed
          exact hdisposed
        · rw [if_neg hauto] at hafter ⊢
          rw [hafter]
          exact hreceived
  · simp only [afterTransfer, reached, herror, Option.toList_some]
    exact h.receive error.info (hcredited.undecoded error herror)

theorem InCredit.step (h : s.InCredit maxCredit) {decode : Bytes → Except E M} {e : CreditEvent}
    (he : s.Receives decode e) (hcountable : s.Countable e) :
    (s.step decode e).1.InCredit maxCredit := by
  have hplaces (targets : List DisposalTarget) : ∀ k ∈ s.places targets, k < s.received.length :=
    fun k hk => lt_of_mem_places hk
  cases e with
  | transfer closing transfer payload => exact h.transfer he
  | disposer =>
      refine ⟨h.mode, h.output, ?_, h.few, h.valid, h.balanced⟩
      intro disposer hmem
      rcases List.mem_append.mp hmem with hmem | hmem
      · exact h.cloned disposer hmem
      · exact List.mem_singleton.mp hmem
  | dispose target settled state =>
      simp only [DeliveryLog.step]
      split
      · exact h
      · next info hinfo =>
          exact h.afterDisposal_one (hplaces _) (length_places_singleton target)
            (ReceiverInner.creditAfter_dispose h.mode h.output info settled state)
  | disposeAll targets settled state =>
      have hfits : (targets.filterMap s.info?).length < 2 ^ 32 := by
        simp only [Countable] at hcountable
        omega
      have htotal : (UInt32.ofNat (targets.filterMap s.info?).length).toNat =
          (targets.filterMap s.info?).length := UInt32.toNat_ofNat_of_lt' hfits
      apply h.afterDisposal (hplaces targets) _ _
        (ReceiverInner.creditAfter_disposeAll h.mode h.output _ settled state)
      · rw [htotal]
        exact length_places_le targets
      · rw [htotal]
        exact hcountable
  | disposeBy i target state =>
      simp only [DeliveryLog.step]
      split
      · next disposer info hdisposer hinfo =>
          obtain rfl := h.cloned disposer (List.mem_of_getElem? hdisposer)
          rw [ReceiverDisposer.dispose_disposer]
          exact h.afterDisposal_one (hplaces _) (length_places_singleton target)
            (ReceiverInner.creditAfter_dispose h.mode h.output info none state)
      · exact h

/-- When every received delivery has been disposed of, the credit is near its maximum. -/
theorem InCredit.credit (h : s.InCredit maxCredit)
    (hdisposed : ∀ k < s.received.length, k ∈ s.disposed) :
    maxCredit.toNat - (refreshAt maxCredit - 1) ≤
      s.handles.receiver.link.flowState.linkCredit.toNat := by
  obtain ⟨refreshed, hle, hcredit, hcard⟩ := h.balanced
  have hsubset : Finset.Ico refreshed s.received.length ⊆
      s.disposed.toFinset.filter (refreshed ≤ ·) := by
    intro k hk
    obtain ⟨hfrom, hto⟩ := Finset.mem_Ico.mp hk
    exact Finset.mem_filter.mpr ⟨List.mem_toFinset.mpr (hdisposed k hto), hfrom⟩
  have hfresh := Finset.card_le_card hsubset
  rw [Nat.card_Ico] at hfresh
  have hfew := h.few
  omega

end DeliveryLog

/-- A receiver as its attachment leaves it, with its whole credit. -/
structure ReceiverInner.Attached (r : ReceiverInner) (maxCredit : SequenceNo) : Prop where
  mode : r.creditMode = .auto maxCredit
  output : r.link.outputHandle ≠ none
  processed : r.processed = 0
  credit : r.link.flowState.linkCredit = maxCredit

theorem ReceiverInner.Attached.inCredit {r : ReceiverInner} {maxCredit : SequenceNo}
    (h : r.Attached maxCredit) : DeliveryLog.InCredit maxCredit ⟨⟨r, []⟩, [], []⟩ := by
  refine ⟨h.mode, h.output, List.forall_mem_nil _, ?_, List.forall_mem_nil _, 0, le_rfl, ?_, ?_⟩
  · rw [h.processed]
    exact Nat.lt_of_lt_of_le Nat.zero_lt_one (le_max_left _ _)
  · rw [h.credit]
    rfl
  · exact Nat.zero_le _

/-- The automatic credit never runs dry while no batch overflows the counter of processed
deliveries. -/
theorem credit_never_dry (decode : Bytes → Except E M) (maxCredit : SequenceNo)
    (hmax : 1 ≤ maxCredit.toNat) (receiver : ReceiverInner) (hattached : receiver.Attached maxCredit)
    (es : List CreditEvent)
    (hreceives : Run.Along (DeliveryLog.step decode) (DeliveryLog.Receives decode)
      ⟨⟨receiver, []⟩, [], []⟩ es)
    (hcountable : Run.Along (DeliveryLog.step decode) DeliveryLog.Countable
      ⟨⟨receiver, []⟩, [], []⟩ es) :
    let s := (Run.run (DeliveryLog.step decode) ⟨⟨receiver, []⟩, [], []⟩ es).1
    (∀ k < s.received.length, k ∈ s.disposed) →
      maxCredit.toNat - (max 1 (maxCredit.toNat / 2) - 1) ≤
          s.handles.receiver.link.flowState.linkCredit.toNat ∧
        1 ≤ s.handles.receiver.link.flowState.linkCredit.toNat := by
  intro s hdisposed
  have hcredit : s.InCredit maxCredit := by
    apply Run.invariant_of_along _ hattached.inCredit (Run.along_and.mpr ⟨hreceives, hcountable⟩)
    exact fun s e hs he => hs.step he.1 he.2
  have hbound := hcredit.credit hdisposed
  rw [DeliveryLog.refreshAt] at hbound
  exact ⟨hbound, by omega⟩

section Overflow

/-- A receiver with credit for two messages, just attached. -/
private def creditForTwo : ReceiverInner where
  link :=
    { localState := .attached
      outputHandle := some ⟨0⟩
      rcvSettleMode := .first
      maxMessageSize := 0
      flowState := ⟨0, 0, 2, 0, false, none⟩
      unsettled := none
      sessionStopReason := none }
  creditMode := .auto 2
  processed := 0
  autoAccept := false
  outgoing := ⟨[], false⟩
  incompleteTransfer := none

private theorem creditForTwo_attached : creditForTwo.Attached 2 :=
  ⟨rfl, by decide, rfl, rfl⟩

/-- A whole delivery that the sender has settled. -/
private def settledTransfer (id : DeliveryNumber) : Transfer :=
  { handle := 0, deliveryId := some id, deliveryTag := some [1], messageFormat := none
    settled := some true, more := false, rcvSettleMode := none, state := none, resume := false
    aborted := false, batchable := false }

private def closedAtOnce : Closing := ⟨.closed, .ok ()⟩

private def undecoded : Bytes → Except Unit Bytes := .ok

private def twoReceived : List CreditEvent :=
  [.transfer closedAtOnce (settledTransfer 0) [], .transfer closedAtOnce (settledTransfer 1) []]

private theorem twoReceived_receives :
    Run.Along (DeliveryLog.step undecoded) (DeliveryLog.Receives undecoded)
      ⟨⟨creditForTwo, []⟩, [], []⟩ twoReceived :=
  ⟨.inl ⟨_, rfl⟩, .inl ⟨_, rfl⟩, trivial⟩

private def bothDisposed : List CreditEvent :=
  twoReceived ++
    [.dispose (.received 0) none .accepted, .dispose (.received 1) none .accepted]

theorem two_disposed_keep_credit :
    (2 : UInt32).toNat - (max 1 ((2 : UInt32).toNat / 2) - 1) ≤
        (Run.run (DeliveryLog.step undecoded) ⟨⟨creditForTwo, []⟩, [], []⟩
          bothDisposed).1.handles.receiver.link.flowState.linkCredit.toNat ∧
      1 ≤ (Run.run (DeliveryLog.step undecoded) ⟨⟨creditForTwo, []⟩, [], []⟩
        bothDisposed).1.handles.receiver.link.flowState.linkCredit.toNat := by
  have hreceives : Run.Along (DeliveryLog.step undecoded) (DeliveryLog.Receives undecoded)
      ⟨⟨creditForTwo, []⟩, [], []⟩ bothDisposed :=
    Run.along_append.mpr ⟨twoReceived_receives, trivial, trivial, trivial⟩
  exact credit_never_dry undecoded 2 (by decide) creditForTwo creditForTwo_attached bothDisposed
    hreceives ⟨trivial, trivial, trivial, trivial, trivial⟩ (by decide)

/-- The two deliveries in one batch, so many times that the counter comes round to zero. -/
private def overflowing : List DisposalTarget :=
  .received 1 :: List.replicate (2 ^ 32 - 1) (.received 0)

private def afterTwo : DeliveryLog :=
  (Run.run (DeliveryLog.step undecoded) ⟨⟨creditForTwo, []⟩, [], []⟩ twoReceived).1

private theorem length_overflowing_infos :
    (overflowing.filterMap afterTwo.info?).length = 2 ^ 32 := by
  have hfirst : afterTwo.info? (.received 0) = some ⟨0, [1], none⟩ := rfl
  have hsecond : afterTwo.info? (.received 1) = some ⟨1, [1], none⟩ := rfl
  rw [overflowing, List.filterMap_cons_some hsecond, List.filterMap_replicate_of_some hfirst,
    List.length_cons, List.length_replicate, Nat.sub_add_cancel (by decide)]

private theorem disposeAll_overflowing :
    afterTwo.handles.receiver.disposeAll (overflowing.filterMap afterTwo.info?) none .accepted =
      (.ok (), afterTwo.handles.receiver) := by
  have hnothing (infos : List DeliveryInfo) :
      afterTwo.handles.receiver.link.toDispose infos = [] :=
    List.filter_eq_nil_iff.mpr fun info _ => ne_true_of_eq_false rfl
  rw [ReceiverInner.disposeAll, length_overflowing_infos, ReceiverLink.disposeAll, hnothing]
  rfl

/-- A batch of `2 ^ 32` deliveries is not counted, and the credit stays used up. -/
theorem credit_dry_after_overflow :
    ¬∀ (maxCredit : SequenceNo) (receiver : ReceiverInner) (es : List CreditEvent),
      1 ≤ maxCredit.toNat → receiver.Attached maxCredit →
      Run.Along (DeliveryLog.step undecoded) (DeliveryLog.Receives undecoded)
        ⟨⟨receiver, []⟩, [], []⟩ es →
      let s := (Run.run (DeliveryLog.step undecoded) ⟨⟨receiver, []⟩, [], []⟩ es).1
      (∀ k < s.received.length, k ∈ s.disposed) →
        maxCredit.toNat - (max 1 (maxCredit.toNat / 2) - 1) ≤
            s.handles.receiver.link.flowState.linkCredit.toNat ∧
          1 ≤ s.handles.receiver.link.flowState.linkCredit.toNat := by
  intro hclaim
  have hreceives : Run.Along (DeliveryLog.step undecoded) (DeliveryLog.Receives undecoded)
      ⟨⟨creditForTwo, []⟩, [], []⟩ (twoReceived ++ [.disposeAll overflowing none .accepted]) :=
    Run.along_append.mpr ⟨twoReceived_receives, trivial, trivial⟩
  have hcredit := hclaim 2 creditForTwo _ (by decide) creditForTwo_attached hreceives
  have hlast : (Run.run (DeliveryLog.step undecoded) ⟨⟨creditForTwo, []⟩, [], []⟩
      (twoReceived ++ [.disposeAll overflowing none .accepted])).1 =
        { afterTwo with disposed := afterTwo.places overflowing } := by
    rw [Run.run_snoc]
    simp only [DeliveryLog.step]
    rw [← afterTwo, disposeAll_overflowing]
    rfl
  rw [hlast] at hcredit
  refine absurd (hcredit ?_).2 (by decide)
  intro k hk
  have hplaced (k : Nat) (hk : k < afterTwo.received.length) (hmem : .received k ∈ overflowing) :
      k ∈ afterTwo.places overflowing :=
    List.mem_filterMap.mpr ⟨.received k, hmem, if_pos hk⟩
  have htwo : k < 2 := hk
  apply hplaced k hk
  rcases Nat.lt_succ_iff_lt_or_eq.mp htwo with hzero | rfl
  · obtain rfl : k = 0 := by omega
    exact List.mem_cons_of_mem _ (List.mem_replicate.mpr ⟨by decide, rfl⟩)
  · exact List.mem_cons_self

end Overflow

end Fe2o3Amqp
