import Fe2o3Amqp.Link.DeliveryTags
import Fe2o3Amqp.Link.IncompleteUnsettled

/-!
# The tags of resumed deliveries

A delivery that is resumed goes out under the tag that it had in the unsettled map.  The map was taken
out of the lock with the Attach of the peer, so that the tags of the deliveries that are left are not
in it; what is sent anew takes its tag from the count, as any send does.
-/

namespace Fe2o3Amqp

/-! ## The deliveries of an exchange -/

/-- What only the peer knows has none of the local tags. -/
theorem resumeDeliveries_unknown (store : LinkStore)
    (localMap : List (DeliveryTag × UnsettledMessage))
    {remoteMap : OrderedMap DeliveryTag (Option DeliveryState)}
    (hnodup : (remoteMap.map Prod.fst).Nodup) :
    let unknown := (resumeDeliveries store localMap remoteMap).2.1
    (unknown.map Prod.fst).Nodup ∧
      ∀ entry ∈ unknown, entry ∈ remoteMap ∧ entry.1 ∉ localMap.map Prod.fst := by
  induction localMap generalizing store remoteMap with
  | nil => exact ⟨hnodup, fun entry hmem => ⟨hmem, List.not_mem_nil⟩⟩
  | cons entry localMap ih =>
      obtain ⟨tag, message⟩ := entry
      obtain ⟨hrest, hunknown⟩ :=
        ih (resumeDelivery store message (IndexMap.lookupEntries tag remoteMap)).2
          (IndexMap.nodup_keys_swapRemoveEntries hnodup)
      refine ⟨hrest, fun entry hmem => ?_⟩
      obtain ⟨hleft, hlocal⟩ := hunknown entry hmem
      obtain ⟨hremote, hne⟩ := (IndexMap.mem_swapRemoveEntries hnodup entry).mp hleft
      refine ⟨hremote, fun hmem => ?_⟩
      rcases List.mem_cons.mp hmem with heq | hmem
      · exact hne heq
      · exact hlocal hmem

theorem resumeDeliveries_tags (store : LinkStore) (localMap : List (DeliveryTag × UnsettledMessage))
    (remoteMap : OrderedMap DeliveryTag (Option DeliveryState)) :
    ((resumeDeliveries store localMap remoteMap).1.map Prod.fst).Sublist (localMap.map Prod.fst) := by
  induction localMap generalizing store remoteMap with
  | nil => exact List.Sublist.refl _
  | cons entry localMap ih =>
      obtain ⟨tag, message⟩ := entry
      simp only [resumeDeliveries, List.map_cons]
      rcases resumeDelivery_cases store message (IndexMap.lookupEntries tag remoteMap) with
        ⟨resuming, hresume, -⟩ | ⟨state, hresume⟩
      · simp only [hresume, List.map_cons]
        exact (ih _ _).cons_cons _
      · simp only [hresume]
        exact (ih _ _).cons _

/-- The deliveries of an exchange have tags of their own. -/
theorem LinkStore.handleUnsettledInAttach_tags {store : LinkStore} {link : LinkId}
    {remoteUnsettled : Option (OrderedMap DeliveryTag (Option DeliveryState))}
    (hnodup : ((remoteUnsettled.getD []).map Prod.fst).Nodup)
    {deliveries : List (DeliveryTag × ResumingDelivery)}
    (h : (store.handleUnsettledInAttach link remoteUnsettled).1 = some deliveries) :
    (deliveries.map Prod.fst).Nodup := by
  rw [handleUnsettledInAttach_eq] at h
  dsimp only at h
  split_ifs at h
  have hlocal : (((store.cell link).senderUnsettled.elim [] (·.entries)).map Prod.fst).Nodup := by
    cases (store.cell link).senderUnsettled with
    | none => exact List.nodup_nil
    | some localMap => exact localMap.nodup
  have htags := resumeDeliveries_tags (store.takeSenderUnsettled link)
    ((store.cell link).senderUnsettled.elim [] (·.entries)) (remoteUnsettled.getD [])
  obtain ⟨hunknown, hapart⟩ := resumeDeliveries_unknown (store.takeSenderUnsettled link)
    ((store.cell link).senderUnsettled.elim [] (·.entries)) hnodup
  rw [← Option.some.inj h, List.map_append, abortUnknown, List.map_map]
  refine List.nodup_append.mpr ⟨hlocal.sublist htags, hunknown, fun tag hmem other hother => ?_⟩
  obtain ⟨entry, hentry, rfl⟩ := List.mem_map.mp hother
  rintro rfl
  exact (hapart entry hentry).2 (htags.subset hmem)

theorem LinkStore.handleUnsettledInAttach_shrinksTo (store : LinkStore) (link : LinkId)
    (remoteUnsettled : Option (OrderedMap DeliveryTag (Option DeliveryState))) :
    store.ShrinksTo (store.handleUnsettledInAttach link remoteUnsettled).2 := by
  have htaken : (store.handleUnsettledInAttach link remoteUnsettled).2.cell =
      (store.takeSenderUnsettled link).cell := by
    rw [handleUnsettledInAttach_eq]
    dsimp only
    split_ifs
    · rfl
    · exact resumeDeliveries_cell _ _ _
  intro link' tag message' hafter
  refine ⟨message', ?_, rfl⟩
  rw [unsettled, htaken, ← unsettled, takeSenderUnsettled, unsettled_modify] at hafter
  split_ifs at hafter
  · cases hafter
  · exact hafter

/-! ## What is left -/

/-- The tags under which deliveries are still to be sent on. -/
def Remaining.tags : Remaining → List DeliveryTag
  | .deliveries rest _ => rest.map Prod.fst
  | .resends _ => []

/-- What is left where the procedure waits. -/
def ResumeAwait.remaining : ResumeAwait → Option Remaining
  | .next remaining => some remaining
  | .transfer _ _ remaining => some remaining
  | _ => none

/-- The tags of the deliveries that the peer names are distinct, as those of a map are. -/
def ResumeOutput.DistinctTags : ResumeOutput → Prop
  | .exchanged remoteAttach _ => ((remoteAttach.unsettled.getD []).map Prod.fst).Nodup
  | _ => True

namespace ResumeTask

/-- The transfers among these carry no tag of an entry other than their own. -/
def HandsOver (t : ResumeTask) (outputs : List ResumeOutput) : Prop :=
  ∀ frame sender, .transfer frame sender ∈ outputs →
    ∀ tag, TaggedSender.frameTag frame = some tag →
      ∀ message, t.unsettled tag = some message → sender = some message.sender

/-- No entry of the unsettled map is overwritten by another delivery's, and no transfer is handed over
with the tag of an entry other than its own. -/
structure KeepsApart (t : ResumeTask) (e : ResumeEvent) : Prop where
  kept : ∀ tag message message', t.unsettled tag = some message →
    (t.step e).1.unsettled tag = some message' → message'.sender = message.sender
  handed : t.HandsOver (t.step e).2

/-- A delivery that is sent anew takes a tag from the count that no unsettled delivery has. -/
def DrawsFree (t : ResumeTask) : ResumeEvent → Prop
  | .poll => ∀ message rest, t.awaiting = .credit message rest →
      t.unsettled (tagOf t.cell.flowState.deliveryCount) = none
  | _ => True

/-- The deliveries that are left have tags of their own, none of which is in the map; nor is that of
the delivery which is handed over, unless it is its own. -/
structure TagsSound (t : ResumeTask) : Prop where
  nodup : ∀ remaining, t.awaiting.remaining = some remaining → remaining.tags.Nodup
  free : ∀ remaining, t.awaiting.remaining = some remaining →
    ∀ tag ∈ remaining.tags, t.unsettled tag = none
  own : ∀ split delivery remaining, t.awaiting = .transfer split delivery remaining →
    ∀ tag, split.transfer.deliveryTag = some tag →
      ∀ message, t.unsettled tag = some message → delivery.sender = some message.sender

/-- Nothing comes into the map. -/
structure Shrinks (t t' : ResumeTask) : Prop where
  store : t.store.ShrinksTo t'.store
  id : t'.id = t.id

/-- The tags stay apart, and no entry is overwritten. -/
structure Moves (t t' : ResumeTask) : Prop where
  sound : t'.TagsSound
  kept : ∀ tag message message', t.unsettled tag = some message →
    t'.unsettled tag = some message' → message'.sender = message.sender

variable {t t' t'' : ResumeTask}

theorem Shrinks.refl (t : ResumeTask) : Shrinks t t := ⟨.refl _, rfl⟩

theorem Shrinks.trans (h : Shrinks t t') (h' : Shrinks t' t'') : Shrinks t t'' :=
  ⟨h.store.trans h'.store, h'.id.trans h.id⟩

theorem Shrinks.unsettled (h : Shrinks t t') {tag : DeliveryTag} {message' : UnsettledMessage}
    (hafter : t'.unsettled tag = some message') :
    ∃ message, t.unsettled tag = some message ∧ message.sender = message'.sender := by
  obtain ⟨hstore, hid⟩ := h
  apply hstore t.id tag message'
  rw [← hid]
  exact hafter

theorem Shrinks.kept (h : Shrinks t t') {tag : DeliveryTag} {message message' : UnsettledMessage}
    (hbefore : t.unsettled tag = some message) (hafter : t'.unsettled tag = some message') :
    message'.sender = message.sender := by
  obtain ⟨original, horiginal, hsender⟩ := h.unsettled hafter
  rw [hbefore] at horiginal
  cases horiginal
  exact hsender.symm

theorem Shrinks.free (h : Shrinks t t') {tag : DeliveryTag} (hbefore : t.unsettled tag = none) :
    t'.unsettled tag = none := by
  cases hafter : t'.unsettled tag with
  | none => rfl
  | some message' =>
      obtain ⟨message, hsome, -⟩ := h.unsettled hafter
      rw [hbefore] at hsome
      cases hsome

theorem TagsSound.of_quiet (h : t.awaiting.remaining = none) : t.TagsSound where
  nodup := fun _ hsome => by rw [h] at hsome; cases hsome
  free := fun _ hsome => by rw [h] at hsome; cases hsome
  own := fun _ _ _ hsome => by rw [hsome] at h; cases h

theorem TagsSound.of_next {remaining : Remaining} (h : t.awaiting = .next remaining)
    (hnodup : remaining.tags.Nodup) (hfree : ∀ tag ∈ remaining.tags, t.unsettled tag = none) :
    t.TagsSound where
  nodup := fun _ hsome => by rw [h] at hsome; cases hsome; exact hnodup
  free := fun _ hsome => by rw [h] at hsome; cases hsome; exact hfree
  own := fun _ _ _ hsome => by rw [h] at hsome; cases hsome

theorem TagsSound.of_transfer {split : TransferSplit} {delivery : OnTheWay} {remaining : Remaining}
    (h : t.awaiting = .transfer split delivery remaining) (hnodup : remaining.tags.Nodup)
    (hfree : ∀ tag ∈ remaining.tags, t.unsettled tag = none)
    (hown : ∀ tag, split.transfer.deliveryTag = some tag →
      ∀ message, t.unsettled tag = some message → delivery.sender = some message.sender) :
    t.TagsSound where
  nodup := fun _ hsome => by rw [h] at hsome; cases hsome; exact hnodup
  free := fun _ hsome => by rw [h] at hsome; cases hsome; exact hfree
  own := fun _ _ _ hsome => by rw [h] at hsome; cases hsome; exact hown

theorem Shrinks.moves (h : Shrinks t t') (hstore : t''.store = t'.store) (hid : t''.id = t'.id)
    (hsound : t''.TagsSound) : Moves t t'' := by
  have hshrinks : Shrinks t t'' := ⟨by rw [hstore]; exact h.store, hid.trans h.id⟩
  exact ⟨hsound, fun _ _ _ hbefore hafter => hshrinks.kept hbefore hafter⟩

/-- Nothing more is sent on. -/
theorem Shrinks.stops (h : Shrinks t t') (hstore : t''.store = t'.store) (hid : t''.id = t'.id)
    (hquiet : t''.awaiting.remaining = none) : Moves t t'' :=
  h.moves hstore hid (.of_quiet hquiet)

theorem shrinks_withCell (t : ResumeTask) (f : LinkCell → LinkCell)
    (hf : (f t.cell).senderUnsettled = t.cell.senderUnsettled) : Shrinks t (t.withCell f) :=
  ⟨(@LinkStore.changesOnly_modify (fun _ => True) t.store t.id f hf).shrinks, rfl⟩

theorem shrinks_recv {frame : Option LinkFrame} (h : t.recv = some (frame, t')) : Shrinks t t' := by
  simp only [recv] at h
  split at h
  · cases h
    exact t.shrinks_withCell _ rfl
  · split_ifs at h
    cases h
    exact .refl t

theorem shrinks_prepareAttach (t : ResumeTask) (isReattaching : Bool) :
    Shrinks t (t.withCell fun _ =>
      (t.link.prepareAttach t.cell t.link.maxFrameSize isReattaching).2) := by
  refine ⟨fun link tag message' hafter => ?_, rfl⟩
  refine ⟨message', ?_, rfl⟩
  simp only [withCell, LinkStore.unsettled_modify] at hafter
  split_ifs at hafter with hlink
  · have hcell : (t.link.prepareAttach t.cell t.link.maxFrameSize isReattaching).2 = t.cell ∨
        (t.link.prepareAttach t.cell t.link.maxFrameSize isReattaching).2.senderUnsettled = none := by
      simp only [LinkEndpoint.prepareAttach, LinkEndpoint.clearUnsettled]
      cases t.link.outputHandle with
      | none => exact .inl rfl
      | some handle =>
          cases isReattaching with
          | true =>
              right
              dsimp only
              split
              · rfl
              · split <;> rfl
          | false =>
              left
              dsimp only
              split
              · rfl
              · split <;> rfl
    rcases hcell with hcell | hcell
    · rw [hcell] at hafter
      rw [hlink]
      exact hafter
    · rw [hcell] at hafter
      cases hafter
  · exact hafter

theorem shrinks_acceptAttach (t : ResumeTask) (remoteAttach : Attach) :
    Shrinks t (t.withCell fun _ => (t.link.acceptAttach t.cell remoteAttach).2.2) :=
  t.shrinks_withCell _ (t.link.acceptAttach_frame t.cell remoteAttach).senderUnsettled

/-! ## Sending on -/

theorem unsettled_insert (t : ResumeTask) (tag : DeliveryTag) (message : UnsettledMessage)
    (tag' : DeliveryTag) :
    (t.withCell fun cell => { cell with
      senderUnsettled := some ((cell.senderUnsettled.getD IndexMap.empty).insert tag message)
      }).unsettled tag' = if tag' = tag then some message else t.unsettled tag' := by
  simp only [unsettled, cell, withCell, LinkStore.modify_cell_self, Option.bind_some,
    IndexMap.get_insert]
  cases (t.store.cell t.id).senderUnsettled with
  | none => simp
  | some m => rfl

theorem unsettled_abandon_registered (t : ResumeTask) (tag : DeliveryTag) (sender : OneshotId)
    (tag' : DeliveryTag) :
    (t.abandon (.registered tag sender)).unsettled tag' =
      if tag' = tag then none else t.unsettled tag' := by
  simp only [abandon, unsettled, cell, withCell, LinkStore.modify_cell_self]
  cases (t.store.cell t.id).senderUnsettled with
  | none => simp
  | some m => simp [IndexMap.get_swapRemove]

theorem startTransfer_transfer {link : SenderLink} {transfer : Transfer} {payload : Payload}
    {split : TransferSplit} (h : link.startTransfer transfer payload = .ok split) :
    split.transfer = transfer := by
  simp only [SenderLink.startTransfer] at h
  split at h
  · cases h
  · obtain ⟨maxPayload, -, hsplit⟩ := Except.bind_eq_ok.mp h
    cases hsplit
    rfl

section Sending

variable {transfer : Transfer} {tag : DeliveryTag} {remaining : Remaining}
  (htag : transfer.deliveryTag = some tag) (hfree : t.unsettled tag = none)
  (hnodup : remaining.tags.Nodup) (hrest : ∀ tag' ∈ remaining.tags, t.unsettled tag' = none)

include htag hfree hnodup hrest

/-- A delivery that is not registered. -/
theorem beginTransfer_moves (payload : Payload) (delivery : OnTheWay)
    (hdelivery : ∀ tag sender, delivery ≠ .registered tag sender) :
    Moves t (t.beginTransfer transfer payload delivery remaining) := by
  have habandon : t.abandon delivery = t := by
    cases delivery with
    | aborted sender => rfl
    | settled message => rfl
    | registered tag sender => exact absurd rfl (hdelivery tag sender)
  simp only [beginTransfer]
  split
  · rw [habandon]
    exact (Shrinks.refl t).stops rfl rfl rfl
  · next split hsplit =>
      refine (Shrinks.refl t).moves rfl rfl
        (.of_transfer rfl hnodup hrest fun tag' htag' message hmessage => ?_)
      rw [startTransfer_transfer hsplit, htag] at htag'
      cases htag'
      cases hfree.symm.trans hmessage

/-- The delivery is registered under its tag, unless it goes out settled. -/
theorem sendTransferWithOutcome_moves (hapart : tag ∉ remaining.tags) (message : UnsettledMessage) :
    Moves t (t.sendTransferWithOutcome transfer tag message remaining) := by
  simp only [sendTransferWithOutcome]
  split_ifs
  · exact beginTransfer_moves htag hfree hnodup hrest _ _ (by rintro _ _ ⟨⟩)
  · generalize hregistered : t.withCell (fun cell => { cell with
      senderUnsettled := some ((cell.senderUnsettled.getD IndexMap.empty).insert tag message) }) = t₁
    have hafter (tag' : DeliveryTag) :
        t₁.unsettled tag' = if tag' = tag then some message else t.unsettled tag' := by
      rw [← hregistered]
      exact t.unsettled_insert tag message tag'
    have hkept : ∀ tag' original after, t.unsettled tag' = some original →
        t₁.unsettled tag' = some after → after.sender = original.sender := by
      intro tag' original after hbefore hlater
      rw [hafter] at hlater
      split_ifs at hlater with hsame
      · rw [hsame, hfree] at hbefore
        cases hbefore
      · rw [hbefore] at hlater
        cases hlater
        rfl
    simp only [beginTransfer]
    split
    · -- the registration is withdrawn
      refine ⟨.of_quiet rfl, fun tag' original after hbefore hlater => ?_⟩
      have hwithdrawn := (t₁.unsettled_abandon_registered tag message.sender tag').symm.trans hlater
      split_ifs at hwithdrawn
      exact hkept tag' original after hbefore hwithdrawn
    · next split hsplit =>
        refine ⟨.of_transfer rfl hnodup (fun tag' hmem => ?_) fun tag' htag' other hother => ?_, hkept⟩
        · have hne : tag' ≠ tag := fun hsame => hapart (hsame ▸ hmem)
          have hnone := hafter tag'
          rw [if_neg hne, hrest tag' hmem] at hnone
          exact hnone
        · rw [startTransfer_transfer hsplit, htag] at htag'
          cases htag'
          have hown := hafter tag
          rw [if_pos rfl] at hown
          cases hown.symm.trans hother
          rfl

end Sending

/-! ## The steps -/

theorem handleResumingDelivery_moves (h : t.TagsSound) {tag : DeliveryTag}
    {resuming : ResumingDelivery} {rest : List (DeliveryTag × ResumingDelivery)} {incomplete : Bool}
    (hawaiting : t.awaiting = .next (.deliveries ((tag, resuming) :: rest) incomplete)) :
    Moves t (t.handleResumingDelivery tag resuming (.deliveries rest incomplete)) := by
  have hremaining :
      t.awaiting.remaining = some (.deliveries ((tag, resuming) :: rest) incomplete) := by
    rw [hawaiting]
    rfl
  obtain ⟨hapart, hnodup⟩ := List.nodup_cons.mp (h.nodup _ hremaining)
  have hleft : (Remaining.deliveries rest incomplete).tags.Nodup := hnodup
  have hfree : t.unsettled tag = none := h.free _ hremaining tag List.mem_cons_self
  have hrest : ∀ tag' ∈ (Remaining.deliveries rest incomplete).tags, t.unsettled tag' = none :=
    fun tag' hmem => h.free _ hremaining tag' (List.mem_cons_of_mem _ hmem)
  have hstopped : Moves t (t.failSend (.link .illegalState)) :=
    (Shrinks.refl t).stops rfl rfl rfl
  cases resuming with
  | resend message =>
      simp only [handleResumingDelivery]
      exact (Shrinks.refl t).moves rfl rfl (.of_next rfl hleft hrest)
  | abort messageFormat sender =>
      cases hhandle : t.link.outputHandle with
      | none => simpa only [handleResumingDelivery, hhandle] using hstopped
      | some handle =>
          simp only [handleResumingDelivery, hhandle]
          exact beginTransfer_moves rfl hfree hleft hrest _ _ (by rintro _ _ ⟨⟩)
  | resume message =>
      cases hhandle : t.link.outputHandle with
      | none => simpa only [handleResumingDelivery, hhandle] using hstopped
      | some handle =>
          simp only [handleResumingDelivery, hhandle]
          exact sendTransferWithOutcome_moves rfl hfree hleft hrest hapart _
  | restateOutcome payload localState messageFormat sender =>
      cases hhandle : t.link.outputHandle with
      | none => simpa only [handleResumingDelivery, hhandle] using hstopped
      | some handle =>
          simp only [handleResumingDelivery, hhandle]
          exact sendTransferWithOutcome_moves rfl hfree hleft hrest hapart _

theorem detach_moves (t : ResumeTask) : Moves t t.detach := by
  simp only [detach]
  split
  · exact (Shrinks.refl t).stops rfl rfl rfl
  · exact (Shrinks.refl t).stops rfl rfl rfl

theorem pollNext_moves (h : t.TagsSound) {remaining : Remaining}
    (hawaiting : t.awaiting = .next remaining) : Moves t (t.pollNext remaining) := by
  cases remaining with
  | deliveries rest incomplete =>
      cases rest with
      | cons entry rest => exact handleResumingDelivery_moves h hawaiting
      | nil =>
          cases incomplete with
          | true => exact (Shrinks.refl t).stops rfl rfl rfl
          | false =>
              exact (Shrinks.refl t).moves rfl rfl
                (.of_next rfl List.nodup_nil fun tag hmem => absurd hmem List.not_mem_nil)
  | resends rest =>
      cases rest with
      | cons message rest => exact (Shrinks.refl t).stops rfl rfl rfl
      | nil => exact t.detach_moves

theorem shrinks_abandon (t : ResumeTask) (delivery : OnTheWay) : Shrinks t (t.abandon delivery) := by
  cases delivery with
  | aborted sender => exact .refl t
  | settled message => exact .refl t
  | registered tag sender =>
      refine ⟨fun link tag' message' hafter => ⟨message', ?_, rfl⟩, rfl⟩
      simp only [abandon, withCell, LinkStore.unsettled_modify] at hafter
      split_ifs at hafter with hlink
      · obtain ⟨m, hm, hget⟩ := Option.bind_eq_some_iff.mp hafter
        obtain ⟨m', hm', rfl⟩ := Option.map_eq_some_iff.mp hm
        rw [IndexMap.get_swapRemove] at hget
        split_ifs at hget
        rw [hlink, LinkStore.unsettled, hm']
        exact hget
      · exact hafter

theorem shrinks_delivered (t : ResumeTask) (delivery : OnTheWay) :
    Shrinks t (t.delivered delivery) := by
  cases delivery with
  | aborted sender =>
      cases sender with
      | none => exact .refl t
      | some sender => exact ⟨.refl _, rfl⟩
  | settled message => exact ⟨.refl _, rfl⟩
  | registered tag sender => exact .refl t

theorem pollTransfer_moves (h : t.TagsSound) {split : TransferSplit} {delivery : OnTheWay}
    {remaining : Remaining} (hawaiting : t.awaiting = .transfer split delivery remaining) :
    Moves t (t.pollTransfer split delivery remaining).1 ∧
      t.HandsOver (t.pollTransfer split delivery remaining).2 := by
  have hremaining : t.awaiting.remaining = some remaining := by
    rw [hawaiting]
    rfl
  have hnodup := h.nodup _ hremaining
  have hrest := h.free _ hremaining
  have hown := h.own split delivery remaining hawaiting
  have hhanded : t.HandsOver [ResumeOutput.transfer split.next.1 delivery.sender] := by
    intro frame sender hmem tag htag
    cases List.mem_singleton.mp hmem
    rw [TaggedSender.frameTag_next] at htag
    exact hown tag htag
  simp only [pollTransfer]
  split_ifs
  · exact ⟨(t.shrinks_abandon delivery).stops rfl rfl rfl, fun _ _ hmem => by cases hmem⟩
  · cases hnext : split.next with
    | mk frame rest =>
        rw [hnext] at hhanded
        cases rest with
        | some rest =>
            refine ⟨(Shrinks.refl t).moves rfl rfl
              (.of_transfer rfl hnodup hrest fun tag htag => ?_), hhanded⟩
            have hleft : split.next.2 = some rest := by rw [hnext]
            rcases TaggedSender.next_deliveryTag hleft with hnone | hsame
            · rw [hnone] at htag
              cases htag
            · exact hown tag (hsame ▸ htag)
        | none =>
            have hshrinks := t.shrinks_delivered delivery
            exact ⟨hshrinks.moves rfl rfl
              (.of_next rfl hnodup fun tag hmem => hshrinks.free (hrest tag hmem)), hhanded⟩

theorem pollCredit_moves {message : UnsettledMessage} {rest : List UnsettledMessage}
    (hawaiting : t.awaiting = .credit message rest)
    (hfree : t.unsettled (tagOf t.cell.flowState.deliveryCount) = none) :
    Moves t (t.pollCredit message rest) := by
  simp only [pollCredit]
  split
  · next detach incoming _ =>
      exact (t.shrinks_withCell (fun cell => { cell with incoming }) rfl).stops rfl rfl rfl
  · next frame incoming _ _ =>
      exact (t.shrinks_withCell (fun cell => { cell with incoming }) rfl).stops rfl rfl rfl
  · split_ifs
    · exact (Shrinks.refl t).stops rfl rfl rfl
    · cases hconsume : t.cell.flowState.consumeLinkCredit 1 with
      | none => exact (Shrinks.refl t).stops rfl rfl (by rw [hawaiting]; rfl)
      | some consumed =>
          obtain ⟨deliveryTag, flowState⟩ := consumed
          obtain rfl : deliveryTag = tagOf t.cell.flowState.deliveryCount := by
            simp only [LinkFlowStateInner.consumeLinkCredit] at hconsume
            split_ifs at hconsume
            cases hconsume
            rfl
          have hsame (tag : DeliveryTag) :
              (t.withCell fun cell => { cell with flowState }).unsettled tag = t.unsettled tag := by
            simp only [unsettled, cell, withCell, LinkStore.modify_cell_self]
          dsimp only
          split
          · exact (t.shrinks_withCell (fun cell => { cell with flowState }) rfl).stops rfl rfl rfl
          · next transfer hgenerate =>
              have htag : transfer.deliveryTag = some (tagOf t.cell.flowState.deliveryCount) := by
                simp only [SenderLink.generateNonResumingTransferPerformative] at hgenerate
                split at hgenerate
                · cases hgenerate
                · cases hgenerate
                  rfl
              have hnothing : (Remaining.resends rest).tags.Nodup := List.nodup_nil
              obtain ⟨hsound, hkept⟩ := sendTransferWithOutcome_moves htag ((hsame _).trans hfree)
                hnothing (fun _ hmem => absurd hmem List.not_mem_nil) List.not_mem_nil message
              exact ⟨hsound, fun tag original after hbefore hafter =>
                hkept tag original after ((hsame tag).trans hbefore) hafter⟩

/-! ## Attaching -/

theorem shrinks_handleUnsettledInAttach (t : ResumeTask)
    (remoteUnsettled : Option (OrderedMap DeliveryTag (Option DeliveryState))) :
    Shrinks t { t with store := (t.store.handleUnsettledInAttach t.id remoteUnsettled).2 } :=
  ⟨t.store.handleUnsettledInAttach_shrinksTo t.id remoteUnsettled, rfl⟩

theorem ofDeliveries_some (localState : LinkState)
    (deliveries : List (DeliveryTag × ResumingDelivery)) :
    SenderAttachExchange.ofDeliveries localState (some deliveries) = .incompleteUnsettled deliveries ∨
      SenderAttachExchange.ofDeliveries localState (some deliveries) = .resume deliveries := by
  cases localState <;> simp [SenderAttachExchange.ofDeliveries]

/-- No transfer is among these. -/
theorem handsOver_of_silent {outputs : List ResumeOutput}
    (h : ∀ frame sender, .transfer frame sender ∉ outputs) : t.HandsOver outputs :=
  fun frame sender hmem => absurd hmem (h frame sender)

theorem onIncomingAttach_moves (h : Shrinks t t') (remoteAttach : Attach)
    (hdistinct : ∀ o ∈ (t'.onIncomingAttach remoteAttach).2, o.DistinctTags) :
    Moves t (t'.onIncomingAttach remoteAttach).1 ∧
      t.HandsOver (t'.onIncomingAttach remoteAttach).2 := by
  have hshrinks := h.trans (t'.shrinks_acceptAttach remoteAttach)
  cases haccept : t'.link.acceptAttach t'.cell remoteAttach with
  | mk result rest =>
      obtain ⟨endpoint, cell⟩ := rest
      rw [haccept] at hshrinks
      cases result with
      | error e =>
          simp only [onIncomingAttach, haccept]
          exact ⟨hshrinks.stops rfl rfl rfl, fun _ _ hmem => by cases hmem⟩
      | ok _ =>
          have hnone := @onIncomingAttach_unsettled t' remoteAttach (by rw [haccept])
          have htaken : Shrinks t { t'.withCell fun _ => cell with
              store := ((t'.withCell fun _ => cell).store.handleUnsettledInAttach t'.id
                remoteAttach.unsettled).2 } :=
            hshrinks.trans ((t'.withCell fun _ => cell).shrinks_handleUnsettledInAttach _)
          simp only [onIncomingAttach, haccept] at hdistinct hnone ⊢
          cases hdeliveries : (((t'.withCell fun _ => cell).withEndpoint
              endpoint).store.handleUnsettledInAttach
                ((t'.withCell fun _ => cell).withEndpoint endpoint).id remoteAttach.unsettled).1 with
          | none =>
              simp only [hdeliveries, SenderAttachExchange.ofDeliveries] at hdistinct hnone ⊢
              exact ⟨htaken.stops rfl rfl rfl, handsOver_of_silent (by simp)⟩
          | some deliveries =>
              rw [hdeliveries] at hdistinct hnone
              rcases ofDeliveries_some endpoint.localState deliveries with hexchange | hexchange
              · rw [hexchange] at hdistinct hnone ⊢
                have hnodup := LinkStore.handleUnsettledInAttach_tags
                  (hdistinct _ List.mem_cons_self) hdeliveries
                exact ⟨htaken.moves rfl rfl (.of_next rfl hnodup fun tag _ => hnone tag),
                  handsOver_of_silent (by simp)⟩
              · rw [hexchange] at hdistinct hnone ⊢
                have hnodup := LinkStore.handleUnsettledInAttach_tags
                  (hdistinct _ List.mem_cons_self) hdeliveries
                exact ⟨htaken.moves rfl rfl (.of_next rfl hnodup fun tag _ => hnone tag),
                  handsOver_of_silent (by simp)⟩

theorem pollAttachSend_moves (t : ResumeTask) (attach : Attach)
    (hdistinct : ∀ o ∈ (t.pollAttachSend attach).2, o.DistinctTags) :
    Moves t (t.pollAttachSend attach).1 ∧ t.HandsOver (t.pollAttachSend attach).2 := by
  simp only [pollAttachSend] at hdistinct ⊢
  split_ifs with hclosed
  · exact ⟨(Shrinks.refl t).stops rfl rfl rfl, handsOver_of_silent (by simp)⟩
  · rw [if_neg hclosed] at hdistinct
    split
    · exact ⟨(Shrinks.refl t).stops rfl rfl rfl, handsOver_of_silent (by simp)⟩
    · next remoteAttach hattach =>
        simp only [hattach] at hdistinct
        have hsame : Shrinks t
            { t.withEndpoint (t.link.attachSent attach) with remoteAttach := none } :=
          ⟨.refl _, rfl⟩
        obtain ⟨hmoves, hhanded⟩ := onIncomingAttach_moves hsame remoteAttach
          fun o hmem => hdistinct o (List.mem_cons_of_mem _ hmem)
        refine ⟨hmoves, fun frame sender hmem => ?_⟩
        rcases List.mem_cons.mp hmem with hattach | hmem
        · cases hattach
        · exact hhanded frame sender hmem

theorem pollRemoteAttach_moves (h : t.TagsSound)
    (hdistinct : ∀ o ∈ t.pollRemoteAttach.2, o.DistinctTags) :
    Moves t t.pollRemoteAttach.1 ∧ t.HandsOver t.pollRemoteAttach.2 := by
  simp only [pollRemoteAttach] at hdistinct ⊢
  split
  · exact ⟨(Shrinks.refl t).moves rfl rfl h, handsOver_of_silent (by simp)⟩
  · next hrecv =>
      exact ⟨(shrinks_recv hrecv).stops rfl rfl rfl, handsOver_of_silent (by simp)⟩
  · next hrecv =>
      rw [hrecv] at hdistinct
      exact onIncomingAttach_moves (shrinks_recv hrecv) _ hdistinct
  · next hrecv =>
      exact ⟨(shrinks_recv hrecv).stops rfl rfl rfl, handsOver_of_silent (by simp)⟩

theorem pollExchange_moves (t : ResumeTask) : Moves t t.pollExchange := by
  have hshrinks := t.shrinks_prepareAttach t.isReattaching
  simp only [pollExchange]
  split
  · next hprepare =>
      rw [hprepare] at hshrinks
      exact hshrinks.stops rfl rfl rfl
  · next hprepare =>
      rw [hprepare] at hshrinks
      exact hshrinks.stops rfl rfl rfl

theorem reallocate_moves (h : Shrinks t t') {awaiting : ResumeAwait}
    (hquiet : awaiting.remaining = none) : Moves t (t'.reallocate awaiting) :=
  (h.trans (t'.shrinks_withCell (fun cell => { cell with incoming := [], endpointDropped := false })
    rfl)).stops rfl rfl hquiet

theorem pollDetachReply_moves (h : t.TagsSound) (hawaiting : t.awaiting = .detachReply) :
    Moves t t.pollDetachReply := by
  simp only [pollDetachReply]
  split
  · exact (Shrinks.refl t).moves rfl rfl h
  · next hrecv => exact (shrinks_recv hrecv).stops rfl rfl rfl
  · next t₁ hrecv =>
      have hshrinks := shrinks_recv hrecv
      split_ifs
      · exact reallocate_moves hshrinks rfl
      · split
        · next endpoint _ =>
            have hsame : Shrinks t (t₁.withEndpoint endpoint) := ⟨hshrinks.store, hshrinks.id⟩
            exact reallocate_moves hsame rfl
        · exact hshrinks.stops rfl rfl rfl
  · next hrecv =>
      exact (shrinks_recv hrecv).stops rfl rfl (by rw [(recv_some hrecv).2.2, hawaiting]; rfl)

/-! ## `reattach_then_close` -/

theorem refuse_moves (h : Shrinks t t') (error : AttachError) : Moves t (t'.refuse error) := by
  simp only [refuse]
  split
  · exact h.stops rfl rfl rfl
  · split
    · exact h.stops rfl rfl rfl
    · split_ifs
      · exact h.stops rfl rfl rfl
      · exact h.stops rfl rfl rfl

theorem closingOnIncomingAttach_moves (h : Shrinks t t') (remoteAttach : Attach) :
    Moves t (t'.closingOnIncomingAttach remoteAttach) := by
  have hshrinks := h.trans (t'.shrinks_acceptAttach remoteAttach)
  cases haccept : t'.link.acceptAttach t'.cell remoteAttach with
  | mk result rest =>
      obtain ⟨endpoint, cell⟩ := rest
      rw [haccept] at hshrinks
      cases result with
      | error e =>
          simp only [closingOnIncomingAttach, haccept]
          have hsame : Shrinks t ((t'.withCell fun _ => cell).withEndpoint endpoint) :=
            ⟨hshrinks.store, hshrinks.id⟩
          exact refuse_moves hsame e
      | ok _ =>
          have htaken : Shrinks t { t'.withCell fun _ => cell with
              store := ((t'.withCell fun _ => cell).store.handleUnsettledInAttach t'.id
                remoteAttach.unsettled).2 } :=
            hshrinks.trans ((t'.withCell fun _ => cell).shrinks_handleUnsettledInAttach _)
          simp only [closingOnIncomingAttach, haccept]
          split_ifs
          · exact htaken.stops rfl rfl rfl
          · split
            · exact htaken.stops rfl rfl rfl
            · exact htaken.stops rfl rfl rfl

/-- `reattach_then_close` hands no transfer over. -/
theorem pollClosing_silent (t : ResumeTask) (awaiting : ClosingAwait) (frame : LinkFrame)
    (sender : Option OneshotId) : .transfer frame sender ∉ (t.pollClosing awaiting).2 := by
  cases awaiting with
  | allocation => simp [pollClosing]
  | exchange => simp only [pollClosing]; split <;> simp
  | attachSend attach => simp only [pollClosing]; split_ifs <;> simp
  | remoteAttach => simp only [pollClosing]; split <;> simp
  | refusalSend detach => simp only [pollClosing]; split_ifs <;> simp
  | refusalReply => simp only [pollClosing]; split <;> simp
  | detachSend detach => simp only [pollClosing]; split_ifs <;> simp
  | detachReply =>
      simp only [pollClosing]
      split
      · simp
      · simp
      · split <;> simp
      · simp

theorem pollClosing_moves (h : t.TagsSound) {awaiting : ClosingAwait}
    (hawaiting : t.awaiting = .closing awaiting) : Moves t (t.pollClosing awaiting).1 := by
  have hstays : Moves t t := (Shrinks.refl t).moves rfl rfl h
  cases awaiting with
  | allocation => exact hstays
  | exchange =>
      have hshrinks := t.shrinks_prepareAttach true
      simp only [pollClosing]
      split
      · next hprepare =>
          rw [hprepare] at hshrinks
          exact hshrinks.stops rfl rfl rfl
      · next hprepare =>
          rw [hprepare] at hshrinks
          exact hshrinks.stops rfl rfl rfl
  | attachSend attach =>
      simp only [pollClosing]
      split_ifs
      · exact (Shrinks.refl t).stops rfl rfl rfl
      · exact (Shrinks.refl t).stops rfl rfl rfl
  | remoteAttach =>
      simp only [pollClosing]
      split
      · exact hstays
      · next hrecv => exact closingOnIncomingAttach_moves (shrinks_recv hrecv) _
      · next hrecv => exact (shrinks_recv hrecv).stops rfl rfl rfl
  | refusalSend detach =>
      simp only [pollClosing]
      split_ifs
      · exact (Shrinks.refl t).stops rfl rfl rfl
      · exact (Shrinks.refl t).stops rfl rfl rfl
      · exact (Shrinks.refl t).stops rfl rfl rfl
  | refusalReply =>
      simp only [pollClosing]
      split
      · exact hstays
      · next hrecv => exact (shrinks_recv hrecv).stops rfl rfl rfl
      · next hrecv => exact (shrinks_recv hrecv).stops rfl rfl rfl
  | detachSend detach =>
      simp only [pollClosing]
      split_ifs
      · exact (Shrinks.refl t).stops rfl rfl rfl
      · exact (Shrinks.refl t).stops rfl rfl rfl
  | detachReply =>
      simp only [pollClosing]
      split
      · exact hstays
      · next hrecv => exact (shrinks_recv hrecv).stops rfl rfl rfl
      · next hrecv =>
          split
          · exact (shrinks_recv hrecv).stops rfl rfl rfl
          · exact (shrinks_recv hrecv).stops rfl rfl rfl
      · next hrecv =>
          apply (shrinks_recv hrecv).stops rfl rfl
          rw [(recv_some hrecv).2.2, hawaiting]
          rfl

/-! ## Runs -/

theorem poll_moves (h : t.TagsSound) (hdraws : t.DrawsFree .poll)
    (hdistinct : ∀ o ∈ t.poll.2, o.DistinctTags) :
    Moves t t.poll.1 ∧ t.HandsOver t.poll.2 := by
  have hstays : Moves t t := (Shrinks.refl t).moves rfl rfl h
  have hnothing : t.HandsOver [] := handsOver_of_silent (by simp)
  simp only [poll] at hdistinct ⊢
  cases hawaiting : t.awaiting with
  | allocation => exact ⟨hstays, hnothing⟩
  | exchange => exact ⟨t.pollExchange_moves, hnothing⟩
  | attachSend attach =>
      simp only [hawaiting] at hdistinct
      exact t.pollAttachSend_moves attach hdistinct
  | remoteAttach =>
      simp only [hawaiting] at hdistinct
      exact pollRemoteAttach_moves h hdistinct
  | next remaining => exact ⟨pollNext_moves h hawaiting, hnothing⟩
  | transfer split delivery remaining => exact pollTransfer_moves h hawaiting
  | credit message rest => exact ⟨pollCredit_moves hawaiting (hdraws message rest hawaiting), hnothing⟩
  | detachSend detach =>
      dsimp only
      split_ifs
      · exact ⟨(Shrinks.refl t).stops rfl rfl rfl, hnothing⟩
      · exact ⟨(Shrinks.refl t).stops rfl rfl rfl, handsOver_of_silent (by simp)⟩
  | detachReply => exact ⟨pollDetachReply_moves h hawaiting, hnothing⟩
  | closing awaiting =>
      exact ⟨pollClosing_moves h hawaiting, handsOver_of_silent (t.pollClosing_silent awaiting)⟩
  | returned result => exact ⟨hstays, hnothing⟩

theorem allocated_moves (h : t.TagsSound) (result : Except AllocLinkError OutputHandle) :
    Moves t (t.allocated result) := by
  simp only [allocated]
  split
  · exact (Shrinks.refl t).stops rfl rfl rfl
  · exact (Shrinks.refl t).stops rfl rfl rfl
  · exact (Shrinks.refl t).stops rfl rfl rfl
  · exact (Shrinks.refl t).stops rfl rfl rfl
  · exact (Shrinks.refl t).moves rfl rfl h

theorem TagsSound.shrinks (h : t.TagsSound) (hshrinks : Shrinks t t')
    (hawaiting : t'.awaiting = t.awaiting) : t'.TagsSound where
  nodup := fun remaining hremaining => h.nodup remaining (hawaiting ▸ hremaining)
  free := fun remaining hremaining tag hmem =>
    hshrinks.free (h.free remaining (hawaiting ▸ hremaining) tag hmem)
  own := fun split delivery remaining htransfer tag htag message' hafter => by
    obtain ⟨message, hbefore, hsender⟩ := hshrinks.unsettled hafter
    rw [h.own split delivery remaining (hawaiting ▸ htransfer) tag htag message hbefore, hsender]

theorem TagsSound.step (h : t.TagsSound) {e : ResumeEvent} (hdraws : t.DrawsFree e)
    (hdistinct : ∀ o ∈ (t.step e).2, o.DistinctTags) :
    (t.step e).1.TagsSound ∧ t.KeepsApart e := by
  have hmoves : Moves t (t.step e).1 ∧ t.HandsOver (t.step e).2 := by
    cases e with
    | poll => exact poll_moves h hdraws hdistinct
    | allocated result =>
        exact ⟨allocated_moves h result, handsOver_of_silent (by simp [ResumeTask.step])⟩
    | relay outputHandle receiverSettleMode action =>
        have hshrinks : Shrinks t { t with
            store := action.apply (.sender t.id outputHandle receiverSettleMode) t.store } :=
          ⟨TaggedSender.relayAction_shrinksTo _ t.store action, rfl⟩
        exact ⟨hshrinks.moves rfl rfl (h.shrinks hshrinks rfl),
          handsOver_of_silent (by simp [ResumeTask.step])⟩
    | closeWriter =>
        exact ⟨(Shrinks.refl t).moves rfl rfl (h.shrinks ⟨.refl _, rfl⟩ rfl),
          handsOver_of_silent (by simp [ResumeTask.step])⟩
    | closeIncoming =>
        exact ⟨(Shrinks.refl t).moves rfl rfl (h.shrinks ⟨.refl _, rfl⟩ rfl),
          handsOver_of_silent (by simp [ResumeTask.step])⟩
  exact ⟨hmoves.1.sound, hmoves.1.kept, hmoves.2⟩

/-- In every run of a resume in which a send anew draws a tag that no unsettled delivery has, no entry
is overwritten and no transfer carries the tag of another delivery's entry. -/
theorem resumed_tags_apart (link : SenderLink) (id : LinkId) (store : LinkStore)
    (isReattaching : Bool) (remoteAttach : Option Attach) (writerClosed : Bool)
    (events : List ResumeEvent)
    (hdraws : Run.Along step DrawsFree
      (start link id store isReattaching remoteAttach writerClosed) events)
    (hdistinct : ∀ o ∈ (Run.run step
      (start link id store isReattaching remoteAttach writerClosed) events).2, o.DistinctTags) :
    Run.Along step KeepsApart
      (start link id store isReattaching remoteAttach writerClosed) events := by
  rw [Run.forall_output_iff_along] at hdistinct
  generalize hstart : start link id store isReattaching remoteAttach writerClosed = t
    at hdraws hdistinct ⊢
  have hsound : t.TagsSound := by
    rw [← hstart]
    exact .of_quiet rfl
  clear hstart
  induction events generalizing t with
  | nil => trivial
  | cons e events ih =>
      obtain ⟨hnext, hkept⟩ := hsound.step hdraws.1 hdistinct.1
      exact ⟨hkept, ih _ hdraws.2 hdistinct.2 hnext⟩

end ResumeTask

end Fe2o3Amqp
