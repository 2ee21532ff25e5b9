import Fe2o3Amqp.Session.DispositionRanges
import Fe2o3Amqp.Util.Awaited

/-!
# The outcomes of deliveries

A sender awaits the outcome of each delivery that is not settled.  Whatever dispositions arrive, with
ranges that overlap, settled or not, the session gives each delivery the state of the first of them
that settles it or is terminal.
-/

namespace Fe2o3Amqp

open Awaited (Board)

/-! ## The unsettled maps of senders -/

namespace LinkStore

variable {store : LinkStore} {link : LinkId}

/-- The channel on which the outcome of a delivery of the link is awaited. -/
def awaited (store : LinkStore) (link : LinkId) (tag : DeliveryTag) : Option OneshotId :=
  ((store.cell link).senderUnsettled.bind (·.get tag)).map UnsettledMessage.sender

theorem awaited_modify (f : LinkCell → LinkCell)
    (h : ∀ tag, ((f (store.cell link)).senderUnsettled.bind (·.get tag)).map UnsettledMessage.sender =
      store.awaited link tag) : (store.modify link f).awaited = store.awaited := by
  funext link' tag
  by_cases hlink : link' = link
  · subst hlink
    simpa [awaited, modify] using h tag
  · simp [awaited, modify, hlink]

theorem awaited_settle (tag : DeliveryTag) (state : Option DeliveryState) (link' : LinkId)
    (tag' : DeliveryTag) :
    (store.settle link tag state).awaited link' tag' =
      if link' = link ∧ tag' = tag then none else store.awaited link' tag' := by
  unfold settle
  cases hmap : (store.cell link).senderUnsettled with
  | none =>
      simp only
      split_ifs with hsame
      · simp [awaited, hsame.1, hmap]
      · rfl
  | some m =>
      simp only
      cases hmsg : m.get tag with
      | none =>
          simp only
          split_ifs with hsame
          · simp [awaited, hsame.1, hsame.2, hmap, hmsg]
          · rfl
      | some msg =>
          by_cases hlink : link' = link
          · subst hlink
            by_cases htag : tag' = tag <;>
              simp [awaited, resolve, modify, hmap, IndexMap.get_swapRemove, htag]
          · simp [awaited, resolve, modify, hlink]

theorem outcomes_settle (tag : DeliveryTag) (state : Option DeliveryState) (sender : OneshotId) :
    (store.settle link tag state).outcomes sender =
      if store.awaited link tag = some sender then some (.ok state) else store.outcomes sender := by
  unfold settle
  cases hmap : (store.cell link).senderUnsettled with
  | none => simp [awaited, hmap]
  | some m =>
      simp only
      cases hmsg : m.get tag with
      | none => simp [awaited, hmap, hmsg]
      | some msg =>
          simp only [awaited, resolve, modify, hmap, Option.bind_some, hmsg, Option.map_some,
            Option.some.injEq, Function.update_apply]
          exact if_congr eq_comm rfl rfl

end LinkStore

/-! ## What a disposition decides -/

/-- The disposition of a receiver that is the last word on a delivery. -/
def Disposition.isFinal (disposition : Disposition) : Bool :=
  disposition.role == .receiver && (disposition.settled || disposition.state.any DeliveryState.isTerminal)

def Disposition.decides (disposition : Disposition) (id : DeliveryNumber) : Bool :=
  disposition.isFinal &&
    (decide (disposition.first ≤ id) && decide (id ≤ disposition.last.getD disposition.first))

namespace LinkRelay

/-- The relay of a sender gives a delivery its outcome if the disposition is final. -/
theorem onIncomingDisposition_sender (store : LinkStore) (link : LinkId)
    (outputHandle : OutputHandle) (mode : ReceiverSettleMode) {disposition : Disposition}
    (hrole : disposition.role = .receiver) (tag : DeliveryTag) :
    let store' := ((LinkRelay.sender link outputHandle mode).onIncomingDisposition store
      disposition.settled disposition.state tag).2
    if disposition.isFinal then store' = store.settle link tag disposition.state
    else store'.awaited = store.awaited ∧ store'.outcomes = store.outcomes := by
  cases hsettled : disposition.settled with
  | true => simp [Disposition.isFinal, hrole, hsettled, onIncomingDisposition]
  | false =>
      have hterminal : disposition.isFinal = disposition.state.any DeliveryState.isTerminal := by
        simp [Disposition.isFinal, hrole, hsettled]
      have hkept : ∀ state : Option DeliveryState,
          (store.modify link fun cell =>
            { cell with
              senderUnsettled := cell.senderUnsettled.map fun m =>
                m.modify tag fun msg => { msg with state } }).awaited = store.awaited := by
        intro state
        apply LinkStore.awaited_modify
        intro tag'
        cases hmap : (store.cell link).senderUnsettled with
        | none => simp [LinkStore.awaited, hmap]
        | some m =>
            by_cases htag : tag' = tag <;>
              simp [LinkStore.awaited, hmap, IndexMap.get_modify, htag, Option.map_map,
                Function.comp_def]
      rw [hterminal]
      cases hstate : disposition.state with
      | none => exact ⟨hkept _, rfl⟩
      | some state =>
          cases hfinal : state.isTerminal with
          | true => simp [onIncomingDisposition, hfinal]
          | false =>
              simp only [onIncomingDisposition, hfinal, Option.any_some, Bool.false_eq_true, if_false]
              exact ⟨hkept _, rfl⟩

theorem onIncomingDisposition_receiver (store : LinkStore) (link : LinkId)
    (outputHandle : OutputHandle) (mode : ReceiverSettleMode) (more settled : Bool)
    (state : Option DeliveryState) (tag : DeliveryTag) :
    let store' := ((LinkRelay.receiver link outputHandle mode more).onIncomingDisposition store settled
      state tag).2
    store'.awaited = store.awaited ∧ store'.outcomes = store.outcomes := by
  refine ⟨?_, rfl⟩
  simp only [onIncomingDisposition]
  apply LinkStore.awaited_modify
  intro tag
  rfl

end LinkRelay

/-! ## The session -/

namespace Session

variable {s : Session} {disposition : Disposition}

/-- The relay of the link of a delivery, with the tag of the delivery. -/
def relayOf (s : Session) (role : Role) (id : DeliveryNumber) :
    Option (LinkRelay OutputHandle × DeliveryTag) :=
  (s.deliveryTagById (role, id)).bind fun entry =>
    (s.linkByInputHandle entry.1).map fun relay => (relay, entry.2)

/-- The channel on which the outcome of a delivery is awaited. -/
def awaiting (s : Session) (id : DeliveryNumber) : Option OneshotId :=
  match s.relayOf .receiver id with
  | some (.sender link _ _, tag) => s.links.awaited link tag
  | _ => none

/-- The outcomes of the deliveries of the session. -/
def board (s : Session) : Board DeliveryNumber OneshotId (Except LinkStateError (Option DeliveryState)) :=
  ⟨s.awaiting, s.links.outcomes⟩

/-- Deliveries that were sent have their own channels, and those that were received belong to links
that receive. -/
structure Outstanding (s : Session) : Prop where
  distinct : s.board.Distinct
  receives : ∀ id link outputHandle mode tag,
    s.relayOf .sender id ≠ some (.sender link outputHandle mode, tag)

theorem relayOf_processDelivery (s : Session) (disposition : Disposition) (id : DeliveryNumber)
    (role : Role) (id' : DeliveryNumber) :
    (processDelivery disposition s id).relayOf role id' =
      if disposition.settled = true ∧ role = disposition.role ∧ id' = id then none
      else s.relayOf role id' := by
  simp only [processDelivery]
  cases hsettled : disposition.settled with
  | true =>
      rw [if_pos rfl]
      simp only [settleDelivery, true_and]
      cases hentry : s.deliveryTagById (disposition.role, id) with
      | none =>
          simp only
          split_ifs with hsame
          · obtain ⟨rfl, rfl⟩ := hsame
            simp [relayOf, hentry]
          · rfl
      | some entry =>
          have hremoved : ∀ s' : Session,
              s'.deliveryTagById = Function.update s.deliveryTagById (disposition.role, id) none →
              s'.linkByInputHandle = s.linkByInputHandle → s'.relayOf role id' =
                if role = disposition.role ∧ id' = id then none else s.relayOf role id' := by
            intro s' hentries hrelays
            simp only [relayOf, hentries, hrelays, Function.update_apply, Prod.mk.injEq]
            split_ifs <;> rfl
          apply hremoved
          all_goals
            obtain ⟨handle, tag⟩ := entry
            simp only
            cases s.linkByInputHandle handle <;> rfl
  | false =>
      simp only [Bool.false_eq_true, if_false, false_and]
      simp only [updateDelivery]
      cases s.deliveryTagById (disposition.role, id) with
      | none => rfl
      | some entry =>
          simp only
          cases s.linkByInputHandle entry.1 <;> rfl

/-- The relay of the delivery takes the disposition. -/
theorem links_processDelivery (s : Session) (disposition : Disposition) (id : DeliveryNumber) :
    (processDelivery disposition s id).links =
      ((s.relayOf disposition.role id).map fun entry =>
        (entry.1.onIncomingDisposition s.links disposition.settled disposition.state entry.2).2).getD
          s.links := by
  simp only [processDelivery, settleDelivery, updateDelivery, relayOf]
  cases s.deliveryTagById (disposition.role, id) with
  | none =>
      split_ifs <;> rfl
  | some entry =>
      obtain ⟨handle, tag⟩ := entry
      simp only [Option.bind_some]
      cases s.linkByInputHandle handle <;> split_ifs <;> rfl

theorem board_congr {s' : Session} (hrelays : ∀ id, s'.awaiting id = s.awaiting id)
    (houtcomes : s'.links.outcomes = s.links.outcomes) : s'.board = s.board := by
  simp only [board, houtcomes, funext hrelays]

/-- What is awaited depends on the relays of the receiver's deliveries. -/
theorem awaiting_congr {s' : Session} {id : DeliveryNumber}
    (hrelay : s'.relayOf .receiver id = s.relayOf .receiver id)
    (hawaited : s'.links.awaited = s.links.awaited) : s'.awaiting id = s.awaiting id := by
  simp only [awaiting, hrelay, hawaited]

theorem awaiting_of_relayOf_none {id : DeliveryNumber} (h : s.relayOf .receiver id = none) :
    s.awaiting id = none := by
  simp only [awaiting, h]

theorem awaiting_of_relayOf_sender {id : DeliveryNumber} {link : LinkId} {outputHandle : OutputHandle}
    {mode : ReceiverSettleMode} {tag : DeliveryTag}
    (h : s.relayOf .receiver id = some (.sender link outputHandle mode, tag)) :
    s.awaiting id = s.links.awaited link tag := by
  simp only [awaiting, h]

/-- The sender of the delivery settles it, and the entry of the delivery may be gone. -/
theorem board_of_settle (h : s.Outstanding) {s' : Session} {id : DeliveryNumber} {link : LinkId}
    {outputHandle : OutputHandle} {mode : ReceiverSettleMode} {tag : DeliveryTag}
    {state : Option DeliveryState}
    (hrelay : s.relayOf .receiver id = some (.sender link outputHandle mode, tag))
    (hlinks : s'.links = s.links.settle link tag state)
    (hrelays : ∀ id', id' ≠ id → s'.relayOf .receiver id' = s.relayOf .receiver id')
    (hself : s'.relayOf .receiver id = none ∨ s'.relayOf .receiver id = s.relayOf .receiver id) :
    s'.board = s.board.decide (fun id' => id' == id) (.ok state) := by
  have hawaiting := awaiting_of_relayOf_sender hrelay
  ext1
  · funext id'
    simp only [Board.awaiting_decide, beq_iff_eq]
    split_ifs with hid
    · subst hid
      rcases hself with hnone | hsame
      · exact awaiting_of_relayOf_none hnone
      · simp only [board, awaiting, hsame, hrelay, hlinks, LinkStore.awaited_settle]
        simp
    · -- the entry of another delivery is not that of this one, or neither is awaited
      simp only [board]
      cases hother : s.relayOf .receiver id' with
      | none =>
          rw [awaiting_of_relayOf_none hother, awaiting_of_relayOf_none ((hrelays id' hid).trans hother)]
      | some entry =>
          obtain ⟨relay, tag'⟩ := entry
          have hother' := (hrelays id' hid).trans hother
          cases relay with
          | receiver => simp only [awaiting, hother, hother']
          | sender link' outputHandle' mode' =>
              have hawaiting' := awaiting_of_relayOf_sender hother
              rw [hawaiting', awaiting_of_relayOf_sender hother', hlinks, LinkStore.awaited_settle]
              split_ifs with hsame
              · obtain ⟨rfl, rfl⟩ := hsame
                cases hc : s.links.awaited link' tag' with
                | none => rfl
                | some c =>
                    exact absurd (h.distinct id' id c (hawaiting'.trans hc) (hawaiting.trans hc)) hid
              · rfl
  · funext c
    have hsettled : s'.board.outcomes c =
        if s.links.awaited link tag = some c then some (.ok state) else s.board.outcomes c := by
      have hoc : s'.board.outcomes = (s.links.settle link tag state).outcomes :=
        congrArg LinkStore.outcomes hlinks
      rw [hoc, LinkStore.outcomes_settle]
      rfl
    rw [hsettled]
    split_ifs with hc
    · have hself : s.board.awaiting id = some c := hawaiting.trans hc
      exact (Board.outcomes_decide_of_covers (fun id' => id' == id) (beq_self_eq_true id) hself).symm
    · rw [Board.outcomes_decide_of_forall_ne]
      intro id' hid hc'
      obtain rfl := beq_iff_eq.mp hid
      exact hc (hawaiting.symm.trans hc')

/-- One iteration of the loop decides the delivery if the disposition is final. -/
theorem board_processDelivery (h : s.Outstanding) (disposition : Disposition) (id : DeliveryNumber) :
    (processDelivery disposition s id).board =
      s.board.decide (fun id' => disposition.isFinal && id' == id) (.ok disposition.state) := by
  have hrelays := relayOf_processDelivery s disposition id
  have hlinks := links_processDelivery s disposition id
  have hundecided : disposition.isFinal = false →
      s.board.decide (fun id' => disposition.isFinal && id' == id) (.ok disposition.state) = s.board := by
    intro hfinal
    apply Board.decide_eq_self
    intro id' hid
    simp [hfinal] at hid
  have hunawaited : s.awaiting id = none →
      s.board.decide (fun id' => disposition.isFinal && id' == id) (.ok disposition.state) = s.board := by
    intro hnone
    apply Board.decide_eq_self
    intro id' hid
    obtain rfl : id' = id := by simpa using (Bool.and_eq_true_iff.mp hid).2
    exact hnone
  -- a session whose links are as before loses at most the entry of the delivery
  have hsame : (processDelivery disposition s id).links.awaited = s.links.awaited →
      (processDelivery disposition s id).links.outcomes = s.links.outcomes →
      (disposition.role = .receiver → disposition.settled = true → s.awaiting id = none) →
      (processDelivery disposition s id).board = s.board := by
    intro hawaited houtcomes hnone
    refine board_congr (fun id' => ?_) houtcomes
    by_cases hremoved : disposition.settled = true ∧ Role.receiver = disposition.role ∧ id' = id
    · obtain ⟨hsettled, hrole, rfl⟩ := hremoved
      rw [hnone hrole.symm hsettled]
      refine awaiting_of_relayOf_none ?_
      rw [hrelays, if_pos ⟨hsettled, hrole, rfl⟩]
    · refine awaiting_congr ?_ hawaited
      rw [hrelays, if_neg hremoved]
  -- the disposition is not for a delivery that is awaited
  have hidle : (processDelivery disposition s id).links.awaited = s.links.awaited →
      (processDelivery disposition s id).links.outcomes = s.links.outcomes →
      (disposition.role = .receiver → s.awaiting id = none) →
      (processDelivery disposition s id).board =
        s.board.decide (fun id' => disposition.isFinal && id' == id) (.ok disposition.state) := by
    intro hawaited houtcomes hnone
    cases hrole : disposition.role with
    | sender =>
        have hfinal : disposition.isFinal = false := by simp [Disposition.isFinal, hrole]
        rw [hundecided hfinal]
        exact hsame hawaited houtcomes (by simp [hrole])
    | receiver =>
        rw [hunawaited (hnone hrole)]
        exact hsame hawaited houtcomes fun _ _ => hnone hrole
  cases hrelay : s.relayOf disposition.role id with
  | none =>
      rw [hrelay] at hlinks
      refine hidle (congrArg _ hlinks) (congrArg _ hlinks) fun hrole => ?_
      rw [hrole] at hrelay
      exact awaiting_of_relayOf_none hrelay
  | some entry =>
      obtain ⟨relay, tag⟩ := entry
      rw [hrelay] at hlinks
      simp only [Option.map_some, Option.getD_some] at hlinks
      cases relay with
      | receiver link outputHandle mode more =>
          obtain ⟨hawaited, houtcomes⟩ := LinkRelay.onIncomingDisposition_receiver s.links link
            outputHandle mode more disposition.settled disposition.state tag
          rw [← hlinks] at hawaited houtcomes
          refine hidle hawaited houtcomes fun hrole => ?_
          rw [hrole] at hrelay
          simp only [awaiting, hrelay]
      | sender link outputHandle mode =>
          cases hrole : disposition.role with
          | sender =>
              rw [hrole] at hrelay
              exact absurd hrelay (h.receives id link outputHandle mode tag)
          | receiver =>
              have hsender := LinkRelay.onIncomingDisposition_sender s.links link outputHandle mode
                hrole tag
              rw [← hlinks] at hsender
              rw [hrole] at hrelay
              cases hfinal : disposition.isFinal with
              | false =>
                  simp only [hfinal, Bool.false_eq_true, if_false] at hsender
                  rw [hfinal] at hundecided
                  rw [hundecided rfl]
                  refine hsame hsender.1 hsender.2 fun _ hsettled => ?_
                  simp [Disposition.isFinal, hrole, hsettled] at hfinal
              | true =>
                  simp only [hfinal, if_true] at hsender
                  simp only [Bool.true_and]
                  refine board_of_settle h hrelay hsender (fun id' hid => ?_) ?_
                  · rw [hrelays, if_neg fun hremoved => hid hremoved.2.2]
                  · rw [hrelays]
                    split_ifs
                    · exact .inl rfl
                    · exact .inr rfl

theorem outstanding_processDelivery (h : s.Outstanding) (disposition : Disposition)
    (id : DeliveryNumber) : (processDelivery disposition s id).Outstanding := by
  constructor
  · rw [board_processDelivery h]
    exact h.distinct.decide
  · intro id' link outputHandle mode tag hrelay
    rw [relayOf_processDelivery] at hrelay
    split_ifs at hrelay
    exact h.receives id' link outputHandle mode tag hrelay

/-- The loop decides the deliveries of the list. -/
theorem board_foldl_processDelivery (h : s.Outstanding) (disposition : Disposition)
    (ids : List DeliveryNumber) :
    (ids.foldl (processDelivery disposition) s).Outstanding ∧
      (ids.foldl (processDelivery disposition) s).board =
        s.board.decide (fun id => disposition.isFinal && ids.contains id) (.ok disposition.state) := by
  induction ids generalizing s with
  | nil =>
      refine ⟨h, (Board.decide_eq_self fun id hid => ?_).symm⟩
      simp at hid
  | cons id ids ih =>
      obtain ⟨hout, hboard⟩ := ih (outstanding_processDelivery h disposition id)
      refine ⟨hout, ?_⟩
      rw [List.foldl_cons, hboard, board_processDelivery h, Board.decide_decide]
      congr 1
      funext id'
      rw [List.contains_cons, Bool.and_or_distrib_left]

/-- A disposition decides the deliveries of its range at once. -/
theorem board_onIncomingDisposition (h : s.Outstanding) (disposition : Disposition) :
    (s.onIncomingDisposition disposition).2.Outstanding ∧
      (s.onIncomingDisposition disposition).2.board =
        s.board.decide disposition.decides (.ok disposition.state) := by
  rw [onIncomingDisposition_snd, processedIds, foldl_processed]
  obtain ⟨hout, hboard⟩ := board_foldl_processDelivery h disposition
    (deliveryIds disposition.first (disposition.last.getD disposition.first))
  refine ⟨hout, hboard.trans ?_⟩
  congr 1
  funext id
  rw [Bool.eq_iff_iff]
  simp only [Disposition.decides, Bool.and_eq_true, List.contains_iff_mem, mem_deliveryIds,
    decide_eq_true_eq, UInt32.le_iff_toNat_le]

/-- The session after the dispositions of the peer. -/
def disposed (s : Session) (dispositions : List Disposition) : Session :=
  dispositions.foldl (fun s disposition => (s.onIncomingDisposition disposition).2) s

/-- What the sender of a delivery is told. -/
def decided (disposition : Disposition) : Except LinkStateError (Option DeliveryState) :=
  .ok disposition.state

theorem board_disposed (h : s.Outstanding) (dispositions : List Disposition) :
    (s.disposed dispositions).board =
      s.board.decideAll Disposition.decides decided dispositions := by
  induction dispositions generalizing s with
  | nil => rfl
  | cons disposition dispositions ih =>
      obtain ⟨hout, hboard⟩ := board_onIncomingDisposition h disposition
      exact (ih hout).trans (by rw [hboard]; rfl)

section Run

variable (h : s.Outstanding) {dispositions : List Disposition} {id : DeliveryNumber} {c : OneshotId}

include h

theorem disposed_decided (hc : s.awaiting id = some c)
    (hfirst : dispositions.find? (·.decides id) = some disposition) :
    (s.disposed dispositions).links.outcomes c = some (.ok disposition.state) ∧
      (s.disposed dispositions).awaiting id = none := by
  have hlast := Board.decideAll_first decided h.distinct hc hfirst
  rwa [← board_disposed h] at hlast

theorem disposed_undecided (hc : s.awaiting id = some c)
    (hnone : dispositions.find? (·.decides id) = none) :
    (s.disposed dispositions).links.outcomes c = s.links.outcomes c ∧
      (s.disposed dispositions).awaiting id = some c := by
  have hlast := Board.decideAll_none decided h.distinct hc hnone
  rwa [← board_disposed h] at hlast

theorem disposed_unawaited (hc : ∀ id, s.awaiting id ≠ some c) (dispositions : List Disposition) :
    (s.disposed dispositions).links.outcomes c = s.links.outcomes c := by
  have hlast : (s.board.decideAll Disposition.decides decided dispositions).outcomes c = _ :=
    Board.decideAll_unawaited decided hc dispositions
  rwa [← board_disposed h] at hlast

end Run

/-- The outcome of each delivery is the state of the first disposition that decides it; it is awaited
until there is one, and a channel on which nothing is awaited is left alone. -/
theorem first_decision_is_outcome (h : s.Outstanding) (dispositions : List Disposition) :
    (∀ id c, s.awaiting id = some c →
      (∀ disposition, dispositions.find? (·.decides id) = some disposition →
        (s.disposed dispositions).links.outcomes c = some (.ok disposition.state) ∧
          (s.disposed dispositions).awaiting id = none) ∧
      (dispositions.find? (·.decides id) = none →
        (s.disposed dispositions).links.outcomes c = s.links.outcomes c ∧
          (s.disposed dispositions).awaiting id = some c)) ∧
    ∀ c, (∀ id, s.awaiting id ≠ some c) →
      (s.disposed dispositions).links.outcomes c = s.links.outcomes c :=
  ⟨fun _ _ hc => ⟨fun _ hfirst => disposed_decided h hc hfirst, disposed_undecided h hc⟩,
    fun _ hc => disposed_unawaited h hc dispositions⟩

section Witness

/-- The outcomes of the deliveries 10 and 11 are awaited on the channels 5 and 6. -/
def twoAwaited : Session :=
  let m : IndexMap DeliveryTag UnsettledMessage :=
    (IndexMap.empty.insert [1] ⟨[], none, 0, 5⟩).insert [2] ⟨[], none, 0, 6⟩
  let cell : LinkCell := ⟨⟨0, 0, 0, 0, false, none⟩, some m, none, [], false⟩
  { SessionBuilder.intoSession {} 0 .mapped ⟨fun _ => cell, fun _ => none⟩ with
    linkByInputHandle := fun _ => some (.sender 0 ⟨0⟩ .first)
    deliveryTagById := fun key =>
      if key = (.receiver, 10) then some (⟨0⟩, [1])
      else if key = (.receiver, 11) then some (⟨0⟩, [2])
      else none }

private theorem awaiting_twoAwaited (id : DeliveryNumber) :
    twoAwaited.awaiting id = if id = 10 then some 5 else if id = 11 then some 6 else none := by
  simp only [awaiting, relayOf, twoAwaited, Prod.mk.injEq, true_and]
  split_ifs <;> rfl

theorem twoAwaited_outstanding : twoAwaited.Outstanding where
  distinct id id' c hid hid' := by
    simp only [board, awaiting_twoAwaited] at hid hid'
    split_ifs at hid hid' with h h' h' h h' h' <;> cases hid
    · exact h.trans h'.symm
    · cases hid'
    · cases hid'
    · exact h.trans h'.symm
  receives id link outputHandle mode tag h := by
    simp [relayOf, twoAwaited] at h

/-- The first disposition is not final, the second one covers both deliveries, the third one comes
too late. -/
theorem second_decision_is_outcome :
    (twoAwaited.disposed [⟨.receiver, 10, none, false, none, false⟩,
        ⟨.receiver, 10, some 11, false, some .released, false⟩,
        ⟨.receiver, 11, none, true, some .accepted, false⟩]).links.outcomes 6 =
      some (.ok (some .released)) :=
  (((first_decision_is_outcome twoAwaited_outstanding _).1 11 6 rfl).1
    ⟨.receiver, 10, some 11, false, some .released, false⟩ rfl).1

end Witness

end Session

end Fe2o3Amqp
