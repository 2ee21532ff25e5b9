import Fe2o3Amqp.Session.Silence

/-!
# The answer to a receiver that settles second

A receiver in mode `second` sends an unsettled disposition and waits for the settled one of the
sender, which the session emits by itself.  That answer settles the deliveries for the peer.  The
session itself keeps them: a delivery-id is dropped in the other branch of
`on_incoming_disposition` only, so that no answer is ever final.
-/

namespace Fe2o3Amqp

/-- The delivery-ids from `first` to `last`, as serial numbers. -/
def Disposition.Covers (disposition : Disposition) (id : DeliveryNumber) : Prop :=
  id - disposition.first ≤ disposition.last.getD disposition.first - disposition.first

theorem Disposition.covers_first (disposition : Disposition) :
    disposition.Covers disposition.first := by
  simp only [Covers, UInt32.sub_self]
  exact UInt32.zero_le

namespace Session

/-- Nothing is left in `s'` of the sent delivery that `s` knows under the delivery-id. -/
structure Forgets (s s' : Session) (id : DeliveryNumber) : Prop where
  tag : s'.deliveryTagById (.receiver, id) = none
  unsettled : ∀ handle deliveryTag relay unsettled,
    s.deliveryTagById (.receiver, id) = some (handle, deliveryTag) →
    s.linkByInputHandle handle = some relay →
    (s'.links.cell relay.link).senderUnsettled = some unsettled →
    unsettled.get deliveryTag = none

/-- Every settled disposition of the sender that answers one of the receiver is final. -/
def AnswersFinally (s : Session) : SessionAction → Prop
  | .incoming pending frame =>
      match frame.body with
      | .disposition disposition =>
          disposition.role = .receiver →
          ∀ channel echo, ⟨channel, .disposition echo⟩ ∈ (s.act (.incoming pending frame)).2 →
            echo.role = .sender → echo.settled = true →
            ∀ id, echo.Covers id → s.Forgets (s.act (.incoming pending frame)).1 id
      | _ => True
  | _ => True

/-- A disposition of the receiver is not answered: it is settled, or the deliveries that are due for
an answer have no gap between them. -/
def NotAnswered (s : Session) : SessionAction → Prop
  | .incoming _ frame =>
      match frame.body with
      | .disposition disposition =>
          disposition.role = .receiver →
            disposition.settled = true ∨ consecutiveChunkIndices (s.echoIds disposition) = []
      | _ => True
  | _ => True

theorem onOutgoingDisposition_fst (s : Session) (disposition : Disposition) :
    (s.onOutgoingDisposition disposition).1 =
      ⟨s.outgoingChannel, .disposition disposition⟩ := by
  simp only [onOutgoingDisposition]
  split
  all_goals split_ifs <;> rfl

theorem mem_sendDispositions {s : Session} {dispositions : List Disposition}
    {disposition : Disposition} (h : disposition ∈ dispositions) :
    ⟨s.outgoingChannel, .disposition disposition⟩ ∈ (s.sendDispositions dispositions).1 := by
  induction dispositions generalizing s with
  | nil => cases h
  | cons first dispositions ih =>
      obtain ⟨window, hframe⟩ := s.onOutgoingDisposition_frame first
      simp only [sendDispositions]
      rcases List.mem_cons.mp h with rfl | h
      · exact List.mem_cons.mpr (.inl (s.onOutgoingDisposition_fst _).symm)
      · refine List.mem_cons_of_mem _ ?_
        have hrest := ih (s := (s.onOutgoingDisposition first).2) h
        rw [hframe] at hrest ⊢
        exact hrest

theorem foldl_updateDelivery_deliveryTagById (disposition : Disposition) (ids : List DeliveryNumber)
    (acc : List DeliveryNumber × Session) :
    (ids.foldl (updateDelivery disposition) acc).2.deliveryTagById = acc.2.deliveryTagById := by
  induction ids generalizing acc with
  | nil => rfl
  | cons id ids ih =>
      rw [List.foldl_cons, ih]
      obtain ⟨collected, s⟩ := acc
      simp only [updateDelivery]
      split
      · rfl
      · split <;> rfl

/-- The first answer starts with an id that is due for it. -/
theorem head_echoDispositions (state : Option DeliveryState) (ids : List DeliveryNumber)
    (h : consecutiveChunkIndices ids ≠ []) :
    ∃ echo ∈ echoDispositions state ids 0 (consecutiveChunkIndices ids),
      echo.role = .sender ∧ echo.settled = true ∧ echo.first ∈ ids := by
  obtain ⟨index, indices, hindices⟩ := List.exists_cons_of_ne_nil h
  have hmem : index ∈ consecutiveChunkIndices ids := by simp [hindices]
  have hpos : 0 < index := by
    simp only [consecutiveChunkIndices, List.mem_filterMap] at hmem
    obtain ⟨⟨⟨left, right⟩, i⟩, -, hindex⟩ := hmem
    simp only at hindex
    split at hindex
    · cases hindex
    · cases hindex
      omega
  obtain ⟨id, ids, rfl⟩ : ∃ id rest, ids = id :: rest := by
    cases ids with
    | nil => simp [consecutiveChunkIndices] at h
    | cons id ids => exact ⟨id, ids, rfl⟩
  obtain ⟨index, rfl⟩ : ∃ n, index = n + 1 := ⟨index - 1, by omega⟩
  rw [hindices]
  exact ⟨_, List.mem_cons_self, rfl, rfl, by simp⟩

/-- The answers to a disposition of the receiver that is not settled, and the entries that it leaves
as they are. -/
theorem onIncomingDisposition_unsettled (s : Session) (disposition : Disposition)
    (h : disposition.settled = false) :
    (s.onIncomingDisposition disposition).1 = some (echoDispositions disposition.state
        (s.echoIds disposition) 0 (consecutiveChunkIndices (s.echoIds disposition))) ∧
      (s.onIncomingDisposition disposition).2.deliveryTagById = s.deliveryTagById := by
  have hids := foldl_updateDelivery_fst disposition h
    (deliveryIds disposition.first (disposition.last.getD disposition.first)) [] s
  have htags := foldl_updateDelivery_deliveryTagById disposition
    (deliveryIds disposition.first (disposition.last.getD disposition.first)) ([], s)
  rw [List.nil_append] at hids
  simp only [onIncomingDisposition, h, Bool.false_eq_true, if_false]
  refine ⟨?_, htags⟩
  rw [hids]
  rfl

theorem answersFinally_iff (s : Session) (action : SessionAction) :
    s.AnswersFinally action ↔ s.NotAnswered action := by
  cases action with
  | incoming pending frame =>
      cases hbody : frame.body with
      | disposition disposition =>
          simp only [AnswersFinally, NotAnswered, hbody]
          refine imp_congr_right fun hrole => ?_
          constructor
          · intro hfinal
            by_contra hanswered
            obtain ⟨hsettled, hgap⟩ := not_or.mp hanswered
            have hunsettled : disposition.settled = false := by simpa using hsettled
            obtain ⟨echo, hmem, hsender, hecho, hfirst⟩ :=
              head_echoDispositions disposition.state _ hgap
            obtain ⟨hanswers, htags⟩ := s.onIncomingDisposition_unsettled disposition hunsettled
            have hframe : ⟨(s.onIncomingDisposition disposition).2.outgoingChannel,
                .disposition echo⟩ ∈ (s.act (.incoming pending frame)).2 := by
              simp only [act, onIncoming, hbody, dispatched, hanswers]
              exact mem_sendDispositions hmem
            have hforgets := hfinal _ _ hframe hsender hecho _ echo.covers_first
            -- the id was due for the answer, and its entry is still there
            have htag := hforgets.tag
            obtain ⟨window, hsend⟩ := (s.onIncomingDisposition disposition).2.sendDispositions_frame
              ((s.onIncomingDisposition disposition).1.getD [])
            simp only [act, onIncoming, hbody, dispatched] at htag
            rw [hsend] at htag
            simp only [htags] at htag
            have hdue := (List.mem_filter.mp hfirst).2
            simp [hrole, htag] at hdue
          · intro hnone channel echo hmem
            have hempty : (s.onIncomingDisposition disposition).1.getD [] = [] :=
              @onIncomingDisposition_unanswered s frame.channel disposition hnone
            simp only [act, onIncoming, hbody, dispatched, hempty] at hmem
            cases hmem
      | _ => simp [AnswersFinally, NotAnswered, hbody]
  | _ => exact Iff.rfl

/-- In every run, the answers to the receivers are final exactly when there are none. -/
theorem answers_final_iff (s : Session) (actions : List SessionAction) :
    Run.Along act AnswersFinally s actions ↔ Run.Along act NotAnswered s actions :=
  Run.along_congr answersFinally_iff

section SecondMode

private def attachSecond : List SessionAction :=
  [.allocateLink "a" (some (.sender 0 () .first)),
    .incoming [] ⟨0, .attach
      { name := "a", handle := 7, role := .receiver, sndSettleMode := .mixed, rcvSettleMode := .second
        source := none, target := none, unsettled := none, incompleteUnsettled := false
        initialDeliveryCount := none, maxMessageSize := none, offeredCapabilities := none
        desiredCapabilities := none, properties := none }⟩,
    .incoming [] ⟨0, .flow
      { nextIncomingId := some 0, incomingWindow := 10, nextOutgoingId := 0, outgoingWindow := 10
        handle := none, deliveryCount := none, linkCredit := none, available := none
        drain := false, echo := false, properties := none }⟩]

private def deliver (tag : UInt8) (settled : Bool) : SessionAction :=
  .linkFrame (.firstTransfer ⟨⟨7⟩,
    { handle := 0, deliveryId := none, deliveryTag := some [tag], messageFormat := some 0
      settled := some settled, more := false, rcvSettleMode := none, state := none, resume := false
      aborted := false, batchable := false }, [1]⟩) 0

private def acceptUpTo (last : DeliveryNumber) : SessionAction :=
  .incoming [] ⟨0, .disposition
    { role := .receiver, first := 0, last := some last, settled := false, state := some .accepted
      batchable := false }⟩

/-- The delivery between two that are due was sent settled: the first of them is answered and keeps
its entry. -/
theorem answer_leaves_delivery :
    ¬Run.Along act AnswersFinally (SessionBuilder.intoSession {} 0 .mapped LinkStore.empty)
      (attachSecond ++ [deliver 0 false, deliver 1 true, deliver 2 false, acceptUpTo 2]) := by
  intro hfinal
  obtain ⟨-, -, -, -, -, -, hlast, -⟩ := (Run.along_congr answersFinally_iff).mp hfinal
  rcases hlast rfl with hsettled | hnone
  · cases hsettled
  · exact absurd hnone (by decide)

end SecondMode

end Session

end Fe2o3Amqp
