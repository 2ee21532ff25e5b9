import Fe2o3Amqp.Session.Actions
import Fe2o3Amqp.Transaction.Isolation

/-!
# The incoming window of a transactional session

A transfer is counted by the session to which it is handed.  One that is posted under a transaction
is handed over when the transaction commits, or never, so that the session has counted every transfer
at its arrival exactly as long as none of them was posted.
-/

namespace Fe2o3Amqp

/-- Whether the event is the arrival of a transfer. -/
def TxnEvent.isTransfer : TxnEvent → Bool
  | .incoming (.post _ _) => true
  | _ => false

/-- Whether the event is the arrival of a transfer under a transaction. -/
def TxnEvent.isPost : TxnEvent → Bool
  | .incoming (.post transfer _) => (transactionOf transfer.state).isSome
  | _ => false

/-- The session advertises, in every Flow it would send now, that it has received `received`
transfers after the one with the id `first`. -/
def Session.Advertises (s : Session) (first : TransferNumber) (received : Nat) : Prop :=
  s.nextIncomingId = first + UInt32.ofNat received ∧
    ∀ frame, (frame = s.onOutgoingSessionFlow ∨ ∃ flow, frame = s.onOutgoingFlow flow) →
      ∃ flow, frame.body = .flow flow ∧
        flow.nextIncomingId = some (first + UInt32.ofNat received)

theorem Session.advertises_iff {s : Session} {first : TransferNumber} {received : Nat} :
    s.Advertises first received ↔ s.nextIncomingId = first + UInt32.ofNat received := by
  constructor
  · intro h
    exact h.1
  · intro h
    refine ⟨h, ?_⟩
    rintro frame (rfl | ⟨flow, rfl⟩)
    · exact ⟨_, rfl, congrArg some h⟩
    · exact ⟨_, rfl, congrArg some h⟩

namespace TxnSession

variable {s : TxnSession Session}

/-- After the events the session has counted every transfer that arrived. -/
def CountsArrivals (session : Session) (events : List TxnEvent) : Prop :=
  (Run.run act (fresh session) events).1.session.Advertises session.nextIncomingId
    (events.countP TxnEvent.isTransfer)

/-- No transfer waits in a transaction. -/
def NothingPosted (s : TxnSession Session) : Prop :=
  ∀ txnId txn, s.txns.get txnId = some txn → ∀ transfer payload,
    TxnWorkFrame.post transfer payload ∉ txn.frames

theorem applyFrame_retire (disposition : Disposition) :
    (s.applyFrame (.retire disposition)).2.session.nextIncomingId = s.session.nextIncomingId ∧
      (s.applyFrame (.retire disposition)).2.txns = s.txns := by
  obtain ⟨links, tags, hframe⟩ := s.session.onIncomingDisposition_frame disposition.discharged
  simp [applyFrame, EndpointSession.onIncomingDisposition, hframe]

theorem applyFrames_retirements {frames : List TxnWorkFrame}
    (h : ∀ transfer payload, TxnWorkFrame.post transfer payload ∉ frames) :
    (s.applyFrames frames).2.session.nextIncomingId = s.session.nextIncomingId ∧
      (s.applyFrames frames).2.txns = s.txns := by
  induction frames generalizing s with
  | nil => exact ⟨rfl, rfl⟩
  | cons frame frames ih =>
      cases frame with
      | post transfer payload => exact absurd List.mem_cons_self (h transfer payload)
      | retire disposition =>
          obtain ⟨hcount, htxns⟩ := s.applyFrame_retire disposition
          simp only [applyFrames]
          cases hframe : s.applyFrame (.retire disposition) with
          | mk result s' =>
              rw [hframe] at hcount htxns
              cases result with
              | error error => exact ⟨hcount, htxns⟩
              | ok _ =>
                  obtain ⟨hrest, htxns'⟩ := ih (s := s') fun transfer payload hmem =>
                    h transfer payload (List.mem_cons_of_mem _ hmem)
                  exact ⟨hrest.trans hcount, htxns'.trans htxns⟩

theorem NothingPosted.swapRemove (h : s.NothingPosted) (id txnId : TransactionId)
    (txn : ResourceTransaction) (hget : (s.txns.swapRemove id).get txnId = some txn) :
    ∀ transfer payload, TxnWorkFrame.post transfer payload ∉ txn.frames := by
  rw [IndexMap.get_swapRemove] at hget
  split_ifs at hget
  exact h txnId txn hget

theorem NothingPosted.declare (h : s.NothingPosted) (drawn : List TransactionId) :
    (s.allocateTransactionId drawn).2.session = s.session ∧
      (s.allocateTransactionId drawn).2.NothingPosted := by
  rw [allocateTransactionId_eq]
  cases drawn.find? fun id => (s.txns.get id).isNone with
  | none => exact ⟨rfl, h⟩
  | some drawnId =>
      refine ⟨rfl, fun txnId txn hget => ?_⟩
      simp only [IndexMap.get_insert] at hget
      split_ifs at hget
      · cases hget
        simp [ResourceTransaction.new]
      · exact h txnId txn hget

theorem NothingPosted.retire (h : s.NothingPosted) (disposition : Disposition) :
    (s.onIncomingDisposition disposition).2.session.nextIncomingId = s.session.nextIncomingId ∧
      (s.onIncomingDisposition disposition).2.NothingPosted := by
  simp only [onIncomingDisposition]
  cases transactionOf disposition.state with
  | none =>
      obtain ⟨links, tags, hframe⟩ := s.session.onIncomingDisposition_frame disposition
      simp only [EndpointSession.onIncomingDisposition, hframe]
      exact ⟨trivial, h⟩
  | some txnId =>
      dsimp only
      cases hget : s.txns.get txnId with
      | none => exact ⟨rfl, h⟩
      | some txn =>
          refine ⟨rfl, fun txnId' txn' hget' => ?_⟩
          simp only [IndexMap.get_modify] at hget'
          split_ifs at hget' with hsame
          · obtain ⟨txn'', hget'', rfl⟩ := Option.map_eq_some_iff.mp hget'
            intro transfer payload hmem
            simp only [ResourceTransaction.push, List.mem_append, List.mem_singleton] at hmem
            rcases hmem with hmem | hmem
            · exact h txnId txn'' hget'' transfer payload hmem
            · cases hmem
          · exact h txnId' txn' hget'

theorem NothingPosted.commit (h : s.NothingPosted) (txnId : TransactionId) :
    (s.commitTransaction txnId).2.session.nextIncomingId = s.session.nextIncomingId ∧
      (s.commitTransaction txnId).2.NothingPosted := by
  cases hget : s.txns.get txnId with
  | none =>
      simp only [commitTransaction, hget]
      exact ⟨trivial, h⟩
  | some txn =>
      rw [commitTransaction_live hget]
      obtain ⟨hcount, htxns⟩ := applyFrames_retirements
        (s := { s with txns := s.txns.swapRemove txnId }) (h txnId txn hget)
      refine ⟨hcount, fun txnId' txn' hget' => ?_⟩
      simp only [Prod.map, id, htxns] at hget'
      exact h.swapRemove txnId txnId' txn' hget'

theorem NothingPosted.rollback (h : s.NothingPosted) (txnId : TransactionId) :
    (s.rollbackTransaction txnId).2.session = s.session ∧
      (s.rollbackTransaction txnId).2.NothingPosted := by
  simp only [rollbackTransaction]
  cases s.txns.get txnId with
  | none => exact ⟨rfl, h⟩
  | some txn => exact ⟨rfl, h.swapRemove txnId⟩

/-- An event that posts nothing counts the transfer that it brings, if it brings one. -/
theorem NothingPosted.act (h : s.NothingPosted) {e : TxnEvent} (hpost : e.isPost = false) :
    (s.act e).1.session.nextIncomingId =
        s.session.nextIncomingId + UInt32.ofNat ([e].countP TxnEvent.isTransfer) ∧
      (s.act e).1.NothingPosted := by
  cases e with
  | declare drawn =>
      obtain ⟨hsession, hnext⟩ := h.declare drawn
      simpa [TxnSession.act, TxnEvent.isTransfer, hsession] using hnext
  | incoming frame =>
      cases frame with
      | post transfer payload =>
          have hordinary : transactionOf transfer.state = none := by
            simpa [TxnEvent.isPost] using hpost
          obtain ⟨links, relays, tags, hframe⟩ := s.session.onIncomingTransfer_frame transfer payload
          have hcount : ((s.onIncomingTransfer transfer payload).2.session.nextIncomingId =
              s.session.nextIncomingId + 1) ∧
              (s.onIncomingTransfer transfer payload).2.NothingPosted := by
            simp only [onIncomingTransfer, hordinary, EndpointSession.onIncomingTransfer, hframe]
            exact ⟨trivial, h⟩
          simp only [TxnSession.act]
          cases hout : s.onIncomingTransfer transfer payload with
          | mk result s' =>
              rw [hout] at hcount
              cases result <;> simpa [TxnEvent.isTransfer] using hcount
      | retire disposition =>
          have hretire := h.retire disposition
          simp only [TxnSession.act]
          cases hout : s.onIncomingDisposition disposition with
          | mk result s' =>
              rw [hout] at hretire
              cases result <;> simpa [TxnEvent.isTransfer] using hretire
  | commit txnId => simpa [TxnSession.act, TxnEvent.isTransfer] using h.commit txnId
  | rollback txnId | abort txnId =>
      obtain ⟨hsession, hnext⟩ := h.rollback txnId
      simpa [TxnSession.act, TxnEvent.isTransfer, hsession] using hnext

theorem NothingPosted.run (h : s.NothingPosted) {events : List TxnEvent}
    (hpost : ∀ e ∈ events, e.isPost = false) :
    (Run.run TxnSession.act s events).1.session.nextIncomingId =
      s.session.nextIncomingId + UInt32.ofNat (events.countP TxnEvent.isTransfer) := by
  induction events generalizing s with
  | nil => simp
  | cons e events ih =>
      obtain ⟨hcount, hnext⟩ := h.act (hpost e List.mem_cons_self)
      have hrest := ih hnext fun e' hmem => hpost e' (List.mem_cons_of_mem e hmem)
      have hsplit : (e :: events).countP TxnEvent.isTransfer =
          [e].countP TxnEvent.isTransfer + events.countP TxnEvent.isTransfer := by
        rw [← List.countP_append, List.singleton_append]
      simp only [Run.run]
      rw [hrest, hcount, hsplit, UInt32.ofNat_add, UInt32.add_assoc]

/-- A transfer under a transaction passes the session by. -/
theorem act_post {e : TxnEvent} (hpost : e.isPost = true) : (s.act e).1.session = s.session := by
  cases e with
  | incoming frame =>
      cases frame with
      | post transfer payload =>
          obtain ⟨txnId, hposted⟩ : ∃ txnId, transactionOf transfer.state = some txnId :=
            Option.isSome_iff_exists.mp hpost
          simp only [act, onIncomingTransfer, hposted]
          cases s.txns.get txnId <;> rfl
      | retire disposition => cases hpost
  | _ => cases hpost

theorem nothingPosted_fresh (session : Session) : (fresh session).NothingPosted := by
  intro txnId txn hget
  cases hget

/-- In every state of a run the session has counted all transfers that arrived, each at its arrival,
exactly when none of them was posted under a transaction. -/
theorem arrivals_counted_iff (session : Session) (events : List TxnEvent) :
    (∀ earlier, earlier <+: events → CountsArrivals session earlier) ↔
      ∀ e ∈ events, e.isPost = false := by
  constructor
  · intro h
    induction events using List.reverseRecOn with
    | nil => simp
    | append_singleton events e ih =>
        have hearlier := ih fun earlier hpre => h earlier (hpre.trans (List.prefix_append events [e]))
        intro e' hmem
        rcases List.mem_append.mp hmem with hmem | hmem
        · exact hearlier e' hmem
        · rw [List.mem_singleton.mp hmem, ← Bool.not_eq_true]
          intro hpost
          -- the post is one more arrival, and the session is as it was
          have hbefore := (nothingPosted_fresh session).run hearlier
          have hafter := Session.advertises_iff.mp (h _ List.prefix_rfl)
          have htransfer : e.isTransfer = true := by
            cases e with
            | incoming frame => cases frame <;> first | rfl | cases hpost
            | _ => cases hpost
          rw [Run.run_snoc] at hafter
          simp only [act_post hpost] at hafter
          rw [hbefore, List.countP_append, List.countP_singleton, if_pos htransfer,
            UInt32.ofNat_add, ← UInt32.add_assoc] at hafter
          have hzero := UInt32.left_eq_add.mp hafter
          exact absurd hzero (by decide)
  · intro h earlier hpre
    refine Session.advertises_iff.mpr ((nothingPosted_fresh session).run fun e hmem => ?_)
    exact h e (hpre.subset hmem)

section RolledBack

private def mapped : Session :=
  ((SessionBuilder.intoSession {} 0 .mapped LinkStore.empty).allocateIncomingLink "in"
    (.receiver 0 () .first false) ⟨0⟩).2

private def postedTransfer : Transfer :=
  { handle := 0, deliveryId := some 0, deliveryTag := some [0], messageFormat := some 0
    settled := some true, more := false, rcvSettleMode := none
    state := some (.transactionalState ⟨[1], none⟩), resume := false, aborted := false
    batchable := false }

/-- A transfer of a transaction that is rolled back is never counted: the session goes on advertising
the window that it had before. -/
theorem rolled_back_uncounted :
    ¬CountsArrivals mapped [.declare [[1]], .incoming (.post postedTransfer [10]), .rollback [1]] := by
  intro h
  exact absurd (Session.advertises_iff.mp h) (by decide)

end RolledBack

end TxnSession

end Fe2o3Amqp
