import Fe2o3Amqp.Session.OutgoingWindow
import Fe2o3Amqp.Transaction.Session
import Fe2o3Amqp.Util.Run

/-!
# Isolation of transactions

What a transactional session hands to the session it wraps, over every history of declares,
incoming transfers and dispositions, commits, rollbacks and aborts.  A history determines which
transactions are open and which frames wait in them; a wrapped session that records its calls shows
that the transactional session keeps exactly to that.
-/

namespace Fe2o3Amqp

namespace TxnWorkFrame

/-- The transaction that the frame names. -/
def transaction : TxnWorkFrame → Option TransactionId
  | post transfer _ => transactionOf transfer.state
  | retire disposition => transactionOf disposition.state

/-- The frame as a commit hands it to the session: the carried outcome is its state, and a
retirement settles. -/
def discharged : TxnWorkFrame → TxnWorkFrame
  | post transfer payload => post transfer.discharged payload
  | retire disposition => retire disposition.discharged

/-- The frame as the session sees it, in a transaction or not. -/
def carried (frame : TxnWorkFrame) : TxnWorkFrame :=
  if frame.transaction.isSome then frame.discharged else frame

end TxnWorkFrame

inductive TxnEvent where
  /-- A declare; `drawn` are the ids that the allocation draws. -/
  | declare (drawn : List TransactionId)
  /-- An incoming transfer or disposition. -/
  | incoming (frame : TxnWorkFrame)
  | commit (txnId : TransactionId)
  | rollback (txnId : TransactionId)
  /-- The rollback that the coordinator asks for when it is dropped. -/
  | abort (txnId : TransactionId)

namespace TxnEvent

/-- The transaction that the event discharges, if it is open. -/
def discharges : TxnEvent → Option TransactionId
  | commit txnId | rollback txnId | abort txnId => some txnId
  | _ => none

/-- The transaction that the event names. -/
def names : TxnEvent → Option TransactionId
  | incoming frame => frame.transaction
  | e => e.discharges

end TxnEvent

/-! ## Histories -/

/-- The frames that wait in a transaction, with their positions in the history, oldest first; none
if the transaction is not open.  The history has its newest event first. -/
def openWork : List TxnEvent → TransactionId → Option (List (Nat × TxnWorkFrame))
  | [], _ => none
  | e :: past, txnId =>
      match e with
      | .declare drawn =>
          -- the first drawn id that is not in use
          if drawn.find? (fun id => (openWork past id).isNone) = some txnId then some []
          else openWork past txnId
      | .incoming frame =>
          if frame.transaction = some txnId then
            (openWork past txnId).map (· ++ [(past.length, frame)])
          else openWork past txnId
      | .commit id | .rollback id | .abort id => if id = txnId then none else openWork past txnId

/-- The frames that reach the session, with their positions in the history, in the order in which
they do: an ordinary one as it arrives, those of a transaction when it commits. -/
def appliedWork : List TxnEvent → List (Nat × TxnWorkFrame)
  | [] => []
  | e :: past =>
      match e with
      | .incoming frame =>
          if frame.transaction = none then appliedWork past ++ [(past.length, frame)]
          else appliedWork past
      | .commit txnId => appliedWork past ++ (openWork past txnId).getD []
      | _ => appliedWork past

/-- The `i`-th event brought `frame` under a transaction that was open, and nothing from then up to
the `j`-th event discharges it. -/
structure Waiting (events : List TxnEvent) (txnId : TransactionId) (i : Nat) (frame : TxnWorkFrame)
    (j : Nat) : Prop where
  before : i < j
  arrival : events[i]? = some (.incoming frame)
  posted : frame.transaction = some txnId
  wasOpen : (openWork (events.take i).reverse txnId).isSome
  undischarged : ∀ k, i < k → k < j → events[k]?.bind TxnEvent.discharges ≠ some txnId

section Histories

variable {events : List TxnEvent} {txnId : TransactionId} {frame : TxnWorkFrame} {i j : Nat}

/-- An event that comes after does not matter. -/
theorem waiting_snoc (e : TxnEvent) (hj : j ≤ events.length) :
    Waiting (events ++ [e]) txnId i frame j ↔ Waiting events txnId i frame j := by
  have hget : ∀ k, k < j → (events ++ [e])[k]? = events[k]? := fun k hk =>
    List.getElem?_append_left (by omega)
  constructor
  · intro h
    have hi := h.before
    constructor
    · exact hi
    · rw [← hget i hi]
      exact h.arrival
    · exact h.posted
    · have hopen := h.wasOpen
      rwa [List.take_append_of_le_length (by omega)] at hopen
    · intro k hik hkj
      rw [← hget k hkj]
      exact h.undischarged k hik hkj
  · intro h
    have hi := h.before
    constructor
    · exact hi
    · rw [hget i hi]
      exact h.arrival
    · exact h.posted
    · rw [List.take_append_of_le_length (by omega)]
      exact h.wasOpen
    · intro k hik hkj
      rw [hget k hkj]
      exact h.undischarged k hik hkj

/-- A frame that waited before an event still waits after it unless the event discharges its
transaction, and the event itself waits if it is a frame of the transaction. -/
theorem waiting_succ (e : TxnEvent) :
    Waiting (events ++ [e]) txnId i frame (events.length + 1) ↔
      (Waiting events txnId i frame events.length ∧ e.discharges ≠ some txnId) ∨
        (i = events.length ∧ e = .incoming frame ∧ frame.transaction = some txnId ∧
          (openWork events.reverse txnId).isSome) := by
  have hlast : (events ++ [e])[events.length]? = some e := by simp
  constructor
  · intro h
    have hi := h.before
    by_cases heq : i = events.length
    · right
      subst heq
      have harrival := h.arrival
      rw [hlast] at harrival
      have hopen := h.wasOpen
      rw [List.take_left] at hopen
      exact ⟨rfl, Option.some.inj harrival, h.posted, hopen⟩
    · left
      constructor
      · rw [← waiting_snoc e le_rfl]
        exact ⟨by omega, h.arrival, h.posted, h.wasOpen,
          fun k hik hk => h.undischarged k hik (by omega)⟩
      · have hend := h.undischarged events.length (by omega) (by omega)
        rwa [hlast] at hend
  · rintro (⟨h, hkeeps⟩ | ⟨rfl, rfl, hposted, hopen⟩)
    · have h' := (waiting_snoc e le_rfl).mpr h
      have hi := h.before
      refine ⟨by omega, h'.arrival, h'.posted, h'.wasOpen, fun k hik hk => ?_⟩
      by_cases heq : k = events.length
      · subst heq
        rw [hlast]
        exact hkeeps
      · exact h'.undischarged k hik (by omega)
    · refine ⟨by omega, hlast, hposted, ?_, fun k hik hk => by omega⟩
      rw [List.take_left]
      exact hopen

/-- The frames that wait in a transaction are those that the history says. -/
theorem mem_openWork :
    (∃ work, openWork events.reverse txnId = some work ∧ (i, frame) ∈ work) ↔
      Waiting events txnId i frame events.length := by
  induction events using List.reverseRecOn generalizing txnId i frame with
  | nil =>
      constructor
      · rintro ⟨work, h, -⟩
        cases h
      · intro h
        exact absurd h.before (Nat.not_lt_zero i)
  | append_singleton events e ih =>
      rw [List.length_append, List.length_singleton, waiting_succ, ← ih,
        List.reverse_append, List.reverse_singleton, List.singleton_append]
      cases e with
      | declare drawn =>
          simp only [openWork, TxnEvent.discharges]
          split_ifs with hnew
          · -- a transaction that was not open has no frames
            have hnone : openWork events.reverse txnId = none := by
              simpa using List.find?_some hnew
            simp [hnone]
          · simp
      | incoming frame' =>
          simp only [openWork, TxnEvent.discharges]
          split_ifs with hposted
          · cases hopen : openWork events.reverse txnId with
            | none => simp
            | some work =>
                simp only [Option.map_some, Option.some.injEq, exists_eq_left', List.mem_append,
                  List.mem_singleton, Prod.mk.injEq, List.length_reverse, TxnEvent.incoming.injEq]
                constructor
                · rintro (h | ⟨rfl, rfl⟩)
                  · exact .inl ⟨h, by simp⟩
                  · exact .inr ⟨rfl, rfl, hposted, rfl⟩
                · rintro (⟨h, -⟩ | ⟨rfl, rfl, -, -⟩)
                  · exact .inl h
                  · exact .inr ⟨rfl, rfl⟩
          · constructor
            · intro h
              exact .inl ⟨h, by simp⟩
            · rintro (⟨h, -⟩ | ⟨-, heq, h, -⟩)
              · exact h
              · cases heq
                exact absurd h hposted
      | commit id | rollback id | abort id =>
          simp only [openWork, TxnEvent.discharges]
          split_ifs with hid
          · simp [hid]
          · simp [hid]

/-- The frames that wait in a transaction are in the order of their arrival. -/
theorem pairwise_openWork {work : List (Nat × TxnWorkFrame)}
    (h : openWork events.reverse txnId = some work) : (work.map Prod.fst).Pairwise (· < ·) := by
  induction events using List.reverseRecOn generalizing txnId work with
  | nil => cases h
  | append_singleton events e ih =>
      rw [List.reverse_append, List.reverse_singleton, List.singleton_append] at h
      cases e with
      | declare drawn =>
          simp only [openWork] at h
          split_ifs at h
          · cases h
            exact .nil
          · exact ih h
      | incoming frame' =>
          simp only [openWork] at h
          split_ifs at h
          · obtain ⟨earlier, hopen, rfl⟩ := Option.map_eq_some_iff.mp h
            rw [List.map_append, List.pairwise_append]
            refine ⟨ih hopen, by simp, fun k hk l hl => ?_⟩
            obtain ⟨⟨k', earlierFrame⟩, hmem, rfl⟩ := List.mem_map.mp hk
            have hwaits : Waiting events txnId k' earlierFrame events.length :=
              mem_openWork.mp ⟨earlier, hopen, hmem⟩
            have hl' : l = events.length := by simpa using hl
            rw [hl']
            exact hwaits.before
          · exact ih h
      | commit id | rollback id | abort id =>
          simp only [openWork] at h
          split_ifs at h
          exact ih h

/-- What reaches the session: the ordinary frames, and those that waited in a transaction when it
was committed. -/
theorem mem_appliedWork :
    (i, frame) ∈ appliedWork events.reverse ↔
      (events[i]? = some (.incoming frame) ∧ frame.transaction = none) ∨
        ∃ txnId j, events[j]? = some (.commit txnId) ∧ Waiting events txnId i frame j := by
  induction events using List.reverseRecOn generalizing i frame with
  | nil => simp [appliedWork]
  | append_singleton events e ih =>
      have hlast : (events ++ [e])[events.length]? = some e := by simp
      have hget : ∀ {k}, k < events.length → (events ++ [e])[k]? = events[k]? := fun hk =>
        List.getElem?_append_left hk
      have hlt : ∀ {k} {e' : TxnEvent}, (events ++ [e])[k]? = some e' → k < events.length + 1 := by
        intro k e' hk
        simpa using (List.getElem?_eq_some_iff.mp hk).1
      have hlt' : ∀ {k} {e' : TxnEvent}, events[k]? = some e' → k < events.length := by
        intro k e' hk
        exact (List.getElem?_eq_some_iff.mp hk).1
      -- the earlier applications, and what the event adds
      have hsplit : ((events ++ [e])[i]? = some (.incoming frame) ∧ frame.transaction = none ∨
            ∃ txnId j, (events ++ [e])[j]? = some (.commit txnId) ∧
              Waiting (events ++ [e]) txnId i frame j) ↔
          (i, frame) ∈ appliedWork events.reverse ∨
            (i = events.length ∧ e = .incoming frame ∧ frame.transaction = none) ∨
              ∃ txnId, e = .commit txnId ∧ Waiting events txnId i frame events.length := by
        rw [ih]
        constructor
        · rintro (⟨harrival, hordinary⟩ | ⟨txnId, j, hcommit, hwaits⟩)
          · by_cases hi : i = events.length
            · subst hi
              rw [hlast] at harrival
              exact .inr (.inl ⟨rfl, Option.some.inj harrival, hordinary⟩)
            · have hi' := hlt harrival
              rw [hget (by omega)] at harrival
              exact .inl (.inl ⟨harrival, hordinary⟩)
          · by_cases hj : j = events.length
            · subst hj
              rw [hlast] at hcommit
              exact .inr (.inr ⟨txnId, Option.some.inj hcommit, (waiting_snoc e le_rfl).mp hwaits⟩)
            · have hj' := hlt hcommit
              rw [hget (by omega)] at hcommit
              exact .inl (.inr ⟨txnId, j, hcommit, (waiting_snoc e (by omega)).mp hwaits⟩)
        · rintro ((⟨harrival, hordinary⟩ | ⟨txnId, j, hcommit, hwaits⟩) | ⟨rfl, rfl, hordinary⟩ |
            ⟨txnId, rfl, hwaits⟩)
          · rw [← hget (hlt' harrival)] at harrival
            exact .inl ⟨harrival, hordinary⟩
          · have hj := hlt' hcommit
            rw [← hget hj] at hcommit
            exact .inr ⟨txnId, j, hcommit, (waiting_snoc e (by omega)).mpr hwaits⟩
          · exact .inl ⟨hlast, hordinary⟩
          · exact .inr ⟨txnId, events.length, hlast, (waiting_snoc _ le_rfl).mpr hwaits⟩
      rw [hsplit, List.reverse_append, List.reverse_singleton, List.singleton_append]
      cases e with
      | declare drawn => simp [appliedWork]
      | incoming frame' =>
          simp only [appliedWork]
          split_ifs with hordinary
          · simp only [List.mem_append, List.mem_singleton, Prod.mk.injEq, List.length_reverse,
              TxnEvent.incoming.injEq, false_and, exists_false, or_false]
            refine or_congr Iff.rfl ⟨?_, ?_⟩
            · rintro ⟨rfl, rfl⟩
              exact ⟨rfl, rfl, hordinary⟩
            · rintro ⟨rfl, rfl, -⟩
              exact ⟨rfl, rfl⟩
          · simp only [TxnEvent.incoming.injEq, false_and, exists_false, or_false]
            constructor
            · exact .inl
            · rintro (h | ⟨-, rfl, h⟩)
              · exact h
              · exact absurd h hordinary
      | commit txnId =>
          simp only [appliedWork, List.mem_append, reduceCtorEq, false_and, and_false, false_or,
            TxnEvent.commit.injEq, exists_eq_left', ← mem_openWork]
          refine or_congr Iff.rfl ?_
          cases openWork events.reverse txnId with
          | none => simp
          | some work => simp
      | rollback txnId => simp [appliedWork]
      | abort txnId => simp [appliedWork]

/-- Nothing reaches the session twice. -/
theorem nodup_appliedWork : ((appliedWork events.reverse).map Prod.fst).Nodup := by
  induction events using List.reverseRecOn with
  | nil => exact .nil
  | append_singleton events e ih =>
      rw [List.reverse_append, List.reverse_singleton, List.singleton_append]
      cases e with
      | declare drawn => exact ih
      | incoming frame =>
          simp only [appliedWork]
          split_ifs
          · rw [List.map_append, List.nodup_append]
            refine ⟨ih, by simp, fun k hk l hl => ?_⟩
            obtain ⟨⟨k', earlier⟩, hmem, rfl⟩ := List.mem_map.mp hk
            have hl' : l = events.length := by simpa using hl
            have harrival : ∃ e, events[k']? = some e := by
              rcases mem_appliedWork.mp hmem with ⟨harrival, -⟩ | ⟨txnId, j, -, hwaits⟩
              · exact ⟨_, harrival⟩
              · exact ⟨_, hwaits.arrival⟩
            obtain ⟨e, harrival⟩ := harrival
            have hlt := (List.getElem?_eq_some_iff.mp harrival).1
            simp only
            omega
          · exact ih
      | commit txnId =>
          simp only [appliedWork]
          cases hopen : openWork events.reverse txnId with
          | none => simpa using ih
          | some work =>
              rw [Option.getD_some, List.map_append, List.nodup_append]
              refine ⟨ih, (pairwise_openWork hopen).imp fun h => Nat.ne_of_lt h, ?_⟩
              intro k hk l hl heq
              obtain ⟨⟨k', earlier⟩, hmem, rfl⟩ := List.mem_map.mp hk
              obtain ⟨⟨l', waiting⟩, hmem', rfl⟩ := List.mem_map.mp hl
              simp only at heq
              subst heq
              have hwaits : Waiting events txnId k' waiting events.length :=
                mem_openWork.mp ⟨work, hopen, hmem'⟩
              rcases mem_appliedWork.mp hmem with ⟨harrival, hordinary⟩ | ⟨txnId', j, hcommit, hearlier⟩
              · -- the waiting frame is not an ordinary one
                have hsame := harrival.symm.trans hwaits.arrival
                cases hsame
                rw [hwaits.posted] at hordinary
                cases hordinary
              · -- an earlier commit of its transaction would have discharged it
                have hsame := hearlier.arrival.symm.trans hwaits.arrival
                cases hsame
                have hid := hearlier.posted.symm.trans hwaits.posted
                cases hid
                have hj := (List.getElem?_eq_some_iff.mp hcommit).1
                exact hwaits.undischarged j hearlier.before hj (by simp [hcommit, TxnEvent.discharges])
      | rollback txnId => exact ih
      | abort txnId => exact ih

end Histories

/-! ## Runs -/

/-- A session together with the transfers and dispositions that it was given. -/
structure Recorded (S : Type) where
  session : S
  applied : List TxnWorkFrame

instance {S : Type} [EndpointSession S] : EndpointSession (Recorded S) where
  onIncomingTransfer s transfer payload :=
    let (result, session) := EndpointSession.onIncomingTransfer s.session transfer payload
    (result, ⟨session, s.applied ++ [.post transfer payload]⟩)
  onIncomingDisposition s disposition :=
    let (result, session) := EndpointSession.onIncomingDisposition s.session disposition
    (result, ⟨session, s.applied ++ [.retire disposition]⟩)

namespace TxnSession

variable {S : Type} [EndpointSession S]

/-- One event; an error leaves the session as the failing call left it. -/
def act (s : TxnSession S) : TxnEvent → TxnSession S × List Disposition
  | .declare drawn => ((s.allocateTransactionId drawn).2, [])
  | .incoming (.post transfer payload) =>
      match s.onIncomingTransfer transfer payload with
      | (.ok disposition, s) => (s, disposition.toList)
      | (.error _, s) => (s, [])
  | .incoming (.retire disposition) =>
      match s.onIncomingDisposition disposition with
      | (.ok dispositions, s) => (s, dispositions.getD [])
      | (.error _, s) => (s, [])
  | .commit txnId => ((s.commitTransaction txnId).2, [])
  | .rollback txnId | .abort txnId => ((s.rollbackTransaction txnId).2, [])

/-- The wrapped session takes every frame that the event hands to it. -/
def Accepts (s : TxnSession S) : TxnEvent → Prop
  | .incoming (.post transfer payload) =>
      transactionOf transfer.state = none → (s.onIncomingTransfer transfer payload).1.isOk
  | .incoming (.retire disposition) =>
      transactionOf disposition.state = none → (s.onIncomingDisposition disposition).1.isOk
  | .commit txnId => (s.commitTransaction txnId).1.isOk
  | _ => True

/-- A transactional session as its builder makes it. -/
def fresh (session : S) : TxnSession S := ⟨[], session, .empty⟩

/-- A new transactional session over one that records. -/
def recording (session : S) : TxnSession (Recorded S) := fresh ⟨session, []⟩

def forget (s : TxnSession (Recorded S)) : TxnSession S := ⟨s.control, s.session.session, s.txns⟩

/-! The record is only looked at from outside: a recording session behaves as the one it records. -/

omit [EndpointSession S] in
theorem allocateTransactionId_eq (s : TxnSession S) (drawn : List TransactionId) :
    s.allocateTransactionId drawn =
      match drawn.find? fun id => (s.txns.get id).isNone with
      | none => (none, s)
      | some txnId => (some txnId, { s with txns := s.txns.insert txnId .new }) := by
  induction drawn with
  | nil => rfl
  | cons txnId drawn ih =>
      cases hget : s.txns.get txnId with
      | none => simp [allocateTransactionId, hget]
      | some txn => simp [allocateTransactionId, hget, ih]

theorem applyFrame_forget (s : TxnSession (Recorded S)) (frame : TxnWorkFrame) :
    Prod.map id forget (s.applyFrame frame) = s.forget.applyFrame frame := by
  cases frame with
  | post transfer payload =>
      simp only [applyFrame, EndpointSession.onIncomingTransfer, forget]
      cases EndpointSession.onIncomingTransfer s.session.session transfer.discharged payload with
      | mk result session => cases result <;> rfl
  | retire disposition =>
      simp only [applyFrame, EndpointSession.onIncomingDisposition, forget]
      cases EndpointSession.onIncomingDisposition s.session.session disposition.discharged with
      | mk result session => cases result <;> rfl

theorem applyFrames_forget (s : TxnSession (Recorded S)) (frames : List TxnWorkFrame) :
    Prod.map id forget (s.applyFrames frames) = s.forget.applyFrames frames := by
  induction frames generalizing s with
  | nil => rfl
  | cons frame frames ih =>
      have hframe := s.applyFrame_forget frame
      simp only [applyFrames]
      rw [← hframe]
      cases s.applyFrame frame with
      | mk result s' =>
          cases result with
          | error error => rfl
          | ok _ => exact ih s'

theorem commitTransaction_forget (s : TxnSession (Recorded S)) (txnId : TransactionId) :
    Prod.map id forget (s.commitTransaction txnId) = s.forget.commitTransaction txnId := by
  have htxns : s.forget.txns = s.txns := rfl
  simp only [commitTransaction, htxns]
  cases s.txns.get txnId with
  | none => rfl
  | some txn =>
      have hframes := applyFrames_forget { s with txns := s.txns.swapRemove txnId } txn.frames
      simp only [forget] at hframes ⊢
      rw [← hframes]
      cases applyFrames { s with txns := s.txns.swapRemove txnId } txn.frames with
      | mk result s' => cases result <;> rfl

theorem onIncomingTransfer_forget (s : TxnSession (Recorded S)) (transfer : Transfer)
    (payload : Payload) :
    Prod.map id forget (s.onIncomingTransfer transfer payload) =
      s.forget.onIncomingTransfer transfer payload := by
  have htxns : s.forget.txns = s.txns := rfl
  simp only [onIncomingTransfer, htxns]
  cases transactionOf transfer.state with
  | none => rfl
  | some txnId =>
      dsimp only
      cases s.txns.get txnId <;> rfl

theorem onIncomingDisposition_forget (s : TxnSession (Recorded S)) (disposition : Disposition) :
    Prod.map id forget (s.onIncomingDisposition disposition) =
      s.forget.onIncomingDisposition disposition := by
  have htxns : s.forget.txns = s.txns := rfl
  simp only [onIncomingDisposition, htxns]
  cases transactionOf disposition.state with
  | none => rfl
  | some txnId =>
      dsimp only
      cases s.txns.get txnId <;> rfl

theorem act_forget (s : TxnSession (Recorded S)) (e : TxnEvent) :
    Prod.map forget id (s.act e) = s.forget.act e ∧ (s.Accepts e ↔ s.forget.Accepts e) := by
  cases e with
  | declare drawn =>
      simp only [act, Accepts, allocateTransactionId_eq, forget]
      cases drawn.find? fun id => (s.txns.get id).isNone <;> exact ⟨rfl, trivial⟩
  | incoming frame =>
      cases frame with
      | post transfer payload =>
          simp only [act, Accepts, ← onIncomingTransfer_forget]
          cases s.onIncomingTransfer transfer payload with
          | mk result s' => cases result <;> exact ⟨rfl, Iff.rfl⟩
      | retire disposition =>
          simp only [act, Accepts, ← onIncomingDisposition_forget]
          cases s.onIncomingDisposition disposition with
          | mk result s' => cases result <;> exact ⟨rfl, Iff.rfl⟩
  | commit txnId =>
      simp only [act, Accepts, ← commitTransaction_forget]
      exact ⟨rfl, Iff.rfl⟩
  | rollback txnId | abort txnId =>
      have htxns : s.forget.txns = s.txns := rfl
      simp only [act, Accepts, rollbackTransaction, htxns]
      cases s.txns.get txnId <;> exact ⟨rfl, trivial⟩

theorem run_forget (s : TxnSession (Recorded S)) (events : List TxnEvent) :
    (Run.run act s events).1.forget = (Run.run act s.forget events).1 ∧
      (Run.Along act Accepts s events ↔ Run.Along act Accepts s.forget events) := by
  induction events generalizing s with
  | nil => exact ⟨rfl, Iff.rfl⟩
  | cons e events ih =>
      obtain ⟨hstep, haccepts⟩ := s.act_forget e
      have hnext : (s.act e).1.forget = (s.forget.act e).1 := congrArg Prod.fst hstep
      have hrest := ih (s.act e).1
      rw [hnext] at hrest
      exact ⟨hrest.1, and_congr haccepts hrest.2⟩

/-! What one event applies. -/

/-- The frames that were applied and those that wait are those of the history. -/
structure Follows (s : TxnSession (Recorded S)) (past : List TxnEvent) : Prop where
  applied : s.session.applied = (appliedWork past).map fun work => work.2.carried
  waiting : ∀ txnId, (s.txns.get txnId).map ResourceTransaction.frames =
    (openWork past txnId).map fun work => work.map Prod.snd

theorem applyFrame_recorded (s : TxnSession (Recorded S)) (frame : TxnWorkFrame) :
    (s.applyFrame frame).2.session.applied = s.session.applied ++ [frame.discharged] ∧
      (s.applyFrame frame).2.txns = s.txns := by
  cases frame with
  | post transfer payload =>
      simp only [applyFrame, EndpointSession.onIncomingTransfer]
      cases EndpointSession.onIncomingTransfer s.session.session transfer.discharged payload with
      | mk result session => cases result <;> exact ⟨rfl, rfl⟩
  | retire disposition =>
      simp only [applyFrame, EndpointSession.onIncomingDisposition]
      cases EndpointSession.onIncomingDisposition s.session.session disposition.discharged with
      | mk result session => cases result <;> exact ⟨rfl, rfl⟩

/-- A loop that meets no error applies every frame, in order. -/
theorem applyFrames_recorded {s : TxnSession (Recorded S)} {frames : List TxnWorkFrame}
    (h : (s.applyFrames frames).1.isOk) :
    (s.applyFrames frames).2.session.applied =
        s.session.applied ++ frames.map TxnWorkFrame.discharged ∧
      (s.applyFrames frames).2.txns = s.txns := by
  induction frames generalizing s with
  | nil => exact ⟨by simp [applyFrames], rfl⟩
  | cons frame frames ih =>
      obtain ⟨happlied, htxns⟩ := s.applyFrame_recorded frame
      simp only [applyFrames] at h ⊢
      cases hframe : s.applyFrame frame with
      | mk result s' =>
          rw [hframe] at h happlied htxns
          simp only at h happlied htxns
          cases result with
          | error error => cases h
          | ok _ =>
              obtain ⟨hrest, htxns'⟩ := ih h
              constructor
              · rw [hrest, happlied]
                simp
              · exact htxns'.trans htxns

variable {s : TxnSession (Recorded S)} {past : List TxnEvent}

omit [EndpointSession S] in
/-- A transaction is live exactly when the history has it open. -/
theorem Follows.isNone (h : s.Follows past) (txnId : TransactionId) :
    (s.txns.get txnId).isNone = (openWork past txnId).isNone := by
  rw [← Option.isNone_map (f := ResourceTransaction.frames), h.waiting, Option.isNone_map]

omit [EndpointSession S] in
theorem Follows.get_eq_none (h : s.Follows past) {txnId : TransactionId}
    (hopen : openWork past txnId = none) : s.txns.get txnId = none := by
  simpa [hopen] using h.isNone txnId

theorem Follows.declare (h : s.Follows past) (drawn : List TransactionId) :
    (s.act (.declare drawn)).1.Follows (.declare drawn :: past) := by
  have hdraw : drawn.find? (fun id => (s.txns.get id).isNone) =
      drawn.find? (fun id => (openWork past id).isNone) := by
    simp only [h.isNone]
  simp only [act, allocateTransactionId_eq, hdraw]
  constructor
  · simp only [appliedWork]
    rw [← h.applied]
    split <;> rfl
  · intro txnId
    simp only [openWork]
    cases drawn.find? fun id => (openWork past id).isNone with
    | none => simpa using h.waiting txnId
    | some fresh =>
        simp only [IndexMap.get_insert, Option.some.injEq]
        by_cases heq : txnId = fresh
        · simp [heq, ResourceTransaction.new]
        · simpa [heq, Ne.symm heq] using h.waiting txnId

omit [EndpointSession S] in
/-- A frame of an open transaction joins those that wait in it. -/
theorem Follows.buffer (h : s.Follows past) (frame : TxnWorkFrame) {txnId : TransactionId}
    (hposted : frame.transaction = some txnId) {txn : ResourceTransaction}
    (hget : s.txns.get txnId = some txn) {update : ResourceTransaction → ResourceTransaction}
    (hupdate : update txn = txn.push frame) :
    Follows { s with txns := s.txns.modify txnId update }
      (.incoming frame :: past) := by
  constructor
  · simp [appliedWork, hposted, h.applied]
  · intro txnId'
    simp only [openWork, IndexMap.get_modify, hposted, Option.some.injEq]
    by_cases heq : txnId' = txnId
    · have hwaiting := h.waiting txnId
      simp only [hget, Option.map_some] at hwaiting
      obtain ⟨work, hwork, hframes⟩ := Option.map_eq_some_iff.mp hwaiting.symm
      simp [heq, hget, hwork, hupdate, ResourceTransaction.push, hframes]
    · simpa [heq, Ne.symm heq] using h.waiting txnId'

omit [EndpointSession S] in
/-- A frame of a transaction that is not open goes nowhere. -/
theorem Follows.refuse (h : s.Follows past) (frame : TxnWorkFrame) {txnId : TransactionId}
    (hposted : frame.transaction = some txnId) (hget : s.txns.get txnId = none) :
    s.Follows (.incoming frame :: past) := by
  constructor
  · simp [appliedWork, hposted, h.applied]
  · intro txnId'
    simp only [openWork, hposted, Option.some.injEq]
    split_ifs with heq
    · subst heq
      have hwaiting := h.waiting txnId
      simp only [hget, Option.map_none] at hwaiting
      simpa [hget] using hwaiting
    · exact h.waiting txnId'

omit [EndpointSession S] in
/-- An ordinary frame that was applied as it came. -/
theorem Follows.ordinary (h : s.Follows past) (frame : TxnWorkFrame)
    (hordinary : frame.transaction = none) (session : S) :
    Follows { s with session := ⟨session, s.session.applied ++ [frame]⟩ }
      (.incoming frame :: past) := by
  constructor
  · simp [appliedWork, hordinary, h.applied, TxnWorkFrame.carried]
  · intro txnId
    simpa [openWork, hordinary] using h.waiting txnId

theorem Follows.incoming (h : s.Follows past) (frame : TxnWorkFrame) :
    (s.act (.incoming frame)).1.Follows (.incoming frame :: past) := by
  cases frame with
  | post transfer payload =>
      cases hstate : transactionOf transfer.state with
      | none =>
          simp only [act, onIncomingTransfer, hstate, EndpointSession.onIncomingTransfer]
          cases EndpointSession.onIncomingTransfer s.session.session transfer payload with
          | mk result session => cases result <;> exact h.ordinary (.post transfer payload) hstate session
      | some txnId =>
          cases hget : s.txns.get txnId with
          | none =>
              simp only [act, onIncomingTransfer, hstate, hget]
              exact h.refuse (.post transfer payload) hstate hget
          | some txn =>
              simp only [act, onIncomingTransfer, hstate, hget]
              exact h.buffer (.post transfer payload) hstate hget rfl
  | retire disposition =>
      cases hstate : transactionOf disposition.state with
      | none =>
          simp only [act, onIncomingDisposition, hstate, EndpointSession.onIncomingDisposition]
          cases EndpointSession.onIncomingDisposition s.session.session disposition with
          | mk result session => cases result <;> exact h.ordinary (.retire disposition) hstate session
      | some txnId =>
          cases hget : s.txns.get txnId with
          | none =>
              simp only [act, onIncomingDisposition, hstate, hget]
              exact h.refuse (.retire disposition) hstate hget
          | some txn =>
              simp only [act, onIncomingDisposition, hstate, hget]
              exact h.buffer (.retire disposition) hstate hget rfl

omit [EndpointSession S] in
/-- A discharge of a transaction that is not open leaves the others. -/
theorem Follows.openWork_discharged (h : s.Follows past) {txnId : TransactionId}
    (hget : s.txns.get txnId = none) (txnId' : TransactionId) :
    (if txnId = txnId' then none else openWork past txnId') = openWork past txnId' := by
  split_ifs with heq
  · subst heq
    have hnone := h.isNone txnId
    rw [hget] at hnone
    exact (Option.isNone_iff_eq_none.mp hnone.symm).symm
  · rfl

omit [EndpointSession S] in
/-- A discharge of an open transaction removes it and leaves the others. -/
theorem Follows.waiting_discharged (h : s.Follows past) (txnId txnId' : TransactionId) :
    ((s.txns.swapRemove txnId).get txnId').map ResourceTransaction.frames =
      (if txnId = txnId' then none else openWork past txnId').map fun work => work.map Prod.snd := by
  rw [IndexMap.get_swapRemove]
  by_cases heq : txnId' = txnId
  · simp [heq]
  · simpa [heq, Ne.symm heq] using h.waiting txnId'

/-- The frames that wait in a transaction are posted under it. -/
theorem transaction_of_mem_openWork {past : List TxnEvent} {txnId : TransactionId}
    {work : List (Nat × TxnWorkFrame)} (hopen : openWork past txnId = some work)
    {entry : Nat × TxnWorkFrame} (hmem : entry ∈ work) : entry.2.transaction = some txnId := by
  have hwaits : Waiting past.reverse txnId entry.1 entry.2 past.reverse.length := by
    apply mem_openWork.mp
    exact ⟨work, by rw [List.reverse_reverse]; exact hopen, hmem⟩
  exact hwaits.posted

/-- The commit of a live transaction is the loop over its frames. -/
theorem commitTransaction_live {T : Type} [EndpointSession T] {s : TxnSession T}
    {txnId : TransactionId} {txn : ResourceTransaction} (hget : s.txns.get txnId = some txn) :
    s.commitTransaction txnId =
      Prod.map (Except.map fun _ => .ok ()) id
        (applyFrames { s with txns := s.txns.swapRemove txnId } txn.frames) := by
  simp only [commitTransaction, hget]
  cases applyFrames { s with txns := s.txns.swapRemove txnId } txn.frames with
  | mk result s' => cases result <;> rfl

theorem Follows.commit (h : s.Follows past) {txnId : TransactionId}
    (haccepts : s.Accepts (.commit txnId)) :
    (s.act (.commit txnId)).1.Follows (.commit txnId :: past) := by
  simp only [act, Accepts] at haccepts ⊢
  cases hget : s.txns.get txnId with
  | none =>
      simp only [commitTransaction, hget]
      constructor
      · have hnone := h.isNone txnId
        rw [hget] at hnone
        simp [appliedWork, Option.isNone_iff_eq_none.mp hnone.symm, h.applied]
      · intro txnId'
        simp only [openWork]
        rw [h.openWork_discharged hget]
        exact h.waiting txnId'
  | some txn =>
      rw [commitTransaction_live hget] at haccepts ⊢
      have hloop : (applyFrames { s with txns := s.txns.swapRemove txnId } txn.frames).1.isOk := by
        cases hframes : applyFrames { s with txns := s.txns.swapRemove txnId } txn.frames with
        | mk result s' =>
            rw [hframes] at haccepts
            cases result with
            | error error => cases haccepts
            | ok _ => rfl
      obtain ⟨happlied, htxns⟩ := applyFrames_recorded hloop
      simp only [Prod.map, id]
      -- the frames of the transaction are those that waited
      have hwaiting := h.waiting txnId
      simp only [hget, Option.map_some] at hwaiting
      obtain ⟨work, hwork, hframes⟩ := Option.map_eq_some_iff.mp hwaiting.symm
      constructor
      · have hcarried : txn.frames.map TxnWorkFrame.discharged =
            work.map fun entry => entry.2.carried := by
          rw [← hframes, List.map_map]
          refine List.map_congr_left fun entry hmem => ?_
          simp [TxnWorkFrame.carried, transaction_of_mem_openWork hwork hmem]
        rw [happlied, hcarried, h.applied]
        simp [appliedWork, hwork]
      · intro txnId'
        rw [htxns]
        exact h.waiting_discharged txnId txnId'

omit [EndpointSession S] in
theorem Follows.discharged (h : s.Follows past) {txnId : TransactionId} {e : TxnEvent}
    (happlied : appliedWork (e :: past) = appliedWork past)
    (hopen : ∀ txnId', openWork (e :: past) txnId' =
      if txnId = txnId' then none else openWork past txnId') :
    (s.rollbackTransaction txnId).2.Follows (e :: past) := by
  simp only [rollbackTransaction]
  cases hget : s.txns.get txnId with
  | none =>
      constructor
      · rw [happlied]
        exact h.applied
      · intro txnId'
        rw [hopen, h.openWork_discharged hget]
        exact h.waiting txnId'
  | some txn =>
      constructor
      · rw [happlied]
        exact h.applied
      · intro txnId'
        rw [hopen]
        exact h.waiting_discharged txnId txnId'

/-- One event keeps to the history. -/
theorem Follows.act (h : s.Follows past) {e : TxnEvent} (haccepts : s.Accepts e) :
    (s.act e).1.Follows (e :: past) := by
  cases e with
  | declare drawn => exact h.declare drawn
  | incoming frame => exact h.incoming frame
  | commit txnId => exact h.commit haccepts
  | rollback txnId => exact h.discharged rfl fun _ => rfl
  | abort txnId => exact h.discharged rfl fun _ => rfl

theorem run_follows (session : S) (events : List TxnEvent)
    (haccepts : Run.Along TxnSession.act Accepts (recording session) events) :
    (Run.run TxnSession.act (recording session) events).1.Follows events.reverse := by
  induction events using List.reverseRecOn with
  | nil => exact ⟨rfl, fun _ => rfl⟩
  | append_singleton events e ih =>
      obtain ⟨hbefore, hlast, -⟩ := Run.along_append.mp haccepts
      rw [Run.run_snoc, List.reverse_append, List.reverse_singleton, List.singleton_append]
      exact (ih hbefore).act hlast

/-- An event that names a transaction which is not live changes nothing. -/
theorem act_unknown {T : Type} [EndpointSession T] (s : TxnSession T) {e : TxnEvent}
    {txnId : TransactionId} (hnames : e.names = some txnId) (hget : s.txns.get txnId = none) :
    s.act e = (s, []) := by
  cases e with
  | declare drawn => cases hnames
  | incoming frame =>
      cases frame with
      | post transfer payload =>
          have hstate : transactionOf transfer.state = some txnId := hnames
          simp [TxnSession.act, onIncomingTransfer, hstate, hget]
      | retire disposition =>
          have hstate : transactionOf disposition.state = some txnId := hnames
          simp [TxnSession.act, onIncomingDisposition, hstate, hget]
  | commit id =>
      cases hnames
      simp [TxnSession.act, commitTransaction, hget]
  | rollback id | abort id =>
      cases hnames
      simp [TxnSession.act, rollbackTransaction, hget]

/-- Over every history in which the wrapped session takes what it is given, it is given the ordinary
frames as they arrive and, at the commit of a transaction, the frames that wait in it, in the order
of their arrival and each once; a transaction that is not open is nobody's business. -/
theorem transactions_isolated (session : S) (events : List TxnEvent)
    (haccepts : Run.Along TxnSession.act Accepts (fresh session) events) :
    let s := (Run.run TxnSession.act (recording session) events).1
    s.forget = (Run.run TxnSession.act (fresh session) events).1 ∧
      s.session.applied = (appliedWork events.reverse).map (fun work => work.2.carried) ∧
      ((appliedWork events.reverse).map Prod.fst).Nodup ∧
      (∀ i frame, (i, frame) ∈ appliedWork events.reverse ↔
        (events[i]? = some (.incoming frame) ∧ frame.transaction = none) ∨
          ∃ txnId j, events[j]? = some (.commit txnId) ∧ Waiting events txnId i frame j) ∧
      (∀ txnId work, openWork events.reverse txnId = some work →
        (work.map Prod.fst).Pairwise (· < ·)) ∧
      (∀ txnId, (s.txns.get txnId).map ResourceTransaction.frames =
        (openWork events.reverse txnId).map fun work => work.map Prod.snd) ∧
      ∀ e txnId, e.names = some txnId → openWork events.reverse txnId = none →
        s.act e = (s, []) := by
  obtain ⟨hforget, haccepts'⟩ := (recording session).run_forget events
  have hfollows := run_follows session events (haccepts'.mpr haccepts)
  refine ⟨hforget, hfollows.applied, nodup_appliedWork, fun i frame => mem_appliedWork,
    fun txnId work hopen => pairwise_openWork hopen, hfollows.waiting, ?_⟩
  intro e txnId hnames hopen
  exact act_unknown _ hnames (hfollows.get_eq_none hopen)

section TwoTransactions

private def attached : Session :=
  ((SessionBuilder.intoSession {} 0 .mapped LinkStore.empty).allocateIncomingLink "in"
    (.receiver 0 () .first false) ⟨0⟩).2

private def transferOf (deliveryId : DeliveryNumber) (state : Option DeliveryState) : Transfer :=
  { handle := 0, deliveryId := some deliveryId, deliveryTag := some [0], messageFormat := some 0
    settled := some false, more := false, rcvSettleMode := none, state, resume := false
    aborted := false, batchable := false }

private def dispositionOf (settled : Bool) (state : Option DeliveryState) : Disposition :=
  { role := .receiver, first := 3, last := none, settled, state, batchable := false }

private def under (txnId : TransactionId) : Option DeliveryState :=
  some (.transactionalState ⟨txnId, some .released⟩)

/-- Two transactions side by side; the second draws the id of the first before its own. -/
private def sideBySide : List TxnEvent :=
  [.declare [[1]], .declare [[1], [2]], .incoming (.post (transferOf 0 (under [1])) [10]),
    .incoming (.post (transferOf 1 (under [2])) [11]), .incoming (.post (transferOf 2 none) [12]),
    .incoming (.retire (dispositionOf false (under [1]))), .rollback [2], .commit [3], .commit [1]]

theorem two_transactions_isolated :
    Run.Along TxnSession.act Accepts (fresh attached) sideBySide ∧
      (Run.run TxnSession.act (recording attached) sideBySide).1.session.applied =
        [.post (transferOf 2 none) [12], .post (transferOf 0 (some .released)) [10],
          .retire (dispositionOf true (some .released))] := by
  have haccepts : Run.Along TxnSession.act Accepts (fresh attached) sideBySide := by
    refine ⟨trivial, trivial, fun h => ?_, fun h => ?_, fun _ => rfl, fun h => ?_, trivial, rfl, rfl,
      trivial⟩
    · cases h
    · cases h
    · cases h
  refine ⟨haccepts, ?_⟩
  rw [(transactions_isolated attached sideBySide haccepts).2.1]
  rfl

end TwoTransactions

end TxnSession

end Fe2o3Amqp
