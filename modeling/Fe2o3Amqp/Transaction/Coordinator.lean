import Fe2o3Amqp.Control
import Fe2o3Amqp.Transaction.Isolation
import Mathlib.Data.Finset.Card

/-!
# The coordinator of a control link

The coordinator declares and discharges transactions through the control channel of the session,
which is bounded and which it shares with every other task of the session.  It waits for room and for
the answer, but when it is dropped it can only try to send.
-/

namespace Fe2o3Amqp

inductive CoordinatorError where
  | globalIdNotImplemented
  | transactionError (error : TransactionError)

inductive SuccessfulOutcome where
  | declared (txnId : TransactionId)
  | accepted

/-- Where the event loop stands: at `recv`, at the `send` of a control, at the `await` of its answer,
or past its end, where the coordinator is dropped. -/
inductive CoordinatorTask where
  | receiving
  | sending (control : SessionControl)
  | awaiting
  | dropped

structure TxnCoordinator where
  txnIds : Finset TransactionId
  task : CoordinatorTask

namespace TxnCoordinator

def onDeclare (c : TxnCoordinator) (globalId : Option TransactionId) :
    List (Except CoordinatorError SuccessfulOutcome) × TxnCoordinator :=
  match globalId with
  | some _ => ([.error .globalIdNotImplemented], c)
  | none => ([], { c with task := .sending (.allocateTransactionId false) })

/-- `on_discharge` up to the first `await`: the id is removed before the control is sent. -/
def onDischarge (c : TxnCoordinator) (txnId : TransactionId) (fail : Option Bool) :
    List (Except CoordinatorError SuccessfulOutcome) × TxnCoordinator :=
  if txnId ∈ c.txnIds then
    ([],
      { txnIds := c.txnIds.erase txnId
        task := .sending <|
          match fail with
          | some true => .rollbackTransaction txnId false
          | some false | none => .commitTransaction txnId false })
  else ([.error (.transactionError .unknownId)], c)

/-- The answer to the control has arrived. -/
def resume (c : TxnCoordinator) (answer : Except TransactionError SuccessfulOutcome) :
    List (Except CoordinatorError SuccessfulOutcome) × TxnCoordinator :=
  ([answer.mapError .transactionError],
    { txnIds :=
        match answer with
        | .ok (.declared txnId) => insert txnId c.txnIds
        | _ => c.txnIds
      task := .receiving })

end TxnCoordinator

/-- A control on the channel; the coordinator may be waiting for its answer. -/
structure ControlRequest where
  control : SessionControl
  awaited : Bool

/-- The transaction that the control discharges, if it is open. -/
def SessionControl.discharges : SessionControl → Option TransactionId
  | commitTransaction txnId _ | rollbackTransaction txnId _ | abortTransaction txnId => some txnId
  | _ => none

/-- The loop of `drop`, over the ids as `drain` yields them: the first `try_send` that fails ends
it. -/
def abortAll (capacity : Nat) (queue : List ControlRequest) : List TransactionId → List ControlRequest
  | [] => queue
  | txnId :: txnIds =>
      if queue.length < capacity then
        abortAll capacity (queue ++ [⟨.abortTransaction txnId, false⟩]) txnIds
      else queue

namespace TxnSession

variable {S : Type} [EndpointSession S]

/-- The answer to a discharge. -/
def dischargeAnswer : Except TransactionError Unit → Except TransactionError SuccessfulOutcome
  | .ok _ => .ok .accepted
  | .error e => .error e

/-- The transactional branches of `on_control`; any other control is the wrapped session's.  Nothing
is returned while an allocation still draws. -/
def onControl (s : TxnSession S) (drawn : List TransactionId) : SessionControl →
    Option (Except SessionInnerError (Except TransactionError SuccessfulOutcome) × TxnSession S)
  | .allocateTransactionId responderDropped =>
      match s.allocateTransactionId drawn with
      | (none, _) => none
      | (some txnId, s) =>
          some (if responderDropped then .error .unattachedHandle else .ok (.ok (.declared txnId)), s)
  | .commitTransaction txnId responderDropped =>
      match s.commitTransaction txnId with
      | (.error e, s) => some (.error e, s)
      | (.ok result, s) =>
          some (if responderDropped then .error .unattachedHandle else .ok (dischargeAnswer result), s)
  | .rollbackTransaction txnId responderDropped =>
      match s.rollbackTransaction txnId with
      | (.error e, s) => some (.error e, s)
      | (.ok result, s) =>
          some (if responderDropped then .error .unattachedHandle else .ok (dischargeAnswer result), s)
  | .abortTransaction txnId => some (.ok (.ok .accepted), (s.rollbackTransaction txnId).2)
  | _ => some (.ok (.ok .accepted), s)

end TxnSession

/-- The session, its control channel and one coordinator.  `held` are the transactions that were
allocated for the coordinator and that the session has not discharged since. -/
structure ControlSystem (S : Type) where
  session : TxnSession S
  alive : Bool
  queue : List ControlRequest
  coordinator : TxnCoordinator
  held : Finset TransactionId

inductive CoordinatorEvent (S : Type) where
  /-- A declare or a discharge arrives on the control link. -/
  | declare (globalId : Option TransactionId)
  | discharge (txnId : TransactionId) (fail : Option Bool)
  /-- There is room for the control that the coordinator waits to send. -/
  | send
  /-- Another task puts a control on the channel. -/
  | request (control : SessionControl)
  /-- The engine takes the oldest control; `drawn` are the ids that an allocation draws. -/
  | control (drawn : List TransactionId)
  | incoming (frame : TxnWorkFrame)
  /-- Whatever else the engine does with the wrapped session. -/
  | other (change : S → S)
  | stop
  /-- The event loop has ended; `drained` are the ids in the order in which the set yields them. -/
  | drop (drained : List TransactionId)

namespace ControlSystem

variable {S : Type} [EndpointSession S]

/-- What is still held after a control. -/
def heldAfter (s : ControlSystem S) (control : SessionControl) : Finset TransactionId :=
  match control.discharges with
  | some txnId => s.held.erase txnId
  | none => s.held

/-- The engine has handled the control at the head of the channel. -/
def handled (s : ControlSystem S) (request : ControlRequest) (queue : List ControlRequest)
    (answer : Except TransactionError SuccessfulOutcome) (session : TxnSession S) :
    ControlSystem S × List (Except CoordinatorError SuccessfulOutcome) :=
  if request.awaited then
    let (replies, coordinator) := s.coordinator.resume answer
    let held :=
      match answer with
      | .ok (.declared txnId) => insert txnId (s.heldAfter request.control)
      | _ => s.heldAfter request.control
    ({ s with session, queue, coordinator, held }, replies)
  else ({ s with session, queue, held := s.heldAfter request.control }, [])

/-- One event; the outputs are the results of the deliveries on the control link.  The coordinator
takes a delivery, or is dropped, only between two deliveries.  A dead session is not followed. -/
def step (capacity : Nat) (s : ControlSystem S) (e : CoordinatorEvent S) :
    ControlSystem S × List (Except CoordinatorError SuccessfulOutcome) :=
  if !s.alive then (s, [])
  else
    match e with
    | .declare globalId =>
        match s.coordinator.task with
        | .receiving =>
            let (replies, coordinator) := s.coordinator.onDeclare globalId
            ({ s with coordinator }, replies)
        | _ => (s, [])
    | .discharge txnId fail =>
        match s.coordinator.task with
        | .receiving =>
            let (replies, coordinator) := s.coordinator.onDischarge txnId fail
            ({ s with coordinator }, replies)
        | _ => (s, [])
    | .send =>
        match s.coordinator.task with
        | .sending control =>
            if s.queue.length < capacity then
              ({ s with
                  queue := s.queue ++ [⟨control, true⟩]
                  coordinator := { s.coordinator with task := .awaiting } }, [])
            else (s, [])
        | _ => (s, [])
    | .request control =>
        if s.queue.length < capacity then
          ({ s with queue := s.queue ++ [⟨control, false⟩] }, [])
        else (s, [])
    | .control drawn =>
        match s.queue with
        | [] => (s, [])
        | request :: queue =>
            match s.session.onControl drawn request.control with
            | none => (s, [])
            | some (.error _, session) => ({ s with session, queue, alive := false }, [])
            | some (.ok answer, session) => s.handled request queue answer session
    | .incoming frame => ({ s with session := (s.session.act (.incoming frame)).1 }, [])
    | .other change =>
        ({ s with session := { s.session with session := change s.session.session } }, [])
    | .stop => ({ s with alive := false }, [])
    | .drop drained =>
        match s.coordinator.task with
        | .receiving =>
            if drained.Nodup ∧ drained.toFinset = s.coordinator.txnIds then
              ({ s with
                  queue := abortAll capacity s.queue drained
                  coordinator := ⟨∅, .dropped⟩ }, [])
            else (s, [])
        | _ => (s, [])

/-- A session with anything on its channel, to which a coordinator attaches. -/
def start (session : TxnSession S) (queue : List SessionControl) : ControlSystem S :=
  ⟨session, true, queue.map (⟨·, false⟩), ⟨∅, .receiving⟩, ∅⟩

/-- A dead coordinator has an abort on the channel for each of its transactions. -/
def NoOrphans (s : ControlSystem S) : Prop :=
  s.alive = true → s.coordinator.task = .dropped →
    ∀ txnId ∈ s.held, ⟨.abortTransaction txnId, false⟩ ∈ s.queue

/-- The coordinator is dropped while the channel has room for all its transactions. -/
def RoomAtDrop (capacity : Nat) (s : ControlSystem S) : CoordinatorEvent S → Prop
  | .drop _ => s.coordinator.task = .receiving →
      s.queue.length + s.coordinator.txnIds.card ≤ capacity
  | _ => True

/-! ## Where a transaction is accounted for -/

/-- Every transaction that the session holds for the coordinator is in its set, or is being
discharged; for a dead coordinator its abort is on the channel. -/
structure Accounted (s : ControlSystem S) : Prop where
  idle : s.coordinator.task ≠ .awaiting → ∀ request ∈ s.queue, request.awaited = false
  once : s.queue.countP (·.awaited) ≤ 1
  known : s.coordinator.task ≠ .dropped → ∀ txnId ∈ s.held, txnId ∈ s.coordinator.txnIds ∨
    (∃ control, s.coordinator.task = .sending control ∧ control.discharges = some txnId) ∨
    ∃ request ∈ s.queue, request.awaited = true ∧ request.control.discharges = some txnId
  aborted : s.coordinator.task = .dropped →
    ∀ txnId ∈ s.held, ⟨.abortTransaction txnId, false⟩ ∈ s.queue

variable {s : ControlSystem S} {capacity : Nat}

theorem countP_awaited_eq_zero {queue : List ControlRequest}
    (h : ∀ request ∈ queue, request.awaited = false) : queue.countP (·.awaited) = 0 := by
  rw [List.countP_eq_zero]
  intro request hmem
  simp [h request hmem]

omit [EndpointSession S] in
theorem mem_heldAfter {control : SessionControl} {txnId : TransactionId}
    (h : txnId ∈ s.heldAfter control) : txnId ∈ s.held ∧ control.discharges ≠ some txnId := by
  simp only [heldAfter] at h
  cases hdischarges : control.discharges with
  | none =>
      rw [hdischarges] at h
      exact ⟨h, by simp⟩
  | some discharged =>
      rw [hdischarges] at h
      obtain ⟨hne, hheld⟩ := Finset.mem_erase.mp h
      exact ⟨hheld, by simpa using Ne.symm hne⟩

omit [EndpointSession S] in
theorem accounted_start (session : TxnSession S) (queue : List SessionControl) :
    (start session queue).Accounted := by
  constructor
  · intro _ request hmem
    obtain ⟨control, -, rfl⟩ := List.mem_map.mp hmem
    rfl
  · refine (countP_awaited_eq_zero fun request hmem => ?_).trans_le (Nat.zero_le 1)
    obtain ⟨control, -, rfl⟩ := List.mem_map.mp hmem
    rfl
  · intro _ txnId hmem
    cases hmem
  · intro hdropped
    cases hdropped

omit [EndpointSession S] in
/-- A control that nobody of the coordinator waits for. -/
theorem Accounted.request (h : s.Accounted) (control : SessionControl) :
    Accounted { s with queue := s.queue ++ [⟨control, false⟩] } := by
  constructor
  · intro htask request hmem
    rcases List.mem_append.mp hmem with hmem | hmem
    · exact h.idle htask request hmem
    · rw [List.mem_singleton.mp hmem]
  · simpa using h.once
  · intro htask txnId hmem
    rcases h.known htask txnId hmem with hknown | hsending | ⟨request, hqueued, hrequest⟩
    · exact .inl hknown
    · exact .inr (.inl hsending)
    · exact .inr (.inr ⟨request, List.mem_append_left _ hqueued, hrequest⟩)
  · intro htask txnId hmem
    exact List.mem_append_left _ (h.aborted htask txnId hmem)

omit [EndpointSession S] in
theorem Accounted.send (h : s.Accounted) {control : SessionControl}
    (htask : s.coordinator.task = .sending control) :
    Accounted { s with
      queue := s.queue ++ [⟨control, true⟩]
      coordinator := { s.coordinator with task := .awaiting } } := by
  have hidle := h.idle (by simp [htask])
  have hnone := countP_awaited_eq_zero hidle
  constructor
  · intro hne
    exact absurd rfl hne
  · simp [hnone]
  · intro _ txnId hmem
    rcases h.known (by simp [htask]) txnId hmem with hknown | ⟨sending, hsending, hdischarges⟩ |
      ⟨request, hqueued, hrequest, -⟩
    · exact .inl hknown
    · rw [htask] at hsending
      cases hsending
      exact .inr (.inr ⟨⟨control, true⟩, by simp, rfl, hdischarges⟩)
    · rw [hidle request hqueued] at hrequest
      cases hrequest
  · intro hdropped
    cases hdropped

omit [EndpointSession S] in
theorem Accounted.handled (h : s.Accounted) {request : ControlRequest} {queue : List ControlRequest}
    (hqueue : s.queue = request :: queue) (answer : Except TransactionError SuccessfulOutcome)
    (session : TxnSession S) : (s.handled request queue answer session).1.Accounted := by
  have hinQueue : ∀ other ∈ queue, other ∈ s.queue := by
    intro other hmem
    rw [hqueue]
    exact List.mem_cons_of_mem request hmem
  have honce := h.once
  rw [hqueue, List.countP_cons] at honce
  cases hawaited : request.awaited with
  | false =>
      simp only [ControlSystem.handled, hawaited, Bool.false_eq_true, if_false]
      constructor
      · intro htask other hmem
        exact h.idle htask other (hinQueue other hmem)
      · exact le_trans (Nat.le_add_right _ _) honce
      · intro htask txnId hmem
        obtain ⟨hheld, -⟩ := mem_heldAfter hmem
        rcases h.known htask txnId hheld with hknown | hsending | ⟨other, hqueued, hother, hdischarges⟩
        · exact .inl hknown
        · exact .inr (.inl hsending)
        · refine .inr (.inr ⟨other, ?_, hother, hdischarges⟩)
          rw [hqueue] at hqueued
          rcases List.mem_cons.mp hqueued with rfl | hqueued
          · rw [hawaited] at hother
            cases hother
          · exact hqueued
      · intro htask txnId hmem
        obtain ⟨hheld, hne⟩ := mem_heldAfter hmem
        have hqueued := h.aborted htask txnId hheld
        rw [hqueue] at hqueued
        rcases List.mem_cons.mp hqueued with rfl | hqueued
        · exact absurd rfl hne
        · exact hqueued
  | true =>
      -- the coordinator was waiting for this answer, and for no other
      have htask : s.coordinator.task = .awaiting := by
        by_contra hne
        have hfalse := h.idle hne request (by simp [hqueue])
        rw [hawaited] at hfalse
        cases hfalse
      have hrest : ∀ other ∈ queue, other.awaited = false := by
        have hzero : queue.countP (·.awaited) = 0 := by
          rw [if_pos hawaited] at honce
          omega
        intro other hmem
        simpa using List.countP_eq_zero.mp hzero other hmem
      simp only [ControlSystem.handled, hawaited, if_true, TxnCoordinator.resume]
      constructor
      · intro _ other hmem
        exact hrest other hmem
      · exact (countP_awaited_eq_zero hrest).trans_le (Nat.zero_le 1)
      · intro _ txnId hmem
        left
        have hold : txnId ∈ s.heldAfter request.control → txnId ∈ s.coordinator.txnIds := by
          intro hafter
          obtain ⟨hheld, hne⟩ := mem_heldAfter hafter
          rcases h.known (by simp [htask]) txnId hheld with hknown | ⟨control, hsending, -⟩ |
            ⟨other, hqueued, hother, hdischarges⟩
          · exact hknown
          · rw [htask] at hsending
            cases hsending
          · rw [hqueue] at hqueued
            rcases List.mem_cons.mp hqueued with rfl | hqueued
            · exact absurd hdischarges hne
            · rw [hrest other hqueued] at hother
              cases hother
        cases answer with
        | error error => exact hold hmem
        | ok outcome =>
            cases outcome with
            | accepted => exact hold hmem
            | declared declared =>
                rcases Finset.mem_insert.mp hmem with rfl | hmem
                · exact Finset.mem_insert_self txnId _
                · exact Finset.mem_insert_of_mem (hold hmem)
      · intro hdropped
        cases hdropped

/-- With room for all ids, every one of them is sent. -/
theorem abortAll_of_room {capacity : Nat} {queue : List ControlRequest} {txnIds : List TransactionId}
    (h : queue.length + txnIds.length ≤ capacity) :
    abortAll capacity queue txnIds =
      queue ++ txnIds.map fun txnId => ⟨.abortTransaction txnId, false⟩ := by
  induction txnIds generalizing queue with
  | nil => simp [abortAll]
  | cons txnId txnIds ih =>
      rw [List.length_cons] at h
      rw [abortAll, if_pos (by omega), ih (by simp only [List.length_append, List.length_singleton]; omega)]
      simp

omit [EndpointSession S] in
theorem Accounted.drop (h : s.Accounted) (htask : s.coordinator.task = .receiving)
    {drained : List TransactionId} (hnodup : drained.Nodup)
    (hall : drained.toFinset = s.coordinator.txnIds)
    (hroom : s.queue.length + s.coordinator.txnIds.card ≤ capacity) :
    Accounted { s with queue := abortAll capacity s.queue drained, coordinator := ⟨∅, .dropped⟩ } := by
  have hidle := h.idle (by simp [htask])
  rw [← hall, List.toFinset_card_of_nodup hnodup] at hroom
  rw [abortAll_of_room hroom]
  have hnone : ∀ request ∈ s.queue ++ drained.map fun txnId => ⟨.abortTransaction txnId, false⟩,
      request.awaited = false := by
    intro request hmem
    rcases List.mem_append.mp hmem with hmem | hmem
    · exact hidle request hmem
    · obtain ⟨txnId, -, rfl⟩ := List.mem_map.mp hmem
      rfl
  constructor
  · exact fun _ => hnone
  · exact (countP_awaited_eq_zero hnone).trans_le (Nat.zero_le 1)
  · intro hne
    exact absurd rfl hne
  · intro _ txnId hmem
    rcases h.known (by simp [htask]) txnId hmem with hknown | ⟨control, hsending, -⟩ |
      ⟨request, hqueued, hrequest, -⟩
    · have hdrained : txnId ∈ drained := by
        rw [← hall] at hknown
        exact List.mem_toFinset.mp hknown
      exact List.mem_append_right _ (List.mem_map.mpr ⟨txnId, hdrained, rfl⟩)
    · rw [htask] at hsending
      cases hsending
    · rw [hidle request hqueued] at hrequest
      cases hrequest

omit [EndpointSession S] in
/-- A step of the coordinator that takes an id from its set only to discharge it. -/
theorem Accounted.onDischarge (h : s.Accounted) (htask : s.coordinator.task = .receiving)
    (txnId : TransactionId) (fail : Option Bool) :
    Accounted { s with coordinator := (s.coordinator.onDischarge txnId fail).2 } := by
  simp only [TxnCoordinator.onDischarge]
  split_ifs with hmem
  · have hidle := h.idle (by simp [htask])
    constructor
    · exact fun _ => hidle
    · exact h.once
    · intro _ held hheld
      rcases h.known (by simp [htask]) held hheld with hknown | ⟨control, hsending, -⟩ | hqueued
      · by_cases hsame : held = txnId
        · subst hsame
          refine .inr (.inl ⟨_, rfl, ?_⟩)
          split <;> rfl
        · exact .inl (Finset.mem_erase.mpr ⟨hsame, hknown⟩)
      · rw [htask] at hsending
        cases hsending
      · exact .inr (.inr hqueued)
    · intro hdropped
      cases hdropped
  · exact h

omit [EndpointSession S] in
theorem Accounted.onDeclare (h : s.Accounted) (htask : s.coordinator.task = .receiving)
    (globalId : Option TransactionId) :
    Accounted { s with coordinator := (s.coordinator.onDeclare globalId).2 } := by
  cases globalId with
  | some globalId => exact h
  | none =>
      constructor
      · exact fun _ => h.idle (by simp [htask])
      · exact h.once
      · intro _ held hheld
        rcases h.known (by simp [htask]) held hheld with hknown | ⟨control, hsending, -⟩ | hqueued
        · exact .inl hknown
        · rw [htask] at hsending
          cases hsending
        · exact .inr (.inr hqueued)
      · intro hdropped
        cases hdropped

omit [EndpointSession S] in
/-- What happens to the session behind the channel does not matter. -/
theorem Accounted.session (h : s.Accounted) (session : TxnSession S) :
    Accounted { s with session } :=
  ⟨h.idle, h.once, h.known, h.aborted⟩

theorem Accounted.control (h : s.Accounted) (drawn : List TransactionId)
    (halive : (s.step capacity (.control drawn)).1.alive = true) :
    (s.step capacity (.control drawn)).1.Accounted := by
  simp only [ControlSystem.step] at halive ⊢
  split_ifs at halive ⊢
  · exact h
  · cases hqueue : s.queue with
    | nil => exact h
    | cons request queue =>
        rw [hqueue] at halive
        dsimp only at halive ⊢
        cases hcontrol : s.session.onControl drawn request.control with
        | none => exact h
        | some result =>
            obtain ⟨answer, session⟩ := result
            rw [hcontrol] at halive
            cases answer with
            | error error => cases halive
            | ok answer => exact h.handled hqueue answer session

theorem Accounted.step (h : s.Accounted) {e : CoordinatorEvent S} (hroom : s.RoomAtDrop capacity e)
    (halive : (s.step capacity e).1.alive = true) : (s.step capacity e).1.Accounted := by
  cases e with
  | control drawn => exact h.control drawn halive
  | request control =>
      simp only [ControlSystem.step]
      split_ifs
      · exact h
      · exact h.request control
      · exact h
  | incoming frame =>
      simp only [ControlSystem.step]
      split_ifs
      · exact h
      · exact h.session _
  | other change =>
      simp only [ControlSystem.step]
      split_ifs
      · exact h
      · exact h.session _
  | stop =>
      simp only [ControlSystem.step]
      split_ifs
      · exact h
      · exact ⟨h.idle, h.once, h.known, h.aborted⟩
  | declare globalId =>
      simp only [ControlSystem.step]
      split_ifs
      · exact h
      · cases htask : s.coordinator.task with
        | receiving => exact h.onDeclare htask globalId
        | _ => exact h
  | discharge txnId fail =>
      simp only [ControlSystem.step]
      split_ifs
      · exact h
      · cases htask : s.coordinator.task with
        | receiving => exact h.onDischarge htask txnId fail
        | _ => exact h
  | send =>
      cases htask : s.coordinator.task with
      | sending control =>
          simp only [ControlSystem.step, htask]
          split_ifs
          · exact h
          · exact h.send htask
          · exact h
      | _ =>
          simp only [ControlSystem.step, htask]
          split_ifs <;> exact h
  | drop drained =>
      cases htask : s.coordinator.task with
      | receiving =>
          simp only [ControlSystem.step, htask]
          split_ifs with hdead hdrained
          · exact h
          · exact h.drop htask hdrained.1 hdrained.2 (hroom htask)
          · exact h
      | _ =>
          simp only [ControlSystem.step, htask]
          split_ifs <;> exact h

/-- In every run in which the coordinator is dropped only while the channel has room for the aborts of
all its transactions, no state has an orphan. -/
theorem no_orphans (capacity : Nat) (session : TxnSession S) (queue : List SessionControl)
    (events : List (CoordinatorEvent S))
    (hroom : Run.Along (step capacity) (RoomAtDrop capacity) (start session queue) events) :
    ∀ earlier, earlier <+: events →
      (Run.run (step capacity) (start session queue) earlier).1.NoOrphans := by
  rintro earlier ⟨later, rfl⟩
  intro halive hdropped
  have hinvariant : (Run.run (step capacity) (start session queue) earlier).1.alive = true →
      (Run.run (step capacity) (start session queue) earlier).1.Accounted := by
    apply Run.invariant_of_along (I := fun (s : ControlSystem S) => s.alive = true → s.Accounted)
    · intro s e h hroom halive
      refine (h ?_).step hroom halive
      -- a dead session is not followed
      by_contra hdead
      simp only [Bool.not_eq_true] at hdead
      simp [step, hdead] at halive
    · exact fun _ => accounted_start session queue
    · exact (Run.along_append.mp hroom).1
  exact (hinvariant halive).aborted hdropped

section FullChannel

private def bareSession : TxnSession Session :=
  .fresh (SessionBuilder.intoSession {} 0 .mapped LinkStore.empty)

private def declaredTwice : List (CoordinatorEvent Session) :=
  [.declare none, .send, .control [[1]], .declare none, .send, .control [[1], [2]],
    .request (.deallocateLink ⟨7⟩)]

/-- A single control of another task fills the channel, and the abort is not sent. -/
theorem full_channel_orphans :
    ¬(Run.run (step 1) (start bareSession [])
      (declaredTwice ++ [.drop [[1], [2]]])).1.NoOrphans := by
  intro h
  have habort := h rfl rfl [1] (by decide)
  obtain habort | habort := List.mem_cons.mp habort
  · cases habort
  · cases habort

theorem no_orphans_with_room :
    (Run.run (step 3) (start bareSession [])
      (declaredTwice ++ [.drop [[1], [2]]])).1.NoOrphans := by
  refine no_orphans 3 bareSession [] (declaredTwice ++ [.drop [[1], [2]]]) ?_ _ List.prefix_rfl
  exact ⟨trivial, trivial, trivial, trivial, trivial, trivial, trivial, fun _ => by decide, trivial⟩

end FullChannel

end ControlSystem

end Fe2o3Amqp
