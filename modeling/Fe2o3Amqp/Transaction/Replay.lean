import Fe2o3Amqp.Transaction.Commit
import Fe2o3Amqp.Util.Segments

/-!
# Deliveries across a commit

A commit hands the transfers of a transaction to their links at whatever moment the discharge comes.
The links are given whole deliveries, one after another, as long as no commit comes while one of its
links is inside a delivery that is handed over frame by frame, or that belongs to the transaction.
-/

namespace Fe2o3Amqp

namespace TxnWorkFrame

/-- The handle on which a transfer arrives. -/
def handle? : TxnWorkFrame → Option InputHandle
  | post transfer _ => some ⟨transfer.handle⟩
  | retire _ => none

/-- The last frame of a delivery: there is no more of it, or it is aborted. -/
def endsDelivery : TxnWorkFrame → Bool
  | post transfer _ => !transfer.more || transfer.aborted
  | retire _ => true

/-- The frame goes on with the delivery that `first` has started. -/
def Continues (first : TxnWorkFrame) : TxnWorkFrame → Prop
  | post transfer _ =>
      match first with
      | post start _ =>
          (transfer.deliveryId = none ∨ transfer.deliveryId = start.deliveryId) ∧
            (transfer.deliveryTag = none ∨ transfer.deliveryTag = start.deliveryTag) ∧
            transactionOf transfer.state = transactionOf start.state
      | retire _ => False
  | retire _ => False

theorem Continues.transaction_eq {first frame : TxnWorkFrame} (h : first.Continues frame) :
    frame.transaction = first.transaction := by
  cases frame with
  | retire disposition => exact h.elim
  | post transfer payload =>
      cases first with
      | retire disposition => exact h.elim
      | post start payload' => exact h.2.2

@[simp] theorem handle?_carried (frame : TxnWorkFrame) : frame.carried.handle? = frame.handle? := by
  cases frame <;> simp only [carried, discharged] <;> split_ifs <;> rfl

@[simp] theorem endsDelivery_carried (frame : TxnWorkFrame) :
    frame.carried.endsDelivery = frame.endsDelivery := by
  cases frame <;> simp only [carried, discharged] <;> split_ifs <;> rfl

end TxnWorkFrame

/-- The transfers on a handle. -/
def onHandle (handle : InputHandle) (frames : List TxnWorkFrame) : List TxnWorkFrame :=
  frames.filter fun frame => frame.handle? = some handle

/-- The deliveries that the transfers on a handle make up. -/
def deliveriesOn (handle : InputHandle) (frames : List TxnWorkFrame) : Segments TxnWorkFrame :=
  Segments.of TxnWorkFrame.endsDelivery (onHandle handle frames)

section Streams

variable {handle : InputHandle} {frames : List TxnWorkFrame} {frame : TxnWorkFrame}

theorem onHandle_append (frames' : List TxnWorkFrame) :
    onHandle handle (frames ++ frames') = onHandle handle frames ++ onHandle handle frames' :=
  List.filter_append ..

theorem onHandle_snoc (h : frame.handle? = some handle) :
    onHandle handle (frames ++ [frame]) = onHandle handle frames ++ [frame] := by
  rw [onHandle_append]
  simp [onHandle, h]

theorem onHandle_snoc_other (h : frame.handle? ≠ some handle) :
    onHandle handle (frames ++ [frame]) = onHandle handle frames := by
  rw [onHandle_append]
  simp [onHandle, h]

theorem onHandle_carried (handle : InputHandle) (frames : List TxnWorkFrame) :
    onHandle handle (frames.map TxnWorkFrame.carried) =
      (onHandle handle frames).map TxnWorkFrame.carried := by
  simp only [onHandle, List.filter_map]
  congr 2
  funext frame
  simp

theorem deliveriesOn_snoc (frames : List TxnWorkFrame) (h : frame.handle? = some handle) :
    deliveriesOn handle (frames ++ [frame]) =
      (deliveriesOn handle frames).feed TxnWorkFrame.endsDelivery frame := by
  rw [deliveriesOn, onHandle_snoc h]
  exact Segments.of_snoc _ _

theorem deliveriesOn_snoc_other (frames : List TxnWorkFrame) (h : frame.handle? ≠ some handle) :
    deliveriesOn handle (frames ++ [frame]) = deliveriesOn handle frames := by
  rw [deliveriesOn, onHandle_snoc_other h]
  rfl

end Streams

/-! ## The watched session -/

/-- A transactional session over one that records, and the frames that have arrived. -/
structure WatchedTxnSession where
  session : TxnSession (Recorded Session)
  arrived : List TxnWorkFrame

/-- The handle belongs to a receiver link whose endpoint is there. -/
def Session.Receives (s : Session) (handle : InputHandle) : Prop :=
  ∃ link outputHandle mode more,
    s.linkByInputHandle handle = some (.receiver link outputHandle mode more) ∧
      (s.links.cell link).endpointDropped = false

namespace Session

variable {s s' : Session} {handle : InputHandle}

theorem Receives.of_eq (h : s.Receives handle) (hrelays : s'.linkByInputHandle = s.linkByInputHandle)
    (halive : ∀ link, (s'.links.cell link).endpointDropped = (s.links.cell link).endpointDropped) :
    s'.Receives handle := by
  obtain ⟨link, outputHandle, mode, more, hrelay, hlive⟩ := h
  refine ⟨link, outputHandle, mode, more, ?_, ?_⟩
  · rw [hrelays]
    exact hrelay
  · rw [halive]
    exact hlive

/-- An attached link takes its transfers, and no link is detached by one. -/
theorem Receives.transfer {transfer : Transfer} (h : s.Receives ⟨transfer.handle⟩) (payload : Payload) :
    (s.onIncomingTransfer transfer payload).1.isOk ∧
      ∀ handle, s.Receives handle → (s.onIncomingTransfer transfer payload).2.Receives handle := by
  obtain ⟨link, outputHandle, mode, more, hrelay, hlive⟩ := h
  obtain ⟨hok, hlinks, hrelays, -⟩ := onIncomingTransfer_of_receiver payload hrelay hlive
  refine ⟨by rw [hok]; rfl, ?_⟩
  rintro handle ⟨link', outputHandle', mode', more', hrelay', hlive'⟩
  have halive : ∀ link', ((s.onIncomingTransfer transfer payload).2.links.cell link').endpointDropped =
      (s.links.cell link').endpointDropped := by
    intro link'
    rw [hlinks]
    by_cases heq : link' = link
    · subst heq
      simp [LinkStore.modify]
    · simp [LinkStore.modify, heq]
  by_cases heq : handle = ⟨transfer.handle⟩
  · refine ⟨link, outputHandle, mode, if s.awaitsSecond transfer ∧ more then transfer.more else more,
      ?_, (halive link).trans hlive⟩
    rw [hrelays, heq, Function.update_self]
  · refine ⟨link', outputHandle', mode', more', ?_, (halive link').trans hlive'⟩
    rw [hrelays, Function.update_of_ne heq]
    exact hrelay'

theorem foldl_updateDelivery_receivers (disposition : Disposition) (ids : List DeliveryNumber)
    (acc : List DeliveryNumber) (s : Session) :
    (ids.foldl (updateDelivery disposition) (acc, s)).2.linkByInputHandle = s.linkByInputHandle ∧
      ∀ link, ((ids.foldl (updateDelivery disposition) (acc, s)).2.links.cell link).endpointDropped =
        (s.links.cell link).endpointDropped := by
  induction ids generalizing acc s with
  | nil => exact ⟨rfl, fun _ => rfl⟩
  | cons id ids ih =>
      have hstep : (updateDelivery disposition (acc, s) id).2.linkByInputHandle =
            s.linkByInputHandle ∧
          ∀ link, ((updateDelivery disposition (acc, s) id).2.links.cell link).endpointDropped =
            (s.links.cell link).endpointDropped := by
        simp only [updateDelivery]
        cases s.deliveryTagById (disposition.role, id) with
        | none => exact ⟨rfl, fun _ => rfl⟩
        | some entry =>
            obtain ⟨handle, tag⟩ := entry
            dsimp only
            cases s.linkByInputHandle handle with
            | none => exact ⟨rfl, fun _ => rfl⟩
            | some relay =>
                exact ⟨rfl, fun link => (onIncomingDisposition_queues relay _ _ _ tag link).2⟩
      obtain ⟨hrelays, halive⟩ := ih (updateDelivery disposition (acc, s) id).1
        (updateDelivery disposition (acc, s) id).2
      exact ⟨hrelays.trans hstep.1, fun link => (halive link).trans (hstep.2 link)⟩

theorem Receives.disposition (h : s.Receives handle) (disposition : Disposition) :
    (s.onIncomingDisposition disposition).2.Receives handle := by
  simp only [onIncomingDisposition]
  split
  · obtain ⟨hrelays, -, -, halive, -⟩ := foldl_settleDelivery disposition
      (deliveryIds disposition.first (disposition.last.getD disposition.first)) s
    exact h.of_eq hrelays halive
  · obtain ⟨hrelays, halive⟩ := foldl_updateDelivery_receivers disposition
      (deliveryIds disposition.first (disposition.last.getD disposition.first)) [] s
    exact h.of_eq hrelays halive

end Session

namespace WatchedTxnSession

def start (session : Session) : WatchedTxnSession := ⟨.recording session, []⟩

def step (w : WatchedTxnSession) (e : TxnEvent) : WatchedTxnSession × List Disposition :=
  (⟨(w.session.act e).1,
      match e with
      | .incoming frame => w.arrived ++ [frame]
      | _ => w.arrived⟩,
    (w.session.act e).2)

/-- The frames of the delivery that a link is inside of. -/
def inProgress (w : WatchedTxnSession) (handle : InputHandle) : List TxnWorkFrame :=
  (deliveriesOn handle w.arrived).opened

/-- Every delivery that was handed to a link is one that the peer sent, frame by frame; only the one
that is still in progress may be incomplete. -/
def HandsOnWhole (w : WatchedTxnSession) : Prop :=
  ∀ handle, ∀ delivery ∈ (deliveriesOn handle w.session.session.applied).toList,
    ∃ sent ∈ (deliveriesOn handle w.arrived).toList, delivery = sent.map TxnWorkFrame.carried

/-- The peer sends on attached links, and goes on with the delivery it has started. -/
def Orderly (w : WatchedTxnSession) : TxnEvent → Prop
  | .incoming frame => ∀ handle, frame.handle? = some handle →
      w.session.session.session.Receives handle ∧
        ∀ first ∈ (w.inProgress handle).head?, first.Continues frame
  | _ => True

/-- A commit finds no link of its transaction inside a delivery that is not transactional or belongs
to the transaction, and an id is not drawn that a delivery in progress carries. -/
def Undisturbed (w : WatchedTxnSession) : TxnEvent → Prop
  | .commit txnId => ∀ txn, w.session.txns.get txnId = some txn → ∀ frame ∈ txn.frames,
      ∀ handle, frame.handle? = some handle → ∀ first ∈ (w.inProgress handle).head?,
        first.transaction ≠ none ∧ first.transaction ≠ some txnId
  | .declare drawn => ∀ txnId, drawn.find? (fun id => (w.session.txns.get id).isNone) = some txnId →
      ∀ handle, ∀ first ∈ (w.inProgress handle).head?, first.transaction ≠ some txnId
  | _ => True

/-! ## What the session and the transactions hold -/

/-- The delivery in progress on a handle if it goes to `owner`: to a transaction, or at once to the
link. -/
def tailOf (w : WatchedTxnSession) (owner : Option TransactionId) (handle : InputHandle) :
    List TxnWorkFrame :=
  if (w.inProgress handle).head?.map TxnWorkFrame.transaction = some owner then w.inProgress handle
  else []

/-- On every handle the frames are complete deliveries of the peer, and the one in progress if it
goes to `owner`. -/
def Built (w : WatchedTxnSession) (owner : Option TransactionId) (frames : List TxnWorkFrame) : Prop :=
  ∀ handle, ∃ deliveries : List (List TxnWorkFrame),
    (∀ delivery ∈ deliveries, delivery ∈ (deliveriesOn handle w.arrived).closed) ∧
    onHandle handle frames = deliveries.flatten ++ w.tailOf owner handle

/-- The invariant of a run without disturbance. -/
structure Sorted (w : WatchedTxnSession) : Prop where
  handed : ∃ frames, w.session.session.applied = frames.map TxnWorkFrame.carried ∧ w.Built none frames
  posted : ∀ txnId txn, w.session.txns.get txnId = some txn →
    w.Built (some txnId) txn.frames ∧ ∀ frame ∈ txn.frames, frame.transaction = some txnId ∧
      ∀ handle, frame.handle? = some handle → w.session.session.session.Receives handle

variable {w : WatchedTxnSession}

theorem tailOf_nil {owner : Option TransactionId} {handle : InputHandle}
    (h : ∀ first ∈ (w.inProgress handle).head?, first.transaction ≠ owner) :
    w.tailOf owner handle = [] := by
  simp only [tailOf]
  cases hopened : w.inProgress handle with
  | nil => simp
  | cons first rest =>
      have hne := h first (by simp [hopened])
      simp [hne]

theorem tailOf_eq {owner : Option TransactionId} {handle : InputHandle}
    (h : ∀ first ∈ (w.inProgress handle).head?, first.transaction = owner) :
    w.tailOf owner handle = w.inProgress handle := by
  simp only [tailOf]
  cases hopened : w.inProgress handle with
  | nil => simp
  | cons first rest =>
      have heq := h first (by simp [hopened])
      simp [heq]

theorem Sorted.handsOnWhole (h : w.Sorted) : w.HandsOnWhole := by
  obtain ⟨frames, happlied, hbuilt⟩ := h.handed
  intro handle delivery hmem
  obtain ⟨deliveries, hclosed, hframes⟩ := hbuilt handle
  have hopen : ∀ frame ∈ w.tailOf none handle, frame.endsDelivery = false := by
    intro frame hframe
    simp only [tailOf] at hframe
    split_ifs at hframe
    · exact Segments.opened_of _ frame hframe
    · cases hframe
  have hcut : deliveriesOn handle frames = ⟨deliveries, w.tailOf none handle⟩ := by
    rw [deliveriesOn, hframes]
    exact Segments.of_flatten (fun segment hsegment =>
      Segments.closed_of _ segment (hclosed segment hsegment)) hopen
  have hcarried : deliveriesOn handle w.session.session.applied =
      ⟨deliveries.map (List.map TxnWorkFrame.carried),
        (w.tailOf none handle).map TxnWorkFrame.carried⟩ := by
    rw [happlied, deliveriesOn, onHandle_carried,
      Segments.of_map TxnWorkFrame.endsDelivery_carried]
    rw [deliveriesOn] at hcut
    rw [hcut]
  rw [hcarried] at hmem
  simp only [Segments.toList, List.mem_append] at hmem ⊢
  rcases hmem with hmem | hmem
  · obtain ⟨sent, hsent, rfl⟩ := List.mem_map.mp hmem
    exact ⟨sent, .inl (hclosed sent hsent), rfl⟩
  · split_ifs at hmem with hnil
    · cases hmem
    · rw [List.mem_singleton] at hmem
      simp only [tailOf] at hnil hmem
      split_ifs at hnil hmem with howner
      · refine ⟨w.inProgress handle, .inr ?_, hmem⟩
        have hne : (deliveriesOn handle w.arrived).opened ≠ [] := by
          intro heq
          exact hnil (by simp [inProgress, heq])
        rw [if_neg hne]
        exact List.mem_singleton_self _
      · exact absurd rfl hnil

/-! ## Arrivals -/

/-- A frame joins the frames of its own owner, and no others. -/
theorem Built.arrive {owner : Option TransactionId} {frames : List TxnWorkFrame}
    (h : w.Built owner frames) {frame : TxnWorkFrame}
    (hcontinues : ∀ handle, frame.handle? = some handle →
      ∀ first ∈ (w.inProgress handle).head?, frame.transaction = first.transaction)
    (session : TxnSession (Recorded Session)) :
    Built ⟨session, w.arrived ++ [frame]⟩ owner
      (if frame.transaction = owner then frames ++ [frame] else frames) := by
  intro handle
  obtain ⟨deliveries, hclosed, hframes⟩ := h handle
  by_cases hhandle : frame.handle? = some handle
  · have hfirst := hcontinues handle hhandle
    have hcut := deliveriesOn_snoc w.arrived hhandle
    by_cases howner : frame.transaction = owner
    · -- the delivery in progress, if there is one, has the same owner
      have htail : w.tailOf owner handle = w.inProgress handle :=
        tailOf_eq fun first hmem => (hfirst first hmem).symm.trans howner
      have hhead : ∀ first ∈ (w.inProgress handle ++ [frame]).head?, first.transaction = owner := by
        intro first hmem
        cases hopened : w.inProgress handle with
        | nil =>
            rw [hopened] at hmem
            obtain rfl : frame = first := by simpa using hmem
            exact howner
        | cons first' rest =>
            rw [hopened] at hmem hfirst
            obtain rfl : first' = first := by simpa using hmem
            exact (hfirst first' (by simp)).symm.trans howner
      rw [if_pos howner, onHandle_snoc hhandle, hframes, htail]
      simp only [inProgress] at hhead
      cases hends : frame.endsDelivery with
      | true =>
          simp only [Segments.feed, hends, if_true] at hcut
          refine ⟨deliveries ++ [w.inProgress handle ++ [frame]], fun delivery hmem => ?_, ?_⟩
          · rw [hcut]
            rcases List.mem_append.mp hmem with hmem | hmem
            · exact List.mem_append_left _ (hclosed delivery hmem)
            · exact List.mem_append_right _ hmem
          · rw [tailOf_nil]
            · simp
            · simp [inProgress, hcut]
      | false =>
          simp only [Segments.feed, hends, Bool.false_eq_true, if_false] at hcut
          refine ⟨deliveries, fun delivery hmem => ?_, ?_⟩
          · rw [hcut]
            exact hclosed delivery hmem
          · rw [tailOf_eq]
            · simp [inProgress, hcut]
            · simpa [inProgress, hcut] using hhead
    · have htail : w.tailOf owner handle = [] :=
        tailOf_nil fun first hmem heq => howner ((hfirst first hmem).trans heq)
      rw [if_neg howner, hframes, htail]
      have hnil : tailOf ⟨session, w.arrived ++ [frame]⟩ owner handle = [] := by
        apply tailOf_nil
        intro first hmem heq
        simp only [inProgress, hcut, Segments.feed] at hmem
        split_ifs at hmem
        · cases hmem
        · cases hopened : w.inProgress handle with
          | nil =>
              simp only [inProgress] at hopened
              rw [hopened] at hmem
              obtain rfl : frame = first := by simpa using hmem
              exact howner heq
          | cons first' rest =>
              have hsame := hfirst first' (by simp [hopened])
              simp only [inProgress] at hopened
              rw [hopened] at hmem
              obtain rfl : first' = first := by simpa using hmem
              exact howner (hsame.trans heq)
      rw [hnil]
      refine ⟨deliveries, fun delivery hmem => ?_, rfl⟩
      rw [hcut, Segments.feed]
      split_ifs
      · exact List.mem_append_left _ (hclosed delivery hmem)
      · exact hclosed delivery hmem
  · have hcut := deliveriesOn_snoc_other w.arrived hhandle
    have htail : tailOf ⟨session, w.arrived ++ [frame]⟩ owner handle = w.tailOf owner handle := by
      simp [tailOf, inProgress, hcut]
    refine ⟨deliveries, ?_, ?_⟩
    · rw [hcut]
      exact hclosed
    · rw [htail, ← hframes]
      split_ifs
      · exact onHandle_snoc_other hhandle
      · rfl

/-- What a frame does that arrives on an attached link: it is applied as it is, refused, or buffered
under its transaction. -/
theorem incoming_cases (s : TxnSession (Recorded Session)) (frame : TxnWorkFrame)
    (hattached : ∀ handle, frame.handle? = some handle → s.session.session.Receives handle) :
    (frame.transaction = none ∧ ∃ session,
        (s.act (.incoming frame)).1 = { s with session := ⟨session, s.session.applied ++ [frame]⟩ } ∧
          ∀ handle, s.session.session.Receives handle → session.Receives handle) ∨
      (∃ txnId, frame.transaction = some txnId ∧ s.txns.get txnId = none ∧
        (s.act (.incoming frame)).1 = s) ∨
      ∃ txnId, frame.transaction = some txnId ∧
        (s.act (.incoming frame)).1.session = s.session ∧
          ∀ id, (s.act (.incoming frame)).1.txns.get id =
            if id = txnId then (s.txns.get txnId).map (·.push frame) else s.txns.get id := by
  cases frame with
  | post transfer payload =>
      cases hstate : transactionOf transfer.state with
      | none =>
          obtain ⟨-, hreceives⟩ := (hattached _ rfl).transfer payload
          refine .inl ⟨hstate, (s.session.session.onIncomingTransfer transfer payload).2, ?_, hreceives⟩
          simp only [TxnSession.act, TxnSession.onIncomingTransfer, hstate,
            EndpointSession.onIncomingTransfer]
          cases s.session.session.onIncomingTransfer transfer payload with
          | mk result session => cases result <;> rfl
      | some txnId =>
          right
          cases hget : s.txns.get txnId with
          | none =>
              refine .inl ⟨txnId, hstate, hget, ?_⟩
              simp only [TxnSession.act, TxnSession.onIncomingTransfer, hstate, hget]
          | some txn =>
              refine .inr ⟨txnId, hstate, ?_⟩
              simp [TxnSession.act, TxnSession.onIncomingTransfer, hstate, hget,
                ResourceTransaction.onIncomingPost, IndexMap.get_modify]
  | retire disposition =>
      cases hstate : transactionOf disposition.state with
      | none =>
          refine .inl ⟨hstate, (s.session.session.onIncomingDisposition disposition).2, ?_, ?_⟩
          · simp only [TxnSession.act, TxnSession.onIncomingDisposition, hstate,
              EndpointSession.onIncomingDisposition]
          · intro handle hreceives
            exact hreceives.disposition disposition
      | some txnId =>
          right
          cases hget : s.txns.get txnId with
          | none =>
              refine .inl ⟨txnId, hstate, hget, ?_⟩
              simp only [TxnSession.act, TxnSession.onIncomingDisposition, hstate, hget]
          | some txn =>
              refine .inr ⟨txnId, hstate, ?_⟩
              simp [TxnSession.act, TxnSession.onIncomingDisposition, hstate, hget,
                IndexMap.get_modify]

theorem Sorted.incoming (h : w.Sorted) {frame : TxnWorkFrame} (horderly : w.Orderly (.incoming frame)) :
    (w.step (.incoming frame)).1.Sorted := by
  have hattached : ∀ handle, frame.handle? = some handle → w.session.session.session.Receives handle :=
    fun handle hhandle => (horderly handle hhandle).1
  have hcontinues : ∀ handle, frame.handle? = some handle →
      ∀ first ∈ (w.inProgress handle).head?, frame.transaction = first.transaction :=
    fun handle hhandle first hmem => ((horderly handle hhandle).2 first hmem).transaction_eq
  obtain ⟨frames, happlied, hbuilt⟩ := h.handed
  have hordinary := hbuilt.arrive hcontinues (w.session.act (.incoming frame)).1
  rcases incoming_cases w.session frame hattached with
    ⟨hnone, session, hact, hreceives⟩ | ⟨txnId, hposted, hget, hact⟩ |
      ⟨txnId, hposted, hsession, htxns⟩
  · rw [if_pos hnone] at hordinary
    constructor
    · refine ⟨frames ++ [frame], ?_, hordinary⟩
      have hcarried : frame.carried = frame := by simp [TxnWorkFrame.carried, hnone]
      simp [step, hact, happlied, hcarried]
    · intro txnId txn hget
      simp only [step, hact] at hget ⊢
      obtain ⟨hbuilt', hframes⟩ := h.posted txnId txn hget
      have harrive := hbuilt'.arrive hcontinues { w.session with
        session := ⟨session, w.session.session.applied ++ [frame]⟩ }
      rw [if_neg (by simp [hnone])] at harrive
      refine ⟨harrive, fun frame' hmem => ⟨(hframes frame' hmem).1, fun handle hhandle => ?_⟩⟩
      exact hreceives handle ((hframes frame' hmem).2 handle hhandle)
  · rw [if_neg (by simp [hposted])] at hordinary
    constructor
    · refine ⟨frames, ?_, hordinary⟩
      simp [step, hact, happlied]
    · intro txnId' txn hget'
      simp only [step, hact] at hget' ⊢
      obtain ⟨hbuilt', hframes⟩ := h.posted txnId' txn hget'
      have hother : frame.transaction ≠ some txnId' := by
        intro heq
        have hsame := hposted.symm.trans heq
        cases hsame
        rw [hget] at hget'
        cases hget'
      have harrive := hbuilt'.arrive hcontinues w.session
      rw [if_neg hother] at harrive
      exact ⟨harrive, hframes⟩
  · rw [if_neg (by simp [hposted])] at hordinary
    constructor
    · refine ⟨frames, ?_, hordinary⟩
      simp [step, hsession, happlied]
    · intro txnId' txn hget'
      simp only [step, htxns, hsession] at hget' ⊢
      split_ifs at hget' with hsame
      · subst hsame
        obtain ⟨txn', hget, rfl⟩ := Option.map_eq_some_iff.mp hget'
        obtain ⟨hbuilt', hframes⟩ := h.posted txnId' txn' hget
        have harrive := hbuilt'.arrive hcontinues (w.session.act (.incoming frame)).1
        rw [if_pos hposted] at harrive
        refine ⟨harrive, fun frame' hmem => ?_⟩
        rcases List.mem_append.mp hmem with hmem | hmem
        · exact hframes frame' hmem
        · rw [List.mem_singleton.mp hmem]
          exact ⟨hposted, hattached⟩
      · obtain ⟨hbuilt', hframes⟩ := h.posted txnId' txn hget'
        have harrive := hbuilt'.arrive hcontinues (w.session.act (.incoming frame)).1
        rw [if_neg fun heq => hsame (Option.some.inj (heq.symm.trans hposted))] at harrive
        exact ⟨harrive, hframes⟩

/-! ## Declares and discharges -/

theorem Sorted.declare (h : w.Sorted) {drawn : List TransactionId}
    (hfree : w.Undisturbed (.declare drawn)) : (w.step (.declare drawn)).1.Sorted := by
  simp only [Undisturbed] at hfree
  simp only [step, TxnSession.act, TxnSession.allocateTransactionId_eq]
  cases hdraw : drawn.find? fun id => (w.session.txns.get id).isNone with
  | none => exact ⟨h.handed, h.posted⟩
  | some new =>
      refine ⟨h.handed, fun txnId txn hget => ?_⟩
      simp only [IndexMap.get_insert] at hget
      split_ifs at hget with hsame
      · cases hget
        refine ⟨fun handle => ⟨[], by simp, ?_⟩, by simp [ResourceTransaction.new]⟩
        have hnil : w.tailOf (some txnId) handle = [] := by
          apply tailOf_nil
          rw [hsame]
          exact hfree new hdraw handle
        exact hnil.symm
      · exact h.posted txnId txn hget

/-- The discharge of a transaction without its frames. -/
theorem Sorted.rollback (h : w.Sorted) (txnId : TransactionId) :
    Sorted ⟨(w.session.rollbackTransaction txnId).2, w.arrived⟩ := by
  simp only [TxnSession.rollbackTransaction]
  cases w.session.txns.get txnId with
  | none => exact ⟨h.handed, h.posted⟩
  | some txn =>
      refine ⟨h.handed, fun txnId' txn' hget => ?_⟩
      simp only [IndexMap.get_swapRemove] at hget
      split_ifs at hget
      exact h.posted txnId' txn' hget

/-- A session takes the frames of attached links without an error. -/
theorem applyFrames_attached {s : TxnSession (Recorded Session)} {frames : List TxnWorkFrame}
    (h : ∀ frame ∈ frames, ∀ handle, frame.handle? = some handle → s.session.session.Receives handle) :
    (s.applyFrames frames).1.isOk ∧
      ∀ handle, s.session.session.Receives handle →
        (s.applyFrames frames).2.session.session.Receives handle := by
  induction frames generalizing s with
  | nil => exact ⟨rfl, fun _ hreceives => hreceives⟩
  | cons frame frames ih =>
      have hframe : (s.applyFrame frame).1.isOk ∧ ∀ handle, s.session.session.Receives handle →
          (s.applyFrame frame).2.session.session.Receives handle := by
        cases frame with
        | post transfer payload =>
            have hreceives : s.session.session.Receives ⟨transfer.discharged.handle⟩ :=
              h _ List.mem_cons_self _ rfl
            obtain ⟨hok, hkeeps⟩ := hreceives.transfer payload
            simp only [TxnSession.applyFrame, EndpointSession.onIncomingTransfer]
            cases hout : s.session.session.onIncomingTransfer transfer.discharged payload with
            | mk result session =>
                rw [hout] at hok hkeeps
                cases result with
                | error error => cases hok
                | ok reply => exact ⟨rfl, hkeeps⟩
        | retire disposition =>
            exact ⟨rfl, fun handle hreceives => hreceives.disposition disposition.discharged⟩
      simp only [TxnSession.applyFrames]
      cases hout : s.applyFrame frame with
      | mk result s' =>
          rw [hout] at hframe
          cases result with
          | error error => cases hframe.1
          | ok _ =>
              obtain ⟨hok, hkeeps⟩ := ih (s := s') fun frame' hmem handle hhandle =>
                hframe.2 handle (h frame' (List.mem_cons_of_mem _ hmem) handle hhandle)
              exact ⟨hok, fun handle hreceives => hkeeps handle (hframe.2 handle hreceives)⟩

theorem Sorted.commit (h : w.Sorted) {txnId : TransactionId}
    (hfree : w.Undisturbed (.commit txnId)) : (w.step (.commit txnId)).1.Sorted := by
  simp only [Undisturbed] at hfree
  simp only [step, TxnSession.act]
  cases hget : w.session.txns.get txnId with
  | none =>
      simp only [TxnSession.commitTransaction, hget]
      exact ⟨h.handed, h.posted⟩
  | some txn =>
      obtain ⟨frames, happlied, hbuilt⟩ := h.handed
      obtain ⟨hposted, hframes⟩ := h.posted txnId txn hget
      rw [TxnSession.commitTransaction_live hget]
      obtain ⟨hok, hkeeps⟩ := applyFrames_attached
        (s := { w.session with txns := w.session.txns.swapRemove txnId }) fun frame hmem =>
          (hframes frame hmem).2
      obtain ⟨hadds, htxns⟩ := TxnSession.applyFrames_recorded hok
      constructor
      · refine ⟨frames ++ txn.frames, ?_, fun handle => ?_⟩
        · have hcarried : txn.frames.map TxnWorkFrame.discharged =
              txn.frames.map TxnWorkFrame.carried := by
            refine List.map_congr_left fun frame hmem => ?_
            simp [TxnWorkFrame.carried, (hframes frame hmem).1]
          simp only [Prod.map, id]
          rw [hadds, hcarried, List.map_append, ← happlied]
        · obtain ⟨deliveries, hclosed, hsplit⟩ := hbuilt handle
          obtain ⟨deliveries', hclosed', hsplit'⟩ := hposted handle
          by_cases hnone : onHandle handle txn.frames = []
          · refine ⟨deliveries, hclosed, ?_⟩
            rw [onHandle_append, hnone, List.append_nil]
            exact hsplit
          · -- the transaction has work for the link, which is inside none of the two kinds
            obtain ⟨frame, hmem⟩ := List.exists_mem_of_ne_nil _ hnone
            obtain ⟨hmem, hhandle⟩ := List.mem_filter.mp hmem
            have hinside := hfree txn hget frame hmem handle (by simpa using hhandle)
            have hordinary : w.tailOf none handle = [] :=
              tailOf_nil fun first hfirst => (hinside first hfirst).1
            have hown : w.tailOf (some txnId) handle = [] :=
              tailOf_nil fun first hfirst => (hinside first hfirst).2
            refine ⟨deliveries ++ deliveries', fun delivery hdelivery => ?_, ?_⟩
            · rcases List.mem_append.mp hdelivery with hdelivery | hdelivery
              · exact hclosed delivery hdelivery
              · exact hclosed' delivery hdelivery
            · have hnil : ∀ session, tailOf ⟨session, w.arrived⟩ none handle = [] := fun _ => hordinary
              rw [onHandle_append, hsplit, hsplit', hordinary, hown, hnil, List.flatten_append]
              simp
      · intro txnId' txn' hget'
        simp only [Prod.map, id, htxns, IndexMap.get_swapRemove] at hget'
        split_ifs at hget'
        obtain ⟨hbuilt', hframes'⟩ := h.posted txnId' txn' hget'
        refine ⟨hbuilt', fun frame hmem => ⟨(hframes' frame hmem).1, fun handle hhandle => ?_⟩⟩
        exact hkeeps handle ((hframes' frame hmem).2 handle hhandle)

theorem Sorted.step (h : w.Sorted) {e : TxnEvent} (horderly : w.Orderly e) (hfree : w.Undisturbed e) :
    (w.step e).1.Sorted := by
  cases e with
  | declare drawn => exact h.declare hfree
  | incoming frame => exact h.incoming horderly
  | commit txnId => exact h.commit hfree
  | rollback txnId | abort txnId => exact h.rollback txnId

theorem sorted_start (session : Session) : (start session).Sorted := by
  constructor
  · exact ⟨[], rfl, fun handle => ⟨[], by simp, rfl⟩⟩
  · intro txnId txn hget
    cases hget

/-- The watched session is the transactional session of the run. -/
theorem run_session (w : WatchedTxnSession) (events : List TxnEvent) :
    (Run.run step w events).1.session = (Run.run TxnSession.act w.session events).1 := by
  induction events generalizing w with
  | nil => rfl
  | cons e events ih => exact ih (w.step e).1

/-- In a run in which the peer keeps its deliveries in order, every link is given whole deliveries
one after another in every state reached, if no commit finds one of its links inside a delivery that
is not transactional or is its own. -/
theorem hands_on_whole (session : Session) (events : List TxnEvent)
    (horderly : Run.Along step Orderly (start session) events)
    (hfree : Run.Along step Undisturbed (start session) events) :
    ∀ earlier, earlier <+: events →
      (Run.run step (start session) earlier).1.HandsOnWhole ∧
        (Run.run step (start session) earlier).1.session.forget =
          (Run.run TxnSession.act (TxnSession.fresh session) earlier).1 := by
  rintro earlier ⟨later, rfl⟩
  have horderly' := (Run.along_append.mp horderly).1
  have hfree' := (Run.along_append.mp hfree).1
  have hsorted : (Run.run step (start session) earlier).1.Sorted := by
    apply Run.invariant_of_along (P := fun w e => w.Orderly e ∧ w.Undisturbed e)
    · intro w e h hboth
      exact h.step hboth.1 hboth.2
    · exact sorted_start session
    · exact Run.along_and.mpr ⟨horderly', hfree'⟩
  refine ⟨hsorted.handsOnWhole, ?_⟩
  rw [run_session]
  exact ((TxnSession.recording session).run_forget earlier).1

section OneLink

private def linked : Session :=
  ((SessionBuilder.intoSession {} 0 .mapped LinkStore.empty).allocateIncomingLink "in"
    (.receiver 0 () .first false) ⟨0⟩).2

private def partOf (deliveryId : DeliveryNumber) (more : Bool) (state : Option DeliveryState) : Transfer :=
  { handle := 0, deliveryId := some deliveryId, deliveryTag := some [0], messageFormat := some 0
    settled := some false, more, rcvSettleMode := none, state, resume := false, aborted := false
    batchable := false }

private def postedUnder (txnId : TransactionId) : Option DeliveryState :=
  some (.transactionalState ⟨txnId, some .accepted⟩)

private def declaredAndPosted : List TxnEvent :=
  [.declare [[1]], .incoming (.post (partOf 0 false (postedUnder [1])) [10]),
    .incoming (.post (partOf 1 true none) [11])]

/-- The commit comes between the frames of a delivery, and the link is given the posted frame in the
middle of it. -/
theorem commit_inside_delivery :
    Run.Along step Orderly (start linked) (declaredAndPosted ++ [.commit [1]]) ∧
      ¬(Run.run step (start linked) (declaredAndPosted ++ [.commit [1]])).1.HandsOnWhole := by
  constructor
  · refine ⟨trivial, ?_, ?_, trivial, trivial⟩
    · rintro handle ⟨⟩
      refine ⟨⟨0, ⟨0⟩, .first, false, rfl, rfl⟩, ?_⟩
      rintro first ⟨⟩
    · rintro handle ⟨⟩
      refine ⟨⟨0, ⟨0⟩, .first, false, rfl, rfl⟩, ?_⟩
      rintro first ⟨⟩
  · intro h
    obtain ⟨sent, hsent, hdelivery⟩ := h ⟨0⟩ _ (List.mem_cons_self ..)
    have hlength : ∀ sent ∈ (deliveriesOn ⟨0⟩ (Run.run step (start linked)
        (declaredAndPosted ++ [.commit [1]])).1.arrived).toList, sent.length = 1 := by
      decide
    have htwo := congrArg List.length hdelivery
    rw [List.length_map, hlength sent hsent] at htwo
    exact absurd htwo (by decide)

private def allPosted : List TxnEvent :=
  declaredAndPosted ++ [.incoming (.post (partOf 1 false none) [12]), .commit [1]]

/-- The commit comes behind the last frame of the delivery. -/
theorem commit_behind_delivery :
    (Run.run step (start linked) allPosted).1.HandsOnWhole ∧
      (Run.run step (start linked) allPosted).1.session.forget =
        (Run.run TxnSession.act (TxnSession.fresh linked) allPosted).1 := by
  refine hands_on_whole linked allPosted ?_ ?_ allPosted List.prefix_rfl
  · refine ⟨trivial, ?_, ?_, ?_, trivial, trivial⟩
    · rintro handle ⟨⟩
      refine ⟨⟨0, ⟨0⟩, .first, false, rfl, rfl⟩, ?_⟩
      rintro first ⟨⟩
    · rintro handle ⟨⟩
      refine ⟨⟨0, ⟨0⟩, .first, false, rfl, rfl⟩, ?_⟩
      rintro first ⟨⟩
    · rintro handle ⟨⟩
      refine ⟨⟨0, ⟨0⟩, .first, false, rfl, rfl⟩, ?_⟩
      rintro first ⟨⟩
      exact ⟨.inr rfl, .inr rfl, rfl⟩
  · refine ⟨?_, trivial, trivial, trivial, ?_, trivial⟩
    · rintro txnId ⟨⟩ handle first ⟨⟩
    · rintro txn ⟨⟩ frame hmem handle hhandle first hfirst
      obtain rfl := List.mem_singleton.mp hmem
      cases hhandle
      cases hfirst

end OneLink

end WatchedTxnSession

end Fe2o3Amqp
