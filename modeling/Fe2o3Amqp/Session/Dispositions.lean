import Fe2o3Amqp.Session.LinkEffects

/-!
# Dispositions reach the delivery they name

A session is run together with a record of the identity of every delivery: which one each buffered
first transfer starts, and under which delivery-id each of them left.  The session itself only keeps
`(handle, tag)` for a delivery-id, and entries outlive both the link and the message they were made
for.  As long as no handle and tag under which an entry is still held comes to mean another
delivery, a disposition touches nothing but the deliveries emitted with the ids it covers.
-/

namespace Fe2o3Amqp

/-- The delivery-ids assigned in a list of emitted frames. -/
def deliveryIdsOf (frames : List SessionFrame) : List DeliveryNumber :=
  (transfersOf frames).filterMap (·.1.deliveryId)

/-- A session and the identities of its deliveries: those whose first transfer waits in the buffer,
in the order of the buffer, and those whose first transfer was emitted, with its delivery-id. -/
structure TrackedSession where
  session : Session
  waiting : List OneshotId
  emitted : List (DeliveryNumber × OneshotId)

/-- One step of a run.  `linkFrame` names the delivery to which a first transfer belongs; `register`
and `endpoint` are what link endpoints do to the state they share with the session. -/
inductive SessionAction where
  | incoming (pending : List LinkFrame) (frame : SessionFrame)
  | linkFrame (frame : LinkFrame) (delivery : OneshotId)
  | allocateLink (name : String) (relay : Option (LinkRelay Unit))
  | allocateIncomingLink (name : String) (relay : LinkRelay Unit) (handle : InputHandle)
  | deallocateLink (handle : OutputHandle)
  | sendBegin
  | sendEnd (error : Option Error)
  | register (link : LinkId) (tag : DeliveryTag) (msg : UnsettledMessage)
  | endpoint (links : LinkStore)

/-- `lock.get_or_insert(OrderedMap::new()).insert(delivery_tag, unsettled)`. -/
def LinkStore.register (store : LinkStore) (link : LinkId) (tag : DeliveryTag)
    (msg : UnsettledMessage) : LinkStore :=
  store.modify link fun cell =>
    { cell with senderUnsettled := some ((cell.senderUnsettled.getD IndexMap.empty).insert tag msg) }

namespace TrackedSession

/-- Record what a dispatch emitted; `taken` are the deliveries it was handed. -/
def after (w : TrackedSession) (taken : List OneshotId) (out : Session.Dispatched) :
    TrackedSession :=
  let waiting := w.waiting ++ taken
  let ids := deliveryIdsOf out.frames
  { session := out.session
    waiting := waiting.drop ids.length
    emitted := w.emitted ++ ids.zip waiting }

def withSession (w : TrackedSession) (session : Session) : TrackedSession := { w with session }

/-- The deliveries that a link frame starts; a session that is not mapped takes none. -/
def taken (w : TrackedSession) (frame : LinkFrame) (delivery : OneshotId) : List OneshotId :=
  match frame with
  | .firstTransfer _ => if w.session.localState = .mapped then [delivery] else []
  | _ => []

def step (w : TrackedSession) : SessionAction → TrackedSession
  | .incoming pending frame => w.after [] (w.session.onIncoming pending frame)
  | .linkFrame frame delivery =>
      w.after (w.taken frame delivery) (w.session.onOutgoingLinkFrames frame)
  | .allocateLink name relay => w.withSession (w.session.allocateLink name relay).2
  | .allocateIncomingLink name relay handle =>
      w.withSession (w.session.allocateIncomingLink name relay handle).2
  | .deallocateLink handle => w.withSession (w.session.deallocateLink handle).2
  | .sendBegin => w.withSession w.session.sendBegin.2
  | .sendEnd error => w.withSession (w.session.sendEnd error).2
  | .register link tag msg =>
      w.withSession (w.session.withLinks (w.session.links.register link tag msg))
  | .endpoint links => w.withSession (w.session.withLinks links)

/-- What link endpoints do: first transfers carry a tag and continuations no delivery-id, and apart
from `register` no message appears in an unsettled map. -/
def Possible (w : TrackedSession) : SessionAction → Prop
  | .linkFrame (.firstTransfer frame) _ =>
      BufferedTransfer.WellFormed ⟨frame.inputHandle, frame.performative, frame.payload, true⟩
  | .linkFrame (.transferContinuation frame) _ =>
      BufferedTransfer.WellFormed ⟨frame.inputHandle, frame.performative, frame.payload, false⟩
  | .endpoint links => w.session.links.ShrinksTo links
  | _ => True

/-- The first transfers in the buffer with the deliveries they start. -/
def waitingFirsts (w : TrackedSession) : List (BufferedTransfer × OneshotId) :=
  (w.session.remoteIncomingWindowExhaustedBuffer.filter (·.isFirst)).zip w.waiting

/-- Whatever the session still holds for a handle and a tag belongs to the given delivery. -/
structure Unclaimed (w : TrackedSession) (handle : InputHandle) (tag : DeliveryTag)
    (delivery : OneshotId) : Prop where
  entries : ∀ role id, w.session.deliveryTagById (role, id) = some (handle, tag) →
    role = .receiver ∧ (id, delivery) ∈ w.emitted
  waits : ∀ item delivery', (item, delivery') ∈ w.waitingFirsts → item.inputHandle = handle →
    item.transfer.deliveryTag = some tag → delivery' = delivery

/-- No handle and tag for which the session still holds an entry or a buffered transfer comes to
mean another delivery: not by attaching a link with unsettled messages at a reused handle, not by
sending under a reused tag. -/
def Unambiguous (w : TrackedSession) : SessionAction → Prop
  | .incoming _ ⟨_, .attach attach⟩ =>
      ∀ link outputHandle mode,
        w.session.linkByName attach.name = some (some (.sender link outputHandle mode)) →
        ∀ tag msg, w.session.links.unsettled link tag = some msg →
          w.Unclaimed ⟨attach.handle⟩ tag msg.sender
  | .allocateIncomingLink _ (.sender link _ _) handle =>
      ∀ tag msg, w.session.links.unsettled link tag = some msg → w.Unclaimed handle tag msg.sender
  | .register link tag msg =>
      ∀ handle, w.session.senderAt handle = some link → w.Unclaimed handle tag msg.sender
  | .linkFrame (.firstTransfer frame) delivery =>
      ∀ tag delivery', frame.performative.deliveryTag = some tag →
        w.session.target frame.inputHandle tag = some delivery' → delivery' = delivery
  | _ => True

/-- Steps that link endpoints and the peer can make the session take. -/
def Step (w w' : TrackedSession) : Prop := ∃ action, w.Possible action ∧ w' = w.step action

/-- Steps after which a handle and a tag still mean what they meant before. -/
def UnambiguousStep (w w' : TrackedSession) : Prop :=
  ∃ action, w.Possible action ∧ w.Unambiguous action ∧ w' = w.step action

end TrackedSession

/-! ## The invariant -/

/-- Every entry and every buffered first transfer means the delivery it was made for, wherever its
handle and tag still reach one. -/
structure Sound (target : InputHandle → DeliveryTag → Option OneshotId)
    (byId : Role × DeliveryNumber → Option (InputHandle × DeliveryTag))
    (buffer : List BufferedTransfer) (waiting : List OneshotId)
    (emitted : List (DeliveryNumber × OneshotId)) : Prop where
  wellFormed : ∀ item ∈ buffer, item.WellFormed
  length : waiting.length = firstCount buffer
  entries : ∀ role id handle tag delivery, byId (role, id) = some (handle, tag) →
    target handle tag = some delivery → role = .receiver ∧ (id, delivery) ∈ emitted
  waits : ∀ item delivery tag delivery', (item, delivery) ∈ (buffer.filter (·.isFirst)).zip waiting →
    item.transfer.deliveryTag = some tag → target item.inputHandle tag = some delivery' →
    delivery' = delivery

namespace Sound

variable {target : InputHandle → DeliveryTag → Option OneshotId}
  {byId : Role × DeliveryNumber → Option (InputHandle × DeliveryTag)}
  {item : BufferedTransfer} {items rest buffer : List BufferedTransfer} {waiting : List OneshotId}
  {emitted : List (DeliveryNumber × OneshotId)}

private theorem of_continuation (h : Sound target byId (item :: items) waiting emitted)
    (hfirst : item.isFirst = false) : Sound target byId items waiting emitted where
  wellFormed := fun item' hitem' => h.wellFormed item' (List.mem_cons_of_mem _ hitem')
  length := by
    rw [h.length, firstCount_cons]
    simp [firstCount, hfirst]
  entries := h.entries
  waits := by
    have hwaits := h.waits
    rw [List.filter_cons_of_neg (by simp [hfirst])] at hwaits
    exact hwaits

/-- The first buffered delivery leaves and gets its id. -/
private theorem of_first (h : Sound target byId (item :: items) waiting emitted)
    (hfirst : item.isFirst = true) (id : DeliveryNumber) :
    ∃ delivery waiting', waiting = delivery :: waiting' ∧
      Sound target (register byId id item) items waiting' (emitted ++ [(id, delivery)]) := by
  have hlength := h.length
  have hone : firstCount [item] = 1 := by simp [firstCount, hfirst]
  rw [firstCount_cons, hone] at hlength
  cases waiting with
  | nil =>
      rw [List.length_nil] at hlength
      omega
  | cons delivery waiting' =>
      have hwaits := h.waits
      rw [List.filter_cons_of_pos (by simpa using hfirst), List.zip_cons_cons] at hwaits
      refine ⟨delivery, waiting', rfl, ⟨?_, ?_, ?_, ?_⟩⟩
      · exact fun item' hitem' => h.wellFormed item' (List.mem_cons_of_mem _ hitem')
      · rw [List.length_cons] at hlength
        omega
      · intro role id' handle tag delivery' hentry htarget
        have hold : byId (role, id') = some (handle, tag) → role = .receiver ∧
            (id', delivery') ∈ emitted ++ [(id, delivery)] := fun hentry =>
          (h.entries role id' handle tag delivery' hentry htarget).imp_right
            (List.mem_append_left _)
        by_cases hregistered : item.isFirst && item.unsettled
        · simp only [register, if_pos hregistered] at hentry
          by_cases hkey : (role, id') = (Role.receiver, id)
          · -- the new entry: the delivery that waits at the head of the record
            rw [hkey, Function.update_self] at hentry
            obtain ⟨tag', htag', hpair⟩ := Option.map_eq_some_iff.mp hentry
            cases hpair
            cases hkey
            have := hwaits item delivery tag delivery' (by simp) htag' htarget
            subst this
            exact ⟨rfl, by simp⟩
          · rw [Function.update_of_ne hkey] at hentry
            exact hold hentry
        · simp only [register, if_neg hregistered] at hentry
          exact hold hentry
      · intro item' delivery' tag delivery'' hmem
        exact hwaits item' delivery' tag delivery'' (List.mem_cons_of_mem _ hmem)

/-- Emitting a prefix of the buffer, by induction on the prefix: continuations change nothing, a
first transfer moves the head of the record from `waiting` to `emitted`. -/
theorem sent (h : Sound target byId (items ++ rest) waiting emitted) (id : DeliveryNumber) :
    let ids := (sentTransfers id items).filterMap (·.1.deliveryId)
    Sound target (registerAll byId id items) rest (waiting.drop ids.length)
      (emitted ++ ids.zip waiting) := by
  induction items generalizing byId waiting emitted id with
  | nil => simpa [sentTransfers, registerAll] using h
  | cons item items ih =>
      rw [List.cons_append] at h
      cases hfirst : item.isFirst with
      | false =>
          have hid : item.transfer.deliveryId = none := (h.wellFormed item (by simp)).2 hfirst
          have hregister : register byId id item = byId := by simp [register, hfirst]
          have hrest := ih (h.of_continuation hfirst) id
          simpa [sentTransfers, registerAll, hfirst, BufferedTransfer.asSent, hid, hregister]
            using hrest
      | true =>
          obtain ⟨delivery, waiting', rfl, hnext⟩ := h.of_first hfirst id
          have hrest := ih hnext (id + 1)
          simpa [sentTransfers, registerAll, hfirst, BufferedTransfer.asSent] using hrest

/-- A link hands over a transfer. -/
theorem buffered (h : Sound target byId buffer waiting emitted) (hitem : item.WellFormed)
    (delivery : OneshotId)
    (hmeans : item.isFirst = true → ∀ tag delivery', item.transfer.deliveryTag = some tag →
      target item.inputHandle tag = some delivery' → delivery' = delivery) :
    Sound target byId (buffer ++ [item])
      (waiting ++ if item.isFirst then [delivery] else []) emitted where
  wellFormed := by
    intro item' hitem'
    rcases List.mem_append.mp hitem' with hmem | hmem
    · exact h.wellFormed item' hmem
    · rw [List.mem_singleton.mp hmem]
      exact hitem
  length := by
    rw [List.length_append, h.length, firstCount_append]
    cases hfirst : item.isFirst <;> simp [firstCount, hfirst]
  entries := h.entries
  waits := by
    have hlength : (buffer.filter (·.isFirst)).length = waiting.length := by
      rw [h.length, firstCount, List.countP_eq_length_filter]
    intro item' delivery' tag delivery'' hmem htag htarget
    rw [List.filter_append, List.zip_append hlength] at hmem
    rcases List.mem_append.mp hmem with hmem | hmem
    · exact h.waits item' delivery' tag delivery'' hmem htag htarget
    · cases hfirst : item.isFirst with
      | false => simp [hfirst] at hmem
      | true =>
          simp only [hfirst, List.filter_cons_of_pos, List.filter_nil, if_true, List.zip_cons_cons,
            List.zip_nil_left, List.mem_singleton, Prod.mk.injEq] at hmem
          obtain ⟨rfl, rfl⟩ := hmem
          exact hmeans hfirst tag delivery'' htag htarget

end Sound

/-! ## Steps -/

theorem transfersOf_of_isPlain {frames : List SessionFrame} (h : ∀ frame ∈ frames, frame.isPlain) :
    transfersOf frames = [] := by
  refine List.filterMap_eq_nil_iff.mpr fun frame hframe => ?_
  have hplain := h frame hframe
  cases hbody : frame.body <;> simp_all [SessionFrame.isPlain]

namespace Session

/-- A session that is not mapped takes no link frame. -/
theorem drainLinkFrames_of_ne_mapped (s : Session) (pending : List LinkFrame)
    (h : s.localState ≠ .mapped) :
    (s.drainLinkFrames pending).session = s ∧ (s.drainLinkFrames pending).frames = [] := by
  cases pending with
  | nil => exact ⟨rfl, rfl⟩
  | cons frame pending => simp [drainLinkFrames, onOutgoingLinkFrames, h]

private theorem dispatchEnd_quiet (s : Session) (pending : List LinkFrame) (end' : End) :
    Quiet s (s.dispatchEnd pending end').session ∧
      transfersOf (s.dispatchEnd pending end').frames = [] := by
  have hend := s.onIncomingEnd_quiet end'
  simp only [dispatchEnd]
  generalize s.onIncomingEnd end' = outcome at hend ⊢
  obtain ⟨result, s'⟩ := outcome
  simp only at hend ⊢
  split_ifs with hreceived
  · generalize hreason : s'.setSessionStopReason _ = s''
    have hstop : Quiet s' s'' := by
      rw [← hreason]
      exact .of_eq rfl rfl rfl rfl
    have hstate : s''.localState = .endReceived := by
      rw [← hreason]
      exact hreceived
    obtain ⟨hsession, hframes⟩ := s''.drainLinkFrames_of_ne_mapped pending (by simp [hstate])
    have hquiet := hend.trans hstop
    split
    · rw [hsession, hframes]
      exact ⟨hquiet, rfl⟩
    · have hsend := hquiet.trans (s''.sendEnd_quiet none)
      rw [hsession, hframes]
      simp only [sendEnd, hstate] at hsend ⊢
      split <;> exact ⟨hsend, rfl⟩
  · split <;> exact ⟨hend, rfl⟩

/-- Every incoming frame but attach and flow is quiet and makes the session emit no transfer. -/
private theorem onIncoming_quiet (s : Session) (pending : List LinkFrame) (frame : SessionFrame)
    (hattach : ∀ attach, frame.body ≠ .attach attach) (hflow : ∀ flow, frame.body ≠ .flow flow) :
    Quiet s (s.onIncoming pending frame).session ∧
      transfersOf (s.onIncoming pending frame).frames = [] := by
  cases hbody : frame.body with
  | attach attach => exact absurd hbody (hattach attach)
  | flow flow => exact absurd hbody (hflow flow)
  | begin begin' =>
      have hquiet := s.onIncomingBegin_quiet frame.channel begin'
      simp only [onIncoming, hbody]
      split
      · next heq => rw [heq] at hquiet; exact ⟨hquiet, rfl⟩
      · next heq => rw [heq] at hquiet; exact ⟨hquiet, rfl⟩
  | transfer performative payload =>
      have hquiet := s.onIncomingTransfer_quiet performative payload
      simp only [onIncoming, hbody]
      split
      · next heq => rw [heq] at hquiet; exact ⟨hquiet, rfl⟩
      · next disposition s' heq =>
          rw [heq] at hquiet
          have hsent := s'.sendDispositions_quiet disposition.toList
          refine ⟨hquiet.trans (hsent.trans (maybeOutgoingSessionFlow_quiet _)), ?_⟩
          have hplain := transfersOf_of_isPlain (s'.sendDispositions_plain disposition.toList)
          simp only [dispatched, transfersOf_append, hplain, List.nil_append]
          simp only [maybeOutgoingSessionFlow]
          split_ifs <;> rfl
  | disposition disposition =>
      have hquiet := s.onIncomingDisposition_quiet disposition
      simp only [onIncoming, hbody]
      exact ⟨hquiet.trans (sendDispositions_quiet _ _),
        transfersOf_of_isPlain (sendDispositions_plain _ _)⟩
  | detach detach =>
      have hquiet := s.onIncomingDetach_quiet detach
      simp only [onIncoming, hbody]
      split
      · next heq => rw [heq] at hquiet; exact ⟨hquiet, rfl⟩
      · next reply s' heq =>
          rw [heq] at hquiet
          exact ⟨hquiet.trans (s'.onOutgoingDetach_quiet reply false),
            transfersOf_of_isPlain (s'.onOutgoingDetach_plain reply false)⟩
  | «end» end' =>
      simp only [onIncoming, hbody]
      exact s.dispatchEnd_quiet pending end'

end Session

namespace TrackedSession

/-- The invariant of a run. -/
def Tracks (w : TrackedSession) : Prop :=
  Sound w.session.target w.session.deliveryTagById w.session.remoteIncomingWindowExhaustedBuffer
    w.waiting w.emitted

/-- What becomes reachable through a handle and a tag was reachable before or is unclaimed. -/
structure Follows (w : TrackedSession) (s : Session) : Prop where
  buffer : s.remoteIncomingWindowExhaustedBuffer =
    w.session.remoteIncomingWindowExhaustedBuffer
  entries : ∀ key handle tag, s.deliveryTagById key = some (handle, tag) →
    w.session.deliveryTagById key = some (handle, tag) ∨ s.senderAt handle = none
  targets : ∀ handle tag delivery, s.target handle tag = some delivery →
    w.session.target handle tag = some delivery ∨ w.Unclaimed handle tag delivery

variable {w : TrackedSession} {s : Session}

theorem Follows.of_quiet (h : Session.Quiet w.session s) : w.Follows s where
  buffer := h.buffer
  entries := h.entries
  targets := fun _ _ _ htarget => Or.inl (h.target htarget)

theorem Tracks.follows (h : w.Tracks) (hs : w.Follows s) :
    Sound s.target s.deliveryTagById s.remoteIncomingWindowExhaustedBuffer w.waiting w.emitted where
  wellFormed := by
    rw [hs.buffer]
    exact h.wellFormed
  length := by
    rw [hs.buffer]
    exact h.length
  entries := by
    intro role id handle tag delivery hentry htarget
    rcases hs.entries (role, id) handle tag hentry with hentry | hnone
    · rcases hs.targets handle tag delivery htarget with hbefore | hunclaimed
      · exact h.entries role id handle tag delivery hentry hbefore
      · exact hunclaimed.entries role id hentry
    · simp [Session.target, hnone] at htarget
  waits := by
    rw [hs.buffer]
    intro item delivery tag delivery' hmem htag htarget
    rcases hs.targets item.inputHandle tag delivery' htarget with hbefore | hunclaimed
    · exact h.waits item delivery tag delivery' hmem htag hbefore
    · exact (hunclaimed.waits item delivery hmem rfl htag).symm

private theorem tracks_withSession (h : w.Tracks) (hs : w.Follows s) : (w.withSession s).Tracks :=
  h.follows hs

/-- A dispatch that emits no transfer. -/
private theorem tracks_after (h : w.Tracks) {out : Session.Dispatched} (hs : w.Follows out.session)
    (hframes : transfersOf out.frames = []) : (w.after [] out).Tracks := by
  have hids : deliveryIdsOf out.frames = [] := by simp [deliveryIdsOf, hframes]
  simpa [Tracks, after, hids] using h.follows hs

/-- A dispatch that emits a prefix of the waiting transfers. -/
private theorem tracks_sent {waiting : List OneshotId} {items rest : List BufferedTransfer}
    (h : Sound s.target s.deliveryTagById (items ++ rest) waiting w.emitted)
    {frames : List SessionFrame}
    (hframes : transfersOf frames = sentTransfers s.nextOutgoingDeliveryId items)
    {taken : List OneshotId} (hwaiting : waiting = w.waiting ++ taken)
    {result : Except SessionInnerError Session.Running} :
    (w.after taken ⟨frames, result, (s.sendAll items).withBuffer rest⟩).Tracks := by
  have hids : deliveryIdsOf frames =
      (sentTransfers s.nextOutgoingDeliveryId items).filterMap (·.1.deliveryId) := by
    rw [deliveryIdsOf, hframes]
  have htarget : ((s.sendAll items).withBuffer rest).target = s.target := by
    rw [s.sendAll_frame items]
    rfl
  have hentries : ((s.sendAll items).withBuffer rest).deliveryTagById =
      registerAll s.deliveryTagById s.nextOutgoingDeliveryId items := s.sendAll_deliveryTagById items
  have hsent := h.sent s.nextOutgoingDeliveryId
  simp only [Tracks, after, htarget, hentries, hids, ← hwaiting]
  exact hsent

private theorem flow_tracks (h : w.Tracks) (pending : List LinkFrame) (channel : UInt16)
    (flow : Flow) : (w.step (.incoming pending ⟨channel, .flow flow⟩)).Tracks := by
  obtain ⟨links, hinner, hflow⟩ := w.session.onIncomingFlow_eq flow h.wellFormed
  have hquiet := w.session.onIncomingFlowInner_quiet flow
  rw [hinner] at hquiet
  rcases hflow with ⟨e, heq⟩ | ⟨out, reply, items, rest, hfits, hout, heq⟩
  · refine tracks_after h ?_ ?_
    · simp only [Session.onIncoming, heq]
      exact .of_quiet hquiet
    · simp only [Session.onIncoming, heq, transfersOf_nil]
  · simp only [step, Session.onIncoming, heq, Session.dispatched]
    refine tracks_sent ?_ ?_ (List.append_nil w.waiting).symm
    · rw [← hfits.split]
      exact h.follows (.of_quiet hquiet)
    · rw [hout, transfersOf_append, Session.transfersOf_framesFor]
      cases reply <;> rfl

/-- A sender link comes to stand at a handle. -/
private theorem placed_follows (relay : LinkRelay OutputHandle) (handle : InputHandle)
    (h : ∀ link outputHandle mode, relay = .sender link outputHandle mode →
      ∀ tag msg, w.session.links.unsettled link tag = some msg → w.Unclaimed handle tag msg.sender)
    {links : LinkStore} (hlinks : w.session.links.ShrinksTo links)
    (hbuffer : s.remoteIncomingWindowExhaustedBuffer =
      w.session.remoteIncomingWindowExhaustedBuffer)
    (hentries : s.deliveryTagById = w.session.deliveryTagById)
    (hrelays : s.linkByInputHandle =
      Function.update w.session.linkByInputHandle handle (some relay))
    (hstore : s.links = links) : w.Follows s := by
  refine ⟨hbuffer, fun _ _ _ hentry => Or.inl (by rw [← hentries, hentry]), ?_⟩
  intro handle' tag delivery htarget
  obtain ⟨link, hlink, hmap⟩ := Option.bind_eq_some_iff.mp htarget
  obtain ⟨msg', hmsg', rfl⟩ := Option.map_eq_some_iff.mp hmap
  rw [hstore] at hmsg'
  obtain ⟨msg, hmsg, hsender⟩ := hlinks link tag msg' hmsg'
  rw [← hsender]
  by_cases hhandle : handle' = handle
  · -- the link placed here: the condition speaks about its unsettled messages
    subst hhandle
    right
    cases relay with
    | receiver link' outputHandle mode more => simp [Session.senderAt, hrelays] at hlink
    | sender link' outputHandle mode =>
        simp only [Session.senderAt, hrelays, Function.update_self, Option.some.injEq] at hlink
        subst hlink
        exact h link' outputHandle mode rfl tag msg hmsg
  · left
    have hbefore : w.session.senderAt handle' = some link := by
      simpa [Session.senderAt, hrelays, hhandle] using hlink
    simp [Session.target, hbefore, hmsg]

private theorem attach_follows (pending : List LinkFrame) (channel : UInt16) (attach : Attach)
    (h : w.Unambiguous (.incoming pending ⟨channel, .attach attach⟩)) :
    w.Follows (w.session.onIncomingAttach attach).2 := by
  cases hname : w.session.linkByName attach.name with
  | none =>
      simp only [Session.onIncomingAttach, hname]
      exact .of_quiet (.refl _)
  | some entry =>
      cases entry with
      | none =>
          simp only [Session.onIncomingAttach, hname]
          exact .of_quiet (.refl _)
      | some relay =>
          simp only [Session.onIncomingAttach, hname]
          split
          · exact .of_quiet (.of_eq rfl rfl rfl rfl)
          · next links hsend =>
              have hlinks : w.session.links.ShrinksTo links :=
                (@LinkStore.changesOnly_send (fun _ => True) _ _ _ _ hsend).shrinks
              refine placed_follows _ ⟨attach.handle⟩ ?_ hlinks rfl rfl rfl rfl
              intro link outputHandle mode hrelay tag msg hmsg
              cases relay with
              | receiver link' outputHandle' mode' more => cases hrelay
              | sender link' outputHandle' mode' =>
                  cases hrelay
                  exact h _ _ mode' hname tag msg hmsg

private theorem allocateIncomingLink_follows (name : String) (relay : LinkRelay Unit)
    (handle : InputHandle) (h : w.Unambiguous (.allocateIncomingLink name relay handle)) :
    w.Follows (w.session.allocateIncomingLink name relay handle).2 := by
  have hquiet := w.session.allocateLink_quiet name none
  obtain ⟨slab, names, hframe⟩ := w.session.allocateLink_frame name none
  simp only [Session.allocateIncomingLink]
  split
  · next outputHandle s' heq =>
      rw [heq] at hframe
      simp only at hframe
      subst hframe
      refine placed_follows (relay.withOutputHandle outputHandle) handle ?_ (.refl _) rfl rfl rfl rfl
      intro link outputHandle' mode hrelay tag msg hmsg
      cases relay with
      | receiver link' _ mode' more => cases hrelay
      | sender link' _ mode' =>
          cases hrelay
          exact h tag msg hmsg
  · next heq =>
      rw [heq] at hquiet
      exact .of_quiet hquiet

private theorem register_follows (link : LinkId) (tag : DeliveryTag) (msg : UnsettledMessage)
    (h : w.Unambiguous (.register link tag msg)) :
    w.Follows (w.session.withLinks (w.session.links.register link tag msg)) := by
  refine ⟨rfl, fun _ _ _ hentry => Or.inl hentry, ?_⟩
  intro handle tag' delivery htarget
  obtain ⟨link', hlink', hmap⟩ := Option.bind_eq_some_iff.mp htarget
  obtain ⟨msg', hmsg', rfl⟩ := Option.map_eq_some_iff.mp hmap
  have hbefore : w.session.senderAt handle = some link' := hlink'
  simp only [Session.withLinks, LinkStore.register, LinkStore.unsettled_modify] at hmsg'
  by_cases hlink : link' = link
  · subst hlink
    simp only [if_true, Option.bind_some, IndexMap.get_insert] at hmsg'
    by_cases htag : tag' = tag
    · subst htag
      simp only [if_true, Option.some.injEq] at hmsg'
      subst hmsg'
      exact Or.inr (h handle hbefore)
    · left
      rw [if_neg htag] at hmsg'
      have hold : w.session.links.unsettled link' tag' = some msg' := by
        cases hmap : (w.session.links.cell link').senderUnsettled with
        | none => simp [hmap] at hmsg'
        | some m => simpa [LinkStore.unsettled, hmap] using hmsg'
      simp [Session.target, hbefore, hold]
  · left
    rw [if_neg hlink] at hmsg'
    simp [Session.target, hbefore, hmsg']

/-- A transfer handed over by a link. -/
private theorem transfer_tracks (h : w.Tracks) (frame : LinkTransfer) (isFirst : Bool)
    (hitem : BufferedTransfer.WellFormed
      ⟨frame.inputHandle, frame.performative, frame.payload, isFirst⟩) (delivery : OneshotId)
    (hmeans : isFirst = true → ∀ tag delivery', frame.performative.deliveryTag = some tag →
      w.session.target frame.inputHandle tag = some delivery' → delivery' = delivery)
    {out : Session.Dispatched}
    (hout : ∀ item s', w.session.onOutgoingTransfer
        ⟨frame.inputHandle, frame.performative, frame.payload, isFirst⟩ = (.ok item, s') →
      out = s'.dispatched (Session.itemFrames item)) :
    (w.after (if isFirst then [delivery] else []) out).Tracks := by
  have hbuffered := Sound.buffered h hitem delivery hmeans
  obtain ⟨item, items, rest, hfits, hframes, heq⟩ :=
    w.session.onOutgoingTransfer_eq _ hbuffered.wellFormed
  rw [hout item _ heq]
  refine tracks_sent ?_ ?_ rfl
  · rw [← hfits.split]
    exact hbuffered
  · rw [hframes, Session.transfersOf_framesFor]

private theorem linkFrame_tracks (h : w.Tracks) (frame : LinkFrame) (delivery : OneshotId)
    (hpossible : w.Possible (.linkFrame frame delivery))
    (hunambiguous : w.Unambiguous (.linkFrame frame delivery)) :
    (w.step (.linkFrame frame delivery)).Tracks := by
  simp only [step]
  by_cases hmapped : w.session.localState = .mapped
  · have hdispatch : ¬w.session.localState ≠ .mapped := not_not_intro hmapped
    cases frame with
    | firstTransfer frame =>
        simp only [taken, if_pos hmapped]
        refine transfer_tracks h frame true hpossible delivery (fun _ => hunambiguous) ?_
        intro item s' heq
        simp only [Session.onOutgoingLinkFrames, if_neg hdispatch, heq]
    | transferContinuation frame =>
        refine transfer_tracks h frame false hpossible delivery
          (fun hfirst => absurd hfirst Bool.false_ne_true) ?_
        intro item s' heq
        simp only [Session.onOutgoingLinkFrames, if_neg hdispatch, heq]
    | attach attach =>
        simp only [Session.onOutgoingLinkFrames, if_neg hdispatch]
        exact tracks_after h (.of_quiet (.refl _)) rfl
    | flow flow =>
        simp only [Session.onOutgoingLinkFrames, if_neg hdispatch]
        exact tracks_after h (.of_quiet (.refl _)) rfl
    | disposition disposition =>
        simp only [Session.onOutgoingLinkFrames, if_neg hdispatch]
        exact tracks_after h (.of_quiet (w.session.onOutgoingDisposition_quiet disposition)) rfl
    | detach detach =>
        simp only [Session.onOutgoingLinkFrames, if_neg hdispatch]
        exact tracks_after h (.of_quiet (w.session.onOutgoingDetach_quiet detach true))
          (transfersOf_of_isPlain (w.session.onOutgoingDetach_plain detach true))
    | remoteTransfer frame =>
        simp only [Session.onOutgoingLinkFrames, if_neg hdispatch]
        exact tracks_after h (.of_quiet (.refl _)) rfl
    | acquisition txnId =>
        simp only [Session.onOutgoingLinkFrames, if_neg hdispatch]
        exact tracks_after h (.of_quiet (.refl _)) rfl
  · have hnone : w.taken frame delivery = [] := by cases frame <;> simp [taken, hmapped]
    rw [hnone]
    simp only [Session.onOutgoingLinkFrames, if_pos hmapped]
    exact tracks_after h (.of_quiet (.refl _)) rfl

private theorem incoming_tracks (h : w.Tracks) (pending : List LinkFrame) (frame : SessionFrame)
    (hunambiguous : w.Unambiguous (.incoming pending frame)) :
    (w.step (.incoming pending frame)).Tracks := by
  obtain ⟨channel, body⟩ := frame
  by_cases hflow : ∃ flow, body = .flow flow
  · obtain ⟨flow, rfl⟩ := hflow
    exact flow_tracks h pending channel flow
  by_cases hattach : ∃ attach, body = .attach attach
  · obtain ⟨attach, rfl⟩ := hattach
    have hfollows := attach_follows pending channel attach hunambiguous
    refine tracks_after h ?_ ?_
    · simp only [Session.onIncoming]
      split
      · next heq => rw [heq] at hfollows; exact hfollows
      · next heq => rw [heq] at hfollows; exact hfollows
    · simp only [Session.onIncoming]
      split <;> rfl
  · obtain ⟨hquiet, hframes⟩ := w.session.onIncoming_quiet pending ⟨channel, body⟩
      (fun attach hbody => hattach ⟨attach, hbody⟩) (fun flow hbody => hflow ⟨flow, hbody⟩)
    exact tracks_after h (.of_quiet hquiet) hframes

/-- One unambiguous step keeps the record right. -/
theorem step_tracks (h : w.Tracks) (action : SessionAction) (hpossible : w.Possible action)
    (hunambiguous : w.Unambiguous action) : (w.step action).Tracks := by
  cases action with
  | incoming pending frame => exact incoming_tracks h pending frame hunambiguous
  | linkFrame frame delivery => exact linkFrame_tracks h frame delivery hpossible hunambiguous
  | allocateLink name relay =>
      exact tracks_withSession h (.of_quiet (w.session.allocateLink_quiet name relay))
  | allocateIncomingLink name relay handle =>
      exact tracks_withSession h (allocateIncomingLink_follows name relay handle hunambiguous)
  | deallocateLink handle =>
      exact tracks_withSession h (.of_quiet (w.session.deallocateLink_quiet handle))
  | sendBegin => exact tracks_withSession h (.of_quiet w.session.sendBegin_quiet)
  | sendEnd error => exact tracks_withSession h (.of_quiet (w.session.sendEnd_quiet error))
  | register link tag msg =>
      exact tracks_withSession h (register_follows link tag msg hunambiguous)
  | endpoint links => exact tracks_withSession h (.of_quiet (.of_links links hpossible rfl))

/-- A session before its first frame. -/
def start (builder : SessionBuilder) (outgoingChannel : UInt16) (localState : SessionState)
    (links : LinkStore) : TrackedSession :=
  ⟨builder.intoSession outgoingChannel localState links, [], []⟩

theorem start_tracks (builder : SessionBuilder) (outgoingChannel : UInt16)
    (localState : SessionState) (links : LinkStore) :
    (start builder outgoingChannel localState links).Tracks where
  wellFormed := by simp [start, SessionBuilder.intoSession]
  length := rfl
  entries := by simp [start, SessionBuilder.intoSession]
  waits := by simp [start, SessionBuilder.intoSession]

end TrackedSession

/-! ## Dispositions -/

/-- The deliveries that were emitted with one of the given delivery-ids. -/
def EmittedWith (emitted : List (DeliveryNumber × OneshotId)) (ids : List DeliveryNumber)
    (delivery : OneshotId) : Prop :=
  ∃ id ∈ ids, (id, delivery) ∈ emitted

namespace Session

variable {emitted : List (DeliveryNumber × OneshotId)}

/-- What a relay reaches through the entry of a delivery-id was emitted with that id. -/
private theorem reaches_emitted {s : Session} {waiting : List OneshotId}
    (h : Sound s.target s.deliveryTagById s.remoteIncomingWindowExhaustedBuffer waiting emitted)
    {role : Role} {id : DeliveryNumber} {handle : InputHandle} {tag : DeliveryTag}
    (hentry : s.deliveryTagById (role, id) = some (handle, tag)) {relay : LinkRelay OutputHandle}
    (hrelay : s.linkByInputHandle handle = some relay) {delivery : OneshotId}
    (hreaches : relay.reaches s.links tag = some delivery) : (id, delivery) ∈ emitted := by
  have htarget : s.target handle tag = some delivery := by
    cases relay with
    | receiver link outputHandle mode more => simp [LinkRelay.reaches] at hreaches
    | sender link outputHandle mode =>
        simpa [target, senderAt, hrelay, LinkRelay.reaches] using hreaches
  exact (h.entries role id handle tag delivery hentry htarget).2

private theorem settleDelivery_changesOnly {s : Session} {waiting : List OneshotId}
    (h : Sound s.target s.deliveryTagById s.remoteIncomingWindowExhaustedBuffer waiting emitted)
    (disposition : Disposition) (id : DeliveryNumber) :
    LinkStore.ChangesOnly (EmittedWith emitted [id]) s.links
      (settleDelivery disposition s id).links := by
  simp only [settleDelivery]
  split
  · exact .refl _
  · next handle tag hentry =>
      split
      · exact .refl _
      · next relay hrelay =>
          refine (relay.onIncomingDisposition_changesOnly s.links disposition.settled
            disposition.state tag).mono fun delivery hreaches => ?_
          exact ⟨id, by simp, reaches_emitted h hentry hrelay hreaches⟩

private theorem updateDelivery_changesOnly {acc : List DeliveryNumber × Session}
    {waiting : List OneshotId}
    (h : Sound acc.2.target acc.2.deliveryTagById acc.2.remoteIncomingWindowExhaustedBuffer waiting
      emitted) (disposition : Disposition) (id : DeliveryNumber) :
    LinkStore.ChangesOnly (EmittedWith emitted [id]) acc.2.links
      (updateDelivery disposition acc id).2.links := by
  simp only [updateDelivery]
  split
  · exact .refl _
  · next handle tag hentry =>
      split
      · exact .refl _
      · next relay hrelay =>
          refine (relay.onIncomingDisposition_changesOnly acc.2.links disposition.settled
            disposition.state tag).mono fun delivery hreaches => ?_
          exact ⟨id, by simp, reaches_emitted h hentry hrelay hreaches⟩

/-- A loop over delivery-ids each iteration of which is quiet and touches only its own id. -/
private theorem foldl_changesOnly {α : Type} (session : α → Session)
    (f : α → DeliveryNumber → α) (waiting : List OneshotId)
    (hquiet : ∀ a id, Quiet (session a) (session (f a id)))
    (hchanges : ∀ a id, Sound (session a).target (session a).deliveryTagById
        (session a).remoteIncomingWindowExhaustedBuffer waiting emitted →
      LinkStore.ChangesOnly (EmittedWith emitted [id]) (session a).links (session (f a id)).links)
    (a : α)
    (h : Sound (session a).target (session a).deliveryTagById
      (session a).remoteIncomingWindowExhaustedBuffer waiting emitted)
    (ids : List DeliveryNumber) :
    LinkStore.ChangesOnly (EmittedWith emitted ids) (session a).links
      (session (ids.foldl f a)).links := by
  induction ids generalizing a with
  | nil => exact .refl _
  | cons id ids ih =>
      have hnext : Sound (session (f a id)).target (session (f a id)).deliveryTagById
          (session (f a id)).remoteIncomingWindowExhaustedBuffer waiting emitted :=
        @TrackedSession.Tracks.follows ⟨session a, waiting, emitted⟩ _ h (.of_quiet (hquiet a id))
      have hfirst := (hchanges a id h).mono
        fun delivery (hemitted : EmittedWith emitted [id] delivery) => by
          obtain ⟨id', hid', hmem⟩ := hemitted
          exact (⟨id', by simp_all, hmem⟩ : EmittedWith emitted (id :: ids) delivery)
      have hrest := (ih (f a id) hnext).mono
        fun delivery (hemitted : EmittedWith emitted ids delivery) => by
          obtain ⟨id', hid', hmem⟩ := hemitted
          exact (⟨id', List.mem_cons_of_mem _ hid', hmem⟩ : EmittedWith emitted (id :: ids) delivery)
      exact hfirst.trans hrest

end Session

/-- In every state that unambiguous steps reach, an incoming disposition settles, fails or changes
only deliveries whose first transfer was emitted with a delivery-id it covers. -/
theorem TrackedSession.disposition_changesOnly_emitted (builder : SessionBuilder)
    (outgoingChannel : UInt16) (localState : SessionState) (links : LinkStore) (w : TrackedSession)
    (hrun : Relation.ReflTransGen UnambiguousStep
      (start builder outgoingChannel localState links) w)
    (pending : List LinkFrame) (channel : UInt16) (disposition : Disposition) :
    LinkStore.ChangesOnly
      (EmittedWith w.emitted (Session.deliveryIds disposition.first
        (disposition.last.getD disposition.first)))
      w.session.links
      (w.session.onIncoming pending ⟨channel, .disposition disposition⟩).session.links := by
  have htracks : w.Tracks := by
    refine Run.invariant_of_reflTransGen ?_ (start_tracks builder outgoingChannel localState links)
      hrun
    rintro w₁ w₂ ⟨action, hpossible, hunambiguous, rfl⟩ htracks
    exact step_tracks htracks action hpossible hunambiguous
  simp only [Session.onIncoming, Session.dispatched, Session.sendDispositions_links,
    Session.onIncomingDisposition]
  split
  · exact Session.foldl_changesOnly id (Session.settleDelivery disposition) w.waiting
      (fun s id => Session.settleDelivery_quiet disposition s id)
      (fun s id h => Session.settleDelivery_changesOnly h disposition id) w.session htracks _
  · exact Session.foldl_changesOnly Prod.snd (Session.updateDelivery disposition) w.waiting
      (fun acc id => Session.updateDelivery_quiet disposition acc id)
      (fun acc id h => Session.updateDelivery_changesOnly h disposition id) ([], w.session) htracks _

/-! ### A stale entry at a reused handle -/

section StaleEntry

private def beginFrame : SessionFrame :=
  ⟨0, .begin
    { remoteChannel := some 0, nextOutgoingId := 0, incomingWindow := 100, outgoingWindow := 100
      handleMax := 7, offeredCapabilities := none, desiredCapabilities := none
      properties := none }⟩

private def attachFrame (name : String) : SessionFrame :=
  ⟨0, .attach
    { name, handle := 0, role := .receiver, sndSettleMode := .mixed, rcvSettleMode := .first
      source := none, target := none, unsettled := none, incompleteUnsettled := false
      initialDeliveryCount := none, maxMessageSize := none, offeredCapabilities := none
      desiredCapabilities := none, properties := none }⟩

/-- The first delivery of a link: its tag is the delivery-count of the link. -/
private def firstDelivery : LinkFrame :=
  .firstTransfer
    { inputHandle := ⟨0⟩
      performative :=
        { handle := 0, deliveryId := none, deliveryTag := some [0, 0, 0, 0]
          messageFormat := some 0, settled := some false, more := false, rcvSettleMode := none
          state := none, resume := false, aborted := false, batchable := false }
      payload := [] }

/-- Attach a link at the peer's handle 0 and send its first delivery. -/
private def attachAndSend (name : String) (link : LinkId) (delivery : OneshotId) :
    List SessionAction :=
  [.allocateLink name (some (.sender link () .first)), .incoming [] (attachFrame name),
    .linkFrame firstDelivery delivery,
    .register link [0, 0, 0, 0] ⟨[], none, 0, delivery⟩]

private def detachFrame : SessionFrame := ⟨0, .detach { handle := 0, closed := false, error := none }⟩

private def singleLink : List SessionAction := .incoming [] beginFrame :: attachAndSend "a" 0 0

/-- The session sends on link 0, the peer detaches it and uses its handle for link 1. -/
private def reusedHandle : List SessionAction :=
  singleLink ++ .incoming [] detachFrame :: attachAndSend "b" 1 1

private def acceptFirst : Disposition :=
  { role := .receiver, first := 0, last := none, settled := true, state := some .accepted
    batchable := false }

private def freshSession : TrackedSession := .start {} 0 .beginSent LinkStore.empty

private theorem reflTransGen_foldl (w : TrackedSession) (actions : List SessionAction)
    (h : ∀ action ∈ actions, ∀ w : TrackedSession, w.Possible action) :
    Relation.ReflTransGen TrackedSession.Step w (actions.foldl TrackedSession.step w) := by
  induction actions generalizing w with
  | nil => exact .refl
  | cons action actions ih =>
      exact .head ⟨action, h action (by simp) w, rfl⟩
        (ih (w.step action) fun action' hmem => h action' (by simp [hmem]))

/-- One link, one delivery: its handle and tag mean nothing else. -/
theorem TrackedSession.disposition_changesOnly_emitted_single_link :
    let w := singleLink.foldl step freshSession
    w.emitted = [(0, 0)] ∧
      LinkStore.ChangesOnly (EmittedWith [(0, 0)] [0]) w.session.links
        (w.session.onIncoming [] ⟨0, .disposition acceptFirst⟩).session.links := by
  intro w
  have hstep : ∀ (w : TrackedSession) (action : SessionAction), w.Possible action →
      w.Unambiguous action → UnambiguousStep w (w.step action) :=
    fun w action hpossible hunambiguous => ⟨action, hpossible, hunambiguous, rfl⟩
  let w₁ := freshSession.step (.incoming [] beginFrame)
  let w₂ := w₁.step (.allocateLink "a" (some (.sender 0 () .first)))
  let w₃ := w₂.step (.incoming [] (attachFrame "a"))
  let w₄ := w₃.step (.linkFrame firstDelivery 0)
  have hrun : Relation.ReflTransGen UnambiguousStep freshSession w := by
    refine .head (hstep freshSession (.incoming [] beginFrame) trivial trivial) ?_
    refine .head (hstep w₁ (.allocateLink "a" (some (.sender 0 () .first))) trivial trivial) ?_
    refine .head (hstep w₂ (.incoming [] (attachFrame "a")) trivial ?_) ?_
    · intro link outputHandle mode _ tag msg hmsg
      cases hmsg
    refine .head (hstep w₃ (.linkFrame firstDelivery 0) ?_ ?_) ?_
    · exact ⟨fun _ => rfl, nofun⟩
    · intro tag delivery' htag htarget
      cases htag
      cases htarget
    refine .single (hstep w₄ (.register 0 [0, 0, 0, 0] ⟨[], none, 0, 0⟩) trivial ?_)
    intro handle hsender
    refine ⟨fun role id hentry => ?_, fun item delivery' hmem => ?_⟩
    · have hentries : w₄.session.deliveryTagById =
          Function.update (fun _ => none) (.receiver, 0) (some (⟨0⟩, [0, 0, 0, 0])) := rfl
      rw [hentries] at hentry
      by_cases hkey : (role, id) = (Role.receiver, 0)
      · cases hkey
        exact ⟨rfl, by decide⟩
      · rw [Function.update_of_ne hkey] at hentry
        cases hentry
    · cases hmem
  have hemitted : w.emitted = [(0, 0)] := by decide
  have hchanges := disposition_changesOnly_emitted {} 0 .beginSent LinkStore.empty w hrun [] 0
    acceptFirst
  rw [hemitted] at hchanges
  exact ⟨hemitted, hchanges⟩

/-- The disposition for delivery-id 0 settles the delivery that was emitted with id 1. -/
theorem TrackedSession.disposition_settles_delivery_of_reused_handle :
    ¬∀ (builder : SessionBuilder) (outgoingChannel : UInt16) (localState : SessionState)
        (links : LinkStore) (w : TrackedSession),
      Relation.ReflTransGen Step (start builder outgoingChannel localState links) w →
      ∀ (pending : List LinkFrame) (channel : UInt16) (disposition : Disposition),
        LinkStore.ChangesOnly
          (EmittedWith w.emitted (Session.deliveryIds disposition.first
            (disposition.last.getD disposition.first)))
          w.session.links
          (w.session.onIncoming pending ⟨channel, .disposition disposition⟩).session.links := by
  intro hclaim
  have hrun : Relation.ReflTransGen Step freshSession (reusedHandle.foldl step freshSession) := by
    refine reflTransGen_foldl freshSession reusedHandle ?_
    simp [reusedHandle, singleLink, attachAndSend, Possible, firstDelivery, BufferedTransfer.WellFormed]
  have hchanges := hclaim _ _ _ _ _ hrun [] 0 acceptFirst
  rcases hchanges.outcomes 1 with hsame | ⟨id, hid, hemitted⟩
  · have hsome := congrArg Option.isSome hsame
    revert hsome
    decide
  · revert hid hemitted
    generalize hw : (reusedHandle.foldl step freshSession).emitted = emitted
    have hlist : emitted = [(0, 0), (1, 1)] := by
      rw [← hw]
      decide
    rw [hlist]
    intro hid hemitted
    have hzero : id = 0 := by simpa [acceptFirst, Session.deliveryIds] using hid
    subst hzero
    revert hemitted
    decide

end StaleEntry

end Fe2o3Amqp
