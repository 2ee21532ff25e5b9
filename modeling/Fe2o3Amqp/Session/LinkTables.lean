import Fe2o3Amqp.Session.Actions

/-!
# The link tables of a session

The four tables in which a session keeps its links, taken out of the session: names by output
handle, relays by name, relays by input handle and the output handles whose Detach waits for an
answer.  Every action of a session is one operation on these tables, and the Detach frames it emits
are those of the operation; the properties of the tables are proved for the operations.
-/

namespace Fe2o3Amqp

/-- What the tables know of a relay: the link behind it and the output handle it was given. -/
abbrev RelayKey := LinkId × OutputHandle

def LinkRelay.key (relay : LinkRelay OutputHandle) : RelayKey := (relay.link, relay.outputHandle)

structure LinkTables where
  names : Slab String
  byName : String → Option (Option RelayKey)
  byInput : InputHandle → Option RelayKey
  closePending : OutputHandle → Bool

/-- An operation on the tables.  `delivered` says whether the relay could forward the Attach to its
link endpoint. -/
inductive TableOp where
  | skip
  | allocate (name : String) (link : Option LinkId)
  | allocateIncoming (name : String) (link : LinkId) (handle : InputHandle)
  | deallocate (handle : OutputHandle)
  | attach (name : String) (handle : InputHandle) (delivered : Bool)
  | localDetach (handle : OutputHandle)
  | peerDetach (handle : InputHandle)

namespace LinkTables

/-- The output handle that the next allocation hands out. -/
def nextHandle (t : LinkTables) : OutputHandle := ⟨UInt32.ofNat t.names.vacantKey⟩

def allocate (t : LinkTables) (name : String) (link : Option LinkId) : LinkTables :=
  if (t.byName name).isSome then t
  else
    { t with
      names := t.names.insert name
      byName := Function.update t.byName name (some (link.map fun link => (link, t.nextHandle))) }

def allocateIncoming (t : LinkTables) (name : String) (link : LinkId) (handle : InputHandle) :
    LinkTables :=
  if (t.byName name).isSome then t
  else
    { t.allocate name none with
      byInput := Function.update t.byInput handle (some (link, t.nextHandle)) }

def deallocate (t : LinkTables) (handle : OutputHandle) : LinkTables :=
  match t.names.get handle.handle.toNat with
  | some name =>
      { t with
        names := (t.names.tryRemove handle.handle.toNat).2
        byName := Function.update t.byName name none }
  | none => t

def attach (t : LinkTables) (name : String) (handle : InputHandle) (delivered : Bool) :
    LinkTables :=
  match t.byName name with
  | some (some relay) =>
      { t with
        byName := Function.update t.byName name (some none)
        byInput := if delivered then Function.update t.byInput handle (some relay) else t.byInput }
  | _ => t

/-- The tables after an operation and the handles of the Detach frames that it puts on the wire. -/
def step (t : LinkTables) : TableOp → LinkTables × List OutputHandle
  | .skip => (t, [])
  | .allocate name link => (t.allocate name link, [])
  | .allocateIncoming name link handle => (t.allocateIncoming name link handle, [])
  | .deallocate handle => (t.deallocate handle, [])
  | .attach name handle delivered => (t.attach name handle delivered, [])
  | .localDetach handle =>
      if (t.names.get handle.handle.toNat).isSome then
        ({ t.deallocate handle with closePending := Function.update t.closePending handle true },
          [handle])
      else (t, [])
  | .peerDetach handle =>
      match t.byInput handle with
      | none => (t, [])
      | some relay =>
          let t' :=
            { t with
              byInput := Function.update t.byInput handle none
              closePending := Function.update t.closePending relay.2 false }
          -- a link that waits for this Detach is answered by it, any other is sent a reply
          if t.closePending relay.2 then (t', []) else (t'.deallocate relay.2, [relay.2])

end LinkTables

namespace Session

def tables (s : Session) : LinkTables where
  names := s.linkNameByOutputHandle
  byName := Option.map (Option.map LinkRelay.key) ∘ s.linkByName
  byInput := Option.map LinkRelay.key ∘ s.linkByInputHandle
  closePending := s.closePending

/-- The handles of the Detach frames in a list of emitted frames. -/
def detachesOf (frames : List SessionFrame) : List OutputHandle :=
  frames.filterMap fun frame =>
    match frame.body with
    | .detach detach => some ⟨detach.handle⟩
    | _ => none

/-- The operation on the tables that an action of the session amounts to. -/
def tableOp (s : Session) : SessionAction → TableOp
  | .incoming _ ⟨_, .attach attach⟩ =>
      .attach attach.name ⟨attach.handle⟩ <|
        match s.linkByName attach.name with
        | some (some relay) => !(s.links.cell relay.link).endpointDropped
        | _ => false
  | .incoming _ ⟨_, .detach detach⟩ => .peerDetach ⟨detach.handle⟩
  | .linkFrame (.detach detach) _ =>
      if s.localState = .mapped then .localDetach ⟨detach.handle⟩ else .skip
  | .allocateLink name relay =>
      if s.localState = .mapped then .allocate name (relay.map (·.link)) else .skip
  | .allocateIncomingLink name relay handle =>
      if s.localState = .mapped then .allocateIncoming name relay.link handle else .skip
  | .deallocateLink handle => .deallocate handle
  | _ => .skip

@[simp] theorem detachesOf_nil : detachesOf [] = [] := rfl

theorem detachesOf_append (frames frames' : List SessionFrame) :
    detachesOf (frames ++ frames') = detachesOf frames ++ detachesOf frames' :=
  List.filterMap_append

theorem detachesOf_of_isTraffic {frames : List SessionFrame} (h : ∀ frame ∈ frames, frame.isTraffic) :
    detachesOf frames = [] := by
  refine List.filterMap_eq_nil_iff.mpr fun frame hframe => ?_
  have htraffic := h frame hframe
  cases hbody : frame.body <;> simp_all [SessionFrame.isTraffic]

theorem tables_byName (s : Session) (name : String) :
    s.tables.byName name = (s.linkByName name).map (Option.map LinkRelay.key) := rfl

theorem tables_byInput (s : Session) (handle : InputHandle) :
    s.tables.byInput handle = (s.linkByInputHandle handle).map LinkRelay.key := rfl

/-! ## Operations that touch no table -/

theorem onOutgoingTransferInner_tables (s : Session) (item : BufferedTransfer) :
    (s.onOutgoingTransferInner item).2.tables = s.tables := by
  obtain ⟨_, _, _, _, hframe⟩ := s.onOutgoingTransferInner_frame item
  rw [hframe]
  rfl

theorem onOutgoingTransfer_tables (s : Session) (item : BufferedTransfer) :
    (s.onOutgoingTransfer item).2.tables = s.tables := by
  have hinner := fun s : Session => s.onOutgoingTransferInner_tables item
  simp only [onOutgoingTransfer]
  split_ifs with hwindow hbuffer
  · rfl
  · have hsent := hinner s
    cases hsend : s.onOutgoingTransferInner item with
    | mk result s' =>
        rw [hsend] at hsent
        cases result <;> exact hsent
  · obtain ⟨_, _, _, _, _, hframe⟩ := s.drainBuffer_frame s.remoteIncomingWindowExhaustedBuffer []
    simp only [prepareSessionFramesFromBufferedAndCurrentTransfers,
      prepareSessionFramesFromBufferedTransfers]
    cases hdrain : s.drainBuffer s.remoteIncomingWindowExhaustedBuffer [] with
    | mk result s' =>
        rw [hdrain] at hframe
        have htables : s'.tables = s.tables := by
          rw [show s' = _ from hframe]
          rfl
        cases result with
        | error e => exact htables
        | ok frames =>
            simp only
            split_ifs with hopen
            · have hsent := hinner s'
              cases hsend : s'.onOutgoingTransferInner item with
              | mk result s'' =>
                  rw [hsend] at hsent
                  cases result <;> exact hsent.trans htables
            · exact htables

theorem onIncomingFlow_tables (s : Session) (flow : Flow) :
    (s.onIncomingFlow flow).2.tables = s.tables := by
  obtain ⟨_, _, _, _, _, _, _, _, hframe⟩ := s.onIncomingFlow_frame flow
  rw [hframe]
  rfl

theorem onIncomingTransfer_tables (s : Session) (transfer : Transfer) (payload : Payload) :
    (s.onIncomingTransfer transfer payload).2.tables = s.tables := by
  simp only [onIncomingTransfer]
  cases hrelay : s.linkByInputHandle ⟨transfer.handle⟩ with
  | none => rfl
  | some relay =>
      -- the relay that is put back may only have changed its `more` flag
      have hkey : (relay.onIncomingTransfer s.links transfer payload).2.1.key = relay.key := by
        cases relay with
        | sender link outputHandle mode => rfl
        | receiver link outputHandle mode more =>
            simp only [LinkRelay.onIncomingTransfer]
            split
            · rfl
            · split
              · rfl
              · split
                · rfl
                · split
                  · rfl
                  · split <;> rfl
      have hinput : Option.map LinkRelay.key ∘ Function.update s.linkByInputHandle
          ⟨transfer.handle⟩ (some (relay.onIncomingTransfer s.links transfer payload).2.1) =
          Option.map LinkRelay.key ∘ s.linkByInputHandle := by
        rw [Function.comp_update, Option.map_some, hkey]
        refine Function.update_eq_self_iff.mpr ?_
        simp [hrelay]
      have htables : { s with
          linkByInputHandle := Function.update s.linkByInputHandle ⟨transfer.handle⟩
            (some (relay.onIncomingTransfer s.links transfer payload).2.1) }.tables = s.tables := by
        simp only [tables, hinput]
      simp only
      cases (relay.onIncomingTransfer s.links transfer payload).1 with
      | error e => exact htables
      | ok remembered => cases remembered <;> exact htables

theorem onIncomingDisposition_tables (s : Session) (disposition : Disposition) :
    (s.onIncomingDisposition disposition).2.tables = s.tables := by
  obtain ⟨_, _, hframe⟩ := s.onIncomingDisposition_frame disposition
  rw [hframe]
  rfl

theorem onOutgoingDisposition_tables (s : Session) (disposition : Disposition) :
    (s.onOutgoingDisposition disposition).2.tables = s.tables := by
  obtain ⟨_, hframe⟩ := s.onOutgoingDisposition_frame disposition
  rw [hframe]
  rfl

theorem sendDispositions_tables (s : Session) (dispositions : List Disposition) :
    (s.sendDispositions dispositions).2.tables = s.tables := by
  obtain ⟨_, hframe⟩ := s.sendDispositions_frame dispositions
  rw [hframe]
  rfl

theorem maybeOutgoingSessionFlow_tables (s : Session) :
    s.maybeOutgoingSessionFlow.2.tables = s.tables := by
  obtain ⟨_, hframe⟩ := s.maybeOutgoingSessionFlow_frame
  rw [hframe]
  rfl

/-! ## Operations on the tables -/

theorem allocateLink_tables (s : Session) (name : String) (relay : Option (LinkRelay Unit)) :
    (s.allocateLink name relay).2.tables =
      if s.localState = .mapped then s.tables.allocate name (relay.map (·.link)) else s.tables := by
  simp only [allocateLink]
  split_ifs with hmapped hname
  · simp [LinkTables.allocate, tables_byName, hname]
  · have hkey : ∀ handle, (relay.map (·.withOutputHandle handle)).map LinkRelay.key =
        (relay.map (·.link)).map fun link => (link, handle) := by
      intro handle
      rcases relay with _ | relay
      · rfl
      · cases relay <;> rfl
    simp only [LinkTables.allocate, tables_byName, Option.isSome_map, hname, Bool.false_eq_true,
      if_false, ← hkey]
    simp only [tables, Function.comp_update, Option.map_some, LinkTables.nextHandle]
  · split
    · rfl
    · split <;> rfl

theorem allocateIncomingLink_tables (s : Session) (name : String) (relay : LinkRelay Unit)
    (handle : InputHandle) :
    (s.allocateIncomingLink name relay handle).2.tables =
      if s.localState = .mapped then s.tables.allocateIncoming name relay.link handle
      else s.tables := by
  have halloc := s.allocateLink_tables name none
  by_cases hmapped : s.localState = .mapped
  · by_cases hname : (s.linkByName name).isSome
    · simp [allocateIncomingLink, allocateLink, hmapped, hname, LinkTables.allocateIncoming,
        tables_byName]
    · have hkey : ∀ outputHandle, (relay.withOutputHandle outputHandle).key =
          (relay.link, outputHandle) := by
        intro outputHandle
        cases relay <;> rfl
      simp only [allocateIncomingLink, allocateLink, if_pos hmapped, hname, Bool.false_eq_true,
        if_false, LinkTables.allocateIncoming, LinkTables.allocate, tables_byName,
        Option.isSome_map]
      simp only [tables, Function.comp_update, Option.map_some, hkey, LinkTables.nextHandle,
        Option.map_none]
  · rw [if_neg hmapped] at halloc ⊢
    rw [← halloc]
    simp only [allocateIncomingLink]
    cases hresult : s.allocateLink name none with
    | mk result s' =>
        cases result with
        | error e => rfl
        | ok outputHandle =>
            simp only [allocateLink, if_neg hmapped] at hresult
            split at hresult
            · cases hresult
            · split at hresult <;> cases hresult

theorem deallocateLink_tables (s : Session) (handle : OutputHandle) :
    (s.deallocateLink handle).2.tables = s.tables.deallocate handle ∧
      (s.deallocateLink handle).1 = (s.tables.names.get handle.handle.toNat).isSome := by
  have hget : s.tables.names.get handle.handle.toNat =
      (s.linkNameByOutputHandle.tryRemove handle.handle.toNat).1 := by
    rw [Slab.tryRemove_fst]
    rfl
  simp only [deallocateLink, LinkTables.deallocate, hget]
  cases hremove : s.linkNameByOutputHandle.tryRemove handle.handle.toNat with
  | mk name slab =>
      cases name with
      | none => exact ⟨rfl, rfl⟩
      | some name =>
          refine ⟨?_, rfl⟩
          simp only [tables, Function.comp_update, Option.map_none, hremove]

theorem onIncomingAttach_tables (s : Session) (attach : Attach) :
    (s.onIncomingAttach attach).2.tables =
      (s.tables.step (s.tableOp (.incoming [] ⟨0, .attach attach⟩))).1 := by
  simp only [onIncomingAttach, tableOp, LinkTables.step, LinkTables.attach, tables_byName]
  cases hname : s.linkByName attach.name with
  | none => rfl
  | some entry =>
      cases entry with
      | none => rfl
      | some relay =>
          cases relay with
          | sender link outputHandle mode =>
              cases hdropped : (s.links.cell link).endpointDropped <;>
                simp [tables, Function.comp_update, LinkStore.send, LinkRelay.link, hdropped,
                  LinkRelay.key, LinkRelay.outputHandle]
          | receiver link outputHandle mode more =>
              cases hdropped : (s.links.cell link).endpointDropped <;>
                simp [tables, Function.comp_update, LinkStore.send, LinkRelay.link, hdropped,
                  LinkRelay.key, LinkRelay.outputHandle]

theorem onOutgoingDetach_tables (s : Session) (detach : Detach) :
    ((s.onOutgoingDetach detach true).2.tables,
        detachesOf (s.onOutgoingDetach detach true).1.toList) =
      s.tables.step (.localDetach ⟨detach.handle⟩) := by
  obtain ⟨htables, hfound⟩ := s.deallocateLink_tables ⟨detach.handle⟩
  have hpending : (s.deallocateLink ⟨detach.handle⟩).2.closePending = s.closePending := by
    simp only [deallocateLink]
    split <;> rfl
  simp only [onOutgoingDetach, LinkTables.step, ← hfound, if_true]
  cases hdealloc : (s.deallocateLink ⟨detach.handle⟩).1 with
  | true =>
      simp only [if_true, ← htables, hpending]
      rfl
  | false =>
      have hnone : s.tables.names.get detach.handle.toNat = none := by
        rw [hdealloc] at hfound
        simpa using hfound.symm
      simp only [Bool.false_eq_true, if_false, htables]
      simp [LinkTables.deallocate, hnone]

/-- The reply to a Detach of the peer. -/
theorem onOutgoingDetach_reply_tables (s : Session) (detach : Detach) :
    (s.onOutgoingDetach detach false).2.tables = s.tables.deallocate ⟨detach.handle⟩ ∧
      detachesOf (s.onOutgoingDetach detach false).1.toList = [⟨detach.handle⟩] :=
  ⟨(s.deallocateLink_tables ⟨detach.handle⟩).1, rfl⟩

theorem onIncomingDetach_tables (s : Session) (pending : List LinkFrame) (channel : UInt16)
    (detach : Detach) :
    ((s.onIncoming pending ⟨channel, .detach detach⟩).session.tables,
        detachesOf (s.onIncoming pending ⟨channel, .detach detach⟩).frames) =
      s.tables.step (.peerDetach ⟨detach.handle⟩) := by
  simp only [onIncoming, onIncomingDetach, LinkTables.step, tables_byInput]
  cases hrelay : s.linkByInputHandle ⟨detach.handle⟩ with
  | none => rfl
  | some relay =>
      have hreply : ∀ remoteInitiated,
          ((relay.onIncomingDetach s.links detach remoteInitiated).1.map (·.handle)) =
            if remoteInitiated then some relay.outputHandle.handle else none := by
        intro remoteInitiated
        cases relay with
        | sender link outputHandle mode =>
            simp only [LinkRelay.onIncomingDetach]
            split_ifs <;> rfl
        | receiver link outputHandle mode more =>
            simp only [LinkRelay.onIncomingDetach]
            split_ifs <;> rfl
      have hpending : s.tables.closePending relay.key.2 = s.closePending relay.outputHandle := rfl
      have hinput : (Option.map LinkRelay.key) ∘
          Function.update s.linkByInputHandle ⟨detach.handle⟩ none =
          Function.update s.tables.byInput ⟨detach.handle⟩ none := by
        rw [Function.comp_update]
        rfl
      cases hclose : s.closePending relay.outputHandle with
      | true =>
          have hnone := hreply false
          simp only [Bool.false_eq_true, if_false, Option.map_eq_none_iff] at hnone
          simp only [Option.map_some, hpending, hclose, if_true, Bool.not_true, hnone, dispatched]
          simp only [tables, hinput, detachesOf_nil]
          rfl
      | false =>
          obtain ⟨reply, hsome, hhandle⟩ := Option.map_eq_some_iff.mp (hreply true)
          have hout : (⟨reply.handle⟩ : OutputHandle) = relay.outputHandle := by
            rw [hhandle]
          simp only [Option.map_some, hpending, hclose, Bool.false_eq_true, if_false, Bool.not_false,
            hsome, dispatched]
          generalize hs' : ({ s with
            linkByInputHandle := Function.update s.linkByInputHandle ⟨detach.handle⟩ none
            closePending := Function.update s.closePending relay.outputHandle false
            links := (relay.onIncomingDetach s.links detach true).2 } : Session) = s'
          obtain ⟨htables, hframes⟩ := s'.onOutgoingDetach_reply_tables reply
          rw [htables, hframes, hout, ← hs']
          simp only [tables, hinput]
          rfl

theorem onIncoming_tables (s : Session) (pending : List LinkFrame) (frame : SessionFrame) :
    ((s.onIncoming pending frame).session.tables, detachesOf (s.onIncoming pending frame).frames) =
      s.tables.step (s.tableOp (.incoming pending frame)) := by
  obtain ⟨channel, body⟩ := frame
  cases body with
  | attach attach =>
      have htables := s.onIncomingAttach_tables attach
      simp only [onIncoming]
      cases hattach : s.onIncomingAttach attach with
      | mk result s' =>
          rw [hattach] at htables
          cases result <;> exact Prod.ext htables rfl
  | detach detach => exact s.onIncomingDetach_tables pending channel detach
  | begin begin' =>
      simp only [onIncoming, onIncomingBegin]
      cases s.localState <;> rfl
  | flow flow =>
      have htables := s.onIncomingFlow_tables flow
      have hframes := detachesOf_of_isTraffic (s.onIncomingFlow_traffic flow)
      simp only [onIncoming]
      cases hflow : s.onIncomingFlow flow with
      | mk result s' =>
          rw [hflow] at htables hframes
          cases result <;> exact Prod.ext htables hframes
  | transfer performative payload =>
      have htables := s.onIncomingTransfer_tables performative payload
      simp only [onIncoming]
      cases htransfer : s.onIncomingTransfer performative payload with
      | mk result s' =>
          rw [htransfer] at htables
          cases result with
          | error e => exact Prod.ext htables rfl
          | ok disposition =>
              have hsend := s'.sendDispositions_tables disposition.toList
              have hsent := detachesOf_of_isTraffic (s'.sendDispositions_traffic disposition.toList)
              have hflow := (s'.sendDispositions disposition.toList).2.maybeOutgoingSessionFlow_tables
              have hflows := detachesOf_of_isTraffic
                (s'.sendDispositions disposition.toList).2.maybeOutgoingSessionFlow_traffic
              refine Prod.ext (hflow.trans (hsend.trans htables)) ?_
              simp only [dispatched, detachesOf_append, hsent, hflows, List.append_nil]
              rfl
  | disposition disposition =>
      have htables := s.onIncomingDisposition_tables disposition
      have hsend := (s.onIncomingDisposition disposition).2.sendDispositions_tables
        ((s.onIncomingDisposition disposition).1.getD [])
      exact Prod.ext (hsend.trans htables) (detachesOf_of_isTraffic (sendDispositions_traffic _ _))
  | «end» end' =>
      obtain ⟨localState, reason, hsession, hframes⟩ := s.dispatchEnd_frame pending end'
      refine Prod.ext ?_ ?_
      · simp only [onIncoming, hsession]
        rfl
      · simp only [onIncoming]
        rcases hframes with hframes | ⟨-, end'', hframes⟩ <;> rw [hframes] <;> rfl

theorem onOutgoingLinkFrames_tables (s : Session) (frame : LinkFrame) (delivery : OneshotId) :
    ((s.onOutgoingLinkFrames frame).session.tables,
        detachesOf (s.onOutgoingLinkFrames frame).frames) =
      s.tables.step (s.tableOp (.linkFrame frame delivery)) := by
  by_cases hmapped : s.localState = .mapped
  · have hdispatch : ¬s.localState ≠ .mapped := not_not_intro hmapped
    have htransfer : ∀ item : BufferedTransfer, ∀ out : Dispatched,
        out = s.dispatchTransfer item →
        (out.session.tables, detachesOf out.frames) = (s.tables, []) := by
      rintro item _ rfl
      have htables := s.onOutgoingTransfer_tables item
      have hframes := detachesOf_of_isTraffic (s.onOutgoingTransfer_traffic item)
      unfold dispatchTransfer
      cases hsend : s.onOutgoingTransfer item with
      | mk result s' =>
          rw [hsend] at htables hframes
          cases result <;> exact Prod.ext htables hframes
    simp only [onOutgoingLinkFrames, if_neg hdispatch]
    cases frame with
    | firstTransfer frame => exact htransfer _ _ rfl
    | transferContinuation frame => exact htransfer _ _ rfl
    | detach detach =>
        simp only [tableOp, if_pos hmapped]
        exact s.onOutgoingDetach_tables detach
    | disposition disposition =>
        exact Prod.ext (s.onOutgoingDisposition_tables disposition) rfl
    | attach attach => rfl
    | flow flow => rfl
    | remoteTransfer frame => rfl
    | acquisition txnId => rfl
  · have hskip : s.tableOp (.linkFrame frame delivery) = .skip := by
      cases frame <;> simp [tableOp, hmapped]
    rw [hskip]
    simp only [onOutgoingLinkFrames, if_pos hmapped]
    rfl

/-- Every action of a session is one operation on its link tables. -/
theorem act_tables (s : Session) (action : SessionAction) :
    ((s.act action).1.tables, detachesOf (s.act action).2) =
      s.tables.step (s.tableOp action) := by
  cases action with
  | incoming pending frame => exact s.onIncoming_tables pending frame
  | linkFrame frame delivery => exact s.onOutgoingLinkFrames_tables frame delivery
  | allocateLink name relay =>
      have htables := s.allocateLink_tables name relay
      simp only [act, htables, tableOp]
      split_ifs <;> rfl
  | allocateIncomingLink name relay handle =>
      have htables := s.allocateIncomingLink_tables name relay handle
      simp only [act, htables, tableOp]
      split_ifs <;> rfl
  | deallocateLink handle => exact Prod.ext (s.deallocateLink_tables handle).1 rfl
  | sendBegin =>
      simp only [act, sendBegin]
      cases s.localState <;> rfl
  | sendEnd error =>
      simp only [act, sendEnd]
      cases s.localState <;> rfl
  | register link tag msg => rfl
  | endpoint links => rfl

end Session

end Fe2o3Amqp
