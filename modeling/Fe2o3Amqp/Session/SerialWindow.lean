import Fe2o3Amqp.Session.SendOrder

/-!
# The session window near the top of the transfer-ids

Transfer-ids are serial numbers: `next_outgoing_id` wraps.  The window that a flow grants is computed
with saturating arithmetic on the same ids.  The two agree as long as nothing passes the top of the
32-bit range, and nowhere else.
-/

namespace Fe2o3Amqp

/-- The window left by serial-number arithmetic: `w` transfers from the id `n` on are allowed, those
up to `next` are sent. -/
def serialWindow (next n w : UInt32) : UInt32 :=
  if next - n ≤ w then w - (next - n) else 0

theorem toNat_serialWindow (next n w : UInt32) :
    (serialWindow next n w).toNat = w.toNat - (next - n).toNat := by
  simp only [serialWindow, UInt32.le_iff_toNat_le]
  split_ifs with hle
  · exact UInt32.toNat_sub_of_le _ _ (UInt32.le_iff_toNat_le.mpr hle)
  · have hzero : (0 : UInt32).toNat = 0 := rfl
    omega

/-- Saturating and serial arithmetic agree exactly below the top. -/
theorem saturating_eq_serialWindow_iff (next n w : UInt32) :
    (n.saturatingAdd w).saturatingSub next = serialWindow next n w ↔
      n.toNat ≤ next.toNat ∧ n.toNat + w.toNat < 2 ^ 32 := by
  have hnext := next.toNat_lt
  have hn := n.toNat_lt
  have hw := w.toNat_lt
  rw [← UInt32.toNat_inj, toNat_serialWindow, UInt32.toNat_saturatingSub,
    UInt32.toNat_saturatingAdd, UInt32.toNat_sub]
  constructor
  · intro heq
    omega
  · intro hbelow
    omega

namespace Session

/-- The transfer-ids of the transfers among `frames`, which the session is about to emit: each of
them takes `next_outgoing_id` and increments it. -/
def transferIds (s : Session) (frames : List SessionFrame) : List TransferNumber :=
  (List.range (transfersOf frames).length).map fun i => s.nextOutgoingId + UInt32.ofNat i

/-- The transfer-ids emitted in a run. -/
def runTransferIds (s : Session) : List SessionAction → List TransferNumber
  | [] => []
  | action :: actions =>
      s.transferIds (s.act action).2 ++ runTransferIds (s.act action).1 actions

/-- A Flow, or the Begin that a session waits for, tells the window anew; no other action does. -/
def KeepsWindow (s : Session) : SessionAction → Prop
  | .incoming _ frame =>
      match frame.body with
      | .flow _ => False
      | .begin _ => s.localState ≠ .unmapped ∧ s.localState ≠ .beginSent
      | _ => True
  | _ => True

/-- The window after a flow, and the ids of the transfers that are emitted until the window is told
anew, follow serial-number arithmetic. -/
structure SerialWindow (s : Session) (flow : Flow) : Prop where
  window : (s.onIncomingFlowInner flow).2.remoteIncomingWindow =
    serialWindow s.nextOutgoingId (flow.nextIncomingId.getD s.initialOutgoingId) flow.incomingWindow
  ids : ∀ (pending : List LinkFrame) (channel : UInt16) (actions : List SessionAction),
    Run.Along act KeepsWindow (s.act (.incoming pending ⟨channel, .flow flow⟩)).1 actions →
    ∀ id ∈ s.runTransferIds (.incoming pending ⟨channel, .flow flow⟩ :: actions),
      id - flow.nextIncomingId.getD s.initialOutgoingId < flow.incomingWindow

/-! ## What is spent of the window -/

/-- Between `s` and `s'` at least the transfers among `frames` have left, and the window paid for
them. -/
def Spends (s s' : Session) (frames : List SessionFrame) : Prop :=
  ∃ k, (transfersOf frames).length ≤ k ∧ k ≤ s.remoteIncomingWindow.toNat ∧
    s'.nextOutgoingId = s.nextOutgoingId + UInt32.ofNat k ∧
    s'.remoteIncomingWindow.toNat = s.remoteIncomingWindow.toNat - k

namespace Spends

variable {s s' s'' : Session} {frames frames' : List SessionFrame}

theorem of_eq (hid : s'.nextOutgoingId = s.nextOutgoingId)
    (hwindow : s'.remoteIncomingWindow = s.remoteIncomingWindow)
    (hframes : transfersOf frames = []) : Spends s s' frames :=
  ⟨0, by simp [hframes], Nat.zero_le _, by simp [hid], by simp [hwindow]⟩

theorem refl (s : Session) : Spends s s [] := of_eq rfl rfl rfl

theorem trans (h : Spends s s' frames) (h' : Spends s' s'' frames') :
    Spends s s'' (frames ++ frames') := by
  obtain ⟨k, hlength, hle, hid, hwindow⟩ := h
  obtain ⟨k', hlength', hle', hid', hwindow'⟩ := h'
  refine ⟨k + k', ?_, by omega, ?_, by omega⟩
  · rw [transfersOf_append, List.length_append]
    omega
  · rw [hid', hid, UInt32.ofNat_add, UInt32.add_assoc]

/-- Frames that are not emitted after all cost what they cost. -/
theorem lost (h : Spends s s' frames) : Spends s s' [] := by
  obtain ⟨k, -, hle, hid, hwindow⟩ := h
  exact ⟨k, Nat.zero_le _, hle, hid, hwindow⟩

end Spends

theorem onOutgoingTransferInner_spends (s : Session) (item : BufferedTransfer)
    (h : 0 < s.remoteIncomingWindow.toNat) :
    Spends s (s.onOutgoingTransferInner item).2
      (okFrames (fun frame => [frame]) (s.onOutgoingTransferInner item).1) := by
  have hone : ∀ s' : Session, s'.nextOutgoingId = s.nextOutgoingId + 1 →
      s'.remoteIncomingWindow = s.remoteIncomingWindow.saturatingSub 1 →
      ∀ frame, Spends s s' [frame] := by
    intro s' hid hwindow frame
    refine ⟨1, ?_, h, hid, ?_⟩
    · exact List.length_filterMap_le _ _
    · rw [hwindow, UInt32.toNat_saturatingSub]
      rfl
  simp only [onOutgoingTransferInner]
  split
  · split
    · exact .refl s
    · split <;> exact hone _ rfl rfl _
  · exact hone _ rfl rfl _

theorem drainBuffer_spends (s : Session) (buffer : List BufferedTransfer)
    (frames : List SessionFrame) :
    ∃ sent, Spends s (s.drainBuffer buffer frames).2 sent ∧
      okFrames id (s.drainBuffer buffer frames).1 =
        okFrames (fun _ => frames ++ sent) (s.drainBuffer buffer frames).1 := by
  induction buffer generalizing s frames with
  | nil => exact ⟨[], .of_eq rfl rfl rfl, by simp [drainBuffer, okFrames]⟩
  | cons item buffer ih =>
      simp only [drainBuffer]
      split_ifs with hopen
      · have hone := s.onOutgoingTransferInner_spends item ((UInt32.pos_iff_toNat _).mp hopen)
        cases hsend : s.onOutgoingTransferInner item with
        | mk result s' =>
            rw [hsend] at hone
            cases result with
            | error e => exact ⟨[], hone, rfl⟩
            | ok frame =>
                obtain ⟨sent, hsent, hframes⟩ := ih s' (frames ++ [frame])
                refine ⟨frame :: sent, hone.trans hsent, ?_⟩
                simpa using hframes
      · exact ⟨[], .of_eq rfl rfl rfl, by simp [okFrames]⟩

theorem onOutgoingTransfer_spends (s : Session) (item : BufferedTransfer) :
    Spends s (s.onOutgoingTransfer item).2
      (okFrames itemFrames (s.onOutgoingTransfer item).1) := by
  simp only [onOutgoingTransfer]
  split_ifs with hclosed hempty
  · exact .of_eq rfl rfl rfl
  · have hpos : 0 < s.remoteIncomingWindow.toNat :=
      Nat.pos_of_ne_zero fun hzero => hclosed ((UInt32.eq_zero_iff_toNat _).mpr hzero)
    have hone := s.onOutgoingTransferInner_spends item hpos
    cases hsend : s.onOutgoingTransferInner item with
    | mk result s' =>
        rw [hsend] at hone
        cases result <;> exact hone
  · obtain ⟨sent, hsent, hframes⟩ := s.drainBuffer_spends s.remoteIncomingWindowExhaustedBuffer []
    simp only [prepareSessionFramesFromBufferedAndCurrentTransfers,
      prepareSessionFramesFromBufferedTransfers]
    cases hdrain : s.drainBuffer s.remoteIncomingWindowExhaustedBuffer [] with
    | mk result s' =>
        rw [hdrain] at hsent hframes
        cases result with
        | error e => exact hsent.lost
        | ok drained =>
            have hdrained : drained = sent := hframes
            subst hdrained
            simp only
            split_ifs with hopen
            · have hone := s'.onOutgoingTransferInner_spends item ((UInt32.pos_iff_toNat _).mp hopen)
              cases hsend : s'.onOutgoingTransferInner item with
              | mk result s'' =>
                  rw [hsend] at hone
                  cases result with
                  | error e => exact (hsent.trans hone).lost
                  | ok frame => exact hsent.trans hone
            · have hbuffer : Spends s' (s'.pushBuffer item) [] := .of_eq rfl rfl rfl
              simpa [okFrames, itemFrames] using hsent.trans hbuffer

/-- What a flow lets through is paid for by the window that the flow has told. -/
theorem onIncomingFlow_spends (s : Session) (flow : Flow) :
    Spends (s.onIncomingFlowInner flow).2 (s.onIncomingFlow flow).2
      (okFrames itemFrames (s.onIncomingFlow flow).1) := by
  simp only [onIncomingFlow]
  cases s.onIncomingFlowInner flow with
  | mk result s' =>
      cases result with
      | error e => exact .refl s'
      | ok reply =>
          have hreply : transfersOf (reply.map s'.onOutgoingFlow).toList = [] := by
            cases reply <;> rfl
          simp only
          split_ifs
          · obtain ⟨sent, hsent, hframes⟩ := s'.drainBuffer_spends
              s'.remoteIncomingWindowExhaustedBuffer (reply.map s'.onOutgoingFlow).toList
            simp only [prepareSessionFramesFromBufferedTransfers]
            cases hdrain : s'.drainBuffer s'.remoteIncomingWindowExhaustedBuffer
                (reply.map s'.onOutgoingFlow).toList with
            | mk result s'' =>
                rw [hdrain] at hsent hframes
                cases result with
                | error e => exact hsent.lost
                | ok drained =>
                    have hdrained : drained = (reply.map s'.onOutgoingFlow).toList ++ sent := hframes
                    subst hdrained
                    have hfirst : Spends s' s' (reply.map s'.onOutgoingFlow).toList :=
                      .of_eq rfl rfl hreply
                    exact hfirst.trans hsent
          · refine .of_eq rfl rfl ?_
            cases reply <;> rfl

theorem onOutgoingLinkFrames_spends (s : Session) (frame : LinkFrame) :
    Spends s (s.onOutgoingLinkFrames frame).session (s.onOutgoingLinkFrames frame).frames := by
  have htransfer : ∀ item : BufferedTransfer, ∀ out : Dispatched,
      out = s.dispatchTransfer item → Spends s out.session out.frames := by
    intro item out hout
    have hspends := s.onOutgoingTransfer_spends item
    subst hout
    unfold dispatchTransfer
    cases hsend : s.onOutgoingTransfer item with
    | mk result s' =>
        rw [hsend] at hspends
        cases result <;> exact hspends
  by_cases hmapped : s.localState = .mapped
  · have hdispatch : ¬s.localState ≠ .mapped := not_not_intro hmapped
    simp only [onOutgoingLinkFrames, if_neg hdispatch]
    cases frame with
    | firstTransfer frame => exact htransfer _ _ rfl
    | transferContinuation frame => exact htransfer _ _ rfl
    | disposition disposition =>
        obtain ⟨window, hframe⟩ := s.onOutgoingDisposition_frame disposition
        simp only [dispatched]
        rw [hframe]
        exact .of_eq rfl rfl rfl
    | detach detach =>
        obtain ⟨_, _, _, hframe⟩ := s.onOutgoingDetach_frame detach true
        have hplain := transfersOf_of_isPlain (s.onOutgoingDetach_plain detach true)
        simp only [dispatched]
        refine .of_eq ?_ ?_ hplain <;> rw [hframe]
    | attach attach => exact .of_eq rfl rfl rfl
    | flow flow => exact .of_eq rfl rfl rfl
    | remoteTransfer frame => exact .refl s
    | acquisition txnId => exact .refl s
  · simp only [onOutgoingLinkFrames, if_pos hmapped]
    exact .refl s

/-- No action but a Flow or the first Begin lets more through than the window allows. -/
theorem act_spends (s : Session) (action : SessionAction) (h : s.KeepsWindow action) :
    Spends s (s.act action).1 (s.act action).2 := by
  cases action with
  | incoming pending frame =>
      by_cases hend : ∃ end', frame.body = .end end'
      · obtain ⟨end', hend⟩ := hend
        obtain ⟨localState, reason, hsession, hframes⟩ := s.dispatchEnd_frame pending end'
        simp only [act, onIncoming, hend]
        refine .of_eq ?_ ?_ ?_
        · rw [hsession]
        · rw [hsession]
        · rcases hframes with hframes | ⟨-, end'', hframes⟩ <;> rw [hframes] <;> rfl
      by_cases hbegin : ∃ begin', frame.body = .begin begin'
      · obtain ⟨begin', hbegin⟩ := hbegin
        simp only [KeepsWindow, hbegin] at h
        simp only [act, onIncoming, hbegin, onIncomingBegin]
        cases hstate : s.localState <;> first | exact .refl s | simp [hstate] at h
      have hflow : ∀ flow, frame.body ≠ .flow flow := by
        intro flow hflow
        simp [KeepsWindow, hflow] at h
      obtain ⟨⟨_, _, _, _, _, _, _, _, _, hsession⟩, hframes⟩ := s.onIncoming_frame pending frame
        (fun begin' hbody => hbegin ⟨begin', hbody⟩) hflow fun end' hbody => hend ⟨end', hbody⟩
      refine .of_eq ?_ ?_ hframes <;> simp only [act] <;> rw [hsession]
  | linkFrame frame delivery => exact s.onOutgoingLinkFrames_spends frame
  | allocateLink name relay =>
      obtain ⟨_, _, hframe⟩ := s.allocateLink_frame name relay
      refine .of_eq ?_ ?_ rfl <;> simp only [act] <;> rw [hframe]
  | allocateIncomingLink name relay handle =>
      obtain ⟨_, _, _, hframe⟩ := s.allocateIncomingLink_frame name relay handle
      refine .of_eq ?_ ?_ rfl <;> simp only [act] <;> rw [hframe]
  | deallocateLink handle =>
      obtain ⟨_, _, hframe⟩ := s.deallocateLink_frame handle
      refine .of_eq ?_ ?_ rfl <;> simp only [act] <;> rw [hframe]
  | sendBegin =>
      refine .of_eq ?_ ?_ ?_ <;> simp only [act, sendBegin] <;> cases s.localState <;> rfl
  | sendEnd error =>
      refine .of_eq ?_ ?_ ?_ <;> simp only [act, sendEnd] <;> cases s.localState <;> rfl
  | register link tag msg => exact .of_eq rfl rfl rfl
  | endpoint links => exact .of_eq rfl rfl rfl

/-! ## Runs -/

/-- The window allows no more than what is left of `w` transfers from the id `n` on. -/
def Within (s : Session) (n w : UInt32) : Prop :=
  s.remoteIncomingWindow.toNat ≤ w.toNat - (s.nextOutgoingId - n).toNat

/-- Transfers that the window pays for keep its end where it is. -/
theorem Within.spends {s s' : Session} {n w : UInt32} {frames : List SessionFrame}
    (h : s.Within n w) (hspends : Spends s s' frames) :
    s'.Within n w ∧ ∀ id ∈ s.transferIds frames, id - n < w := by
  obtain ⟨k, hlength, hle, hid, hwindow⟩ := hspends
  have hw := w.toNat_lt
  have hsent := (s.nextOutgoingId - n).toNat_lt
  -- as long as the window pays, the distance from `n` grows without wrapping
  have hdistance : ∀ i, i ≤ s.remoteIncomingWindow.toNat →
      (s.nextOutgoingId + UInt32.ofNat i - n).toNat = (s.nextOutgoingId - n).toNat + i := by
    intro i hi
    unfold Within at h
    have hcomm : s.nextOutgoingId + UInt32.ofNat i - n = s.nextOutgoingId - n + UInt32.ofNat i := by
      rw [UInt32.sub_eq_add_neg, UInt32.sub_eq_add_neg, UInt32.add_assoc, UInt32.add_assoc,
        UInt32.add_comm (UInt32.ofNat i)]
    rw [hcomm, UInt32.toNat_add, UInt32.toNat_ofNat']
    omega
  constructor
  · unfold Within at h ⊢
    rw [hid, hdistance k hle, hwindow]
    omega
  · intro id hmem
    obtain ⟨i, hi, rfl⟩ := List.mem_map.mp hmem
    have hlt : i < (transfersOf frames).length := List.mem_range.mp hi
    rw [UInt32.lt_iff_toNat_lt, hdistance i (by omega)]
    unfold Within at h
    omega

theorem Within.run {s : Session} {n w : UInt32} (h : s.Within n w) {actions : List SessionAction}
    (hkeeps : Run.Along act KeepsWindow s actions) :
    ∀ id ∈ s.runTransferIds actions, id - n < w := by
  induction actions generalizing s with
  | nil => simp [runTransferIds]
  | cons action actions ih =>
      obtain ⟨haction, hrest⟩ := hkeeps
      obtain ⟨hnext, hids⟩ := h.spends (s.act_spends action haction)
      intro id hmem
      rcases List.mem_append.mp hmem with hmem | hmem
      · exact hids id hmem
      · exact ih hnext hrest id hmem

theorem onIncomingFlowInner_window (s : Session) (flow : Flow) :
    (s.onIncomingFlowInner flow).2.nextOutgoingId = s.nextOutgoingId ∧
      (s.onIncomingFlowInner flow).2.remoteIncomingWindow =
        ((flow.nextIncomingId.getD s.initialOutgoingId).saturatingAdd
          flow.incomingWindow).saturatingSub s.nextOutgoingId := by
  have happly : (s.applySessionFlow flow).nextOutgoingId = s.nextOutgoingId ∧
      (s.applySessionFlow flow).remoteIncomingWindow =
        ((flow.nextIncomingId.getD s.initialOutgoingId).saturatingAdd
          flow.incomingWindow).saturatingSub s.nextOutgoingId := by
    refine ⟨rfl, ?_⟩
    simp only [applySessionFlow]
    cases flow.nextIncomingId <;> rfl
  simp only [onIncomingFlowInner]
  split
  · exact happly
  · split
    · exact happly
    · split <;> exact happly

/-- The window follows serial-number arithmetic exactly when neither the ids that are sent nor those
that the flow allows have passed the top. -/
theorem serial_window_iff (s : Session) (flow : Flow) :
    s.SerialWindow flow ↔
      (flow.nextIncomingId.getD s.initialOutgoingId).toNat ≤ s.nextOutgoingId.toNat ∧
      (flow.nextIncomingId.getD s.initialOutgoingId).toNat + flow.incomingWindow.toNat < 2 ^ 32 := by
  obtain ⟨hid, hwindow⟩ := s.onIncomingFlowInner_window flow
  rw [← saturating_eq_serialWindow_iff, ← hwindow]
  constructor
  · exact fun h => h.window
  intro hserial
  refine ⟨hserial, fun pending channel actions hkeeps => ?_⟩
  generalize flow.nextIncomingId.getD s.initialOutgoingId = n at hserial hwindow ⊢
  have hwithin : (s.onIncomingFlowInner flow).2.Within n flow.incomingWindow := by
    unfold Within
    rw [hid, hserial, toNat_serialWindow]
  -- the flow itself may let buffered transfers through
  have hflow : (s.act (.incoming pending ⟨channel, .flow flow⟩)).1 = (s.onIncomingFlow flow).2 ∧
      (s.act (.incoming pending ⟨channel, .flow flow⟩)).2 =
        okFrames itemFrames (s.onIncomingFlow flow).1 := by
    simp only [act, onIncoming]
    cases s.onIncomingFlow flow with
    | mk result s' => cases result <;> exact ⟨rfl, rfl⟩
  obtain ⟨hnext, hids⟩ := hwithin.spends (s.onIncomingFlow_spends flow)
  rw [← hflow.1] at hnext
  rw [← hflow.2] at hids
  intro id hmem
  rcases List.mem_append.mp hmem with hmem | hmem
  · refine hids id ?_
    simpa [transferIds, hid] using hmem
  · exact hnext.run hkeeps id hmem

section Top

private def grant (nextIncomingId incomingWindow : UInt32) : Flow where
  nextIncomingId := some nextIncomingId
  incomingWindow := incomingWindow
  nextOutgoingId := 0
  outgoingWindow := 10
  handle := none
  deliveryCount := none
  linkCredit := none
  available := none
  drain := false
  echo := false
  properties := none

private def sentUpTo (next : UInt32) : Session :=
  SessionBuilder.intoSession { nextOutgoingId := next } 0 .mapped LinkStore.empty

/-- Next to the top the sum saturates and the window is too small; once the ids have wrapped, the
difference saturates and the window is far too large. -/
theorem serial_window_fails_at_top :
    ¬(sentUpTo 0xffffffff).SerialWindow (grant 0xffffffff 10) ∧
      ¬(sentUpTo 0).SerialWindow (grant 0xffffffff 10) := by
  constructor <;> intro h <;> exact absurd h.window (by decide)

end Top

end Session

end Fe2o3Amqp
