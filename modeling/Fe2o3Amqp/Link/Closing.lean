import Fe2o3Amqp.Link.Attach
import Fe2o3Amqp.Link.Reassembly

/-!
# The closing handshake of a receiver

What `close_with_error` does behind its Detach: it waits for the Detach of the peer, and when that one
only suspends the link, it attaches the link again and closes it once more.  An Attach that is taken
and then found wanting leaves the link attached, with an error.
-/

namespace Fe2o3Amqp

/-- What the session and the peer answer.  A relay that has nothing more to forward is gone. -/
structure ClosingPeer where
  forwarded : List LinkFrame
  /-- The handle of the reattach; `none` where the session gives none. -/
  allocated : Option OutputHandle
  attachTaken : Bool
  /-- What the relay of the reattached link forwards. -/
  reattached : List LinkFrame
  detachTaken : Bool

def LinkFrame.detach? : LinkFrame → Option Detach
  | .detach performative => some performative
  | _ => none

/-- `recv_remote_detach`: frames that are no Detach are skipped. -/
def recvRemoteDetach (frames : List LinkFrame) : Option Detach := frames.findSome? (·.detach?)

namespace LinkEndpoint

/-- `recv_detach`: one frame is looked at. -/
def recvDetach (l : LinkEndpoint) (frames : List LinkFrame) : LinkEndpoint :=
  match frames with
  | .detach detach :: _ => (l.onDetachReply detach).2
  | _ => l

/-- `handle_attach_error` of a receiver. -/
def handleAttachError (l : LinkEndpoint) (detachTaken : Bool) (frames : List LinkFrame)
    (error : AttachError) : LinkEndpoint :=
  match refusal error with
  | none => l
  | some description =>
      match l.sendDetach true description with
      | (.ok _, l) => if detachTaken || description.isNone then l.recvDetach frames else l
      | (.error _, l) => if description.isNone then l.recvDetach frames else l

/-- `exchange_attach` of a link that is reattached, and what its outcome leads to; whether the link is
attached then, and the frames that the relay forwards next. -/
def exchangeReattach (l : LinkEndpoint) (cell : LinkCell) (maxFrameSize : Nat) (peer : ClosingPeer) :
    Option (List LinkFrame) × LinkEndpoint × LinkCell :=
  match l.prepareAttach cell maxFrameSize true with
  | (.error _, cell) => (none, l, cell)
  | (.ok attach, cell) =>
      if !peer.attachTaken then (none, l, cell)
      else
        let l := l.attachSent attach
        match peer.reattached with
        | .attach remoteAttach :: frames =>
            match l.acceptAttach cell remoteAttach with
            | (.error e, l, cell) => (none, l.handleAttachError peer.detachTaken frames e, cell)
            | (.ok _, l, cell) =>
                match ReceiverAttachExchange.ofUnsettled l.localState remoteAttach.unsettled with
                | .complete => (some frames, l, cell)
                | .incompleteUnsettled | .resume => (none, l, cell)
        | _ => (none, l, cell)

/-- `reattach_then_close`; `stopped` is the error for a session that is gone. -/
def reattachThenClose (l : LinkEndpoint) (cell : LinkCell) (maxFrameSize : Nat)
    (stopped : DetachError) (peer : ClosingPeer) :
    Except DetachError Unit × LinkEndpoint × LinkCell :=
  match peer.allocated with
  | none => (.error stopped, l, cell)
  | some handle =>
      match { l with outputHandle := some handle }.exchangeReattach cell maxFrameSize peer with
      | (none, l, cell) => (.error stopped, l, cell)
      | (some frames, l, cell) =>
          match l.sendDetach true none with
          | (.error e, l) => (.error e, l, cell)
          | (.ok _, l) =>
              if !peer.detachTaken then (.error stopped, l, cell)
              else
                match recvRemoteDetach frames with
                | none => (.error stopped, l, cell)
                | some detach =>
                    let (result, l) := l.onDetachReply detach
                    (result, l, cell)

/-- `close_with_error` of a link whose Detach is handed over. -/
def awaitClose (l : LinkEndpoint) (cell : LinkCell) (maxFrameSize : Nat) (stopped : DetachError)
    (peer : ClosingPeer) : Except DetachError Unit × LinkEndpoint × LinkCell :=
  match recvRemoteDetach peer.forwarded with
  | none => (.error stopped, l, cell)
  | some detach =>
      match l.localState, detach.closed with
      | .detachSent, true =>
          let (result, l, cell) := l.reattachThenClose cell maxFrameSize stopped peer
          (result.bind fun _ => .error .closedByRemote, l, cell)
      | .detachSent, false =>
          let (result, l) := l.applyRemoteDetachOutcome detach
          (result, l, cell)
      | _, true =>
          let (result, l) := l.onDetachReply detach
          (result, l, cell)
      | _, false =>
          (l.applyRemoteDetachOutcome detach).2.reattachThenClose cell maxFrameSize stopped peer

/-! ## How it ends -/

variable {l l' : LinkEndpoint} {cell cell' : LinkCell} {maxFrameSize : Nat} {stopped : DetachError}
  {peer : ClosingPeer}

theorem applyRemoteDetachOutcome_localState (detach : Detach)
    (h : l.localState = .closeSent ∨ l.localState = .detachSent) :
    (l.applyRemoteDetachOutcome detach).2.localState =
      if detach.closed then .closed else .detached := by
  rcases h with h | h <;> simp [applyRemoteDetachOutcome, h]

theorem onDetachReply_ok {detach : Detach} (h : l.localState = .closeSent)
    (hok : (l.onDetachReply detach).1 = .ok ()) : (l.onDetachReply detach).2.localState = .closed := by
  cases hclosed : detach.closed with
  | true => simp [onDetachReply, applyRemoteDetachOutcome, h, hclosed]
  | false => simp [onDetachReply, h, hclosed] at hok

theorem onDetachReply_ne_attached (detach : Detach) (h : l.localState ≠ .attached) :
    (l.onDetachReply detach).2.localState ≠ .attached := by
  simp only [onDetachReply, applyRemoteDetachOutcome]
  cases hstate : l.localState <;> cases hclosed : detach.closed <;> simp_all

theorem sendDetach_closeSent {error : Option Error} {detach : Detach}
    (h : l.sendDetach true error = (.ok detach, l')) : l'.localState = .closeSent := by
  simp only [sendDetach] at h
  split at h
  · cases houtput : l.outputHandle <;> simp [houtput] at h
    rw [← h.2]
  · cases h

/-- The link is attached again, for better or worse, only if an Attach has come. -/
theorem exchangeReattach_attached (h : l.localState = .detached ∨ l.localState = .detachSent)
    (hattached : (l.exchangeReattach cell maxFrameSize peer).2.1.localState = .attached) :
    ∃ attach frames, peer.reattached = .attach attach :: frames := by
  have hstate : l.localState ≠ .attached := by rcases h with h | h <;> simp [h]
  have hsent (attach : Attach) : (l.attachSent attach).localState ≠ .attached := by
    rcases h with h | h <;> cases hincomplete : attach.incompleteUnsettled <;>
      simp [attachSent, attachSentState, h, hincomplete]
  simp only [exchangeReattach] at hattached
  split at hattached
  · exact absurd hattached hstate
  · split_ifs at hattached
    · exact absurd hattached hstate
    · split at hattached
      · next attach frames hframes => exact ⟨attach, frames, hframes⟩
      · exact absurd hattached (hsent _)

theorem exchangeReattach_some {frames : List LinkFrame}
    (h : (l.exchangeReattach cell maxFrameSize peer).1 = some frames) :
    ∃ attach, peer.reattached = .attach attach :: frames := by
  simp only [exchangeReattach] at h
  split at h
  · cases h
  · split_ifs at h
    split at h
    · next attach frames' hframes =>
        split at h
        · cases h
        · split at h
          · cases h
            exact ⟨attach, hframes⟩
          · cases h
          · cases h
    · cases h

theorem reattachThenClose_ok
    (h : (l.reattachThenClose cell maxFrameSize stopped peer).1 = .ok ()) :
    (l.reattachThenClose cell maxFrameSize stopped peer).2.1.localState = .closed := by
  simp only [reattachThenClose] at h ⊢
  split at h
  · cases h
  · split at h
    · cases h
    · split at h
      · cases h
      · next hsent =>
          split_ifs at h with htaken
          split at h
          · cases h
          · next hreply =>
              simp only [htaken]
              exact onDetachReply_ok (sendDetach_closeSent hsent) h

/-- A reattach that fails behind the Attach of the peer leaves the link attached, with an error. -/
theorem reattachThenClose_attached (h : l.localState = .detached ∨ l.localState = .detachSent)
    (hattached : (l.reattachThenClose cell maxFrameSize stopped peer).2.1.localState = .attached) :
    ∃ attach frames, peer.reattached = .attach attach :: frames := by
  simp only [reattachThenClose] at hattached
  cases hallocated : peer.allocated with
  | none =>
      simp only [hallocated] at hattached
      rcases h with h | h <;> rw [h] at hattached <;> cases hattached
  | some handle =>
      simp only [hallocated] at hattached
      cases hexchange : { l with outputHandle := some handle }.exchangeReattach cell maxFrameSize
          peer with
      | mk outcome rest =>
          cases outcome with
          | some frames =>
              obtain ⟨attach, hframes⟩ := exchangeReattach_some (congrArg Prod.fst hexchange)
              exact ⟨attach, frames, hframes⟩
          | none =>
              have hreattached :=
                @exchangeReattach_attached { l with outputHandle := some handle } cell maxFrameSize peer h
              rw [hexchange] at hattached hreattached
              exact hreattached hattached

end LinkEndpoint

/-- The Detach of the peer is not of the kind that the link has sent, and the Attach of the reattach is
answered. -/
def ClosingPeer.AttachesAgain (peer : ClosingPeer) (localState : LinkState) : Prop :=
  (∃ detach, recvRemoteDetach peer.forwarded = some detach ∧
      detach.closed = decide (localState = .detachSent)) ∧
    ∃ attach frames, peer.reattached = .attach attach :: frames

namespace LinkEndpoint

variable {l l' : LinkEndpoint} {cell cell' : LinkCell} {maxFrameSize : Nat} {stopped : DetachError}
  {peer : ClosingPeer}

/-- A handshake that succeeds ends with the link closed, or detached if that is what was asked for. -/
theorem awaitClose_ok (h : l.localState = .closeSent ∨ l.localState = .detachSent)
    (hok : (l.awaitClose cell maxFrameSize stopped peer).1 = .ok ()) :
    (l.awaitClose cell maxFrameSize stopped peer).2.1.localState =
      if l.localState = .detachSent then .detached else .closed := by
  cases hreply : recvRemoteDetach peer.forwarded with
  | none => simp [awaitClose, hreply] at hok
  | some detach =>
      rcases h with hstate | hstate <;> cases hclosed : detach.closed <;>
        simp only [awaitClose, hreply, hstate, hclosed] at hok ⊢
      · exact reattachThenClose_ok hok
      · exact onDetachReply_ok hstate hok
      · rw [applyRemoteDetachOutcome_localState detach (.inr hstate), hclosed]
        rfl
      · cases hreattached : (l.reattachThenClose cell maxFrameSize stopped peer).1 <;>
          rw [hreattached] at hok <;> cases hok

/-- A link that is attached after the handshake was attached again, and the handshake has failed. -/
theorem awaitClose_attached (h : l.localState = .closeSent ∨ l.localState = .detachSent)
    (hattached : (l.awaitClose cell maxFrameSize stopped peer).2.1.localState = .attached) :
    peer.AttachesAgain l.localState ∧
      ∃ e, (l.awaitClose cell maxFrameSize stopped peer).1 = .error e := by
  refine ⟨?_, ?_⟩
  · have hstate : l.localState ≠ .attached := by rcases h with h | h <;> simp [h]
    cases hreply : recvRemoteDetach peer.forwarded with
    | none =>
        simp only [awaitClose, hreply] at hattached
        exact absurd hattached hstate
    | some detach =>
        have happly := applyRemoteDetachOutcome_localState detach h
        rcases h with h | h <;> cases hclosed : detach.closed <;>
          simp only [awaitClose, hreply, h, hclosed] at hattached
        · rw [hclosed] at happly
          exact ⟨⟨detach, hreply, by rw [hclosed, h]; rfl⟩,
            reattachThenClose_attached (.inl happly) hattached⟩
        · exact absurd hattached (l.onDetachReply_ne_attached detach hstate)
        · rw [happly, hclosed] at hattached
          cases hattached
        · exact ⟨⟨detach, hreply, by rw [hclosed, h]; rfl⟩,
            reattachThenClose_attached (.inr h) hattached⟩
  · cases hresult : (l.awaitClose cell maxFrameSize stopped peer).1 with
    | error e => exact ⟨e, rfl⟩
    | ok _ =>
        have hstate := awaitClose_ok h hresult
        rw [hattached] at hstate
        split_ifs at hstate

end LinkEndpoint

/-! ## A receiver that closes its link -/

/-- The handshake of the link whose endpoint has handed its Detach over. -/
def Closing.ofHandshake (l : LinkEndpoint) (cell : LinkCell) (maxFrameSize : Nat)
    (stopped : DetachError) (peer : ClosingPeer) : Closing :=
  let (result, l, _) := l.awaitClose cell maxFrameSize stopped peer
  ⟨l.localState, result⟩

namespace ReceiverInner

variable {r : ReceiverInner} {l : LinkEndpoint} {cell : LinkCell} {maxFrameSize : Nat}
  {stopped : DetachError} {peer : ClosingPeer}

/-- An attached link is closed if the handshake succeeds; if it does not, it is attached only when it
was attached again. -/
theorem closeWithError_handshake (h : r.link.localState = .attached) (hl : l.localState = .closeSent)
    (error : Option Error) :
    let out := r.closeWithError (.ofHandshake l cell maxFrameSize stopped peer) error
    (out.1 = .ok () → out.2.link.localState = .closed) ∧
      (out.2.link.localState = .attached → peer.AttachesAgain .closeSent ∧ ∃ e, out.1 = .error e) := by
  have hok := @LinkEndpoint.awaitClose_ok l cell maxFrameSize stopped peer (.inl hl)
  have hattached := @LinkEndpoint.awaitClose_attached l cell maxFrameSize stopped peer (.inl hl)
  rw [hl] at hok hattached
  simp only [closeWithError, h]
  split
  · simp [withLink]
  · split
    · simp [withLink]
    · exact ⟨hok, hattached⟩

end ReceiverInner

end Fe2o3Amqp
