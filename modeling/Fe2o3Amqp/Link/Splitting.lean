import Fe2o3Amqp.Link.ResumeIntact

/-!
# When a delivery can be split

The room for payload in a frame is what the measured performative leaves of it.  A delivery state has
no bound, so that nothing may be left: then the subtraction underflows, or the loop cuts off chunks of
no bytes.
-/

namespace Fe2o3Amqp

/-- The size of the performative as it is measured, with the largest delivery-id. -/
def Transfer.performativeSize (transfer : Transfer) : Except Failure Nat :=
  serializedSize { transfer with more := true, deliveryId := some 0xffffffff }.toSer

namespace SenderLink

/-- The frames that a delivery is split into, after any number of rounds of the loop. -/
def SplitsInto (l : SenderLink) (transfer : Transfer) (payload : Payload) (frames : List LinkFrame) :
    Prop :=
  ∃ split fuel, l.startTransfer transfer payload = .ok split ∧
    TransferSplit.framesWithin fuel split = some frames

/-- There is room for the performative, and for a byte of payload if there is a payload. -/
def HasRoom (l : SenderLink) (transfer : Transfer) (payload : Payload) : Prop :=
  ∃ size, transfer.performativeSize = .ok size ∧ 4 + size ≤ l.maxFrameSize ∧
    (payload = [] ∨ 4 + size < l.maxFrameSize)

theorem maxPayload_eq_ok {l : SenderLink} {transfer : Transfer} {room : Nat} :
    l.maxPayload transfer = .ok room ↔
      ∃ size, transfer.performativeSize = .ok size ∧ 4 + size + room = l.maxFrameSize := by
  simp only [maxPayload, Transfer.performativeSize]
  cases serializedSize { transfer with more := true, deliveryId := some 0xffffffff }.toSer with
  | error e => cases e <;> simp
  | ok size =>
      by_cases hfits : 4 + size ≤ l.maxFrameSize
      · simp only [hfits, if_true, Except.ok.injEq, exists_eq_left']
        omega
      · simp only [hfits, if_false, reduceCtorEq, Except.ok.injEq, exists_eq_left', false_iff]
        omega

theorem startTransfer_eq_ok {l : SenderLink} {inputHandle : InputHandle}
    (h : l.inputHandle = some inputHandle) {transfer : Transfer} {payload : Payload}
    {split : TransferSplit} :
    l.startTransfer transfer payload = .ok split ↔
      ∃ room, l.maxPayload transfer = .ok room ∧
        ⟨inputHandle, transfer, payload, room, true⟩ = split := by
  simp only [startTransfer, h, Except.bind_eq_ok, Except.pure_eq_ok]

end SenderLink

namespace TransferSplit

theorem framesWithin_ne_nil {fuel : Nat} {split : TransferSplit} {frames : List LinkFrame}
    (h : framesWithin fuel split = some frames) : frames ≠ [] := by
  cases fuel with
  | zero => cases h
  | succ fuel =>
      rintro rfl
      simp only [framesWithin] at h
      cases hnext : split.next with
      | mk frame rest =>
          cases rest with
          | none => simp [hnext] at h
          | some rest => simp [hnext] at h

/-- A split without payload is one frame, even if it has no room. -/
theorem framesWithin_nil (split : TransferSplit) (hpayload : split.payload = []) :
    framesWithin 1 split = some [split.next.1] := by
  have hlast : ¬split.payload.length > split.maxPayload := by
    rw [hpayload]
    exact Nat.not_lt_zero _
  simp only [framesWithin, next, if_neg hlast]

end TransferSplit

/-- An attached sender splits a delivery into frames, at least one, just when there is room. -/
theorem SenderLink.splits_iff (l : SenderLink) {inputHandle : InputHandle}
    (h : l.inputHandle = some inputHandle) (transfer : Transfer) (payload : Payload) :
    (∃ frames, l.SplitsInto transfer payload frames ∧ frames ≠ []) ↔ l.HasRoom transfer payload := by
  constructor
  · rintro ⟨frames, ⟨split, fuel, hstart, hframes⟩, -⟩
    obtain ⟨room, hroom, rfl⟩ := (startTransfer_eq_ok h).mp hstart
    obtain ⟨size, hsize, hsum⟩ := maxPayload_eq_ok.mp hroom
    refine ⟨size, hsize, by omega, ?_⟩
    by_contra hnone
    obtain ⟨hpayload, hfull⟩ := not_or.mp hnone
    -- without room every round leaves the payload as it is
    have hzero : room = 0 := by omega
    subst hzero
    rw [TransferSplit.framesWithin_zero rfl hpayload] at hframes
    cases hframes
  · rintro ⟨size, hsize, hfits, hroom⟩
    have hstart : l.startTransfer transfer payload =
        .ok ⟨inputHandle, transfer, payload, l.maxFrameSize - 4 - size, true⟩ :=
      (startTransfer_eq_ok h).mpr ⟨_, maxPayload_eq_ok.mpr ⟨size, hsize, by omega⟩, rfl⟩
    rcases hroom with rfl | hroom
    · have hframes := TransferSplit.framesWithin_nil
        ⟨inputHandle, transfer, [], l.maxFrameSize - 4 - size, true⟩ rfl
      exact ⟨_, ⟨_, 1, hstart, hframes⟩, TransferSplit.framesWithin_ne_nil hframes⟩
    · have hpos : 0 < l.maxFrameSize - 4 - size := by omega
      obtain ⟨frames, -, hframes, -⟩ := TransferSplit.frames_of_pos 0
        ⟨inputHandle, transfer, payload, l.maxFrameSize - 4 - size, true⟩ rfl hpos
      exact ⟨frames, ⟨_, _, hstart, hframes⟩, TransferSplit.framesWithin_ne_nil hframes⟩

section Witnesses

private def splittingSender : SenderLink where
  name := "link"
  role := .sender
  localState := .attached
  outputHandle := some ⟨0⟩
  inputHandle := some ⟨0⟩
  sndSettleMode := .mixed
  rcvSettleMode := .first
  source := none
  targetKind := .target
  target := none
  maxMessageSize := 0
  offeredCapabilities := none
  desiredCapabilities := none
  verifyIncomingSource := false
  verifyIncomingTarget := false
  maxFrameSize := 512
  sessionStopReason := none

/-- A transfer with an outcome that the receiver has to confirm. -/
private def rejectedTransfer (description : String) : Transfer where
  handle := 0
  deliveryId := none
  deliveryTag := some [0, 0, 0, 1]
  messageFormat := some 0
  settled := some false
  more := false
  rcvSettleMode := none
  state := some (.rejected ⟨some ⟨.amqpError .internalError, some description, none⟩⟩)
  resume := false
  aborted := false
  batchable := false

theorem rejectedTransfer_splits :
    ∃ frames, splittingSender.SplitsInto (rejectedTransfer "gone") (List.replicate 600 0) frames ∧
      frames ≠ [] :=
  (SenderLink.splits_iff splittingSender rfl (rejectedTransfer "gone") (List.replicate 600 0)).mpr
    ⟨61, by decide +kernel, by decide, .inr (by decide)⟩

/-- The performative alone is longer than a frame. -/
theorem rejectedTransfer_underflows :
    ¬∃ frames, splittingSender.SplitsInto
      (rejectedTransfer (String.ofList (List.replicate 600 'a'))) [0] frames ∧ frames ≠ [] := by
  rintro ⟨frames, ⟨split, fuel, hstart, -⟩, -⟩
  obtain ⟨room, hroom, -⟩ := (SenderLink.startTransfer_eq_ok rfl).mp hstart
  obtain ⟨size, hsize, hsum⟩ := SenderLink.maxPayload_eq_ok.mp hroom
  have hlong : (rejectedTransfer (String.ofList (List.replicate 600 'a'))).performativeSize =
      .ok 678 := by decide +kernel
  cases hlong.symm.trans hsize
  have hframe : splittingSender.maxFrameSize = 512 := rfl
  omega

end Witnesses

end Fe2o3Amqp
