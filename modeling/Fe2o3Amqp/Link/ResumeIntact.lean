import Fe2o3Amqp.Link.ResumePayload

/-!
# When a resumed delivery is intact

The receiver counts sections from one, chunk by chunk; the sender reads the count from zero, over the
whole payload.  What is kept and what is resumed fit where the two disagreements cancel.
-/

namespace Fe2o3Amqp

/-! ## The frames of a split -/

theorem continuationFrames_more (transfer : Transfer) (more : Bool) (chunks : List Payload) :
    continuationFrames { transfer with more } chunks = continuationFrames transfer chunks := by
  induction chunks with
  | nil => rfl
  | cons chunk chunks ih => rw [continuationFrames, continuationFrames, ih]

/-- The session makes the first frame of it. -/
theorem firstFrame_numbered (inputHandle : InputHandle) (transfer : Transfer)
    (deliveryId : DeliveryNumber) {chunks : List Payload} (h : chunks ≠ []) :
    (firstFrame inputHandle transfer chunks).numbered deliveryId =
      (transferFrames transfer deliveryId chunks).head? := by
  obtain ⟨chunk, chunks, rfl⟩ := List.exists_cons_of_ne_nil h
  cases chunks <;> rfl

namespace TransferSplit

theorem framesWithin_continuation (deliveryId : DeliveryNumber) (fuel : Nat) (split : TransferSplit)
    (hfirst : split.isFirst = false) (hroom : 0 < split.maxPayload)
    (hfuel : split.payload.length < fuel) :
    ∃ frames chunks, framesWithin fuel split = some frames ∧ chunks ≠ [] ∧
      chunks.flatten = split.payload ∧
      frames.filterMap (·.numbered deliveryId) = continuationFrames split.transfer chunks := by
  induction fuel generalizing split with
  | zero => exact absurd hfuel (Nat.not_lt_zero _)
  | succ fuel ih =>
      by_cases hmore : split.payload.length > split.maxPayload
      · obtain ⟨frames, chunks, hframes, hchunks, hflatten, hnumbered⟩ :=
          ih
            { split with
              transfer := { split.transfer with more := true }
              payload := split.payload.drop split.maxPayload
              isFirst := false } rfl hroom (by simp only [List.length_drop]; omega)
        obtain ⟨chunk, chunks, rfl⟩ := List.exists_cons_of_ne_nil hchunks
        refine ⟨split.frame { split.transfer with more := true }
            (split.payload.take split.maxPayload) :: frames,
          split.payload.take split.maxPayload :: chunk :: chunks, ?_, List.cons_ne_nil _ _, ?_, ?_⟩
        · simp only [framesWithin, next, if_pos hmore, hfirst, Bool.false_eq_true, if_false, hframes,
            Option.map_some]
        · rw [List.flatten_cons, hflatten, List.take_append_drop]
        · rw [continuationFrames_more] at hnumbered
          rw [List.filterMap_cons, hnumbered]
          simp only [frame, hfirst, Bool.false_eq_true, if_false, LinkFrame.numbered]
          rfl
      · refine ⟨[split.frame { split.transfer with more := false } split.payload], [split.payload],
          by simp only [framesWithin, next, if_neg hmore],
          List.cons_ne_nil _ _, List.flatten_singleton, ?_⟩
        simp only [frame, hfirst, Bool.false_eq_true, if_false, List.filterMap_cons,
          LinkFrame.numbered, List.filterMap_nil]
        rfl

/-- A split whose frames have room ends, and its frames are those of its payload cut into chunks. -/
theorem frames_of_pos (deliveryId : DeliveryNumber) (split : TransferSplit)
    (hfirst : split.isFirst = true) (hroom : 0 < split.maxPayload) :
    ∃ frames chunks, split.frames = some frames ∧ chunks ≠ [] ∧ chunks.flatten = split.payload ∧
      frames.filterMap (·.numbered deliveryId) =
        transferFrames split.transfer deliveryId chunks := by
  rw [frames]
  by_cases hmore : split.payload.length > split.maxPayload
  · obtain ⟨frames, chunks, hframes, hchunks, hflatten, hnumbered⟩ :=
      framesWithin_continuation deliveryId split.payload.length
        { split with
          transfer := { split.transfer with more := true }.clearContinuationFields
          payload := split.payload.drop split.maxPayload
          isFirst := false } rfl hroom
        (by simp only [List.length_drop]; omega)
    obtain ⟨chunk, chunks, rfl⟩ := List.exists_cons_of_ne_nil hchunks
    refine ⟨split.frame { split.transfer with more := true }
        (split.payload.take split.maxPayload) :: frames,
      split.payload.take split.maxPayload :: chunk :: chunks, ?_, List.cons_ne_nil _ _, ?_, ?_⟩
    · simp only [framesWithin, next, if_pos hmore, hfirst, if_true, hframes, Option.map_some]
    · rw [List.flatten_cons, hflatten, List.take_append_drop]
    · have hclear : { split.transfer with more := true }.clearContinuationFields =
          { split.transfer.clearContinuationFields with more := true } := rfl
      rw [hclear, continuationFrames_more] at hnumbered
      rw [List.filterMap_cons, hnumbered]
      simp only [frame, hfirst, if_true, LinkFrame.numbered]
      rfl
  · refine ⟨[split.frame { split.transfer with more := false } split.payload], [split.payload],
          by simp only [framesWithin, next, if_neg hmore],
      List.cons_ne_nil _ _, List.flatten_singleton, ?_⟩
    simp only [frame, hfirst, if_true, List.filterMap_cons, LinkFrame.numbered, List.filterMap_nil]
    rfl

/-- A split whose frames have no room never ends. -/
theorem framesWithin_zero {split : TransferSplit} (hroom : split.maxPayload = 0)
    (hpayload : split.payload ≠ []) (fuel : Nat) : framesWithin fuel split = none := by
  induction fuel generalizing split with
  | zero => rfl
  | succ fuel ih =>
      have hmore : split.payload.length > split.maxPayload := by
        rw [hroom]
        exact List.length_pos_iff.mpr hpayload
      simp only [framesWithin, next, if_pos hmore]
      rw [ih, Option.map_none]
      · exact hroom
      · rw [hroom, List.drop_zero]
        exact hpayload

end TransferSplit

/-! ## What the receiver counts -/

namespace IncompleteTransfer

variable {E : Type} {incomplete incomplete' : IncompleteTransfer} {transfer : Transfer}
  {payload : Payload}

/-- The sections are counted chunk by chunk, the first being one. -/
structure Counts (incomplete : IncompleteTransfer) : Prop where
  number : incomplete.sectionNumber.toNat = (wholeHeaders 0 incomplete.buffer).length % 2 ^ 32
  offset : incomplete.sectionOffset.toNat =
    (incomplete.buffer.flatten.length - lastWhole incomplete.buffer) % 2 ^ 64

theorem start_counts (h : start (E := E) transfer payload = .ok incomplete) : incomplete.Counts := by
  simp only [start] at h
  split at h
  · cases h
  · split at h
    · cases h
    · simp only [countNumberOfSectionsAndOffset, Except.ok.injEq] at h
      subst h
      refine ⟨?_, ?_⟩
      · simp [wholeHeaders]
      · simp [lastWhole, wholeHeaders]

theorem Counts.append (h : incomplete.Counts) {chunk : Payload} (hchunk : chunk.length < 2 ^ 32) :
    (incomplete.append chunk).Counts := by
  have hle := length_sectionHeaders_le chunk
  have hlast := lastWhole_le incomplete.buffer
  have hnumber := h.number
  have hoffset := h.offset
  have hbuffer : (incomplete.append chunk).buffer = incomplete.buffer ++ [chunk] := rfl
  cases hheader : (sectionHeaders chunk).getLast? with
  | none =>
      -- the chunk lengthens the last section
      rw [List.getLast?_eq_none_iff] at hheader
      have hcount : countNumberOfSectionsAndOffset chunk = (0, UInt64.ofNat chunk.length) := by
        simp [countNumberOfSectionsAndOffset, hheader]
      refine ⟨?_, ?_⟩
      · rw [hbuffer, wholeHeaders_snoc, hheader, List.map_nil, List.append_nil, ← hnumber]
        simp only [IncompleteTransfer.append, hcount, if_true]
      · rw [hbuffer, lastWhole_snoc, hheader, List.flatten_append, List.flatten_singleton,
          List.length_append]
        simp only [IncompleteTransfer.append, hcount, if_true, UInt64.toNat_add, hoffset,
          UInt64.toNat_ofNat', List.getLast?_nil, Option.map_none, Option.getD_none]
        omega
  | some header =>
      have hpos : 0 < (sectionHeaders chunk).length :=
        List.length_pos_of_mem (List.mem_of_getLast? hheader)
      have hcount : countNumberOfSectionsAndOffset chunk =
          (UInt32.ofNat (sectionHeaders chunk).length, UInt64.ofNat (chunk.length - header)) := by
        simp [countNumberOfSectionsAndOffset, hheader]
      have hne : UInt32.ofNat (sectionHeaders chunk).length ≠ 0 := by
        intro hzero
        have hnat := congrArg UInt32.toNat hzero
        rw [UInt32.toNat_ofNat'] at hnat
        change (sectionHeaders chunk).length % 2 ^ 32 = 0 at hnat
        omega
      refine ⟨?_, ?_⟩
      · rw [hbuffer, wholeHeaders_snoc, List.length_append, List.length_map]
        simp only [IncompleteTransfer.append, hcount, if_neg hne, UInt32.toNat_add, hnumber,
          UInt32.toNat_ofNat']
        omega
      · rw [hbuffer, lastWhole_snoc, hheader, List.flatten_append, List.flatten_singleton,
          List.length_append]
        simp only [IncompleteTransfer.append, hcount, if_neg hne, UInt64.toNat_ofNat',
          Option.map_some, Option.getD_some]
        congr 1
        omega

theorem tryAppend_ok (h : incomplete.tryAppend (E := E) transfer payload = .ok incomplete') :
    ∃ performative, incomplete' = { incomplete with performative }.append payload := by
  simp only [tryAppend] at h
  split at h
  · cases h
  · split at h
    · cases h
    · next performative hmerge =>
        cases h
        exact ⟨performative, rfl⟩

/-! ## Gathering frames -/

/-- The scan of the receiver does not come to this position. -/
def NotReached (received : Received) (payload : Payload) : Prop :=
  positionOfSectionNumberAndOffset.scan received.sectionNumber received.sectionOffset 0 0 0
    payload = none

private theorem scan_append {sectionNumber : UInt32} {sectionOffset : UInt64} {curNumber : UInt32}
    {curOffset : UInt64} {i position : Nat} {bytes : Bytes} (rest : Bytes)
    (h : positionOfSectionNumberAndOffset.scan sectionNumber sectionOffset curNumber curOffset i
      bytes = some position) :
    positionOfSectionNumberAndOffset.scan sectionNumber sectionOffset curNumber curOffset i
      (bytes ++ rest) = some position := by
  induction bytes generalizing curNumber curOffset i with
  | nil => cases h
  | cons b0 bytes ih =>
      rcases bytes with _ | ⟨b1, _ | ⟨b2, bytes⟩⟩
      · cases h
      · cases h
      · simp only [positionOfSectionNumberAndOffset.scan, List.cons_append] at h ⊢
        split_ifs at h ⊢
        · exact h
        · exact ih h
        · exact h
        · exact ih h

theorem NotReached.mono {received : Received} {bytes payload : Payload}
    (h : NotReached received payload) (hbegins : bytes <+: payload) : NotReached received bytes := by
  obtain ⟨rest, rfl⟩ := hbegins
  rw [NotReached, ← Option.not_isSome_iff_eq_none]
  intro hsome
  obtain ⟨position, hposition⟩ := Option.isSome_iff_exists.mp hsome
  rw [NotReached, scan_append rest hposition] at h
  cases h

/-- The state cuts no buffer that holds the beginning of the payload. -/
def Harmless (state : Option DeliveryState) (payload : Payload) : Prop :=
  ∀ received, state = some (.received received) → NotReached received payload

theorem onTransferState_harmless (incomplete : IncompleteTransfer) (transfer : Transfer)
    {whole : Payload} (h : Harmless transfer.state whole)
    (hbegins : incomplete.buffer.flatten <+: whole) :
    incomplete.onTransferState transfer = incomplete := by
  simp only [onTransferState]
  split
  · next received _ hstate =>
      have hnone : incomplete.positionOfSectionNumberAndOffset received.sectionNumber
          received.sectionOffset = none := (h received hstate).mono hbegins
      simp only [keepBufferTillSectionNumberAndOffset, hnone]
  · rfl

variable {frames : List TransferFrame}

/-- A further frame of the delivery that contradicts nothing is appended. -/
theorem gather_some (h : incomplete.Merges frames) (frame : TransferFrame) {whole : Payload}
    (hconflict : ¬ Conflicts frames frame.1) (hstate : Harmless frame.1.state whole)
    (hbegins : incomplete.buffer.flatten <+: whole) :
    ∃ incomplete', gather (some incomplete) frame = some incomplete' ∧
      incomplete'.Merges (frames ++ [frame]) ∧
      ∃ performative, incomplete' = { incomplete with performative }.append frame.2 := by
  simp only [gather, extend, Option.map_some, incomplete.onTransferState_harmless frame.1 hstate hbegins]
  cases happend : incomplete.tryAppend (E := Unit) frame.1 frame.2 with
  | error e => exact absurd ((h.tryAppend_error_iff (E := Unit) frame.1 frame.2).mp ⟨e, happend⟩) hconflict
  | ok incomplete' => exact ⟨incomplete', rfl, h.tryAppend happend, tryAppend_ok happend⟩

/-- A frame that names no delivery. -/
def Continues (transfer : Transfer) : Prop :=
  transfer.deliveryId = none ∧ transfer.deliveryTag = none ∧ transfer.messageFormat = none

theorem Continues.not_conflicts (h : Continues transfer) (frames : List TransferFrame) :
    ¬ Conflicts frames transfer := by
  obtain ⟨hid, htag, hformat⟩ := h
  rintro (⟨_, _, -, hother, -⟩ | ⟨_, _, -, hother, -⟩ | ⟨_, _, -, hother, -⟩)
  · simp [hid] at hother
  · simp [htag] at hother
  · simp [hformat] at hother

theorem payloadOf_cons (frame : TransferFrame) (frames : List TransferFrame) :
    payloadOf (frame :: frames) = frame.2 ++ payloadOf frames := List.flatMap_cons

/-- All frames that continue a delivery are appended. -/
theorem gatherAll_continuations (h : incomplete.Merges frames) {whole : Payload}
    {later : List TransferFrame}
    (hlater : ∀ frame ∈ later, Continues frame.1 ∧ Harmless frame.1.state whole)
    (hbegins : incomplete.buffer.flatten ++ payloadOf later <+: whole) :
    ∃ incomplete', gatherAll (some incomplete) later = some incomplete' ∧
      incomplete'.Merges (frames ++ later) ∧
      (incomplete.Counts → (∀ frame ∈ later, frame.2.length < 2 ^ 32) → incomplete'.Counts) := by
  induction later generalizing incomplete frames with
  | nil => exact ⟨incomplete, rfl, by simpa using h, fun hcounts _ => hcounts⟩
  | cons frame later ih =>
      obtain ⟨hcontinues, hharmless⟩ := hlater frame List.mem_cons_self
      rw [payloadOf_cons] at hbegins
      obtain ⟨incomplete', hgather, hmerges, performative, happend⟩ := gather_some h frame
        (hcontinues.not_conflicts frames) hharmless ((List.prefix_append _ _).trans hbegins)
      have hbuffer : incomplete'.buffer.flatten = incomplete.buffer.flatten ++ frame.2 := by
        rw [happend]
        simp [IncompleteTransfer.append]
      obtain ⟨incomplete'', hall, hmerges', hcounts⟩ := ih hmerges
        (fun frame' hmem => hlater frame' (List.mem_cons_of_mem _ hmem))
        (by rwa [hbuffer, List.append_assoc])
      refine ⟨incomplete'', ?_, ?_, fun hcount hsize => ?_⟩
      · rw [gatherAll, hgather]
        exact hall
      · rwa [List.append_assoc] at hmerges'
      · apply hcounts
        · have hmerged : ({ incomplete with performative } : IncompleteTransfer).Counts :=
            ⟨hcount.number, hcount.offset⟩
          rw [happend]
          exact hmerged.append (hsize frame List.mem_cons_self)
        · exact fun frame' hmem => hsize frame' (List.mem_cons_of_mem _ hmem)

end IncompleteTransfer

theorem map_snd_continuationFrames (transfer : Transfer) (chunks : List Payload) :
    (continuationFrames transfer chunks).map Prod.snd = chunks := by
  induction chunks with
  | nil => rfl
  | cons chunk chunks ih => rw [continuationFrames, List.map_cons, ih]

theorem mem_continuationFrames {transfer : Transfer} {chunks : List Payload} {frame : TransferFrame}
    (h : frame ∈ continuationFrames transfer chunks) : ∃ more, frame.1 = { transfer with more } := by
  induction chunks with
  | nil => cases h
  | cons chunk chunks ih =>
      rcases List.mem_cons.mp h with rfl | h
      · exact ⟨_, rfl⟩
      · exact ih h

theorem payloadOf_eq (frames : List TransferFrame) :
    payloadOf frames = (frames.map Prod.snd).flatten := rfl

namespace IncompleteTransfer

variable {incomplete : IncompleteTransfer} {transfer : Transfer} {frames : List TransferFrame}

theorem continuationFrames_continues {whole : Payload} (hstate : Harmless transfer.state whole)
    (chunks : List Payload) :
    ∀ frame ∈ continuationFrames transfer.clearContinuationFields chunks,
      Continues frame.1 ∧ Harmless frame.1.state whole := by
  intro frame hmem
  obtain ⟨more, hframe⟩ := mem_continuationFrames hmem
  rw [hframe]
  exact ⟨⟨rfl, rfl, rfl⟩, hstate⟩

/-- A delivery that starts with the resumed transfer. -/
theorem gatherAll_none (transfer : Transfer) {deliveryTag : DeliveryTag}
    (htag : transfer.deliveryTag = some deliveryTag) (deliveryId : DeliveryNumber) {chunks : List Payload} (hchunks : chunks ≠ []) {whole : Payload}
    (hstate : Harmless transfer.state whole) (hbegins : chunks.flatten <+: whole) :
    ∃ incomplete, gatherAll none (transferFrames transfer deliveryId chunks) = some incomplete ∧
      incomplete.buffer.flatten = chunks.flatten := by
  obtain ⟨chunk, chunks, rfl⟩ := List.exists_cons_of_ne_nil hchunks
  cases hstart : start (E := Unit)
      { transfer with deliveryId := some deliveryId, more := !chunks.isEmpty } chunk with
  | error e => simp [start, htag] at hstart
  | ok incomplete =>
      have hmerges := start_merges hstart
      have hbuffer : incomplete.buffer = [chunk] := hmerges.buffer
      obtain ⟨incomplete', hall, hmerges', -⟩ := gatherAll_continuations hmerges
        (continuationFrames_continues hstate chunks) (by
          rw [hbuffer, payloadOf_eq, map_snd_continuationFrames]
          simpa using hbegins)
      refine ⟨incomplete', ?_, ?_⟩
      · rw [transferFrames, gatherAll, gather, Option.map_none, extend, hstart]
        exact hall
      · rw [hmerges'.buffer, List.map_append, map_snd_continuationFrames]
        simp

/-- A resumed transfer that belongs to the buffered delivery continues it if it has the same
delivery-id. -/
theorem gatherAll_some (h : incomplete.Merges frames)
    (htag : transfer.deliveryTag = some incomplete.deliveryTag)
    (hformat : ¬ Repeats (·.messageFormat) frames transfer) (deliveryId : DeliveryNumber)
    {chunks : List Payload} (hchunks : chunks ≠ []) {whole : Payload}
    (hstate : Harmless transfer.state whole)
    (hbegins : incomplete.buffer.flatten ++ chunks.flatten <+: whole) :
    (gatherAll (some incomplete) (transferFrames transfer deliveryId chunks)).map
        (·.buffer.flatten) =
      if fieldOf (·.deliveryId) frames = some deliveryId then
        some (incomplete.buffer.flatten ++ chunks.flatten)
      else none := by
  obtain ⟨chunk, chunks, rfl⟩ := List.exists_cons_of_ne_nil hchunks
  have hconflict : Conflicts frames
      { transfer with deliveryId := some deliveryId, more := !chunks.isEmpty } ↔
        fieldOf (·.deliveryId) frames ≠ some deliveryId := by
    obtain ⟨first, rest, id, tag, hframes, hid, -⟩ := h.identity
    have hfield : fieldOf (·.deliveryId) frames = some id := by
      simp [hframes, fieldOf, hid]
    rw [hfield]
    constructor
    · rintro (⟨value, other, hvalue, hother, hne⟩ | ⟨value, other, hvalue, hother, hne⟩ | hrepeats)
      · rw [hfield] at hvalue
        cases hvalue
        cases hother
        exact fun hsame => hne (Option.some.inj hsame)
      · rw [h.fieldOf_deliveryTag] at hvalue
        cases hvalue
        rw [htag] at hother
        cases hother
        exact absurd rfl hne
      · exact absurd hrepeats hformat
    · exact fun hne => .inl ⟨id, deliveryId, hfield, rfl, fun hsame => hne (congrArg some hsame)⟩
  rw [transferFrames, gatherAll]
  split_ifs with hsame
  · obtain ⟨incomplete', hgather, hmerges, performative, happend⟩ := gather_some h
      ({ transfer with deliveryId := some deliveryId, more := !chunks.isEmpty }, chunk)
      (fun hconflicts => hconflict.mp hconflicts hsame) hstate ((List.prefix_append _ _).trans hbegins)
    have hbuffer : incomplete'.buffer.flatten = incomplete.buffer.flatten ++ chunk := by
      rw [happend]
      simp [IncompleteTransfer.append]
    obtain ⟨incomplete'', hall, hmerges', -⟩ := gatherAll_continuations hmerges
      (continuationFrames_continues hstate chunks) (by
        rw [hbuffer, payloadOf_eq, map_snd_continuationFrames]
        simpa using hbegins)
    simp only [hgather, hall, Option.map_some, Option.some.injEq]
    rw [hmerges'.buffer, List.map_append, map_snd_continuationFrames, ← hmerges.buffer,
      List.flatten_append, hbuffer, List.append_assoc, List.flatten_cons]
  · have hrefused : gather (some incomplete)
        ({ transfer with deliveryId := some deliveryId, more := !chunks.isEmpty }, chunk) = none := by
      simp only [gather, extend, Option.map_some, incomplete.onTransferState_harmless
        { transfer with deliveryId := some deliveryId, more := !chunks.isEmpty } hstate
        ((List.prefix_append _ _).trans hbegins)]
      obtain ⟨e, herror⟩ := (h.tryAppend_error_iff (E := Unit) _ chunk).mpr (hconflict.mpr hsame)
      rw [herror]
      rfl
    rw [hrefused]
    rfl

end IncompleteTransfer

/-! ## Before the suspension -/

theorem map_snd_transferFrames (transfer : Transfer) (deliveryId : DeliveryNumber)
    (chunks : List Payload) : (transferFrames transfer deliveryId chunks).map Prod.snd = chunks := by
  cases chunks with
  | nil => rfl
  | cons chunk chunks => rw [transferFrames, List.map_cons, map_snd_continuationFrames]

namespace CutDelivery

open IncompleteTransfer

variable {d : CutDelivery}

theorem map_snd_frames (d : CutDelivery) : d.frames.map Prod.snd = d.arrived := by
  rw [frames, List.map_take, map_snd_transferFrames, List.take_left]

theorem frames_eq_cons (h : d.arrived ≠ []) :
    ∃ first later, d.frames = first :: later ∧ first.1.deliveryId = some d.deliveryId ∧
      first.1.deliveryTag = some d.deliveryTag ∧
      first.1.messageFormat = some d.message.messageFormat ∧
      ∀ frame ∈ later, Continues frame.1 ∧ Harmless frame.1.state d.message.payload := by
  obtain ⟨chunk, chunks, harrived⟩ := List.exists_cons_of_ne_nil h
  rw [frames, harrived]
  refine ⟨_, _, rfl, rfl, d.transfer_deliveryTag, d.transfer_messageFormat, fun frame hmem => ?_⟩
  refine continuationFrames_continues ?_ _ frame (List.mem_of_mem_take hmem)
  exact fun received hreceived => absurd hreceived (d.transfer_state received)

/-- What the receiver counts of the chunks that have arrived: the headers that lie within one, and
the bytes since the last. -/
def counted (d : CutDelivery) : Received :=
  ⟨UInt32.ofNat (wholeHeaders 0 d.arrived).length,
    UInt64.ofNat (d.arrived.flatten.length - lastWhole d.arrived)⟩

theorem received_spec (h : d.arrived ≠ []) :
    ∃ incomplete, d.received = some incomplete ∧ incomplete.Merges d.frames ∧
      incomplete.deliveryTag = d.deliveryTag ∧
      (⟨incomplete.sectionNumber, incomplete.sectionOffset⟩ : Received) = d.counted := by
  obtain ⟨⟨transfer, chunk⟩, later, hframes, hid, htag, -, hlater⟩ := d.frames_eq_cons h
  have hsize : ∀ frame ∈ d.frames, frame.2.length < 2 ^ 32 := by
    intro frame hmem
    apply d.frame_size
    rw [← d.map_snd_frames]
    exact List.mem_map_of_mem hmem
  have hbegins : payloadOf d.frames <+: d.message.payload := by
    rw [payloadOf_eq, d.map_snd_frames, ← d.payload, List.flatten_append]
    exact List.prefix_append _ _
  dsimp only at hid htag
  cases hstart : start (E := Unit) transfer chunk with
  | error e => simp [start, hid, htag] at hstart
  | ok incomplete =>
      have hmerges := start_merges hstart
      have hbuffer : incomplete.buffer = [chunk] := hmerges.buffer
      rw [hframes, payloadOf_cons] at hbegins
      obtain ⟨incomplete', hall, hmerges', hcounts⟩ := gatherAll_continuations hmerges hlater
        (by simpa [hbuffer] using hbegins)
      have hcount : incomplete'.Counts := hcounts (start_counts hstart) fun frame hmem =>
        hsize frame (hframes ▸ List.mem_cons_of_mem _ hmem)
      rw [List.singleton_append, ← hframes] at hmerges'
      have htag' := hmerges'.fieldOf_deliveryTag
      rw [hframes, fieldOf, List.findSome?_cons, htag] at htag'
      refine ⟨incomplete', ?_, hmerges', (Option.some.inj htag').symm, ?_⟩
      · rw [received, hframes, gatherAll, gather, Option.map_none, extend, hstart]
        exact hall
      · have hbuffer' : incomplete'.buffer = d.arrived := hmerges'.buffer.trans d.map_snd_frames
        have hnumber := hcount.number
        have hoffset := hcount.offset
        rw [hbuffer'] at hnumber hoffset
        rw [counted, Received.mk.injEq]
        refine ⟨UInt32.toNat_inj.mp ?_, UInt64.toNat_inj.mp ?_⟩
        · rw [hnumber, UInt32.toNat_ofNat']
        · rw [hoffset, UInt64.toNat_ofNat']

/-- The entry of the delivery, once a frame of it has arrived, tells the counted position. -/
theorem entry_eq (d : CutDelivery) :
    d.entry = if d.arrived = [] then none else some (some (.received d.counted)) := by
  split_ifs with hnothing
  · simp [entry, received, frames, hnothing, gatherAll]
  · obtain ⟨incomplete, hreceived, -, -, hcounted⟩ := d.received_spec hnothing
    rw [entry, hreceived, Option.map_some, hcounted]

/-! ## After it -/

/-- What the sender resumes the delivery with. -/
def remaining (d : CutDelivery) : UnsettledMessage := d.message.remainingFrom d.counted

theorem payload_eq (d : CutDelivery) :
    d.arrived.flatten ++ d.rest.flatten = d.message.payload := by
  rw [← List.flatten_append, d.payload]

/-- A message begins with a section header. -/
theorem sectionHeaders_payload (d : CutDelivery) :
    ∃ headers, sectionHeaders d.message.payload = 0 :: headers := by
  obtain ⟨first, others, hpayload⟩ := d.sections
  obtain ⟨b, bytes, hcons⟩ : ∃ b bytes, d.message.payload = 0x00 :: 0x53 :: b :: bytes ∧
      isSectionHeader 0x00 0x53 b = true := by
    refine ⟨first.code, first.value ++ others.flatMap MessageSection.encode, ?_, ?_⟩
    · rw [hpayload, List.flatMap_cons]
      rfl
    · simp [isSectionHeader, first.isSection]
  rw [hcons.1, sectionHeaders_cons, if_pos hcons.2]
  exact ⟨_, rfl⟩

theorem payload_ne_nil (d : CutDelivery) : d.message.payload ≠ [] := by
  intro hnil
  obtain ⟨headers, hheaders⟩ := d.sectionHeaders_payload
  rw [hnil] at hheaders
  cases hheaders

/-- What the receiver has counted, as a position in the whole payload. -/
def CountedAt (d : CutDelivery) (i : Nat) : Prop :=
  PointsAt d.message.payload ((wholeHeaders 0 d.arrived).length % 2 ^ 32)
    (d.arrived.flatten.length - lastWhole d.arrived) i

theorem counted_offset (d : CutDelivery) :
    d.counted.sectionOffset.toNat = d.arrived.flatten.length - lastWhole d.arrived := by
  have hlen := congrArg List.length d.payload_eq
  have hsize := d.payload_size
  rw [List.length_append] at hlen
  rw [counted, UInt64.toNat_ofNat']
  exact Nat.mod_eq_of_lt (by omega)

/-- The sender goes on from the counted position, or sends the whole payload again. -/
theorem remaining_cases (d : CutDelivery) :
    (∃ i, d.CountedAt i ∧ d.remaining.payload = d.message.payload.drop i) ∨
      (∀ i, ¬ d.CountedAt i) ∧ d.remaining.payload = d.message.payload := by
  have hsplit := splitOffAtSectionAndOffset_iff d.message.payload d.counted.sectionNumber.toNat
    d.counted.sectionOffset.toNat
  have hnumber : d.counted.sectionNumber.toNat = (wholeHeaders 0 d.arrived).length % 2 ^ 32 :=
    UInt32.toNat_ofNat'
  simp only [remaining, UnsettledMessage.remainingFrom]
  rw [hnumber, d.counted_offset] at hsplit ⊢
  cases hfound : splitOffAtSectionAndOffset d.message.payload
      ((wholeHeaders 0 d.arrived).length % 2 ^ 32)
      (d.arrived.flatten.length - lastWhole d.arrived) with
  | none =>
      refine .inr ⟨fun i hi => ?_, rfl⟩
      have := (hsplit _).mpr ⟨i, hi, rfl⟩
      rw [hfound] at this
      cases this
  | some remaining => exact .inl ((hsplit remaining).mp hfound)

theorem remaining_ne_nil (d : CutDelivery) : d.remaining.payload ≠ [] := by
  rcases d.remaining_cases with ⟨i, ⟨hlen, -⟩, hremaining⟩ | ⟨-, hremaining⟩
  · rw [hremaining]
    intro hnil
    rw [List.drop_eq_nil_iff] at hnil
    omega
  · rw [hremaining]
    exact d.payload_ne_nil

/-- The remaining payload continues what has arrived. -/
theorem append_remaining_iff (d : CutDelivery) :
    d.arrived.flatten ++ d.remaining.payload = d.message.payload ↔
      OneHeaderCut d.message.payload d.arrived := by
  rw [← pointsAt_iff_oneHeaderCut]
  have hlen := congrArg List.length d.payload_eq
  rw [List.length_append] at hlen
  constructor
  · intro hjoin
    have hjoin' := congrArg List.length hjoin
    rw [List.length_append] at hjoin'
    rcases d.remaining_cases with ⟨i, hi, hremaining⟩ | ⟨hnone, hremaining⟩
    · rw [hremaining, List.length_drop] at hjoin'
      have hlt := hi.1
      have hsame : i = d.arrived.flatten.length := by omega
      rwa [hsame] at hi
    · -- nothing has arrived but empty chunks: the count points at the first section
      rw [hremaining] at hjoin'
      have hempty : d.arrived.flatten.length = 0 := by omega
      have hwhole := length_wholeHeaders_le 0 d.arrived
      have hlast := lastWhole_le d.arrived
      obtain ⟨headers, hheaders⟩ := d.sectionHeaders_payload
      refine absurd ?_ (hnone 0)
      refine ⟨sectionHeaders_lt (i := 0) (by simp [hheaders]), 0, ?_, by omega, by omega⟩
      have hzero : (wholeHeaders 0 d.arrived).length % 2 ^ 32 = 0 := by omega
      rw [hzero, hheaders]
      rfl
  · intro hpoints
    have hdrop : d.remaining.payload = d.message.payload.drop d.arrived.flatten.length := by
      rcases d.remaining_cases with ⟨i, hi, hremaining⟩ | ⟨hnone, -⟩
      · rw [hremaining, hi.unique hpoints]
      · exact absurd hpoints (hnone _)
    rw [hdrop, ← d.payload_eq, List.drop_left]

/-- The remaining payload is the whole one. -/
theorem remaining_eq_iff (d : CutDelivery) (hrest : d.rest = []) :
    d.remaining.payload = d.message.payload ↔ ∀ i, ¬ d.CountedAt i := by
  constructor
  · intro hwhole i hi
    rcases d.remaining_cases with ⟨j, hj, hremaining⟩ | ⟨hnone, -⟩
    · have hdrop := congrArg List.length (hremaining.symm.trans hwhole)
      rw [List.length_drop] at hdrop
      obtain ⟨hlen, start, -, hoffset, -⟩ := hj
      have harrived := congrArg List.length d.payload_eq
      rw [hrest, List.flatten_nil, List.append_nil] at harrived
      have hlast := lastWhole_lt d.arrived
      omega
    · exact hnone i hi
  · intro hnone
    rcases d.remaining_cases with ⟨i, hi, -⟩ | ⟨-, hremaining⟩
    · exact absurd hi (hnone i)
    · exact hremaining

/-- What is kept and what is sent on. -/
def joined (d : CutDelivery) : Payload :=
  if d.arrived = [] then d.message.payload
  else if d.rest = [] then d.remaining.payload
  else d.arrived.flatten ++ d.remaining.payload

theorem actions_wellFormed (d : CutDelivery) : ∀ action ∈ d.actions, action.WellFormed := by
  intro action hmem
  rcases List.mem_cons.mp hmem with rfl | hmem
  · simp [firstFrame, SessionAction.WellFormed, LinkFrame.WellFormed, LinkFrame.transfer?,
      BufferedTransfer.WellFormed, d.transfer_deliveryTag]
  · exact d.since_wellFormed action hmem

/-- The delivery is sent on with the delivery-id of the first attempt when the session has come
round. -/
theorem deliveryIdAgain_eq_iff (d : CutDelivery) :
    d.deliveryIdAgain = d.deliveryId ↔ 2 ^ 32 ∣ d.deliveriesSince := by
  rw [deliveryIdAgain, d.session.run_deliveryIdOfNext d.actions d.actions_wellFormed d.session_waiting,
    deliveryId, deliveriesSince, ← UInt32.toNat_inj, UInt32.toNat_add, UInt32.toNat_ofNat']
  have hlt := d.session.deliveryIdOfNext.toNat_lt
  omega

/-- What the receiver keeps and what the sender sends on fit. -/
def Joins (d : CutDelivery) : Prop :=
  (d.rest = [] → ∀ i, ¬ d.CountedAt i) ∧
    (d.arrived ≠ [] → d.rest ≠ [] →
      2 ^ 32 ∣ d.deliveriesSince ∧ OneHeaderCut d.message.payload d.arrived)

theorem arrived_ne_nil (h : d.rest = []) : d.arrived ≠ [] := by
  intro hnothing
  have hpayload := d.payload
  rw [h, hnothing] at hpayload
  exact d.payload_ne_nil hpayload.symm

theorem joined_eq_iff (d : CutDelivery) :
    (d.arrived ≠ [] → d.rest ≠ [] → d.deliveryIdAgain = d.deliveryId) ∧
        d.joined = d.message.payload ↔
      d.Joins := by
  rw [joined, Joins, d.deliveryIdAgain_eq_iff]
  by_cases hnothing : d.arrived = []
  · have hrest : d.rest ≠ [] := fun hrest => d.arrived_ne_nil hrest hnothing
    simp [hnothing, hrest]
  · by_cases hrest : d.rest = []
    · simp [hnothing, hrest, d.remaining_eq_iff hrest]
    · simp [hnothing, hrest, d.append_remaining_iff]

/-- The sender sends the message on, anew if nothing has arrived. -/
def SendsOn (d : CutDelivery) : Prop :=
  d.message.state = none ∨ ∃ received, d.message.state = some (.received received) ∧
    (d.arrived ≠ [] → received.le d.counted = true)

theorem resumeDelivery_sendsOn (h : d.SendsOn) (store : LinkStore) :
    (resumeDelivery store d.message d.entry).1 =
      if d.arrived = [] then some (.resend d.message) else some (.resume d.remaining) := by
  rw [d.entry_eq]
  split_ifs with hnothing
  · rcases h with hnone | ⟨received, hreceived, -⟩
    · simp only [resumeDelivery, hnone, Option.map_none]
    · simp only [resumeDelivery, hreceived, Option.map_none]
  · rcases h with hnone | ⟨received, hreceived, hle⟩
    · simp only [resumeDelivery, hnone, Option.map_some, Option.getD_some]
      rfl
    · simp only [resumeDelivery, hreceived, Option.map_some, Option.getD_some, hle hnothing, if_true]
      rfl

/-- A delivery whose state is terminal or transactional is aborted or settled. -/
theorem framesAgain_of_outcome (h : d.message.state ≠ none)
    (hreceived : ∀ received, d.message.state ≠ some (.received received)) (store : LinkStore)
    (again : Reattached) : d.framesAgain store again = none := by
  have hsplit : ((resumeDelivery store d.message d.entry).1.bind
      (again.split? d.deliveryTag)) = none := by
    rw [d.entry_eq]
    cases hstate : d.message.state with
    | none => exact absurd hstate h
    | some state =>
        cases state with
        | received received => exact absurd hstate (hreceived received)
        | _ => split_ifs <;> simp [resumeDelivery, hstate, Reattached.split?]
  simp only [framesAgain, bind]
  rw [← Option.bind_assoc, hsplit, Option.bind_none]

/-- The split of the delivery that is sent on. -/
def sentOn (d : CutDelivery) (again : Reattached) : TransferSplit :=
  if d.arrived = [] then again.resendSplit d.message
  else again.resumeSplit d.deliveryTag d.remaining

theorem framesAgain_of_sendsOn (h : d.SendsOn) (store : LinkStore) (again : Reattached) :
    d.framesAgain store again =
      (d.sentOn again).frames.map (·.filterMap (·.numbered d.deliveryIdAgain)) := by
  have hsplit : ((resumeDelivery store d.message d.entry).1.bind (again.split? d.deliveryTag)) =
      some (d.sentOn again) := by
    rw [d.resumeDelivery_sendsOn h store, sentOn]
    split_ifs <;> rfl
  simp only [framesAgain, bind]
  rw [← Option.bind_assoc, hsplit, Option.bind_some]
  cases (d.sentOn again).frames <;> rfl

/-- Where frames have no room for payload, the transfer does not end. -/
theorem framesAgain_no_room (h : d.SendsOn) (store : LinkStore) {again : Reattached}
    (hroom : again.maxPayload = 0) : d.framesAgain store again = none := by
  have hframes : (d.sentOn again).frames = none := by
    rw [sentOn]
    split_ifs
    · exact TransferSplit.framesWithin_zero hroom d.payload_ne_nil _
    · exact TransferSplit.framesWithin_zero hroom d.remaining_ne_nil _
  rw [d.framesAgain_of_sendsOn h, hframes, Option.map_none]

/-- What the receiver has after the transfer that is sent on. -/
theorem reassembled_eq (h : d.SendsOn) (store : LinkStore) {again : Reattached}
    (hroom : 0 < again.maxPayload) {whole : Payload} (hstate : Harmless d.message.state whole)
    (hbegins : d.joined <+: whole) :
    d.reassembled store again =
      if d.arrived ≠ [] → d.rest ≠ [] → d.deliveryIdAgain = d.deliveryId then some d.joined
      else none := by
  obtain ⟨frames, chunks, hframes, hchunks, hflatten, hnumbered⟩ :=
    TransferSplit.frames_of_pos d.deliveryIdAgain (d.sentOn again)
      (by rw [sentOn]; split_ifs <;> rfl) (by rw [sentOn]; split_ifs <;> exact hroom)
  have hagain : d.reassembled store again =
      (gatherAll d.kept (transferFrames (d.sentOn again).transfer d.deliveryIdAgain chunks)).map
        (·.buffer.flatten) := by
    simp only [reassembled, d.framesAgain_of_sendsOn h, hframes, Option.map_some, hnumbered]
    rfl
  rw [hagain]
  by_cases hnothing : d.arrived = []
  · have hrest : d.rest ≠ [] := fun hrest => d.arrived_ne_nil hrest hnothing
    rw [sentOn, if_pos hnothing] at hflatten ⊢
    have hpayload : chunks.flatten = d.message.payload := hflatten
    have hnone : Harmless (again.resendSplit d.message).transfer.state chunks.flatten := nofun
    have hkept : d.kept = none := by
      simp [kept, received, CutDelivery.frames, hnothing, gatherAll]
    obtain ⟨incomplete, hall, hbuffer⟩ := gatherAll_none (again.resendSplit d.message).transfer rfl
      d.deliveryIdAgain hchunks hnone List.prefix_rfl
    rw [hkept, hall, Option.map_some, hbuffer, hpayload]
    simp [joined, hnothing]
  · rw [sentOn, if_neg hnothing] at hflatten ⊢
    have hpayload : chunks.flatten = d.remaining.payload := hflatten
    by_cases hrest : d.rest = []
    · rw [joined, if_neg hnothing, if_pos hrest, ← hpayload] at hbegins
      obtain ⟨incomplete, hall, hbuffer⟩ := gatherAll_none
        (again.resumeSplit d.deliveryTag d.remaining).transfer rfl d.deliveryIdAgain hchunks hstate
        hbegins
      rw [kept, if_pos hrest, hall, Option.map_some, hbuffer, hpayload]
      simp [joined, hnothing, hrest]
    · obtain ⟨incomplete, hreceived, hmerges, hincompleteTag, -⟩ := d.received_spec hnothing
      obtain ⟨first, later, hcons, hid, -, hformat, -⟩ := d.frames_eq_cons hnothing
      have hbuffer : incomplete.buffer = d.arrived := hmerges.buffer.trans d.map_snd_frames
      have hfieldId : fieldOf (·.deliveryId) d.frames = some d.deliveryId := by
        rw [hcons, fieldOf, List.findSome?_cons, hid]
      have hrepeats : ¬ Repeats (·.messageFormat) d.frames
          (again.resumeSplit d.deliveryTag d.remaining).transfer := by
        rintro ⟨value, other, hvalue, hother, hne⟩
        rw [hcons, fieldOf, List.findSome?_cons, hformat] at hvalue
        exact hne (Option.some.inj (hvalue.symm.trans hother))
      rw [joined, if_neg hnothing, if_neg hrest, ← hpayload, ← hbuffer] at hbegins
      have hall := gatherAll_some hmerges (congrArg some hincompleteTag.symm) hrepeats
        d.deliveryIdAgain hchunks hstate hbegins
      simp only [hfieldId, hbuffer, hpayload, Option.some.injEq, eq_comm (a := d.deliveryId)] at hall
      rw [kept, if_neg hrest, hreceived, hall]
      simp [joined, hnothing, hrest]

theorem intact_iff (h : d.SendsOn) (store : LinkStore) {again : Reattached}
    (hroom : 0 < again.maxPayload) {whole : Payload} (hstate : Harmless d.message.state whole)
    (hbegins : d.joined <+: whole) : d.Intact store again ↔ d.Joins := by
  rw [Intact, d.reassembled_eq h store hroom hstate hbegins, ← d.joined_eq_iff]
  split_ifs with hsame
  · rw [Option.some.injEq]
    exact ⟨fun hwhole => ⟨hsame, hwhole⟩, And.right⟩
  · exact ⟨nofun, fun hjoins => absurd hjoins.1 hsame⟩

end CutDelivery

end Fe2o3Amqp
