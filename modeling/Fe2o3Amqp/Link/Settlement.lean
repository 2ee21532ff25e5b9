import Fe2o3Amqp.Link.DisposeAll
import Fe2o3Amqp.Session.Outcomes

/-!
# Outcomes come back

A receiver disposes of its deliveries one by one and in batches.  The dispositions that it writes,
taken by the session of the sender, give each delivery the state of the first call that decided it.
-/

namespace Fe2o3Amqp

/-- A call of `dispose` or of `dispose_all`. -/
inductive DisposalCall where
  | one (info : DeliveryInfo) (settled : Option Bool) (state : DeliveryState) (batchable : Bool)
  | all (deliveryInfos : List DeliveryInfo) (settled : Option Bool) (state : DeliveryState)
      (batchable : Bool)

namespace DisposalCall

def deliveryInfos : DisposalCall → List DeliveryInfo
  | one info _ _ _ => [info]
  | all deliveryInfos _ _ _ => deliveryInfos

def settled : DisposalCall → Option Bool
  | one _ settled _ _ | all _ settled _ _ => settled

def state : DisposalCall → DeliveryState
  | one _ _ state _ | all _ _ state _ => state

/-- The link and the writer after the call. -/
def run (call : DisposalCall) (r : ReceiverLink × LinkWriter) : ReceiverLink × LinkWriter :=
  let out :=
    match call with
    | one info settled state batchable => r.1.dispose r.2 info settled state batchable
    | all deliveryInfos settled state batchable =>
        r.1.disposeAll r.2 deliveryInfos settled state batchable
  match out with
  | (.ok writer, link) => (link, writer)
  | (.error _, link) => (link, r.2)

/-- The call is the last word on the delivery: the link still knows it, and settles it or gives it a
terminal state. -/
def decides (call : DisposalCall) (link : ReceiverLink) (id : DeliveryNumber) : Bool :=
  call.deliveryInfos.any fun info =>
    info.deliveryId == id && link.knows info.deliveryTag &&
      (link.disposesSettled info call.settled || call.state.isTerminal)

/-- The state that the first call gives the delivery for good. -/
def firstState : List DisposalCall → ReceiverLink × LinkWriter → DeliveryNumber → Option DeliveryState
  | [], _, _ => none
  | call :: calls, r, id =>
      if call.decides r.1 id then some call.state else firstState calls (call.run r) id

end DisposalCall

/-! ## One call -/

/-- The dispositions decide the delivery with the state if `decided` holds, and else not at all. -/
def Disposition.DecideAs (dispositions : List Disposition) (id : DeliveryNumber) (decided : Bool)
    (state : DeliveryState) : Prop :=
  (dispositions.find? (·.decides id)).map Disposition.state =
    if decided then some (some state) else none

theorem Disposition.decideAs_of_iff {dispositions : List Disposition} {id : DeliveryNumber}
    {decided : Bool} {state : DeliveryState}
    (hstate : ∀ disposition ∈ dispositions, disposition.state = some state)
    (h : (∃ disposition ∈ dispositions, disposition.decides id = true) ↔ decided = true) :
    DecideAs dispositions id decided state := by
  unfold DecideAs
  cases hfind : dispositions.find? (·.decides id) with
  | none =>
      rw [if_neg]
      · rfl
      · intro hdecided
        obtain ⟨disposition, hmem, hdecides⟩ := h.mpr hdecided
        exact List.find?_eq_none.mp hfind disposition hmem hdecides
  | some disposition =>
      have hmem := List.mem_of_find?_eq_some hfind
      have hdecides : disposition.decides id = true := by simpa using List.find?_some hfind
      rw [if_pos (h.mp ⟨disposition, hmem, hdecides⟩), Option.map_some, hstate _ hmem]

namespace ReceiverLink

open Session (isConsecutive)

/-- A run of the sorted list goes up by one from one delivery to the next. -/
theorem ascending_of_run {run : List DeliveryInfo}
    (hsorted : run.Pairwise fun a b => a.deliveryId ≤ b.deliveryId)
    (hchain : run.IsChain fun left right => sameRun left right) :
    run.Pairwise fun a b => a.deliveryId.toNat < b.deliveryId.toNat := by
  induction run with
  | nil => exact .nil
  | cons info run ih =>
      obtain ⟨hfirst, hsorted⟩ := List.pairwise_cons.mp hsorted
      cases run with
      | nil => exact List.pairwise_singleton _ _
      | cons next run =>
          obtain ⟨hnext, hchain⟩ := List.isChain_cons_cons.mp hchain
          have hrest := ih hsorted hchain
          have hlt : info.deliveryId.toNat < next.deliveryId.toNat := by
            have hle := UInt32.le_iff_toNat_le.mp (hfirst next List.mem_cons_self)
            have hone : next.deliveryId - info.deliveryId = 1 := by
              simpa [isConsecutive] using (Bool.and_eq_true_iff.mp hnext).1
            have hne : info.deliveryId ≠ next.deliveryId := by
              intro heq
              rw [heq, UInt32.sub_self] at hone
              cases hone
            have hne' := mt UInt32.toNat_inj.mp hne
            omega
          refine List.pairwise_cons.mpr ⟨fun other hother => ?_, hrest⟩
          rcases List.mem_cons.mp hother with rfl | hother
          · exact hlt
          · exact hlt.trans ((List.pairwise_cons.mp hrest).1 other hother)

theorem pairwise_le_toDispose (link : ReceiverLink) (deliveryInfos : List DeliveryInfo) :
    (link.toDispose deliveryInfos).Pairwise fun a b => a.deliveryId ≤ b.deliveryId := by
  have hsorted : (deliveryInfos.mergeSort fun left right => left.deliveryId ≤ right.deliveryId).Pairwise
      fun a b => decide (a.deliveryId ≤ b.deliveryId) = true := by
    apply List.pairwise_mergeSort
    · intro a b c hab hbc
      rw [decide_eq_true_iff] at hab hbc ⊢
      exact UInt32.le_trans hab hbc
    · intro a b
      simpa using UInt32.le_total a.deliveryId b.deliveryId
  exact (hsorted.imp fun {a b} hab => decide_eq_true_iff.mp hab).filter _

variable {link : ReceiverLink} {settled : Option Bool} {state : DeliveryState} {batchable : Bool}

/-- The disposition of a run decides the deliveries of the run, or none of them. -/
theorem decides_dispositionOf {run : List DeliveryInfo} (hrun : run ≠ [])
    (hsorted : run.Pairwise fun a b => a.deliveryId ≤ b.deliveryId)
    (hchain : run.IsChain fun left right => sameRun left right) (id : DeliveryNumber) :
    (link.dispositionOf settled state batchable run).decides id = true ↔
      ∃ info ∈ run, info.deliveryId = id ∧
        (link.disposesSettled info settled || state.isTerminal) = true := by
  have hascending := ascending_of_run hsorted hchain
  have hfirst : (run.map DeliveryInfo.deliveryId).head? =
      some (link.dispositionOf settled state batchable run).first := by
    cases run with
    | nil => exact absurd rfl hrun
    | cons info run => rfl
  have hlast : (run.map DeliveryInfo.deliveryId).getLast? =
      some ((link.dispositionOf settled state batchable run).last.getD
        (link.dispositionOf settled state batchable run).first) := by
    simp [dispositionOf, List.getLast?_eq_some_getLast hrun]
  have hmem := mem_consecutive_iff (isConsecutive_of_run hchain) (List.pairwise_map.mpr hascending)
    hfirst hlast id
  simp only [Disposition.decides, Disposition.isFinal, Bool.and_eq_true, decide_eq_true_eq,
    UInt32.le_iff_toNat_le]
  rw [← hmem, List.mem_map]
  constructor
  · rintro ⟨⟨-, hfinal⟩, info, hinfo, hid⟩
    rw [settled_dispositionOf hchain hinfo] at hfinal
    exact ⟨info, hinfo, hid, hfinal⟩
  · rintro ⟨info, hinfo, hid, hfinal⟩
    rw [settled_dispositionOf hchain hinfo]
    exact ⟨⟨rfl, hfinal⟩, info, hinfo, hid⟩

/-- What `dispose_all` writes while the session listens. -/
theorem disposeAll_decides (link : ReceiverLink) {writer : LinkWriter} (hopen : writer.closed = false)
    (deliveryInfos : List DeliveryInfo) (settled : Option Bool) (state : DeliveryState)
    (batchable : Bool) :
    ∃ dispositions : List Disposition, (link.disposeAll writer deliveryInfos settled state batchable).1 =
        .ok { writer with sent := writer.sent ++ dispositions.map .disposition } ∧
      ∀ id, Disposition.DecideAs dispositions id
        ((DisposalCall.all deliveryInfos settled state batchable).decides link id) state := by
  have hdecides : ∀ id, (DisposalCall.all deliveryInfos settled state batchable).decides link id =
      true ↔ ∃ info ∈ link.toDispose deliveryInfos, info.deliveryId = id ∧
        (link.disposesSettled info settled || state.isTerminal) = true := by
    intro id
    simp only [DisposalCall.decides, DisposalCall.deliveryInfos, DisposalCall.settled,
      DisposalCall.state, List.any_eq_true, Bool.and_eq_true, beq_iff_eq, mem_toDispose]
    refine exists_congr fun info => ?_
    tauto
  by_cases hempty : link.toDispose deliveryInfos = []
  · refine ⟨[], ?_, fun id => ?_⟩
    · rw [disposeAll, hempty, List.map_nil, List.append_nil]
      rfl
    · refine Disposition.decideAs_of_iff (by simp) ?_
      rw [hdecides, hempty]
      simp
  · have hslices := List.slices_breaks (r := sameRun) hempty
    have hruns : ∀ run ∈ (link.toDispose deliveryInfos).splitBy sameRun,
        run ≠ [] ∧ run.IsChain fun left right => sameRun left right :=
      fun run hrun => ⟨List.ne_nil_of_mem_splitBy hrun, List.isChain_of_mem_splitBy hrun⟩
    have hflatten := List.flatten_splitBy sameRun (link.toDispose deliveryInfos)
    have hchunks : link.disposeAll writer deliveryInfos settled state batchable = _ :=
      disposeChunks_eq hopen hslices hruns
    generalize (link.toDispose deliveryInfos).splitBy sameRun = runs at hchunks hruns hflatten
    refine ⟨runs.map (link.dispositionOf settled state batchable), ?_, fun id => ?_⟩
    · rw [hchunks, List.map_map]
      rfl
    · refine Disposition.decideAs_of_iff (fun disposition hmem => ?_) ?_
      · obtain ⟨run, -, rfl⟩ := List.mem_map.mp hmem
        rfl
      · rw [hdecides, ← hflatten]
        have hsorted := link.pairwise_le_toDispose deliveryInfos
        rw [← hflatten] at hsorted
        have hrun : ∀ run ∈ runs, (link.dispositionOf settled state batchable run).decides id = true ↔
            ∃ info ∈ run, info.deliveryId = id ∧
              (link.disposesSettled info settled || state.isTerminal) = true := by
          intro run hmem
          obtain ⟨hne, hchain⟩ := hruns run hmem
          exact decides_dispositionOf hne (hsorted.sublist (List.sublist_flatten_of_mem hmem)) hchain id
        constructor
        · rintro ⟨disposition, hmem, hdecided⟩
          obtain ⟨run, hmem', rfl⟩ := List.mem_map.mp hmem
          obtain ⟨info, hinfo, hrest⟩ := (hrun run hmem').mp hdecided
          exact ⟨info, List.mem_flatten_of_mem hmem' hinfo, hrest⟩
        · rintro ⟨info, hinfo, hrest⟩
          obtain ⟨run, hmem, hinfo⟩ := List.mem_flatten.mp hinfo
          exact ⟨_, List.mem_map_of_mem hmem, (hrun run hmem).mpr ⟨info, hinfo, hrest⟩⟩

/-- What `dispose` writes while the session listens. -/
theorem dispose_decides (link : ReceiverLink) {writer : LinkWriter} (hopen : writer.closed = false)
    (info : DeliveryInfo) (settled : Option Bool) (state : DeliveryState) (batchable : Bool) :
    ∃ dispositions : List Disposition, (link.dispose writer info settled state batchable).1 =
        .ok { writer with sent := writer.sent ++ dispositions.map .disposition } ∧
      ∀ id, Disposition.DecideAs dispositions id
        ((DisposalCall.one info settled state batchable).decides link id) state := by
  obtain ⟨sent, closed⟩ := writer
  obtain rfl : closed = false := hopen
  simp only [dispose, LinkWriter.send, Bool.false_eq_true, if_false]
  have hdecides : ∀ id, (DisposalCall.one info settled state batchable).decides link id =
      true ↔ info.deliveryId = id ∧ link.knows info.deliveryTag = true ∧
        (link.disposesSettled info settled || state.isTerminal) = true := by
    intro id
    simp [DisposalCall.decides, DisposalCall.deliveryInfos, DisposalCall.settled, DisposalCall.state,
      and_assoc]
  cases hknown : link.knows info.deliveryTag with
  | false =>
      have hnone : (link.unsettled.bind (·.get info.deliveryTag)).isSome = false := hknown
      refine ⟨[], by simp [hnone], fun id => Disposition.decideAs_of_iff (by simp) ?_⟩
      rw [hdecides, hknown]
      simp
  | true =>
      have hsome : (link.unsettled.bind (·.get info.deliveryTag)).isSome = true := hknown
      refine ⟨[_], by rw [if_pos hsome]; rfl, fun id => Disposition.decideAs_of_iff ?_ ?_⟩
      · intro disposition hmem
        rw [List.mem_singleton.mp hmem]
      · rw [hdecides, hknown]
        simp only [List.mem_singleton, exists_eq_left, Disposition.decides, Disposition.isFinal,
          Option.getD_none, Option.any_some, Bool.and_eq_true, decide_eq_true_eq, beq_self_eq_true,
          true_and]
        constructor
        · rintro ⟨hfinal, hle, hge⟩
          exact ⟨UInt32.le_antisymm hle hge, hfinal⟩
        · rintro ⟨rfl, hfinal⟩
          exact ⟨hfinal, UInt32.le_refl _, UInt32.le_refl _⟩

end ReceiverLink

/-! ## Every sequence of calls -/

namespace DisposalCall

variable {r : ReceiverLink × LinkWriter}

/-- A call leaves the writer open and adds dispositions that decide what the call decides. -/
theorem run_decides (call : DisposalCall) (hopen : r.2.closed = false) :
    ∃ dispositions : List Disposition,
      (call.run r).2 = { r.2 with sent := r.2.sent ++ dispositions.map .disposition } ∧
      ∀ id, Disposition.DecideAs dispositions id (call.decides r.1 id) call.state := by
  cases call with
  | one info settled state batchable =>
      obtain ⟨dispositions, hout, hdecides⟩ := r.1.dispose_decides hopen info settled state batchable
      refine ⟨dispositions, ?_, hdecides⟩
      simp only [run]
      generalize r.1.dispose r.2 info settled state batchable = out at hout
      obtain ⟨result, link⟩ := out
      cases hout
      rfl
  | all deliveryInfos settled state batchable =>
      obtain ⟨dispositions, hout, hdecides⟩ :=
        r.1.disposeAll_decides hopen deliveryInfos settled state batchable
      refine ⟨dispositions, ?_, hdecides⟩
      simp only [run]
      generalize r.1.disposeAll r.2 deliveryInfos settled state batchable = out at hout
      obtain ⟨result, link⟩ := out
      cases hout
      rfl

/-- The first disposition that decides a delivery has the state of the first call that decides it. -/
theorem foldl_run_decides (calls : List DisposalCall) (hopen : r.2.closed = false) :
    ∃ dispositions : List Disposition, (calls.foldl (fun r call => call.run r) r).2 =
        { r.2 with sent := r.2.sent ++ dispositions.map .disposition } ∧
      ∀ id, (dispositions.find? (·.decides id)).map Disposition.state = (firstState calls r id).map some := by
  induction calls generalizing r with
  | nil => exact ⟨[], by simp, fun id => rfl⟩
  | cons call calls ih =>
      obtain ⟨first, hfirst, hdecides⟩ := call.run_decides hopen
      have hopen' : (call.run r).2.closed = false := by
        rw [hfirst]
        exact hopen
      obtain ⟨rest, hrest, hstates⟩ := ih hopen'
      refine ⟨first ++ rest, ?_, fun id => ?_⟩
      · rw [List.foldl_cons, hrest, hfirst, List.map_append, List.append_assoc]
      · have hone := hdecides id
        simp only [Disposition.DecideAs] at hone
        rw [List.find?_append, firstState]
        cases hcall : call.decides r.1 id with
        | true =>
            rw [hcall, if_pos rfl] at hone
            obtain ⟨disposition, hfind, hstate⟩ := Option.map_eq_some_iff.mp hone
            simp [hfind, hstate]
        | false =>
            rw [hcall, if_neg Bool.false_ne_true] at hone
            rw [Option.map_eq_none_iff.mp hone, Option.none_or, hstates id, if_neg Bool.false_ne_true]

end DisposalCall

/-- A receiver makes any calls, and the session of its sender takes what they write.  Each delivery
whose outcome is awaited gets the state of the first call that decided it; as long as none has, it is
still awaited. -/
theorem disposed_state_is_outcome (link : ReceiverLink) (calls : List DisposalCall) (s : Session)
    (h : s.Outstanding) :
    ∃ dispositions : List Disposition,
      (calls.foldl (fun r call => call.run r) (link, ⟨[], false⟩)).2 =
        ⟨dispositions.map .disposition, false⟩ ∧
      ∀ id c, s.awaiting id = some c →
        (∀ state, DisposalCall.firstState calls (link, ⟨[], false⟩) id = some state →
          (s.disposed dispositions).links.outcomes c = some (.ok (some state)) ∧
            (s.disposed dispositions).awaiting id = none) ∧
        (DisposalCall.firstState calls (link, ⟨[], false⟩) id = none →
          (s.disposed dispositions).links.outcomes c = s.links.outcomes c ∧
            (s.disposed dispositions).awaiting id = some c) := by
  obtain ⟨dispositions, hsent, hstates⟩ :=
    DisposalCall.foldl_run_decides (r := (link, ⟨[], false⟩)) calls rfl
  refine ⟨dispositions, hsent, fun id c hc => ⟨fun state hfirst => ?_, fun hnone => ?_⟩⟩
  · have hdecided := hstates id
    rw [hfirst] at hdecided
    obtain ⟨disposition, hfind, hstate⟩ := Option.map_eq_some_iff.mp hdecided
    rw [← hstate]
    exact Session.disposed_decided h hc hfind
  · have hundecided := hstates id
    rw [hnone] at hundecided
    exact Session.disposed_undecided h hc (Option.map_eq_none_iff.mp hundecided)

section Witness

/-- The deliveries 10 and 11 are unsettled, and settle first. -/
private def twoUnsettled : ReceiverLink where
  localState := .attached
  outputHandle := some ⟨0⟩
  rcvSettleMode := .first
  maxMessageSize := 0
  flowState := ⟨0, 0, 0, 0, false, none⟩
  unsettled := some ((IndexMap.empty.insert [1] none).insert [2] none)
  sessionStopReason := none

/-- The batch is too late for the delivery 10. -/
private def acceptedThenReleased : List DisposalCall :=
  [.one ⟨10, [1], none⟩ none .accepted false,
    .all [⟨11, [2], none⟩, ⟨10, [1], none⟩] none .released false]

theorem released_after_accepted : ∃ dispositions : List Disposition,
    (acceptedThenReleased.foldl (fun r call => call.run r) (twoUnsettled, ⟨[], false⟩)).2 =
        ⟨dispositions.map .disposition, false⟩ ∧
      (Session.twoAwaited.disposed dispositions).links.outcomes 5 = some (.ok (some .accepted)) ∧
      (Session.twoAwaited.disposed dispositions).links.outcomes 6 = some (.ok (some .released)) := by
  obtain ⟨dispositions, hsent, houtcome⟩ :=
    disposed_state_is_outcome twoUnsettled acceptedThenReleased _ Session.twoAwaited_outstanding
  refine ⟨dispositions, hsent, ?_, ?_⟩
  · exact ((houtcome 10 5 rfl).1 .accepted rfl).1
  · exact ((houtcome 11 6 rfl).1 .released rfl).1

end Witness

end Fe2o3Amqp
