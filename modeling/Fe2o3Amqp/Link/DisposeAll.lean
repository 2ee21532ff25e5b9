import Fe2o3Amqp.Link.ReceiverLink
import Fe2o3Amqp.Session.DispositionRanges
import Mathlib.Data.Prod.Lex

/-!
# Disposal of a batch

The deliveries are sorted by their ids, those that are not in the unsettled map are left out, and the
rest is cut into runs of consecutive ids of one settle mode.  Each run is one disposition.
-/

namespace Fe2o3Amqp

namespace ReceiverLink

open Session (isConsecutive)

/-! ## The operations -/

def knows (link : ReceiverLink) (tag : DeliveryTag) : Bool :=
  (link.unsettled.bind (·.get tag)).isSome

/-- What a disposition does with the entry of one of its deliveries. -/
def disposeEntry (settled : Bool) (state : DeliveryState) (link : ReceiverLink) (info : DeliveryInfo) :
    ReceiverLink :=
  if settled then { link with unsettled := link.unsettled.map (·.swapRemove info.deliveryTag) }
  else link.insertUnsettled info.deliveryTag (some state)

def disposeConsecutive (link : ReceiverLink) (writer : LinkWriter)
    (consecutiveInfos : List DeliveryInfo) (settled : Option Bool) (state : DeliveryState)
    (batchable : Bool) : Except IllegalLinkStateError LinkWriter × ReceiverLink :=
  match consecutiveInfos with
  | [] => (.ok writer, link)
  | info :: infos =>
      let settled := link.disposesSettled info settled
      let link := (info :: infos).foldl (disposeEntry settled state) link
      match writer.send (.disposition
        { role := .receiver, first := info.deliveryId
          last := (info :: infos).getLast?.map DeliveryInfo.deliveryId, settled, state := some state
          batchable }) with
      | none => (.error link.stopped, link)
      | some writer => (.ok writer, link)

/-- The two deliveries go into one disposition. -/
def sameRun (left right : DeliveryInfo) : Bool :=
  isConsecutive left.deliveryId right.deliveryId && left.rcvSettleMode == right.rcvSettleMode

def consecutiveChunkIndices (deliveryInfos : List DeliveryInfo) : List Nat :=
  (deliveryInfos.zip deliveryInfos.tail).zipIdx.filterMap fun infos =>
    if sameRun infos.1.1 infos.1.2 then none else some (infos.2 + 1)

/-- The loop over the chunk indices, and the final slice. -/
def disposeChunks (deliveryInfos : List DeliveryInfo) (settled : Option Bool) (state : DeliveryState)
    (batchable : Bool) (link : ReceiverLink) (writer : LinkWriter) :
    (prevInd : Nat) → List Nat → Except IllegalLinkStateError LinkWriter × ReceiverLink
  | prevInd, [] =>
      link.disposeConsecutive writer (deliveryInfos.drop prevInd) settled state batchable
  | prevInd, ind :: inds =>
      let slice := (deliveryInfos.drop prevInd).take (ind - prevInd)
      match link.disposeConsecutive writer slice settled state batchable with
      | (.error e, link) => (.error e, link)
      | (.ok writer, link) => disposeChunks deliveryInfos settled state batchable link writer ind inds

/-- The deliveries in the order of their ids, those that the map has lost left out. -/
def toDispose (link : ReceiverLink) (deliveryInfos : List DeliveryInfo) : List DeliveryInfo :=
  (deliveryInfos.mergeSort fun left right => left.deliveryId ≤ right.deliveryId).filter
    fun info => link.knows info.deliveryTag

def disposeAll (link : ReceiverLink) (writer : LinkWriter) (deliveryInfos : List DeliveryInfo)
    (settled : Option Bool) (state : DeliveryState) (batchable : Bool) :
    Except IllegalLinkStateError LinkWriter × ReceiverLink :=
  let deliveryInfos := link.toDispose deliveryInfos
  disposeChunks deliveryInfos settled state batchable link writer 0
    (consecutiveChunkIndices deliveryInfos)

/-! ## One entry -/

@[simp] theorem disposeEntry_rcvSettleMode (settled : Bool) (state : DeliveryState)
    (link : ReceiverLink) (info : DeliveryInfo) :
    (disposeEntry settled state link info).rcvSettleMode = link.rcvSettleMode := by
  rw [disposeEntry]
  split_ifs <;> rfl

theorem disposeEntry_eq (settled : Bool) (state : DeliveryState) (link : ReceiverLink)
    (info : DeliveryInfo) :
    ∃ unsettled, disposeEntry settled state link info = { link with unsettled } := by
  rw [disposeEntry]
  split_ifs
  · exact ⟨_, rfl⟩
  · exact ⟨_, rfl⟩

/-- The entry of a delivery in the unsettled map. -/
def unsettledEntry (link : ReceiverLink) (tag : DeliveryTag) : Option (Option DeliveryState) :=
  link.unsettled.bind (·.get tag)

theorem disposeEntry_unsettledEntry (settled : Bool) (state : DeliveryState) (link : ReceiverLink)
    (info : DeliveryInfo) (tag : DeliveryTag) :
    (disposeEntry settled state link info).unsettledEntry tag =
      if tag = info.deliveryTag then if settled then none else some (some state)
      else link.unsettledEntry tag := by
  simp only [disposeEntry, unsettledEntry, insertUnsettled]
  cases link.unsettled with
  | none =>
      by_cases htag : tag = info.deliveryTag <;> cases settled <;>
        simp [IndexMap.get_insert, htag]
  | some map =>
      by_cases htag : tag = info.deliveryTag <;> cases settled <;>
        simp [IndexMap.get_insert, IndexMap.get_swapRemove, htag]

/-! ## The runs -/

/-- The disposition of a run. -/
def dispositionOf (link : ReceiverLink) (settled : Option Bool) (state : DeliveryState)
    (batchable : Bool) (run : List DeliveryInfo) : Disposition where
  role := .receiver
  first := (run.head?.map DeliveryInfo.deliveryId).getD 0
  last := run.getLast?.map DeliveryInfo.deliveryId
  settled := (run.head?.map fun info => link.disposesSettled info settled).getD false
  state := some state
  batchable := batchable

/-- The link after the entries of the listed deliveries, each disposed of in its own mode. -/
def disposeEntries (settled : Option Bool) (state : DeliveryState) (link : ReceiverLink)
    (deliveryInfos : List DeliveryInfo) : ReceiverLink :=
  deliveryInfos.foldl (fun link info =>
    disposeEntry (link.disposesSettled info settled) state link info) link

theorem disposesSettled_congr {link link' : ReceiverLink} {info info' : DeliveryInfo}
    (hlink : link'.rcvSettleMode = link.rcvSettleMode)
    (hinfo : info'.rcvSettleMode = info.rcvSettleMode) (settled : Option Bool) :
    link'.disposesSettled info' settled = link.disposesSettled info settled := by
  rw [disposesSettled, disposesSettled, hlink, hinfo]

theorem disposeEntries_cons (settled : Option Bool) (state : DeliveryState) (link : ReceiverLink)
    (info : DeliveryInfo) (infos : List DeliveryInfo) :
    disposeEntries settled state link (info :: infos) =
      disposeEntries settled state
        (disposeEntry (link.disposesSettled info settled) state link info) infos := rfl

/-- Nothing but the unsettled map changes. -/
theorem disposeEntries_eq (settled : Option Bool) (state : DeliveryState) (link : ReceiverLink)
    (deliveryInfos : List DeliveryInfo) :
    ∃ unsettled, disposeEntries settled state link deliveryInfos = { link with unsettled } := by
  induction deliveryInfos generalizing link with
  | nil => exact ⟨link.unsettled, rfl⟩
  | cons info infos ih =>
      obtain ⟨unsettled, hinfo⟩ :=
        disposeEntry_eq (link.disposesSettled info settled) state link info
      rw [disposeEntries_cons, hinfo]
      exact ih _

theorem disposeEntries_rcvSettleMode (settled : Option Bool) (state : DeliveryState)
    (link : ReceiverLink) (deliveryInfos : List DeliveryInfo) :
    (disposeEntries settled state link deliveryInfos).rcvSettleMode = link.rcvSettleMode := by
  obtain ⟨unsettled, hlink⟩ := disposeEntries_eq settled state link deliveryInfos
  rw [hlink]

/-- All deliveries of a run have the settle mode of the first. -/
theorem rcvSettleMode_eq_of_run {info other : DeliveryInfo} {run : List DeliveryInfo}
    (h : (info :: run).IsChain fun left right => sameRun left right) (hother : other ∈ run) :
    other.rcvSettleMode = info.rcvSettleMode := by
  induction run generalizing info with
  | nil => cases hother
  | cons next run ih =>
      obtain ⟨hnext, hrun⟩ := List.isChain_cons_cons.mp h
      have hmode : info.rcvSettleMode = next.rcvSettleMode := by
        simpa using (Bool.and_eq_true_iff.mp hnext).2
      rcases List.mem_cons.mp hother with rfl | hother
      · exact hmode.symm
      · exact (ih hrun hother).trans hmode.symm

/-- A run is disposed of with the flag of its first delivery, which is that of each of them. -/
theorem foldl_disposeEntry_run {settled : Option Bool} {state : DeliveryState} {flag : Bool}
    {link : ReceiverLink} {run : List DeliveryInfo}
    (h : ∀ info ∈ run, link.disposesSettled info settled = flag) :
    run.foldl (disposeEntry flag state) link = disposeEntries settled state link run := by
  induction run generalizing link with
  | nil => rfl
  | cons info run ih =>
      rw [disposeEntries_cons, List.foldl_cons, h info List.mem_cons_self]
      apply ih
      intro other hother
      rw [disposesSettled_congr (disposeEntry_rcvSettleMode ..) rfl]
      exact h other (List.mem_cons_of_mem _ hother)

theorem disposeConsecutive_run {settled : Option Bool} {state : DeliveryState} {batchable : Bool}
    {link : ReceiverLink} {run : List DeliveryInfo} (hrun : run ≠ [])
    (h : run.IsChain fun left right => sameRun left right) (writer : LinkWriter) :
    link.disposeConsecutive writer run settled state batchable =
      (if writer.closed then .error link.stopped
        else .ok { writer with
          sent := writer.sent ++ [.disposition (link.dispositionOf settled state batchable run)] },
        disposeEntries settled state link run) := by
  cases run with
  | nil => exact absurd rfl hrun
  | cons info run =>
      have hflag : ∀ other ∈ info :: run,
          link.disposesSettled other settled = link.disposesSettled info settled := by
        intro other hother
        apply disposesSettled_congr rfl
        rcases List.mem_cons.mp hother with rfl | hother
        · rfl
        · exact rcvSettleMode_eq_of_run h hother
      have hstopped : (disposeEntries settled state link (info :: run)).stopped = link.stopped := by
        obtain ⟨unsettled, hlink⟩ := disposeEntries_eq settled state link (info :: run)
        rw [hlink]
        rfl
      simp only [disposeConsecutive, foldl_disposeEntry_run hflag, LinkWriter.send]
      cases writer.closed with
      | true => exact congrArg (fun e => (Except.error e, _)) hstopped
      | false => rfl

theorem dispositionOf_congr {link link' : ReceiverLink}
    (h : link'.rcvSettleMode = link.rcvSettleMode) (settled : Option Bool) (state : DeliveryState)
    (batchable : Bool) : link'.dispositionOf settled state batchable =
      link.dispositionOf settled state batchable := by
  funext run
  simp only [dispositionOf, disposesSettled_congr h rfl]

theorem take_finalSlice (deliveryInfos : List DeliveryInfo) (prevInd : Nat) :
    (deliveryInfos.drop prevInd).take (deliveryInfos.length - prevInd) = deliveryInfos.drop prevInd := by
  rw [← List.length_drop, List.take_length]

/-- The loop with the final slice handles the runs one after another. -/
theorem disposeChunks_eq {settled : Option Bool} {state : DeliveryState} {batchable : Bool}
    {deliveryInfos : List DeliveryInfo} {link : ReceiverLink} {writer : LinkWriter} {prevInd : Nat}
    {inds : List Nat} {runs : List (List DeliveryInfo)} (hopen : writer.closed = false)
    (hslices : deliveryInfos.slices prevInd (inds ++ [deliveryInfos.length]) = runs)
    (hruns : ∀ run ∈ runs, run ≠ [] ∧ run.IsChain fun left right => sameRun left right) :
    disposeChunks deliveryInfos settled state batchable link writer prevInd inds =
      (.ok { writer with
        sent := writer.sent ++
          runs.map fun run => .disposition (link.dispositionOf settled state batchable run) },
        disposeEntries settled state link runs.flatten) := by
  induction inds generalizing link writer prevInd runs with
  | nil =>
      subst hslices
      obtain ⟨hne, hchain⟩ := hruns _ List.mem_cons_self
      rw [take_finalSlice] at hne hchain
      simp only [disposeChunks, List.slices, List.nil_append, take_finalSlice,
        disposeConsecutive_run hne hchain, hopen, Bool.false_eq_true, if_false, List.map_cons,
        List.map_nil, List.flatten_cons, List.flatten_nil, List.append_nil]
  | cons ind inds ih =>
      subst hslices
      obtain ⟨hne, hchain⟩ := hruns _ List.mem_cons_self
      simp only [disposeChunks, disposeConsecutive_run hne hchain, hopen, Bool.false_eq_true,
        if_false]
      rw [ih rfl rfl fun run hrun => hruns run (List.mem_cons_of_mem _ hrun)]
      rw [dispositionOf_congr (disposeEntries_rcvSettleMode settled state link _)]
      simp only [List.cons_append, List.slices, List.map_cons, List.flatten_cons,
        List.append_assoc, List.nil_append, disposeEntries, List.foldl_append]

/-- A session that is gone ends the loop at the first run. -/
theorem disposeChunks_closed {settled : Option Bool} {state : DeliveryState} {batchable : Bool}
    {deliveryInfos : List DeliveryInfo} {link : ReceiverLink} {writer : LinkWriter} {prevInd : Nat}
    {inds : List Nat} {run : List DeliveryInfo} {runs : List (List DeliveryInfo)}
    (hclosed : writer.closed = true)
    (hslices : deliveryInfos.slices prevInd (inds ++ [deliveryInfos.length]) = run :: runs)
    (hrun : run ≠ []) (hchain : run.IsChain fun left right => sameRun left right) :
    disposeChunks deliveryInfos settled state batchable link writer prevInd inds =
      (.error link.stopped, disposeEntries settled state link run) := by
  cases inds with
  | nil =>
      obtain ⟨rfl, -⟩ := List.cons.inj hslices
      rw [take_finalSlice] at hrun hchain ⊢
      rw [disposeChunks, disposeConsecutive_run hrun hchain, hclosed, if_pos rfl]
  | cons ind inds =>
      obtain ⟨rfl, -⟩ := List.cons.inj hslices
      simp only [disposeChunks, disposeConsecutive_run hrun hchain, hclosed, if_true]

/-! ## The deliveries that are disposed of -/

theorem mem_toDispose {link : ReceiverLink} {deliveryInfos : List DeliveryInfo} {info : DeliveryInfo} :
    info ∈ link.toDispose deliveryInfos ↔ info ∈ deliveryInfos ∧ link.knows info.deliveryTag = true := by
  rw [toDispose, List.mem_filter, List.mem_mergeSort]

theorem pairwise_toDispose (link : ReceiverLink) {deliveryInfos : List DeliveryInfo}
    (h : deliveryInfos.Pairwise fun a b => a.deliveryId ≠ b.deliveryId) :
    (link.toDispose deliveryInfos).Pairwise fun a b => a.deliveryId.toNat < b.deliveryId.toNat := by
  have hsorted : (deliveryInfos.mergeSort fun left right => left.deliveryId ≤ right.deliveryId).Pairwise
      fun a b => decide (a.deliveryId ≤ b.deliveryId) = true := by
    apply List.pairwise_mergeSort
    · intro a b c hab hbc
      rw [decide_eq_true_iff] at hab hbc ⊢
      exact UInt32.le_trans hab hbc
    · intro a b
      simpa using UInt32.le_total a.deliveryId b.deliveryId
  have hdistinct : (deliveryInfos.mergeSort fun left right => left.deliveryId ≤ right.deliveryId).Pairwise
      fun a b => a.deliveryId ≠ b.deliveryId := by
    refine (List.mergeSort_perm _ _).symm.pairwise h fun {a b} hne => ?_
    exact hne.symm
  refine ((hsorted.and hdistinct).imp fun {a b} hab => ?_).filter _
  have hle : a.deliveryId.toNat ≤ b.deliveryId.toNat :=
    UInt32.le_iff_toNat_le.mp (decide_eq_true_iff.mp hab.1)
  have hne : a.deliveryId.toNat ≠ b.deliveryId.toNat := fun heq => hab.2 (UInt32.toNat_inj.mp heq)
  omega

theorem disposeEntries_unsettledEntry_of_forall_ne {settled : Option Bool} {state : DeliveryState}
    {link : ReceiverLink} {deliveryInfos : List DeliveryInfo} {tag : DeliveryTag}
    (h : ∀ info ∈ deliveryInfos, info.deliveryTag ≠ tag) :
    (disposeEntries settled state link deliveryInfos).unsettledEntry tag = link.unsettledEntry tag := by
  induction deliveryInfos generalizing link with
  | nil => rfl
  | cons info infos ih =>
      rw [disposeEntries_cons, ih fun other hother => h other (List.mem_cons_of_mem _ hother),
        disposeEntry_unsettledEntry, if_neg (h info List.mem_cons_self).symm]

/-- The last delivery with a tag decides what becomes of its entry. -/
theorem disposeEntries_unsettledEntry_of_mem {settled : Option Bool} {state : DeliveryState}
    {link : ReceiverLink} {deliveryInfos : List DeliveryInfo} {info : DeliveryInfo}
    (hascending : deliveryInfos.Pairwise fun a b => a.deliveryId.toNat < b.deliveryId.toNat)
    (hinfo : info ∈ deliveryInfos)
    (hlast : ∀ other ∈ deliveryInfos, other.deliveryTag = info.deliveryTag →
      other.deliveryId ≤ info.deliveryId) :
    (disposeEntries settled state link deliveryInfos).unsettledEntry info.deliveryTag =
      if link.disposesSettled info settled then none else some (some state) := by
  induction deliveryInfos generalizing link with
  | nil => cases hinfo
  | cons first infos ih =>
      obtain ⟨hfirst, hascending⟩ := List.pairwise_cons.mp hascending
      rw [disposeEntries_cons]
      rcases List.mem_cons.mp hinfo with rfl | hinfo
      · rw [disposeEntries_unsettledEntry_of_forall_ne, disposeEntry_unsettledEntry, if_pos rfl]
        intro other hother htag
        have hlt := hfirst other hother
        have hle := UInt32.le_iff_toNat_le.mp (hlast other (List.mem_cons_of_mem _ hother) htag)
        omega
      · rw [ih hascending hinfo fun other hother => hlast other (List.mem_cons_of_mem _ hother),
          disposesSettled_congr (disposeEntry_rcvSettleMode ..) rfl]

/-! ## Batch disposal -/

/-- The dispositions name the listed deliveries that the unsettled map knows, each of them once and
with its own settled flag, and the map changes at their tags only. -/
structure DisposedExactly (link : ReceiverLink) (deliveryInfos : List DeliveryInfo)
    (settled : Option Bool) (state : DeliveryState) (batchable : Bool)
    (dispositions : List Disposition) (link' : ReceiverLink) : Prop where
  named : ∀ disposition ∈ dispositions, disposition.role = .receiver ∧
    disposition.state = some state ∧ disposition.batchable = batchable
  disjoint : dispositions.Pairwise fun a b => ∀ id, ¬(a.Covers id ∧ b.Covers id)
  covered : ∀ id, (∃ disposition ∈ dispositions, disposition.Covers id) ↔
    ∃ info ∈ deliveryInfos, info.deliveryId = id ∧ link.knows info.deliveryTag = true
  flagged : ∀ disposition ∈ dispositions, ∀ info ∈ deliveryInfos,
    disposition.Covers info.deliveryId → disposition.settled = link.disposesSettled info settled
  /-- Of several deliveries with one tag the one with the highest id decides. -/
  disposed : ∀ info ∈ deliveryInfos, link.knows info.deliveryTag = true →
    (∀ other ∈ deliveryInfos, other.deliveryTag = info.deliveryTag →
      other.deliveryId ≤ info.deliveryId) →
    link'.unsettledEntry info.deliveryTag =
      if link.disposesSettled info settled then none else some (some state)
  untouched : ∀ tag,
    (∀ info ∈ deliveryInfos, link.knows info.deliveryTag = true → info.deliveryTag ≠ tag) →
    link'.unsettledEntry tag = link.unsettledEntry tag
  kept : ∃ unsettled, link' = { link with unsettled }

section Runs

variable {link : ReceiverLink} {settled : Option Bool} {state : DeliveryState} {batchable : Bool}

theorem isConsecutive_of_run {run : List DeliveryInfo}
    (h : run.IsChain fun left right => sameRun left right) :
    (run.map DeliveryInfo.deliveryId).IsChain fun a b => isConsecutive a b := by
  rw [List.isChain_map]
  exact h.imp fun a b hab => (Bool.and_eq_true_iff.mp hab).1

theorem covers_dispositionOf {run : List DeliveryInfo} (hrun : run ≠ [])
    (hchain : run.IsChain fun left right => sameRun left right)
    (hascending : run.Pairwise fun a b => a.deliveryId.toNat < b.deliveryId.toNat)
    (id : DeliveryNumber) :
    (link.dispositionOf settled state batchable run).Covers id ↔
      ∃ info ∈ run, info.deliveryId = id := by
  rw [← List.mem_map]
  apply Disposition.covers_run (isConsecutive_of_run hchain) (List.pairwise_map.mpr hascending)
  · cases run with
    | nil => exact absurd rfl hrun
    | cons info run => rfl
  · simp [dispositionOf, List.getLast?_eq_some_getLast hrun]

/-- The disposition of a run has the flag of each of its deliveries. -/
theorem settled_dispositionOf {run : List DeliveryInfo}
    (hchain : run.IsChain fun left right => sameRun left right) {info : DeliveryInfo}
    (hinfo : info ∈ run) :
    (link.dispositionOf settled state batchable run).settled = link.disposesSettled info settled := by
  cases run with
  | nil => cases hinfo
  | cons first run =>
      apply disposesSettled_congr rfl
      rcases List.mem_cons.mp hinfo with rfl | hinfo
      · rfl
      · exact (rcvSettleMode_eq_of_run hchain hinfo).symm

/-- The runs of a list of deliveries that is sorted by the ids. -/
theorem disposedExactly_runs {deliveryInfos : List DeliveryInfo}
    (hids : deliveryInfos.Pairwise fun a b => a.deliveryId ≠ b.deliveryId)
    {runs : List (List DeliveryInfo)} (hflatten : runs.flatten = link.toDispose deliveryInfos)
    (hruns : ∀ run ∈ runs, run ≠ [] ∧ run.IsChain fun left right => sameRun left right) :
    link.DisposedExactly deliveryInfos settled state batchable
      (runs.map (link.dispositionOf settled state batchable))
      (disposeEntries settled state link (link.toDispose deliveryInfos)) := by
  have hascending := link.pairwise_toDispose hids
  have hcovers : ∀ run ∈ runs, ∀ id, (link.dispositionOf settled state batchable run).Covers id ↔
      ∃ info ∈ run, info.deliveryId = id := by
    intro run hrun
    obtain ⟨hne, hchain⟩ := hruns run hrun
    apply covers_dispositionOf hne hchain
    rw [← hflatten] at hascending
    exact hascending.sublist (List.sublist_flatten_of_mem hrun)
  have hsame : ∀ info ∈ link.toDispose deliveryInfos, ∀ other ∈ deliveryInfos,
      other.deliveryId = info.deliveryId → other = info := by
    intro info hinfo other hother heq
    have hnodup : (deliveryInfos.map DeliveryInfo.deliveryId).Nodup := List.pairwise_map.mpr hids
    exact List.inj_on_of_nodup_map hnodup hother (mem_toDispose.mp hinfo).1 heq
  refine ⟨?_, ?_, ?_, ?_, ?_, ?_, disposeEntries_eq settled state link _⟩
  · intro disposition hdisposition
    obtain ⟨run, -, rfl⟩ := List.mem_map.mp hdisposition
    exact ⟨rfl, rfl, rfl⟩
  · rw [List.pairwise_map]
    have hdistinct : runs.Pairwise fun a b => ∀ left ∈ a, ∀ right ∈ b,
        left.deliveryId.toNat < right.deliveryId.toNat := by
      rw [← hflatten] at hascending
      exact (List.pairwise_flatten.mp hascending).2
    refine hdistinct.imp_of_mem fun {a b} ha hb hlt id hboth => ?_
    obtain ⟨left, hleft, hleftId⟩ := (hcovers a ha id).mp hboth.1
    obtain ⟨right, hright, hrightId⟩ := (hcovers b hb id).mp hboth.2
    have hids := hlt left hleft right hright
    rw [hleftId, hrightId] at hids
    omega
  · intro id
    have hcovered : (∃ disposition ∈ runs.map (link.dispositionOf settled state batchable),
        disposition.Covers id) ↔ ∃ info ∈ runs.flatten, info.deliveryId = id := by
      simp only [List.mem_map, exists_exists_and_eq_and, List.mem_flatten]
      constructor
      · rintro ⟨run, hrun, hid⟩
        obtain ⟨info, hinfo, hid⟩ := (hcovers run hrun id).mp hid
        exact ⟨info, ⟨run, hrun, hinfo⟩, hid⟩
      · rintro ⟨info, ⟨run, hrun, hinfo⟩, hid⟩
        exact ⟨run, hrun, (hcovers run hrun id).mpr ⟨info, hinfo, hid⟩⟩
    rw [hcovered, hflatten]
    refine exists_congr fun info => ?_
    rw [mem_toDispose, and_assoc, and_comm (a := _ = id)]
  · intro disposition hdisposition info hinfo hcovered
    obtain ⟨run, hrun, rfl⟩ := List.mem_map.mp hdisposition
    obtain ⟨other, hother, heq⟩ := (hcovers run hrun _).mp hcovered
    have hmem : other ∈ link.toDispose deliveryInfos := by
      rw [← hflatten]
      exact List.mem_flatten_of_mem hrun hother
    obtain rfl := hsame other hmem info hinfo heq.symm
    exact settled_dispositionOf (hruns run hrun).2 hother
  · intro info hinfo hknown hlast
    apply disposeEntries_unsettledEntry_of_mem hascending (mem_toDispose.mpr ⟨hinfo, hknown⟩)
    intro other hother
    exact hlast other (mem_toDispose.mp hother).1
  · intro tag htag
    apply disposeEntries_unsettledEntry_of_forall_ne
    intro info hinfo
    obtain ⟨hlisted, hknown⟩ := mem_toDispose.mp hinfo
    exact htag info hlisted hknown

/-- While the session listens, a batch is disposed of exactly.  When it is gone, no disposition is
handed over, and no entry but those of the deliveries is touched. -/
theorem disposeAll_exact (link : ReceiverLink) (writer : LinkWriter)
    (deliveryInfos : List DeliveryInfo) (settled : Option Bool) (state : DeliveryState)
    (batchable : Bool) (hids : deliveryInfos.Pairwise fun a b => a.deliveryId ≠ b.deliveryId) :
    (writer.closed = false → ∃ dispositions link',
      link.disposeAll writer deliveryInfos settled state batchable =
          (.ok { writer with sent := writer.sent ++ dispositions.map .disposition }, link') ∧
        link.DisposedExactly deliveryInfos settled state batchable dispositions link') ∧
    (writer.closed = true →
      (link.disposeAll writer deliveryInfos settled state batchable).1 =
          (if (link.toDispose deliveryInfos).isEmpty then .ok writer else .error link.stopped) ∧
        ∀ tag,
          (∀ info ∈ deliveryInfos, link.knows info.deliveryTag = true → info.deliveryTag ≠ tag) →
          (link.disposeAll writer deliveryInfos settled state batchable).2.unsettledEntry tag =
            link.unsettledEntry tag) := by
  by_cases hempty : link.toDispose deliveryInfos = []
  · have hnothing : link.disposeAll writer deliveryInfos settled state batchable = (.ok writer, link) := by
      rw [disposeAll, hempty]
      rfl
    have hflatten : ([] : List (List DeliveryInfo)).flatten = link.toDispose deliveryInfos := hempty.symm
    have hexact : link.DisposedExactly deliveryInfos settled state batchable [] _ :=
      disposedExactly_runs hids hflatten (List.forall_mem_nil _)
    rw [hempty] at hexact
    refine ⟨fun _ => ⟨[], link, ?_, hexact⟩, fun _ => ?_⟩
    · rw [hnothing, List.map_nil, List.append_nil]
    · rw [hnothing, hempty]
      exact ⟨rfl, fun tag _ => rfl⟩
  · have hslices := List.slices_breaks (r := sameRun) hempty
    have hruns : ∀ run ∈ (link.toDispose deliveryInfos).splitBy sameRun,
        run ≠ [] ∧ run.IsChain fun left right => sameRun left right :=
      fun run hrun => ⟨List.ne_nil_of_mem_splitBy hrun, List.isChain_of_mem_splitBy hrun⟩
    have hflatten := List.flatten_splitBy sameRun (link.toDispose deliveryInfos)
    have hexact : link.DisposedExactly deliveryInfos settled state batchable _ _ :=
      disposedExactly_runs hids hflatten hruns
    constructor
    · intro hopen
      refine ⟨_, _, ?_, hexact⟩
      have hchunks : link.disposeAll writer deliveryInfos settled state batchable = _ :=
        disposeChunks_eq hopen hslices hruns
      rw [hchunks, hflatten, List.map_map]
      rfl
    · intro hclosed
      obtain ⟨run, runs, hsplit⟩ := List.exists_cons_of_ne_nil (List.splitBy_ne_nil.mpr hempty :
        (link.toDispose deliveryInfos).splitBy sameRun ≠ [])
      rw [hsplit] at hslices hruns hflatten
      obtain ⟨hrun, hchain⟩ := hruns run List.mem_cons_self
      have hchunks : link.disposeAll writer deliveryInfos settled state batchable = _ :=
        disposeChunks_closed hclosed hslices hrun hchain
      rw [hchunks, List.isEmpty_eq_false_iff.mpr hempty]
      refine ⟨rfl, fun tag htag => ?_⟩
      apply disposeEntries_unsettledEntry_of_forall_ne
      intro info hinfo
      have hmem : info ∈ link.toDispose deliveryInfos := by
        rw [← hflatten]
        exact List.mem_append_left _ hinfo
      exact htag info (mem_toDispose.mp hmem).1 (mem_toDispose.mp hmem).2

end Runs

section Witnesses

/-- Three deliveries are unsettled. -/
private def threeUnsettled : ReceiverLink where
  localState := .attached
  outputHandle := some ⟨0⟩
  rcvSettleMode := .first
  maxMessageSize := 0
  flowState := ⟨0, 0, 0, 0, false, none⟩
  unsettled := some (((IndexMap.empty.insert [1] none).insert [2] none).insert [3] none)
  sessionStopReason := none

/-- Listed out of order, one of them settled second, and one delivery that is no longer unsettled. -/
private def listed : List DeliveryInfo :=
  [⟨12, [3], some .second⟩, ⟨10, [1], none⟩, ⟨13, [4], none⟩, ⟨11, [2], none⟩]

theorem three_disposed_exactly : ∃ dispositions link',
    threeUnsettled.disposeAll ⟨[], false⟩ listed none .accepted false =
        (.ok ⟨[] ++ dispositions.map .disposition, false⟩, link') ∧
      threeUnsettled.DisposedExactly listed none .accepted false dispositions link' :=
  (disposeAll_exact threeUnsettled ⟨[], false⟩ listed none .accepted false (by decide)).1 rfl

end Witnesses

end ReceiverLink

end Fe2o3Amqp
