import Fe2o3Amqp.Session.Echo
import Fe2o3Amqp.Util.Chunks

/-!
# The ranges of dispositions

A disposition names its deliveries by a range of delivery-ids, which are serial numbers.  The range
is walked as a range of numbers, and the deliveries that are due for an echo are put together into
ranges again.
-/

namespace Fe2o3Amqp

/-! ## Ranges of delivery-ids -/

theorem Disposition.covers_iff {disposition : Disposition} {last : DeliveryNumber}
    (hlast : disposition.last.getD disposition.first = last)
    (h : disposition.first.toNat ≤ last.toNat) (id : DeliveryNumber) :
    disposition.Covers id ↔ disposition.first.toNat ≤ id.toNat ∧ id.toNat ≤ last.toNat := by
  have hfirst := disposition.first.toNat_lt
  have hlt := last.toNat_lt
  have hid := id.toNat_lt
  rw [Covers, hlast, UInt32.le_iff_toNat_le, UInt32.toNat_sub, UInt32.toNat_sub]
  omega

namespace Session

theorem mem_deliveryIds {first last id : DeliveryNumber} :
    id ∈ deliveryIds first last ↔ first.toNat ≤ id.toNat ∧ id.toNat ≤ last.toNat := by
  have hlast := last.toNat_lt
  have hid := id.toNat_lt
  simp only [deliveryIds, List.mem_map, List.mem_range]
  constructor
  · rintro ⟨i, hi, rfl⟩
    rw [UInt32.toNat_ofNat_of_lt' (by simp only [UInt32.size]; omega)]
    omega
  · rintro ⟨hfirst, hle⟩
    refine ⟨id.toNat - first.toNat, by omega, ?_⟩
    rw [Nat.add_sub_cancel' hfirst, UInt32.ofNat_toNat]

theorem pairwise_deliveryIds (first last : DeliveryNumber) :
    (deliveryIds first last).Pairwise fun a b => a.toNat < b.toNat := by
  have hlast := last.toNat_lt
  rw [deliveryIds, List.pairwise_map]
  refine List.Pairwise.imp_of_mem ?_ List.pairwise_lt_range
  intro i j hi hj hlt
  rw [List.mem_range] at hi hj
  rw [UInt32.toNat_ofNat_of_lt' (by simp only [UInt32.size]; omega),
    UInt32.toNat_ofNat_of_lt' (by simp only [UInt32.size]; omega)]
  omega

/-- The session knows a delivery under the id. -/
def knowsDelivery (s : Session) (role : Role) (id : DeliveryNumber) : Bool :=
  (s.deliveryTagById (role, id)).isSome

/-- One iteration of either loop of `on_incoming_disposition`. -/
def processDelivery (disposition : Disposition) (s : Session) (id : DeliveryNumber) : Session :=
  if disposition.settled then settleDelivery disposition s id
  else (updateDelivery disposition ([], s) id).2

/-- The ids whose entries the loop finds, in the order in which it finds them. -/
def processed (disposition : Disposition) : Session → List DeliveryNumber → List DeliveryNumber
  | _, [] => []
  | s, id :: ids =>
      let rest := processed disposition (processDelivery disposition s id) ids
      if s.knowsDelivery disposition.role id then id :: rest else rest

def processedIds (s : Session) (disposition : Disposition) : List DeliveryNumber :=
  processed disposition s
    (deliveryIds disposition.first (disposition.last.getD disposition.first))

theorem updateDelivery_snd (disposition : Disposition) (collected : List DeliveryNumber) (s : Session)
    (id : DeliveryNumber) :
    (updateDelivery disposition (collected, s) id).2 = (updateDelivery disposition ([], s) id).2 := by
  simp only [updateDelivery]
  cases s.deliveryTagById (disposition.role, id) with
  | none => rfl
  | some entry =>
      simp only
      cases s.linkByInputHandle entry.1 <;> rfl

theorem foldl_updateDelivery_snd (disposition : Disposition) (h : disposition.settled = false)
    (ids collected : List DeliveryNumber) (s : Session) :
    (ids.foldl (updateDelivery disposition) (collected, s)).2 =
      ids.foldl (processDelivery disposition) s := by
  induction ids generalizing collected s with
  | nil => rfl
  | cons id ids ih =>
      have hone : processDelivery disposition s id = (updateDelivery disposition (collected, s) id).2 := by
        rw [updateDelivery_snd, processDelivery, h, if_neg Bool.false_ne_true]
      rw [List.foldl_cons, List.foldl_cons, hone]
      exact ih _ _

/-- An id without an entry is passed over. -/
theorem processDelivery_of_not_knowsDelivery {disposition : Disposition} {s : Session}
    {id : DeliveryNumber} (h : s.knowsDelivery disposition.role id = false) :
    processDelivery disposition s id = s := by
  have hnone : s.deliveryTagById (disposition.role, id) = none := by
    simpa [knowsDelivery] using h
  simp only [processDelivery, settleDelivery, updateDelivery, hnone]
  split_ifs <;> rfl

theorem foldl_processed (disposition : Disposition) (ids : List DeliveryNumber) (s : Session) :
    (processed disposition s ids).foldl (processDelivery disposition) s =
      ids.foldl (processDelivery disposition) s := by
  induction ids generalizing s with
  | nil => rfl
  | cons id ids ih =>
      simp only [processed, List.foldl_cons]
      cases hknown : s.knowsDelivery disposition.role id with
      | true =>
          rw [if_pos rfl, List.foldl_cons]
          exact ih _
      | false =>
          rw [if_neg Bool.false_ne_true, processDelivery_of_not_knowsDelivery hknown]
          exact ih s

/-- The loop over the range does what it does for the entries that it finds. -/
theorem onIncomingDisposition_snd (s : Session) (disposition : Disposition) :
    (s.onIncomingDisposition disposition).2 =
      (s.processedIds disposition).foldl (processDelivery disposition) s := by
  rw [processedIds, foldl_processed]
  cases hsettled : disposition.settled with
  | true =>
      have hone : processDelivery disposition = settleDelivery disposition := by
        funext s id
        rw [processDelivery, hsettled, if_pos rfl]
      rw [hone]
      simp only [onIncomingDisposition, hsettled, if_true]
  | false =>
      rw [← foldl_updateDelivery_snd disposition hsettled _ []]
      simp only [onIncomingDisposition, hsettled, Bool.false_eq_true, if_false]

theorem processDelivery_knowsDelivery {disposition : Disposition} {s : Session} {id other : DeliveryNumber}
    (h : other ≠ id) (role : Role) :
    (processDelivery disposition s id).knowsDelivery role other = s.knowsDelivery role other := by
  have hkey : (role, other) ≠ (disposition.role, id) := fun heq => h (Prod.ext_iff.mp heq).2
  simp only [processDelivery, settleDelivery, updateDelivery, knowsDelivery]
  cases hentry : s.deliveryTagById (disposition.role, id) with
  | none => split_ifs <;> rfl
  | some entry =>
      obtain ⟨handle, tag⟩ := entry
      simp only
      cases s.linkByInputHandle handle <;> split_ifs <;>
        simp only [Function.update_of_ne hkey]

theorem processed_eq_filter {disposition : Disposition} {ids : List DeliveryNumber} (h : ids.Nodup)
    (s : Session) : processed disposition s ids = ids.filter (s.knowsDelivery disposition.role) := by
  induction ids generalizing s with
  | nil => rfl
  | cons id ids ih =>
      obtain ⟨hid, hids⟩ := List.nodup_cons.mp h
      have hrest : ids.filter ((processDelivery disposition s id).knowsDelivery disposition.role) =
          ids.filter (s.knowsDelivery disposition.role) := by
        apply List.filter_congr
        intro other hother
        apply processDelivery_knowsDelivery
        rintro rfl
        exact hid hother
      simp only [processed, ih hids, hrest, List.filter_cons]

/-- A disposition processes the known deliveries in the serial range that it names, one after another,
and the number of deliveries that is derived from its range does not wrap to zero. -/
structure ProcessesSerialRange (s : Session) (disposition : Disposition) : Prop where
  mem_iff : ∀ id, id ∈ s.processedIds disposition ↔
    s.knowsDelivery disposition.role id = true ∧ disposition.Covers id
  inOrder : (s.processedIds disposition).Pairwise fun a b =>
    a - disposition.first < b - disposition.first
  counted : numMessagesSettledByDisposition disposition.first disposition.last ≠ 0

theorem numMessagesSettledByDisposition_ne_zero {first : UInt32} {last : Option UInt32}
    (h : (last.getD first - first).toNat < 2 ^ 31) :
    numMessagesSettledByDisposition first last ≠ 0 := by
  have hcount {span : UInt32} (hspan : span.toNat < 2 ^ 31) : span + 1 ≠ 0 := by
    intro hzero
    have hnat := congrArg UInt32.toNat hzero
    rw [UInt32.toNat_add_one (by omega)] at hnat
    cases hnat
  cases last with
  | none =>
      have hzero : (0 : UInt32).toNat < 2 ^ 31 := by decide
      exact hcount hzero
  | some last =>
      have hzero : (0 : UInt32).toNat < 2 ^ 31 := by decide
      simp only [numMessagesSettledByDisposition]
      split_ifs
      · exact hcount h
      · exact hcount hzero

/-- A disposition over less than half of the serial numbers is processed as a serial range just when
the range does not cross 2³² or nothing in it is known. -/
theorem processesSerialRange_iff (s : Session) (disposition : Disposition)
    (h : (disposition.last.getD disposition.first - disposition.first).toNat < 2 ^ 31) :
    s.ProcessesSerialRange disposition ↔
      disposition.first.toNat ≤ (disposition.last.getD disposition.first).toNat ∨
        ∀ id, disposition.Covers id → s.knowsDelivery disposition.role id = false := by
  have hpairwise := pairwise_deliveryIds disposition.first (disposition.last.getD disposition.first)
  have hfilter : s.processedIds disposition =
      (deliveryIds disposition.first (disposition.last.getD disposition.first)).filter
        (s.knowsDelivery disposition.role) := by
    apply processed_eq_filter
    refine hpairwise.imp fun {a b} hlt => ?_
    rintro rfl
    exact Nat.lt_irrefl _ hlt
  constructor
  · intro hserial
    by_cases hwraps : disposition.first.toNat ≤ (disposition.last.getD disposition.first).toNat
    · exact .inl hwraps
    · right
      intro id hcovers
      -- the range of numbers is empty
      have hnone : id ∉ s.processedIds disposition := by
        rw [hfilter, List.mem_filter, mem_deliveryIds]
        omega
      rw [hserial.mem_iff] at hnone
      exact Bool.eq_false_iff.mpr fun hknown => hnone ⟨hknown, hcovers⟩
  · intro hcondition
    refine ⟨fun id => ?_, ?_, numMessagesSettledByDisposition_ne_zero h⟩
    · rw [hfilter, List.mem_filter, mem_deliveryIds, and_comm]
      refine and_congr_right fun hknown => ?_
      constructor
      · intro hmem
        exact (Disposition.covers_iff rfl (Nat.le_trans hmem.1 hmem.2) id).mpr hmem
      · intro hcovers
        rcases hcondition with hle | hunknown
        · exact (Disposition.covers_iff rfl hle id).mp hcovers
        · cases hknown.symm.trans (hunknown id hcovers)
    · rw [hfilter]
      refine (hpairwise.imp_of_mem ?_).filter _
      intro a b ha hb hlt
      rw [mem_deliveryIds] at ha hb
      have hb' := b.toNat_lt
      rw [UInt32.lt_iff_toNat_lt, UInt32.toNat_sub, UInt32.toNat_sub]
      omega

/-! ## Echoes -/

/-- The echo for a slice of the deliveries that are due. -/
def echoOf (state : Option DeliveryState) (slice : List DeliveryNumber) : Disposition where
  role := .sender
  first := slice.headD 0
  last := slice.getLast?
  settled := true
  state := state
  batchable := false

theorem echoDispositions_eq_map (state : Option DeliveryState) (ids : List DeliveryNumber) (prev : Nat)
    (inds : List Nat) :
    echoDispositions state ids prev inds = (ids.slices prev inds).map (echoOf state) := by
  induction inds generalizing prev with
  | nil => rfl
  | cons ind inds ih =>
      rw [echoDispositions, ih]
      rfl

end Session

/-- A run of consecutive ids is the range from its first to its last. -/
theorem mem_consecutive_iff {run : List DeliveryNumber}
    (hchain : run.IsChain fun a b => Session.isConsecutive a b)
    (hascending : run.Pairwise fun a b => a.toNat < b.toNat) {first last : DeliveryNumber}
    (hfirst : run.head? = some first) (hlast : run.getLast? = some last) (id : DeliveryNumber) :
    id ∈ run ↔ first.toNat ≤ id.toNat ∧ id.toNat ≤ last.toNat := by
  induction run generalizing first id with
  | nil => cases hfirst
  | cons a run ih =>
      cases hfirst
      cases run with
      | nil =>
          obtain rfl : a = last := Option.some.inj hlast
          rw [List.mem_singleton, ← UInt32.toNat_inj]
          omega
      | cons b run =>
          obtain ⟨hnext, hchain⟩ := List.isChain_cons_cons.mp hchain
          obtain ⟨hlt, hascending⟩ := List.pairwise_cons.mp hascending
          have hb : b.toNat = a.toNat + 1 := by
            have hdiff : (b - a).toNat = 1 := congrArg UInt32.toNat (eq_of_beq hnext)
            have hab := hlt b List.mem_cons_self
            have hbmax := b.toNat_lt
            rw [UInt32.toNat_sub] at hdiff
            omega
          have hrest := fun id => ih hchain hascending rfl (by simpa using hlast) id
          have hble : b.toNat ≤ last.toNat := ((hrest b).mp List.mem_cons_self).2
          rw [List.mem_cons, hrest, ← UInt32.toNat_inj]
          omega

/-- A disposition from the first to the last id of a run covers the run. -/
theorem Disposition.covers_run {disposition : Disposition} {run : List DeliveryNumber}
    (hchain : run.IsChain fun a b => Session.isConsecutive a b)
    (hascending : run.Pairwise fun a b => a.toNat < b.toNat)
    (hfirst : run.head? = some disposition.first)
    (hlast : run.getLast? = some (disposition.last.getD disposition.first)) (id : DeliveryNumber) :
    disposition.Covers id ↔ id ∈ run := by
  have hmem := mem_consecutive_iff hchain hascending hfirst hlast
  have hle := ((hmem disposition.first).mp (List.mem_of_head? hfirst)).2
  rw [hmem, covers_iff rfl hle]

namespace Session

theorem covers_echoOf {state : Option DeliveryState} {run : List DeliveryNumber}
    (hrun : run ≠ []) (hchain : run.IsChain fun a b => isConsecutive a b)
    (hascending : run.Pairwise fun a b => a.toNat < b.toNat) (id : DeliveryNumber) :
    (echoOf state run).Covers id ↔ id ∈ run := by
  cases run with
  | nil => exact absurd rfl hrun
  | cons first rest =>
      apply Disposition.covers_run hchain hascending rfl
      simp only [echoOf, List.getLast?_eq_some_getLast hrun, Option.getD_some]

/-- The groups of consecutive ids, each ascending, and none of them empty. -/
theorem covers_of_mem_splitBy {state : Option DeliveryState} {ids run : List DeliveryNumber}
    (h : ids.Pairwise fun a b => a.toNat < b.toNat)
    (hrun : run ∈ ids.splitBy fun a b => isConsecutive a b) (id : DeliveryNumber) :
    (echoOf state run).Covers id ↔ id ∈ run := by
  apply covers_echoOf (List.ne_nil_of_mem_splitBy hrun) (List.isChain_of_mem_splitBy hrun)
  refine h.sublist ?_
  have hsublist := List.sublist_flatten_of_mem hrun
  rwa [List.flatten_splitBy] at hsublist

/-- Distinct groups have no id in common. -/
theorem pairwise_disjoint_splitBy {ids : List DeliveryNumber}
    (h : ids.Pairwise fun a b => a.toNat < b.toNat) :
    (ids.splitBy fun a b => isConsecutive a b).Pairwise fun a b => ∀ id, ¬(id ∈ a ∧ id ∈ b) := by
  have hflat : ((ids.splitBy fun a b => isConsecutive a b).flatten).Nodup := by
    rw [List.flatten_splitBy]
    refine h.imp fun {a b} hlt => ?_
    rintro rfl
    exact Nat.lt_irrefl _ hlt
  refine (List.nodup_flatten.mp hflat).2.imp fun {a b} hdisjoint id => ?_
  rintro ⟨ha, hb⟩
  exact hdisjoint ha hb

/-- The session answers with settled dispositions of the sender whose ranges are disjoint and together
are the deliveries that are due for an echo. -/
def EchoesExactly (s : Session) (disposition : Disposition) : Prop :=
  ∃ echoes, (s.onIncomingDisposition disposition).1 = some echoes ∧
    (∀ echo ∈ echoes, echo.role = .sender ∧ echo.settled = true) ∧
    echoes.Pairwise (fun a b => ∀ id, ¬(a.Covers id ∧ b.Covers id)) ∧
    ∀ id, (∃ echo ∈ echoes, echo.Covers id) ↔ id ∈ s.echoIds disposition

theorem pairwise_echoIds (s : Session) (disposition : Disposition) :
    (s.echoIds disposition).Pairwise fun a b => a.toNat < b.toNat :=
  (pairwise_deliveryIds _ _).filter _

/-- The deliveries that are echoed: all that are due but those of the last group. -/
theorem echoed_iff (s : Session) (disposition : Disposition) (h : disposition.settled = false)
    (hdue : s.echoIds disposition ≠ []) :
    ∃ echoes, (s.onIncomingDisposition disposition).1 = some echoes ∧
      ∀ id, (∃ echo ∈ echoes, echo.Covers id) ↔
        ∃ run ∈ ((s.echoIds disposition).splitBy fun a b => isConsecutive a b).dropLast, id ∈ run := by
  refine ⟨_, (s.onIncomingDisposition_unsettled disposition h).1, fun id => ?_⟩
  have hslices : (s.echoIds disposition).slices 0 (consecutiveChunkIndices (s.echoIds disposition)) =
      ((s.echoIds disposition).splitBy fun a b => isConsecutive a b).dropLast :=
    List.slices_breaks_dropLast hdue
  rw [echoDispositions_eq_map, hslices]
  simp only [List.mem_map, exists_exists_and_eq_and]
  refine exists_congr fun run => and_congr_right fun hrun => ?_
  exact covers_of_mem_splitBy (s.pairwise_echoIds disposition) (List.mem_of_mem_dropLast hrun) id

/-- An unsettled disposition is echoed exactly just when nothing is due for an echo: the last group of
consecutive deliveries is never echoed. -/
theorem echoesExactly_iff (s : Session) (disposition : Disposition)
    (h : disposition.settled = false) :
    s.EchoesExactly disposition ↔ s.echoIds disposition = [] := by
  constructor
  · rintro ⟨echoes, hechoes, -, -, hcovered⟩
    by_contra hdue
    obtain ⟨echoes', hechoes', hlast⟩ := s.echoed_iff disposition h hdue
    cases hechoes.symm.trans hechoes'
    have hgroups := List.dropLast_append_getLast (List.splitBy_ne_nil.mpr hdue :
      (s.echoIds disposition).splitBy (fun a b => isConsecutive a b) ≠ [])
    have hdisjoint := pairwise_disjoint_splitBy (s.pairwise_echoIds disposition)
    have hmem := List.getLast_mem (List.splitBy_ne_nil.mpr hdue :
      (s.echoIds disposition).splitBy (fun a b => isConsecutive a b) ≠ [])
    rw [← hgroups, List.pairwise_append] at hdisjoint
    generalize List.getLast _ _ = last at hdisjoint hmem
    -- an id of the last group is due, and in no other group
    obtain ⟨id, hid⟩ := List.exists_mem_of_ne_nil last (List.ne_nil_of_mem_splitBy hmem)
    have hdueId : id ∈ s.echoIds disposition := by
      rw [← List.flatten_splitBy (fun a b => isConsecutive a b) (s.echoIds disposition)]
      exact List.mem_flatten_of_mem hmem hid
    obtain ⟨run, hrun, hidrun⟩ := (hlast id).mp ((hcovered id).mpr hdueId)
    exact hdisjoint.2.2 run hrun last (List.mem_singleton_self last) id ⟨hidrun, hid⟩
  · intro hnone
    refine ⟨[], ?_, by simp, List.Pairwise.nil, by simp [hnone]⟩
    rw [(s.onIncomingDisposition_unsettled disposition h).1, hnone]
    rfl

section Witnesses

/-- A session that has sent 2³² + 1 deliveries, of which the last two are not settled. -/
private def sentAcrossZero : Session :=
  { SessionBuilder.intoSession {} 0 .mapped LinkStore.empty with
    nextOutgoingId := 1
    nextOutgoingDeliveryId := 1
    deliveryTagById := fun key =>
      if key = (.receiver, 0xffffffff) then some (⟨7⟩, [0])
      else if key = (.receiver, 0) then some (⟨7⟩, [1])
      else none }

private def acceptRange (first last : DeliveryNumber) : Disposition where
  role := .receiver
  first := first
  last := some last
  settled := true
  state := some .accepted
  batchable := false

theorem first_processed : sentAcrossZero.ProcessesSerialRange (acceptRange 0xfffffffe 0xffffffff) :=
  (processesSerialRange_iff sentAcrossZero (acceptRange 0xfffffffe 0xffffffff) (by decide)).mpr
    (.inl (by decide))

theorem across_zero_not_processed :
    ¬sentAcrossZero.ProcessesSerialRange (acceptRange 0xffffffff 0) := by
  intro hserial
  have hnone : 0 ∉ sentAcrossZero.processedIds (acceptRange 0xffffffff 0) := by decide
  apply hnone
  rw [hserial.mem_iff]
  exact ⟨rfl, UInt32.le_refl _⟩

/-- The session with its link, whose receiver settles second. -/
private def sentToSecond : Session :=
  { sentAcrossZero with
    linkByInputHandle := fun handle => if handle = ⟨7⟩ then some (.sender 0 ⟨0⟩ .second) else none }

theorem nothing_due_echoed :
    sentAcrossZero.EchoesExactly { acceptRange 0 0 with settled := false } :=
  (echoesExactly_iff sentAcrossZero { acceptRange 0 0 with settled := false } rfl).mpr (by decide)

/-- One delivery is due, and nothing is echoed. -/
theorem single_not_echoed :
    ¬sentToSecond.EchoesExactly { acceptRange 0 0 with settled := false } := by
  rintro ⟨echoes, hechoes, -, -, hcovered⟩
  have hnone : (sentToSecond.onIncomingDisposition { acceptRange 0 0 with settled := false }).1 =
      some [] := rfl
  cases hnone.symm.trans hechoes
  have hdue : 0 ∈ sentToSecond.echoIds { acceptRange 0 0 with settled := false } := by decide
  obtain ⟨echo, hmem, -⟩ := (hcovered 0).mpr hdue
  cases hmem

end Witnesses

end Session

end Fe2o3Amqp
