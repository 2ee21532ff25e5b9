import Fe2o3Amqp.Session.LinkTables
import Fe2o3Amqp.Util.Run

/-!
# Consistency of the link tables

The names stored under the output handles are pairwise distinct and are exactly the names that have
an entry, in every run.  A relay stays at its input handle until the peer detaches that handle, as
long as no Attach and no accepted link is put at an input handle that is in use: nothing checks
that it is free, and the relay found there is replaced.
-/

namespace Fe2o3Amqp

namespace LinkTables

variable {t : LinkTables}

/-- The two tables of names describe the same set of names. -/
structure Consistent (t : LinkTables) : Prop where
  slab : t.names.WellFormed
  distinct : ∀ i j name, t.names.get i = some name → t.names.get j = some name → i = j
  keys : ∀ name, (t.byName name).isSome ↔ ∃ i, t.names.get i = some name

/-- A change of the entries of present names. -/
theorem Consistent.of_keys (h : t.Consistent) {t' : LinkTables} (hnames : t'.names = t.names)
    (hkeys : ∀ name, (t'.byName name).isSome = (t.byName name).isSome) : t'.Consistent where
  slab := hnames ▸ h.slab
  distinct := hnames ▸ h.distinct
  keys := by
    intro name
    rw [hkeys, hnames]
    exact h.keys name

theorem Consistent.allocate (h : t.Consistent) (name : String) (link : Option LinkId) :
    (t.allocate name link).Consistent := by
  unfold LinkTables.allocate
  split_ifs with hname
  · exact h
  have hget := Slab.get_insert h.slab name
  have hfresh : ∀ i, t.names.get i ≠ some name := by
    intro i hi
    exact hname ((h.keys name).mpr ⟨i, hi⟩)
  refine ⟨Slab.insert_wellFormed h.slab name, ?_, ?_⟩
  · intro i j name' hi hj
    rw [hget] at hi hj
    split_ifs at hi hj with hi' hj'
    · rw [hi', hj']
    · cases hi
      exact absurd hj (hfresh j)
    · cases hj
      exact absurd hi (hfresh i)
    · exact h.distinct i j name' hi hj
  · intro name'
    by_cases heq : name' = name
    · subst heq
      simp only [Function.update_self, Option.isSome_some, true_iff]
      exact ⟨t.names.vacantKey, by rw [hget, if_pos rfl]⟩
    · simp only [Function.update_of_ne heq, h.keys name']
      refine ⟨fun ⟨i, hi⟩ => ⟨i, ?_⟩, fun ⟨i, hi⟩ => ⟨i, ?_⟩⟩
      · rw [hget, if_neg, hi]
        rintro rfl
        rw [Slab.get_vacantKey h.slab] at hi
        cases hi
      · rw [hget] at hi
        split_ifs at hi with hvacant
        · cases hi
          exact absurd rfl heq
        · exact hi

theorem Consistent.deallocate (h : t.Consistent) (handle : OutputHandle) :
    (t.deallocate handle).Consistent := by
  unfold LinkTables.deallocate
  split
  · next name hname =>
      have hget := t.names.get_tryRemove handle.handle.toNat
      refine ⟨Slab.tryRemove_wellFormed h.slab _, ?_, ?_⟩
      · intro i j name' hi hj
        rw [hget] at hi hj
        split_ifs at hi hj
        exact h.distinct i j name' hi hj
      · intro name'
        by_cases heq : name' = name
        · subst heq
          simp only [Function.update_self, Option.isSome_none, Bool.false_eq_true, false_iff]
          rintro ⟨i, hi⟩
          rw [hget] at hi
          split_ifs at hi with hi'
          exact hi' (h.distinct i _ name' hi hname)
        · simp only [Function.update_of_ne heq, h.keys name']
          refine ⟨fun ⟨i, hi⟩ => ⟨i, ?_⟩, fun ⟨i, hi⟩ => ⟨i, ?_⟩⟩
          · rw [hget, if_neg, hi]
            rintro rfl
            rw [hname] at hi
            cases hi
            exact heq rfl
          · rw [hget] at hi
            split_ifs at hi
            exact hi
  · exact h

/-- Every operation keeps the names consistent, whatever its arguments are. -/
theorem Consistent.step (h : t.Consistent) (op : TableOp) : (t.step op).1.Consistent := by
  cases op with
  | skip => exact h
  | allocate name link => exact h.allocate name link
  | allocateIncoming name link handle =>
      have halloc := h.allocate name none
      simp only [LinkTables.step, allocateIncoming]
      split_ifs
      · exact h
      · exact halloc.of_keys rfl fun _ => rfl
  | deallocate handle => exact h.deallocate handle
  | attach name handle delivered =>
      simp only [LinkTables.step, attach]
      split
      · next relay hname =>
          refine h.of_keys rfl fun name' => ?_
          by_cases heq : name' = name
          · simp [heq, hname]
          · simp [heq]
      · exact h
  | localDetach handle =>
      simp only [LinkTables.step]
      split_ifs
      · exact (h.deallocate handle).of_keys rfl fun _ => rfl
      · exact h
  | peerDetach handle =>
      simp only [LinkTables.step]
      split
      · exact h
      · next relay hrelay =>
          have hremoved : ({ t with
              byInput := Function.update t.byInput handle none
              closePending := Function.update t.closePending relay.2 false } :
              LinkTables).Consistent := h.of_keys rfl fun _ => rfl
          split_ifs
          · exact hremoved
          · exact hremoved.deallocate relay.2

/-- The operation puts no relay at an input handle that is in use. -/
def NamesFreeHandle (t : LinkTables) : TableOp → Prop
  | .attach name handle delivered =>
      delivered = true → (∃ relay, t.byName name = some (some relay)) → t.byInput handle = none
  | .allocateIncoming name _ handle => t.byName name = none → t.byInput handle = none
  | _ => True

@[simp] theorem deallocate_byInput (t : LinkTables) (handle : OutputHandle) :
    (t.deallocate handle).byInput = t.byInput := by
  unfold deallocate
  split <;> rfl

/-- A relay leaves its input handle through a Detach of the peer only. -/
theorem step_byInput {op : TableOp} (hfree : t.NamesFreeHandle op) {handle : InputHandle}
    {relay : RelayKey} (hrelay : t.byInput handle = some relay) (hop : op ≠ .peerDetach handle) :
    (t.step op).1.byInput handle = some relay := by
  cases op with
  | skip => exact hrelay
  | allocate name link =>
      simp only [LinkTables.step, allocate]
      split_ifs <;> exact hrelay
  | allocateIncoming name link handle' =>
      simp only [LinkTables.step, allocateIncoming]
      split_ifs with hname
      · exact hrelay
      · have hne : handle ≠ handle' := by
          rintro rfl
          rw [hfree (by simpa using hname)] at hrelay
          cases hrelay
        simpa [hne] using hrelay
  | deallocate handle' => simpa [LinkTables.step] using hrelay
  | attach name handle' delivered =>
      simp only [LinkTables.step, attach]
      split
      · next relay' hname =>
          cases delivered with
          | false => exact hrelay
          | true =>
              have hne : handle ≠ handle' := by
                rintro rfl
                rw [hfree rfl ⟨relay', hname⟩] at hrelay
                cases hrelay
              simpa [hne] using hrelay
      · exact hrelay
  | localDetach handle' =>
      simp only [LinkTables.step]
      split_ifs <;> simpa using hrelay
  | peerDetach handle' =>
      have hne : handle ≠ handle' := by
        rintro rfl
        exact hop rfl
      simp only [LinkTables.step]
      split
      · exact hrelay
      · split_ifs <;> simpa [hne] using hrelay

end LinkTables

namespace Session

/-- The names stored under the output handles are pairwise distinct and are exactly the keys of
`link_by_name`. -/
def NamesConsistent (s : Session) : Prop :=
  (∀ i j name, s.linkNameByOutputHandle.get i = some name →
    s.linkNameByOutputHandle.get j = some name → i = j) ∧
  ∀ name, (s.linkByName name).isSome ↔ ∃ i, s.linkNameByOutputHandle.get i = some name

theorem namesConsistent_of_tables {s : Session} (h : s.tables.Consistent) : s.NamesConsistent := by
  refine ⟨h.distinct, fun name => ?_⟩
  have hkeys := h.keys name
  rw [tables_byName, Option.isSome_map] at hkeys
  exact hkeys

/-- An action that registers a relay at an input handle finds that handle free. -/
def NamesFreeHandle (s : Session) : SessionAction → Prop
  | .incoming _ ⟨_, .attach attach⟩ =>
      ∀ relay, s.linkByName attach.name = some (some relay) →
        (s.links.cell relay.link).endpointDropped = false →
        s.linkByInputHandle ⟨attach.handle⟩ = none
  | .allocateIncomingLink name _ handle =>
      s.localState = .mapped → s.linkByName name = none → s.linkByInputHandle handle = none
  | _ => True

theorem NamesFreeHandle.tables {s : Session} {action : SessionAction} (h : s.NamesFreeHandle action) :
    s.tables.NamesFreeHandle (s.tableOp action) := by
  match action with
  | .incoming pending ⟨channel, .attach attach⟩ =>
      rintro hdelivered ⟨key, hkey⟩
      rw [tables_byName] at hkey
      obtain ⟨entry, hname, hentry⟩ := Option.map_eq_some_iff.mp hkey
      obtain ⟨relay, rfl, -⟩ := Option.map_eq_some_iff.mp hentry
      rw [tables_byInput, h relay hname, Option.map_none]
      simpa [hname] using hdelivered
  | .incoming pending ⟨channel, .detach detach⟩ => trivial
  | .incoming pending ⟨channel, .begin begin'⟩ => trivial
  | .incoming pending ⟨channel, .flow flow⟩ => trivial
  | .incoming pending ⟨channel, .transfer performative payload⟩ => trivial
  | .incoming pending ⟨channel, .disposition disposition⟩ => trivial
  | .incoming pending ⟨channel, .end end'⟩ => trivial
  | .linkFrame frame delivery =>
      cases frame with
      | detach detach =>
          simp only [tableOp]
          split_ifs <;> trivial
      | attach | flow | remoteTransfer | firstTransfer | transferContinuation | disposition
      | acquisition => trivial
  | .allocateLink name relay =>
      simp only [tableOp]
      split_ifs <;> trivial
  | .allocateIncomingLink name relay handle =>
      simp only [tableOp]
      split_ifs with hmapped
      · intro hname
        rw [tables_byName, Option.map_eq_none_iff] at hname
        rw [tables_byInput, h hmapped hname, Option.map_none]
      · trivial
  | .deallocateLink handle => trivial
  | .sendBegin => trivial
  | .sendEnd error => trivial
  | .register link tag msg => trivial
  | .endpoint links => trivial

end Session

/-- The peer detaches the link at the handle. -/
def SessionAction.DetachesInput (handle : InputHandle) : SessionAction → Prop
  | .incoming _ ⟨_, .detach detach⟩ => detach.handle = handle.handle
  | _ => False

namespace Session

theorem detachesInput_of_tableOp {s : Session} {action : SessionAction} {handle : InputHandle}
    (h : s.tableOp action = .peerDetach handle) : action.DetachesInput handle := by
  match action with
  | .incoming pending ⟨channel, .detach detach⟩ =>
      cases h
      rfl
  | .incoming pending ⟨channel, .attach attach⟩ => cases h
  | .incoming pending ⟨channel, .begin begin'⟩ => cases h
  | .incoming pending ⟨channel, .flow flow⟩ => cases h
  | .incoming pending ⟨channel, .transfer performative payload⟩ => cases h
  | .incoming pending ⟨channel, .disposition disposition⟩ => cases h
  | .incoming pending ⟨channel, .end end'⟩ => cases h
  | .linkFrame frame delivery =>
      cases frame <;> simp only [tableOp] at h
      case detach => split_ifs at h
      all_goals cases h
  | .allocateLink name relay =>
      simp only [tableOp] at h
      split_ifs at h
  | .allocateIncomingLink name relay handle' =>
      simp only [tableOp] at h
      split_ifs at h
  | .deallocateLink handle' => cases h
  | .sendBegin => cases h
  | .sendEnd error => cases h
  | .register link tag msg => cases h
  | .endpoint links => cases h

theorem act_tables_fst (s : Session) (action : SessionAction) :
    (s.act action).1.tables = (s.tables.step (s.tableOp action)).1 :=
  congrArg Prod.fst (s.act_tables action)

/-- The tables of a new session are empty. -/
theorem intoSession_consistent (builder : SessionBuilder) (outgoingChannel : UInt16)
    (localState : SessionState) (links : LinkStore) :
    (builder.intoSession outgoingChannel localState links).tables.Consistent where
  slab := Slab.empty_wellFormed
  distinct := nofun
  keys := by
    intro name
    simp [SessionBuilder.intoSession, tables]

/-- The names are consistent after every run. -/
theorem run_consistent (builder : SessionBuilder) (outgoingChannel : UInt16)
    (localState : SessionState) (links : LinkStore) (actions : List SessionAction) :
    (Run.run act (builder.intoSession outgoingChannel localState links)
      actions).1.tables.Consistent := by
  refine Run.run_invariant (fun _ => True)
    (fun _ (s : Session) (_ : List SessionFrame) => s.tables.Consistent) ?_
    (intoSession_consistent builder outgoingChannel localState links) actions (fun _ _ => trivial)
  intro _ s _ action hs _
  rw [act_tables_fst]
  exact hs.step (s.tableOp action)

/-- A relay stays at its input handle along a run in which the peer does not detach the handle. -/
theorem relay_stays {s : Session} {handle : InputHandle} {relay : LinkRelay OutputHandle}
    (hrelay : s.linkByInputHandle handle = some relay) {actions : List SessionAction}
    (hfree : Run.Along act NamesFreeHandle s actions)
    (hdetach : ∀ action ∈ actions, ¬action.DetachesInput handle) :
    ∃ relay', (Run.run act s actions).1.linkByInputHandle handle = some relay' ∧
      relay'.key = relay.key := by
  have hstays : (Run.run act s actions).1.tables.byInput handle = some relay.key := by
    have hstart : s.tables.byInput handle = some relay.key := by
      rw [tables_byInput, hrelay, Option.map_some]
    clear hrelay
    induction actions generalizing s with
    | nil => exact hstart
    | cons action actions ih =>
        refine ih hfree.2 (fun action' hmem => hdetach action' (by simp [hmem])) ?_
        rw [act_tables_fst]
        refine LinkTables.step_byInput hfree.1.tables hstart ?_
        intro hop
        exact hdetach action (by simp) (detachesInput_of_tableOp hop)
  rw [tables_byInput] at hstays
  exact Option.map_eq_some_iff.mp hstays

/-- In every run the names of the tables agree; and as long as every Attach and every accepted link
names an input handle that is free, a relay leaves its input handle only when the peer detaches
that handle. -/
theorem link_tables_consistent_and_relays_kept (builder : SessionBuilder) (outgoingChannel : UInt16)
    (localState : SessionState) (links : LinkStore) (before after : List SessionAction)
    (hfree : Run.Along act NamesFreeHandle (builder.intoSession outgoingChannel localState links)
      (before ++ after)) :
    let start := builder.intoSession outgoingChannel localState links
    (Run.run act start (before ++ after)).1.NamesConsistent ∧
    ∀ handle relay, (Run.run act start before).1.linkByInputHandle handle = some relay →
      (∀ action ∈ after, ¬action.DetachesInput handle) →
      ∃ relay', (Run.run act start (before ++ after)).1.linkByInputHandle handle = some relay' ∧
        relay'.key = relay.key := by
  intro start
  refine ⟨namesConsistent_of_tables (run_consistent _ _ _ _ _), fun handle relay hrelay hdetach => ?_⟩
  obtain ⟨-, hafter⟩ := Run.along_append.mp hfree
  rw [Run.run_append]
  exact relay_stays hrelay hafter hdetach

section HandleInUse

private def attachAt (name : String) (handle : Handle) : SessionAction :=
  .incoming [] ⟨0, .attach
    { name, handle, role := .receiver, sndSettleMode := .mixed, rcvSettleMode := .first
      source := none, target := none, unsettled := none, incompleteUnsettled := false
      initialDeliveryCount := none, maxMessageSize := none, offeredCapabilities := none
      desiredCapabilities := none, properties := none }⟩

private def allocate (name : String) (link : LinkId) : SessionAction :=
  .allocateLink name (some (.sender link () .first))

/-- Two links at two input handles: both relays stay, and the names are consistent. -/
theorem link_tables_consistent_and_relays_kept_two_links :
    let start := SessionBuilder.intoSession {} 0 .mapped LinkStore.empty
    let before := [allocate "a" 0, attachAt "a" 5]
    let after := [allocate "b" 1, attachAt "b" 6]
    (Run.run act start (before ++ after)).1.NamesConsistent ∧
      ∃ relay, (Run.run act start (before ++ after)).1.linkByInputHandle ⟨5⟩ = some relay ∧
        relay.key = (0, ⟨0⟩) := by
  intro start before after
  have hfree : Run.Along act NamesFreeHandle start (before ++ after) := by
    refine ⟨trivial, ?_, trivial, ?_, trivial⟩
    · intro relay _ _
      rfl
    · intro relay _ _
      rfl
  obtain ⟨hnames, hkept⟩ :=
    link_tables_consistent_and_relays_kept {} 0 .mapped LinkStore.empty before after hfree
  exact ⟨hnames, hkept ⟨5⟩ (.sender 0 ⟨0⟩ .first) rfl (by simp [after, allocate, attachAt,
    SessionAction.DetachesInput])⟩

/-- The peer attaches a second link at the input handle of the first: the relay of the first link is
gone although nobody detached it. -/
theorem relay_lost_at_handle_in_use :
    ¬∀ (builder : SessionBuilder) (outgoingChannel : UInt16) (localState : SessionState)
        (links : LinkStore) (before after : List SessionAction),
      let start := builder.intoSession outgoingChannel localState links
      (Run.run act start (before ++ after)).1.NamesConsistent ∧
      ∀ handle relay, (Run.run act start before).1.linkByInputHandle handle = some relay →
        (∀ action ∈ after, ¬action.DetachesInput handle) →
        ∃ relay', (Run.run act start (before ++ after)).1.linkByInputHandle handle = some relay' ∧
          relay'.key = relay.key := by
  intro hclaim
  obtain ⟨-, hkept⟩ := hclaim {} 0 .mapped LinkStore.empty [allocate "a" 0, attachAt "a" 5]
    [allocate "b" 1, attachAt "b" 5]
  obtain ⟨relay', hrelay', hkey⟩ := hkept ⟨5⟩ (.sender 0 ⟨0⟩ .first) rfl
    (by simp [allocate, attachAt, SessionAction.DetachesInput])
  cases hrelay'
  revert hkey
  decide

end HandleInUse

end Session

end Fe2o3Amqp
