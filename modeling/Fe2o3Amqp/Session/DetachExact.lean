import Fe2o3Amqp.Session.LinkConsistency

/-!
# Which Detach answers which

A session tells the answer to a local Detach from a Detach of the peer by the output handle of the
relay, and frees that handle as soon as the local Detach is on the wire.  Here the links are told
apart by incarnations: every successful allocation starts a new one.  The bookkeeping is exact as
long as no allocation hands out a handle that an earlier link still waits on and no link hands over
a Detach for a handle that was given to another one.
-/

namespace Fe2o3Amqp

/-- What happened to the links of a session, told apart by incarnation.  Nothing of it is known to
the session. -/
structure Incarnations where
  next : Nat
  /-- The incarnation that was given the output handle last. -/
  owner : OutputHandle → Option Nat
  /-- The incarnation whose relay was put under the name last. -/
  waiting : String → Nat
  /-- The incarnation whose relay was put at the input handle last. -/
  attached : InputHandle → Nat
  /-- The incarnations that have themselves put a Detach on the wire. -/
  detached : Nat → Bool
  /-- The number of Detach frames that the session emitted for the incarnation. -/
  sent : Nat → Nat

namespace Incarnations

def start : Incarnations where
  next := 0
  owner _ := none
  waiting _ := 0
  attached _ := 0
  detached _ := false
  sent _ := 0

def allocate (g : Incarnations) (t : LinkTables) (name : String) : Incarnations :=
  { g with
    next := g.next + 1
    owner := Function.update g.owner t.nextHandle (some g.next)
    waiting := Function.update g.waiting name g.next }

def emit (g : Incarnations) (link : Nat) (detaches : List OutputHandle) : Incarnations :=
  { g with sent := Function.update g.sent link (g.sent link + detaches.length) }

/-- The incarnations after an operation that emitted `detaches`; a link frame is handed over by the
incarnation `link`. -/
def step (g : Incarnations) (t : LinkTables) (op : TableOp) (link : Nat)
    (detaches : List OutputHandle) : Incarnations :=
  match op with
  | .skip | .deallocate _ => g
  | .allocate name _ => if (t.byName name).isSome then g else g.allocate t name
  | .allocateIncoming name _ handle =>
      if (t.byName name).isSome then g
      else { g.allocate t name with attached := Function.update g.attached handle g.next }
  | .attach name handle delivered =>
      match t.byName name with
      | some (some _) =>
          if delivered then
            { g with attached := Function.update g.attached handle (g.waiting name) }
          else g
      | _ => g
  | .localDetach _ =>
      { g.emit link detaches with
        detached := if detaches = [] then g.detached else Function.update g.detached link true }
  | .peerDetach handle => g.emit (g.attached handle) detaches

end Incarnations

namespace LinkTables

/-- No handle is handed out while an earlier link waits on it, and no link detaches a handle that
belongs to another one. -/
def KeepsApart (t : LinkTables) (g : Incarnations) (link : Nat) : TableOp → Prop
  | .allocate name _ | .allocateIncoming name _ _ =>
      t.byName name = none →
        t.names.vacantKey < 2 ^ 32 ∧ t.closePending t.nextHandle = false ∧
          ∀ handle relay, t.byInput handle = some relay → relay.2 ≠ t.nextHandle
  | .localDetach handle =>
      (t.names.get handle.handle.toNat).isSome → g.owner handle = some link
  | _ => True

/-- The tables and the incarnations tell the same story. -/
structure Tracks (t : LinkTables) (g : Incarnations) : Prop where
  consistent : t.Consistent
  /-- A relay under a name belongs to the link that holds the handle. -/
  waiting : ∀ name relay, t.byName name = some (some relay) →
    t.names.get relay.2.handle.toNat = some name ∧ g.owner relay.2 = some (g.waiting name)
  /-- A relay at an input handle belongs to the link that was given its output handle last, and is
  marked exactly if that link has put its Detach on the wire. -/
  attached : ∀ handle relay, t.byInput handle = some relay →
    g.owner relay.2 = some (g.attached handle) ∧
      t.closePending relay.2 = g.detached (g.attached handle) ∧
      g.sent (g.attached handle) = if g.detached (g.attached handle) then 1 else 0
  /-- A link that holds a handle has not been detached yet. -/
  held : ∀ (handle : OutputHandle) name, t.names.get handle.handle.toNat = some name →
    t.closePending handle = false ∧
      ∃ link, g.owner handle = some link ∧ g.detached link = false ∧ g.sent link = 0
  apart : ∀ handle relay handle' relay', t.byInput handle = some relay →
    t.byInput handle' = some relay' → relay.2 = relay'.2 → handle = handle'
  moved : ∀ name relay handle relay', t.byName name = some (some relay) →
    t.byInput handle = some relay' → relay.2 ≠ relay'.2
  owner : ∀ handle handle' link, g.owner handle = some link → g.owner handle' = some link →
    handle = handle'
  fresh : (∀ handle link, g.owner handle = some link → link < g.next) ∧
    ∀ link, g.next ≤ link → g.detached link = false ∧ g.sent link = 0
  sent : ∀ link, g.sent link ≤ 1 ∧ (g.detached link = true → g.sent link = 1)

variable {t : LinkTables} {g : Incarnations}

/-! ## The single changes -/

theorem toNat_eq_vacantKey (h : t.names.vacantKey < 2 ^ 32) (handle : OutputHandle) :
    handle.handle.toNat = t.names.vacantKey ↔ handle = t.nextHandle := by
  obtain ⟨handle⟩ := handle
  simp only [nextHandle, OutputHandle.mk.injEq]
  constructor
  · intro heq
    rw [← heq, UInt32.ofNat_toNat]
  · rintro rfl
    exact UInt32.toNat_ofNat_of_lt' h

/-- An allocation starts a new incarnation. -/
theorem Tracks.allocate (h : t.Tracks g) {name : String} (hname : t.byName name = none)
    (hroom : t.names.vacantKey < 2 ^ 32) (hpending : t.closePending t.nextHandle = false)
    (hregistered : ∀ handle relay, t.byInput handle = some relay → relay.2 ≠ t.nextHandle)
    (link : Option LinkId) : (t.allocate name link).Tracks (g.allocate t name) := by
  have hconsistent := h.consistent.allocate name link
  have hget := fun handle : OutputHandle =>
    Slab.get_insert h.consistent.slab name handle.handle.toNat
  simp only [toNat_eq_vacantKey hroom] at hget
  have hvacant : t.names.get t.nextHandle.handle.toNat = none := by
    rw [(toNat_eq_vacantKey hroom _).mpr rfl]
    exact Slab.get_vacantKey h.consistent.slab
  simp only [LinkTables.allocate, hname, Option.isSome_none, Bool.false_eq_true, if_false]
    at hconsistent ⊢
  refine ⟨hconsistent, ?_, ?_, ?_, h.apart, ?_, ?_, ⟨?_, ?_⟩, h.sent⟩
  · intro name' relay hrelay
    simp only [Incarnations.allocate, hget]
    by_cases heq : name' = name
    · subst heq
      simp only [Function.update_self, Option.some.injEq, Option.map_eq_some_iff] at hrelay
      obtain ⟨link, -, rfl⟩ := hrelay
      simp
    · simp only [Function.update_of_ne heq] at hrelay ⊢
      obtain ⟨hnames, howner⟩ := h.waiting name' relay hrelay
      have hne : relay.2 ≠ t.nextHandle := by
        intro hhandle
        rw [hhandle, hvacant] at hnames
        cases hnames
      simp [hne, hnames, howner]
  · intro handle relay hrelay
    have hne := hregistered handle relay hrelay
    simp only [Incarnations.allocate, Function.update_of_ne hne]
    exact h.attached handle relay hrelay
  · intro handle name' hhandle
    rw [hget] at hhandle
    simp only [Incarnations.allocate]
    split_ifs at hhandle with heq
    · subst heq
      have hfresh := h.fresh.2 g.next le_rfl
      exact ⟨hpending, g.next, by simp, hfresh⟩
    · rw [Function.update_of_ne heq]
      exact h.held handle name' hhandle
  · intro name' relay handle relay' hrelay hrelay'
    by_cases heq : name' = name
    · subst heq
      simp only [Function.update_self, Option.some.injEq, Option.map_eq_some_iff] at hrelay
      obtain ⟨link, -, rfl⟩ := hrelay
      exact (hregistered handle relay' hrelay').symm
    · simp only [Function.update_of_ne heq] at hrelay
      exact h.moved name' relay handle relay' hrelay hrelay'
  · intro handle handle' owner howner howner'
    have hlt : ∀ handle, g.owner handle ≠ some g.next := by
      intro handle heq
      exact absurd (h.fresh.1 handle g.next heq) (lt_irrefl _)
    simp only [Incarnations.allocate, Function.update_apply] at howner howner'
    split_ifs at howner howner' with heq heq'
    · rw [heq, heq']
    · cases howner
      exact absurd howner' (hlt handle')
    · cases howner'
      exact absurd howner (hlt handle)
    · exact h.owner handle handle' owner howner howner'
  · intro handle owner howner
    simp only [Incarnations.allocate, Function.update_apply] at howner ⊢
    split_ifs at howner
    · cases howner
      omega
    · have hlt := h.fresh.1 handle owner howner
      omega
  · intro owner howner
    simp only [Incarnations.allocate] at howner
    exact h.fresh.2 owner (by omega)

/-- The relay of a link that holds its handle is put at an input handle. -/
theorem Tracks.register (h : t.Tracks g) (handle : InputHandle) {relay : RelayKey} {link : Nat}
    {name : String} (hnames : t.names.get relay.2.handle.toNat = some name)
    (howner : g.owner relay.2 = some link)
    (hname : ∀ name relay', t.byName name = some (some relay') → relay'.2 ≠ relay.2)
    (hinput : ∀ handle relay', t.byInput handle = some relay' → relay'.2 ≠ relay.2) :
    Tracks { t with byInput := Function.update t.byInput handle (some relay) }
      { g with attached := Function.update g.attached handle link } := by
  obtain ⟨hpending, link', howner', hdetached, hsent⟩ := h.held _ _ hnames
  obtain rfl : link' = link := by
    rw [howner] at howner'
    cases howner'
    rfl
  refine ⟨h.consistent.of_keys rfl fun _ => rfl, h.waiting, ?_, h.held, ?_, ?_, h.owner, h.fresh,
    h.sent⟩
  · intro handle' relay' hrelay'
    by_cases heq : handle' = handle
    · subst heq
      simp only [Function.update_self, Option.some.injEq] at hrelay' ⊢
      subst hrelay'
      exact ⟨howner, by rw [hpending, hdetached], by simp [hdetached, hsent]⟩
    · simp only [Function.update_of_ne heq] at hrelay' ⊢
      exact h.attached handle' relay' hrelay'
  · intro handle₁ relay₁ handle₂ relay₂ hrelay₁ hrelay₂ hhandles
    simp only [Function.update_apply] at hrelay₁ hrelay₂
    split_ifs at hrelay₁ hrelay₂ with heq₁ heq₂
    · rw [heq₁, heq₂]
    · cases hrelay₁
      exact absurd hhandles.symm (hinput handle₂ relay₂ hrelay₂)
    · cases hrelay₂
      exact absurd hhandles (hinput handle₁ relay₁ hrelay₁)
    · exact h.apart handle₁ relay₁ handle₂ relay₂ hrelay₁ hrelay₂ hhandles
  · intro name' relay₁ handle' relay₂ hrelay₁ hrelay₂
    simp only [Function.update_apply] at hrelay₂
    split_ifs at hrelay₂
    · cases hrelay₂
      exact hname name' relay₁ hrelay₁
    · exact h.moved name' relay₁ handle' relay₂ hrelay₁ hrelay₂

/-- The relay under a name is taken. -/
theorem Tracks.take (h : t.Tracks g) {name : String} (hname : (t.byName name).isSome) :
    Tracks { t with byName := Function.update t.byName name (some none) } g := by
  have hother : ∀ name' relay, Function.update t.byName name (some none) name' = some (some relay) →
      t.byName name' = some (some relay) := by
    intro name' relay hrelay
    by_cases heq : name' = name
    · simp [heq] at hrelay
    · rwa [Function.update_of_ne heq] at hrelay
  refine ⟨h.consistent.of_keys rfl fun name' => ?_, fun name' relay hrelay => ?_, h.attached, h.held,
    h.apart, fun name' relay handle relay' hrelay => ?_, h.owner, h.fresh, h.sent⟩
  · by_cases heq : name' = name
    · simp [heq, hname]
    · simp [heq]
  · exact h.waiting name' relay (hother name' relay hrelay)
  · exact h.moved name' relay handle relay' (hother name' relay hrelay)

theorem Tracks.deallocate (h : t.Tracks g) (handle : OutputHandle) :
    (t.deallocate handle).Tracks g := by
  have hconsistent := h.consistent.deallocate handle
  unfold LinkTables.deallocate at hconsistent ⊢
  split at hconsistent
  · next name hname =>
      have hget := t.names.get_tryRemove handle.handle.toNat
      have hother : ∀ name' relay, Function.update t.byName name none name' = some (some relay) →
          name' ≠ name ∧ t.byName name' = some (some relay) := by
        intro name' relay hrelay
        by_cases heq : name' = name
        · simp [heq] at hrelay
        · rw [Function.update_of_ne heq] at hrelay
          exact ⟨heq, hrelay⟩
      refine ⟨hconsistent, fun name' relay hrelay => ?_, h.attached, fun handle' name' hhandle' => ?_,
        h.apart, fun name' relay handle relay' hrelay => ?_, h.owner, h.fresh, h.sent⟩
      · obtain ⟨hne, hbyName⟩ := hother name' relay hrelay
        obtain ⟨hnames, howner⟩ := h.waiting name' relay hbyName
        refine ⟨?_, howner⟩
        rw [hget, if_neg, hnames]
        intro hkey
        rw [hkey, hname] at hnames
        cases hnames
        exact hne rfl
      · rw [hget] at hhandle'
        split_ifs at hhandle'
        exact h.held handle' name' hhandle'
      · exact h.moved name' relay handle relay' (hother name' relay hrelay).2
  · exact h

/-- The relay at an input handle is removed, together with its mark. -/
theorem Tracks.unregister (h : t.Tracks g) {handle : InputHandle} {relay : RelayKey}
    (hrelay : t.byInput handle = some relay) :
    Tracks { t with
      byInput := Function.update t.byInput handle none
      closePending := Function.update t.closePending relay.2 false } g := by
  have hother : ∀ handle' relay', Function.update t.byInput handle none handle' = some relay' →
      t.byInput handle' = some relay' ∧ relay'.2 ≠ relay.2 := by
    intro handle' relay' hrelay'
    by_cases heq : handle' = handle
    · simp [heq] at hrelay'
    · rw [Function.update_of_ne heq] at hrelay'
      exact ⟨hrelay', fun hhandle => heq (h.apart _ _ _ _ hrelay' hrelay hhandle)⟩
  refine ⟨h.consistent.of_keys rfl fun _ => rfl, h.waiting, fun handle' relay' hrelay' => ?_,
    fun handle' name hhandle' => ?_, fun handle₁ relay₁ handle₂ relay₂ hrelay₁ hrelay₂ => ?_,
    fun name relay₁ handle' relay₂ hrelay₁ hrelay₂ => ?_, h.owner, h.fresh, h.sent⟩
  · obtain ⟨hbyInput, hne⟩ := hother handle' relay' hrelay'
    simp only [Function.update_of_ne hne]
    exact h.attached handle' relay' hbyInput
  · obtain ⟨hpending, hlink⟩ := h.held handle' name hhandle'
    refine ⟨?_, hlink⟩
    simp only [Function.update_apply]
    split_ifs
    · rfl
    · exact hpending
  · exact h.apart _ _ _ _ (hother _ _ hrelay₁).1 (hother _ _ hrelay₂).1
  · exact h.moved name relay₁ handle' relay₂ hrelay₁ (hother _ _ hrelay₂).1

/-- The one Detach of a link whose handle has been freed: its own, which marks the handle, or the
reply to that of the peer, when its relay is gone. -/
theorem Tracks.emit (h : t.Tracks g) {handle : OutputHandle} {link : Nat}
    (hfreed : t.names.get handle.handle.toNat = none) (howner : g.owner handle = some link)
    (marked : Bool)
    (hgone : marked = false → ∀ input relay, t.byInput input = some relay → relay.2 ≠ handle) :
    Tracks { t with closePending := Function.update t.closePending handle marked }
      { g with
        detached := Function.update g.detached link marked
        sent := Function.update g.sent link 1 } := by
  have hlink : ∀ handle' link', g.owner handle' = some link' → handle' ≠ handle → link' ≠ link := by
    rintro handle' link' howner' hne rfl
    exact hne (h.owner handle' handle link' howner' howner)
  refine ⟨h.consistent.of_keys rfl fun _ => rfl, h.waiting, ?_, ?_, h.apart, h.moved, h.owner,
    ⟨h.fresh.1, ?_⟩, ?_⟩
  · intro input relay hrelay
    obtain ⟨howner', hpending, hcount⟩ := h.attached input relay hrelay
    by_cases heq : relay.2 = handle
    · have hself : g.attached input = link := by
        rw [heq, howner] at howner'
        cases howner'
        rfl
      cases marked with
      | false => exact absurd heq (hgone rfl input relay hrelay)
      | true => simp [heq, hself, howner]
    · have hne := hlink relay.2 _ howner' heq
      simp only [Function.update_of_ne heq, Function.update_of_ne hne]
      exact ⟨howner', hpending, hcount⟩
  · intro handle' name hhandle'
    have hne : handle' ≠ handle := by
      rintro rfl
      rw [hfreed] at hhandle'
      cases hhandle'
    obtain ⟨hpending, link', howner', hdetached', hsent'⟩ := h.held handle' name hhandle'
    have hne' := hlink handle' link' howner' hne
    simp only [Function.update_of_ne hne]
    refine ⟨hpending, link', howner', ?_, ?_⟩
    · rw [Function.update_of_ne hne', hdetached']
    · rw [Function.update_of_ne hne', hsent']
  · intro link' hle
    have hlt := h.fresh.1 handle link howner
    have hne : link' ≠ link := by
      have hle' : g.next ≤ link' := hle
      omega
    simp only [Function.update_of_ne hne]
    exact h.fresh.2 link' hle
  · intro link'
    by_cases heq : link' = link
    · simp [heq]
    · simp only [Function.update_of_ne heq]
      exact h.sent link'

/-! ## One operation -/

@[simp] theorem deallocate_closePending (t : LinkTables) (handle : OutputHandle) :
    (t.deallocate handle).closePending = t.closePending := by
  unfold deallocate
  split <;> rfl

theorem deallocate_get (t : LinkTables) (handle : OutputHandle) :
    (t.deallocate handle).names.get handle.handle.toNat = none := by
  unfold deallocate
  split
  · rw [Slab.get_tryRemove, if_pos rfl]
  · next hnone => exact hnone

/-- A handle held by a name is that of the relay under it, if there is one. -/
theorem Tracks.name_eq (h : t.Tracks g) {name name' : String} {relay : RelayKey}
    {handle : OutputHandle} (hhandle : t.names.get handle.handle.toNat = some name)
    (hrelay : t.byName name' = some (some relay)) (heq : relay.2 = handle) : name' = name := by
  obtain ⟨hnames, -⟩ := h.waiting name' relay hrelay
  rw [heq, hhandle] at hnames
  cases hnames
  rfl

theorem Tracks.step_allocateIncoming (h : t.Tracks g) {name : String} (hname : t.byName name = none)
    (hroom : t.names.vacantKey < 2 ^ 32) (hpending : t.closePending t.nextHandle = false)
    (hregistered : ∀ handle relay, t.byInput handle = some relay → relay.2 ≠ t.nextHandle)
    (link : LinkId) (handle : InputHandle) :
    (t.allocateIncoming name link handle).Tracks
      { g.allocate t name with attached := Function.update g.attached handle g.next } := by
  have hnew := h.allocate hname hroom hpending hregistered none
  have hnames : (t.allocate name none).names.get t.nextHandle.handle.toNat = some name := by
    have hget := Slab.get_insert h.consistent.slab name t.nextHandle.handle.toNat
    rw [if_pos ((toNat_eq_vacantKey hroom _).mpr rfl)] at hget
    simpa [LinkTables.allocate, hname] using hget
  have hinput : (t.allocate name none).byInput = t.byInput := by simp [LinkTables.allocate, hname]
  have howner : (g.allocate t name).owner t.nextHandle = some g.next := by
    simp [Incarnations.allocate]
  have hregister : Tracks { t.allocate name none with
        byInput := Function.update (t.allocate name none).byInput handle (some (link, t.nextHandle)) }
      { g.allocate t name with
        attached := Function.update (g.allocate t name).attached handle g.next } := by
    refine hnew.register handle hnames howner ?_ ?_
    · intro name' relay' hrelay' heq
      -- the new name has an entry without a relay
      obtain rfl := hnew.name_eq hnames hrelay' heq
      simp [LinkTables.allocate, hname] at hrelay'
    · rw [hinput]
      exact hregistered
  rw [hinput] at hregister
  simp only [LinkTables.allocateIncoming, hname, Option.isSome_none, Bool.false_eq_true, if_false]
  exact hregister

theorem Tracks.step_attach (h : t.Tracks g) {name : String} {relay : RelayKey}
    (hname : t.byName name = some (some relay)) (handle : InputHandle) :
    Tracks { t with
        byName := Function.update t.byName name (some none)
        byInput := Function.update t.byInput handle (some relay) }
      { g with attached := Function.update g.attached handle (g.waiting name) } := by
  have htaken := h.take (by rw [hname]; rfl)
  obtain ⟨hnames, howner⟩ := h.waiting name relay hname
  refine htaken.register handle hnames howner ?_ ?_
  · intro name' relay' hrelay' heq
    obtain rfl := htaken.name_eq hnames hrelay' heq
    simp at hrelay'
  · intro handle' relay' hrelay'
    exact (h.moved name relay handle' relay' hname hrelay').symm

theorem Tracks.step_localDetach (h : t.Tracks g) {handle : OutputHandle} {link : Nat}
    (hheld : (t.names.get handle.handle.toNat).isSome) (howner : g.owner handle = some link) :
    Tracks { t.deallocate handle with closePending := Function.update t.closePending handle true }
      { g.emit link [handle] with detached := Function.update g.detached link true } := by
  obtain ⟨name, hname⟩ := Option.isSome_iff_exists.mp hheld
  obtain ⟨-, link', howner', -, hsent⟩ := h.held handle name hname
  obtain rfl : link' = link := by
    rw [howner] at howner'
    cases howner'
    rfl
  have hdetached := (h.deallocate handle).emit (t.deallocate_get handle) howner true (by simp)
  simpa [Incarnations.emit, hsent] using hdetached

/-- The reply to the Detach of the peer, sent when the relay is gone. -/
theorem Tracks.step_reply (h : t.Tracks g) {handle : OutputHandle} {link : Nat}
    (howner : g.owner handle = some link) (hdetached : g.detached link = false)
    (hsent : g.sent link = 0) (hpending : t.closePending handle = false)
    (hgone : ∀ input relay, t.byInput input = some relay → relay.2 ≠ handle) :
    (t.deallocate handle).Tracks (g.emit link [handle]) := by
  have hclosing : Function.update (t.deallocate handle).closePending handle false =
      (t.deallocate handle).closePending := by
    refine Function.update_eq_self_iff.mpr ?_
    rw [deallocate_closePending, hpending]
  have hlinks : Function.update g.detached link false = g.detached :=
    Function.update_eq_self_iff.mpr hdetached.symm
  have hreply := (h.deallocate handle).emit (t.deallocate_get handle) howner false
    (by simpa using hgone)
  rw [hclosing, hlinks] at hreply
  simp only [Incarnations.emit, hsent, List.length_singleton]
  exact hreply

theorem Tracks.step_peerDetach (h : t.Tracks g) {handle : InputHandle} {relay : RelayKey}
    (hrelay : t.byInput handle = some relay) (hpending : t.closePending relay.2 = false) :
    Tracks (LinkTables.deallocate { t with
        byInput := Function.update t.byInput handle none
        closePending := Function.update t.closePending relay.2 false } relay.2)
      (g.emit (g.attached handle) [relay.2]) := by
  obtain ⟨howner, hmark, hsent⟩ := h.attached handle relay hrelay
  have hdetached : g.detached (g.attached handle) = false := by rw [← hmark, hpending]
  refine (h.unregister hrelay).step_reply howner hdetached (by simpa [hdetached] using hsent)
    (by simp) ?_
  intro input relay' hrelay' heq
  by_cases hinput : input = handle
  · simp [hinput] at hrelay'
  · simp only [Function.update_of_ne hinput] at hrelay'
    exact hinput (h.apart _ _ _ _ hrelay' hrelay heq)

/-- An operation that keeps the links apart keeps the story. -/
theorem Tracks.step (h : t.Tracks g) {link : Nat} {op : TableOp} (hop : t.KeepsApart g link op) :
    (t.step op).1.Tracks (g.step t op link (t.step op).2) := by
  cases op with
  | skip => exact h
  | deallocate handle => exact h.deallocate handle
  | allocate name link' =>
      cases hname : t.byName name with
      | none =>
          obtain ⟨hroom, hpending, hregistered⟩ := hop hname
          have hnew := h.allocate hname hroom hpending hregistered link'
          simpa [LinkTables.step, Incarnations.step, hname] using hnew
      | some entry => simpa [LinkTables.step, LinkTables.allocate, Incarnations.step, hname] using h
  | allocateIncoming name link' handle =>
      cases hname : t.byName name with
      | none =>
          obtain ⟨hroom, hpending, hregistered⟩ := hop hname
          have hnew := h.step_allocateIncoming hname hroom hpending hregistered link' handle
          simpa [LinkTables.step, Incarnations.step, hname] using hnew
      | some entry =>
          simpa [LinkTables.step, LinkTables.allocateIncoming, Incarnations.step, hname] using h
  | attach name handle delivered =>
      simp only [LinkTables.step, LinkTables.attach, Incarnations.step]
      cases hname : t.byName name with
      | none => exact h
      | some entry =>
          cases entry with
          | none => exact h
          | some relay =>
              cases delivered with
              | false => exact h.take (by rw [hname]; rfl)
              | true => exact h.step_attach hname handle
  | localDetach handle =>
      simp only [LinkTables.step, Incarnations.step]
      by_cases hheld : (t.names.get handle.handle.toNat).isSome
      · simpa [hheld] using h.step_localDetach hheld (hop hheld)
      · simpa [hheld, Incarnations.emit] using h
  | peerDetach handle =>
      simp only [LinkTables.step, Incarnations.step]
      cases hrelay : t.byInput handle with
      | none => simpa [Incarnations.emit] using h
      | some relay =>
          cases hpending : t.closePending relay.2 with
          | false => simpa [hpending] using h.step_peerDetach hrelay hpending
          | true => simpa [hpending, Incarnations.emit] using h.unregister hrelay

end LinkTables

/-- A session together with the incarnations of its links. -/
structure SessionHistory where
  session : Session
  links : Incarnations

namespace SessionHistory

def start (builder : SessionBuilder) (outgoingChannel : UInt16) (localState : SessionState)
    (links : LinkStore) : SessionHistory :=
  ⟨builder.intoSession outgoingChannel localState links, .start⟩

/-- One action of the session; a link frame comes from the incarnation named with it. -/
def act (s : SessionHistory) (action : SessionAction × Nat) : SessionHistory × List SessionFrame :=
  let out := s.session.act action.1
  (⟨out.1, s.links.step s.session.tables (s.session.tableOp action.1) action.2
    (Session.detachesOf out.2)⟩, out.2)

/-- The action hands out no handle that an earlier link waits on, and is no Detach for a handle that
belongs to a link other than the one that hands it over. -/
def KeepsApart (s : SessionHistory) (action : SessionAction × Nat) : Prop :=
  s.session.tables.KeepsApart s.links action.2 (s.session.tableOp action.1)

/-- The incarnation for which an action emits a Detach. -/
def author (s : SessionHistory) (action : SessionAction × Nat) : Nat :=
  match action.1 with
  | .incoming _ ⟨_, .detach detach⟩ => s.links.attached ⟨detach.handle⟩
  | _ => action.2

variable {s : SessionHistory}

theorem start_tracks (builder : SessionBuilder) (outgoingChannel : UInt16)
    (localState : SessionState) (links : LinkStore) :
    (start builder outgoingChannel localState links).session.tables.Tracks
      (start builder outgoingChannel localState links).links where
  consistent := Session.intoSession_consistent builder outgoingChannel localState links
  waiting := nofun
  attached := nofun
  held := nofun
  apart := nofun
  moved := nofun
  owner := nofun
  fresh := ⟨nofun, fun _ _ => ⟨rfl, rfl⟩⟩
  sent := fun _ => ⟨Nat.zero_le 1, nofun⟩

theorem act_tracks (h : s.session.tables.Tracks s.links) {action : SessionAction × Nat}
    (haction : s.KeepsApart action) :
    (s.act action).1.session.tables.Tracks (s.act action).1.links := by
  have htables := s.session.act_tables action.1
  have hfst := congrArg Prod.fst htables
  have hsnd := congrArg Prod.snd htables
  simp only at hfst hsnd
  simp only [act, hfst, hsnd]
  exact h.step haction

/-- The session keeps its links apart in every run whose actions do. -/
theorem run_tracks (builder : SessionBuilder) (outgoingChannel : UInt16) (localState : SessionState)
    (links : LinkStore) {actions : List (SessionAction × Nat)}
    (hactions : Run.Along act KeepsApart (start builder outgoingChannel localState links) actions) :
    let s := (Run.run act (start builder outgoingChannel localState links) actions).1
    s.session.tables.Tracks s.links :=
  Run.invariant_of_along
    (I := fun s : SessionHistory => s.session.tables.Tracks s.links)
    (fun _ _ h haction => act_tracks h haction)
    (start_tracks builder outgoingChannel localState links) hactions

/-- A relay answers a Detach exactly when it was not told that it is an answer itself. -/
theorem onIncomingDetach_eq_none_iff {relay : LinkRelay OutputHandle} {detach : Detach}
    (hrelay : s.session.linkByInputHandle ⟨detach.handle⟩ = some relay) :
    (s.session.onIncomingDetach detach).1 = none ↔
      s.session.closePending relay.outputHandle = true := by
  simp only [Session.onIncomingDetach, hrelay]
  cases hpending : s.session.closePending relay.outputHandle with
  | false => cases relay <;> simp [LinkRelay.onIncomingDetach]
  | true =>
      cases relay with
      | sender link outputHandle mode =>
          simp only [LinkRelay.onIncomingDetach, Bool.not_true, Bool.false_eq_true, if_false, iff_true]
          split <;> rfl
      | receiver link outputHandle mode more => simp [LinkRelay.onIncomingDetach]

theorem byInput_of_link {handle : InputHandle} {relay : LinkRelay OutputHandle}
    (hrelay : s.session.linkByInputHandle handle = some relay) :
    s.session.tables.byInput handle = some relay.key := by
  rw [Session.tables_byInput, hrelay, Option.map_some]

/-- The Detach of the peer leaves the link with exactly one Detach of its own. -/
theorem act_sent_attached (h : s.session.tables.Tracks s.links) {pending : List LinkFrame}
    {channel : UInt16} {detach : Detach} {relay : LinkRelay OutputHandle} {link : Nat}
    (hrelay : s.session.linkByInputHandle ⟨detach.handle⟩ = some relay) :
    (s.act (.incoming pending ⟨channel, .detach detach⟩, link)).1.links.sent
      (s.links.attached ⟨detach.handle⟩) = 1 := by
  have hinput := byInput_of_link hrelay
  obtain ⟨-, hpending, hsent⟩ := h.attached _ _ hinput
  have hsnd := congrArg Prod.snd
    (s.session.act_tables (.incoming pending ⟨channel, .detach detach⟩))
  simp only at hsnd
  simp only [act, hsnd, Session.tableOp, Incarnations.step, Incarnations.emit, LinkTables.step,
    hinput, Function.update_self, hpending]
  rw [hsent]
  split_ifs <;> rfl

theorem author_of_detachesInput {action : SessionAction × Nat} {handle : InputHandle}
    (h : action.1.DetachesInput handle) : s.author action = s.links.attached handle := by
  obtain ⟨action, link⟩ := action
  match action with
  | .incoming _ ⟨_, .detach detach⟩ =>
      obtain ⟨handle⟩ := handle
      cases (show detach.handle = handle from h)
      rfl
  | .incoming _ ⟨_, .begin _⟩ | .incoming _ ⟨_, .attach _⟩ | .incoming _ ⟨_, .flow _⟩
  | .incoming _ ⟨_, .transfer _ _⟩ | .incoming _ ⟨_, .disposition _⟩ | .incoming _ ⟨_, .end _⟩
  | .linkFrame .. | .allocateLink .. | .allocateIncomingLink .. | .deallocateLink ..
  | .sendBegin | .sendEnd .. | .register .. | .endpoint .. => exact h.elim

/-- A Detach never names a handle that is held by another link. -/
theorem act_detaches_owner (h : s.session.tables.Tracks s.links) {action : SessionAction × Nat}
    (haction : s.KeepsApart action) {handle : OutputHandle}
    (hhandle : handle ∈ Session.detachesOf (s.act action).2) :
    s.session.linkNameByOutputHandle.get handle.handle.toNat = none ∨
      s.links.owner handle = some (s.author action) := by
  have hsnd := congrArg Prod.snd (s.session.act_tables action.1)
  simp only at hsnd
  simp only [act, hsnd] at hhandle
  cases hop : s.session.tableOp action.1 with
  | localDetach handle' =>
      simp only [hop, LinkTables.step] at hhandle
      split_ifs at hhandle with hheld
      · obtain rfl : handle = handle' := by simpa using hhandle
        refine .inr ?_
        simp only [KeepsApart, hop] at haction
        rw [haction hheld]
        obtain ⟨action, link⟩ := action
        cases action with
        | incoming pending frame =>
            obtain ⟨channel, body⟩ := frame
            cases body <;> cases hop
        | _ => rfl
      · cases hhandle
  | peerDetach handle' =>
      simp only [hop, LinkTables.step] at hhandle
      cases hrelay : s.session.tables.byInput handle' with
      | none => simp [hrelay] at hhandle
      | some relay =>
          obtain ⟨howner, -, -⟩ := h.attached handle' relay hrelay
          simp only [hrelay] at hhandle
          split_ifs at hhandle
          · cases hhandle
          · obtain rfl : handle = relay.2 := by simpa using hhandle
            refine .inr ?_
            rw [howner, author_of_detachesInput (Session.detachesInput_of_tableOp hop)]
  | skip | allocate | allocateIncoming | deallocate | attach => simp [hop, LinkTables.step] at hhandle

/-- In every run whose actions keep the links apart: a Detach of the peer is taken for the answer to
a local one exactly if the link at that input handle has itself put a Detach on the wire; no link is
detached more than once, one that has detached itself or has been detached by the peer exactly once;
and no Detach names a handle that is held by another link. -/
theorem detach_classification_exact (builder : SessionBuilder) (outgoingChannel : UInt16)
    (localState : SessionState) (links : LinkStore) (actions : List (SessionAction × Nat))
    (hactions : Run.Along act KeepsApart (start builder outgoingChannel localState links) actions) :
    let s := (Run.run act (start builder outgoingChannel localState links) actions).1
    (∀ detach relay, s.session.linkByInputHandle ⟨detach.handle⟩ = some relay →
      ((s.session.onIncomingDetach detach).1 = none ↔
        s.links.detached (s.links.attached ⟨detach.handle⟩) = true)) ∧
    (∀ link, s.links.sent link ≤ 1 ∧ (s.links.detached link = true → s.links.sent link = 1)) ∧
    (∀ pending channel detach relay link,
      s.session.linkByInputHandle ⟨detach.handle⟩ = some relay →
      (s.act (.incoming pending ⟨channel, .detach detach⟩, link)).1.links.sent
        (s.links.attached ⟨detach.handle⟩) = 1) ∧
    ∀ action, s.KeepsApart action → ∀ handle ∈ Session.detachesOf (s.act action).2,
      s.session.linkNameByOutputHandle.get handle.handle.toNat = none ∨
        s.links.owner handle = some (s.author action) := by
  intro s
  have htracks : s.session.tables.Tracks s.links :=
    run_tracks builder outgoingChannel localState links hactions
  refine ⟨fun detach relay hrelay => ?_, htracks.sent, fun _ _ _ _ _ hrelay =>
    act_sent_attached htracks hrelay, fun action haction handle hhandle =>
    act_detaches_owner htracks haction hhandle⟩
  obtain ⟨-, hpending, -⟩ := htracks.attached _ _ (byInput_of_link hrelay)
  rw [onIncomingDetach_eq_none_iff hrelay, ← hpending]
  rfl

section ReusedHandle

private def attachLink (name : String) (handle : Handle) : SessionAction × Nat :=
  (.incoming [] ⟨0, .attach
    { name, handle, role := .receiver, sndSettleMode := .mixed, rcvSettleMode := .first
      source := none, target := none, unsettled := none, incompleteUnsettled := false
      initialDeliveryCount := none, maxMessageSize := none, offeredCapabilities := none
      desiredCapabilities := none, properties := none }⟩, 0)

private def allocateNamed (name : String) (link : LinkId) : SessionAction × Nat :=
  (.allocateLink name (some (.sender link () .first)), 0)

private def detachFirst : SessionAction × Nat := (.linkFrame (.detach ⟨0, true, none⟩) 0, 0)

private def twoLinks : List (SessionAction × Nat) :=
  [allocateNamed "a" 0, attachLink "a" 5, allocateNamed "b" 1, attachLink "b" 6, detachFirst]

private theorem twoLinks_keepApart :
    Run.Along act KeepsApart (start {} 0 .mapped LinkStore.empty) twoLinks := by
  refine ⟨fun _ => ⟨by decide, rfl, nofun⟩, trivial, fun _ => ⟨by decide, rfl, ?_⟩, trivial,
    fun _ => rfl, trivial⟩
  intro handle relay hrelay
  replace hrelay : (Function.update (fun _ : InputHandle => none) ⟨5⟩
      (some (LinkRelay.sender 0 ⟨0⟩ .first)) handle).map LinkRelay.key = some relay := hrelay
  by_cases hhandle : handle = ⟨5⟩
  · subst hhandle
    cases hrelay
    decide
  · rw [Function.update_of_ne hhandle] at hrelay
    cases hrelay

/-- Two links at two handles: the peer's answer to the Detach of the first gets no reply, its Detach
of the second gets one. -/
theorem detach_classification_exact_two_links :
    let s := (Run.run act (start {} 0 .mapped LinkStore.empty) twoLinks).1
    (s.session.onIncomingDetach ⟨5, true, none⟩).1 = none ∧
      (s.session.onIncomingDetach ⟨6, true, none⟩).1 ≠ none := by
  intro s
  obtain ⟨hexact, -⟩ :=
    detach_classification_exact {} 0 .mapped LinkStore.empty twoLinks twoLinks_keepApart
  refine ⟨(hexact ⟨5, true, none⟩ (.sender 0 ⟨0⟩ .first) rfl).mpr rfl, fun hnone => ?_⟩
  have hdetached := (hexact ⟨6, true, none⟩ (.sender 1 ⟨1⟩ .first) rfl).mp hnone
  cases hdetached

private def reusedHandle : List (SessionAction × Nat) :=
  [allocateNamed "a" 0, attachLink "a" 5, detachFirst, allocateNamed "b" 1, attachLink "b" 6]

/-- The second link is given the handle of the first, whose Detach is not answered yet: the peer's
Detach of the second link passes for that answer and gets no reply. -/
theorem detach_of_reused_handle_unanswered :
    ¬∀ (builder : SessionBuilder) (outgoingChannel : UInt16) (localState : SessionState)
        (links : LinkStore) (actions : List (SessionAction × Nat)),
      let s := (Run.run act (start builder outgoingChannel localState links) actions).1
      (∀ detach relay, s.session.linkByInputHandle ⟨detach.handle⟩ = some relay →
        ((s.session.onIncomingDetach detach).1 = none ↔
          s.links.detached (s.links.attached ⟨detach.handle⟩) = true)) ∧
      (∀ link, s.links.sent link ≤ 1 ∧ (s.links.detached link = true → s.links.sent link = 1)) ∧
      (∀ pending channel detach relay link,
        s.session.linkByInputHandle ⟨detach.handle⟩ = some relay →
        (s.act (.incoming pending ⟨channel, .detach detach⟩, link)).1.links.sent
          (s.links.attached ⟨detach.handle⟩) = 1) ∧
      ∀ action, ∀ handle ∈ Session.detachesOf (s.act action).2,
        s.session.linkNameByOutputHandle.get handle.handle.toNat = none ∨
          s.links.owner handle = some (s.author action) := by
  intro hclaim
  obtain ⟨hexact, -⟩ := hclaim {} 0 .mapped LinkStore.empty reusedHandle
  have hdetached := (hexact ⟨6, true, none⟩ (.sender 1 ⟨0⟩ .first) rfl).mp rfl
  cases hdetached

end ReusedHandle

end SessionHistory

end Fe2o3Amqp
