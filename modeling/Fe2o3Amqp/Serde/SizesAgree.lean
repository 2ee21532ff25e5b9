import Fe2o3Amqp.Serde.FirstElement
import Fe2o3Amqp.Serde.Value

/-!
# The size and the bytes

The size serializer and the serializer make the same choices as long as no part of a value reads a
flag on which they differ.  Then the count is never below the length of what is written, and it is
equal to it exactly if the bytes in front of the fields make no difference to any described list or
map.
-/

namespace Fe2o3Amqp

/-- A count beside a computation that writes `length` bytes: the count is never below, and it is
exact just when `fits`; where the computation fails there is no count. -/
structure CountsBytes {β : Type} (x : Except Failure Nat) (y : Except Failure β) (length : Nat)
    (fits : Prop) (R : β → Prop) : Prop where
  error : ∀ e, y = .error e → ∃ e', x = .error e'
  written : ∀ b, y = .ok b → R b
  le : ∀ b n, y = .ok b → x = .ok n → length ≤ n
  exact : ∀ b, y = .ok b → (x = .ok length ↔ fits)

/-- What is put around a body of `m` bytes: `close` counts it for a body of `n` bytes. -/
structure Closes {γ : Type} (close : Nat → Except Failure Nat) (m : Nat) (z : Except Failure γ)
    (length : Nat) (fits : Prop) (S : γ → Prop) : Prop where
  error : ∀ e n, z = .error e → m ≤ n → ∃ e', close n = .error e'
  written : ∀ c, z = .ok c → S c
  le : ∀ c t, z = .ok c → close m = .ok t → length ≤ t
  lt : ∀ c n t, z = .ok c → m < n → close n = .ok t → length < t
  exact : ∀ c, z = .ok c → (close m = .ok length ↔ fits)

namespace CountsBytes

variable {β γ : Type} {x x' : Except Failure Nat} {y : Except Failure β} {m k : Nat} {P Q : Prop}
  {R : β → Prop} {S : γ → Prop}

theorem mono {R' : β → Prop} (hle : ∀ b, R b → R' b) (h : CountsBytes x y m P R) : CountsBytes x y m P R' where
  error := h.error
  written b hb := hle b (h.written b hb)
  le := h.le
  exact := h.exact

theorem pure {b : β} (h : R b) : CountsBytes (.ok 0) (.ok b) 0 True R where
  error _ hy := by cases hy
  written _ hy := by cases hy; exact h
  le _ _ _ _ := Nat.zero_le _
  exact _ _ := by simp

theorem of_eq {b : β} (h : R b) : CountsBytes (.ok m) (.ok b) m True R where
  error _ hy := by cases hy
  written _ hy := by cases hy; exact h
  le _ _ _ hx := by cases hx; exact Nat.le_refl _
  exact _ _ := by simp

theorem failed (e e' : Failure) : CountsBytes (.error e) (.error e' : Except Failure β) m P R where
  error _ _ := ⟨e, rfl⟩
  written _ hy := by cases hy
  le _ _ hy _ := by cases hy
  exact _ hy := by cases hy

/-- What is written one after another is counted one after another. -/
theorem bind (h : CountsBytes x y m P R) {g : β → Except Failure γ}
    (hrest : ∀ b, R b → CountsBytes x' (g b) k Q S) :
    CountsBytes (do let a ← x; let b ← x'; Pure.pure (a + b)) (y >>= g) (m + k) (P ∧ Q) S where
  error e he := by
    cases hy : y with
    | error e' =>
        obtain ⟨e'', hx⟩ := h.error e' hy
        exact ⟨e'', by rw [hx]; rfl⟩
    | ok b =>
        rw [hy] at he
        obtain ⟨e', hx'⟩ := (hrest b (h.written b hy)).error e he
        cases hx : x with
        | error e'' => exact ⟨e'', rfl⟩
        | ok a => exact ⟨e', by rw [hx']; rfl⟩
  written c hc := by
    obtain ⟨b, hy, hc⟩ := Except.bind_eq_ok.mp hc
    exact (hrest b (h.written b hy)).written c hc
  le c n hc hn := by
    obtain ⟨b, hy, hc⟩ := Except.bind_eq_ok.mp hc
    obtain ⟨a, hx, hn⟩ := Except.bind_eq_ok.mp hn
    obtain ⟨a', hx', hn⟩ := Except.bind_eq_ok.mp hn
    cases hn
    exact Nat.add_le_add (h.le b a hy hx) ((hrest b (h.written b hy)).le c a' hc hx')
  exact c hc := by
    obtain ⟨b, hy, hc⟩ := Except.bind_eq_ok.mp hc
    have hfirst := h.exact b hy
    have hsecond := (hrest b (h.written b hy)).exact c hc
    rw [← hfirst, ← hsecond]
    constructor
    · intro hsum
      obtain ⟨a, hx, hsum⟩ := Except.bind_eq_ok.mp hsum
      obtain ⟨a', hx', hsum⟩ := Except.bind_eq_ok.mp hsum
      have hle := h.le b a hy hx
      have hle' := (hrest b (h.written b hy)).le c a' hc hx'
      have hsum : a + a' = m + k := Except.ok.inj hsum
      obtain rfl : a = m := by omega
      obtain rfl : a' = k := by omega
      exact ⟨hx, hx'⟩
    · rintro ⟨hx, hx'⟩
      rw [hx, hx']
      rfl

/-- A body is closed by the header around it. -/
theorem close (h : CountsBytes x y m P R) {end' : Nat → Except Failure Nat} {g : β → Except Failure γ}
    (hclose : ∀ b, R b → Closes end' m (g b) k Q S) :
    CountsBytes (x >>= end') (y >>= g) k (P ∧ Q) S where
  error e he := by
    cases hy : y with
    | error e' =>
        obtain ⟨e'', hx⟩ := h.error e' hy
        exact ⟨e'', by rw [hx]; rfl⟩
    | ok b =>
        rw [hy] at he
        cases hx : x with
        | error e'' => exact ⟨e'', rfl⟩
        | ok n =>
            obtain ⟨e'', hend⟩ := (hclose b (h.written b hy)).error e n he (h.le b n hy hx)
            exact ⟨e'', hend⟩
  written c hc := by
    obtain ⟨b, hy, hc⟩ := Except.bind_eq_ok.mp hc
    exact (hclose b (h.written b hy)).written c hc
  le c t hc ht := by
    obtain ⟨b, hy, hc⟩ := Except.bind_eq_ok.mp hc
    obtain ⟨n, hx, ht⟩ := Except.bind_eq_ok.mp ht
    have hcloses := hclose b (h.written b hy)
    obtain rfl | hlt := Nat.eq_or_lt_of_le (h.le b n hy hx)
    · exact hcloses.le c t hc ht
    · exact Nat.le_of_lt (hcloses.lt c n t hc hlt ht)
  exact c hc := by
    obtain ⟨b, hy, hc⟩ := Except.bind_eq_ok.mp hc
    have hcloses := hclose b (h.written b hy)
    rw [← h.exact b hy, ← hcloses.exact c hc]
    constructor
    · intro ht
      obtain ⟨n, hx, ht⟩ := Except.bind_eq_ok.mp ht
      obtain rfl | hlt := Nat.eq_or_lt_of_le (h.le b n hy hx)
      · exact ⟨hx, ht⟩
      · exact absurd (hcloses.lt c n k hc hlt ht) (Nat.lt_irrefl _)
    · rintro ⟨hx, ht⟩
      rw [hx]
      exact ht

/-- Something is measured before the body is written; where it cannot be measured, there is no
count. -/
theorem measure {α : Type} {probe : Except Failure α} {g : α → Except Failure β}
    (h : ∀ a, CountsBytes x (g a) m P R) (hprobe : ∀ e, probe = .error e → ∃ e', x = .error e') :
    CountsBytes x (probe >>= g) m P R := by
  cases hresult : probe with
  | error e =>
      obtain ⟨e', hx⟩ := hprobe e hresult
      rw [hx]
      exact .failed e' e
  | ok a => exact h a

end CountsBytes

theorem Closes.mono {γ : Type} {close : Nat → Except Failure Nat} {m k : Nat} {z : Except Failure γ}
    {P : Prop} {S S' : γ → Prop} (hle : ∀ c, S c → S' c) (h : Closes close m z k P S) :
    Closes close m z k P S' where
  error := h.error
  written c hc := hle c (h.written c hc)
  le := h.le
  lt := h.lt
  exact := h.exact

/-- Where the body is too long nothing is written, and what is around it has no size. -/
theorem Closes.tooLong {γ : Type} {close : Nat → Except Failure Nat} {m k : Nat} {P : Prop}
    {S : γ → Prop} (e : Failure) (h : ∀ n, m ≤ n → ∃ e', close n = .error e') :
    Closes close m (.error e : Except Failure γ) k P S where
  error _ n _ hn := h n hn
  written _ hz := by cases hz
  le _ _ hz _ := by cases hz
  lt _ _ _ hz _ _ := by cases hz
  exact _ hz := by cases hz

/-- Without a header the size is that of the body. -/
theorem Closes.transparent {γ : Type} {len : Nat} {c : γ} {S : γ → Prop} (h : S c) :
    Closes (fun n => .ok n) len (.ok c) len True S where
  error _ _ hz := by cases hz
  written _ hz := by cases hz; exact h
  le _ _ _ ht := by cases ht; exact Nat.le_refl _
  lt _ _ _ _ hlt ht := by cases ht; exact hlt
  exact _ _ := by simp

namespace Ser

/-- What the size serializer counts. -/
def count (v : Ser) (sz : SizeSerializer) : Except Failure Nat := do
  let (n, _) ← v.size sz
  return n

/-- The serializer wrote `len` bytes and is left with the flags. -/
def Wrote (writer : Bytes) (flags : SizeSerializer) (len : Nat) (se : Serializer) : Prop :=
  se.toSizeSerializer = flags ∧ se.writer.length = writer.length + len

/-- The count of a value beside its encoding. -/
def Counted (v : Ser) (se sz : SizeSerializer) : Prop :=
  ∀ writer, CountsBytes (v.count sz) (v.serialize ⟨se, writer⟩) (v.wireLength se) (v.frontsFit se)
    (Wrote writer (v.flagsAfter se) (v.wireLength se))

/-- The motive of the induction: where the two serializers run alike, the count is as expected. -/
def AlwaysCounted (v : Ser) : Prop :=
  ∀ se sz, v.flagsAlike se sz → v.Counted se sz

theorem counted_leaf {v : Ser} (hleaf : v.isLeaf) {se sz : SizeSerializer}
    (halike : v.flagsAlike se sz) : v.Counted se sz := by
  intro writer
  have hfits : v.frontsFit se = true := by
    cases v <;> first | rfl | simp [isLeaf] at hleaf
  have hmeasured := measured_leaf hleaf halike writer
  have hlength (n r) : v.size sz = .ok (n, r) → n = v.wireLength se := size_leaf hleaf halike
  simp only [count, hfits]
  generalize v.serialize ⟨se, writer⟩ = y at hmeasured
  generalize v.size sz = x at hmeasured hlength
  cases hmeasured with
  | error e e' => exact .failed e e'
  | @ok a b h =>
      obtain ⟨n, r⟩ := a
      obtain rfl := hlength n r rfl
      exact .of_eq h

/-! ## Headers -/

theorem wrote_writeAll (se : SizeSerializer) (writer bytes : Bytes) :
    Wrote writer se bytes.length ((Serializer.mk se writer).writeAll bytes) := by
  exact ⟨rfl, List.length_append⟩

theorem compoundLength_congr {mode mode' : IsArrayElement} (h : mode.coded = mode'.coded) (len : Nat) :
    compoundLength len mode = compoundLength len mode' := by
  simp only [compoundLength, h]

theorem listLength_congr {mode mode' : IsArrayElement} (h : mode.coded = mode'.coded) (len : Nat) :
    listLength len mode = listLength len mode' := by
  simp only [listLength, compoundLength_congr h]

section Headers

variable {mode mode' : IsArrayElement} {front len n t : Nat} {buf : Bytes}

/-- The header around `front` bytes more than it is written around is the same. -/
theorem compoundSize_front (hfits : len ≤ u32MaxMinus4) :
    compoundSize (front + len) mode = .ok (front + compoundLength len mode) ↔
      frontFits .describedMap front len := by
  have hmax : u8MaxMinus1 < u32MaxMinus4 := by decide
  simp only [compoundSize_eq, frontFits, compoundLength]
  split_ifs <;> simp only [Except.ok.injEq, false_iff, decide_eq_true_eq] <;> omega

theorem listSize_front (hfits : len ≤ u32MaxMinus4) :
    listSize (front + len) mode = .ok (front + listLength len mode) ↔
      frontFits .describedList front len := by
  have hmax : u8MaxMinus1 < u32MaxMinus4 := by decide
  simp only [listSize_eq, frontFits, listLength, compoundLength]
  split_ifs <;> simp only [Except.ok.injEq, false_iff, decide_eq_true_eq] <;> omega

theorem le_compoundLength_front : front + compoundLength len mode ≤ compoundLength (front + len) mode := by
  simp only [compoundLength]
  split_ifs <;> omega

theorem le_listLength_front : front + listLength len mode ≤ listLength (front + len) mode := by
  by_cases hlen : len = 0
  · subst hlen
    by_cases hfront : front = 0
    · subst hfront
      exact Nat.le_of_eq (Nat.zero_add _)
    · have hpos : ¬front + 0 = 0 := by omega
      simp only [listLength, hpos, if_true, if_false, compoundLength]
      split_ifs <;> omega
  · have hpos : ¬front + len = 0 := by omega
    simp only [listLength, hlen, hpos, if_false]
    exact le_compoundLength_front

/-- What a header is written around is closed by its size. -/
theorem closes_header {size : Nat → Except Failure Nat} {length : Nat → Nat} {k : Nat} {P : Prop}
    {z : Except Failure Serializer} {se : SizeSerializer} {writer : Bytes}
    (hsize : ∀ n, size n = if n ≤ u32MaxMinus4 then .ok (length n) else .error (.err .tooLong))
    (hlt : ∀ {n n'}, n < n' → length n < length n') (hle : front + k ≤ length (front + len))
    (hfits : len ≤ u32MaxMinus4 → (size (front + len) = .ok (front + k) ↔ P))
    (hwritten : z = .error (.err .tooLong) ∧ u32MaxMinus4 < len ∨
      len ≤ u32MaxMinus4 ∧ ∃ bytes, z = .ok ⟨se, writer ++ bytes⟩ ∧ bytes.length = k) :
    Closes size (front + len) z (front + k) P (Wrote writer se k) := by
  have hok {n t : Nat} (ht : size n = .ok t) : t = length n := by
    rw [hsize] at ht
    split_ifs at ht
    exact (Except.ok.inj ht).symm
  rcases hwritten with ⟨rfl, hlong⟩ | ⟨hshort, bytes, rfl, hlength⟩
  · refine .tooLong _ fun n hn => ⟨.err .tooLong, ?_⟩
    rw [hsize, if_neg (by omega)]
  · constructor
    · intro e n he
      cases he
    · intro c hc
      cases hc
      exact ⟨rfl, by rw [List.length_append, hlength]⟩
    · intro c t _ ht
      rw [hok ht]
      exact hle
    · intro c n t _ hmore ht
      rw [hok ht]
      exact Nat.lt_of_le_of_lt hle (hlt hmore)
    · intro c _
      exact hfits hshort

theorem closes_compound (hmode : mode.coded = mode'.coded) (se : SizeSerializer)
    (code8 code32 : EncodingCodes) (num : Nat) (writer : Bytes) :
    Closes (compoundSize · mode') (front + buf.length)
      ((Serializer.mk se writer).writeCompound code8 code32 num buf mode)
      (front + compoundLength buf.length mode) (frontFits .describedMap front buf.length)
      (Wrote writer se (compoundLength buf.length mode)) := by
  have hwritten := @writeCompound_eq mode se code8 code32 num buf writer
  rw [compoundLength_congr hmode] at hwritten ⊢
  exact closes_header (fun n => compoundSize_eq) compoundLength_lt le_compoundLength_front
    compoundSize_front hwritten

theorem closes_list (hmode : mode.coded = mode'.coded) (se : SizeSerializer) (num : Nat)
    (writer : Bytes) :
    Closes (listSize · mode') (front + buf.length)
      ((Serializer.mk se writer).writeList num buf mode)
      (front + listLength buf.length mode) (frontFits .describedList front buf.length)
      (Wrote writer se (listLength buf.length mode)) := by
  have hwritten : (Serializer.mk se writer).writeList num buf mode = .error (.err .tooLong) ∧
        u32MaxMinus4 < buf.length ∨
      buf.length ≤ u32MaxMinus4 ∧ ∃ bytes,
        (Serializer.mk se writer).writeList num buf mode = .ok ⟨se, writer ++ bytes⟩ ∧
          bytes.length = listLength buf.length mode := by
    simp only [Serializer.writeList, listLength]
    split_ifs with hbuf
    · exact .inr ⟨by omega, [EncodingCodes.list0.toU8], rfl, rfl⟩
    · exact writeCompound_eq se .list8 .list32 num buf writer
  rw [listLength_congr hmode] at hwritten ⊢
  exact closes_header (fun n => listSize_eq) listLength_lt le_listLength_front listSize_front
    hwritten

/-- Without bytes in front of it a body is always measured as it is written. -/
theorem closes_list_alone (hmode : mode.coded = mode'.coded) (se : SizeSerializer) (num : Nat)
    (writer : Bytes) :
    Closes (listSize · mode') buf.length ((Serializer.mk se writer).writeList num buf mode)
      (listLength buf.length mode) True (Wrote writer se (listLength buf.length mode)) := by
  have hcloses : Closes (listSize · mode') (0 + buf.length) _ (0 + listLength buf.length mode)
      (frontFits .describedList 0 buf.length) _ := closes_list hmode se num writer
  simpa [frontFits] using hcloses

theorem closes_compound_alone (hmode : mode.coded = mode'.coded) (se : SizeSerializer)
    (code8 code32 : EncodingCodes) (num : Nat) (writer : Bytes) :
    Closes (compoundSize · mode') buf.length
      ((Serializer.mk se writer).writeCompound code8 code32 num buf mode)
      (compoundLength buf.length mode) True
      (Wrote writer se (compoundLength buf.length mode)) := by
  have hcloses : Closes (compoundSize · mode') (0 + buf.length) _
      (0 + compoundLength buf.length mode) (frontFits .describedMap 0 buf.length) _ :=
    closes_compound hmode se code8 code32 num writer
  simpa [frontFits] using hcloses

/-- The end of a sequence. -/
theorem closes_seq {se sz : SizeSerializer} (hseq : se.seqType = sz.seqType)
    (hmode : se.isArrayElement.coded = sz.isArrayElement.coded) (num : Nat) (writer : Bytes) :
    Closes (seqSize sz) buf.length ((Serializer.mk se writer).endSeq num buf)
      (seqLength se buf.length) True (Wrote writer se (seqLength se buf.length)) := by
  unfold seqSize Serializer.endSeq seqLength
  simp only [hseq]
  cases sz.seqType with
  | none => exact closes_list_alone hmode se num writer
  | some seqType =>
      cases seqType with
      | list => exact closes_list_alone hmode se num writer
      | array => exact closes_compound_alone hmode se .array8 .array32 num writer
      | transparentVec => exact .transparent (wrote_writeAll se writer buf)

end Headers

/-! ## Sequences -/

theorem sizeElements_cons (seqType : Option SequenceType) (num : Nat) (v : Ser) (vs : List Ser) :
    sizeElements seqType num (v :: vs) = (do
      let a ← v.count { SizeSerializer.new with isArrayElement := elementMode seqType num }
      let b ← sizeElements seqType (num + 1) vs
      return a + b) := by
  simp only [sizeElements, count, bind_assoc, pure_bind]

theorem sizeEntries_cons (key value : Ser) (entries : List (Ser × Ser)) :
    sizeEntries ((key, value) :: entries) = (do
      let a ← key.count .new
      let b ← (do
        let b ← value.count .new
        let c ← sizeEntries entries
        return b + c)
      return a + b) := by
  simp only [sizeEntries, count, bind_assoc, pure_bind, Nat.add_assoc]

/-- The elements were appended to the buffer. -/
def Buffered (buf : Bytes) (len : Nat) (buf' : Bytes) : Prop :=
  buf'.length = buf.length + len

section Sequences

variable {seqType : Option SequenceType} {num : Nat} {vs : List Ser} {buf : Bytes}

theorem counts_elements (ih : ∀ v ∈ vs, v.AlwaysCounted) (halike : elementsAlike seqType num vs) :
    CountsBytes (sizeElements seqType num vs) (serializeElements seqType num (.buffer buf) vs)
      (elementsLength seqType num vs) (elementsFit seqType num vs)
      fun result => Buffered buf (elementsLength seqType num vs) result.2.intoBuffer := by
  induction vs generalizing num buf with
  | nil =>
      simp only [sizeElements_nil, serializeElements_nil, elementsLength, elementsFit]
      exact .pure rfl
  | cons v vs ihvs =>
      have hvs := fun v hv => ih v (List.mem_cons_of_mem _ hv)
      simp only [elementsAlike, Bool.and_eq_true] at halike
      simp only [sizeElements_cons, serializeElements, SeqSerializerState.getBufferMutOrAlloc,
        Except.ok_bind, elementsLength, elementsFit, Bool.and_eq_true]
      refine .bind (ih v (List.mem_cons_self ..) _ _ halike.1 buf) fun inner hinner => ?_
      refine (ihvs hvs halike.2).mono fun result hresult => ?_
      simp only [Buffered, hinner.2] at hresult ⊢
      omega

theorem counts_buffered (ih : ∀ v ∈ vs, v.AlwaysCounted)
    (halike : elementsAlike Option.none num vs) :
    CountsBytes (sizeElements Option.none num vs) (serializeBuffered buf vs)
      (elementsLength Option.none num vs) (elementsFit Option.none num vs)
      (Buffered buf (elementsLength Option.none num vs)) := by
  induction vs generalizing num buf with
  | nil =>
      simp only [sizeElements_nil, serializeBuffered, elementsLength, elementsFit]
      exact .pure rfl
  | cons v vs ihvs =>
      have hvs := fun v hv => ih v (List.mem_cons_of_mem _ hv)
      simp only [elementsAlike, Bool.and_eq_true] at halike
      simp only [sizeElements_cons, serializeBuffered, elementsLength, elementsFit, Bool.and_eq_true]
      refine .bind (ih v (List.mem_cons_self ..) _ _ halike.1 buf) fun inner hinner => ?_
      refine (ihvs hvs halike.2).mono fun result hresult => ?_
      simp only [Buffered, hinner.2] at hresult ⊢
      omega

theorem counts_entries {entries : List (Ser × Ser)}
    (ih : ∀ entry ∈ entries, entry.1.AlwaysCounted ∧ entry.2.AlwaysCounted)
    (halike : entriesAlike entries) :
    CountsBytes (sizeEntries entries) (serializeEntries num (.buffer buf) entries)
      (entriesLength entries) (entriesFit entries)
      fun result => Buffered buf (entriesLength entries) result.2.intoBuffer := by
  induction entries generalizing num buf with
  | nil =>
      simp only [sizeEntries_nil, serializeEntries_nil, entriesLength, entriesFit]
      exact .pure rfl
  | cons entry entries ihentries =>
      have hentries := fun entry hentry => ih entry (List.mem_cons_of_mem _ hentry)
      obtain ⟨key, value⟩ := entry
      obtain ⟨hkey, hvalue⟩ := ih (key, value) (List.mem_cons_self ..)
      simp only [entriesAlike, Bool.and_eq_true] at halike
      simp only [sizeEntries_cons, serializeEntries, MapSerializerState.getBufferOrAllocForEntry,
        Except.ok_bind, entriesLength, entriesFit, Bool.and_eq_true, Nat.add_assoc, and_assoc]
      refine .bind (hkey _ _ halike.1.1 buf) fun inner hinner => ?_
      obtain ⟨hflags, hlength⟩ := hinner
      obtain ⟨flags, writer⟩ := inner
      obtain rfl : flags = _ := hflags
      refine .bind (hvalue _ _ halike.1.2 writer) fun inner' hinner' => ?_
      refine (ihentries hentries halike.2).mono fun result hresult => ?_
      simp only [Buffered, hinner'.2, hlength] at hresult ⊢
      omega

end Sequences

/-- The first element of an array is measured as if it stood alone.  Where it has no size alone, the
array has no size either. -/
theorem seqSize_of_first {v : Ser} {vs : List Ser} {sz : SizeSerializer}
    (halike : elementsAlike sz.seqType 0 (v :: vs)) (e : Failure) (hfirst : v.count .new = .error e) :
    ∃ e', sizeElements sz.seqType 0 (v :: vs) >>= seqSize sz = .error e' := by
  simp only [elementsAlike, Bool.and_eq_true] at halike
  rw [sizeElements_cons]
  cases hcount : v.count { SizeSerializer.new with isArrayElement := elementMode sz.seqType 0 } with
  | error e' => exact ⟨e', rfl⟩
  | ok n =>
      cases hseq : sz.seqType with
      | none =>
          rw [hseq] at hcount
          cases hfirst.symm.trans hcount
      | some seqType =>
          cases seqType with
          | list | transparentVec =>
              rw [hseq] at hcount
              cases hfirst.symm.trans hcount
          | array =>
              rw [hseq] at halike hcount
              obtain ⟨⟨n', r⟩, hsize, hn⟩ := Except.bind_eq_ok.mp hcount
              cases hn
              have hlong : u32MaxMinus4 < n := by
                by_contra hshort
                obtain ⟨n', r', hsize', -⟩ := alwaysShrinks v _ _ .new halike.1 sameButMode_new n r
                  hsize (Nat.le_of_not_lt hshort)
                rw [count, hsize'] at hfirst
                cases hfirst
              rw [Except.ok_bind]
              cases sizeElements (Option.some .array) (0 + 1) vs with
              | error e' => exact ⟨e', rfl⟩
              | ok rest =>
                  refine ⟨.err .tooLong, ?_⟩
                  have hsum : ¬n + rest ≤ u32MaxMinus4 := by omega
                  simp only [Except.ok_bind, pure_bind, seqSize, hseq, arraySize, compoundSize_eq,
                    hsum, if_false]

/-! ## Values -/

theorem serializeElements_init (seqType : Option SequenceType) (len : Nat) (v : Ser) (vs : List Ser) :
    serializeElements seqType 0 (.init (Option.some len)) (v :: vs) = (do
      let _ ← serializedSize v
      serializeElements seqType 0 (.buffer []) (v :: vs)) := by
  simp only [serializeElements, SeqSerializerState.getBufferMutOrAlloc, bind_assoc, pure_bind,
    Except.ok_bind]

theorem serializeEntries_init (len : Nat) (key value : Ser) (entries : List (Ser × Ser)) :
    serializeEntries 0 (.init (Option.some len)) ((key, value) :: entries) = (do
      let _ ← serializedSize key
      let _ ← serializedSize value
      serializeEntries 0 (.buffer []) ((key, value) :: entries)) := by
  simp only [serializeEntries, MapSerializerState.getBufferOrAllocForEntry, bind_assoc, pure_bind,
    Except.ok_bind]

theorem count_seq (len : Option Nat) (vs : List Ser) (sz : SizeSerializer) :
    (Ser.seq len vs).count sz = sizeElements sz.seqType 0 vs >>= seqSize sz := by
  simp only [count, size, bind_assoc, pure_bind, bind_pure]

theorem counted_seq {len : Option Nat} {vs : List Ser} (ih : ∀ v ∈ vs, v.AlwaysCounted)
    {se sz : SizeSerializer} (halike : (Ser.seq len vs).flagsAlike se sz) :
    (Ser.seq len vs).Counted se sz := by
  intro writer
  simp only [flagsAlike, Bool.and_eq_true, beq_iff_eq] at halike
  obtain ⟨⟨hseq, hmode⟩, halike⟩ := halike
  have hbuffer : CountsBytes (sizeElements sz.seqType 0 vs >>= seqSize sz)
      (serializeElements se.seqType 0 (.buffer []) vs >>= fun result =>
        (Serializer.mk se writer).endSeq result.1 result.2.intoBuffer)
      (seqLength se (elementsLength se.seqType 0 vs)) (elementsFit se.seqType 0 vs ∧ True)
      (Wrote writer se (seqLength se (elementsLength se.seqType 0 vs))) := by
    rw [← hseq]
    refine .close (counts_elements ih halike) fun result hresult => ?_
    have hlength : result.2.intoBuffer.length = elementsLength se.seqType 0 vs := by
      simpa [Buffered] using hresult
    rw [← hlength]
    exact closes_seq hseq hmode _ _
  rw [and_true] at hbuffer
  rw [count_seq]
  simp only [serialize, wireLength, frontsFit, flagsAfter]
  cases vs with
  | nil =>
      simp only [serializeElements_nil] at hbuffer ⊢
      exact hbuffer
  | cons v vs =>
      cases len with
      | none =>
          have hinit : serializeElements se.seqType 0 (.init Option.none) (v :: vs) =
              serializeElements se.seqType 0 (.buffer []) (v :: vs) := by
            simp only [serializeElements, SeqSerializerState.getBufferMutOrAlloc]
          rw [hinit]
          exact hbuffer
      | some len =>
          rw [serializeElements_init, bind_assoc]
          refine .measure (fun _ => hbuffer) fun e he => ?_
          exact seqSize_of_first (hseq ▸ halike) e he

theorem counted_tuple {vs : List Ser} (ih : ∀ v ∈ vs, v.AlwaysCounted) {se sz : SizeSerializer}
    (halike : (Ser.tuple vs).flagsAlike se sz) : (Ser.tuple vs).Counted se sz := by
  intro writer
  simp only [flagsAlike, Bool.and_eq_true, beq_iff_eq] at halike
  have hcount : (Ser.tuple vs).count sz =
      sizeElements Option.none 0 vs >>= (listSize · sz.isArrayElement) := by
    simp only [count, size, bind_assoc, pure_bind, bind_pure]
  have hclosed : CountsBytes (sizeElements Option.none 0 vs >>= (listSize · sz.isArrayElement))
      (serializeBuffered [] vs >>= fun buf =>
        (Serializer.mk se writer).writeList vs.length buf se.isArrayElement)
      (listLength (elementsLength Option.none 0 vs) se.isArrayElement)
      (elementsFit Option.none 0 vs ∧ True)
      (Wrote writer se (listLength (elementsLength Option.none 0 vs) se.isArrayElement)) := by
    refine .close (counts_buffered ih halike.2) fun buf hbuf => ?_
    have hlength : buf.length = elementsLength Option.none 0 vs := by
      simpa [Buffered] using hbuf
    rw [← hlength]
    exact closes_list_alone halike.1 _ _ _
  rw [and_true] at hclosed
  rw [hcount]
  simp only [serialize, wireLength, frontsFit, flagsAfter]
  exact hclosed

theorem counted_map {len : Option Nat} {entries : List (Ser × Ser)}
    (ih : ∀ entry ∈ entries, entry.1.AlwaysCounted ∧ entry.2.AlwaysCounted)
    {se sz : SizeSerializer} (halike : (Ser.map len entries).flagsAlike se sz) :
    (Ser.map len entries).Counted se sz := by
  intro writer
  simp only [flagsAlike, Bool.and_eq_true, beq_iff_eq] at halike
  have hcount : (Ser.map len entries).count sz =
      sizeEntries entries >>= (mapSize · sz.isArrayElement) := by
    simp only [count, size, bind_assoc, pure_bind, bind_pure]
  have hbuffer : CountsBytes (sizeEntries entries >>= (mapSize · sz.isArrayElement))
      (serializeEntries 0 (.buffer []) entries >>= fun result =>
        (Serializer.mk se writer).writeMap result.1 result.2.intoBuffer se.isArrayElement)
      (compoundLength (entriesLength entries) se.isArrayElement) (entriesFit entries ∧ True)
      (Wrote writer se (compoundLength (entriesLength entries) se.isArrayElement)) := by
    refine .close (counts_entries ih halike.2) fun result hresult => ?_
    have hlength : result.2.intoBuffer.length = entriesLength entries := by
      simpa [Buffered] using hresult
    rw [← hlength]
    exact closes_compound_alone halike.1 _ _ _ _ _
  rw [and_true] at hbuffer
  rw [hcount]
  simp only [serialize, wireLength, frontsFit, flagsAfter]
  cases entries with
  | nil =>
      simp only [serializeEntries_nil] at hbuffer ⊢
      exact hbuffer
  | cons entry entries =>
      obtain ⟨key, value⟩ := entry
      cases len with
      | none =>
          have hinit : serializeEntries 0 (.init Option.none) ((key, value) :: entries) =
              serializeEntries 0 (.buffer []) ((key, value) :: entries) := by
            simp only [serializeEntries, MapSerializerState.getBufferOrAllocForEntry]
          rw [hinit]
          exact hbuffer
      | some len =>
          -- key and value are measured with the flags that they are counted with
          rw [serializeEntries_init]
          simp only [bind_assoc]
          refine .measure (fun _ => .measure (fun _ => hbuffer) fun e he => ?_) fun e he => ?_
          · rw [sizeEntries_cons]
            have hvalue : value.count .new = .error e := he
            cases key.count .new with
            | error e' => exact ⟨e', rfl⟩
            | ok n => exact ⟨e, by rw [hvalue]; rfl⟩
          · rw [sizeEntries_cons]
            have hkey : key.count .new = .error e := he
            exact ⟨e, by rw [hkey]; rfl⟩

/-- A descriptor is written behind its marker. -/
theorem counted_descriptor {index : UInt32} {v : Ser} (ih : v.AlwaysCounted) {se sz : SizeSerializer}
    (halike : (Ser.newtypeVariant .descriptor index v).flagsAlike se sz) :
    (Ser.newtypeVariant .descriptor index v).Counted se sz := by
  intro writer
  simp only [flagsAlike] at halike
  have hcount : (Ser.newtypeVariant .descriptor index v).count sz = (do
      let a ← (.ok 1 : Except Failure Nat)
      let b ← v.count sz
      return a + b) := by
    simp only [count, size, bind_assoc, pure_bind, Except.ok_bind, Nat.add_comm]
  have hcounts : CountsBytes ((Ser.newtypeVariant .descriptor index v).count sz)
      (.ok ((Serializer.mk se writer).writeAll [EncodingCodes.describedType.toU8]) >>= v.serialize)
      (1 + v.wireLength se) (True ∧ v.frontsFit se)
      (Wrote writer (v.flagsAfter se) (1 + v.wireLength se)) := by
    rw [hcount]
    refine .bind (.of_eq (wrote_writeAll se writer _)) fun marked hmarked => ?_
    obtain ⟨flags, marked⟩ := marked
    obtain ⟨rfl, hlength⟩ := hmarked
    refine (ih _ _ halike marked).mono fun inner hinner => ⟨hinner.1, ?_⟩
    simp only [List.length_singleton] at hlength
    rw [hinner.2, hlength]
    omega
  rw [true_and] at hcounts
  simp only [serialize, wireLength, frontsFit, flagsAfter]
  rw [Nat.add_comm (v.wireLength se)]
  exact hcounts

/-- The index of a variant as a key, which is counted as it is written. -/
theorem wrote_index (index : UInt32) (writer : Bytes) :
    Wrote writer .new (SizeSerializer.new.uintLength index)
      ((Serializer.new writer).serializeU32 index) :=
  grew_serializeU32 index rfl writer

/-- A variant is a map from its index to its value. -/
theorem counts_keyed {se sz flags : SizeSerializer}
    (hmode : se.isArrayElement.coded = sz.isArrayElement.coded) (index : UInt32)
    {x : Except Failure Nat} {g : Serializer → Except Failure Serializer} {len : Nat} {P : Prop}
    (h : ∀ writer, CountsBytes x (g ⟨.new, writer⟩) len P (Wrote writer flags len)) (writer : Bytes) :
    CountsBytes ((do
        let a ← (.ok (SizeSerializer.new.uintLength index) : Except Failure Nat)
        let b ← x
        return a + b) >>= (mapSize · sz.isArrayElement))
      ((.ok ((Serializer.new []).serializeU32 index) >>= g) >>=
        fun inner => (Serializer.mk se writer).writeMap 2 inner.writer se.isArrayElement)
      (compoundLength (SizeSerializer.new.uintLength index + len) se.isArrayElement) P
      (Wrote writer se (compoundLength (SizeSerializer.new.uintLength index + len)
        se.isArrayElement)) := by
  have hbody : CountsBytes (do
        let a ← (.ok (SizeSerializer.new.uintLength index) : Except Failure Nat)
        let b ← x
        return a + b)
      (.ok ((Serializer.new []).serializeU32 index) >>= g)
      (SizeSerializer.new.uintLength index + len) (True ∧ P)
      (Wrote [] flags (SizeSerializer.new.uintLength index + len)) := by
    refine .bind (.of_eq (wrote_index index [])) fun key hkey => ?_
    obtain ⟨flags, key⟩ := key
    obtain ⟨rfl, hlength⟩ := hkey
    refine (h key).mono fun inner hinner => ⟨hinner.1, ?_⟩
    rw [hinner.2, hlength, Nat.add_assoc]
  have hclosed := hbody.close fun inner hinner => by
    have hlength : inner.writer.length = SizeSerializer.new.uintLength index + len := by
      simpa using hinner.2
    have hcloses := (closes_compound_alone hmode se .map8 .map32 2 writer :
      Closes (compoundSize · sz.isArrayElement) inner.writer.length _ _ _ _)
    rw [hlength] at hcloses
    exact hcloses
  rw [true_and, and_true] at hclosed
  exact hclosed

theorem counted_newtypeVariant {name : TypeName} (hname : name ≠ .descriptor) {index : UInt32} {v : Ser}
    (ih : v.AlwaysCounted) {se sz : SizeSerializer}
    (halike : (Ser.newtypeVariant name index v).flagsAlike se sz) :
    (Ser.newtypeVariant name index v).Counted se sz := by
  intro writer
  have halike' : (se.isArrayElement.coded == sz.isArrayElement.coded && v.flagsAlike .new .new) = true := by
    cases name <;> first | exact absurd rfl hname | exact halike
  simp only [Bool.and_eq_true, beq_iff_eq] at halike'
  obtain ⟨hmode, hv⟩ := halike'
  have hcount : (Ser.newtypeVariant name index v).count sz = (do
      let a ← (.ok (SizeSerializer.new.uintLength index) : Except Failure Nat)
      let b ← v.count .new
      return a + b) >>= (mapSize · sz.isArrayElement) := by
    cases name <;>
      first
      | exact absurd rfl hname
      | simp only [count, size, bind_assoc, pure_bind, bind_pure, Except.ok_bind]
        rfl
  have hclosed := counts_keyed (g := v.serialize) hmode index (ih _ _ hv) writer
  have hserialize : (Ser.newtypeVariant name index v).serialize ⟨se, writer⟩ = (do
      let _ ← serializedSize (.u32 index)
      let _ ← serializedSize v
      (.ok ((Serializer.new []).serializeU32 index) >>= v.serialize) >>= fun inner =>
        (Serializer.mk se writer).writeMap 2 inner.writer se.isArrayElement) := by
    cases name <;>
      first
      | exact absurd rfl hname
      | simp only [serialize, MapSerializerState.getBufferOrAllocForEntry, bind_assoc, pure_bind,
          Except.ok_bind]
  have hlength : (Ser.newtypeVariant name index v).wireLength se =
      compoundLength (SizeSerializer.new.uintLength index + v.wireLength .new) se.isArrayElement := by
    cases name <;> first | exact absurd rfl hname | simp only [wireLength]
  have hfits : (Ser.newtypeVariant name index v).frontsFit se = v.frontsFit .new := by
    cases name <;> first | exact absurd rfl hname | simp only [frontsFit]
  have hflags : (Ser.newtypeVariant name index v).flagsAfter se = se := by
    cases name <;> first | exact absurd rfl hname | simp only [flagsAfter]
  rw [hcount, hserialize, hlength, hfits, hflags]
  refine .measure (fun _ => .measure (fun _ => hclosed) fun e he => ?_) fun e he => ?_
  · have hvalue : v.count .new = .error e := he
    exact ⟨e, by rw [hvalue]; rfl⟩
  · cases he

theorem counted_variant {index : UInt32} {vs : List Ser} (ih : ∀ v ∈ vs, v.AlwaysCounted)
    {se sz : SizeSerializer} (halike : (Ser.variant index vs).flagsAlike se sz) :
    (Ser.variant index vs).Counted se sz := by
  intro writer
  simp only [flagsAlike, Bool.and_eq_true, beq_iff_eq] at halike
  obtain ⟨hmode, hvs⟩ := halike
  have hcount : (Ser.variant index vs).count sz = (do
      let a ← (.ok (SizeSerializer.new.uintLength index) : Except Failure Nat)
      let b ← sizeElements Option.none 0 vs >>= (listSize · sz.isArrayElement)
      return a + b) >>= (mapSize · sz.isArrayElement) := by
    simp only [count, size, bind_assoc, pure_bind, bind_pure, Except.ok_bind]
    rfl
  have hvalue (key : Bytes) : CountsBytes
      (sizeElements Option.none 0 vs >>= (listSize · sz.isArrayElement))
      (serializeBuffered [] vs >>= fun buf =>
        (Serializer.mk .new key).writeList vs.length buf se.isArrayElement)
      (listLength (elementsLength Option.none 0 vs) se.isArrayElement)
      (elementsFit Option.none 0 vs)
      (Wrote key .new (listLength (elementsLength Option.none 0 vs) se.isArrayElement)) := by
    have hclosed := (counts_buffered ih hvs).close fun buf (hbuf : Buffered [] _ buf) => by
      have hlength : buf.length = elementsLength Option.none 0 vs := by
        simpa [Buffered] using hbuf
      have hcloses : Closes (listSize · sz.isArrayElement) buf.length _ _ _ _ :=
        closes_list_alone hmode .new vs.length key
      rw [hlength] at hcloses
      exact hcloses
    rw [and_true] at hclosed
    exact hclosed
  have hclosed := counts_keyed (g := fun key => serializeBuffered [] vs >>= fun buf =>
    key.writeList vs.length buf se.isArrayElement) hmode index hvalue writer
  rw [hcount]
  simp only [serialize, wireLength, frontsFit, flagsAfter]
  simp only [bind_assoc, Except.ok_bind] at hclosed ⊢
  exact hclosed

/-! ## Tuple structs -/

theorem tupleFieldsLength_false (vs : List Ser) (se : SizeSerializer) :
    (tupleFieldsLength false vs se).1 = 0 := by
  induction vs with
  | nil => simp only [tupleFieldsLength]
  | cons v vs ih => simp only [tupleFieldsLength, Bool.false_eq_true, if_false, ih]

/-- The flags that the end of a tuple struct reads. -/
theorem tupleFieldsAlike_end {role : Bool} {vs : List Ser} {se sz : SizeSerializer}
    (h : tupleFieldsAlike role vs se sz) :
    (tupleFlagsAfter role vs se).structEncoding = sz.structEncoding ∧
      (sz.structEncoding = .describedBasic ∨ sz.isArrayElement.coded) := by
  have hfields {vs : List Ser} {se : SizeSerializer} (h : tupleFieldsAlike false vs se sz) :
      se.structEncoding = sz.structEncoding ∧
        (sz.structEncoding = .describedBasic ∨ sz.isArrayElement.coded) := by
    induction vs with
    | nil =>
        simp only [tupleFieldsAlike, Bool.and_eq_true, Bool.or_eq_true, beq_iff_eq] at h
        exact ⟨h.1, h.1 ▸ h.2⟩
    | cons v vs ih =>
        simp only [tupleFieldsAlike, Bool.false_eq_true, if_false, Bool.and_eq_true] at h
        exact ih h.2
  cases vs with
  | nil =>
      simp only [tupleFieldsAlike, Bool.and_eq_true, Bool.or_eq_true, beq_iff_eq] at h
      simp only [tupleFlagsAfter]
      exact ⟨h.1, h.1 ▸ h.2⟩
  | cons v vs =>
      cases role with
      | true =>
          simp only [tupleFieldsAlike, if_true, Bool.and_eq_true] at h
          simpa only [tupleFlagsAfter, if_true] using hfields h.2
      | false => simpa only [tupleFlagsAfter, Bool.false_eq_true, if_false] using hfields h

theorem sizeTupleStructFields_cons (sz : SizeSerializer) (role : Bool) (v : Ser) (vs : List Ser) :
    sizeTupleStructFields sz role (v :: vs) = (do
      let inner ← if role then .ok .new else tupleStructFieldSizer sz
      let a ← v.count inner
      let b ← sizeTupleStructFields sz false vs
      return a + b) := by
  simp only [sizeTupleStructFields, count, bind_assoc, pure_bind]

theorem counts_tupleFields {vs : List Ser} (ih : ∀ v ∈ vs, v.AlwaysCounted) {se : Serializer}
    {sz : SizeSerializer} (halike : tupleFieldsAlike false vs se.toSizeSerializer sz) {num : Nat}
    {buf : Bytes} :
    CountsBytes (sizeTupleStructFields sz false vs) (serializeTupleStructFields se false num buf vs)
      (tupleFieldsLength false vs se.toSizeSerializer).2
      (tupleFieldsFit false vs se.toSizeSerializer)
      fun result => result.1 = se ∧
        Buffered buf (tupleFieldsLength false vs se.toSizeSerializer).2 result.2.2 := by
  induction vs generalizing num buf with
  | nil =>
      simp only [sizeTupleStructFields_nil, serializeTupleStructFields_nil, tupleFieldsLength,
        tupleFieldsFit]
      exact .pure ⟨rfl, rfl⟩
  | cons v vs ihvs =>
      have hvs := fun v hv => ih v (List.mem_cons_of_mem _ hv)
      simp only [tupleFieldsAlike, Bool.false_eq_true, if_false, Bool.and_eq_true,
        beq_iff_eq] at halike
      obtain ⟨⟨hencoding, hv⟩, htail⟩ := halike
      have hfield := ih v (List.mem_cons_self ..) _ _ hv buf
      have hrest (inner : Serializer)
          (hinner : Wrote buf (v.flagsAfter se.toSizeSerializer.tupleStructField)
            (v.wireLength se.toSizeSerializer.tupleStructField) inner) :
          CountsBytes (sizeTupleStructFields sz false vs)
            (serializeTupleStructFields se false (num + 1) inner.writer vs)
            (tupleFieldsLength false vs se.toSizeSerializer).2
            (tupleFieldsFit false vs se.toSizeSerializer)
            fun result => result.1 = se ∧
              Buffered buf (v.wireLength se.toSizeSerializer.tupleStructField +
                (tupleFieldsLength false vs se.toSizeSerializer).2) result.2.2 := by
        refine (ihvs hvs htail).mono fun result hresult => ⟨hresult.1, ?_⟩
        have hlength := hresult.2
        simp only [Buffered, hinner.2] at hlength ⊢
        omega
      have hcounts := hfield.bind hrest
      simp only [sizeTupleStructFields_cons, Bool.false_eq_true, if_false, tupleStructFieldSizer,
        serializeTupleStructFields, tupleFieldsLength, tupleFieldsFit, Bool.and_eq_true]
      rw [← hencoding]
      cases hse : se.structEncoding with
      | describedMap => exact .failed _ _
      | _ =>
          simp only [hse, SizeSerializer.tupleStructField, reduceCtorEq, if_true, if_false] at hcounts ⊢
          exact hcounts

/-- The bytes in front were written before. -/
theorem Wrote.front {writer marked : Bytes} {flags : SizeSerializer} {front len : Nat}
    (hmarked : marked.length = writer.length + front) {se : Serializer} (h : Wrote marked flags len se) :
    Wrote writer flags (front + len) se := by
  refine ⟨h.1, ?_⟩
  rw [h.2, hmarked, Nat.add_assoc]

/-- The end of a tuple struct, behind the bytes in front of its fields. -/
theorem closes_tupleStruct {se sz : SizeSerializer} (hencoding : se.structEncoding = sz.structEncoding)
    (hmode : sz.structEncoding = .describedBasic ∨ sz.isArrayElement.coded) {front : Nat}
    (num : Nat) {writer marked : Bytes} (buf : Bytes) (hmarked : marked.length = writer.length + front) :
    Closes (fun len => do let (n, _) ← tupleStructSize sz len; return n) (front + buf.length)
      ((Serializer.mk se marked).endTupleStruct num buf) (tupleStructLength se front buf.length)
      (frontFits se.structEncoding front buf.length)
      (Wrote writer se.leaveStruct (tupleStructLength se front buf.length)) := by
  simp only [tupleStructSize, Serializer.endTupleStruct, tupleStructLength, SizeSerializer.leaveStruct,
    ← hencoding]
  have hlist (hcoded : sz.isArrayElement.coded) (flags : SizeSerializer) :
      Closes (listSize · sz.isArrayElement) (front + buf.length)
        ((Serializer.mk flags marked).writeList num buf .false)
        (front + listLength buf.length .false) (frontFits .describedList front buf.length)
        (Wrote writer flags (front + listLength buf.length .false)) := by
    have hsame : IsArrayElement.false.coded = sz.isArrayElement.coded := hcoded.symm
    exact (closes_list hsame flags num marked).mono fun c hc => hc.front hmarked
  cases hse : se.structEncoding with
  | none =>
      have hcoded := hmode.resolve_left (by simp [← hencoding, hse])
      simp only [if_true, bind_assoc, pure_bind, bind_pure]
      exact hlist hcoded se
  | describedList =>
      have hcoded := hmode.resolve_left (by simp [← hencoding, hse])
      simp only [reduceCtorEq, if_false, bind_assoc, pure_bind, bind_pure]
      exact hlist hcoded se.popEncoding
  | describedBasic =>
      simp only [reduceCtorEq, if_false, Except.ok_bind, frontFits]
      refine .transparent ?_
      exact (wrote_writeAll se.popEncoding marked buf).front hmarked
  | describedMap =>
      simp only [reduceCtorEq, if_false]
      exact .tooLong _ fun n _ => ⟨.panic, rfl⟩

/-- The descriptor is written by the serializer itself, the fields behind it are buffered. -/
theorem counts_roleFields {vs : List Ser} (ih : ∀ v ∈ vs, v.AlwaysCounted) {role : Bool}
    {se sz : SizeSerializer} (halike : tupleFieldsAlike role vs se sz) (writer : Bytes) :
    CountsBytes (sizeTupleStructFields sz role vs)
      (serializeTupleStructFields ⟨se, writer⟩ role 0 [] vs)
      ((tupleFieldsLength role vs se).1 + (tupleFieldsLength role vs se).2)
      (tupleFieldsFit role vs se)
      fun result => Wrote writer (tupleFlagsAfter role vs se) (tupleFieldsLength role vs se).1 result.1 ∧
        result.2.2.length = (tupleFieldsLength role vs se).2 := by
  cases vs with
  | nil =>
      simp only [sizeTupleStructFields_nil, serializeTupleStructFields_nil, tupleFieldsLength,
        tupleFieldsFit, tupleFlagsAfter]
      exact .pure ⟨⟨rfl, rfl⟩, rfl⟩
  | cons v vs =>
      cases role with
      | true =>
          have hvs := fun v hv => ih v (List.mem_cons_of_mem _ hv)
          simp only [tupleFieldsAlike, if_true, Bool.and_eq_true] at halike
          simp only [sizeTupleStructFields_cons, serializeTupleStructFields, tupleFieldsLength,
            tupleFieldsFit, tupleFlagsAfter, if_true, Except.ok_bind, Bool.and_eq_true,
            tupleFieldsLength_false, Nat.add_zero]
          refine .bind (ih v (List.mem_cons_self ..) _ _ halike.1 writer) fun inner hinner => ?_
          obtain ⟨flags, marked⟩ := inner
          obtain ⟨rfl, hlength⟩ := hinner
          refine (counts_tupleFields hvs halike.2).mono fun result hresult => ?_
          obtain ⟨hsame, hbuf⟩ := hresult
          rw [hsame]
          exact ⟨⟨rfl, hlength⟩, by simpa [Buffered] using hbuf⟩
      | false =>
          rw [tupleFieldsLength_false, Nat.zero_add]
          refine (counts_tupleFields ih halike).mono fun result hresult => ?_
          obtain ⟨hsame, hbuf⟩ := hresult
          rw [hsame]
          simp only [tupleFlagsAfter, Bool.false_eq_true, if_false]
          exact ⟨⟨rfl, rfl⟩, by simpa [Buffered] using hbuf⟩

theorem counted_tupleStruct {name : TypeName} {vs : List Ser} (ih : ∀ v ∈ vs, v.AlwaysCounted)
    {se sz : SizeSerializer} (halike : (Ser.tupleStruct name vs).flagsAlike se sz) :
    (Ser.tupleStruct name vs).Counted se sz := by
  intro writer
  simp only [flagsAlike] at halike
  simp only [count, size, serialize, wireLength, frontsFit, flagsAfter, bind_assoc, Bool.and_eq_true]
  obtain ⟨hencoding, hmode⟩ := tupleFieldsAlike_end halike
  have hfields := counts_roleFields ih halike writer
  generalize (decide (name = .describedBasic ∨ name = .describedList)) = role at hencoding hfields ⊢
  generalize tupleFlagsAfter role vs (se.enterTupleStruct name) = flags at hencoding hfields ⊢
  generalize tupleFieldsLength role vs (se.enterTupleStruct name) = lengths at hfields ⊢
  obtain ⟨front, body⟩ := lengths
  refine hfields.close fun result hresult => ?_
  obtain ⟨⟨flags', marked⟩, num, buf⟩ := result
  obtain ⟨⟨hflags, hmarked⟩, hbuf⟩ := hresult
  obtain rfl : flags' = flags := hflags
  obtain rfl : buf.length = body := hbuf
  exact closes_tupleStruct hencoding hmode num buf hmarked

/-! ## Structs -/

theorem fieldsAlike_end {fields : List (FieldKey × Ser)} {se sz : SizeSerializer}
    (h : fieldsAlike fields se sz) :
    (fieldsFlagsAfter fields se).structEncoding = sz.structEncoding ∧
      (sz.structEncoding = .describedBasic ∨
        (fieldsFlagsAfter fields se).isArrayElement.coded = sz.isArrayElement.coded) := by
  induction fields generalizing se with
  | nil =>
      simp only [fieldsAlike, Bool.and_eq_true, Bool.or_eq_true, beq_iff_eq] at h
      simp only [fieldsFlagsAfter]
      exact ⟨h.1, h.1 ▸ h.2⟩
  | cons field fields ih =>
      obtain ⟨key, v⟩ := field
      cases key with
      | descriptor =>
          simp only [fieldsAlike, Bool.and_eq_true] at h
          simp only [fieldsFlagsAfter]
          exact ih h.2
      | name key =>
          simp only [fieldsAlike, Bool.and_eq_true] at h
          simp only [fieldsFlagsAfter]
          obtain ⟨-, h⟩ := h
          cases hse : se.structEncoding <;>
            simp only [hse, Bool.and_eq_true, reduceCtorEq, if_true, if_false] at h ⊢ <;> exact ih h.2

/-- What is counted of the fields of a struct. -/
def countFields (sz : SizeSerializer) (fields : List (FieldKey × Ser)) : Except Failure Nat := do
  let (n, _) ← sizeStructFields sz fields
  return n

theorem count_descriptor {v : Ser} (hdescriptor : v.isDescriptor) {sz sz' : SizeSerializer}
    (hmode : sz.isArrayElement = sz'.isArrayElement) : v.count sz = v.count sz' := by
  obtain ⟨nonNativeType, seqType, structEncodings, isArrayElement⟩ := sz
  obtain ⟨nonNativeType', seqType', structEncodings', isArrayElement'⟩ := sz'
  obtain rfl : isArrayElement = isArrayElement' := hmode
  unfold isDescriptor at hdescriptor
  split at hdescriptor
  · cases isArrayElement <;>
      simp only [count, size, SizeSerializer.enterNewtype, SizeSerializer.serializeStr, bind_assoc,
        pure_bind, Except.ok_bind]
  · simp only [count, size, Except.ok_bind]
    rfl
  · cases hdescriptor

theorem sizeField_congr {sz sz' : SizeSerializer} (hencodings : sz.structEncodings = sz'.structEncodings)
    (hmode : sz.isArrayElement = sz'.isArrayElement) (key : String) (v : Ser) :
    sizeField sz key v = sizeField sz' key v := by
  simp only [sizeField, SizeSerializer.structEncoding, hencodings, hmode]

theorem countFields_name (sz : SizeSerializer) (key : String) (v : Ser)
    (fields : List (FieldKey × Ser)) :
    countFields sz ((.name key, v) :: fields) = (do
      let a ← sizeField sz key v
      let b ← countFields sz fields
      return a + b) := by
  simp only [countFields, sizeStructFields_name, bind_assoc, pure_bind]

/-- The descriptor does not change what is counted behind it. -/
theorem countFields_cons_descriptor {v : Ser} (hdescriptor : v.isDescriptor)
    {fields : List (FieldKey × Ser)}
    (hcongr : ∀ sz sz' : SizeSerializer, sz.structEncodings = sz'.structEncodings →
      sz.isArrayElement = sz'.isArrayElement → countFields sz fields = countFields sz' fields)
    (sz : SizeSerializer) :
    countFields sz ((.descriptor, v) :: fields) = (do
      let a ← v.count sz
      let b ← countFields sz fields
      return a + b) := by
  have hcount : countFields sz ((.descriptor, v) :: fields) = (do
      let (a, r) ← v.size sz
      let b ← countFields r fields
      return a + b) := by
    simp only [countFields, sizeStructFields, bind_assoc, pure_bind]
  rw [hcount]
  cases hsize : v.size sz with
  | error e => simp only [count, hsize, Except.error_bind]
  | ok result =>
      obtain ⟨a, r⟩ := result
      obtain ⟨hencodings, hmode⟩ := size_descriptor_keeps hdescriptor hsize
      simp only [count, hsize, Except.ok_bind, pure_bind, hcongr r sz hencodings hmode]

theorem countFields_congr {fields : List (FieldKey × Ser)} {se sz₀ : SizeSerializer}
    (halike : fieldsAlike fields se sz₀) (sz sz' : SizeSerializer)
    (hencodings : sz.structEncodings = sz'.structEncodings)
    (hmode : sz.isArrayElement = sz'.isArrayElement) :
    countFields sz fields = countFields sz' fields := by
  induction fields generalizing se sz sz' with
  | nil => simp only [countFields, sizeStructFields_nil, Except.ok_bind]
  | cons field fields ih =>
      obtain ⟨se', htail⟩ := fieldsAlike_tail halike
      obtain ⟨key, v⟩ := field
      cases key with
      | descriptor =>
          simp only [fieldsAlike, Bool.and_eq_true] at halike
          have hdescriptor := halike.1.1
          rw [countFields_cons_descriptor hdescriptor (ih htail),
            countFields_cons_descriptor hdescriptor (ih htail), count_descriptor hdescriptor hmode,
            ih htail sz sz' hencodings hmode]
      | name key =>
          rw [countFields_name, countFields_name, sizeField_congr hencodings hmode,
            ih htail sz sz' hencodings hmode]

/-- The key of a field is counted as it is written. -/
theorem counts_key (key : String) (buf : Bytes) :
    CountsBytes ((Ser.str key).count .describedMap) ((Serializer.describedMap buf).serializeStr key)
      (SizeSerializer.describedMap.sizedLength (utf8Bytes key).length) True
      (Wrote buf .describedMap (SizeSerializer.describedMap.sizedLength (utf8Bytes key).length)) := by
  have hleaf : (Ser.str key).Counted .describedMap .describedMap := counted_leaf rfl rfl
  have hcounts := hleaf buf
  simp only [serialize, wireLength, frontsFit] at hcounts
  exact hcounts

theorem sizeField_describedMap {sz : SizeSerializer} (hsz : sz.structEncoding = .describedMap)
    (key : String) (v : Ser) :
    sizeField sz key v = (do
      let a ← (Ser.str key).count .describedMap
      let b ← v.count .describedMap
      return a + b) := by
  simp only [sizeField, hsz, count, size]
  cases hkey : SizeSerializer.describedMap.serializeStr key with
  | error e => simp only [Except.error_bind]
  | ok result =>
      obtain ⟨a, r⟩ := result
      -- without a native type the key leaves the flags
      obtain ⟨a', -, hflags⟩ := Except.bind_eq_ok.mp hkey
      cases hflags
      simp only [Except.ok_bind, bind_assoc, pure_bind]

/-- The serializer wrote the bytes in front and buffered the others. -/
def WroteFields (writer buf : Bytes) (flags : SizeSerializer) (lengths : Nat × Nat)
    (result : Serializer × Nat × Bytes) : Prop :=
  Wrote writer flags lengths.1 result.1 ∧ Buffered buf lengths.2 result.2.2

/-- A field that is buffered before the others. -/
theorem WroteFields.buffered {writer buf inner : Bytes} {flags : SizeSerializer}
    {lengths : Nat × Nat} {len : Nat} (hinner : inner.length = buf.length + len)
    {result : Serializer × Nat × Bytes} (h : WroteFields writer inner flags lengths result) :
    WroteFields writer buf flags (lengths.1, len + lengths.2) result := by
  refine ⟨h.1, ?_⟩
  have hbuf := h.2
  simp only [Buffered, hinner] at hbuf ⊢
  omega

/-- A field that is written in front of the others. -/
theorem WroteFields.written {writer buf marked : Bytes} {flags : SizeSerializer}
    {lengths : Nat × Nat} {len : Nat} (hmarked : marked.length = writer.length + len)
    {result : Serializer × Nat × Bytes} (h : WroteFields marked buf flags lengths result) :
    WroteFields writer buf flags (len + lengths.1, lengths.2) result :=
  ⟨h.1.front hmarked, h.2⟩

theorem counts_fields {fields : List (FieldKey × Ser)}
    (ih : ∀ field ∈ fields, field.2.AlwaysCounted) {se sz : SizeSerializer}
    (halike : fieldsAlike fields se sz) (num : Nat) (writer buf : Bytes) :
    CountsBytes (countFields sz fields) (serializeStructFields ⟨se, writer⟩ num buf fields)
      ((fieldsLength fields se).1 + (fieldsLength fields se).2) (fieldsFit fields se)
      (WroteFields writer buf (fieldsFlagsAfter fields se) (fieldsLength fields se)) := by
  induction fields generalizing se num writer buf with
  | nil =>
      simp only [countFields, sizeStructFields_nil, Except.ok_bind, serializeStructFields_nil,
        fieldsLength, fieldsFit, fieldsFlagsAfter]
      exact .pure ⟨⟨rfl, rfl⟩, rfl⟩
  | cons field fields ihfields =>
      have hfields := fun field hfield => ih field (List.mem_cons_of_mem _ hfield)
      have hfield := ih field (List.mem_cons_self ..)
      obtain ⟨key, v⟩ := field
      cases key with
      | descriptor =>
          simp only [fieldsAlike, Bool.and_eq_true] at halike
          obtain ⟨⟨hdescriptor, hv⟩, htail⟩ := halike
          rw [countFields_cons_descriptor hdescriptor (countFields_congr htail)]
          simp only [serializeStructFields, fieldsLength, fieldsFit, fieldsFlagsAfter,
            Bool.and_eq_true, Nat.add_assoc]
          refine .bind (hfield _ _ hv writer) fun inner hinner => ?_
          obtain ⟨flags, marked⟩ := inner
          obtain ⟨rfl, hmarked⟩ := hinner
          exact (ihfields hfields htail num marked buf).mono fun _ h => h.written hmarked
      | name key =>
          simp only [fieldsAlike, Bool.and_eq_true, beq_iff_eq] at halike
          obtain ⟨hencoding, halike⟩ := halike
          rw [countFields_name]
          simp only [serializeStructFields, fieldsLength, fieldsFit, fieldsFlagsAfter, sizeField,
            ← hencoding]
          -- a field that the serializer buffers, counted before the others
          have hbuffered {sz' : SizeSerializer} {se' : SizeSerializer}
              (hcounted : v.Counted se' sz') (htail : fieldsAlike fields se sz) (num : Nat) :
              CountsBytes (do
                  let a ← v.count sz'
                  let b ← countFields sz fields
                  return a + b)
                (v.serialize ⟨se', buf⟩ >>= fun inner =>
                  serializeStructFields ⟨se, writer⟩ num inner.writer fields)
                ((fieldsLength fields se).1 + (v.wireLength se' + (fieldsLength fields se).2))
                (v.frontsFit se' ∧ fieldsFit fields se)
                (WroteFields writer buf (fieldsFlagsAfter fields se)
                  ((fieldsLength fields se).1, v.wireLength se' + (fieldsLength fields se).2)) := by
            rw [Nat.add_left_comm]
            refine .bind (hcounted buf) fun inner hinner => ?_
            exact (ihfields hfields htail num writer inner.writer).mono fun _ h =>
              h.buffered hinner.2
          cases hse : se.structEncoding with
          | none =>
              simp only [hse, Bool.and_eq_true, reduceCtorEq, if_false] at halike ⊢
              exact hbuffered (hfield _ _ halike.1) halike.2 _
          | describedList =>
              simp only [hse, Bool.and_eq_true, reduceCtorEq, if_false] at halike ⊢
              exact hbuffered (hfield _ _ halike.1) halike.2 _
          | describedMap =>
              simp only [hse, Bool.and_eq_true, reduceCtorEq, if_false] at halike ⊢
              have hentry : CountsBytes (do
                    let a ← (Ser.str key).count .describedMap
                    let b ← v.count .describedMap
                    return a + b)
                  ((Serializer.describedMap buf).serializeStr key >>= v.serialize)
                  (SizeSerializer.describedMap.sizedLength (utf8Bytes key).length +
                    v.wireLength .describedMap) (True ∧ v.frontsFit .describedMap)
                  (Wrote buf (v.flagsAfter .describedMap)
                    (SizeSerializer.describedMap.sizedLength (utf8Bytes key).length +
                      v.wireLength .describedMap)) := by
                refine (counts_key key buf).bind fun inner hinner => ?_
                obtain ⟨flags, keyed⟩ := inner
                obtain ⟨rfl, hkeyed⟩ := hinner
                exact (hfield _ _ halike.1 keyed).mono fun _ h => h.front hkeyed
              have hcounts := hentry.bind fun inner hinner =>
                (ihfields hfields halike.2 (num + 1) writer inner.writer).mono fun _ h =>
                  h.buffered hinner.2
              rw [← sizeField_describedMap (hencoding.symm.trans hse) key v] at hcounts
              rw [Nat.add_left_comm]
              simp only [sizeField, hencoding.symm.trans hse, bind_assoc, true_and] at hcounts ⊢
              exact hcounts
          | describedBasic =>
              simp only [hse, Bool.and_eq_true, if_true] at halike ⊢
              rw [Nat.add_assoc]
              refine .bind (hfield _ _ halike.1 writer) fun inner hinner => ?_
              obtain ⟨flags, marked⟩ := inner
              obtain ⟨rfl, hmarked⟩ := hinner
              exact (ihfields hfields halike.2 _ marked buf).mono fun _ h => h.written hmarked

/-- The end of a struct, behind the bytes in front of its fields. -/
theorem closes_struct {se sz : SizeSerializer} (hencoding : se.structEncoding = sz.structEncoding)
    (hmode : sz.structEncoding = .describedBasic ∨
      se.isArrayElement.coded = sz.isArrayElement.coded) {front : Nat}
    (num : Nat) {writer marked : Bytes} {buf : Bytes} (hmarked : marked.length = writer.length + front)
    (hbuf : se.structEncoding = .describedBasic → buf.length = 0) :
    Closes (fun len => do let (n, _) ← structSize sz len; return n) (front + buf.length)
      ((Serializer.mk se marked).endStruct num buf) (structLength se front buf.length)
      (frontFits se.structEncoding front buf.length)
      (Wrote writer se.leaveStruct (structLength se front buf.length)) := by
  simp only [structSize, Serializer.endStruct, structLength, SizeSerializer.leaveStruct, ← hencoding]
  have hlist (hcoded : se.isArrayElement.coded = sz.isArrayElement.coded) (flags : SizeSerializer) :
      Closes (listSize · sz.isArrayElement) (front + buf.length)
        ((Serializer.mk flags marked).writeList num buf se.isArrayElement)
        (front + listLength buf.length se.isArrayElement) (frontFits .describedList front buf.length)
        (Wrote writer flags (front + listLength buf.length se.isArrayElement)) :=
    (closes_list hcoded flags num marked).mono fun c hc => hc.front hmarked
  cases hse : se.structEncoding with
  | none =>
      have hcoded := hmode.resolve_left (by simp [← hencoding, hse])
      simp only [if_true, bind_assoc, pure_bind, bind_pure]
      exact hlist hcoded se
  | describedList =>
      have hcoded := hmode.resolve_left (by simp [← hencoding, hse])
      simp only [reduceCtorEq, if_false, bind_assoc, pure_bind, bind_pure]
      exact hlist hcoded se.popEncoding
  | describedMap =>
      have hcoded := hmode.resolve_left (by simp [← hencoding, hse])
      simp only [reduceCtorEq, if_false, bind_assoc, pure_bind, bind_pure]
      exact (closes_compound hcoded se.popEncoding .map8 .map32 (num * 2) marked).mono
        fun c hc => hc.front hmarked
  | describedBasic =>
      simp only [reduceCtorEq, if_false, Except.ok_bind, frontFits, hbuf hse, Nat.add_zero]
      exact .transparent ⟨rfl, hmarked⟩

/-- Nothing of a basic described value is buffered. -/
theorem fieldsLength_describedBasic {fields : List (FieldKey × Ser)} {se sz : SizeSerializer}
    (halike : fieldsAlike fields se sz) (hsz : sz.structEncoding = .describedBasic) :
    (fieldsLength fields se).2 = 0 := by
  induction fields generalizing se with
  | nil => simp only [fieldsLength]
  | cons field fields ih =>
      obtain ⟨key, v⟩ := field
      cases key with
      | descriptor =>
          simp only [fieldsAlike, Bool.and_eq_true] at halike
          simp only [fieldsLength]
          exact ih halike.2
      | name key =>
          simp only [fieldsAlike, Bool.and_eq_true, beq_iff_eq] at halike
          obtain ⟨hencoding, halike⟩ := halike
          have hse := hencoding.trans hsz
          simp only [hse, Bool.and_eq_true] at halike
          simp only [fieldsLength, hse]
          exact ih halike.2

theorem counted_struct {name : TypeName} {fields : List (FieldKey × Ser)}
    (ih : ∀ field ∈ fields, field.2.AlwaysCounted) {se sz : SizeSerializer}
    (halike : (Ser.struct name fields).flagsAlike se sz) :
    (Ser.struct name fields).Counted se sz := by
  intro writer
  simp only [flagsAlike] at halike
  have hcount : (Ser.struct name fields).count sz =
      countFields (sz.enterStruct name) fields >>= fun len => do
        let (n, _) ← structSize (sz.enterStruct name) len
        return n := by
    simp only [count, size, countFields, bind_assoc, pure_bind]
    cases hfields : sizeStructFields (sz.enterStruct name) fields with
    | error e => rfl
    | ok result =>
        obtain ⟨len, r⟩ := result
        obtain ⟨hencodings, hmode⟩ := sizeStructFields_keeps halike hfields
        have hencoding : r.structEncoding = (sz.enterStruct name).structEncoding := by
          simp only [SizeSerializer.structEncoding, hencodings]
        simp only [Except.ok_bind, structSize, hencoding, hmode]
        cases (sz.enterStruct name).structEncoding <;>
          simp only [bind_assoc, pure_bind, Except.ok_bind]
  obtain ⟨hencoding, hmode⟩ := fieldsAlike_end halike
  have hbasic := fieldsLength_describedBasic halike
  have hfields := counts_fields ih halike 0 writer []
  rw [hcount]
  simp only [serialize, wireLength, frontsFit, flagsAfter, Bool.and_eq_true]
  generalize fieldsFlagsAfter fields (se.enterStruct name) = flags at hencoding hmode hfields ⊢
  generalize fieldsLength fields (se.enterStruct name) = lengths at hbasic hfields ⊢
  obtain ⟨front, body⟩ := lengths
  refine hfields.close fun result hresult => ?_
  obtain ⟨⟨flags', marked⟩, num, buf⟩ := result
  obtain ⟨⟨hflags, hmarked⟩, hbuf⟩ := hresult
  obtain rfl : flags' = flags := hflags
  obtain rfl : buf.length = body := by simpa [Buffered] using hbuf
  exact closes_struct hencoding hmode num hmarked fun h => hbasic (hencoding.symm.trans h)

/-- Where the two serializers run alike, every value is counted as it is written. -/
theorem alwaysCounted (v : Ser) : v.AlwaysCounted := by
  induction v using Ser.induction with
  | leaf v hleaf =>
      intro se sz halike
      exact counted_leaf hleaf halike
  | some v ih =>
      intro se sz halike writer
      simp only [flagsAlike] at halike
      simp only [count, size_some, serialize_some, wireLength, frontsFit, flagsAfter]
      exact ih se sz halike writer
  | newtypeStruct name v ih =>
      intro se sz halike writer
      simp only [flagsAlike] at halike
      simp only [count, size, serialize, wireLength, frontsFit, flagsAfter]
      exact ih _ _ halike writer
  | newtypeVariant name index v ih =>
      intro se sz halike
      by_cases hname : name = .descriptor
      · subst hname
        exact counted_descriptor ih halike
      · exact counted_newtypeVariant hname ih halike
  | seq len vs ih =>
      intro se sz halike
      exact counted_seq ih halike
  | tuple vs ih =>
      intro se sz halike
      exact counted_tuple ih halike
  | tupleStruct name vs ih =>
      intro se sz halike
      exact counted_tupleStruct ih halike
  | map len entries ih =>
      intro se sz halike
      exact counted_map ih halike
  | struct name fields ih =>
      intro se sz halike
      exact counted_struct ih halike
  | variant index vs ih =>
      intro se sz halike
      exact counted_variant ih halike

end Ser

/-! ## The two entry points -/

/-- The serializer writes what the size serializer can count, and no more than the count. -/
theorem toVec_of_serializedSize {v : Ser} (halike : v.flagsAlike .new .new) {size : Nat}
    (hsize : serializedSize v = .ok size) : ∃ buf, toVec v = .ok buf ∧ buf.length ≤ size := by
  have hcounts := v.alwaysCounted .new .new halike []
  have hcount : v.count .new = .ok size := hsize
  cases hserialize : v.serialize ⟨.new, []⟩ with
  | error e =>
      obtain ⟨e', he'⟩ := hcounts.error e hserialize
      cases hcount.symm.trans he'
  | ok se =>
      refine ⟨se.writer, by simp only [toVec, Serializer.new, hserialize]; rfl, ?_⟩
      have hlength := (hcounts.written se hserialize).2
      rw [List.length_nil, Nat.zero_add] at hlength
      rw [hlength]
      exact hcounts.le se size hserialize hcount

/-- `serialized_size` is the number of bytes that `to_vec` returns, and one fails if the other does. -/
def SizesAgree (v : Ser) : Prop :=
  ∀ n, serializedSize v = .ok n ↔ ∃ bytes, toVec v = .ok bytes ∧ bytes.length = n

/-- The calls for a value of any type.  Where no part reads a flag on which the two serializers
differ, they agree if the bytes in front of the fields make no difference, and for a value that can be
encoded only then. -/
theorem sizesAgree_iff (v : Ser) (h : v.flagsAlike .new .new) :
    (v.frontsFit .new → SizesAgree v) ∧
      ∀ bytes, toVec v = .ok bytes → SizesAgree v → v.frontsFit .new := by
  have hcounts := v.alwaysCounted .new .new h []
  have hwritten {bytes : Bytes} (hbytes : toVec v = .ok bytes) :
      (serializedSize v = .ok bytes.length ↔ v.frontsFit .new) := by
    obtain ⟨se, hse, hpure⟩ := Except.bind_eq_ok.mp hbytes
    cases hpure
    have hlength := (hcounts.written se hse).2
    rw [List.length_nil, Nat.zero_add] at hlength
    rw [hlength]
    exact hcounts.exact se hse
  constructor
  · intro hfits n
    constructor
    · intro hn
      cases hbytes : toVec v with
      | error e =>
          have herror : v.serialize (Serializer.new []) = .error e := by
            cases hse : v.serialize (Serializer.new []) with
            | error e' =>
                rw [toVec, hse] at hbytes
                cases hbytes
                rfl
            | ok se =>
                rw [toVec, hse] at hbytes
                cases hbytes
          obtain ⟨e', he'⟩ := hcounts.error e herror
          cases he'.symm.trans hn
      | ok bytes =>
          have hsize := (hwritten hbytes).mpr hfits
          exact ⟨bytes, rfl, Except.ok.inj (hsize.symm.trans hn)⟩
    · rintro ⟨bytes, hbytes, rfl⟩
      exact (hwritten hbytes).mpr hfits
  · intro bytes hbytes hagree
    exact (hwritten hbytes).mp ((hagree bytes.length).mpr ⟨bytes, hbytes, rfl⟩)

/-- A described list with one field. -/
theorem described_sizesAgree :
    SizesAgree (.struct .describedList
      [(.descriptor, (Descriptor.code 0x24).toSer), (.name "a", .bool true)]) :=
  (sizesAgree_iff _ (by decide +kernel)).1 (by decide +kernel)

/-- The key of the entry leaves the flag of a timestamp, which only the serializer gives to the
value. -/
theorem map_sizes_differ :
    ¬SizesAgree (Value.map [(.timestamp 0, .string "a")]).toSer := by
  intro hagree
  have hsize : serializedSize (Value.map [(.timestamp 0, .string "a")]).toSer = .ok 15 := by
    decide +kernel
  obtain ⟨bytes, hbytes, -⟩ := (hagree 15).mp hsize
  have hpanic : toVec (Value.map [(.timestamp 0, .string "a")]).toSer = .error .panic := by
    decide +kernel
  cases hpanic.symm.trans hbytes

end Fe2o3Amqp
