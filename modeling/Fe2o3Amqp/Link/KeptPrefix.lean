import Fe2o3Amqp.Link.IncompleteTransfer
import Fe2o3Amqp.Link.Sections

/-!
# The prefix that a truncation keeps

`keep_buffer_till_section_number_and_offset` against the prefix that ends at the position it is given:
where the scan finds the position, and what the loop over the chunks leaves of them.
-/

namespace Fe2o3Amqp

/-! ## Positions -/

/-- The headers that start at `i` or before. -/
def headersTill (payload : Payload) (i : Nat) : List Nat := (sectionHeaders payload).filter (· ≤ i)

/-- The bytes have this section number and offset at `i`: so many headers start at `i` or before, the
last of them `offset` bytes before; with none of them the offset is that from the first byte. -/
def ReachedAt (payload : Payload) (sectionNumber offset i : Nat) : Prop :=
  i ≤ payload.length ∧ (headersTill payload i).length = sectionNumber ∧
    (headersTill payload i).getLast?.getD 0 + offset = i

instance (payload : Payload) (sectionNumber offset i : Nat) :
    Decidable (ReachedAt payload sectionNumber offset i) := instDecidableAnd

/-- The headers up to a position stay those of any later one, with more behind them. -/
theorem headersTill_prefix (payload : Payload) {i j : Nat} (h : i ≤ j) :
    headersTill payload i <+: headersTill payload j := by
  have hsorted := sectionHeaders_sorted payload
  rw [headersTill, headersTill]
  generalize sectionHeaders payload = headers at hsorted ⊢
  induction headers with
  | nil => exact List.prefix_rfl
  | cons header headers ih =>
      obtain ⟨hlater, hrest⟩ := List.pairwise_cons.mp hsorted
      by_cases hi : header ≤ i
      · have hj : header ≤ j := hi.trans h
        simp only [List.filter_cons, hi, hj, decide_true, if_true]
        exact (List.prefix_cons_inj header).mpr (ih hrest)
      · have hnone : (header :: headers).filter (· ≤ i) = [] := by
          apply List.filter_eq_nil_iff.mpr
          intro later hmem
          rcases List.mem_cons.mp hmem with rfl | hmem
          · simpa using hi
          · have := hlater later hmem
            simp only [decide_eq_true_eq]
            omega
        rw [hnone]
        exact List.nil_prefix

theorem headersTill_cons (b0 b1 b2 : UInt8) (rest : Bytes) (i : Nat) :
    headersTill (b0 :: b1 :: b2 :: rest) (i + 1) =
      (if isSectionHeader b0 b1 b2 then [0] else []) ++
        (headersTill (b1 :: b2 :: rest) i).map (· + 1) := by
  rw [headersTill, headersTill, sectionHeaders_cons, List.filter_append, List.filter_map]
  congr 1
  · split_ifs <;> rfl
  · congr 2
    funext header
    simp

theorem headersTill_zero (b0 b1 b2 : UInt8) (rest : Bytes) :
    headersTill (b0 :: b1 :: b2 :: rest) 0 = if isSectionHeader b0 b1 b2 then [0] else [] := by
  rw [headersTill, sectionHeaders_cons, List.filter_append, List.filter_map]
  have hlater : (sectionHeaders (b1 :: b2 :: rest)).filter ((fun i => decide (i ≤ 0)) ∘ (· + 1)) = [] := by
    apply List.filter_eq_nil_iff.mpr
    intro header _
    simp
  rw [hlater]
  split_ifs <;> rfl

namespace IncompleteTransfer

/-! ## The scan -/

/-- The counters of the scan at the byte `k` of what it has before it. -/
private def countersAt (curNumber : UInt32) (curOffset : UInt64) (bytes : Bytes) (k : Nat) :
    UInt32 × UInt64 :=
  (curNumber + UInt32.ofNat (headersTill bytes k).length,
    (headersTill bytes k).getLast?.elim (curOffset + UInt64.ofNat (k + 1)) fun header =>
      UInt64.ofNat (k - header))

private theorem countersAt_zero (curNumber : UInt32) (curOffset : UInt64) (b0 b1 b2 : UInt8)
    (rest : Bytes) :
    countersAt curNumber curOffset (b0 :: b1 :: b2 :: rest) 0 =
      (if isSectionHeader b0 b1 b2 then curNumber + 1 else curNumber,
        if isSectionHeader b0 b1 b2 then 0 else curOffset + 1) := by
  rw [countersAt, headersTill_zero]
  by_cases h : isSectionHeader b0 b1 b2 <;> simp [h]

private theorem countersAt_succ (curNumber : UInt32) (curOffset : UInt64) (b0 b1 b2 : UInt8)
    (rest : Bytes) (k : Nat) :
    countersAt curNumber curOffset (b0 :: b1 :: b2 :: rest) (k + 1) =
      countersAt (if isSectionHeader b0 b1 b2 then curNumber + 1 else curNumber)
        (if isSectionHeader b0 b1 b2 then 0 else curOffset + 1) (b1 :: b2 :: rest) k := by
  have hadd (a b : Nat) : UInt64.ofNat (a + b) = UInt64.ofNat a + UInt64.ofNat b := UInt64.ofNat_add a b
  rw [countersAt, countersAt, headersTill_cons]
  rcases List.eq_nil_or_concat (headersTill (b1 :: b2 :: rest) k) with hnil | ⟨front, header, hlast⟩
  · rw [hnil]
    by_cases h : isSectionHeader b0 b1 b2
    · simp [h]
    · simp [h, hadd, add_assoc, add_comm]
  · rw [hlast]
    by_cases h : isSectionHeader b0 b1 b2
    · have hshifted : (0 :: (front ++ [header]).map (· + 1)).getLast? = some (header + 1) := by
        rw [List.map_append, ← List.cons_append]
        exact List.getLast?_concat
      simp only [h, if_true, List.concat_eq_append, List.singleton_append, hshifted]
      simp [add_assoc, add_comm]
    · simp [h]

/-- The scan finds the first of the bytes at which its counters are those it looks for. -/
private theorem scan_eq (sectionNumber : UInt32) (sectionOffset : UInt64) (bytes : Bytes)
    (curNumber : UInt32) (curOffset : UInt64) (i : Nat) :
    positionOfSectionNumberAndOffset.scan sectionNumber sectionOffset curNumber curOffset i bytes =
      ((List.range (bytes.length - 2)).find? fun k =>
        countersAt curNumber curOffset bytes k = (sectionNumber, sectionOffset)).map (i + ·) := by
  induction bytes generalizing curNumber curOffset i with
  | nil => rfl
  | cons b0 bytes ih =>
      rcases bytes with _ | ⟨b1, _ | ⟨b2, bytes⟩⟩
      · rfl
      · rfl
      · have hlength : (b0 :: b1 :: b2 :: bytes).length - 2 = ((b1 :: b2 :: bytes).length - 2) + 1 := by
          simp
        have hshift (found : Option Nat) :
            found.map (i + 1 + ·) = (found.map Nat.succ).map (i + ·) := by
          cases found with
          | none => rfl
          | some k => exact congrArg some (Nat.add_right_comm i 1 k)
        rw [positionOfSectionNumberAndOffset.scan, hlength, List.range_succ_eq_map, List.find?_cons,
          countersAt_zero]
        simp only [Prod.mk.injEq]
        split_ifs with hheader hhere hhere
        · simp [hhere]
        · rw [ih, List.find?_map, hshift]
          simp [hhere, Function.comp_def, countersAt_succ, hheader]
        · simp [hhere]
        · rw [ih, List.find?_map, hshift]
          simp [hhere, Function.comp_def, countersAt_succ, hheader]

/-- Before the position the counters of the scan differ from those of the position.  As long as there is
no header they are one byte ahead. -/
private theorem countersAt_before {payload : Payload} {sectionNumber : UInt32} {sectionOffset : UInt64}
    {i k : Nat} (hreached : ReachedAt payload sectionNumber.toNat sectionOffset.toNat i) (hk : k < i)
    (hcounters : countersAt 0 0 payload k = (sectionNumber, sectionOffset)) :
    sectionNumber = 0 ∧ k + 1 = i := by
  obtain ⟨-, hnumber, hoffset⟩ := hreached
  have hbound : sectionNumber.toNat < 2 ^ 32 := sectionNumber.toNat_lt
  have hbound' : sectionOffset.toNat < 2 ^ 64 := sectionOffset.toNat_lt
  have hprefix := headersTill_prefix payload (Nat.le_of_lt hk)
  have hle := hprefix.length_le
  simp only [countersAt, UInt32.zero_add, UInt64.zero_add, Prod.mk.injEq] at hcounters
  obtain ⟨hcount, hsince⟩ := hcounters
  have hsame : headersTill payload k = headersTill payload i := by
    apply hprefix.eq_of_length
    have := congrArg UInt32.toNat hcount
    rw [UInt32.toNat_ofNat', Nat.mod_eq_of_lt (by omega)] at this
    omega
  rcases List.eq_nil_or_concat (headersTill payload i) with hnil | ⟨front, header, hlast⟩
  · rw [hsame, hnil] at hsince
    rw [hnil] at hoffset hnumber
    have := congrArg UInt64.toNat hsince
    simp only [List.getLast?_nil, Option.elim_none, Option.getD_none, Nat.zero_add] at this hoffset
    rw [UInt64.toNat_ofNat', Nat.mod_eq_of_lt (by omega)] at this
    exact ⟨UInt32.toNat_inj.mp hnumber.symm, by omega⟩
  · have hmem : header ∈ headersTill payload k := by
      rw [hsame, hlast]
      simp
    have hheader : header ≤ k := by simpa using (List.mem_filter.mp hmem).2
    rw [hsame, hlast] at hsince
    rw [hlast] at hoffset
    have := congrArg UInt64.toNat hsince
    simp only [List.concat_eq_append, List.getLast?_concat, Option.elim_some, Option.getD_some] at this hoffset
    rw [UInt64.toNat_ofNat', Nat.mod_eq_of_lt (by omega)] at this
    omega

private theorem countersAt_reached {payload : Payload} {sectionNumber : UInt32} {sectionOffset : UInt64}
    {i : Nat} (hreached : ReachedAt payload sectionNumber.toNat sectionOffset.toNat i)
    (hnumber : sectionNumber ≠ 0) : countersAt 0 0 payload i = (sectionNumber, sectionOffset) := by
  obtain ⟨-, hcount, hoffset⟩ := hreached
  rw [countersAt, hcount, UInt32.zero_add, UInt32.ofNat_toNat]
  rcases List.eq_nil_or_concat (headersTill payload i) with hnil | ⟨front, header, hlast⟩
  · rw [hnil] at hcount
    exact absurd (UInt32.toNat_inj.mp hcount.symm) hnumber
  · rw [hlast] at hoffset ⊢
    simp only [List.concat_eq_append, List.getLast?_concat, Option.elim_some, Option.getD_some] at hoffset ⊢
    rw [← hoffset, Nat.add_sub_cancel_left, UInt64.ofNat_toNat]

private theorem countersAt_pred {payload : Payload} {sectionOffset : UInt64} {i : Nat}
    (hreached : ReachedAt payload 0 sectionOffset.toNat (i + 1)) :
    countersAt 0 0 payload i = (0, sectionOffset) := by
  obtain ⟨-, hcount, hoffset⟩ := hreached
  have hnil := List.length_eq_zero_iff.mp hcount
  have hbefore : headersTill payload i = [] :=
    List.prefix_nil.mp (hnil ▸ headersTill_prefix payload (Nat.le_succ i))
  rw [hnil] at hoffset
  simp only [List.getLast?_nil, Option.getD_none, Nat.zero_add] at hoffset
  rw [countersAt, hbefore]
  simp [← hoffset]

/-! ## What the scan finds -/

variable {incomplete : IncompleteTransfer} {sectionNumber : UInt32} {sectionOffset : UInt64} {i : Nat}

private theorem position_eq (incomplete : IncompleteTransfer) (sectionNumber : UInt32)
    (sectionOffset : UInt64) :
    incomplete.positionOfSectionNumberAndOffset sectionNumber sectionOffset =
      (List.range (incomplete.buffer.flatten.length - 2)).find? fun k =>
        countersAt 0 0 incomplete.buffer.flatten k = (sectionNumber, sectionOffset) := by
  rw [positionOfSectionNumberAndOffset, scan_eq]
  simp

/-- A position in a section is found where it is, unless a header would not fit behind it. -/
theorem position_of_reachedAt
    (hreached : ReachedAt incomplete.buffer.flatten sectionNumber.toNat sectionOffset.toNat i)
    (hnumber : sectionNumber ≠ 0) :
    incomplete.positionOfSectionNumberAndOffset sectionNumber sectionOffset =
      if i + 3 ≤ incomplete.buffer.flatten.length then some i else none := by
  rw [position_eq]
  split_ifs with hfits
  · rw [List.find?_range_eq_some]
    refine ⟨by simpa using countersAt_reached hreached hnumber, by rw [List.mem_range]; omega, ?_⟩
    intro k hk
    simp only [Bool.not_eq_true', decide_eq_false_iff_not]
    intro hcounters
    exact hnumber (countersAt_before hreached hk hcounters).1
  · rw [List.find?_range_eq_none]
    intro k hk
    simp only [Bool.not_eq_true', decide_eq_false_iff_not]
    intro hcounters
    exact hnumber (countersAt_before hreached (by omega) hcounters).1

/-- Before the first header a position is found at the byte before it. -/
theorem position_before_sections
    (hreached : ReachedAt incomplete.buffer.flatten 0 sectionOffset.toNat (i + 1)) :
    incomplete.positionOfSectionNumberAndOffset 0 sectionOffset =
      if i + 3 ≤ incomplete.buffer.flatten.length then some i else none := by
  have hreached' : ReachedAt incomplete.buffer.flatten (0 : UInt32).toNat sectionOffset.toNat (i + 1) :=
    hreached
  rw [position_eq]
  split_ifs with hfits
  · rw [List.find?_range_eq_some]
    refine ⟨by simpa using countersAt_pred hreached, by rw [List.mem_range]; omega, ?_⟩
    intro k hk
    simp only [Bool.not_eq_true', decide_eq_false_iff_not]
    intro hcounters
    have := (countersAt_before hreached' (by omega) hcounters).2
    omega
  · rw [List.find?_range_eq_none]
    intro k hk
    simp only [Bool.not_eq_true', decide_eq_false_iff_not]
    intro hcounters
    have := (countersAt_before hreached' (by omega) hcounters).2
    omega

/-- The first byte of all is not found, as no section begins there. -/
theorem position_start_ne_zero (hreached : ReachedAt incomplete.buffer.flatten 0 0 0) :
    incomplete.positionOfSectionNumberAndOffset 0 0 ≠ some 0 := by
  rw [position_eq]
  intro hfound
  have hcounters := (List.find?_range_eq_some.mp hfound).1
  rw [decide_eq_true_eq, countersAt, List.length_eq_zero_iff.mp hreached.2.1] at hcounters
  exact absurd (congrArg Prod.snd hcounters) (by decide)

/-! ## What the loop keeps -/

theorem keepChunks_zero (chunks : List Payload) : (keepChunks 0 chunks).flatten = [] := by
  induction chunks with
  | nil => rfl
  | cons chunk chunks ih => simpa [keepChunks] using ih

/-- Bytes are left as long as the index is not zero. -/
theorem keepChunks_eq_nil {index : Nat} (hindex : 0 < index) (chunks : List Payload) :
    (keepChunks index chunks).flatten = [] ↔ chunks.flatten = [] := by
  induction chunks generalizing index with
  | nil => simp [keepChunks]
  | cons chunk chunks ih =>
      rw [keepChunks]
      split_ifs with hshort
      · rw [List.flatten_cons, List.flatten_cons, List.append_eq_nil_iff, List.append_eq_nil_iff,
          ih (by omega)]
      · have hlength : 0 < chunk.length := by omega
        have hchunk : chunk ≠ [] := List.length_pos_iff.mp hlength
        simp [hchunk, Nat.ne_of_gt hindex]

/-- One byte is left of chunks of which one has bytes, if that is its only one or the index is one. -/
theorem keepChunks_eq_singleton {index : Nat} (hindex : 0 < index) (chunks : List Payload)
    (byte : UInt8) :
    (keepChunks index chunks).flatten = [byte] ↔
      ∃ more, chunks.filter (· ≠ []) = [byte :: more] ∧ (more = [] ∨ index = 1) := by
  induction chunks generalizing index with
  | nil => simp [keepChunks]
  | cons chunk chunks ih =>
      have hrest : chunks.filter (· ≠ []) = [] ↔ chunks.flatten = [] := by
        rw [List.filter_eq_nil_iff, List.flatten_eq_nil_iff]
        simp
      rw [keepChunks]
      cases chunk with
      | nil =>
          have hshort : ([] : Payload).length < index := hindex
          rw [if_pos hshort]
          simpa using ih hindex
      | cons first more =>
          have hfilter : ((first :: more) :: chunks).filter (· ≠ []) =
              (first :: more) :: chunks.filter (· ≠ []) := rfl
          simp only [hfilter, List.cons.injEq, hrest]
          split_ifs with hshort
          · rw [List.flatten_cons, List.cons_append, List.cons.injEq, List.append_eq_nil_iff,
              keepChunks_eq_nil (Nat.sub_pos_of_lt hshort)]
            simp only [List.length_cons] at hshort
            constructor
            · rintro ⟨rfl, rfl, hnil⟩
              exact ⟨[], ⟨⟨rfl, rfl⟩, hnil⟩, .inl rfl⟩
            · rintro ⟨_, ⟨⟨rfl, rfl⟩, hnil⟩, hmore | hone⟩
              · exact ⟨rfl, hmore, hnil⟩
              · omega
          · obtain ⟨index, rfl⟩ := Nat.exists_eq_add_one.mpr hindex
            rw [List.flatten_cons, List.take_succ_cons, List.cons_append, List.cons.injEq,
              List.append_eq_nil_iff, keepChunks_eq_nil index.succ_pos, List.take_eq_nil_iff, or_comm,
              ← Nat.add_eq_right (a := index) (b := 1)]
            constructor
            · rintro ⟨rfl, hmore, hnil⟩
              exact ⟨more, ⟨⟨rfl, rfl⟩, hnil⟩, hmore⟩
            · rintro ⟨_, ⟨⟨rfl, rfl⟩, hnil⟩, hmore⟩
              exact ⟨rfl, hmore, hnil⟩

/-- The index falls into this chunk, behind its first byte. -/
def FallsInto (index : Nat) (chunks front : List Payload) (chunk : Payload) (behind : List Payload) :
    Prop :=
  chunks = front ++ chunk :: behind ∧ front.flatten.length < index ∧
    index ≤ front.flatten.length + chunk.length

theorem exists_fallsInto {index : Nat} (hindex : 0 < index) {chunks : List Payload}
    (hle : index ≤ chunks.flatten.length) :
    ∃ front chunk behind, FallsInto index chunks front chunk behind := by
  induction chunks generalizing index with
  | nil => exact absurd (hindex.trans_le hle) (Nat.lt_irrefl 0)
  | cons chunk chunks ih =>
      by_cases hchunk : index ≤ chunk.length
      · exact ⟨[], chunk, chunks, rfl, hindex, by simpa using hchunk⟩
      · rw [List.flatten_cons, List.length_append] at hle
        obtain ⟨front, next, behind, rfl, hfront, hnext⟩ :=
          @ih (index - chunk.length) (by omega) (by omega)
        refine ⟨chunk :: front, next, behind, rfl, ?_, ?_⟩
        · rw [List.flatten_cons, List.length_append]
          omega
        · rw [List.flatten_cons, List.length_append]
          omega

/-- The chunks up to the one that the index falls into are cut at the index.  The loop goes on with the
chunks behind, and what is left of the index. -/
theorem FallsInto.keepChunks {index : Nat} {chunks front behind : List Payload} {chunk : Payload}
    (h : FallsInto index chunks front chunk behind) :
    (keepChunks index chunks).flatten =
      chunks.flatten.take index ++
        (IncompleteTransfer.keepChunks (index - front.flatten.length) behind).flatten := by
  obtain ⟨rfl, hfront, hchunk⟩ := h
  induction front generalizing index with
  | nil =>
      simp only [List.flatten_nil, List.length_nil, Nat.zero_add] at hchunk
      rw [List.nil_append, IncompleteTransfer.keepChunks, if_neg (by omega), List.flatten_cons,
        List.flatten_cons, List.take_append_of_le_length hchunk]
      rfl
  | cons first front ih =>
      rw [List.flatten_cons, List.length_append] at hfront hchunk
      have hrest := @ih (index - first.length) (by omega) (by omega)
      have hshort : first.length < index := by omega
      have hindex : index - (first ++ front.flatten).length =
          index - first.length - front.flatten.length := by
        rw [List.length_append]
        omega
      rw [List.cons_append, IncompleteTransfer.keepChunks, if_pos hshort, List.flatten_cons, hrest,
        List.flatten_cons, List.flatten_cons, List.take_append, hindex,
        List.take_of_length_le (Nat.le_of_lt hshort), List.append_assoc]

/-- The position is the end of the bytes; or it is in a section, a header would fit behind it, and it is
the first byte of all or no chunk behind the one it falls into has bytes; or no section has begun, a
header would fit behind the byte before the position, and the one chunk with bytes behind the one which
that byte's index falls into makes up for it. -/
def CutsAt (chunks : List Payload) (sectionNumber : UInt32) (i : Nat) : Prop :=
  i = chunks.flatten.length ∨
    (sectionNumber ≠ 0 ∧ i + 3 ≤ chunks.flatten.length ∧
      (i = 0 ∨ ∃ front chunk behind, FallsInto i chunks front chunk behind ∧ behind.flatten = [])) ∨
    (sectionNumber = 0 ∧ i + 2 ≤ chunks.flatten.length ∧
      ∃ front chunk behind byte more, FallsInto (i - 1) chunks front chunk behind ∧
        chunks.flatten[i - 1]? = some byte ∧ behind.filter (· ≠ []) = [byte :: more] ∧
          (more = [] ∨ i - 1 - front.flatten.length = 1))

theorem FallsInto.unique {index : Nat} {chunks front front' behind behind' : List Payload}
    {chunk chunk' : Payload} (h : FallsInto index chunks front chunk behind)
    (h' : FallsInto index chunks front' chunk' behind') :
    front = front' ∧ chunk = chunk' ∧ behind = behind' := by
  obtain ⟨rfl, hfront, hchunk⟩ := h
  obtain ⟨hchunks, hfront', hchunk'⟩ := h'
  induction front generalizing index front' with
  | nil =>
      cases front' with
      | nil => simpa using hchunks
      | cons first front' =>
          simp only [List.nil_append, List.cons_append, List.cons.injEq] at hchunks
          obtain ⟨rfl, -⟩ := hchunks
          simp only [List.flatten_nil, List.flatten_cons, List.length_nil, List.length_append] at *
          omega
  | cons first front ih =>
      cases front' with
      | nil =>
          simp only [List.nil_append, List.cons_append, List.cons.injEq] at hchunks
          obtain ⟨rfl, -⟩ := hchunks
          simp only [List.flatten_nil, List.flatten_cons, List.length_nil, List.length_append] at *
          omega
      | cons first' front' =>
          simp only [List.cons_append, List.cons.injEq] at hchunks
          obtain ⟨rfl, hchunks⟩ := hchunks
          rw [List.flatten_cons, List.length_append] at hfront hchunk hfront' hchunk'
          have hrest := @ih (index - first.length) front' (by omega) (by omega) hchunks (by omega) (by omega)
          simpa using hrest

/-- Cut where the position is, the bytes up to it are left if nothing is left behind the chunk. -/
private theorem keepChunks_eq_take {chunks : List Payload} (hle : i ≤ chunks.flatten.length) :
    (keepChunks i chunks).flatten = chunks.flatten.take i ↔
      i = 0 ∨ ∃ front chunk behind, FallsInto i chunks front chunk behind ∧ behind.flatten = [] := by
  rcases Nat.eq_zero_or_pos i with rfl | hpos
  · simp [keepChunks_zero]
  · obtain ⟨front, chunk, behind, hfalls⟩ := exists_fallsInto hpos hle
    have hleft : 0 < i - front.flatten.length := Nat.sub_pos_of_lt hfalls.2.1
    rw [hfalls.keepChunks, List.append_right_eq_self, keepChunks_eq_nil hleft]
    constructor
    · intro hnil
      exact .inr ⟨front, chunk, behind, hfalls, hnil⟩
    · rintro (rfl | ⟨front', chunk', behind', hfalls', hnil⟩)
      · exact absurd hpos (Nat.lt_irrefl 0)
      · obtain ⟨-, -, rfl⟩ := hfalls.unique hfalls'
        exact hnil

/-- Cut one byte before the position, the bytes up to it are left if the chunks behind leave that
byte. -/
private theorem keepChunks_eq_take_succ {chunks : List Payload} (hlt : i < chunks.flatten.length) :
    (keepChunks i chunks).flatten = chunks.flatten.take (i + 1) ↔
      ∃ front chunk behind byte more, FallsInto i chunks front chunk behind ∧
        chunks.flatten[i]? = some byte ∧ behind.filter (· ≠ []) = [byte :: more] ∧
          (more = [] ∨ i - front.flatten.length = 1) := by
  rw [← List.take_append_getElem hlt]
  rcases Nat.eq_zero_or_pos i with rfl | hpos
  · rw [keepChunks_zero]
    constructor
    · intro h
      simp at h
    · rintro ⟨front, -, -, -, -, ⟨-, hfront, -⟩, -⟩
      exact absurd hfront (Nat.not_lt_zero _)
  · obtain ⟨front, chunk, behind, hfalls⟩ := exists_fallsInto hpos (Nat.le_of_lt hlt)
    have hleft : 0 < i - front.flatten.length := Nat.sub_pos_of_lt hfalls.2.1
    rw [hfalls.keepChunks, List.append_cancel_left_eq, keepChunks_eq_singleton hleft,
      List.getElem?_eq_getElem hlt]
    constructor
    · rintro ⟨more, hbehind, hmore⟩
      exact ⟨front, chunk, behind, _, more, hfalls, rfl, hbehind, hmore⟩
    · rintro ⟨front', chunk', behind', byte, more, hfalls', hbyte, hbehind, hmore⟩
      obtain ⟨rfl, -, rfl⟩ := hfalls.unique hfalls'
      cases hbyte
      exact ⟨more, hbehind, hmore⟩

/-- A truncation keeps the prefix that ends at its position where `CutsAt` says. -/
theorem keepBufferTillSectionNumberAndOffset_iff (incomplete : IncompleteTransfer)
    (sectionNumber : UInt32) (sectionOffset : UInt64) (i : Nat)
    (hreached : ReachedAt incomplete.buffer.flatten sectionNumber.toNat sectionOffset.toNat i) :
    (incomplete.keepBufferTillSectionNumberAndOffset sectionNumber sectionOffset).buffer.flatten =
        incomplete.buffer.flatten.take i ↔
      CutsAt incomplete.buffer sectionNumber i := by
  have hle : i ≤ incomplete.buffer.flatten.length := hreached.1
  have hkept : (incomplete.keepBufferTillSectionNumberAndOffset sectionNumber sectionOffset).buffer =
      (incomplete.positionOfSectionNumberAndOffset sectionNumber sectionOffset).elim incomplete.buffer
        (keepChunks · incomplete.buffer) := by
    rw [keepBufferTillSectionNumberAndOffset]
    cases incomplete.positionOfSectionNumberAndOffset sectionNumber sectionOffset <;> rfl
  -- what is not found is kept whole
  have hwhole : incomplete.buffer.flatten = incomplete.buffer.flatten.take i ↔
      i = incomplete.buffer.flatten.length := by
    rw [eq_comm, List.take_eq_self_iff]
    omega
  rw [hkept, CutsAt]
  by_cases hnumber : sectionNumber = 0
  · subst hnumber
    cases i with
    | zero =>
        have hoffset : sectionOffset = 0 := by
          have hzero := hreached.2.2
          exact UInt64.toNat_inj.mp (by simpa using (Nat.add_eq_zero_iff.mp hzero).2)
        subst hoffset
        have hpositive := position_start_ne_zero hreached
        have hshort : ¬ ∃ front chunk behind byte more,
            FallsInto (0 - 1) incomplete.buffer front chunk behind ∧
              incomplete.buffer.flatten[0 - 1]? = some byte ∧ behind.filter (· ≠ []) = [byte :: more] ∧
                (more = [] ∨ 0 - 1 - front.flatten.length = 1) := by
          rintro ⟨front, -, -, -, -, ⟨-, hfront, -⟩, -⟩
          exact absurd hfront (Nat.not_lt_zero _)
        simp only [hshort, and_false, or_false, ne_eq, not_true, false_and]
        cases hposition : incomplete.positionOfSectionNumberAndOffset 0 0 with
        | none => exact hwhole
        | some index =>
            have hindex : 0 < index := by
              apply Nat.pos_of_ne_zero
              rintro rfl
              exact hpositive hposition
            rw [Option.elim_some, List.take_zero, keepChunks_eq_nil hindex, eq_comm (a := 0),
              List.length_eq_zero_iff]
    | succ i =>
        rw [position_before_sections hreached]
        simp only [ne_eq, not_true, false_and, false_or, true_and, Nat.add_sub_cancel]
        split_ifs with hfits
        · rw [Option.elim_some, keepChunks_eq_take_succ (by omega)]
          constructor
          · intro h
            exact .inr ⟨hfits, h⟩
          · rintro (hend | ⟨-, h⟩)
            · omega
            · exact h
        · rw [Option.elim_none, hwhole]
          constructor
          · exact .inl
          · rintro (hend | ⟨hfits', -⟩)
            · exact hend
            · exact absurd hfits' hfits
  · rw [position_of_reachedAt hreached hnumber]
    simp only [hnumber, ne_eq, not_false_eq_true, true_and, false_and, or_false]
    split_ifs with hfits
    · rw [Option.elim_some, keepChunks_eq_take hle]
      constructor
      · intro h
        exact .inr ⟨hfits, h⟩
      · rintro (hend | ⟨-, h⟩)
        · omega
        · exact h
    · rw [Option.elim_none, hwhole]
      constructor
      · exact .inl
      · rintro (hend | ⟨hfits', -⟩)
        · exact hend
        · exact absurd hfits' hfits

/-- A value section of eight bytes that has arrived in two frames. -/
private def inTwoFrames : IncompleteTransfer where
  performative :=
    { handle := 0
      deliveryId := some 0
      deliveryTag := some [1]
      messageFormat := some 0
      settled := some false
      more := true
      rcvSettleMode := none
      state := none
      resume := false
      aborted := false
      batchable := false }
  deliveryTag := [1]
  buffer := [[0x00, 0x53, 0x77, 0xa0], [0x03, 0x61, 0x62, 0x63]]
  sectionNumber := 1
  sectionOffset := 8
  accumulatedPayloadSize := 8

/-- In the second frame the truncation keeps the prefix. -/
theorem keepBuffer_second_frame :
    (inTwoFrames.keepBufferTillSectionNumberAndOffset 1 5).buffer.flatten =
      inTwoFrames.buffer.flatten.take 5 := by
  refine (keepBufferTillSectionNumberAndOffset_iff inTwoFrames 1 5 5 (by decide)).mpr ?_
  refine .inr (.inl ⟨by decide, by decide, .inr ?_⟩)
  exact ⟨[[0x00, 0x53, 0x77, 0xa0]], [0x03, 0x61, 0x62, 0x63], [], ⟨rfl, by decide, by decide⟩, rfl⟩

/-- In the first frame it keeps bytes of the second one behind the prefix, and two bytes before the end
it keeps them all. -/
theorem keepBuffer_first_frame :
    ReachedAt inTwoFrames.buffer.flatten 1 2 2 ∧
      (inTwoFrames.keepBufferTillSectionNumberAndOffset 1 2).buffer.flatten ≠
        inTwoFrames.buffer.flatten.take 2 ∧
      ReachedAt inTwoFrames.buffer.flatten 1 6 6 ∧
      (inTwoFrames.keepBufferTillSectionNumberAndOffset 1 6).buffer.flatten ≠
        inTwoFrames.buffer.flatten.take 6 := by
  decide

end IncompleteTransfer

end Fe2o3Amqp
