import Fe2o3Amqp.Link.Resumption

/-!
# Positions in a payload

The bytes of a payload that look like section headers, a section number and an offset as a position
among them, and what the scan of a resuming sender finds.
-/

namespace Fe2o3Amqp

/-! ## Section headers -/

theorem sectionHeaders_cons (b0 b1 b2 : UInt8) (bytes : Bytes) :
    sectionHeaders (b0 :: b1 :: b2 :: bytes) =
      (if isSectionHeader b0 b1 b2 then [0] else []) ++
        (sectionHeaders (b1 :: b2 :: bytes)).map (· + 1) := by
  have hshift : ∀ (header : (UInt8 × UInt8 × UInt8) × Nat → Option Nat),
      (∀ triple i, header (triple, i + 1) = (header (triple, i)).map (· + 1)) →
      ∀ triples : List (UInt8 × UInt8 × UInt8), (triples.zipIdx 1).filterMap header =
        (triples.zipIdx.filterMap header).map (· + 1) := by
    intro header hheader triples
    rw [List.zipIdx_succ, List.filterMap_map, List.map_filterMap]
    congr 1
    funext triple
    exact hheader triple.1 triple.2
  simp only [sectionHeaders, List.drop_succ_cons, List.drop_zero, List.zip_cons_cons,
    List.zipIdx_cons, Nat.zero_add, List.filterMap_cons]
  rw [hshift]
  · by_cases h : isSectionHeader b0 b1 b2 <;> simp [h]
  · rintro ⟨b0, b1, b2⟩ i
    by_cases h : isSectionHeader b0 b1 b2 <;> simp [h]

/-- A header lies within the bytes. -/
theorem sectionHeaders_lt {bytes : Bytes} {i : Nat} (h : i ∈ sectionHeaders bytes) :
    i + 3 ≤ bytes.length := by
  induction bytes generalizing i with
  | nil => cases h
  | cons b0 bytes ih =>
      rcases bytes with _ | ⟨b1, _ | ⟨b2, bytes⟩⟩
      · cases h
      · cases h
      · rw [sectionHeaders_cons, List.mem_append, List.mem_map] at h
        rcases h with h | ⟨j, hj, rfl⟩
        · split_ifs at h
          · rw [List.mem_singleton] at h
            simp [h]
          · cases h
        · have hlt := ih hj
          simp only [List.length_cons] at hlt ⊢
          omega

theorem sectionHeaders_sorted (bytes : Bytes) : (sectionHeaders bytes).Pairwise (· < ·) := by
  induction bytes with
  | nil => exact .nil
  | cons b0 bytes ih =>
      rcases bytes with _ | ⟨b1, _ | ⟨b2, bytes⟩⟩
      · exact .nil
      · exact .nil
      · rw [sectionHeaders_cons, List.pairwise_append]
        refine ⟨?_, ?_, ?_⟩
        · split_ifs
          · exact List.pairwise_singleton _ _
          · exact .nil
        · exact ih.map _ fun i j hlt => Nat.succ_lt_succ hlt
        · intro i hi j hj
          obtain ⟨k, -, rfl⟩ := List.mem_map.mp hj
          split_ifs at hi
          · rw [List.mem_singleton.mp hi]
            exact Nat.succ_pos k
          · cases hi

/-! ## Section numbers and offsets -/

/-- The bytes of the section with this number, the first being zero, have this offset at `i`: no
section starts in between, and a whole header would fit at `i`. -/
def PointsAt (payload : Payload) (sectionNumber offset i : Nat) : Prop :=
  i + 3 ≤ payload.length ∧ ∃ start, (sectionHeaders payload)[sectionNumber]? = some start ∧
    start + offset = i ∧ ∀ header ∈ sectionHeaders payload, header ≤ i → header ≤ start

instance (payload : Payload) (sectionNumber offset i : Nat) :
    Decidable (PointsAt payload sectionNumber offset i) :=
  decidable_of_iff
    (i + 3 ≤ payload.length ∧ ∃ start ∈ (sectionHeaders payload)[sectionNumber]?,
      start + offset = i ∧ ∀ header ∈ sectionHeaders payload, header ≤ i → header ≤ start)
    Iff.rfl

theorem PointsAt.unique {payload : Payload} {sectionNumber offset i j : Nat}
    (hi : PointsAt payload sectionNumber offset i) (hj : PointsAt payload sectionNumber offset j) :
    i = j := by
  obtain ⟨-, start, hstart, rfl, -⟩ := hi
  obtain ⟨-, start', hstart', rfl, -⟩ := hj
  rw [hstart] at hstart'
  cases hstart'
  rfl

/-- Where a scan that has counted some sections already stands after `i` more bytes. -/
private def Scanned (sectionCounter : Option Nat) (sinceSection : Nat) (headers : List Nat)
    (sectionNumber offset i : Nat) : Prop :=
  (sectionCounter = some sectionNumber ∧ sinceSection + i = offset ∧ ∀ header ∈ headers, i < header) ∨
    ∃ n start, headers[n]? = some start ∧ sectionCounter.elim 0 (· + 1) + n = sectionNumber ∧
      start + offset = i ∧ ∀ header ∈ headers, header ≤ i → header ≤ start

private theorem scanned_zero_header {sectionCounter : Option Nat} {sinceSection : Nat}
    {headers : List Nat} {sectionNumber offset : Nat} :
    Scanned sectionCounter sinceSection (0 :: headers.map (· + 1)) sectionNumber offset 0 ↔
      sectionCounter.elim 0 (· + 1) = sectionNumber ∧ 0 = offset := by
  constructor
  · rintro (⟨-, -, h⟩ | ⟨n, start, hstart, hnumber, hoffset, -⟩)
    · exact absurd (h 0 List.mem_cons_self) (Nat.lt_irrefl 0)
    · cases n with
      | zero => exact ⟨hnumber, by omega⟩
      | succ n =>
          simp only [List.getElem?_cons_succ, List.getElem?_map, Option.map_eq_some_iff] at hstart
          obtain ⟨start', -, rfl⟩ := hstart
          omega
  · rintro ⟨hnumber, rfl⟩
    exact .inr ⟨0, 0, rfl, hnumber, rfl, fun _ _ h => h⟩

private theorem scanned_succ_header {sectionCounter : Option Nat} {sinceSection : Nat}
    {headers : List Nat} {sectionNumber offset i : Nat} :
    Scanned sectionCounter sinceSection (0 :: headers.map (· + 1)) sectionNumber offset (i + 1) ↔
      Scanned (some (sectionCounter.elim 0 (· + 1))) 1 headers sectionNumber offset i := by
  constructor
  · rintro (⟨-, -, h⟩ | ⟨n, start, hstart, hnumber, hoffset, hlast⟩)
    · exact absurd (h 0 List.mem_cons_self) (Nat.not_lt_zero _)
    · simp only [List.mem_cons, List.mem_map, forall_eq_or_imp, forall_exists_index, and_imp,
        forall_apply_eq_imp_iff₂] at hlast
      cases n with
      | zero =>
          cases hstart
          left
          refine ⟨by simp [← hnumber], by omega, fun header hmem => ?_⟩
          have := hlast.2 header hmem
          omega
      | succ n =>
          simp only [List.getElem?_cons_succ, List.getElem?_map, Option.map_eq_some_iff] at hstart
          obtain ⟨start', hstart', rfl⟩ := hstart
          right
          refine ⟨n, start', hstart', by simp only [Option.elim_some]; omega, by omega, ?_⟩
          intro header hmem hle
          have := hlast.2 header hmem
          omega
  · rintro (⟨hnumber, hoffset, h⟩ | ⟨n, start, hstart, hnumber, hoffset, hlast⟩)
    · right
      refine ⟨0, 0, rfl, ?_, by omega, ?_⟩
      · simpa using hnumber
      · intro header hmem hle
        rcases List.mem_cons.mp hmem with rfl | hmem
        · exact Nat.le_refl 0
        · obtain ⟨header', hmem', rfl⟩ := List.mem_map.mp hmem
          have := h header' hmem'
          omega
    · right
      refine ⟨n + 1, start + 1, by simp [hstart], ?_, by omega, ?_⟩
      · simp only [Option.elim_some] at hnumber
        omega
      · intro header hmem hle
        rcases List.mem_cons.mp hmem with rfl | hmem
        · exact Nat.zero_le _
        · obtain ⟨header', hmem', rfl⟩ := List.mem_map.mp hmem
          have := hlast header' hmem'
          omega

private theorem scanned_zero {sectionCounter : Option Nat} {sinceSection : Nat}
    {headers : List Nat} {sectionNumber offset : Nat} :
    Scanned sectionCounter sinceSection (headers.map (· + 1)) sectionNumber offset 0 ↔
      sectionCounter = some sectionNumber ∧ sinceSection = offset := by
  constructor
  · rintro (⟨hnumber, hoffset, -⟩ | ⟨n, start, hstart, -, hoffset, -⟩)
    · exact ⟨hnumber, hoffset⟩
    · simp only [List.getElem?_map, Option.map_eq_some_iff] at hstart
      obtain ⟨start', -, rfl⟩ := hstart
      omega
  · rintro ⟨hnumber, hoffset⟩
    exact .inl ⟨hnumber, hoffset, by simp⟩

private theorem scanned_succ {sectionCounter : Option Nat} {sinceSection : Nat}
    {headers : List Nat} {sectionNumber offset i : Nat} :
    Scanned sectionCounter sinceSection (headers.map (· + 1)) sectionNumber offset (i + 1) ↔
      Scanned sectionCounter (sinceSection + 1) headers sectionNumber offset i := by
  constructor
  · rintro (⟨hnumber, hoffset, h⟩ | ⟨n, start, hstart, hnumber, hoffset, hlast⟩)
    · refine .inl ⟨hnumber, by omega, fun header hmem => ?_⟩
      have := h (header + 1) (List.mem_map_of_mem hmem)
      omega
    · simp only [List.getElem?_map, Option.map_eq_some_iff] at hstart
      obtain ⟨start', hstart', rfl⟩ := hstart
      refine .inr ⟨n, start', hstart', hnumber, by omega, fun header hmem hle => ?_⟩
      have := hlast (header + 1) (List.mem_map_of_mem hmem)
      omega
  · rintro (⟨hnumber, hoffset, h⟩ | ⟨n, start, hstart, hnumber, hoffset, hlast⟩)
    · refine .inl ⟨hnumber, by omega, fun header hmem => ?_⟩
      obtain ⟨header', hmem', rfl⟩ := List.mem_map.mp hmem
      have := h header' hmem'
      omega
    · refine .inr ⟨n, start + 1, by simp [hstart], hnumber, by omega, fun header hmem hle => ?_⟩
      obtain ⟨header', hmem', rfl⟩ := List.mem_map.mp hmem
      have := hlast header' hmem'
      omega

/-- A scan that has reached the section and the offset does not reach them again. -/
private theorem not_scanned_later {sectionNumber offset : Nat} {headers : List Nat} {i : Nat} :
    ¬ Scanned (some sectionNumber) (offset + 1) headers sectionNumber offset i := by
  rintro (⟨-, hoffset, -⟩ | ⟨n, start, -, hnumber, -⟩)
  · omega
  · simp only [Option.elim_some] at hnumber
    omega

private theorem scan_iff (sectionNumber offset : Nat) (payload : Payload)
    (sectionCounter : Option Nat) (sinceSection : Nat) (remaining : Payload) :
    splitOffAtSectionAndOffset.scan sectionNumber offset sectionCounter sinceSection payload =
        some remaining ↔
      ∃ i, i + 3 ≤ payload.length ∧
        Scanned sectionCounter sinceSection (sectionHeaders payload) sectionNumber offset i ∧
        remaining = payload.drop i := by
  induction payload generalizing sectionCounter sinceSection with
  | nil => simp [splitOffAtSectionAndOffset.scan]
  | cons b0 payload ih =>
      rcases payload with _ | ⟨b1, _ | ⟨b2, payload⟩⟩
      · simp [splitOffAtSectionAndOffset.scan]
      · simp [splitOffAtSectionAndOffset.scan]
      · -- the position is here, or it is found behind
        have hsplit : (∃ i, i + 3 ≤ (b0 :: b1 :: b2 :: payload).length ∧
            Scanned sectionCounter sinceSection (sectionHeaders (b0 :: b1 :: b2 :: payload))
              sectionNumber offset i ∧ remaining = (b0 :: b1 :: b2 :: payload).drop i) ↔
            (Scanned sectionCounter sinceSection (sectionHeaders (b0 :: b1 :: b2 :: payload))
              sectionNumber offset 0 ∧ remaining = b0 :: b1 :: b2 :: payload) ∨
            ∃ i, i + 3 ≤ (b1 :: b2 :: payload).length ∧
              Scanned sectionCounter sinceSection (sectionHeaders (b0 :: b1 :: b2 :: payload))
                sectionNumber offset (i + 1) ∧ remaining = (b1 :: b2 :: payload).drop i := by
          constructor
          · rintro ⟨_ | i, hlen, hscanned, hremaining⟩
            · exact .inl ⟨hscanned, hremaining⟩
            · exact .inr ⟨i, by simp only [List.length_cons] at hlen ⊢; omega, hscanned, hremaining⟩
          · rintro (⟨hscanned, hremaining⟩ | ⟨i, hlen, hscanned, hremaining⟩)
            · exact ⟨0, by simp, hscanned, hremaining⟩
            · exact ⟨i + 1, by simp only [List.length_cons] at hlen ⊢; omega, hscanned, hremaining⟩
        rw [hsplit]
        simp only [splitOffAtSectionAndOffset.scan, sectionHeaders_cons]
        by_cases hheader : isSectionHeader b0 b1 b2
        · simp only [hheader, if_true, List.singleton_append, scanned_zero_header,
            scanned_succ_header]
          split_ifs with hhere
          · obtain ⟨hnumber, rfl⟩ := hhere
            cases hnumber
            rw [Option.some.injEq]
            constructor
            · exact fun h => .inl ⟨⟨rfl, rfl⟩, h.symm⟩
            · rintro (⟨-, h⟩ | ⟨i, -, hscanned, -⟩)
              · exact h.symm
              · exact absurd hscanned not_scanned_later
          · rw [ih]
            constructor
            · exact .inr
            · rintro (⟨⟨hnumber, hoffset⟩, -⟩ | h)
              · exact absurd ⟨congrArg some hnumber, hoffset⟩ hhere
              · exact h
        · simp only [hheader, Bool.false_eq_true, if_false, List.nil_append, scanned_zero,
            scanned_succ]
          split_ifs with hhere
          · obtain ⟨rfl, rfl⟩ := hhere
            rw [Option.some.injEq]
            constructor
            · exact fun h => .inl ⟨⟨rfl, rfl⟩, h.symm⟩
            · rintro (⟨-, h⟩ | ⟨i, -, hscanned, -⟩)
              · exact h.symm
              · exact absurd hscanned not_scanned_later
          · rw [ih]
            constructor
            · exact .inr
            · rintro (⟨h, -⟩ | h)
              · exact absurd h hhere
              · exact h

/-- The sender finds the position at which the section number, counted from zero, and the offset
point. -/
theorem splitOffAtSectionAndOffset_iff (payload : Payload) (sectionNumber offset : Nat)
    (remaining : Payload) :
    splitOffAtSectionAndOffset payload sectionNumber offset = some remaining ↔
      ∃ i, PointsAt payload sectionNumber offset i ∧ remaining = payload.drop i := by
  rw [splitOffAtSectionAndOffset, scan_iff]
  constructor
  · rintro ⟨i, hlen, ⟨hnone, -⟩ | ⟨n, start, hstart, hnumber, hoffset, hlast⟩, hremaining⟩
    · cases hnone
    · rw [Option.elim_none, Nat.zero_add] at hnumber
      rw [hnumber] at hstart
      exact ⟨i, ⟨hlen, start, hstart, hoffset, hlast⟩, hremaining⟩
  · rintro ⟨i, ⟨hlen, start, hstart, hoffset, hlast⟩, hremaining⟩
    exact ⟨i, hlen, .inr ⟨sectionNumber, start, hstart, Nat.zero_add _, hoffset, hlast⟩, hremaining⟩

/-! ## Section headers within the chunks -/

/-- The positions of the section headers that lie within one chunk. -/
def wholeHeaders : Nat → List Payload → List Nat
  | _, [] => []
  | start, chunk :: chunks =>
      (sectionHeaders chunk).map (start + ·) ++ wholeHeaders (start + chunk.length) chunks

/-- Where the last of them starts. -/
def lastWhole (chunks : List Payload) : Nat := (wholeHeaders 0 chunks).getLast?.getD 0

theorem wholeHeaders_snoc (start : Nat) (chunks : List Payload) (chunk : Payload) :
    wholeHeaders start (chunks ++ [chunk]) =
      wholeHeaders start chunks ++ (sectionHeaders chunk).map (start + chunks.flatten.length + ·) := by
  induction chunks generalizing start with
  | nil => simp [wholeHeaders]
  | cons first chunks ih =>
      rw [List.cons_append, wholeHeaders, wholeHeaders, ih, List.append_assoc, List.flatten_cons,
        List.length_append, Nat.add_assoc]

theorem lastWhole_snoc (chunks : List Payload) (chunk : Payload) :
    lastWhole (chunks ++ [chunk]) =
      ((sectionHeaders chunk).getLast?.map (chunks.flatten.length + ·)).getD (lastWhole chunks) := by
  rw [lastWhole, wholeHeaders_snoc, Nat.zero_add, List.getLast?_append, List.getLast?_map]
  cases (sectionHeaders chunk).getLast? with
  | none => rfl
  | some header => rfl

/-- The last header lies within the chunks, with its three bytes. -/
theorem lastWhole_lt (chunks : List Payload) :
    lastWhole chunks = 0 ∨ lastWhole chunks + 3 ≤ chunks.flatten.length := by
  induction chunks using List.reverseRecOn with
  | nil => exact .inl rfl
  | append_singleton chunks chunk ih =>
      rw [lastWhole_snoc, List.flatten_append, List.length_append, List.flatten_singleton]
      cases hlast : (sectionHeaders chunk).getLast? with
      | none => exact ih.imp_right Nat.le_add_right_of_le
      | some header =>
          have hlt := sectionHeaders_lt (List.mem_of_getLast? hlast)
          simp only [Option.map_some, Option.getD_some]
          omega

theorem lastWhole_le (chunks : List Payload) : lastWhole chunks ≤ chunks.flatten.length := by
  have := lastWhole_lt chunks
  omega

theorem length_sectionHeaders_le (bytes : Bytes) : (sectionHeaders bytes).length ≤ bytes.length := by
  rw [sectionHeaders]
  refine (List.length_filterMap_le _ _).trans ?_
  simp only [List.length_zipIdx, List.length_zip]
  exact Nat.min_le_left _ _

theorem length_wholeHeaders_le (start : Nat) (chunks : List Payload) :
    (wholeHeaders start chunks).length ≤ chunks.flatten.length := by
  induction chunks generalizing start with
  | nil => exact Nat.le_refl 0
  | cons chunk chunks ih =>
      rw [wholeHeaders, List.length_append, List.length_map, List.flatten_cons, List.length_append]
      exact Nat.add_le_add (length_sectionHeaders_le chunk) (ih _)

/-- The headers up to a position are the first ones. -/
private theorem sectionHeaders_eq_append (payload : Payload) (position : Nat) :
    sectionHeaders payload = (sectionHeaders payload).filter (· ≤ position) ++
      (sectionHeaders payload).filter (position < ·) := by
  have hsorted := sectionHeaders_sorted payload
  generalize sectionHeaders payload = headers at hsorted ⊢
  induction headers with
  | nil => rfl
  | cons header headers ih =>
      obtain ⟨hfirst, hrest⟩ := List.pairwise_cons.mp hsorted
      by_cases hle : header ≤ position
      · rw [List.filter_cons_of_pos (by simpa using hle), List.filter_cons_of_neg (by simpa using hle),
          List.cons_append, ← ih hrest]
      · have hlater : ∀ header' ∈ headers, ¬ header' ≤ position := fun header' hmem hle' =>
          hle ((Nat.le_of_lt (hfirst header' hmem)).trans hle')
        rw [List.filter_cons_of_neg (by simpa using hle), List.filter_cons_of_pos (by simpa using hle),
          List.filter_eq_nil_iff.mpr (by simpa using hlater), List.nil_append,
          List.filter_eq_self.mpr (by simpa using hlater)]

/-- Of the section headers that start before the end of what has arrived, or there, exactly one does
not lie within a chunk (the number of the others is that of a `u32`), and behind the last that does
(behind the first byte, if none does) none starts; a whole header would fit into what is left. -/
def OneHeaderCut (payload : Payload) (arrived : List Payload) : Prop :=
  let started := (sectionHeaders payload).filter (· ≤ arrived.flatten.length)
  started.length = (wholeHeaders 0 arrived).length % 2 ^ 32 + 1 ∧
    started.getLast? = some (lastWhole arrived) ∧ arrived.flatten.length + 3 ≤ payload.length

instance (payload : Payload) (arrived : List Payload) : Decidable (OneHeaderCut payload arrived) :=
  inferInstanceAs (Decidable (_ ∧ _ ∧ _))

/-- What the receiver counts, read with the first section as zero, points at the end of what has
arrived exactly when one header is cut. -/
theorem pointsAt_iff_oneHeaderCut (payload : Payload) (arrived : List Payload) :
    PointsAt payload ((wholeHeaders 0 arrived).length % 2 ^ 32)
        (arrived.flatten.length - lastWhole arrived) arrived.flatten.length ↔
      OneHeaderCut payload arrived := by
  have hle := lastWhole_le arrived
  have happend := sectionHeaders_eq_append payload arrived.flatten.length
  have hsorted := (sectionHeaders_sorted payload).filter (· ≤ arrived.flatten.length)
  simp only [PointsAt, OneHeaderCut]
  generalize (wholeHeaders 0 arrived).length % 2 ^ 32 = number
  generalize hstarted : (sectionHeaders payload).filter (· ≤ arrived.flatten.length) = started at *
  constructor
  · rintro ⟨hlen, start, hstart, hoffset, hlast⟩
    have hsame : start = lastWhole arrived := by omega
    have hget : started[number]? = some start := by
      rw [happend] at hstart
      rcases Nat.lt_or_ge number started.length with hlt | hge
      · rwa [List.getElem?_append_left hlt] at hstart
      · rw [List.getElem?_append_right hge] at hstart
        have hmem := List.mem_of_getElem? hstart
        simp only [List.mem_filter, decide_eq_true_eq] at hmem
        omega
    obtain ⟨hlt, hvalue⟩ := List.getElem?_eq_some_iff.mp hget
    have hlength : started.length = number + 1 := by
      by_contra hne
      have hnext : number + 1 < started.length := by omega
      have hgt := List.pairwise_iff_getElem.mp hsorted number (number + 1) hlt hnext (Nat.lt_succ_self _)
      have hmem : started[number + 1] ∈ (sectionHeaders payload).filter
          (· ≤ arrived.flatten.length) := by
        rw [hstarted]
        exact List.getElem_mem hnext
      simp only [List.mem_filter, decide_eq_true_eq] at hmem
      have := hlast _ hmem.1 hmem.2
      omega
    refine ⟨hlength, ?_, hlen⟩
    rw [List.getLast?_eq_getElem?, hlength, Nat.add_sub_cancel, hget, hsame]
  · rintro ⟨hlength, hlast, hlen⟩
    rw [List.getLast?_eq_getElem?, hlength, Nat.add_sub_cancel] at hlast
    refine ⟨hlen, lastWhole arrived, ?_, by omega, fun header hmem hheader => ?_⟩
    · rw [happend, List.getElem?_append_left (by omega)]
      exact hlast
    · have hmem' : header ∈ started := by
        rw [← hstarted, List.mem_filter, decide_eq_true_eq]
        exact ⟨hmem, hheader⟩
      obtain ⟨i, hi, rfl⟩ := List.getElem_of_mem hmem'
      obtain ⟨hn, hvalue⟩ := List.getElem?_eq_some_iff.mp hlast
      rw [← hvalue]
      rcases Nat.lt_or_ge i number with hlt | hge
      · exact Nat.le_of_lt (List.pairwise_iff_getElem.mp hsorted i number hi hn hlt)
      · have hsame : i = number := by omega
        subst hsame
        exact Nat.le_refl _

end Fe2o3Amqp
