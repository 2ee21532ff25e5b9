import Fe2o3Amqp.Serde.ReadersAgree

/-!
# The readers agree on described values

Descriptors, which are peeked whole before they are read, and the values behind them; with these, `Value`.
-/

namespace Fe2o3Amqp

namespace ReadersAgree

variable {strict : Bool} {α β : Type} {e : Option EncodingCodes} {p : De SliceReader α}
  {q : De IoReader α} {p' : De SliceReader β} {q' : De IoReader β}

/-! ## Described values -/

open Agree in
theorem consumeListHeader :
    Agree (At strict e 0) De.consumeListHeader De.consumeListHeader fun _ => At strict e 0 := by
  have hcode : Agree (At strict e 0) (De.getElemCodeOrReadFormatCode "Expecting format code")
      (De.getElemCodeOrReadFormatCode "Expecting format code") fun _ => At strict e 0 :=
    formatCode.pre fun _ h => h.le (Nat.zero_le _)
  apply hcode.bind
  intro code
  cases code with
  | list0 => exact .pure fun _ h => h
  | list8 => exact Agree.bind next_at fun _ => Agree.bind next_at fun _ => .pure fun _ h => h
  | list32 => exact readU32.bind fun _ => readU32.bind fun _ => .pure fun _ h => h
  | _ => exact .custom

theorem announce (access : De.DescribedAccess) :
    Agree (At strict e 0) access.announce access.announce fun _ => At strict e 0 := by
  apply Agree.get_choose
  intro s t hmirrors
  rw [hmirrors.structEncoding]
  split_ifs
  · refine consumeListHeader.bind fun count => ?_
    split_ifs
    · exact .pure fun _ h => h
    · exact .panic
  · exact .pure fun _ h => h

/-- A program that goes on after a failure only to fail with it. -/
theorem attempt_announce {P P' : Deserializer IoReader → Prop} (hp : Agree P p q fun _ => P')
    (hannounce : ∀ access : De.DescribedAccess,
      Agree P' access.announce access.announce fun _ => P') (access : De.DescribedAccess)
    {f : De.DescribedAccess → α → De SliceReader β} {g : De.DescribedAccess → α → De IoReader β}
    {Q : β → Deserializer IoReader → Prop} (hrest : ∀ access a, Agree P' (f access a) (g access a) Q) :
    Agree P
      (do let result ← De.attempt p; let access ← access.announce; f access (← De.ofExcept result))
      (do let result ← De.attempt q; let access ← access.announce; g access (← De.ofExcept result))
      Q := by
  -- behind a failure either the header fails too or the failure is raised again
  have hfails : ∀ {R : Type} [Read R] (p : De R α) (f : De.DescribedAccess → α → De R β)
      (s s' : Deserializer R) (failure : Failure), p s = .error failure s' →
      ∃ failure s', (do
        let result ← De.attempt p
        let access ← access.announce
        f access (← De.ofExcept result)) s = .error failure s' := by
    intro R _ p f s s' failure hfailure
    simp only [bind, EStateM.bind, De.attempt, hfailure]
    cases failure with
    | err error =>
        dsimp only
        cases access.announce s' with
        | ok access s'' => exact ⟨_, _, rfl⟩
        | error failure s'' => exact ⟨_, _, rfl⟩
    | panic => exact ⟨_, _, rfl⟩
    | stack => exact ⟨_, _, rfl⟩
  rintro s t hP
  have hfirst := hp s t hP
  cases hs : p s with
  | error failure s' =>
      cases ht : q t with
      | error failure' t' =>
          obtain ⟨_, _, hslice⟩ := hfails p f s s' failure hs
          obtain ⟨_, _, hstream⟩ := hfails q g t t' failure' ht
          rw [hslice, hstream]
          exact .error
      | ok a t' =>
          rw [hs, ht] at hfirst
          cases hfirst
  | ok a s' =>
      cases ht : q t with
      | error failure' t' =>
          rw [hs, ht] at hfirst
          cases hfirst
      | ok a' t' =>
          rw [hs, ht] at hfirst
          cases hfirst with
          | ok hQ =>
              have hgoes := (hannounce access).bind (fun access => hrest access a) s' t' hQ
              simpa only [bind, EStateM.bind, De.attempt, hs, ht, De.ofExcept, pure, EStateM.pure]
                using hgoes

theorem nextElement {P P' N Q : Deserializer IoReader → Prop} (hstay : ∀ t, P t → N t)
    (hpeek : Agree P De.peek De.peek fun byte t => (byte = none → N t) ∧ (byte.isSome → P' t))
    (helement : Agree P' p q fun _ => Q)
    (hannounce : ∀ access : De.DescribedAccess, Agree Q access.announce access.announce fun _ => Q)
    (access : De.DescribedAccess) :
    Agree P (access.nextElement p) (access.nextElement q)
      fun r t => (r.1 = none → N t) ∧ (r.1.isSome → Q t) := by
  simp only [De.DescribedAccess.nextElement]
  split_ifs
  · exact .pure fun t h => ⟨fun _ => hstay t h, by simp⟩
  · refine hpeek.bind fun byte => ?_
    cases byte with
    | none => exact .pure fun t h => ⟨fun _ => h.1 rfl, by simp⟩
    | some byte =>
        refine (Agree.ofExcept _ fun _ t h => h.2 rfl).bind fun code => ?_
        cases code with
        | describedType =>
            exact attempt_announce helement hannounce access fun access a =>
              .pure fun t h => ⟨by simp, fun _ => h⟩
        | _ => exact helement.bind fun a => .pure fun t h => ⟨by simp, fun _ => h⟩

/-- A field behind the descriptor. -/
theorem Plain.nextElement (h : Plain strict p q) (access : De.DescribedAccess) :
    Agree (At strict none 0) (access.nextElement p) (access.nextElement q)
      fun _ => At strict none 0 := by
  have hpeek : Agree (At strict none 0) De.peek De.peek fun byte t =>
      (byte = none → At strict none 0 t) ∧ (byte.isSome → At strict none 1 t) := by
    apply Agree.of_bytes
    intro bytes
    refine Agree.peek.post fun byte t ht => ?_
    cases byte with
    | none => exact ⟨fun _ => ht.2.1, by simp⟩
    | some byte => exact ⟨by simp, fun _ => ht.2.1⟩
  refine (ReadersAgree.nextElement (fun _ h => h) hpeek h announce access).post fun r t ht => ?_
  cases hr : r.1 with
  | none => exact ht.1 hr
  | some a => exact ht.2 (by rw [hr]; rfl)

/-! ## Identifiers and descriptors -/

/-- The length of a descriptor together with the byte that announces a described value. -/
def descriptorLength : Bytes → Nat
  | _ :: code :: rest =>
      match EncodingCodes.tryFrom code with
      | .ok .sym8 => 3 + (rest.getD 0 0).toNat
      | .ok .sym32 => 6 + BigEndian.decode (rest.take 4)
      | .ok .ulong0 => 2
      | .ok .smallUlong => 3
      | .ok .ulong => 10
      | _ => 1
  | _ => 1

theorem descriptorLength_pos (bytes : Bytes) : 1 ≤ descriptorLength bytes := by
  unfold descriptorLength
  split
  · split <;> omega
  · exact le_refl 1

/-- At most a descriptor is peeked. -/
structure Peeked (strict : Bool) (t : Deserializer IoReader) : Prop where
  code : t.elemFormatCode = none
  peeked : strict = true → t.reader.buf.length ≤ descriptorLength t.unread

theorem At.peeked_descriptor {t : Deserializer IoReader} (h : At strict none 1 t) : Peeked strict t :=
  ⟨h.code, fun hstrict => (h.peeked hstrict).trans (descriptorLength_pos _)⟩

theorem Peeked.of_bytes {bytes : Bytes} {t : Deserializer IoReader} (hbytes : t.unread = bytes)
    (h : At strict none (descriptorLength bytes) t) : Peeked strict t :=
  ⟨h.code, fun hstrict => by rw [hbytes]; exact h.peeked hstrict⟩

/-- Peeking further within the descriptor. -/
theorem peekMore {bytes : Bytes} {k n : Nat} {text : String} (hk : k ≤ n)
    {f : Bytes → De SliceReader α} {g : Bytes → De IoReader α} {Q : α → Deserializer IoReader → Prop}
    (hrest : n ≤ bytes.length → Agree (fun t => At strict e n t ∧ t.unread = bytes) (f (bytes.take n))
      (g (bytes.take n)) Q) :
    Agree (fun t => At strict e k t ∧ t.unread = bytes) (De.peekBytes n text >>= f)
      (De.peekBytes n text >>= g) Q := by
  refine (Agree.peekBytes n).bind fun buf => ?_
  apply Agree.assuming (fun _ h => And.intro h.2.1 h.2.2.1)
  rintro ⟨hlong, rfl⟩
  exact (hrest hlong).pre fun t h => ⟨h.1.le (max_le hk (le_refl n)), h.2.2.2⟩

open Agree in
theorem parseDescribedIdentifier :
    Agree (At strict none 1) De.parseDescribedIdentifier De.parseDescribedIdentifier
      fun _ => Peeked strict := by
  apply of_bytes
  intro bytes
  apply peekMore (by omega)
  intro hlong
  obtain ⟨mark, code, rest, rfl⟩ : ∃ mark code rest, bytes = mark :: code :: rest := by
    cases bytes with
    | nil => simp at hlong
    | cons mark bytes =>
        cases bytes with
        | nil => simp at hlong
        | cons code rest => exact ⟨mark, code, rest, rfl⟩
  have hcode : ((mark :: code :: rest).take 2).getD 1 0 = code := rfl
  -- the text or the number, once the whole descriptor is peeked
  have hdone : ∀ {β : Type} (b : β) (n : Nat), n ≤ descriptorLength (mark :: code :: rest) →
      Agree (fun t => At strict none n t ∧ t.unread = mark :: code :: rest) (Pure.pure b) (Pure.pure b)
        fun _ => Peeked strict := by
    intro β b n hle
    exact .pure fun t h => .of_bytes h.2 (h.1.le hle)
  have htext : ∀ (text : Bytes) (n : Nat), n ≤ descriptorLength (mark :: code :: rest) →
      Agree (fun t => At strict none n t ∧ t.unread = mark :: code :: rest)
        (do return Ident.str (← De.stringFromUtf8 text))
        (do return Ident.str (← De.stringFromUtf8 text)) fun _ => Peeked strict := by
    intro text n hle
    simp only [De.stringFromUtf8]
    cases fromUtf8 text with
    | none => exact Agree.bind (Q := fun _ => Peeked strict) .err fun _ => .pure fun _ h => h
    | some text => exact hdone (Ident.str text) n hle
  rw [hcode]
  apply ofExcept_bind
  intro format hformat
  cases format with
  | sym8 =>
      apply peekMore (by omega)
      intro hlong
      have hsize : ((mark :: code :: rest).take 3).getD 2 0 = rest.getD 0 0 := by
        cases rest with
        | nil => simp at hlong
        | cons size rest => rfl
      rw [hsize]
      apply peekMore (by omega)
      intro _
      exact htext _ _ (by simp only [descriptorLength, hformat]; omega)
  | sym32 =>
      apply peekMore (by omega)
      intro _
      have hsize : ((mark :: code :: rest).take (2 + 4)).drop 2 = rest.take 4 := rfl
      rw [hsize]
      apply peekMore (by omega)
      intro _
      exact htext _ _ (by simp only [descriptorLength, hformat]; omega)
  | ulong0 => exact hdone _ _ (by simp only [descriptorLength, hformat]; omega)
  | smallUlong =>
      apply peekMore (by omega)
      intro _
      exact hdone _ _ (by simp only [descriptorLength, hformat]; omega)
  | ulong =>
      apply peekMore (by omega)
      intro _
      exact hdone _ _ (by simp only [descriptorLength, hformat]; omega)
  | _ => exact .err

open Agree in
theorem getElemCodeOrPeekByte {text : String} :
    Agree (At strict e (ready e)) (De.getElemCodeOrPeekByte text) (De.getElemCodeOrPeekByte text)
      fun byte t => At strict e (ready e) t ∧ ∀ c, e = some c → byte = c.toU8 := by
  apply Agree.get
  intro s t hmirrors hat
  rw [hmirrors.elemFormatCode, hat.code]
  cases e with
  | none =>
      have hpeek : Agree (At strict none 1) De.peek De.peek fun _ => At strict none 1 := peek_at
      refine Agree.pre ?_ (M := At strict none 1) ?_
      · refine hpeek.bind fun byte => ?_
        cases byte with
        | none => exact .err
        | some byte => exact .pure fun t h => ⟨h, by simp⟩
      · rintro _ rfl
        exact hat
  | some c =>
      apply Agree.pure
      rintro t' rfl
      refine ⟨hat, ?_⟩
      rintro _ ⟨⟩
      rfl

open Agree in
theorem peekFormatCode {text : String} :
    Agree (At strict e (ready e)) (De.peekFormatCode text) (De.peekFormatCode text)
      fun _ => At strict e (ready e) :=
  Agree.bind getElemCodeOrPeekByte fun _ => .ofExcept _ fun _ _ h => h.1

theorem Plain.deserializeOption (h : Plain strict p q) :
    Plain strict (De.deserializeOption p) (De.deserializeOption q) := by
  have hcode : Agree (At strict none 1) (De.peekFormatCode "Expecting format code")
      (De.peekFormatCode "Expecting format code") fun _ => At strict none 1 := peekFormatCode
  refine hcode.bind fun code => ?_
  have hsome : Agree (At strict none 1) (do return some (← p)) (do return some (← q))
      fun _ => At strict none 0 := Agree.bind h fun _ => .pure fun _ ht => ht
  cases code with
  | null => exact Agree.bind Agree.formatCode fun _ => .pure fun _ ht => ht
  | _ => exact hsome

/-- The identifier of a `Value` or an `Array`: the constructor, which is left. -/
theorem identifier_code {enumType : EnumType} (h : enumType = .value ∨ enumType = .array) :
    Agree (fun t => At strict e (Agree.ready e) t ∧ t.enumType = enumType) De.deserializeIdentifier
      De.deserializeIdentifier
      fun ident t => At strict e (Agree.ready e) t ∧
        ∃ code, ident = .u8 code ∧ ∀ c, e = some c → code = c.toU8 := by
  have hcode : Agree (At strict e (Agree.ready e)) (do return Ident.u8 (← De.getElemCodeOrPeekByte ""))
      (do return Ident.u8 (← De.getElemCodeOrPeekByte "")) fun ident t =>
        At strict e (Agree.ready e) t ∧ ∃ code, ident = .u8 code ∧ ∀ c, e = some c → code = c.toU8 :=
    Agree.bind getElemCodeOrPeekByte fun code => .pure fun _ ht => ⟨ht.1, code, rfl, ht.2⟩
  apply Agree.get
  rintro s t hmirrors ⟨hat, henum⟩
  rw [hmirrors.enumType, henum]
  have hstart : ∀ t', t' = t → At strict e (Agree.ready e) t' := by
    rintro _ rfl
    exact hat
  rcases h with rfl | rfl
  · exact hcode.pre hstart
  · exact hcode.pre hstart

open Agree in
/-- The identifier of any enumeration. -/
theorem identifier_peeked :
    Agree (At strict none 1) De.deserializeIdentifier De.deserializeIdentifier
      fun _ => Peeked strict := by
  have hpeek : Agree (At strict none 1) (De.getElemCodeOrPeekByte "") (De.getElemCodeOrPeekByte "")
      fun _ => At strict none 1 := getElemCodeOrPeekByte.post fun _ _ h => h.1
  have hcode : Agree (At strict none 1) (do return Ident.u8 (← De.getElemCodeOrPeekByte ""))
      (do return Ident.u8 (← De.getElemCodeOrPeekByte "")) fun _ => Peeked strict :=
    hpeek.bind fun _ => .pure fun _ h => h.peeked_descriptor
  -- an identifier that is consumed
  have hread : ∀ {γ : Type} {p : De SliceReader γ} {q : De IoReader γ} (f : γ → Ident),
      Reads strict p q → Agree (At strict none 1) (do return f (← p)) (do return f (← q))
        fun _ => Peeked strict := fun f h =>
    (h none).bind fun _ => .pure fun _ ht => (ht.le (Nat.zero_le 1)).peeked_descriptor
  apply Agree.get_choose
  intro s t hmirrors
  rw [hmirrors.enumType]
  cases t.enumType with
  | value => exact hcode
  | array => exact hcode
  | descriptor =>
      refine Agree.bind readFormatCode fun code => ?_
      cases code with
      | describedType =>
          exact (Reads.setEnumType .none).bind fun _ => hcode.pre fun _ h => h.1.le (by omega)
      | _ => exact .err
  | none =>
      refine hpeek.bind fun byte => ?_
      apply ofExcept_bind
      intro code _
      cases code with
      | str32 | str8 => exact hread .str Reads.deserializeStr
      | uint | smallUint | uint0 => exact hread .u32 Reads.parseU32
      | sym32 | sym8 =>
          exact (Reads.setNonNativeType (some .symbol)).bind fun _ => hread .str Reads.deserializeString
      | ulong | smallUlong | ulong0 => exact hread .u64 Reads.parseU64
      | describedType => exact parseDescribedIdentifier
      | _ => exact .pure fun _ h => h.peeked_descriptor

theorem restoringEnumType {P : Deserializer IoReader → Prop} {Q : α → Deserializer IoReader → Prop}
    (h : Agree P p q Q) (hQ : ∀ a t enumType, Q a t → Q a { t with enumType }) :
    Agree P (De.restoringEnumType p) (De.restoringEnumType q) Q := by
  intro s t hP
  have hrun := h s t hP
  simp only [De.restoringEnumType]
  generalize p s = x, q t = y at hrun
  cases hrun with
  | ok hQ' =>
      obtain ⟨hmirrors, hQ'⟩ := hQ'
      refine .ok ⟨⟨hmirrors.reader, hmirrors.nonNativeType, hmirrors.seqType, hP.1.enumType,
        hmirrors.structEncoding, hmirrors.elemFormatCode⟩, hQ _ _ _ hQ'⟩
  | error => exact .error

theorem withStructEncoding {P : Deserializer IoReader → Prop} {Q : α → Deserializer IoReader → Prop}
    (encoding : StructEncoding) (h : Agree P p q Q)
    (hP : ∀ t structEncoding, P t → P { t with structEncoding })
    (hQ : ∀ a t structEncoding, Q a t → Q a { t with structEncoding }) :
    Agree P (De.withStructEncoding encoding p) (De.withStructEncoding encoding q) Q := by
  rintro s t ⟨hmirrors, hpre⟩
  have hrun := h { s with structEncoding := encoding } { t with structEncoding := encoding }
    ⟨⟨hmirrors.reader, hmirrors.nonNativeType, hmirrors.seqType, hmirrors.enumType, rfl,
      hmirrors.elemFormatCode⟩, hP t encoding hpre⟩
  simp only [De.withStructEncoding]
  generalize p { s with structEncoding := encoding } = x,
    q { t with structEncoding := encoding } = y at hrun
  cases hrun with
  | ok hQ' =>
      obtain ⟨hafter, hQ'⟩ := hQ'
      exact .ok ⟨⟨hafter.reader, hafter.nonNativeType, hafter.seqType, hafter.enumType,
        hmirrors.structEncoding, hafter.elemFormatCode⟩, hQ _ _ _ hQ'⟩
  | error => exact .error

open Agree in
/-- The constructor that is read is the next byte. -/
theorem readCode {k : Nat} {bytes : Bytes} {text : String} :
    Agree (fun t => At strict none k t ∧ t.unread = bytes) (De.readFormatCode text)
      (De.readFormatCode text) fun code t => At strict none (k - 1) t ∧
        ∃ byte, bytes = byte :: t.unread ∧ EncodingCodes.tryFrom byte = .ok code := by
  refine next.bind fun byte => ?_
  cases hcode : EncodingCodes.tryFrom byte with
  | error e => exact .err
  | ok code => exact .pure fun t h => ⟨h.1, byte, h.2, hcode⟩

open Agree in
theorem getCode {k : Nat} {bytes : Bytes} {text : String} :
    Agree (fun t => At strict none k t ∧ t.unread = bytes) (De.getElemCodeOrReadFormatCode text)
      (De.getElemCodeOrReadFormatCode text) fun code t => At strict none (k - 1) t ∧
        ∃ byte, bytes = byte :: t.unread ∧ EncodingCodes.tryFrom byte = .ok code := by
  apply Agree.get
  rintro s t hmirrors ⟨hat, hbytes⟩
  rw [hmirrors.elemFormatCode, hat.code]
  refine readCode.pre ?_
  rintro _ rfl
  exact ⟨hat, hbytes⟩

open Agree in
theorem readU32_eq {k : Nat} {bytes : Bytes} :
    Agree (fun t => At strict e k t ∧ t.unread = bytes) De.readU32 De.readU32
      fun n t => At strict e (k - 4) t ∧ n = BigEndian.decode (bytes.take 4) :=
  (readBytes 4).bind fun _ => .pure fun _ h => ⟨h.1, by rw [h.2.2.1]⟩

open Agree in
/-- Nothing of a peeked descriptor is left behind its symbol. -/
theorem parseSymbol_peeked {mark code : UInt8} {rest : Bytes} {k : Nat}
    (hk : k + 1 ≤ descriptorLength (mark :: code :: rest)) :
    Agree (fun t => At strict none k t ∧ t.unread = code :: rest) De.parseSymbol De.parseSymbol
      fun _ => At strict none 0 := by
  refine Agree.bind getCode fun format => ?_
  apply assuming (A := EncodingCodes.tryFrom code = .ok format)
  · rintro t ⟨-, byte, hbytes, hformat⟩
    cases hbytes
    exact hformat
  intro hformat
  simp only [descriptorLength, hformat] at hk
  refine Agree.pre (M := fun t => At strict none (k - 1) t ∧ t.unread = rest) ?_ ?_
  · cases format with
    | sym8 =>
        refine next.bind fun len => ?_
        apply assuming (A := rest.getD 0 0 = len)
        · rintro t ⟨-, rfl⟩
          rfl
        rintro rfl
        refine Agree.pre (M := At strict none (k - 1 - 1)) ?_ fun _ h => h.1
        refine (readBytes_at _).bind fun bytes => (Reads.stringFromUtf8 bytes).pre fun _ h => h.le ?_
        dsimp only at hk
        omega
    | sym32 =>
        refine readU32_eq.bind fun len => ?_
        apply assuming (A := len = BigEndian.decode (rest.take 4)) fun _ h => h.2
        rintro rfl
        refine Agree.pre (M := At strict none (k - 1 - 4)) ?_ fun _ h => h.1
        refine (readBytes_at _).bind fun bytes => (Reads.stringFromUtf8 bytes).pre fun _ h => h.le ?_
        dsimp only at hk
        omega
    | _ => exact .err
  · rintro t ⟨hat, byte, hbytes, -⟩
    cases hbytes
    exact ⟨hat, rfl⟩

open Agree in
theorem parseU64_peeked {mark code : UInt8} {rest : Bytes} {k : Nat}
    (hk : k + 1 ≤ descriptorLength (mark :: code :: rest)) :
    Agree (fun t => At strict none k t ∧ t.unread = code :: rest) De.parseU64 De.parseU64
      fun _ => At strict none 0 := by
  refine Agree.bind getCode fun format => ?_
  apply assuming (A := EncodingCodes.tryFrom code = .ok format)
  · rintro t ⟨-, byte, hbytes, hformat⟩
    cases hbytes
    exact hformat
  intro hformat
  simp only [descriptorLength, hformat] at hk
  refine Agree.pre (M := At strict none (k - 1)) ?_ fun _ h => h.1
  cases format with
  | ulong =>
      refine (readBytes_at 8).bind fun _ => .pure fun _ h => h.le ?_
      dsimp only at hk
      omega
  | smallUlong =>
      refine Agree.bind next_at fun _ => .pure fun _ h => h.le ?_
      dsimp only at hk
      omega
  | ulong0 =>
      refine .pure fun _ h => h.le ?_
      dsimp only at hk
      omega
  | _ => exact .err

theorem symbol : Reads strict De.symbol De.symbol := fun e =>
  (Reads.setNonNativeType (some .symbol)).bind fun _ => (Reads.deserializeString e).bind fun _ =>
    .pure fun _ h => h

open Agree in
theorem symbol_peeked {mark code : UInt8} {rest : Bytes} {k : Nat}
    (hk : k + 1 ≤ descriptorLength (mark :: code :: rest)) :
    Agree (fun t => At strict none k t ∧ t.unread = code :: rest) De.symbol De.symbol
      fun _ => At strict none 0 := by
  have hset : ∀ nonNativeType, Agree (fun t => At strict none k t ∧ t.unread = code :: rest)
      (De.setNonNativeType nonNativeType) (De.setNonNativeType nonNativeType)
      fun _ t => (At strict none k t ∧ t.unread = code :: rest) ∧ t.nonNativeType = nonNativeType :=
    fun nonNativeType => modify fun _ _ h ht =>
      ⟨⟨h.reader, rfl, h.seqType, h.enumType, h.structEncoding, h.elemFormatCode⟩,
        ⟨⟨ht.1.code, ht.1.peeked⟩, ht.2⟩, rfl⟩
  have hstring : Agree
      (fun t => (At strict none k t ∧ t.unread = code :: rest) ∧ t.nonNativeType = some .symbol)
      De.deserializeString De.deserializeString fun _ => At strict none 0 := by
    apply Agree.get
    rintro s t hmirrors ⟨ht, hnative⟩
    rw [hmirrors.nonNativeType, hnative]
    refine Agree.pre (M := fun t => At strict none k t ∧ t.unread = code :: rest) ?_ ?_
    · exact (hset none).bind fun _ => (parseSymbol_peeked hk).pre fun _ h => h.1
    · rintro _ rfl
      exact ht
  exact (hset (some .symbol)).bind fun _ => hstring.bind fun _ => .pure fun _ h => h

open Agree in
theorem peekCode {k : Nat} {bytes : Bytes} {text : String} :
    Agree (fun t => At strict none k t ∧ t.unread = bytes) (De.getElemCodeOrPeekByte text)
      (De.getElemCodeOrPeekByte text) fun code t => At strict none (max k 1) t ∧
        ∃ rest, bytes = code :: rest ∧ t.unread = code :: rest := by
  apply Agree.get
  rintro s t hmirrors ⟨hat, hbytes⟩
  rw [hmirrors.elemFormatCode, hat.code]
  refine Agree.pre (M := fun t => At strict none k t ∧ t.unread = bytes) ?_ ?_
  · refine Agree.peek.bind fun byte => ?_
    cases byte with
    | none => exact .err
    | some byte =>
        refine .pure fun t h => ⟨h.2.1, ?_⟩
        obtain ⟨hhead, -, hunread⟩ := h
        cases bytes with
        | nil => cases hhead
        | cons code rest =>
            cases hhead
            exact ⟨rest, rfl, hunread⟩
  · rintro _ rfl
    exact ⟨hat, hbytes⟩

open Agree in
/-- Whether the descriptor is a symbol; the byte in front of it is consumed. -/
theorem descriptorIsName {k : Nat} {bytes : Bytes} :
    Agree (fun t => (At strict none k t ∧ t.unread = bytes) ∧ t.enumType = .descriptor)
      De.descriptorIsName De.descriptorIsName fun _ t => At strict none (max (k - 1) 1) t ∧
        ∃ mark code rest, bytes = mark :: code :: rest ∧ t.unread = code :: rest ∧
          2 ≤ descriptorLength bytes := by
  have hidentifier : Agree (fun t => (At strict none k t ∧ t.unread = bytes) ∧ t.enumType = .descriptor)
      De.deserializeIdentifier De.deserializeIdentifier fun ident t =>
        At strict none (max (k - 1) 1) t ∧ ∃ mark code rest, bytes = mark :: code :: rest ∧
          t.unread = code :: rest ∧ ident = .u8 code := by
    apply Agree.get
    rintro s t hmirrors ⟨ht, henum⟩
    rw [hmirrors.enumType, henum]
    refine Agree.pre (M := fun t => At strict none k t ∧ t.unread = bytes) ?_ ?_
    · refine Agree.bind readCode fun format => ?_
      cases format with
      | describedType =>
          have hset : ∀ rest, Agree (fun t => At strict none (k - 1) t ∧ t.unread = rest)
              (De.setEnumType .none) (De.setEnumType .none)
              fun _ t => At strict none (k - 1) t ∧ t.unread = rest := fun rest =>
            Agree.modify fun _ _ h ht =>
              ⟨⟨h.reader, h.nonNativeType, h.seqType, rfl, h.structEncoding, h.elemFormatCode⟩,
                ⟨ht.1.code, ht.1.peeked⟩, ht.2⟩
          apply Agree.of_forall
          rintro t₀ ⟨hat, mark, hmark, -⟩
          refine Agree.pre (M := fun t => At strict none (k - 1) t ∧ t.unread = t₀.unread) ?_ ?_
          · refine (hset _).bind fun _ => Agree.bind peekCode fun code => .pure ?_
            rintro t ⟨hat', rest, hrest, hunread⟩
            exact ⟨hat', mark, code, rest, by rw [hmark, hrest], hunread, rfl⟩
          · rintro _ rfl
            exact ⟨hat, rfl⟩
      | _ => exact .err
    · rintro _ rfl
      exact ht
  refine hidentifier.bind fun ident => ?_
  cases ident with
  | u8 code =>
      have hstart : ∀ format t, EncodingCodes.tryFrom code = .ok format →
          (∀ mark rest, 2 ≤ descriptorLength (mark :: code :: rest)) →
          (At strict none (max (k - 1) 1) t ∧ ∃ mark code' rest, bytes = mark :: code' :: rest ∧
            t.unread = code' :: rest ∧ Ident.u8 code = .u8 code') →
          At strict none (max (k - 1) 1) t ∧ ∃ mark code rest, bytes = mark :: code :: rest ∧
            t.unread = code :: rest ∧ 2 ≤ descriptorLength bytes := by
        rintro format t hformat hlength ⟨hat, mark, code', rest, rfl, hunread, hcode⟩
        cases hcode
        exact ⟨hat, mark, code, rest, rfl, hunread, hlength mark rest⟩
      dsimp only
      cases hformat : EncodingCodes.tryFrom code with
      | error e => exact .custom
      | ok format =>
          cases format with
          | sym32 | sym8 =>
              refine .pure fun t h => hstart _ t hformat (fun mark rest => ?_) h
              simp only [descriptorLength, hformat]
              omega
          | ulong | ulong0 | smallUlong =>
              refine .pure fun t h => hstart _ t hformat (fun mark rest => ?_) h
              simp only [descriptorLength, hformat]
              omega
          | _ => exact .custom
  | _ => exact .invalidType

open Agree in
/-- The descriptor is read whole. -/
theorem descriptor : Agree (Peeked strict) De.descriptor De.descriptor fun _ => At strict none 0 := by
  refine restoringEnumType ?_ fun _ _ _ h => ⟨h.code, h.peeked⟩
  apply Agree.of_bytes
  intro bytes
  have hset : Agree (fun t => Peeked strict t ∧ t.unread = bytes) (De.setEnumType .descriptor)
      (De.setEnumType .descriptor) fun _ t =>
        (At strict none (descriptorLength bytes) t ∧ t.unread = bytes) ∧ t.enumType = .descriptor :=
    Agree.modify fun _ _ h ht =>
      ⟨⟨h.reader, h.nonNativeType, h.seqType, rfl, h.structEncoding, h.elemFormatCode⟩,
        ⟨⟨ht.1.code, fun hstrict => ht.2 ▸ ht.1.peeked hstrict⟩, ht.2⟩, rfl⟩
  refine hset.bind fun _ => descriptorIsName.bind fun isName => ?_
  apply Agree.of_forall
  rintro t₀ ⟨hat, mark, code, rest, rfl, hunread, hlong⟩
  have hk : max (descriptorLength (mark :: code :: rest) - 1) 1 + 1 ≤
      descriptorLength (mark :: code :: rest) := by omega
  refine Agree.pre (M := fun t =>
    At strict none (max (descriptorLength (mark :: code :: rest) - 1) 1) t ∧ t.unread = code :: rest) ?_ ?_
  · cases isName with
    | true => exact (symbol_peeked hk).bind fun _ => .pure fun _ h => h
    | false => exact (parseU64_peeked hk).bind fun _ => .pure fun _ h => h
  · rintro _ rfl
    exact ⟨hat, hunread⟩

open Agree in
/-- The element code of an array of described values is taken for the constructor of the descriptor. -/
theorem descriptor_fails :
    Agree (At false (some .describedType) 0) De.descriptor De.descriptor fun _ _ => False := by
  refine restoringEnumType ?_ fun _ _ _ h => h
  have hname : Agree (fun t => At false (some .describedType) 0 t ∧ t.enumType = .descriptor)
      De.descriptorIsName De.descriptorIsName fun _ _ => False := by
    have hidentifier : Agree (fun t => At false (some .describedType) 0 t ∧ t.enumType = .descriptor)
        De.deserializeIdentifier De.deserializeIdentifier
        fun ident _ => ident = .u8 EncodingCodes.describedType.toU8 := by
      apply Agree.get
      rintro s t hmirrors ⟨hat, henum⟩
      rw [hmirrors.enumType, henum]
      refine Agree.pre (M := At false (some .describedType) 0) ?_ ?_
      · refine Agree.bind readFormatCode fun format => ?_
        cases format with
        | describedType =>
            refine (Reads.setEnumType .none).bind fun _ => ?_
            refine (getElemCodeOrPeekByte.pre fun _ h => h.1).bind fun code => .pure fun t h => ?_
            rw [h.2 _ rfl]
        | _ => exact .err
      · rintro _ rfl
        exact hat
    refine hidentifier.bind fun ident => ?_
    apply assuming (A := ident = .u8 EncodingCodes.describedType.toU8) fun _ h => h
    rintro rfl
    exact .custom
  exact (Reads.setEnumType .descriptor).bind fun _ => hname.bind fun _ =>
    assuming (fun _ h => h) fun h => absurd h id

/-! ## Values -/

theorem peek_peeked : Agree (Peeked strict) De.peek De.peek fun _ => Peeked strict := by
  apply Agree.of_bytes
  intro bytes
  refine Agree.pre (M := fun t => At strict none (descriptorLength bytes) t ∧ t.unread = bytes) ?_ ?_
  · refine Agree.peek.post ?_
    rintro byte t ⟨-, hat, hbytes⟩
    refine .of_bytes hbytes (hat.le ?_)
    have hpos := descriptorLength_pos bytes
    split_ifs
    · exact max_le (le_refl _) hpos
    · exact le_refl _
  · rintro t ⟨h, rfl⟩
    exact ⟨⟨h.code, h.peeked⟩, rfl⟩

/-- The first field of a described value. -/
theorem nextElement_descriptor (access : De.DescribedAccess) :
    Agree (Peeked strict) (access.nextElement De.descriptor) (access.nextElement De.descriptor)
      fun r t => r.1.isSome → At strict none 0 t :=
  (nextElement (fun _ h => h) (peek_peeked.post fun _ _ h => ⟨fun _ => h, fun _ => h⟩) descriptor
    announce access).post fun _ _ h => h.2

theorem described (h : Plain strict p q) :
    Agree (Peeked strict) (De.described p) (De.described q) fun _ => At strict none 0 := by
  refine withStructEncoding .describedBasic ?_ (fun _ _ ht => ⟨ht.code, ht.peeked⟩)
    fun _ _ _ ht => ⟨ht.code, ht.peeked⟩
  refine (nextElement_descriptor _).bind fun first => ?_
  rcases first with ⟨first, access⟩
  cases first with
  | none => exact .custom
  | some descriptor =>
      refine Agree.pre ?_ fun t ht => ht rfl
      refine (h.nextElement access).bind fun second => ?_
      rcases second with ⟨second, access⟩
      cases second with
      | none => exact .custom
      | some value => exact .pure fun _ ht => ht

theorem described_fails :
    Agree (At false (some .describedType) 0) (De.described p) (De.described q) fun _ _ => False := by
  have hfirst : ∀ access : De.DescribedAccess, Agree (At false (some .describedType) 0)
      (access.nextElement De.descriptor) (access.nextElement De.descriptor) fun r _ => r.1 = none := by
    intro access
    refine (nextElement (N := fun _ => True) (fun _ _ => trivial)
      (Agree.peek_at.post fun _ _ h => ⟨fun _ => trivial, fun _ => ?_⟩) descriptor_fails
      (fun access => .assuming (fun _ h => h) fun h => absurd h id) access).post fun r t ht => ?_
    · exact ⟨h.code, by simp⟩
    · cases hr : r.1 with
      | none => rfl
      | some _ => exact absurd (ht.2 (by rw [hr]; rfl)) id
  refine withStructEncoding .describedBasic ?_ (fun _ _ ht => ⟨ht.code, ht.peeked⟩) fun _ _ _ ht => ht
  refine (hfirst _).bind fun first => ?_
  rcases first with ⟨first, access⟩
  cases first with
  | none => exact .custom
  | some descriptor => exact .assuming (fun _ h => h) fun h => by cases h

theorem fixedBytes (nonNativeType : NonNativeType) (n : Nat) :
    Reads strict (De.fixedBytes nonNativeType n) (De.fixedBytes nonNativeType n) := by
  intro e
  refine (Reads.setNonNativeType (some nonNativeType)).bind fun _ =>
    (Reads.deserializeBytes e).bind fun bytes => ?_
  split_ifs
  · exact .pure fun _ h => h
  · exact .custom

theorem timestamp : Reads strict De.timestamp De.timestamp := fun e =>
  (Reads.setNonNativeType (some .timestamp)).bind fun _ => Reads.deserializeI64 e

theorem arrayIsMultiple :
    Agree (fun t => At strict e (Agree.ready e) t ∧ t.enumType = .array) De.arrayIsMultiple
      De.arrayIsMultiple fun _ => At strict e (Agree.ready e) := by
  refine (identifier_code (.inr rfl)).bind fun ident => ?_
  cases ident with
  | u8 code =>
      dsimp only
      cases EncodingCodes.tryFrom code with
      | error e => exact .custom
      | ok format =>
          cases format with
          | array8 | array32 => exact .pure fun _ h => h.1
          | _ => exact .pure fun _ h => h.1
  | _ => exact .invalidType

theorem Nested.array (h : Nested strict p q) : Nested strict (De.array p) (De.array q) := by
  intro e
  refine restoringEnumType ?_ fun _ _ _ ht => ⟨⟨ht.settled.code, ht.settled.peeked⟩, ht.code⟩
  refine (Reads.setEnumType .array).bind fun _ => arrayIsMultiple.bind fun multiple => ?_
  cases multiple with
  | true => exact h.deserializeVec e
  | false => exact Agree.bind (h e) fun v => .pure fun _ ht => ht

theorem valueType :
    Agree (fun t => At strict e (Agree.ready e) t ∧ t.enumType = .value) De.valueType De.valueType
      fun type t => At strict e (Agree.ready e) t ∧ ∀ c, e = some c → type = .ofCode c := by
  refine (identifier_code (.inl rfl)).bind fun ident => ?_
  cases ident with
  | u8 code =>
      dsimp only
      cases hformat : EncodingCodes.tryFrom code with
      | error e => exact .custom
      | ok format =>
          refine .pure ?_
          rintro t ⟨hat, code', hcode, helem⟩
          cases hcode
          refine ⟨hat, fun c hc => ?_⟩
          rw [helem c hc, EncodingCodes.tryFrom_toU8] at hformat
          cases hformat
          rfl
  | _ => exact .invalidType

theorem visitValue {p : De SliceReader Value} {q : De IoReader Value} (h : Nested strict p q)
    (type : ValueType) (htype : ∀ c, e = some c → type = .ofCode c) :
    Agree (At strict e (Agree.ready e)) (De.visitValue p type) (De.visitValue q type)
      fun _ => Left strict e := by
  have hleaf : ∀ {γ : Type} {p : De SliceReader γ} {q : De IoReader γ} (f : γ → Value),
      Reads strict p q → Agree (At strict e (Agree.ready e)) (do return f (← p)) (do return f (← q))
        fun _ => Left strict e := fun f hreads =>
    (hreads e).bind fun _ => .pure fun _ ht => ht.left
  have hnode : ∀ {γ : Type} {p : De SliceReader γ} {q : De IoReader γ} (f : γ → Value),
      Nested strict p q → Agree (At strict e (Agree.ready e)) (do return f (← p)) (do return f (← q))
        fun _ => Left strict e := fun f hnested =>
    Agree.bind (hnested e) fun _ => .pure fun _ ht => ht
  cases type with
  | described =>
      cases e with
      | none =>
          refine ((described h.plain).pre fun _ ht => ht.peeked_descriptor).bind fun described => ?_
          exact .pure fun _ ht => ht.left
      | some c =>
          obtain rfl : c = .describedType := by
            have hof := htype c rfl
            cases c <;> first | rfl | cases hof
          refine (described_fails.pre fun _ ht => ⟨ht.code, by simp⟩).bind fun described => ?_
          exact .assuming (fun _ ht => ht) fun ht => absurd ht id
  | null => exact (Reads.parseUnit e).bind fun _ => .pure fun _ ht => ht.left
  | bool => exact hleaf _ Reads.parseBool
  | ubyte => exact hleaf _ Reads.parseU8
  | ushort => exact hleaf _ Reads.parseU16
  | uint => exact hleaf _ Reads.parseU32
  | ulong => exact hleaf _ Reads.parseU64
  | byte => exact hleaf _ Reads.parseI8
  | short => exact hleaf _ Reads.parseI16
  | int => exact hleaf _ Reads.parseI32
  | long => exact hleaf _ Reads.deserializeI64
  | float => exact hleaf _ Reads.parseF32
  | double => exact hleaf _ Reads.parseF64
  | decimal32 => exact hleaf _ (fixedBytes .dec32 4)
  | decimal64 => exact hleaf _ (fixedBytes .dec64 8)
  | decimal128 => exact hleaf _ (fixedBytes .dec128 16)
  | char => exact hleaf _ Reads.parseChar
  | timestamp => exact hleaf _ timestamp
  | uuid => exact hleaf _ (fixedBytes .uuid 16)
  | binary => exact hleaf _ Reads.deserializeByteBuf
  | string => exact hleaf _ Reads.deserializeString
  | symbol => exact hleaf _ symbol
  | list => exact hnode _ h.deserializeVec
  | map => exact hnode _ (deserializeMap Value.eq h h)
  | array => exact hnode _ h.array

theorem valueAtDepth (depth : Nat) :
    Nested strict (De.valueAtDepth depth) (De.valueAtDepth depth) := by
  induction depth with
  | zero => exact fun _ _ _ _ => .error
  | succ depth ih =>
      intro e
      refine restoringEnumType ?_ fun _ _ _ ht => ⟨⟨ht.settled.code, ht.settled.peeked⟩, ht.code⟩
      refine (Reads.setEnumType .value).bind fun _ => valueType.bind fun type => ?_
      apply Agree.of_forall
      rintro t₀ ⟨hat, htype⟩
      refine (visitValue ih type htype).pre ?_
      rintro _ rfl
      exact hat

theorem value : Nested strict De.value De.value := by
  rintro e s t ⟨hmirrors, hat⟩
  have hremaining : Read.remaining s.reader = Read.remaining t.reader :=
    congrArg List.length hmirrors.reader.unread
  have hslice : De.value s = De.valueAtDepth (Read.remaining t.reader + 1) s := by
    rw [← hremaining]
    rfl
  rw [hslice]
  exact valueAtDepth _ e s t ⟨hmirrors, hat⟩

end ReadersAgree

end Fe2o3Amqp
