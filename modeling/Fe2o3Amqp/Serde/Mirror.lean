import Fe2o3Amqp.Serde.IoRead
import Fe2o3Amqp.Util.Alike

/-!
# A slice and a stream

The operations of the two readers, started where the stream delivers what the slice holds: they hand out
the same bytes and leave the same bytes unread, or fail over both.
-/

namespace Fe2o3Amqp

/-! ## The buffer -/

namespace IoReader

variable {r : IoReader} {n : Nat}

theorem length_read (n : Nat) (reader : ChunkSource) :
    (reader.read n).1.length = min n reader.bytes.length := by
  rw [(ChunkSource.read_eq n reader).1, List.length_take]

/-- The buffer holds the next `n` bytes, or the stream ends before them. -/
theorem fillBuffer_cases (n : Nat) (r : IoReader) :
    (n ≤ r.unread.length ∧ ∃ r', r.fillBuffer n = (.ok (), r') ∧ r'.unread = r.unread ∧
        r'.consumed = r.consumed ∧ n ≤ r'.buf.length ∧ r'.buf.length = max r.buf.length n) ∨
      (r.unread.length < n ∧ ∃ r', r.fillBuffer n = (.error eof, r')) := by
  obtain ⟨htake, hdrop⟩ := ChunkSource.read_eq (n - r.buf.length) r.reader
  have hlength := length_read (n - r.buf.length) r.reader
  have hunread : r.unread.length = r.buf.length + r.reader.bytes.length := List.length_append
  simp only [fillBuffer]
  by_cases hshort : r.buf.length < n
  · simp only [if_pos hshort]
    by_cases henough : n ≤ r.unread.length
    · have hpadding : n - r.buf.length - (r.reader.read (n - r.buf.length)).1.length = 0 := by omega
      refine .inl ⟨henough, ?_⟩
      rw [hpadding]
      refine ⟨_, rfl, ?_, rfl, ?_, ?_⟩
      · simp only [unread, List.replicate_zero, List.append_nil, List.append_assoc, hdrop, htake,
          List.take_append_drop]
      · simp only [List.replicate_zero, List.append_nil, List.length_append]
        omega
      · simp only [List.replicate_zero, List.append_nil, List.length_append]
        omega
    · have hpadding : ¬List.replicate
          (n - r.buf.length - (r.reader.read (n - r.buf.length)).1.length) (0 : UInt8) = [] := by
        rw [List.replicate_eq_nil_iff]
        omega
      rw [if_neg hpadding]
      exact .inr ⟨not_le.mp henough, _, rfl⟩
  · simp only [if_neg hshort]
    exact .inl ⟨by omega, r, rfl, rfl, rfl, by omega, by omega⟩

theorem take_buf (h : n ≤ r.buf.length) : r.buf.take n = r.unread.take n :=
  (List.take_append_of_le_length h).symm

theorem unread_drain (h : n ≤ r.buf.length) : (r.drain n).unread = r.unread.drop n :=
  (List.drop_append_of_le_length h).symm

theorem peek_spec (r : IoReader) :
    ∃ r', Read.peek r = (r.unread.head?, r') ∧ r'.unread = r.unread ∧ r'.consumed = r.consumed ∧
      r'.buf.length ≤ if r.unread.head?.isSome then max r.buf.length 1 else r.buf.length := by
  obtain ⟨htake, hdrop⟩ := ChunkSource.read_eq 1 r.reader
  simp only [Read.peek]
  split
  · next byte buf hbuf =>
      have hhead : r.unread.head? = some byte := by rw [unread, hbuf, List.cons_append, List.head?_cons]
      rw [hhead]
      exact ⟨r, rfl, rfl, rfl, le_max_left _ _⟩
  · next hbuf =>
      have hunread : r.unread = r.reader.bytes := by rw [unread, hbuf, List.nil_append]
      rw [hunread]
      cases hbytes : r.reader.bytes with
      | nil =>
          rw [hbytes] at htake hdrop
          cases hread : r.reader.read 1 with
          | mk delivered reader =>
              rw [hread] at htake hdrop
              obtain rfl : delivered = [] := htake
              refine ⟨_, rfl, ?_, rfl, ?_⟩
              · simpa [unread, hbuf] using hdrop
              · simp
      | cons byte rest =>
          rw [hbytes] at htake hdrop
          cases hread : r.reader.read 1 with
          | mk delivered reader =>
              rw [hread] at htake hdrop
              obtain rfl : delivered = [byte] := htake
              refine ⟨_, rfl, ?_, rfl, ?_⟩
              · simpa [unread] using hdrop
              · simp [hbuf]

theorem next_spec (r : IoReader) :
    (∃ byte rest r', r.unread = byte :: rest ∧ Read.next r = (.ok (some byte), r') ∧
        r'.unread = rest ∧ r'.consumed = r.consumed + 1 ∧ r'.buf.length = r.buf.length - 1) ∨
      (r.unread = [] ∧ ∃ e r', Read.next r = (.error e, r')) := by
  obtain ⟨htake, hdrop⟩ := ChunkSource.read_eq 1 r.reader
  simp only [Read.next]
  split
  · next byte buf hbuf =>
      refine .inl ⟨byte, buf ++ r.reader.bytes, _, ?_, rfl, rfl, rfl, ?_⟩
      · rw [unread, hbuf, List.cons_append]
      · rw [hbuf]
        rfl
  · next hbuf =>
      have hunread : r.unread = r.reader.bytes := by rw [unread, hbuf, List.nil_append]
      rw [hunread]
      cases hbytes : r.reader.bytes with
      | nil =>
          rw [hbytes] at htake
          cases hread : r.reader.read 1 with
          | mk delivered reader =>
              rw [hread] at htake
              obtain rfl : delivered = [] := htake
              exact .inr ⟨rfl, _, _, rfl⟩
      | cons byte rest =>
          rw [hbytes] at htake hdrop
          cases hread : r.reader.read 1 with
          | mk delivered reader =>
              rw [hread] at htake hdrop
              obtain rfl : delivered = [byte] := htake
              refine .inl ⟨byte, rest, _, rfl, rfl, ?_, rfl, ?_⟩
              · simpa [unread, hbuf] using hdrop
              · rw [hbuf]
                rfl

theorem readExact_spec (n : Nat) (r : IoReader) :
    (n ≤ r.unread.length ∧ ∃ r', Read.readExact n r = (.ok (r.unread.take n), r') ∧
        r'.unread = r.unread.drop n ∧ r'.consumed = r.consumed + n ∧
          r'.buf.length = r.buf.length - n) ∨
      (r.unread.length < n ∧ ∃ e r', Read.readExact n r = (.error e, r')) := by
  obtain ⟨htake, hdrop⟩ := ChunkSource.read_eq (n - r.buf.length) r.reader
  have hlength := length_read (n - r.buf.length) r.reader
  have hunread : r.unread.length = r.buf.length + r.reader.bytes.length := List.length_append
  simp only [Read.readExact]
  by_cases hshort : r.buf.length < n
  · rw [if_pos hshort]
    by_cases henough : n ≤ r.unread.length
    · rw [if_pos (by omega)]
      have htaken : r.buf ++ (r.reader.read (n - r.buf.length)).1 = r.unread.take n := by
        rw [htake, unread, List.take_append, List.take_of_length_le hshort.le]
      have hleft : (r.reader.read (n - r.buf.length)).2.bytes = r.unread.drop n := by
        rw [hdrop, unread, List.drop_append, List.drop_of_length_le hshort.le, List.nil_append]
      rw [htaken]
      refine .inl ⟨henough, _, rfl, hleft, rfl, ?_⟩
      simp only [List.length_nil]
      omega
    · rw [if_neg (by omega)]
      exact .inr ⟨not_le.mp henough, _, _, rfl⟩
  · rw [if_neg hshort]
    have hle := not_lt.mp hshort
    refine .inl ⟨by omega, r.drain n, ?_, ?_, ?_, ?_⟩
    · rw [take_buf hle]
    · exact unread_drain hle
    · rfl
    · exact List.length_drop

/-- `forward_read_bytes_with_hint`. -/
theorem forward_spec (n : Nat) (r : IoReader) :
    (n ≤ r.unread.length ∧
        ∃ r', Read.forwardReadBytesWithHint n r = (.ok (r.unread.take n), r') ∧
        r'.unread = r.unread.drop n ∧ r'.consumed = r.consumed + n ∧
          r'.buf.length = r.buf.length - n) ∨
      (r.unread.length < n ∧ ∃ e r', Read.forwardReadBytesWithHint n r = (.error e, r')) := by
  simp only [Read.forwardReadBytesWithHint]
  rcases fillBuffer_cases n r with ⟨hle, r', hfill, hunread, hconsumed, hbuf, hlength⟩ |
    ⟨hlt, r', hfill⟩
  · rw [hfill]
    refine .inl ⟨hle, r'.drain n, ?_, ?_, ?_, ?_⟩
    · dsimp only
      rw [take_buf hbuf, hunread]
    · rw [unread_drain hbuf, hunread]
    · simp only [drain, hconsumed]
    · simp only [drain, List.length_drop]
      omega
  · rw [hfill]
    exact .inr ⟨hlt, _, _, rfl⟩

end IoReader

def Deserializer.unread (t : Deserializer IoReader) : Bytes := t.reader.unread

namespace ReadersAgree

/-- The stream still delivers what the slice still holds. -/
structure Holds (r : SliceReader) (r' : IoReader) : Prop where
  unread : r.slice = r'.unread
  consumed : r.initialLen = r'.consumed + r.slice.length

/-- The same deserializer over a slice and over a stream. -/
structure Mirrors (s : Deserializer SliceReader) (t : Deserializer IoReader) : Prop where
  reader : Holds s.reader t.reader
  nonNativeType : s.nonNativeType = t.nonNativeType
  seqType : s.seqType = t.seqType
  enumType : s.enumType = t.enumType
  structEncoding : s.structEncoding = t.structEncoding
  elemFormatCode : s.elemFormatCode = t.elemFormatCode

theorem Mirrors.withReader {s : Deserializer SliceReader} {t : Deserializer IoReader}
    (h : Mirrors s t) {r : SliceReader} {r' : IoReader} (hreader : Holds r r') :
    Mirrors { s with reader := r } { t with reader := r' } :=
  ⟨hreader, h.nonNativeType, h.seqType, h.enumType, h.structEncoding, h.elemFormatCode⟩

/-- The element code is `e`; and, where this is followed, at most `k` bytes are peeked. -/
structure At (strict : Bool) (e : Option EncodingCodes) (k : Nat) (t : Deserializer IoReader) :
    Prop where
  code : t.elemFormatCode = e
  peeked : strict = true → t.reader.buf.length ≤ k

theorem At.le {strict : Bool} {e : Option EncodingCodes} {k k' : Nat} {t : Deserializer IoReader}
    (h : At strict e k t) (hle : k ≤ k') : At strict e k' t :=
  ⟨h.code, fun hstrict => (h.peeked hstrict).trans hle⟩


/-- Over both readers, from states in `P`, the same value in states in `Q`, or failures. -/
def Agree {α : Type} (P : Deserializer IoReader → Prop) (p : De SliceReader α) (q : De IoReader α)
    (Q : α → Deserializer IoReader → Prop) : Prop :=
  RunsAlike (fun s t => Mirrors s t ∧ P t) p q fun a s t => Mirrors s t ∧ Q a t

namespace Agree

variable {α β : Type} {P P' : Deserializer IoReader → Prop}
  {Q Q' : α → Deserializer IoReader → Prop} {S : β → Deserializer IoReader → Prop}
  {p : De SliceReader α} {q : De IoReader α}

theorem mono (h : Agree P' p q Q') (hpre : ∀ t, P t → P' t) (hpost : ∀ a t, Q' a t → Q a t) :
    Agree P p q Q :=
  RunsAlike.mono h (fun _ t hP => ⟨hP.1, hpre t hP.2⟩) fun a _ t hQ => ⟨hQ.1, hpost a t hQ.2⟩

theorem pre {M : Deserializer IoReader → Prop} (h : Agree M p q Q) (hpre : ∀ t, P t → M t) :
    Agree P p q Q :=
  h.mono hpre fun _ _ hQ => hQ

theorem post (h : Agree P p q Q') (hpost : ∀ a t, Q' a t → Q a t) : Agree P p q Q :=
  h.mono (fun _ hP => hP) hpost

theorem pure {a : α} (h : ∀ t, P t → Q a t) : Agree P (Pure.pure a) (Pure.pure a) Q :=
  RunsAlike.pure a fun _ t hP => ⟨hP.1, h t hP.2⟩

theorem err {e e' : SerdeError} : Agree P (De.err e) (De.err e') Q := RunsAlike.throw _ _

theorem custom {text text' : String} : Agree P (De.custom text) (De.custom text') Q :=
  RunsAlike.throw _ _

theorem invalidType : Agree P De.invalidType De.invalidType Q := RunsAlike.throw _ _

theorem panic : Agree P De.panic De.panic Q := RunsAlike.throw _ _

theorem bind {f : α → De SliceReader β} {g : α → De IoReader β} (h : Agree P p q Q)
    (hrest : ∀ a, Agree (Q a) (f a) (g a) S) : Agree P (p >>= f) (q >>= g) S :=
  RunsAlike.bind h hrest

theorem map (f : α → β) (h : Agree P p q fun a t => S (f a) t) : Agree P (f <$> p) (f <$> q) S := by
  intro s t hP
  have hrun := h s t hP
  change Outcomes _ (EStateM.map f p s) (EStateM.map f q t)
  simp only [EStateM.map]
  generalize p s = x, q t = y at hrun
  cases hrun with
  | ok hQ => exact .ok hQ
  | error => exact .error

/-- What is shown for every start state. -/
theorem of_forall (h : ∀ t₀, P t₀ → Agree (fun t => t = t₀) p q Q) : Agree P p q Q :=
  fun s t hP => h t hP.2 s t ⟨hP.1, rfl⟩

/-- What the start states have in common may be used. -/
theorem assuming {A : Prop} (hA : ∀ t, P t → A) (h : A → Agree P p q Q) : Agree P p q Q :=
  fun s t hP => h (hA t hP.2) s t hP

theorem get {f : Deserializer SliceReader → De SliceReader α}
    {g : Deserializer IoReader → De IoReader α}
    (h : ∀ s t, Mirrors s t → P t → Agree (fun t' => t' = t) (f s) (g t) Q) :
    Agree P (MonadState.get >>= f) (MonadState.get >>= g) Q :=
  fun s t hP => h s t hP.1 hP.2 s t ⟨hP.1, rfl⟩

/-- Reading the state only chooses how to go on. -/
theorem get_choose {f : Deserializer SliceReader → De SliceReader α}
    {g : Deserializer IoReader → De IoReader α}
    (h : ∀ s t, Mirrors s t → Agree P (f s) (g t) Q) :
    Agree P (MonadState.get >>= f) (MonadState.get >>= g) Q := by
  apply get
  intro s t hmirrors hP
  refine (h s t hmirrors).pre ?_
  rintro _ rfl
  exact hP

theorem modify {f : Deserializer SliceReader → Deserializer SliceReader}
    {g : Deserializer IoReader → Deserializer IoReader} {Q : Deserializer IoReader → Prop}
    (h : ∀ s t, Mirrors s t → P t → Mirrors (f s) (g t) ∧ Q (g t)) :
    Agree P (modifyGet fun s => ((), f s)) (modifyGet fun t => ((), g t)) fun _ => Q :=
  fun s t hP => .ok (h s t hP.1 hP.2)

theorem ofExcept (x : Except SerdeError α) (h : ∀ a t, P t → Q a t) :
    Agree P (De.ofExcept x) (De.ofExcept x) Q := by
  cases x with
  | ok a => exact pure (h a)
  | error e => exact err

theorem err_bind {e e' : SerdeError} {f : α → De SliceReader β} {g : α → De IoReader β} :
    Agree P (De.err e >>= f) (De.err e' >>= g) S :=
  fun _ _ _ => .error

theorem ofExcept_bind {x : Except SerdeError α} {f : α → De SliceReader β} {g : α → De IoReader β}
    (h : ∀ a, x = .ok a → Agree P (f a) (g a) S) :
    Agree P (De.ofExcept x >>= f) (De.ofExcept x >>= g) S := by
  cases x with
  | ok a => exact h a rfl
  | error e => exact err_bind

/-! ## The operations of the readers -/

variable {strict : Bool} {e : Option EncodingCodes} {k : Nat} {bytes : Bytes}

theorem peek : Agree (fun t => At strict e k t ∧ t.unread = bytes) De.peek De.peek
    fun byte t => byte = bytes.head? ∧ At strict e (if byte.isSome then max k 1 else k) t ∧
      t.unread = bytes := by
  rintro s t ⟨hmirrors, hat, rfl⟩
  obtain ⟨hunread, hconsumed⟩ := hmirrors.reader
  obtain ⟨r, hpeek, hsame, hcount, hlength⟩ := t.reader.peek_spec
  have hslice : De.peek s = .ok t.reader.unread.head? s := by
    rw [← hunread]
    rfl
  have hstream : De.peek t = .ok t.reader.unread.head? { t with reader := r } := by
    simp only [De.peek, hpeek]
  rw [hslice, hstream]
  refine .ok ⟨hmirrors.withReader ⟨hunread.trans hsame.symm, ?_⟩, rfl, ⟨hat.code, fun h => ?_⟩, hsame⟩
  · rw [hcount]
    exact hconsumed
  · refine hlength.trans ?_
    have hle := hat.peeked h
    split_ifs
    · exact max_le_max_right 1 hle
    · exact hle

theorem next {text : String} :
    Agree (fun t => At strict e k t ∧ t.unread = bytes) (De.next text) (De.next text)
      fun byte t => At strict e (k - 1) t ∧ bytes = byte :: t.unread := by
  rintro s t ⟨hmirrors, hat, rfl⟩
  obtain ⟨hunread, hconsumed⟩ := hmirrors.reader
  have hslice : De.next text s =
      De.next text { s with reader := SliceReader.mk t.reader.unread s.reader.initialLen } := by
    rw [← hunread]
  rcases t.reader.next_spec with ⟨byte, rest, r, hbytes, hnext, hrest, hcount, hlength⟩ |
    ⟨hbytes, e, r, hnext⟩
  · have hstream : De.next text t = .ok byte { t with reader := r } := by
      simp only [De.next, De.read, Bind.bind, EStateM.bind, hnext]
      rfl
    have hstart : De.next text { s with reader := SliceReader.mk (byte :: rest) s.reader.initialLen } =
        .ok byte { s with reader := SliceReader.mk rest s.reader.initialLen } := rfl
    have hholds : Holds ⟨rest, s.reader.initialLen⟩ r := by
      refine ⟨hrest.symm, ?_⟩
      rw [hunread, hbytes, List.length_cons] at hconsumed
      dsimp only
      omega
    rw [hslice, hstream, hbytes, hstart]
    refine .ok ⟨hmirrors.withReader hholds, ?_⟩
    constructor
    · refine ⟨hat.code, fun h => ?_⟩
      have hle := hat.peeked h
      dsimp only
      omega
    · simp only [Deserializer.unread, hbytes, hrest]
  · have hstream : De.next text t = .error (.err e) { t with reader := r } := by
      simp only [De.next, De.read, Bind.bind, EStateM.bind, hnext]
    rw [hslice, hstream, hbytes]
    exact .error

/-- An operation that hands out the next `n` bytes. -/
theorem takes {op : SliceReader → Except SerdeError Bytes × SliceReader}
    {op' : IoReader → Except SerdeError Bytes × IoReader} (n : Nat)
    (hslice : ∀ r, n ≤ r.slice.length → op r = (.ok (r.slice.take n), { r with slice := r.slice.drop n }))
    (hshort : ∀ r, r.slice.length < n → ∃ e r', op r = (.error e, r'))
    (hstream : ∀ r : IoReader,
      (n ≤ r.unread.length ∧ ∃ r', op' r = (.ok (r.unread.take n), r') ∧
        r'.unread = r.unread.drop n ∧ r'.consumed = r.consumed + n ∧
          r'.buf.length = r.buf.length - n) ∨
      (r.unread.length < n ∧ ∃ e r', op' r = (.error e, r'))) :
    Agree (fun t => At strict e k t ∧ t.unread = bytes) (De.read op) (De.read op')
      fun a t => At strict e (k - n) t ∧ n ≤ bytes.length ∧ a = bytes.take n ∧
        t.unread = bytes.drop n := by
  rintro s t ⟨hmirrors, hat, rfl⟩
  obtain ⟨hunread, hconsumed⟩ := hmirrors.reader
  rcases hstream t.reader with ⟨hle, r, hop', hrest, hcount, hlength⟩ | ⟨hlt, e, r, hop'⟩
  · have hop := hslice s.reader (by rw [hunread]; exact hle)
    simp only [De.read, hop, hop', hunread]
    have hholds : Holds { s.reader with slice := t.reader.unread.drop n } r := by
      refine ⟨hrest.symm, ?_⟩
      rw [hunread] at hconsumed
      dsimp only
      rw [hconsumed, hcount, List.length_drop]
      omega
    refine .ok ⟨hmirrors.withReader hholds, ⟨hat.code, fun h => ?_⟩, hle, rfl, hrest⟩
    have hpeeked := hat.peeked h
    dsimp only
    omega
  · obtain ⟨e', r', hop⟩ := hshort s.reader (by rw [hunread]; exact hlt)
    simp only [De.read, hop, hop']
    exact .error

theorem readBytes (n : Nat) :
    Agree (fun t => At strict e k t ∧ t.unread = bytes) (De.readBytes n) (De.readBytes n)
      fun a t => At strict e (k - n) t ∧ n ≤ bytes.length ∧ a = bytes.take n ∧
        t.unread = bytes.drop n := by
  apply takes n
  · intro r hle
    simp only [Read.readExact, if_pos hle]
  · intro r hlt
    simp only [Read.readExact, if_neg (not_le.mpr hlt)]
    exact ⟨_, _, rfl⟩
  · exact IoReader.readExact_spec n

theorem forwardReadBytesWithHint (n : Nat) :
    Agree (fun t => At strict e k t ∧ t.unread = bytes) (De.read (Read.forwardReadBytesWithHint n))
      (De.read (Read.forwardReadBytesWithHint n))
      fun a t => At strict e (k - n) t ∧ n ≤ bytes.length ∧ a = bytes.take n ∧
        t.unread = bytes.drop n := by
  apply takes n
  · intro r hle
    simp only [Read.forwardReadBytesWithHint, SliceReader.getByteSlice, if_neg (not_lt.mpr hle)]
  · intro r hlt
    simp only [Read.forwardReadBytesWithHint, SliceReader.getByteSlice, if_pos hlt]
    exact ⟨_, _, rfl⟩
  · exact IoReader.forward_spec n

theorem peekBytes (n : Nat) {text : String} :
    Agree (fun t => At strict e k t ∧ t.unread = bytes) (De.peekBytes n text) (De.peekBytes n text)
      fun a t => At strict e (max k n) t ∧ n ≤ bytes.length ∧ a = bytes.take n ∧ t.unread = bytes := by
  rintro s t ⟨hmirrors, hat, rfl⟩
  obtain ⟨hunread, hconsumed⟩ := hmirrors.reader
  rcases t.reader.fillBuffer_cases n with ⟨hle, r, hfill, hsame, hcount, hbuf, hlength⟩ |
    ⟨hlt, r, hfill⟩
  · have hstream : De.peekBytes n text t = .ok (t.reader.unread.take n) { t with reader := r } := by
      simp only [De.peekBytes, De.read, Bind.bind, EStateM.bind, Read.peekBytes, hfill,
        IoReader.take_buf hbuf, hsame]
      rfl
    have hslice : De.peekBytes n text s = .ok (t.reader.unread.take n) s := by
      have hlong : n ≤ s.reader.slice.length := by rw [hunread]; exact hle
      simp only [De.peekBytes, De.read, Bind.bind, EStateM.bind, Read.peekBytes, if_pos hlong, ← hunread]
      rfl
    rw [hslice, hstream]
    refine .ok ⟨hmirrors.withReader ⟨hunread.trans hsame.symm, ?_⟩, ⟨hat.code, fun h => ?_⟩, hle, rfl,
      hsame⟩
    · rw [hcount]
      exact hconsumed
    · have hpeeked := hat.peeked h
      dsimp only
      omega
  · have hstream : De.peekBytes n text t = .error (.err IoReader.eof) { t with reader := r } := by
      simp only [De.peekBytes, De.read, Bind.bind, EStateM.bind, Read.peekBytes, hfill]
    have hslice : De.peekBytes n text s = .error (.err (.unexpectedEof text)) s := by
      have hshort : ¬n ≤ s.reader.slice.length := by rw [hunread]; exact not_le.mpr hlt
      simp only [De.peekBytes, De.read, Bind.bind, EStateM.bind, Read.peekBytes, if_neg hshort]
      rfl
    rw [hslice, hstream]
    exact .error

theorem forwardReadStr (n : Nat) :
    Agree (fun t => At strict e k t) (De.read (Read.forwardReadStr n)) (De.read (Read.forwardReadStr n))
      fun _ t => At strict e (k - n) t := by
  rintro s t ⟨hmirrors, hat⟩
  obtain ⟨hunread, hconsumed⟩ := hmirrors.reader
  simp only [De.read, Read.forwardReadStr, SliceReader.getByteSlice]
  rcases t.reader.fillBuffer_cases n with ⟨hle, r, hfill, hsame, hcount, hbuf, hlength⟩ |
    ⟨hlt, r, hfill⟩
  · have hlong : ¬s.reader.slice.length < n := by rw [hunread]; exact not_lt.mpr hle
    rw [if_neg hlong]
    simp only [hfill, IoReader.take_buf hbuf, hsame, hunread]
    cases fromUtf8 (t.reader.unread.take n) with
    | none => exact .error
    | some text =>
        refine .ok ⟨hmirrors.withReader ⟨?_, ?_⟩, hat.code, fun h => ?_⟩
        · rw [IoReader.unread_drain hbuf, hsame]
        · rw [hunread] at hconsumed
          simp only [IoReader.drain, List.length_drop, hcount, hconsumed]
          omega
        · have hpeeked := hat.peeked h
          simp only [IoReader.drain, List.length_drop]
          omega
  · have hshort : s.reader.slice.length < n := by rw [hunread]; exact hlt
    rw [if_pos hshort]
    simp only [hfill]
    exact .error

/-! ## The operations by what is peeked -/

/-- What is shown for every sequence of unread bytes. -/
theorem of_bytes (h : ∀ bytes, Agree (fun t => P t ∧ t.unread = bytes) p q Q) : Agree P p q Q :=
  fun s t hP => h t.unread s t ⟨hP.1, hP.2, rfl⟩

theorem next_at {text : String} :
    Agree (At strict e k) (De.next text) (De.next text) fun _ => At strict e (k - 1) :=
  of_bytes fun _ => next.post fun _ _ h => h.1

theorem readBytes_at (n : Nat) :
    Agree (At strict e k) (De.readBytes n) (De.readBytes n) fun _ => At strict e (k - n) :=
  of_bytes fun _ => (readBytes n).post fun _ _ h => h.1

theorem peek_at : Agree (At strict e k) De.peek De.peek fun _ => At strict e (max k 1) :=
  of_bytes fun _ => peek.post fun byte _ h => h.2.1.le (by split_ifs <;> simp)

theorem readU32 : Agree (At strict e 0) De.readU32 De.readU32 fun _ => At strict e 0 :=
  (readBytes_at 4).bind fun _ => pure fun _ h => h

theorem readFormatCode {text : String} :
    Agree (At strict e k) (De.readFormatCode text) (De.readFormatCode text)
      fun _ => At strict e (k - 1) :=
  Agree.bind next_at fun _ => ofExcept _ fun _ _ h => h

/-- What may be peeked in front of a value: its constructor, unless that is the element code. -/
abbrev ready : Option EncodingCodes → Nat
  | none => 1
  | some _ => 0

theorem ready_le (e : Option EncodingCodes) : ready e ≤ 1 := by
  cases e with
  | none => exact le_refl 1
  | some _ => exact Nat.zero_le 1

theorem getElemCodeOrReadFormatCode {text : String} :
    Agree (At strict e (ready e)) (De.getElemCodeOrReadFormatCode text)
      (De.getElemCodeOrReadFormatCode text) fun code t => At strict e 0 t ∧ ∀ c, e = some c → code = c := by
  apply get
  intro s t hmirrors hat
  rw [hmirrors.elemFormatCode, hat.code]
  cases e with
  | none =>
      have hread : Agree (At strict none 1) (De.readFormatCode text) (De.readFormatCode text)
          fun _ => At strict none 0 := readFormatCode
      refine hread.mono (fun t' ht => ?_) fun code t h => ⟨h, by simp⟩
      rw [ht]
      exact hat
  | some c =>
      apply pure
      rintro t' rfl
      refine ⟨hat, ?_⟩
      rintro _ ⟨⟩
      rfl

theorem formatCode {text : String} :
    Agree (At strict e (ready e)) (De.getElemCodeOrReadFormatCode text)
      (De.getElemCodeOrReadFormatCode text) fun _ => At strict e 0 :=
  getElemCodeOrReadFormatCode.post fun _ _ h => h.1

end Agree

end ReadersAgree

end Fe2o3Amqp
