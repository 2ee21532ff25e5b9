import Fe2o3Amqp.Link.Relay
import Mathlib.Tactic.Common

/-!
# Reading across chunks

`ByteReader` and `ByteReaderIter`: the payloads of a delivery as one stream of bytes, and as one
iterator that is walked from both ends.
-/

namespace Fe2o3Amqp

/-- `Buf::copy_to_slice` into `dst[start..start + src.len()]`. -/
def copyToSlice (src : Bytes) (start : Nat) (dst : Bytes) : Bytes :=
  dst.take start ++ src ++ dst.drop (start + src.length)

structure ByteReader where
  inner : List Payload

namespace ByteReader

/-- The loop of `read` from the payload it has come to, with the number of bytes it has read and the
buffer as it stands. -/
def readLoop (nbytesRead : Nat) (dst : Bytes) : List Payload → Nat × Bytes × List Payload
  | [] => (nbytesRead, dst, [])
  | payload :: inner =>
      if payload.length ≥ dst.length - nbytesRead then
        let missing := dst.length - nbytesRead
        (dst.length, copyToSlice (payload.take missing) nbytesRead dst, payload.drop missing :: inner)
      else if payload.length < dst.length then
        let result := readLoop (nbytesRead + payload.length) (copyToSlice payload nbytesRead dst) inner
        (result.1, result.2.1, [] :: result.2.2)
      else
        let result := readLoop nbytesRead dst inner
        (result.1, result.2.1, payload :: result.2.2)

/-- `io::Read::read`: the number of bytes read, the buffer and the reader. -/
def read (dst : Bytes) (reader : ByteReader) : Nat × Bytes × ByteReader :=
  let result := readLoop 0 dst reader.inner
  (result.1, result.2.1, ⟨result.2.2⟩)

/-- `into_reader` of the payloads. -/
def new (payloads : List Payload) : ByteReader := ⟨payloads⟩

/-- Calls of `read` with these buffers: what each call has put into its buffer, and the reader. -/
def reads : List Bytes → ByteReader → List Bytes × ByteReader
  | [], reader => ([], reader)
  | dst :: dsts, reader =>
      let result := reader.read dst
      let later := reads dsts result.2.2
      (result.2.1.take result.1 :: later.1, later.2)

/-- The bytes that have not been read. -/
def unread (reader : ByteReader) : Bytes := reader.inner.flatten

private theorem readLoop_eq (done dst : Bytes) (inner : List Payload) :
    (readLoop done.length (done ++ dst) inner).1 =
        done.length + (inner.flatten.take dst.length).length ∧
      (readLoop done.length (done ++ dst) inner).2.1 =
        done ++ inner.flatten.take dst.length ++ dst.drop inner.flatten.length ∧
      (readLoop done.length (done ++ dst) inner).2.2.flatten = inner.flatten.drop dst.length := by
  induction inner generalizing done dst with
  | nil => simp [readLoop]
  | cons payload inner ih =>
      have hmissing : (done ++ dst).length - done.length = dst.length := by simp
      rw [readLoop, hmissing, List.flatten_cons]
      by_cases henough : payload.length ≥ dst.length
      · have htake : (payload ++ inner.flatten).take dst.length = payload.take dst.length :=
          List.take_append_of_le_length henough
        have hlength : (payload.take dst.length).length = dst.length := by simp [henough]
        have hdrop : dst.drop (payload ++ inner.flatten).length = [] := by
          apply List.drop_eq_nil_of_le
          rw [List.length_append]
          omega
        rw [if_pos henough, htake, hdrop]
        refine ⟨by simp [hlength], ?_, ?_⟩
        · simp [copyToSlice, hlength]
        · rw [List.flatten_cons, List.drop_append_of_le_length henough]
      · have hshort : payload.length < (done ++ dst).length := by
          rw [List.length_append]
          omega
        have hcopied : copyToSlice payload done.length (done ++ dst) =
            (done ++ payload) ++ dst.drop payload.length := by
          simp [copyToSlice]
        have hcount : done.length + payload.length = (done ++ payload).length := by simp
        obtain ⟨hread, hbuffer, hrest⟩ := ih (done ++ payload) (dst.drop payload.length)
        have htake : (payload ++ inner.flatten).take dst.length =
            payload ++ inner.flatten.take (dst.drop payload.length).length := by
          rw [List.take_append, List.take_of_length_le (by omega), List.length_drop]
        have hdrop : (payload ++ inner.flatten).drop dst.length =
            inner.flatten.drop (dst.drop payload.length).length := by
          rw [List.drop_append, List.drop_of_length_le (by omega), List.length_drop, List.nil_append]
        rw [if_neg henough, if_pos hshort, hcopied, hcount, htake, hdrop]
        refine ⟨?_, ?_, ?_⟩
        · rw [hread]
          simp [Nat.add_assoc]
        · rw [hbuffer]
          simp
        · rw [List.flatten_cons, List.nil_append, hrest]

/-- A call of `read` fills the buffer from the front of what has not been read, and leaves the rest of
the buffer alone. -/
theorem read_eq (dst : Bytes) (reader : ByteReader) :
    (reader.read dst).1 = (reader.unread.take dst.length).length ∧
      (reader.read dst).2.1 = reader.unread.take dst.length ++ dst.drop reader.unread.length ∧
      (reader.read dst).2.2.unread = reader.unread.drop dst.length := by
  have h := readLoop_eq [] dst reader.inner
  simp only [List.length_nil, List.nil_append, Nat.zero_add] at h
  exact h

theorem read_take (dst : Bytes) (reader : ByteReader) :
    (reader.read dst).2.1.take (reader.read dst).1 = reader.unread.take dst.length := by
  obtain ⟨hread, hbuffer, -⟩ := reader.read_eq dst
  rw [hread, hbuffer, List.take_left']
  rfl

theorem reads_flatten (dsts : List Bytes) (reader : ByteReader) :
    (reader.reads dsts).1.flatten ++ (reader.reads dsts).2.unread = reader.unread := by
  induction dsts generalizing reader with
  | nil => rfl
  | cons dst dsts ih =>
      obtain ⟨-, -, hrest⟩ := reader.read_eq dst
      rw [reads, List.flatten_cons, List.append_assoc, ih, hrest, read_take, List.take_append_drop]

end ByteReader

/-! ## The iterator -/

/-- A slice iterator for each payload, as the bytes it has not yielded. -/
structure ByteReaderIter where
  inner : List Bytes

namespace ByteReaderIter

/-- `as_byte_iterator` of the payloads. -/
def new (payloads : List Payload) : ByteReaderIter := ⟨payloads⟩

/-- The flattened iterators, of which the first that has a byte yields it. -/
def firstByte : List Bytes → Option UInt8 × List Bytes
  | [] => (none, [])
  | [] :: inner => ((firstByte inner).1, [] :: (firstByte inner).2)
  | (byte :: iter) :: inner => (some byte, iter :: inner)

/-- The flattened iterators from the back, the last of them first. -/
def lastByte : List Bytes → Option UInt8 × List Bytes
  | [] => (none, [])
  | iter :: inner =>
      match iter.getLast? with
      | some byte => (some byte, iter.dropLast :: inner)
      | none => ((lastByte inner).1, iter :: (lastByte inner).2)

def next (iterator : ByteReaderIter) : Option UInt8 × ByteReaderIter :=
  ((firstByte iterator.inner).1, ⟨(firstByte iterator.inner).2⟩)

def nextBack (iterator : ByteReaderIter) : Option UInt8 × ByteReaderIter :=
  ((lastByte iterator.inner.reverse).1, ⟨(lastByte iterator.inner.reverse).2.reverse⟩)

def len (iterator : ByteReaderIter) : Nat := (iterator.inner.map List.length).sum

/-- The bytes that have not been yielded. -/
def bytes (iterator : ByteReaderIter) : Bytes := iterator.inner.flatten

/-- The ends from which an iterator is walked. -/
inductive Side
  | front
  | back
deriving DecidableEq

/-- What the calls of a walk have yielded at the front and at the back, each in the order of the
calls, and the iterator that is left. -/
structure Walk where
  fronts : Bytes
  backs : Bytes
  iterator : ByteReaderIter

def Walk.step (walk : Walk) : Side → Walk
  | .front =>
      { walk with
        fronts := walk.fronts ++ walk.iterator.next.1.toList
        iterator := walk.iterator.next.2 }
  | .back =>
      { walk with
        backs := walk.backs ++ walk.iterator.nextBack.1.toList
        iterator := walk.iterator.nextBack.2 }

/-- An iterator walked from these ends. -/
def walk (iterator : ByteReaderIter) (sides : List Side) : Walk :=
  sides.foldl Walk.step ⟨[], [], iterator⟩

private theorem firstByte_eq (inner : List Bytes) :
    (firstByte inner).1 = inner.flatten.head? ∧
      (firstByte inner).2.flatten = inner.flatten.tail := by
  induction inner with
  | nil => exact ⟨rfl, rfl⟩
  | cons iter inner ih =>
      cases iter with
      | nil => exact ih
      | cons byte iter => exact ⟨rfl, rfl⟩

private theorem lastByte_eq (inner : List Bytes) :
    (lastByte inner).1 = inner.reverse.flatten.getLast? ∧
      (lastByte inner).2.reverse.flatten = inner.reverse.flatten.dropLast := by
  induction inner with
  | nil => exact ⟨rfl, rfl⟩
  | cons iter inner ih =>
      rw [List.reverse_cons, List.flatten_append, List.flatten_singleton, lastByte]
      rcases List.eq_nil_or_concat iter with rfl | ⟨front, byte, rfl⟩
      · rw [List.append_nil]
        exact ⟨ih.1, by simpa using ih.2⟩
      · simp only [List.concat_eq_append, List.getLast?_append, List.getLast?_singleton,
          Option.some_or, List.dropLast_concat, ← List.append_assoc]
        simp

/-- `next` yields the first of the bytes. -/
theorem next_eq (iterator : ByteReaderIter) :
    iterator.next.1 = iterator.bytes.head? ∧ iterator.next.2.bytes = iterator.bytes.tail :=
  firstByte_eq iterator.inner

/-- `next_back` yields the last of the bytes. -/
theorem nextBack_eq (iterator : ByteReaderIter) :
    iterator.nextBack.1 = iterator.bytes.getLast? ∧
      iterator.nextBack.2.bytes = iterator.bytes.dropLast := by
  have h := lastByte_eq iterator.inner.reverse
  rwa [List.reverse_reverse] at h

@[simp] theorem len_eq (iterator : ByteReaderIter) : iterator.len = iterator.bytes.length :=
  List.length_flatten.symm

namespace Walk

/-- The bytes that a walk started with: those yielded at the front, those left and those yielded at
the back. -/
def whole (walk : Walk) : Bytes := walk.fronts ++ walk.iterator.bytes ++ walk.backs.reverse

/-- A call takes a byte from its end, if there is one. -/
theorem whole_step (walk : Walk) (side : Side) : (walk.step side).whole = walk.whole := by
  cases side with
  | front =>
      obtain ⟨hbyte, hrest⟩ := walk.iterator.next_eq
      have hbytes : walk.iterator.bytes =
          walk.iterator.bytes.head?.toList ++ walk.iterator.bytes.tail := by
        cases walk.iterator.bytes <;> rfl
      simp only [step, whole]
      rw [hbyte, hrest, List.append_assoc walk.fronts, ← hbytes]
  | back =>
      obtain ⟨hbyte, hrest⟩ := walk.iterator.nextBack_eq
      have hbytes : walk.iterator.bytes =
          walk.iterator.bytes.dropLast ++ walk.iterator.bytes.getLast?.toList := by
        rcases List.eq_nil_or_concat walk.iterator.bytes with h | ⟨front, byte, h⟩
        · rw [h]
          rfl
        · rw [h]
          simp
      have hreverse : walk.iterator.bytes.getLast?.toList.reverse =
          walk.iterator.bytes.getLast?.toList := by
        cases walk.iterator.bytes.getLast? <;> rfl
      simp only [step, whole]
      rw [hbyte, hrest, List.reverse_append, hreverse, ← List.append_assoc,
        List.append_assoc walk.fronts, ← hbytes]

/-- The number of bytes left after a call is one less, unless there is none. -/
theorem length_step (walk : Walk) (side : Side) :
    (walk.step side).iterator.bytes.length = walk.iterator.bytes.length - 1 := by
  cases side with
  | front => simp [step, walk.iterator.next_eq.2]
  | back => simp [step, walk.iterator.nextBack_eq.2]

end Walk

theorem walk_snoc (iterator : ByteReaderIter) (sides : List Side) (side : Side) :
    iterator.walk (sides ++ [side]) = (iterator.walk sides).step side := by
  simp [walk]

/-- Along a walk no byte is lost, repeated or out of order, and every call takes one while there are
any. -/
theorem walk_eq (iterator : ByteReaderIter) (sides : List Side) :
    (iterator.walk sides).whole = iterator.bytes ∧
      (iterator.walk sides).iterator.bytes.length = iterator.bytes.length - sides.length := by
  induction sides using List.reverseRecOn with
  | nil => simp [walk, Walk.whole]
  | append_singleton sides side ih =>
      obtain ⟨hwhole, hlength⟩ := ih
      rw [walk_snoc, Walk.whole_step, Walk.length_step, hlength, List.length_append]
      exact ⟨hwhole, by simp [Nat.sub_sub]⟩

end ByteReaderIter

/-- Reading across chunks is reading their concatenation.  After any reads, a read hands out the
front of what the reads before it have left, so that it hands out nothing, to a buffer that is not
empty, only at the end.  A walk of the iterator yields the bytes at each end in order, `next` and
`next_back` the first and the last of those that are left; when it has made as many calls as there are
bytes it has yielded them all. -/
theorem byteReader_reads_concatenation (chunks : List Payload) :
    (∀ dsts : List Bytes, ∀ dst : Bytes,
      let before := (ByteReader.new chunks).reads dsts
      let last := before.2.read dst
      let rest := chunks.flatten.drop before.1.flatten.length
      before.1.flatten ++ rest = chunks.flatten ∧
        last.1 = min dst.length rest.length ∧
        last.2.1 = rest.take dst.length ++ dst.drop rest.length ∧
        (last.1 = 0 ↔ dst = [] ∨ before.1.flatten = chunks.flatten)) ∧
      ∀ sides : List ByteReaderIter.Side,
        let walk := (ByteReaderIter.new chunks).walk sides
        walk.fronts ++ walk.iterator.bytes ++ walk.backs.reverse = chunks.flatten ∧
          walk.iterator.len = chunks.flatten.length - sides.length ∧
          walk.iterator.next.1 = walk.iterator.bytes.head? ∧
          walk.iterator.nextBack.1 = walk.iterator.bytes.getLast? := by
  refine ⟨?_, ?_⟩
  · intro dsts dst before last rest
    have hwhole : before.1.flatten ++ before.2.unread = chunks.flatten :=
      ByteReader.reads_flatten dsts (ByteReader.new chunks)
    have hrest : rest = before.2.unread := by
      change chunks.flatten.drop before.1.flatten.length = before.2.unread
      rw [← hwhole, List.drop_left]
    obtain ⟨hread, hbuffer, -⟩ := before.2.read_eq dst
    refine ⟨by rw [hrest, hwhole], ?_, ?_, ?_⟩
    · rw [hrest, ← List.length_take]
      exact hread
    · rw [hrest]
      exact hbuffer
    · have hlast : last.1 = min dst.length before.2.unread.length := by
        rw [← List.length_take]
        exact hread
      rw [hlast, ← hwhole, List.self_eq_append_right, ← List.length_eq_zero_iff,
        ← List.length_eq_zero_iff]
      omega
  · intro sides walk
    obtain ⟨hwhole, hlength⟩ := (ByteReaderIter.new chunks).walk_eq sides
    refine ⟨hwhole, ?_, walk.iterator.next_eq.1, walk.iterator.nextBack_eq.1⟩
    rw [ByteReaderIter.len_eq]
    exact hlength

end Fe2o3Amqp
