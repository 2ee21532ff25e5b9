import Fe2o3Amqp.Serde.Value

/-!
# The reader over a stream

`IoReader`, which reads from a stream that hands out its bytes in chunks and keeps what it has peeked
in a buffer of its own.
-/

namespace Fe2o3Amqp

/-- What an `io::Read` still delivers, one chunk for each call that is not cut short by the caller's
buffer. -/
abbrev ChunkSource := List { chunk : Bytes // chunk ≠ [] }

namespace ChunkSource

def bytes (source : ChunkSource) : Bytes := (source.map Subtype.val).flatten

/-- The calls of `read` that `io::Read::read_exact` makes for a buffer of `n` bytes: what they put
into the buffer, up to the end of the stream. -/
def read : (n : Nat) → ChunkSource → Bytes × ChunkSource
  | 0, source => ([], source)
  | _ + 1, [] => ([], [])
  | n + 1, chunk :: source =>
      if h : n + 1 < chunk.1.length then
        (chunk.1.take (n + 1), ⟨chunk.1.drop (n + 1), by simpa using h⟩ :: source)
      else
        let delivered := read (n + 1 - chunk.1.length) source
        (chunk.1 ++ delivered.1, delivered.2)

theorem read_eq (n : Nat) (source : ChunkSource) :
    (read n source).1 = (bytes source).take n ∧ bytes (read n source).2 = (bytes source).drop n := by
  induction source generalizing n with
  | nil => cases n <;> simp [read, bytes]
  | cons chunk source ih =>
      cases n with
      | zero => simp [read]
      | succ n =>
          have hbytes : bytes (chunk :: source) = chunk.1 ++ bytes source := rfl
          rw [read, hbytes]
          split_ifs with h
          · constructor
            · rw [List.take_append_of_le_length (Nat.le_of_lt h)]
            · rw [List.drop_append_of_le_length (Nat.le_of_lt h)]
              rfl
          · obtain ⟨htake, hdrop⟩ := ih (n + 1 - chunk.1.length)
            have hle := Nat.not_lt.mp h
            dsimp only
            rw [List.take_append, List.drop_append, htake, hdrop, List.take_of_length_le hle,
              List.drop_of_length_le hle, List.nil_append]
            exact ⟨rfl, rfl⟩

end ChunkSource

/-- `IoReader`. -/
structure IoReader where
  reader : ChunkSource
  buf : Bytes
  consumed : Nat

namespace IoReader

def new (reader : ChunkSource) : IoReader := { reader, buf := [], consumed := 0 }

/-- The bytes that the reader has not handed out. -/
def unread (r : IoReader) : Bytes := r.buf ++ r.reader.bytes

def eof : SerdeError := .unexpectedEof "failed to fill whole buffer"

/-- `fill_buffer`: the buffer is resized before the stream is read. -/
def fillBuffer (len : Nat) (r : IoReader) : Except SerdeError Unit × IoReader :=
  if r.buf.length < len then
    let missing := len - r.buf.length
    let delivered := r.reader.read missing
    let padding := List.replicate (missing - delivered.1.length) 0
    let r := { r with reader := delivered.2, buf := r.buf ++ delivered.1 ++ padding }
    (if padding = [] then .ok () else .error eof, r)
  else (.ok (), r)

/-- `buf.drain(..n)` of bytes that are handed out. -/
def drain (n : Nat) (r : IoReader) : IoReader :=
  { r with buf := r.buf.drop n, consumed := r.consumed + n }

instance : Read IoReader where
  peek r :=
    match r.buf with
    | byte :: _ => (some byte, r)
    | [] =>
        match r.reader.read 1 with
        | (byte :: _, reader) => (some byte, { r with reader, buf := [byte] })
        | ([], reader) => (none, { r with reader })
  bytesConsumed r := r.consumed
  next r :=
    match r.buf with
    | byte :: buf => (.ok (some byte), { r with buf, consumed := r.consumed + 1 })
    | [] =>
        match r.reader.read 1 with
        | (byte :: _, reader) => (.ok (some byte), { r with reader, consumed := r.consumed + 1 })
        | ([], reader) => (.error eof, { r with reader })
  peekBytes n r :=
    match r.fillBuffer n with
    | (.ok _, r) => (.ok (some (r.buf.take n)), r)
    | (.error e, r) => (.error e, r)
  readExact n r :=
    if r.buf.length < n then
      let delivered := r.reader.read (n - r.buf.length)
      let r' := { r with reader := delivered.2, buf := [] }
      if delivered.1.length = n - r.buf.length then
        (.ok (r.buf ++ delivered.1), { r' with consumed := r.consumed + n })
      else (.error eof, r')
    else (.ok (r.buf.take n), r.drain n)
  forwardReadBytesWithHint n r :=
    match r.fillBuffer n with
    | (.ok _, r) => (.ok (r.buf.take n), r.drain n)
    | (.error e, r) => (.error e, r)
  forwardReadStr n r :=
    match r.fillBuffer n with
    | (.ok _, r) =>
        match fromUtf8 (r.buf.take n) with
        | some text => (.ok text, r.drain n)
        | none => (.error .invalidUtf8Encoding, r)
    | (.error e, r) => (.error e, r)
  forwardReadByteBuf := .bytes
  remaining r := r.unread.length

end IoReader

/-- `from_reader`. -/
def fromReader {α : Type} (program : De IoReader α) (reader : ChunkSource) : Except Failure α :=
  match program (Deserializer.new (IoReader.new reader)) with
  | .ok a _ => .ok a
  | .error failure _ => .error failure

/-- `LazyValue`, whose visitor takes owned bytes only. -/
def De.lazyValue {R : Type} [Read R] : De R Bytes := do
  setNonNativeType (some .lazyValue)
  let bytes ← deserializeByteBuf
  match Read.forwardReadByteBuf R with
  | .byteBuf => return bytes
  | .bytes => invalidType

end Fe2o3Amqp
