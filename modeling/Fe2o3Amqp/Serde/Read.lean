import Fe2o3Amqp.Serde.Format

/-!
# Readers

The `Read` trait of `serde_amqp` and its reader over a byte slice.  Every operation takes the
reader to its state afterwards; `remaining` bounds the bytes a reader can still deliver.
-/

namespace Fe2o3Amqp

/-- The method of a visitor that `forward_read_byte_buf` calls. -/
inductive ByteVisit where
  | bytes | byteBuf
deriving DecidableEq, Repr

class Read (R : Type) where
  peek : R → Option UInt8 × R
  bytesConsumed : R → Nat
  next : R → Except SerdeError (Option UInt8) × R
  peekBytes : Nat → R → Except SerdeError (Option Bytes) × R
  readExact : Nat → R → Except SerdeError Bytes × R
  /-- The bytes that `forward_read_bytes_with_hint` hands to the visitor. -/
  forwardReadBytesWithHint : Nat → R → Except SerdeError Bytes × R
  /-- The text that `forward_read_str` hands to the visitor. -/
  forwardReadStr : Nat → R → Except SerdeError String × R
  forwardReadByteBuf : ByteVisit
  remaining : R → Nat

/-- `SliceReader`: the bytes not yet consumed and the length of the whole slice. -/
structure SliceReader where
  slice : Bytes
  initialLen : Nat
deriving DecidableEq, Repr

namespace SliceReader

def new (slice : Bytes) : SliceReader := { slice, initialLen := slice.length }

/-- `get_byte_slice`: a slice that is too short stays where it is. -/
def getByteSlice (n : Nat) (r : SliceReader) : Except SerdeError Bytes × SliceReader :=
  if r.slice.length < n then (.error (.unexpectedEof ""), r)
  else (.ok (r.slice.take n), { r with slice := r.slice.drop n })

instance : Read SliceReader where
  peek r := (r.slice.head?, r)
  bytesConsumed r := r.initialLen - r.slice.length
  next r :=
    match r.slice with
    | [] => (.ok none, r)
    | byte :: rest => (.ok (some byte), { r with slice := rest })
  peekBytes n r := (.ok (if n ≤ r.slice.length then some (r.slice.take n) else none), r)
  -- `std::io::Read::read_exact` empties a slice that is too short
  readExact n r :=
    if n ≤ r.slice.length then (.ok (r.slice.take n), { r with slice := r.slice.drop n })
    else (.error (.unexpectedEof "failed to fill whole buffer"), { r with slice := [] })
  forwardReadBytesWithHint := getByteSlice
  forwardReadStr n r :=
    match getByteSlice n r with
    | (.error e, r) => (.error e, r)
    | (.ok bytes, r) =>
        match fromUtf8 bytes with
        | some text => (.ok text, r)
        | none => (.error .invalidUtf8Encoding, r)
  forwardReadByteBuf := .byteBuf
  remaining r := r.slice.length

end SliceReader

end Fe2o3Amqp
