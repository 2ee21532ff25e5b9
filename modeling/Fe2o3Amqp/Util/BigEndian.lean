import Mathlib.Algebra.Order.Ring.Nat
import Mathlib.Tactic.Ring

/-!
# Big-endian byte strings

The fixed-width big-endian representation of a natural number and the words read back from it.
-/

namespace BigEndian

/-- The `width` low bytes of `n`, most significant first. -/
def encode : (width : Nat) → (n : Nat) → List UInt8
  | 0, _ => []
  | width + 1, n => UInt8.ofNat (n / 256 ^ width) :: encode width n

/-- The number a byte string stands for. -/
def decode (bytes : List UInt8) : Nat :=
  bytes.foldl (fun n byte => n * 256 + byte.toNat) 0

@[simp] theorem length_encode (width n : Nat) : (encode width n).length = width := by
  induction width with
  | zero => rfl
  | succ width ih => simp [encode, ih]

private theorem foldl_encode (width n : Nat) (start : Nat) :
    (encode width n).foldl (fun n byte => n * 256 + byte.toNat) start
      = start * 256 ^ width + n % 256 ^ width := by
  induction width generalizing start with
  | zero => simp [encode, Nat.mod_one]
  | succ width ih =>
      have hsplit : n % 256 ^ (width + 1)
          = n / 256 ^ width % 256 * 256 ^ width + n % 256 ^ width := by
        rw [Nat.pow_succ, Nat.mod_mul, Nat.add_comm, Nat.mul_comm (256 ^ width)]
      simp only [encode, List.foldl_cons, ih, hsplit, UInt8.toNat_ofNat']
      ring

/-- Reading back the low bytes of a number gives the number modulo the range of the width. -/
theorem decode_encode (width n : Nat) : decode (encode width n) = n % 256 ^ width := by
  simpa [decode] using foldl_encode width n 0

theorem decode_encode_of_lt {width n : Nat} (h : n < 256 ^ width) :
    decode (encode width n) = n := by
  rw [decode_encode, Nat.mod_eq_of_lt h]

/-! ## Words -/

@[simp] theorem ofNat_decode_uint16 (v : UInt16) :
    UInt16.ofNat (decode (encode 2 v.toNat)) = v := by
  rw [decode_encode_of_lt (by simpa using v.toNat_lt), UInt16.ofNat_toNat]

@[simp] theorem ofNat_decode_uint32 (v : UInt32) :
    UInt32.ofNat (decode (encode 4 v.toNat)) = v := by
  rw [decode_encode_of_lt (by simpa using v.toNat_lt), UInt32.ofNat_toNat]

@[simp] theorem ofNat_decode_uint64 (v : UInt64) :
    UInt64.ofNat (decode (encode 8 v.toNat)) = v := by
  rw [decode_encode_of_lt (by simpa using v.toNat_lt), UInt64.ofNat_toNat]

@[simp] theorem ofNat_decode_int16 (v : Int16) :
    Int16.ofNat (decode (encode 2 v.toUInt16.toNat)) = v := by
  rw [← UInt16.toInt16_ofNat', ofNat_decode_uint16, Int16.toInt16_toUInt16]

@[simp] theorem ofNat_decode_int32 (v : Int32) :
    Int32.ofNat (decode (encode 4 v.toUInt32.toNat)) = v := by
  rw [← UInt32.toInt32_ofNat', ofNat_decode_uint32, Int32.toInt32_toUInt32]

@[simp] theorem ofNat_decode_int64 (v : Int64) :
    Int64.ofNat (decode (encode 8 v.toUInt64.toNat)) = v := by
  rw [← UInt64.toInt64_ofNat', ofNat_decode_uint64, Int64.toInt64_toUInt64]

/-- A byte string is a number below the range of its width. -/
theorem decode_lt (bytes : List UInt8) : decode bytes < 256 ^ bytes.length := by
  have step : ∀ (bytes : List UInt8) (start : Nat),
      bytes.foldl (fun n byte => n * 256 + byte.toNat) start < (start + 1) * 256 ^ bytes.length := by
    intro bytes
    induction bytes with
    | nil => intro start; simp
    | cons byte bytes ih =>
        intro start
        have hbyte : byte.toNat < 256 := byte.toNat_lt
        calc (byte :: bytes).foldl (fun n byte => n * 256 + byte.toNat) start
            < (start * 256 + byte.toNat + 1) * 256 ^ bytes.length := ih _
          _ ≤ ((start + 1) * 256) * 256 ^ bytes.length := by
              apply Nat.mul_le_mul_right
              omega
          _ = (start + 1) * 256 ^ (byte :: bytes).length := by
              rw [List.length_cons, Nat.pow_succ]
              ring
  simpa [decode] using step bytes 0

end BigEndian
