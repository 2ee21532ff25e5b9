import Mathlib.Data.UInt

/-!
# Saturating arithmetic on 32-bit words

Wrapping addition is the `+` of `UInt32`; this file adds the two saturating operations and their
values as natural numbers.
-/

namespace UInt32

def saturatingAdd (a b : UInt32) : UInt32 :=
  if a.toNat + b.toNat < 2 ^ 32 then a + b else 0xffffffff

def saturatingSub (a b : UInt32) : UInt32 :=
  if b.toNat ≤ a.toNat then a - b else 0

theorem toNat_saturatingAdd (a b : UInt32) :
    (saturatingAdd a b).toNat = min (a.toNat + b.toNat) (2 ^ 32 - 1) := by
  unfold saturatingAdd
  split
  · rw [UInt32.toNat_add]
    omega
  · have hmax : (0xffffffff : UInt32).toNat = 2 ^ 32 - 1 := rfl
    omega

@[simp] theorem toNat_saturatingSub (a b : UInt32) :
    (saturatingSub a b).toNat = a.toNat - b.toNat := by
  unfold saturatingSub
  split
  · rename_i h
    exact UInt32.toNat_sub_of_le a b (UInt32.le_iff_toNat_le.mpr h)
  · have hzero : (0 : UInt32).toNat = 0 := rfl
    omega

theorem pos_iff_toNat (a : UInt32) : 0 < a ↔ 0 < a.toNat := by
  rw [UInt32.lt_iff_toNat_lt]
  rfl

theorem eq_zero_iff_toNat (a : UInt32) : a = 0 ↔ a.toNat = 0 := by
  rw [← UInt32.toNat_inj]
  rfl

theorem toNat_add_one {a : UInt32} (h : a.toNat + 1 < 2 ^ 32) : (a + 1).toNat = a.toNat + 1 := by
  have hone : (1 : UInt32).toNat = 1 := rfl
  rw [UInt32.toNat_add, hone]
  omega

end UInt32
