import Mathlib.Data.UInt
import Mathlib.Tactic.Common

/-!
# Base64

The standard alphabet with canonical padding: three bytes are written as four digits, and a last
group of one or two bytes is filled up with `=`.  A last group whose unused bits are set is rejected.
-/

namespace Base64

def alphabet : List Char :=
  ['A', 'B', 'C', 'D', 'E', 'F', 'G', 'H', 'I', 'J', 'K', 'L', 'M', 'N', 'O', 'P',
   'Q', 'R', 'S', 'T', 'U', 'V', 'W', 'X', 'Y', 'Z', 'a', 'b', 'c', 'd', 'e', 'f',
   'g', 'h', 'i', 'j', 'k', 'l', 'm', 'n', 'o', 'p', 'q', 'r', 's', 't', 'u', 'v',
   'w', 'x', 'y', 'z', '0', '1', '2', '3', '4', '5', '6', '7', '8', '9', '+', '/']

/-- The digit for six bits. -/
def digit (n : Nat) : Char := alphabet[n]?.getD '='

def value (c : Char) : Option Nat :=
  if c ∈ alphabet then some (alphabet.idxOf c) else none

theorem nodup_alphabet : alphabet.Nodup := by
  have hcodes : (alphabet.map Char.toNat).Nodup := by decide +kernel
  exact hcodes.of_map _

theorem digit_eq {n : Nat} (h : n < alphabet.length) : digit n = alphabet[n] := by
  rw [digit, List.getElem?_eq_getElem h, Option.getD_some]

theorem digit_mem {n : Nat} (h : n < 64) : digit n ∈ alphabet := by
  rw [digit_eq h]
  exact List.getElem_mem h

theorem value_digit {n : Nat} (h : n < 64) : value (digit n) = some n := by
  have hindex : n < alphabet.length := h
  rw [value, if_pos (digit_mem h), digit_eq hindex, nodup_alphabet.idxOf_getElem]

theorem digit_ne_pad {n : Nat} (h : n < 64) : digit n ≠ '=' := by
  intro heq
  have hmem := digit_mem h
  rw [heq] at hmem
  revert hmem
  decide

/-! ## Groups -/

/-- The bits of the first digit of a group; the others follow. -/
def first (a : UInt8) : Nat := a.toNat / 4

def second (a b : UInt8) : Nat := a.toNat % 4 * 16 + b.toNat / 16

def third (b c : UInt8) : Nat := b.toNat % 16 * 4 + c.toNat / 64

def fourth (c : UInt8) : Nat := c.toNat % 64

theorem first_lt (a : UInt8) : first a < 64 := by
  have ha := a.toNat_lt
  unfold first
  omega

theorem second_lt (a b : UInt8) : second a b < 64 := by
  have hb := b.toNat_lt
  unfold second
  omega

theorem third_lt (b c : UInt8) : third b c < 64 := by
  have hc := c.toNat_lt
  unfold third
  omega

theorem fourth_lt (c : UInt8) : fourth c < 64 := Nat.mod_lt _ (by omega)

/-- The bytes of a group from the bits of its digits. -/
def firstByte (w x : Nat) : UInt8 := UInt8.ofNat (w * 4 + x / 16)

def secondByte (x y : Nat) : UInt8 := UInt8.ofNat (x % 16 * 16 + y / 4)

def thirdByte (y z : Nat) : UInt8 := UInt8.ofNat (y % 4 * 64 + z)

theorem firstByte_first (a b : UInt8) : firstByte (first a) (second a b) = a := by
  have hb := b.toNat_lt
  have hbits : first a * 4 + second a b / 16 = a.toNat := by
    unfold first second
    omega
  rw [firstByte, hbits, UInt8.ofNat_toNat]

theorem secondByte_second (a b c : UInt8) : secondByte (second a b) (third b c) = b := by
  have hb := b.toNat_lt
  have hc := c.toNat_lt
  have hbits : second a b % 16 * 16 + third b c / 4 = b.toNat := by
    unfold second third
    omega
  rw [secondByte, hbits, UInt8.ofNat_toNat]

theorem thirdByte_third (b c : UInt8) : thirdByte (third b c) (fourth c) = c := by
  have hc := c.toNat_lt
  have hbits : third b c % 4 * 64 + fourth c = c.toNat := by
    unfold third fourth
    omega
  rw [thirdByte, hbits, UInt8.ofNat_toNat]

/-! ## Texts -/

def encode : List UInt8 → List Char
  | [] => []
  | [a] => [digit (first a), digit (second a 0), '=', '=']
  | [a, b] => [digit (first a), digit (second a b), digit (third b 0), '=']
  | a :: b :: c :: rest =>
      digit (first a) :: digit (second a b) :: digit (third b c) :: digit (fourth c) :: encode rest

def decode : List Char → Option (List UInt8)
  | [] => some []
  | w :: x :: y :: z :: rest =>
      if z = '=' ∧ rest = [] then
        if y = '=' then do
          let w ← value w
          let x ← value x
          if x % 16 = 0 then some [firstByte w x] else none
        else do
          let w ← value w
          let x ← value x
          let y ← value y
          if y % 4 = 0 then some [firstByte w x, secondByte x y] else none
      else do
        let w ← value w
        let x ← value x
        let y ← value y
        let z ← value z
        let bytes ← decode rest
        return firstByte w x :: secondByte x y :: thirdByte y z :: bytes
  | _ => none

/-- Decoding what was encoded gives the bytes back. -/
theorem decode_encode (bytes : List UInt8) : decode (encode bytes) = some bytes := by
  induction bytes using encode.induct with
  | case1 => rfl
  | case2 a =>
      have hunused : second a 0 % 16 = 0 := by simp [second]
      simp [encode, decode, value_digit (first_lt a), value_digit (second_lt a 0), hunused,
        firstByte_first]
  | case3 a b =>
      have hunused : third b 0 % 4 = 0 := by
        simp [third]
      simp [encode, decode, digit_ne_pad (third_lt b 0), value_digit (first_lt a),
        value_digit (second_lt a b), value_digit (third_lt b 0), hunused, firstByte_first,
        secondByte_second]
  | case4 a b c rest ih =>
      simp [encode, decode, digit_ne_pad (fourth_lt c), value_digit (first_lt a),
        value_digit (second_lt a b), value_digit (third_lt b c), value_digit (fourth_lt c), ih,
        firstByte_first, secondByte_second, thirdByte_third]

example : decode ['b', 'i', 'w', 's'] = some [110, 44, 44] := by decide

/-- The text holds digits and padding only. -/
theorem mem_encode {c : Char} {bytes : List UInt8} (h : c ∈ encode bytes) :
    c ∈ alphabet ∨ c = '=' := by
  have hdigit {n : Nat} (hn : n < 64) (hc : c = digit n) : c ∈ alphabet ∨ c = '=' :=
    .inl (hc ▸ digit_mem hn)
  induction bytes using encode.induct with
  | case1 => cases h
  | case2 a =>
      simp only [encode, List.mem_cons, List.not_mem_nil, or_false, or_self] at h
      rcases h with h | h | h
      · exact hdigit (first_lt a) h
      · exact hdigit (second_lt a 0) h
      · exact .inr h
  | case3 a b =>
      simp only [encode, List.mem_cons, List.not_mem_nil, or_false] at h
      rcases h with h | h | h | h
      · exact hdigit (first_lt a) h
      · exact hdigit (second_lt a b) h
      · exact hdigit (third_lt b 0) h
      · exact .inr h
  | case4 a b c rest ih =>
      simp only [encode, List.mem_cons] at h
      rcases h with h | h | h | h | h
      · exact hdigit (first_lt a) h
      · exact hdigit (second_lt a b) h
      · exact hdigit (third_lt b c) h
      · exact hdigit (fourth_lt c) h
      · exact ih h

theorem comma_not_mem_encode (bytes : List UInt8) : ',' ∉ encode bytes := by
  intro h
  have hmem := mem_encode h
  revert hmem
  decide

end Base64
