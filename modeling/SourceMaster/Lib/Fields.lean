import Mathlib.Data.Nat.Bitwise

/-!
# Fields of a register

A register is put together by or-ing values that are shifted to their places, and taken apart by
shifting and masking. `field n mask x` is what is read at position `n`; the lemmas say which of the
or-ed values reach that position. Their side conditions are about positions and masks only, so that
they are decided where these are numbers.
-/

namespace Fields

open Nat

def field (n mask x : Nat) : Nat := x >>> n &&& mask

variable {n j k mask x : Nat}

lemma field_or (n mask x y : Nat) :
    field n mask (x ||| y) = field n mask x ||| field n mask y := by
  rw [field, shiftRight_or_distrib, and_or_distrib_right]
  rfl

lemma field_of_lt (h : x < 2 ^ n) : field n mask x = 0 := by
  rw [field, shiftRight_eq_zero x n h, zero_and]

/-- A value further up. -/
theorem field_shiftLeft_of_lt (hj : n ≤ j) (h : mask < 2 ^ (j - n)) :
    field n mask (x <<< j) = 0 := by
  apply eq_of_testBit_eq
  intro i
  rw [field, testBit_and, testBit_shiftRight, testBit_shiftLeft, zero_testBit]
  rcases lt_or_ge i (j - n) with hi | hi
  · rw [decide_eq_false (by omega), Bool.false_and, Bool.false_and]
  · have hlt : mask < 2 ^ i := h.trans_le (Nat.pow_le_pow_right (by decide) hi)
    rw [testBit_lt_two_pow hlt, Bool.and_false]

lemma masked_lt (x : Nat) (h : k <<< j < 2 ^ n) : (x &&& k) <<< j < 2 ^ n := by
  refine lt_of_le_of_lt ?_ h
  rw [shiftLeft_eq, shiftLeft_eq]
  exact mul_le_mul_right _ and_le_right

/-- A masked value further down. -/
theorem field_masked_of_lt (h : k <<< j < 2 ^ n) : field n mask ((x &&& k) <<< j) = 0 :=
  field_of_lt (masked_lt x h)

lemma field_shiftLeft_self (n mask x : Nat) : field n mask (x <<< n) = x &&& mask := by
  rw [field, shiftLeft_shiftRight]

lemma field_zero (mask x : Nat) : field 0 mask x = x &&& mask := rfl

lemma and_shiftLeft (n mask x : Nat) : x &&& mask <<< n = field n mask x <<< n := by
  apply eq_of_testBit_eq
  intro i
  rw [field, testBit_and, testBit_shiftLeft, testBit_shiftLeft, testBit_and, testBit_shiftRight]
  rcases lt_or_ge i n with hi | hi
  · rw [decide_eq_false (by omega), Bool.false_and, Bool.false_and, Bool.and_false]
  · rw [decide_eq_true hi, Bool.true_and, Bool.true_and, Nat.add_sub_cancel' hi]

lemma and_shiftLeft_eq_zero (n mask x : Nat) : x &&& mask <<< n = 0 ↔ field n mask x = 0 := by
  rw [and_shiftLeft, shiftLeft_eq, mul_eq_zero]
  exact or_iff_left (Nat.two_pow_pos n).ne'

lemma testBit_shiftLeft_of_lt (h : n < j) : (x <<< j).testBit n = false := by
  rw [testBit_shiftLeft, decide_eq_false (by omega), Bool.false_and]

lemma testBit_masked_of_lt (h : k <<< j < 2 ^ n) : ((x &&& k) <<< j).testBit n = false :=
  testBit_lt_two_pow (masked_lt x h)

lemma testBit_and_of_lt (h : k < 2 ^ n) : (x &&& k).testBit n = false :=
  testBit_lt_two_pow (and_lt_two_pow x h)

end Fields
