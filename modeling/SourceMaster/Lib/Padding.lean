import Mathlib.Algebra.Order.Group.Nat
import Mathlib.Data.List.Basic

/-!
# Lists padded to whole blocks
-/

namespace Padding

open List Nat

variable {α : Type*} {n : Nat} {x : α} {l l' : List α}

def pad (n : Nat) (x : α) (l : List α) : List α := l ++ replicate ((n - l.length % n) % n) x

lemma pad_nil : pad n x [] = [] := by
  simp [pad]

lemma pad_append (h : n ∣ l.length) : pad n x (l ++ l') = l ++ pad n x l' := by
  obtain ⟨k, hk⟩ := h
  have hmod : (l ++ l').length % n = l'.length % n := by
    rw [length_append, hk, mul_add_mod]
  rw [pad, pad, hmod, append_assoc]

lemma pad_of_le (hne : l ≠ []) (hle : l.length ≤ n) :
    pad n x l = l ++ replicate (n - l.length) x := by
  have hpos := length_pos_iff.2 hne
  have hlen : (n - l.length % n) % n = n - l.length := by
    obtain hlt | heq := lt_or_eq_of_le hle
    · rw [mod_eq_of_lt hlt, mod_eq_of_lt (by omega)]
    · simp [heq]
  rw [pad, hlen]

/-- How many blocks there are. -/
theorem length_pad (hpos : 0 < n) : (pad n x l).length = n * ((l.length + n - 1) / n) := by
  rw [pad, length_append, length_replicate]
  have hsplit := div_add_mod l.length n
  have hlt := mod_lt l.length hpos
  generalize l.length / n = a at hsplit
  generalize l.length % n = b at hsplit hlt ⊢
  rw [← hsplit]
  obtain rfl | hb := Nat.eq_zero_or_pos b
  · rw [Nat.sub_zero, Nat.mod_self, Nat.add_zero, Nat.add_sub_assoc hpos, Nat.mul_add_div hpos,
      div_eq_of_lt (by omega), Nat.add_zero]
  · rw [mod_eq_of_lt (by omega), show n * a + b + n - 1 = n * (a + 1) + (b - 1) by
      rw [mul_succ]; omega, Nat.mul_add_div hpos, div_eq_of_lt (by omega), mul_succ]
    omega

end Padding
