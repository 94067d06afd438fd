import Mathlib.Data.Nat.Count

/-!
# Numbering a range with one kind first

The numbers below `n` are of two kinds. `place p n` numbers them anew: first the ones without the
property `p`, in their order, then the ones with it, in their order. The places are below `n`
(`place_lt`) and no two numbers have the same one (`place_inj`).
-/

namespace Partition

open Nat

variable {p : Nat → Bool}

def plain (p : Nat → Bool) (k : Nat) : Nat := count (fun i => p i = false) k

def place (p : Nat → Bool) (n k : Nat) : Nat :=
    if p k then plain p n + (k - plain p k) else plain p k

lemma plain_le (k : Nat) : plain p k ≤ k := Nat.count_le _

variable {k : Nat} (n : Nat) {l : Nat}

lemma plain_mono (h : k ≤ l) : plain p k ≤ plain p l := count_monotone _ h

lemma plain_add_le (k n : Nat) : plain p (k + n) ≤ plain p k + n := by
  unfold plain
  rw [count_add]
  exact Nat.add_le_add_left (Nat.count_le _) _

lemma plain_succ_of_true (h : p k) : plain p (k + 1) = plain p k :=
  count_succ_eq_count_iff.mpr (by rw [h]; decide)

lemma plain_succ_of_false (h : p k = false) : plain p (k + 1) = plain p k + 1 :=
  count_succ_eq_succ_count_iff.mpr h

lemma plain_lt (hk : p k = false) (h : k < l) : plain p k < plain p l := count_strict_mono hk h

lemma plain_inj (hk : p k = false) (hl : p l = false) (h : plain p k = plain p l) : k = l :=
  count_injective hk hl h

lemma place_of_false (h : p k = false) : place p n k = plain p k := if_neg (by rw [h]; decide)

lemma place_of_true (h : p k) : place p n k = plain p n + (k - plain p k) := if_pos h

/-- A number with the property adds one to those of its kind. -/
theorem rest_lt (hk : p k) (h : k < l) : k - plain p k < l - plain p l := by
  have hsucc := plain_succ_of_true hk
  have hk' := plain_le (p := p) k
  obtain ⟨n, rfl⟩ := Nat.exists_eq_add_of_le (Nat.succ_le_of_lt h)
  have hle := plain_add_le (p := p) (k + 1) n
  rw [succ_eq_add_one]
  omega

lemma place_lt {n : Nat} (h : k < n) : place p n k < n := by
  have hn := plain_le (p := p) n
  cases hk : p k with
  | false =>
    rw [place_of_false n hk]
    exact lt_of_lt_of_le (plain_lt hk h) hn
  | true =>
    rw [place_of_true n hk]
    have hrest := rest_lt hk h
    omega

lemma place_inj {n : Nat} (hk : k < n) (hl : l < n) (h : place p n k = place p n l) : k = l := by
  cases hpk : p k <;> cases hpl : p l
  · rw [place_of_false n hpk, place_of_false n hpl] at h
    exact plain_inj hpk hpl h
  · rw [place_of_false n hpk, place_of_true n hpl] at h
    have := plain_lt hpk hk
    omega
  · rw [place_of_true n hpk, place_of_false n hpl] at h
    have := plain_lt hpl hl
    omega
  · rw [place_of_true n hpk, place_of_true n hpl] at h
    rcases lt_trichotomy k l with hlt | heq | hlt
    · have := rest_lt hpk hlt
      omega
    · exact heq
    · have := rest_lt hpl hlt
      omega

end Partition
