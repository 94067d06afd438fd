import Mathlib.Algebra.Ring.Nat
import Mathlib.Data.List.Basic
import SourceMaster.Lib.Loops

/-!
# Memory in blocks

A memory is a function from offsets to values. A loop that works on it block by block, in place or
to compute a digest, is a fold over the numbers of the blocks.
-/

namespace Blocks

open Loops Nat

variable {α σ : Type*} {n : Nat}

def block (n : Nat) (mem : Nat → α) (j : Nat) : Fin n → α := fun i => mem (n * j + i)

lemma block_congr {mem mem' : Nat → α} {j k : Nat} (h : ∀ i < n * k, mem i = mem' i)
    (hj : j < k) : block n mem j = block n mem' j := by
  funext i
  apply h
  calc n * j + i < n * j + n := Nat.add_lt_add_left i.isLt _
    _ = n * (j + 1) := rfl
    _ ≤ n * k := mul_le_mul_left n hj

def foldBlocks (f : σ → (Fin n → α) → σ) (k : Nat) (mem : Nat → α) (s : σ) : σ :=
  (List.range k).foldl (fun s j => f s (block n mem j)) s

lemma foldBlocks_congr (f : σ → (Fin n → α) → σ) {k : Nat} {mem mem' : Nat → α}
    (h : ∀ i < n * k, mem i = mem' i) (s : σ) : foldBlocks f k mem s = foldBlocks f k mem' s := by
  refine List.foldl_ext _ _ s ?_
  intro s j hj
  rw [block_congr h (List.mem_range.1 hj)]

section

variable [NeZero n] {mem : Nat → α}

/-- Two memories with the same blocks are the same. -/
theorem eq_of_blocks {mem' : Nat → α} (h : ∀ j, block n mem j = block n mem' j) : mem = mem' := by
  funext i
  have hi := congrFun (h (i / n)) ⟨i % n, mod_lt i (pos_of_neZero n)⟩
  simpa only [block, div_add_mod] using hi

def setBlock (mem : Nat → α) (j : Nat) (b : Fin n → α) : Nat → α :=
  fun i => if i / n = j then b (Fin.ofNat n i) else mem i

lemma block_setBlock (mem : Nat → α) (j j' : Nat) (b : Fin n → α) :
    block n (setBlock mem j b) j' = if j' = j then b else block n mem j' := by
  funext i
  have hdiv : (n * j' + i.val) / n = j' := by
    rw [mul_add_div (pos_of_neZero n), div_eq_of_lt i.isLt, add_zero]
  have hofNat : Fin.ofNat n (n * j' + i.val) = i := by
    apply Fin.ext
    rw [Fin.val_ofNat, mul_add_mod, mod_eq_of_lt i.isLt]
  simp only [block, setBlock, hdiv, hofNat]
  split <;> rfl

variable (f : (Fin n → α) → Fin n → α)

def mapBlocks (k : Nat) (mem : Nat → α) : Nat → α :=
  (List.range k).foldl (fun mem j => setBlock mem j (f (block n mem j))) mem

lemma block_mapBlocks (k : Nat) (mem : Nat → α) (j : Nat) :
    block n (mapBlocks f k mem) j = if j < k then f (block n mem j) else block n mem j := by
  -- after `i` rounds the first `i` blocks are replaced
  have hloop := @range_fold _ mem k (fun mem j => setBlock mem j (f (block n mem j)))
    (fun i mem' => ∀ j, block n mem' j = if j < i then f (block n mem j) else block n mem j)
    (fun j => by simp) fun i mem' _ h j => by
      rw [block_setBlock, h i, if_neg (lt_irrefl i), h j]
      obtain hlt | rfl | hgt := lt_trichotomy j i
      · rw [if_neg (Nat.ne_of_lt hlt), if_pos hlt, if_pos (Nat.lt_succ_of_lt hlt)]
      · rw [if_pos rfl, if_pos (lt_succ_self j)]
      · rw [if_neg (ne_of_gt hgt), if_neg (not_lt_of_gt hgt), if_neg (not_lt_of_ge hgt)]
  exact hloop j

/-- A loop that replaces the blocks by what they were. -/
theorem mapBlocks_mapBlocks {f g : (Fin n → α) → Fin n → α} (h : ∀ b, g (f b) = b) (k : Nat)
    (mem : Nat → α) : mapBlocks g k (mapBlocks f k mem) = mem := by
  apply @eq_of_blocks _ n
  intro j
  rw [block_mapBlocks, block_mapBlocks]
  split
  next => exact h _
  next => rfl

/-- Memories that agree in their first `N` values do so after the loop over blocks in this range. -/
theorem mapBlocks_congr {k N : Nat} {mem' : Nat → α}
    (h : ∀ i < N, mem i = mem' i) (hk : n * k ≤ N) {i : Nat} (hi : i < N) :
    mapBlocks f k mem i = mapBlocks f k mem' i := by
  have hat (m : Nat → α) : m i = block n m (i / n) ⟨i % n, mod_lt i (pos_of_neZero n)⟩ := by
    simp only [block, div_add_mod]
  rw [hat (mapBlocks f k mem), hat (mapBlocks f k mem'), block_mapBlocks, block_mapBlocks]
  split
  next hj => rw [block_congr (fun i hi => h i (lt_of_lt_of_le hi hk)) hj]
  next => rw [← hat, ← hat, h i hi]

end

end Blocks
