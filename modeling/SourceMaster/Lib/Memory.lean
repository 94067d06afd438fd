import Mathlib.Algebra.Group.Nat.Defs
import Mathlib.Data.List.Basic

/-!
# Memory

A memory is a function from addresses to values. `put` stores a list of values and `slice` reads
one; the lemmas say what is read after something has been stored. Words of 32 bits are stored in
either byte order.
-/

namespace Memory

open List

variable {α : Type*} {mem : Nat → α} {pos n : Nat} {l : List α}

def put (mem : Nat → α) (pos : Nat) (l : List α) : Nat → α := fun i =>
  if pos ≤ i then l[i - pos]?.getD (mem i) else mem i

def slice (mem : Nat → α) (pos n : Nat) : List α := (range n).map fun i => mem (pos + i)

lemma length_slice (mem : Nat → α) (pos n : Nat) : (slice mem pos n).length = n := by
  rw [slice, length_map, length_range]

variable (bigEndian : Bool) {mem' : Nat → α} {pos' i : Nat} (w : UInt32)

lemma put_of_lt (h : i < pos) : put mem pos l i = mem i := if_neg (Nat.not_le.2 h)

lemma put_of_le (h : pos + l.length ≤ i) : put mem pos l i = mem i := by
  rw [put, if_pos (by omega), getElem?_eq_none (by omega), Option.getD_none]

lemma put_add (h : i < l.length) : put mem pos l (pos + i) = l[i] := by
  rw [put, if_pos (by omega), Nat.add_sub_cancel_left, getElem?_eq_getElem h, Option.getD_some]

lemma slice_congr (h : ∀ i < n, mem (pos + i) = mem' (pos + i)) :
    slice mem pos n = slice mem' pos n :=
  map_congr_left fun i hi => h i (mem_range.1 hi)

lemma apply_of_slice_eq (h : slice mem pos n = slice mem' pos' n) (hi : i < n) :
    mem (pos + i) = mem' (pos' + i) := by
  have hget := congrArg (·[i]?) h
  simpa [slice, hi] using hget

lemma slice_add (mem : Nat → α) (pos m n : Nat) :
    slice mem pos (m + n) = slice mem pos m ++ slice mem (pos + m) n := by
  rw [slice, range_add, map_append, map_map]
  refine congrArg _ (map_congr_left fun i _ => ?_)
  show mem (pos + (m + i)) = mem (pos + m + i)
  rw [Nat.add_assoc]

/-- A part of what was read. -/
theorem slice_of_slice_eq {a b c : List α} (h : slice mem pos n = a ++ (b ++ c)) :
    slice mem (pos + a.length) b.length = b := by
  have hlength := congrArg length h
  rw [length_slice, length_append, length_append] at hlength
  subst hlength
  rw [slice_add, slice_add] at h
  have hinner := append_inj_right h (length_slice _ _ _)
  exact append_inj_left hinner (length_slice _ _ _)

lemma slice_put (mem : Nat → α) (pos : Nat) (l : List α) :
    slice (put mem pos l) pos l.length = l := by
  apply ext_getElem
  · exact length_slice _ _ _
  · intro i hi hi'
    simp only [slice, getElem_map, getElem_range]
    exact put_add hi'

/-- What is stored elsewhere does not change what is read. -/
theorem slice_put_of_disjoint (h : pos' + n ≤ pos ∨ pos + l.length ≤ pos') :
    slice (put mem pos l) pos' n = slice mem pos' n := by
  refine slice_congr fun i hi => ?_
  obtain h | h := h
  · exact put_of_lt (by omega)
  · exact put_of_le (by omega)

section

variable (mem : Nat → α)

/-- What is stored right behind something is read together with it. -/
theorem slice_put_append (pos n : Nat) (l : List α) :
    slice (put mem (pos + n) l) pos (n + l.length) = slice mem pos n ++ l := by
  rw [slice_add, slice_put, slice_put_of_disjoint (.inl (Nat.le_refl _))]

lemma put_nil (pos : Nat) : put mem pos [] = mem := by
  funext i
  unfold put
  split <;> rfl

/-- Two lists that are stored one behind the other. -/
theorem put_put (pos : Nat) (l l' : List α) :
    put (put mem pos l) (pos + l.length) l' = put mem pos (l ++ l') := by
  funext i
  by_cases hlow : i < pos + l.length
  · rw [put_of_lt hlow]
    by_cases hpos : pos ≤ i
    · rw [put, put, if_pos hpos, if_pos hpos, getElem?_append_left (by omega)]
    · rw [put_of_lt (by omega), put_of_lt (by omega)]
  · rw [put, if_pos (by omega), put_of_le (by omega), put, if_pos (by omega),
      getElem?_append_right (by omega), Nat.sub_sub]

lemma slice_put_prefix (pos : Nat) (l l' : List α) :
    slice (put mem pos (l ++ l')) pos l.length = l := by
  rw [← put_put, slice_put_of_disjoint (.inl (Nat.le_refl _)), slice_put]

lemma slice_put_suffix (pos : Nat) (l l' : List α) :
    slice (put mem pos (l ++ l')) (pos + l.length) l'.length = l' := by
  rw [← put_put, slice_put]

end

/-! ## Words -/

def encode32 (bigEndian : Bool) (w : UInt32) : List UInt8 :=
  let low := [.ofNat w.toNat, .ofNat (w.toNat / 256), .ofNat (w.toNat / 256 ^ 2),
    .ofNat (w.toNat / 256 ^ 3)]
  if bigEndian then low.reverse else low

def decode32 (bigEndian : Bool) (l : List UInt8) : UInt32 :=
  .ofNat ((if bigEndian then l else l.reverse).foldl (fun n b => 256 * n + b.toNat) 0)

def decode16 (bigEndian : Bool) (l : List UInt8) : UInt16 :=
  .ofNat ((if bigEndian then l else l.reverse).foldl (fun n b => 256 * n + b.toNat) 0)

lemma length_encode32 : (encode32 bigEndian w).length = 4 := by
  cases bigEndian <;> rfl

lemma decode32_encode32 : decode32 bigEndian (encode32 bigEndian w) = w := by
  have hw := w.toNat_lt
  have hbytes : decode32 bigEndian (encode32 bigEndian w) =
      .ofNat (256 * (256 * (256 * (256 * 0 + w.toNat / 256 ^ 3 % 256) + w.toNat / 256 ^ 2 % 256) +
        w.toNat / 256 % 256) + w.toNat % 256) := by
    cases bigEndian <;> rfl
  rw [hbytes, ← UInt32.toNat_inj, UInt32.toNat_ofNat']
  omega

end Memory
