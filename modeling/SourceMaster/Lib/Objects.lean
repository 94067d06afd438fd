import Mathlib.Data.List.Nodup

/-!
# Objects of a script language

An object is a table with keys in the order in which they were added. Setting a key that is there
keeps its place; a key that is deleted and set again comes last.
-/

structure Obj (κ V : Type) where
  entries : List (κ × V)
  nodup : (entries.map Prod.fst).Nodup

namespace Obj

open List Option

variable {κ V : Type} [DecidableEq κ]

def empty : Obj κ V := ⟨[], .nil⟩

variable (o : Obj κ V)

def keys : List κ := o.entries.map Prod.fst

variable (k : κ)

def get : Option V := (o.entries.find? fun e => e.1 = k).map Prod.snd

lemma map_fst_map (l : List (κ × V)) (k : κ) (v : V) :
    (l.map fun e => if e.1 = k then (k, v) else e).map Prod.fst = l.map Prod.fst := by
  rw [List.map_map]
  refine map_congr_left fun e _ => ?_
  show Prod.fst (if e.1 = k then (k, v) else e) = e.1
  split
  next heq => exact heq.symm
  next => rfl

def set (v : V) : Obj κ V where
  entries :=
    if k ∈ o.entries.map Prod.fst then o.entries.map fun e => if e.1 = k then (k, v) else e
    else o.entries ++ [(k, v)]
  nodup := by
    split
    next =>
      rw [map_fst_map]
      exact o.nodup
    next hk =>
      rw [map_append, nodup_append]
      refine ⟨o.nodup, nodup_singleton k, ?_⟩
      rintro a ha b hb rfl
      obtain rfl : a = k := mem_singleton.1 hb
      exact hk ha

def delete : Obj κ V where
  entries := o.entries.filter fun e => e.1 ≠ k
  nodup := o.nodup.sublist (filter_sublist.map _)

lemma get_eq_some {o : Obj κ V} {k : κ} {v : V} : o.get k = some v ↔ (k, v) ∈ o.entries := by
  constructor
  · intro h
    obtain ⟨e, he, rfl⟩ := map_eq_some_iff.1 h
    have hkey : e.1 = k := by simpa using find?_some he
    exact hkey ▸ mem_of_find?_eq_some he
  · intro h
    obtain ⟨l, hl⟩ := o
    dsimp only [get] at h ⊢
    induction l with
    | nil => cases h
    | cons e l ih =>
      rw [map_cons, nodup_cons] at hl
      rw [find?_cons]
      obtain rfl | h := mem_cons.1 h
      · simp
      · have hne : e.1 ≠ k := fun heq => hl.1 (heq ▸ List.mem_map_of_mem (f := Prod.fst) h)
        simp only [hne, decide_false]
        exact ih hl.2 h

lemma mem_keys {o : Obj κ V} {k : κ} : k ∈ o.keys ↔ ∃ v, o.get k = some v := by
  rw [keys, List.mem_map]
  constructor
  · rintro ⟨⟨k, v⟩, h, rfl⟩
    exact ⟨v, get_eq_some.2 h⟩
  · rintro ⟨v, h⟩
    exact ⟨(k, v), get_eq_some.1 h, rfl⟩

lemma mem_set {o : Obj κ V} {k : κ} {v : V} {e : κ × V} :
    e ∈ (o.set k v).entries ↔ e = (k, v) ∨ e.1 ≠ k ∧ e ∈ o.entries := by
  dsimp only [set]
  split
  next hk =>
    rw [List.mem_map]
    constructor
    · rintro ⟨e, he, rfl⟩
      split
      next => exact .inl rfl
      next hne => exact .inr ⟨hne, he⟩
    · rintro (rfl | ⟨hne, he⟩)
      · obtain ⟨e, he, rfl⟩ := List.mem_map.1 hk
        exact ⟨e, he, if_pos rfl⟩
      · exact ⟨e, he, if_neg hne⟩
  next hk =>
    rw [mem_append, mem_singleton, or_comm]
    refine or_congr_right ⟨fun he => ⟨?_, he⟩, fun he => he.2⟩
    rintro rfl
    exact hk (List.mem_map_of_mem he)

lemma get_set (v : V) (k' : κ) : (o.set k v).get k' = if k = k' then some v else o.get k' := by
  refine ext fun w => ?_
  rw [get_eq_some, mem_set, Prod.mk.injEq]
  split
  next heq => simp [heq, eq_comm]
  next hne => simp [Ne.symm hne, get_eq_some]

lemma get_delete (k k' : κ) : (o.delete k).get k' = if k = k' then none else o.get k' := by
  refine ext fun w => ?_
  rw [get_eq_some, delete, mem_filter]
  split
  next heq => simp [heq]
  next hne => simp [Ne.symm hne, get_eq_some]

end Obj
