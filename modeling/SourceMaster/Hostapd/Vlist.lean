import SourceMaster.Lib.Objects
import Mathlib.Data.List.Count
import Mathlib.Data.List.Induction

/-!
# Updating a list of interfaces

`vlist.update` replaces the table of a list and calls back for every entry that was removed, added
or kept. The old value of an entry is moved out of the old table when its key is met in the new
values. If the key is met again, nothing is left to move: the callback then takes the entry for a
new one (`noRepeat_of_reported`).
-/

namespace SourceMaster.Hostapd.Vlist

open List Option Prod Obj

/-! ## The function -/

variable {κ V : Type} [DecidableEq κ]

/-- The value of a key is null if the key is not there, or if that is its value. -/
def index (o : Obj κ (Option V)) (k : κ) : Option V := (o.get k).join

structure Call (κ V : Type) where
  key : κ
  newVal : Option V
  oldVal : Option V

inductive Values (κ V : Type)
  | object (values : Obj κ (Option V))
  | array (values : List (κ × Option V))

def Values.pairs : Values κ V → List (κ × Option V)
  | .object values => values.entries
  | .array values => values

structure Tables (κ V : Type) where
  data : Obj κ (Option V)
  oldData : Obj κ (Option V)
  newData : Obj κ (Option V)

def Tables.take (t : Tables κ V) (val : κ × Option V) : Tables κ V where
  oldData := t.oldData.set val.1 (index t.data val.1)
  newData := t.newData.set val.1 val.2
  data := t.data.delete val.1

section

variable (data : Obj κ (Option V))

def takeAll (pairs : List (κ × Option V)) : Tables κ V :=
  pairs.foldl Tables.take ⟨data, .empty, .empty⟩

section

variable (values : Values κ V)

def update : Obj κ (Option V) × List (Call κ V) :=
  let t := takeAll data values.pairs
  (t.newData, (t.data.entries.map fun e => ⟨e.1, none, e.2⟩) ++
      t.newData.entries.map fun e => ⟨e.1, e.2, index t.oldData e.1⟩)

/-! ## What it has to do -/

def Values.keys : List κ := values.pairs.map fst

def lastOf (pairs : List (κ × Option V)) (k : κ) : Option (Option V) :=
  (pairs.reverse.find? fun e => e.1 = k).map snd

/-- One call for every key: first the old keys that are gone, then the new ones, each with its old
value. -/
structure Reported (data : Obj κ (Option V)) (values : Values κ V) (data' : Obj κ (Option V))
    (calls : List (Call κ V)) : Prop where
  stored : ∀ k, data'.get k = lastOf values.pairs k
  once : (calls.map Call.key).Nodup
  mem : ∀ k, k ∈ calls.map Call.key ↔ k ∈ data.keys ∨ k ∈ values.keys
  values : ∃ removed kept, calls = removed ++ kept ∧
    (∀ c ∈ removed, c.key ∉ values.keys ∧ c.newVal = none ∧ c.oldVal = index data c.key) ∧
    ∀ c ∈ kept, c.key ∈ values.keys ∧ c.newVal = index data' c.key ∧ c.oldVal = index data c.key

/-- A key that has an old value is at most once in the new values. -/
def NoRepeat : Prop :=
  ∀ k, index data k ≠ none → values.keys.count k ≤ 1

end

end

/-! ## The three tables -/

variable (data : Obj κ (Option V)) (pairs : List (κ × Option V)) (values : Values κ V)

lemma takeAll_append_singleton (e : κ × Option V) :
    takeAll data (pairs ++ [e]) = (takeAll data pairs).take e := by
  rw [takeAll, foldl_append]
  rfl

lemma takeAll_data :
    (takeAll data pairs).data.entries = data.entries.filter fun e => e.1 ∉ pairs.map fst := by
  induction pairs using reverseRecOn with
  | nil => simp [takeAll]
  | append_singleton pairs e ih =>
    rw [takeAll_append_singleton]
    show List.filter _ (takeAll data pairs).data.entries = _
    rw [ih, List.filter_filter]
    refine filter_congr fun a _ => ?_
    simp only [map_append, map_cons, map_nil, mem_append, mem_singleton, not_or, Bool.decide_and]
    exact Bool.and_comm _ _

variable (k : κ)

lemma index_takeAll_data :
    index (takeAll data pairs).data k = if k ∈ pairs.map fst then none else index data k := by
  induction pairs using reverseRecOn with
  | nil => simp [takeAll]
  | append_singleton pairs e ih =>
    rw [takeAll_append_singleton, index, Tables.take, get_delete]
    rw [index] at ih
    by_cases hk : e.1 = k
    · simp [hk]
    · have hmem : k ∈ (pairs ++ [e]).map fst ↔ k ∈ pairs.map fst := by
        simp [Ne.symm hk]
      rw [if_neg hk, ih, if_congr hmem rfl rfl]

lemma takeAll_newData : (takeAll data pairs).newData.get k = lastOf pairs k := by
  induction pairs using reverseRecOn with
  | nil => rfl
  | append_singleton pairs e ih =>
    rw [takeAll_append_singleton, Tables.take, get_set, ih, lastOf, lastOf, reverse_append,
      reverse_singleton, singleton_append, find?_cons]
    by_cases hk : e.1 = k
    · simp [hk]
    · simp [hk]

lemma takeAll_oldData : index (takeAll data pairs).oldData k =
      if (pairs.map fst).count k = 1 then index data k else none := by
  induction pairs using reverseRecOn with
  | nil => rfl
  | append_singleton pairs e ih =>
    rw [takeAll_append_singleton, index, Tables.take, get_set, map_append, count_append]
    by_cases hk : e.1 = k
    · subst hk
      rw [if_pos rfl, join_some, index_takeAll_data]
      by_cases hmem : e.1 ∈ pairs.map fst
      · have hpos := count_pos_iff.2 hmem
        rw [if_pos hmem, if_neg]
        simp only [map_cons, map_nil, count_singleton_self]
        omega
      · rw [if_neg hmem, count_eq_zero.2 hmem]
        simp
    · rw [if_neg hk, ← index, ih]
      simp [hk]

lemma lastOf_isSome {k : κ} : (lastOf pairs k).isSome ↔ k ∈ pairs.map fst := by
  rw [lastOf, isSome_map, find?_isSome]
  simp [eq_comm]

lemma mem_of_lastOf {k : κ} {v : Option V} (h : lastOf pairs k = some v) : (k, v) ∈ pairs := by
  obtain ⟨e, he, rfl⟩ := map_eq_some_iff.1 h
  have hkey : e.1 = k := by simpa using find?_some he
  exact hkey ▸ mem_reverse.1 (mem_of_find?_eq_some he)

lemma mem_keys_update {k : κ} : k ∈ (update data values).1.keys ↔ k ∈ values.keys := by
  rw [Obj.mem_keys, ← isSome_iff_exists]
  show ((takeAll data values.pairs).newData.get k).isSome ↔ _
  rw [takeAll_newData, lastOf_isSome, Values.keys]

/-! ## The calls -/

lemma keys_update : (update data values).2.map Call.key =
    (takeAll data values.pairs).data.keys ++ (update data values).1.keys := by
  rw [update, map_append, List.map_map, List.map_map]
  rfl

lemma mem_keys_takeAll_data {k : κ} :
    k ∈ (takeAll data values.pairs).data.keys ↔ k ∈ data.keys ∧ k ∉ values.keys := by
  rw [Obj.keys, takeAll_data, Obj.keys, Values.keys, List.mem_map, List.mem_map]
  constructor
  · rintro ⟨e, he, rfl⟩
    obtain ⟨he, hnot⟩ := mem_filter.1 he
    exact ⟨⟨e, he, rfl⟩, by simpa using hnot⟩
  · rintro ⟨⟨e, he, rfl⟩, hnot⟩
    exact ⟨e, mem_filter.2 ⟨he, by simpa using hnot⟩, rfl⟩

lemma keys_update_nodup : ((update data values).2.map Call.key).Nodup := by
  rw [keys_update, nodup_append]
  refine ⟨(takeAll data values.pairs).data.nodup, (update data values).1.nodup, ?_⟩
  rintro k hk k' hk' rfl
  exact ((mem_keys_takeAll_data data values).1 hk).2 ((mem_keys_update data values).1 hk')

lemma mem_keys_calls :
    k ∈ (update data values).2.map Call.key ↔ k ∈ data.keys ∨ k ∈ values.keys := by
  rw [keys_update, mem_append, mem_keys_takeAll_data, mem_keys_update]
  tauto

lemma index_of_mem {o : Obj κ (Option V)} {e : κ × Option V} (h : e ∈ o.entries) :
    index o e.1 = e.2 := by
  rw [index, get_eq_some.2 h, join_some]

lemma oldVal_of_mem {c : Call κ V} (hc : c ∈ (update data values).2) (hk : c.key ∈ values.keys) :
    c.oldVal = if values.keys.count c.key = 1 then index data c.key else none := by
  obtain hc | hc := mem_append.1 hc
  · obtain ⟨e, he, rfl⟩ := List.mem_map.1 hc
    exact absurd hk ((mem_keys_takeAll_data data values).1 (List.mem_map_of_mem he)).2
  · obtain ⟨e, he, rfl⟩ := List.mem_map.1 hc
    exact takeAll_oldData data values.pairs e.1

variable {data values}

lemma reported_of_noRepeat (h : NoRepeat data values) :
    Reported data values (update data values).1 (update data values).2 := by
  refine ⟨takeAll_newData data values.pairs, keys_update_nodup data values,
    mem_keys_calls data values, _, _, rfl, fun c hc => ?_, fun c hc => ?_⟩
  · obtain ⟨e, he, rfl⟩ := List.mem_map.1 hc
    have hkey := (mem_keys_takeAll_data data values).1 (List.mem_map_of_mem he)
    refine ⟨hkey.2, rfl, ?_⟩
    rw [takeAll_data] at he
    exact (index_of_mem (mem_filter.1 he).1).symm
  · have hmem : c ∈ (update data values).2 := mem_append_right _ hc
    obtain ⟨e, he, rfl⟩ := List.mem_map.1 hc
    have hkey : e.1 ∈ values.keys := (mem_keys_update data values).1 (List.mem_map_of_mem he)
    refine ⟨hkey, (index_of_mem he).symm, ?_⟩
    rw [oldVal_of_mem data values hmem hkey]
    have hpos := count_pos_iff.2 hkey
    split
    next => rfl
    next hcount =>
      -- a key that is repeated has no old value
      by_contra hne
      have hle : values.keys.count e.1 ≤ 1 := h e.1 (Ne.symm hne)
      exact hcount (Nat.le_antisymm hle hpos)

lemma noRepeat_of_reported
    (h : Reported data values (update data values).1 (update data values).2) :
    NoRepeat data values := by
  intro k hk
  by_contra hcount
  have hmem : k ∈ values.keys := count_pos_iff.1 (by omega)
  obtain ⟨c, hc, rfl⟩ := List.mem_map.1 ((h.mem k).2 (.inr hmem))
  have hold := oldVal_of_mem data values hc hmem
  rw [if_neg (by omega)] at hold
  obtain ⟨removed, kept, heq, hremoved, hkept⟩ := h.values
  rw [heq] at hc
  obtain hc | hc := mem_append.1 hc
  · exact (hremoved c hc).1 hmem
  · exact hk ((hkept c hc).2.2 ▸ hold)

section

variable {data' : Obj κ (Option V)} {calls : List (Call κ V)} {c : Call κ V}

lemma Reported.oldVal (h : Reported data values data' calls) (hc : c ∈ calls) :
    c.oldVal = index data c.key := by
  obtain ⟨removed, kept, rfl, hremoved, hkept⟩ := h.values
  obtain hc | hc := mem_append.1 hc
  · exact (hremoved c hc).2.2
  · exact (hkept c hc).2.2

lemma Reported.newVal (h : Reported data values data' calls) (hc : c ∈ calls) :
    c.newVal = index data' c.key := by
  obtain ⟨removed, kept, rfl, hremoved, hkept⟩ := h.values
  obtain hc | hc := mem_append.1 hc
  · obtain ⟨hkey, hnew, -⟩ := hremoved c hc
    have hnone : lastOf values.pairs c.key = none := by
      rw [← not_isSome_iff_eq_none, lastOf_isSome]
      exact hkey
    rw [hnew, index, h.stored, hnone, join_none]
  · exact (hkept c hc).2.1

end

lemma noRepeat_of_nodup (h : values.keys.Nodup) : NoRepeat data values :=
  fun k _ => nodup_iff_count_le_one.1 h k

end SourceMaster.Hostapd.Vlist
