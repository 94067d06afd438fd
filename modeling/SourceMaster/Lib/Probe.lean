import Mathlib.Logic.Function.Basic
import Mathlib.Data.List.Nodup

/-!
# Tables that are searched slot by slot

Every key has an order in which its slots are looked at. An insertion takes the first slot that is
free or holds the key, a deletion the first slot that holds the key. A deletion can leave a free
slot in front of the entry of another key.

`Represents order t M` says that the table `t` is the map `M`: one slot per key, in its order. A
deletion keeps this (`Represents.erase`); an insertion keeps it exactly when the entry of the key
has no free slot in front of it (`Represents.insert`, `Represents.insert_of_hidden`).
-/

namespace Probe

open Function List

variable {σ κ ν : Type*}

abbrev Table (σ κ ν : Type*) := σ → Option (κ × ν)

structure Represents (order : κ → List σ) (t : Table σ κ ν) (M : κ → Option ν) : Prop where
  placed : ∀ {s k v}, t s = some (k, v) → s ∈ order k
  unique : ∀ {s s' k v v'}, t s = some (k, v) → t s' = some (k, v') → s = s'
  agrees : ∀ {k v}, M k = some v ↔ ∃ s, t s = some (k, v)

lemma represents_empty (order : κ → List σ) :
    Represents order (fun _ => none : Table σ κ ν) fun _ => none where
  placed h := by simp at h
  unique h := by simp at h
  agrees := by simp

variable [DecidableEq κ]

section

variable (t : Table σ κ ν)

def holds (k : κ) (s : σ) : Bool :=
  match t s with
  | some (k', _) => k' = k
  | none => false

def usable (k : κ) (s : σ) : Bool := (t s).isNone || holds t k s

def Hidden (l : List σ) (k : κ) : Prop :=
  ∃ pre s post, l = pre ++ s :: post ∧ holds t k s ∧ ∃ h ∈ pre, t h = none

end

variable {order : κ → List σ} {t : Table σ κ ν} {M : κ → Option ν} {k : κ} {s : σ} {l : List σ}

lemma holds_iff : holds t k s ↔ ∃ v, t s = some (k, v) := by
  unfold holds
  rcases t s with _ | ⟨k', v⟩ <;> simp

lemma usable_iff : usable t k s ↔ t s = none ∨ ∃ v, t s = some (k, v) := by
  simp [usable, holds_iff]

/-! ## Where the search of an insertion stops -/

lemma not_holds_of_find?_free (hl : ¬ Hidden t l k) (hfind : l.find? (usable t k) = some s)
    (hfree : t s = none) {s' : σ} (hmem : s' ∈ l) : holds t k s' = false := by
  obtain ⟨-, pre, post, rfl, hpre⟩ := find?_eq_some_iff_append.1 hfind
  rw [Bool.eq_false_iff]
  intro hs'
  rcases mem_append.1 hmem with hmem | hmem
  · have := hpre s' hmem
    simp [usable, hs'] at this
  rcases mem_cons.1 hmem with rfl | hmem
  · simp [holds_iff, hfree] at hs'
  · -- the entry stands behind the free slot
    obtain ⟨as, bs, rfl⟩ := append_of_mem hmem
    exact hl ⟨pre ++ s :: as, s', bs, by simp, hs', s, by simp, hfree⟩

lemma find?_free_of_hidden (hnodup : l.Nodup) (hl : Hidden t l k)
    (hunique : ∀ s s', holds t k s → holds t k s' → s = s') :
    ∃ s s', l.find? (usable t k) = some s ∧ t s = none ∧ s' ∈ l ∧ holds t k s' ∧ s ≠ s' := by
  obtain ⟨pre, s', post, rfl, hs', h, hmem, hfree⟩ := hl
  have hsome : (pre.find? (usable t k)).isSome := by
    rw [find?_isSome]
    exact ⟨h, hmem, usable_iff.2 (.inl hfree)⟩
  obtain ⟨s, hs⟩ := Option.isSome_iff_exists.1 hsome
  have hne : s ≠ s' := by
    rintro rfl
    exact disjoint_of_nodup_append hnodup (mem_of_find?_eq_some hs) (by simp)
  refine ⟨s, s', by simp [find?_append, hs], ?_, by simp, hs', hne⟩
  rcases usable_iff.1 (find?_some hs) with hfree | hheld
  · exact hfree
  · exact absurd (hunique s s' (holds_iff.2 hheld) hs') hne

namespace Represents

lemma holds_unique (h : Represents order t M) (s s' : σ) (hs : holds t k s) (hs' : holds t k s') :
    s = s' := by
  obtain ⟨v, hv⟩ := holds_iff.1 hs
  obtain ⟨v', hv'⟩ := holds_iff.1 hs'
  exact h.unique hv hv'

variable [DecidableEq σ]

section

variable (h : Represents order t M)
include h

/-- No other slot holds the key, and the slot did not hold another key. -/
theorem update (v : ν) (hmem : s ∈ order k)
    (hslot : usable t k s) (honly : ∀ s', holds t k s' → s' = s) :
    Represents order (Function.update t s (some (k, v))) (Function.update M k (some v)) where
  placed := by
    intro s' k' v' hs'
    by_cases hss : s' = s
    · subst hss
      obtain ⟨rfl, rfl⟩ : k = k' ∧ v = v' := by simpa using hs'
      exact hmem
    · rw [update_of_ne hss] at hs'
      exact h.placed hs'
  unique := by
    intro s₁ s₂ k' v₁ v₂ h₁ h₂
    by_cases hs₁ : s₁ = s <;> by_cases hs₂ : s₂ = s
    · rw [hs₁, hs₂]
    · subst hs₁
      rw [update_of_ne hs₂] at h₂
      obtain ⟨rfl, -⟩ : k = k' ∧ v = v₁ := by simpa using h₁
      exact (honly s₂ (holds_iff.2 ⟨v₂, h₂⟩)).symm
    · subst hs₂
      rw [update_of_ne hs₁] at h₁
      obtain ⟨rfl, -⟩ : k = k' ∧ v = v₂ := by simpa using h₂
      exact honly s₁ (holds_iff.2 ⟨v₁, h₁⟩)
    · rw [update_of_ne hs₁] at h₁
      rw [update_of_ne hs₂] at h₂
      exact h.unique h₁ h₂
  agrees := by
    intro k' v'
    by_cases hk : k' = k
    · subst hk
      rw [update_self]
      constructor
      · rintro ⟨rfl⟩
        exact ⟨s, by simp⟩
      rintro ⟨s', hs'⟩
      by_cases hss : s' = s
      · subst hss
        simpa using hs'
      · rw [update_of_ne hss] at hs'
        exact absurd (honly s' (holds_iff.2 ⟨v', hs'⟩)) hss
    · rw [update_of_ne hk, h.agrees]
      -- the slot written to held no entry of the key looked up
      have hother : ∀ s', t s' = some (k', v') → s' ≠ s := by
        rintro s' hs' rfl
        rcases usable_iff.1 hslot with hfree | ⟨w, hw⟩
        · simp [hfree] at hs'
        · rw [hw] at hs'
          exact hk (by simpa using congrArg (Option.map Prod.fst) hs'.symm)
      constructor
      · rintro ⟨s', hs'⟩
        exact ⟨s', by rw [update_of_ne (hother s' hs')]; exact hs'⟩
      rintro ⟨s', hs'⟩
      by_cases hss : s' = s
      · subst hss
        obtain ⟨hkk, -⟩ : k = k' ∧ v = v' := by simpa using hs'
        exact absurd hkk.symm hk
      · exact ⟨s', by rwa [update_of_ne hss] at hs'⟩

lemma insert (v : ν) (hl : ¬ Hidden t (order k) k)
    (hfind : (order k).find? (usable t k) = some s) :
    Represents order (Function.update t s (some (k, v))) (Function.update M k (some v)) := by
  have hslot := find?_some hfind
  refine h.update v (mem_of_find?_eq_some hfind) hslot fun s' hs' => ?_
  rcases usable_iff.1 hslot with hfree | hheld
  · obtain ⟨w, hw⟩ := holds_iff.1 hs'
    have := not_holds_of_find?_free hl hfind hfree (h.placed hw)
    simp [hs'] at this
  · exact h.holds_unique s' s hs' (holds_iff.2 hheld)

/-- Behind a free slot the entry is not seen: after the insertion the key has two. -/
theorem insert_of_hidden (v : ν) (hnodup : (order k).Nodup)
    (hl : Hidden t (order k) k) : ∃ s s', (order k).find? (usable t k) = some s ∧ t s = none ∧
    s ≠ s' ∧
      holds (Function.update t s (some (k, v))) k s ∧
      holds (Function.update t s (some (k, v))) k s' := by
  obtain ⟨s, s', hfind, hfree, -, hs', hne⟩ := find?_free_of_hidden hnodup hl h.holds_unique
  refine ⟨s, s', hfind, hfree, hne, by simp [holds_iff], ?_⟩
  rw [holds_iff, update_of_ne hne.symm]
  exact holds_iff.1 hs'

lemma erase (hs : holds t k s) :
    Represents order (Function.update t s none) (Function.update M k none) where
  placed := by
    intro s' k' v' hs'
    by_cases hss : s' = s
    · simp [hss] at hs'
    · rw [update_of_ne hss] at hs'
      exact h.placed hs'
  unique := by
    intro s₁ s₂ k' v₁ v₂ h₁ h₂
    have hne : ∀ {s' w}, Function.update t s none s' = some (k', w) → t s' = some (k', w) := by
      intro s' w hw
      by_cases hss : s' = s
      · simp [hss] at hw
      · rwa [update_of_ne hss] at hw
    exact h.unique (hne h₁) (hne h₂)
  agrees := by
    intro k' v'
    obtain ⟨w, hw⟩ := holds_iff.1 hs
    have hslot : ∀ s', t s' = some (k', v') → (s' = s ↔ k' = k) := by
      intro s' hs'
      constructor
      · rintro rfl
        rw [hs'] at hw
        simpa using congrArg (Option.map Prod.fst) hw
      · rintro rfl
        exact h.unique hs' hw
    by_cases hk : k' = k
    · subst hk
      refine iff_of_false (by simp) ?_
      rintro ⟨s', hs'⟩
      by_cases hss : s' = s
      · simp [hss] at hs'
      · rw [update_of_ne hss] at hs'
        exact hss ((hslot s' hs').2 rfl)
    · rw [update_of_ne hk, h.agrees]
      constructor
      · rintro ⟨s', hs'⟩
        exact ⟨s', by rw [update_of_ne (fun e => hk ((hslot s' hs').1 e))]; exact hs'⟩
      · rintro ⟨s', hs'⟩
        by_cases hss : s' = s
        · simp [hss] at hs'
        · exact ⟨s', by rwa [update_of_ne hss] at hs'⟩

end

end Represents

end Probe
