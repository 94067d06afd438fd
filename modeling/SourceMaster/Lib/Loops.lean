import Mathlib.Tactic.TypeStar

/-!
# Loops

A loop over indices is a fold over a range; one that can fail, over indices or over a worklist, is a
monadic fold in `Option`. Each rule takes what one iteration does to what the whole loop does; the
partial ones say what holds if the loop gets to its end, the total ones that it does.
-/

namespace Loops

open List Option Nat

variable {σ α : Type*} {step : σ → Nat → Option σ} {s s' : σ} {n : Nat}

theorem range_fold {step : σ → Nat → σ} (Inv : Nat → σ → Prop) (hzero : Inv 0 s)
    (hstep : ∀ i s, i < n → Inv i s → Inv (i + 1) (step s i)) : Inv n ((range n).foldl step s) := by
  induction n with
  | zero => exact hzero
  | succ n ih =>
    rw [range_succ, foldl_append]
    apply hstep n _ (lt_succ_self n)
    exact ih fun i s hi => hstep i s (lt_succ_of_lt hi)

variable (Inv : Nat → σ → Prop)

theorem range_inv (hzero : Inv 0 s)
    (hstep : ∀ i s s', i < n → Inv i s → step s i = some s' → Inv (i + 1) s')
    (hrun : (range n).foldlM step s = some s') : Inv n s' := by
  induction n generalizing s' with
  | zero =>
    obtain rfl := some.inj hrun
    exact hzero
  | succ n ih =>
    rw [range_succ, foldlM_append] at hrun
    obtain ⟨s₁, hs₁, hrun⟩ := bind_eq_some_iff.1 hrun
    obtain ⟨s₂, hs₂, hrun⟩ := bind_eq_some_iff.1 hrun
    obtain rfl := some.inj hrun
    refine hstep n s₁ s₂ (lt_succ_self n) (ih ?_ hs₁) hs₂
    exact fun i s s' hi => hstep i s s' (lt_succ_of_lt hi)

theorem range_total (hzero : Inv 0 s)
    (hstep : ∀ i s, i < n → Inv i s → ∃ s', step s i = some s' ∧ Inv (i + 1) s') :
    ∃ s', (range n).foldlM step s = some s' ∧ Inv n s' := by
  induction n with
  | zero => exact ⟨s, rfl, hzero⟩
  | succ n ih =>
    obtain ⟨s₁, hs₁, hinv⟩ := ih fun i s hi => hstep i s (lt_succ_of_lt hi)
    obtain ⟨s₂, hs₂, hinv⟩ := hstep n s₁ (lt_succ_self n) hinv
    refine ⟨s₂, ?_, hinv⟩
    rw [range_succ, foldlM_append, hs₁]
    simp [hs₂]

/-- The invariant speaks about the part of the list that is left. -/
theorem list_total {step : σ → α → Option σ} (Inv : List α → σ → Prop)
    (hstep : ∀ a l s, Inv (a :: l) s → ∃ s', step s a = some s' ∧ Inv l s') :
    ∀ (l : List α) (s : σ), Inv l s → ∃ s', l.foldlM step s = some s' ∧ Inv [] s'
  | [], s, h => ⟨s, rfl, h⟩
  | a :: l, s, h => by
    obtain ⟨s₁, hs₁, h⟩ := hstep a l s h
    obtain ⟨s₂, hs₂, h⟩ := list_total Inv hstep l s₁ h
    refine ⟨s₂, ?_, h⟩
    exact bind_eq_some_iff.2 ⟨s₁, hs₁, hs₂⟩

end Loops
