import Mathlib.Tactic.TypeStar

/-!
# Runs of a state machine

A run applies one action after the other. `Always P` says that `P` holds in every state of the run,
`Each C` that every action meets the condition `C` in the state it is applied to.
-/

namespace Runs

variable {σ α : Type*}

def Always (step : σ → α → σ) (P : σ → Prop) : σ → List α → Prop
  | s, [] => P s
  | s, a :: as => P s ∧ Always step P (step s a) as

def Each (step : σ → α → σ) (C : σ → α → Prop) : σ → List α → Prop
  | _, [] => True
  | s, a :: as => C s a ∧ Each step C (step s a) as

instance Each.decidable (step : σ → α → σ) (C : σ → α → Prop) [∀ s a, Decidable (C s a)] :
    (s : σ) → (as : List α) → Decidable (Each step C s as)
  | _, [] => isTrue trivial
  | s, a :: as =>
    have := Each.decidable step C (step s a) as
    inferInstanceAs (Decidable (C s a ∧ Each step C (step s a) as))

variable {step : σ → α → σ} {P Inv : σ → Prop} {C Q : σ → α → Prop} {D : α → Prop}

/-- What an invariant implies that every action keeps. -/
theorem always_of_step (hP : ∀ s, Inv s → P s) (hstep : ∀ s a, Inv s → Inv (step s a)) (as : List α)
    {s : σ} (hs : Inv s) : Always step P s as := by
  induction as generalizing s with
  | nil => exact hP s hs
  | cons a as ih => exact ⟨hP s hs, ih (hstep s a hs)⟩

/-- A condition that keeps the invariant keeps what the invariant implies in the whole run. -/
theorem always_of_each (hP : ∀ s, Inv s → P s)
    (hstep : ∀ s a, D a → Inv s → C s a → Inv (step s a)) (as : List α) (has : ∀ a ∈ as, D a)
    {s : σ} (hs : Inv s) (h : Each step C s as) : Always step P s as := by
  induction as generalizing s with
  | nil => exact hP s hs
  | cons a as ih =>
    have ha : D a := has a (by simp)
    exact ⟨hP s hs, ih (fun b hb => has b (by simp [hb])) (hstep s a ha hs h.1) h.2⟩

theorem Always.head {s : σ} {as : List α} (h : Always step P s as) : P s := by
  cases as with
  | nil => exact h
  | cons a as => exact h.1

theorem Always.last {s : σ} {as : List α} (h : Always step P s as) : P (as.foldl step s) := by
  induction as generalizing s with
  | nil => exact h
  | cons a as ih => exact ih h.2

/-- The condition is necessary if every other action leads to a state without `P`. -/
theorem always_iff_each (hP : ∀ s, Inv s → P s) (hstep : ∀ s a, D a → Inv s → C s a →
    Inv (step s a))
    (hbad : ∀ s a, D a → Inv s → ¬ C s a → ¬ P (step s a)) (as : List α) (has : ∀ a ∈ as, D a)
    {s : σ} (hs : Inv s) : Always step P s as ↔ Each step C s as := by
  refine ⟨fun h => ?_, always_of_each hP hstep as has hs⟩
  induction as generalizing s with
  | nil => trivial
  | cons a as ih =>
    have ha : D a := has a (by simp)
    have hC : C s a := Classical.byContradiction fun hC => hbad s a ha hs hC h.2.head
    exact ⟨hC, ih (fun b hb => has b (by simp [hb])) (hstep s a ha hs hC) h.2⟩

/-- A condition that keeps the invariant, and under which an action does what it has to do. -/
theorem each_of_each (hstep : ∀ s a, Inv s → C s a → Inv (step s a) ∧ Q s a) (as : List α) {s : σ}
    (hs : Inv s) (h : Each step C s as) : Each step Q s as := by
  induction as generalizing s with
  | nil => trivial
  | cons a as ih =>
    obtain ⟨hinv, hQ⟩ := hstep s a hs h.1
    exact ⟨hQ, ih hinv h.2⟩

/-- What an action does right is the same as what it needs, if that keeps the invariant. -/
theorem each_iff_each (hstep : ∀ s a, Inv s → C s a → Inv (step s a))
    (hiff : ∀ s a, Inv s → (Q s a ↔ C s a)) (as : List α) {s : σ} (hs : Inv s) :
    Each step Q s as ↔ Each step C s as := by
  induction as generalizing s with
  | nil => exact Iff.rfl
  | cons a as ih =>
    constructor
    · rintro ⟨hQ, has⟩
      have hC := (hiff s a hs).1 hQ
      exact ⟨hC, (ih (hstep s a hs hC)).1 has⟩
    · rintro ⟨hC, has⟩
      exact ⟨(hiff s a hs).2 hC, (ih (hstep s a hs hC)).2 has⟩

/-- Two conditions that agree on every action that meets a third one. -/
theorem each_congr {E : σ → α → Prop} (hstep : ∀ s a, Inv s → E s a → Inv (step s a))
    (hiff : ∀ s a, Inv s → E s a → (Q s a ↔ C s a)) (as : List α) {s : σ} (hs : Inv s)
    (h : Each step E s as) : Each step Q s as ↔ Each step C s as := by
  induction as generalizing s with
  | nil => exact Iff.rfl
  | cons a as ih => exact and_congr (hiff s a hs h.1) (ih (hstep s a hs h.1) h.2)

end Runs
