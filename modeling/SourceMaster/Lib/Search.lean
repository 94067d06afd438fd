import Mathlib.Data.List.Basic

/-!
# Depth-first search with a shared state

A task is worked on (`level`), which changes the state and leaves further tasks; these are searched
one after the other. The depth is bounded by fuel, because a search need not end. There are two
rules:

* `search_isSome` — the search ends if every level that leaves tasks behind lowers a measure;
* `Sweep.search` — whatever the marks that a search leaves in the state ask for has been done when
  it is over.
-/

namespace Search

variable {σ τ : Type} (level : τ → σ → σ × List τ)

def search : Nat → τ → σ → Option σ
  | 0, _, _ => none
  | fuel + 1, t, s => (level t s).2.foldlM (fun s t => search fuel t s) (level t s).1

variable {level}

/-- **Termination.** Every level keeps `P`, tasks satisfy `Q`, and `μ` never grows and gets smaller
on levels that leave tasks. -/
theorem search_isSome {P : σ → Prop} {Q : τ → Prop} {μ : σ → Nat} (hP : ∀ t s, Q t → P s →
    P (level t s).1) (hQ : ∀ t s, Q t → P s → ∀ t' ∈ (level t s).2, Q t') (hle : ∀ t s, Q t → P s →
    μ (level t s).1 ≤ μ s) (hlt : ∀ t s, Q t → P s → (level t s).2 ≠ [] → μ (level t s).1 < μ s) :
    ∀ fuel t s, Q t → P s → μ s < fuel → ∃ s', search level fuel t s = some s' ∧ P s' ∧
    μ s' ≤ μ s := by
  intro fuel
  induction fuel with
  | zero => intro t s _ _ h; exact absurd h (Nat.not_lt_zero _)
  | succ fuel ih =>
    intro t s hq hp hfuel
    -- the tasks left by this level, from any state that is not above the one it left
    have hfold : ∀ (ts : List τ) (s₀ : σ), (∀ t' ∈ ts, Q t') → P s₀ → (ts ≠ [] → μ s₀ < fuel) →
        ∃ s', ts.foldlM (fun s t => search level fuel t s) s₀ = some s' ∧ P s' ∧ μ s' ≤ μ s₀ := by
      intro ts
      induction ts with
      | nil => intro s₀ _ hp₀ _; exact ⟨s₀, rfl, hp₀, Nat.le_refl _⟩
      | cons t' ts iht =>
        intro s₀ hqs hp₀ hf₀
        obtain ⟨s₁, h₁, hp₁, hle₁⟩ := ih t' s₀ (hqs t' (by simp)) hp₀ (hf₀ (by simp))
        have hf₁ : ts ≠ [] → μ s₁ < fuel := fun _ =>
          Nat.lt_of_le_of_lt hle₁ (hf₀ (by simp))
        obtain ⟨s₂, h₂, hp₂, hle₂⟩ := iht s₁ (fun u hu => hqs u (by simp [hu])) hp₁ hf₁
        refine ⟨s₂, ?_, hp₂, Nat.le_trans hle₂ hle₁⟩
        rw [List.foldlM_cons, h₁]
        exact h₂
    obtain ⟨s', h', hp', hle'⟩ := hfold (level t s).2 (level t s).1 (hQ t s hq hp) (hP t s hq hp)
      (fun hne => by have := hlt t s hq hp hne; omega)
    exact ⟨s', h', hp', Nat.le_trans hle' (hle t s hq hp)⟩

/-- What one level guarantees. It may skip the work of a mark (`marks s k`) that is there. `D t s`:
the task is done as far as the marks of `s` go; `C k s`: what the mark `k` promises, due when the
tasks left behind are done. Both get no weaker when the state grows (`R`). -/
structure Sweep {κ : Type} (level : τ → σ → σ × List τ) (P : σ → Prop) (Q : τ → Prop)
    (R : σ → σ → Prop) (marks : σ → κ → Prop) (D : τ → σ → Prop) (C : κ → σ → Prop) : Prop where
  refl : ∀ s, R s s
  trans : ∀ {s s' s''}, R s s' → R s' s'' → R s s''
  done_mono : ∀ {t s s'}, R s s' → D t s → D t s'
  promise_mono : ∀ {k s s'}, R s s' → C k s → C k s'
  inv : ∀ {t s}, Q t → P s → P (level t s).1
  tasks : ∀ {t s}, Q t → P s → ∀ u ∈ (level t s).2, Q u
  grows : ∀ {t s}, Q t → P s → R s (level t s).1
  done : ∀ {t s}, Q t → P s → D t (level t s).1
  marked : ∀ {t s}, Q t → P s → ∀ k, marks (level t s).1 k → marks s k ∨
    ∀ s', R (level t s).1 s' → (∀ u ∈ (level t s).2, D u s') → C k s'

/-- **Closure.** After a search its task is done, and every new mark has what it promises. -/
theorem Sweep.search {κ : Type} {P : σ → Prop} {Q : τ → Prop} {R : σ → σ → Prop}
    {marks : σ → κ → Prop} {D : τ → σ → Prop} {C : κ → σ → Prop}
    (h : Sweep level P Q R marks D C) : ∀ fuel t s s', Q t → P s → search level fuel t s = some s' →
      P s' ∧ R s s' ∧ D t s' ∧ ∀ k, marks s' k → marks s k ∨ C k s' := by
  intro fuel
  induction fuel with
  | zero => intro t s s' _ _ hs; simp [Search.search] at hs
  | succ fuel ih =>
    intro t s s' hq hp hs
    -- the tasks left by this level, one after the other
    have hfold : ∀ (ts : List τ) (s₀ : σ), (∀ u ∈ ts, Q u) → P s₀ →
        ts.foldlM (fun s t => Search.search level fuel t s) s₀ = some s' →
        P s' ∧ R s₀ s' ∧ (∀ u ∈ ts, D u s') ∧ ∀ k, marks s' k → marks s₀ k ∨ C k s' := by
      intro ts
      induction ts with
      | nil =>
        intro s₀ _ hp₀ hs₀
        obtain rfl : s₀ = s' := by simpa using hs₀
        exact ⟨hp₀, h.refl _, by simp, fun k hk => .inl hk⟩
      | cons u ts iht =>
        intro s₀ hqs hp₀ hs₀
        obtain ⟨s₁, hs₁, hs₂⟩ := Option.bind_eq_some_iff.mp hs₀
        obtain ⟨hp₁, hr₁, hd₁, hk₁⟩ := ih u s₀ s₁ (hqs u (by simp)) hp₀ hs₁
        obtain ⟨hp₂, hr₂, hd₂, hk₂⟩ := iht s₁ (fun v hv => hqs v (by simp [hv])) hp₁ hs₂
        refine ⟨hp₂, h.trans hr₁ hr₂, ?_, ?_⟩
        · intro v hv
          rcases List.mem_cons.mp hv with rfl | hv
          · exact h.done_mono hr₂ hd₁
          · exact hd₂ v hv
        · intro k hk
          rcases hk₂ k hk with hk | hk
          · exact (hk₁ k hk).imp_right (h.promise_mono hr₂)
          · exact .inr hk
    obtain ⟨hp', hr', hd', hk'⟩ := hfold _ _ (h.tasks hq hp) (h.inv hq hp) hs
    refine ⟨hp', h.trans (h.grows hq hp) hr', h.done_mono hr' (h.done hq hp), ?_⟩
    intro k hk
    rcases hk' k hk with hk | hk
    · exact (h.marked hq hp k hk).imp_right (fun hdue => hdue s' hr' hd')
    · exact .inr hk

end Search
