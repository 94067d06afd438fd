import Mathlib.Data.Option.Basic

/-!
# Programs with a state that can fail

Rules for programs in `StateT σ Option`, whose result `none` is an error, of two kinds:

* `Ensures P x Q` — one run: if the program ends, started in a state with `P`, the result and the
  state satisfy `Q`;
* `Respects R x` — two runs: started in states that `R` relates, the program fails in both or in
  neither, gives the same result, and leaves states that `R` relates. With `R` as "the same but for
  certain variables", the result does not depend on these.

Programs in `Except ε` are taken apart with `bind_eq_ok` and `bind_eq_error`.
-/

namespace SourceMaster.Failing

open Except

variable {σ α β : Type}

/-! ## One run -/

def Ensures (P : σ → Prop) (x : StateT σ Option α) (Q : α → σ → Prop) : Prop :=
  ∀ s, P s → ∀ r ∈ x s, Q r.1 r.2

namespace Ensures

variable {P P' : σ → Prop} {Q Q' : α → σ → Prop} {S : β → σ → Prop}
  {x y : StateT σ Option α} {f : α → StateT σ Option β}

lemma pure {a : α} (h : ∀ s, P s → Q a s) : Ensures P (Pure.pure a) Q := by
  rintro s hs r ⟨rfl⟩
  exact h s hs

lemma bind (hx : Ensures P x Q) (hf : ∀ a, Ensures (Q a) (f a) S) : Ensures P (x >>= f) S := by
  intro s hs r hr
  obtain ⟨a, ha, har⟩ := Option.bind_eq_some_iff.mp hr
  exact hf a.1 a.2 (hx s hs a ha) r har

lemma ite {c : Prop} [Decidable c] (hx : c → Ensures P x Q) (hy : ¬c → Ensures P y Q) :
    Ensures P (if c then x else y) Q := by
  by_cases hc : c
  · rw [if_pos hc]; exact hx hc
  · rw [if_neg hc]; exact hy hc

lemma modify {g : σ → σ} {Q : PUnit → σ → Prop} (h : ∀ s, P s → Q ⟨⟩ (g s)) :
    Ensures P (modify g : StateT σ Option PUnit) Q := by
  rintro s hs r ⟨rfl⟩
  exact h s hs

end Ensures

/-! ## Two runs -/

/-- Both programs fail, or they give the same result and related states. -/
def Together (R : σ → σ → Prop) (a b : Option (α × σ)) : Prop :=
  Option.Rel (fun a b => a.1 = b.1 ∧ R a.2 b.2) a b

lemma Together.bind {R : σ → σ → Prop} {f : α → StateT σ Option β} {a b : Option (α × σ)}
    (h : Together R a b) (hf : ∀ r s t, a = some (r, s) → R s t → Together R (f r s) (f r t)) :
    Together R (a.bind fun r => f r.1 r.2) (b.bind fun r => f r.1 r.2) := by
  cases h with
  | none => exact .none
  | @some a b hab =>
    obtain ⟨r, s⟩ := a
    obtain ⟨_, t⟩ := b
    obtain ⟨rfl, hst⟩ := hab
    exact hf r s t rfl hst

lemma Together.ite {R : σ → σ → Prop} {c c' : Prop} [Decidable c] [Decidable c'] (hc : c ↔ c')
    {a b : α} {s t : σ} (h : R s t) : Together R (if c then some (a, s) else some (b, s))
    (if c' then some (a, t) else some (b, t)) := by
  by_cases hc' : c'
  · rw [if_pos hc', if_pos (hc.mpr hc')]
    exact .some ⟨rfl, h⟩
  · rw [if_neg hc', if_neg (fun h' => hc' (hc.mp h'))]
    exact .some ⟨rfl, h⟩

def Respects (R : σ → σ → Prop) (x : StateT σ Option α) : Prop :=
  ∀ s t, R s t → Together R (x s) (x t)

namespace Respects

variable {R : σ → σ → Prop} {x y : StateT σ Option α} {f : α → StateT σ Option β}

lemma pure (a : α) : Respects R (Pure.pure a : StateT σ Option α) := fun _ _ h => .some ⟨rfl, h⟩

lemma bind (hx : Respects R x) (hf : ∀ a, Respects R (f a)) : Respects R (x >>= f) :=
  fun s t h => (hx s t h).bind fun a s' t' _ => hf a s' t'

lemma ite {c : Prop} [Decidable c] (hx : c → Respects R x) (hy : ¬c → Respects R y) :
    Respects R (if c then x else y) := by
  by_cases hc : c
  · rw [if_pos hc]; exact hx hc
  · rw [if_neg hc]; exact hy hc

/-- A program that stops where a test succeeds. -/
theorem stops {c : Prop} [Decidable c] {a : α} (hy : Respects R y) :
    Respects R (if c then Pure.pure a else y) :=
  ite (fun _ => pure a) fun _ => hy

lemma modify {g : σ → σ} (h : ∀ s t, R s t → R (g s) (g t)) :
    Respects R (modify g : StateT σ Option PUnit) :=
  fun s t hst => .some ⟨rfl, h s t hst⟩

/-- Reading the state: what follows need not be the same program in both runs. -/
theorem get {k : σ → StateT σ Option β} (h : ∀ s t, R s t → Together R (k s s) (k t t)) :
    Respects R (MonadState.get >>= k) := h

/-- Reading a part of the state that `R` keeps. -/
theorem read {γ : Type} {g : σ → γ} {k : γ → StateT σ Option β} (hg : ∀ s t, R s t → g s = g t)
    (hk : ∀ c, Respects R (k c)) : Respects R (MonadState.get >>= fun s => k (g s)) :=
  fun s t h => by
    show Together R (k (g s) s) (k (g t) t)
    rw [hg s t h]
    exact hk _ s t h

end Respects

/-! ## Errors -/

section

variable {ε : Type} {x : Except ε α} {f : α → Except ε β}

lemma ok_bind (a : α) (f : α → Except ε β) : (ok a >>= f) = f a := rfl

lemma bind_eq_ok {b : β} : x >>= f = .ok b ↔ ∃ a, x = .ok a ∧ f a = .ok b := by
  cases x with
  | error e => exact ⟨nofun, nofun⟩
  | ok a =>
    refine ⟨fun h => ⟨a, rfl, h⟩, ?_⟩
    rintro ⟨a', ha, h⟩
    obtain rfl := ok.inj ha
    exact h

lemma bind_eq_error {e : ε} : x >>= f = .error e ↔ x = .error e ∨ ∃ a, x = .ok a ∧
    f a = .error e := by
  cases x with
  | error e' =>
    refine ⟨fun h => .inl ?_, ?_⟩
    · obtain rfl := error.inj h
      rfl
    · rintro (h | ⟨a, ha, -⟩)
      · obtain rfl := error.inj h
        rfl
      · cases ha
  | ok a =>
    refine ⟨fun h => .inr ⟨a, rfl, h⟩, ?_⟩
    rintro (h | ⟨a', ha, h⟩)
    · cases h
    · obtain rfl := ok.inj ha
      exact h

end

end SourceMaster.Failing
