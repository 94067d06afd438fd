import Mathlib.Tactic.TypeStar

/-!
# Loops that may not end

A loop goes from state to state until a round has a result. There is none if the fuel is used up
before.
-/

namespace While

variable {σ α : Type*}

def run (step : σ → Except α σ) : Nat → σ → Option α
  | 0, _ => none
  | fuel + 1, s =>
    match step s with
    | .error a => some a
    | .ok s => run step fuel s

def Ends (step : σ → Except α σ) (s : σ) : Prop := ∃ fuel, (run step fuel s).isSome

inductive Reached (step : σ → Except α σ) (start : σ) : σ → Prop
  | start : Reached step start start
  | next {s s' : σ} : Reached step start s → step s = .ok s' → Reached step start s'

variable {step : σ → Except α σ} {start s s' : σ} {a : α} {fuel : Nat}

theorem ends_of_error (h : step s = .error a) : Ends step s := ⟨1, by simp [run, h]⟩

theorem ends_iff_of_ok (h : step s = .ok s') : Ends step s ↔ Ends step s' := by
  constructor
  · rintro ⟨_ | fuel, hfuel⟩
    · cases hfuel
    · exact ⟨fuel, by simpa [run, h] using hfuel⟩
  · rintro ⟨fuel, hfuel⟩
    exact ⟨fuel + 1, by simpa [run, h] using hfuel⟩

theorem Reached.ends (h : Reached step start s) (hends : Ends step start) : Ends step s := by
  induction h with
  | start => exact hends
  | next _ hstep ih => exact (ends_iff_of_ok hstep).1 ih

/-- A loop that never gets out of some states has no result there. -/
theorem run_eq_none (Stuck : σ → Prop) (hstep : ∀ s, Stuck s → ∃ s', step s = .ok s' ∧ Stuck s')
    (hs : Stuck s) : run step fuel s = none := by
  induction fuel generalizing s with
  | zero => rfl
  | succ fuel ih =>
    obtain ⟨s', hok, hs'⟩ := hstep s hs
    rw [run, hok]
    exact ih hs'

/-- What the invariant implies of the result. -/
theorem of_run (Inv : σ → Prop) {P : α → Prop} (hok : ∀ s s', Inv s → step s = .ok s' → Inv s')
    (herror : ∀ s a, Inv s → step s = .error a → P a) (hs : Inv s) (h : run step fuel s = some a) :
    P a := by
  induction fuel generalizing s with
  | zero => cases h
  | succ fuel ih =>
    rw [run] at h
    cases hstep : step s with
    | error b =>
      rw [hstep] at h
      cases h
      exact herror s a hs hstep
    | ok s' =>
      rw [hstep] at h
      exact ih (hok s s' hs hstep) h

end While
