import Mathlib.Data.List.Basic

/-!
# Perl texts

The package scripts work on texts all the way down: a condition is a text, a dependency is a text,
and the keys of their hashes are texts glued together from other texts. So the model keeps them as
lists of characters and follows the operations the scripts use on them:

* `perlTrue` — a text in a boolean position;
* `matchColon` — the pattern `/^(.+):(.+)$/`, whose first group is greedy;
* `joinText` — `join`.
-/

namespace SourceMaster.Kconfig

abbrev Text := List Char

instance : LawfulBEq Text := inferInstance

/-- A text is false in Perl iff it is empty or `0`. An undefined value behaves as the empty text. -/
def perlTrue (s : Text) : Bool := s != [] && s != ['0']

def joinText (sep : Text) : List Text → Text
  | [] => []
  | [x] => x
  | x :: y :: xs => x ++ sep ++ joinText sep (y :: xs)

/-! ## `/^(.+):(.+)$/` -/

/-- The last colon that has a character after it; the part in front of it may be empty here. -/
def lastColon : Text → Option (Text × Text)
  | [] => none
  | c :: s =>
    match lastColon s with
    | some (a, b) => some (c :: a, b)
    | none => if c = ':' ∧ s ≠ [] then some ([], s) else none

/-- `/^(.+):(.+)$/`: both groups are non-empty, and the first one takes as much as it can. -/
def matchColon : Text → Option (Text × Text)
  | [] => none
  | c :: s =>
    match lastColon s with
    | some (a, b) => some (c :: a, b)
    | none => none

lemma lastColon_some : ∀ {s a b : Text}, lastColon s = some (a, b) →
    s = a ++ ':' :: b ∧ b ≠ [] ∧ lastColon b = none
  | [], _, _, h => by simp [lastColon] at h
  | c :: s, a, b, h => by
    rw [lastColon] at h
    split at h
    · next a' b' hs =>
      obtain ⟨rfl, rfl⟩ := h
      obtain ⟨heq, hb, hn⟩ := lastColon_some hs
      exact ⟨by rw [heq]; rfl, hb, hn⟩
    · next hs =>
      split at h
      · next hc =>
        obtain ⟨rfl, rfl⟩ := h
        exact ⟨by rw [hc.1]; rfl, hc.2, hs⟩
      · simp at h

lemma matchColon_some {s a b : Text} (h : matchColon s = some (a, b)) :
    s = a ++ ':' :: b ∧ a ≠ [] ∧ b ≠ [] ∧ lastColon b = none := by
  cases s with
  | nil => simp [matchColon] at h
  | cons c s =>
    simp only [matchColon] at h
    split at h
    · next a' b' hs =>
      obtain ⟨rfl, rfl⟩ := h
      obtain ⟨heq, hb, hn⟩ := lastColon_some hs
      exact ⟨by rw [heq]; rfl, by simp, hb, hn⟩
    · simp at h

lemma matchColon_eq_none {s : Text} (h : lastColon s = none) : matchColon s = none := by
  cases s with
  | nil => rfl
  | cons c s =>
    rw [lastColon] at h
    rw [matchColon]
    split at h
    · simp at h
    · simp only

lemma matchColon_snd {s a b : Text} (h : matchColon s = some (a, b)) : matchColon b = none :=
  matchColon_eq_none (matchColon_some h).2.2.2

lemma lastColon_none_of_not_mem {s : Text} (h : ':' ∉ s) : lastColon s = none := by
  induction s with
  | nil => rfl
  | cons c s ih =>
    simp only [List.mem_cons, not_or] at h
    rw [lastColon, ih h.2]
    simp [Ne.symm h.1]

lemma matchColon_append {a b : Text} (ha : a ≠ []) (hb : b ≠ []) (hc : ':' ∉ b) :
    matchColon (a ++ ':' :: b) = some (a, b) := by
  have hlast : ∀ a : Text, lastColon (a ++ ':' :: b) = some (a, b) := by
    intro a
    induction a with
    | nil => rw [List.nil_append, lastColon, lastColon_none_of_not_mem hc]; simp [hb]
    | cons c a ih => rw [List.cons_append, lastColon, ih]
  cases a with
  | nil => exact absurd rfl ha
  | cons c a => rw [List.cons_append, matchColon, hlast]

end SourceMaster.Kconfig
