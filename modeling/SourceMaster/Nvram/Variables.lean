import Mathlib.Data.List.Induction
import SourceMaster.Nvram.Commit

/-!
# The variables as a map

The calls of a program on a handle, and that `nvram_get` finds what has been set last
(`nvram_get_last_set`).
-/

namespace SourceMaster.Nvram

open List Handle

variable {p : Platform}

inductive Call
  | get (name : CStr)
  | set (name value : CStr)
  | unset (name : CStr)

def Handle.call (h : Handle p) : Call → Handle p
  | .get _ => h
  | .set name value => (nvramSet h name value).2
  | .unset name => nvramUnset h name

/-- The call sets or unsets the variable. That a value fits does not depend on the variables. -/
def Call.Writes (h : Handle p) (name : CStr) : Call → Prop
  | .get _ => False
  | .set n value => n = name ∧ (nvramSet h n value).1 = 0
  | .unset n => n = name

lemma lookup_eraseP {l : List Tuple} (hl : (l.map Tuple.name).Nodup) (name name' : CStr) :
    lookup (l.eraseP fun x => x.name = name) name' = if name =
    name' then none else lookup l name' := by
  induction l with
  | nil => simp [lookup]
  | cons y l ih =>
    rw [map_cons, nodup_cons] at hl
    have hnone : lookup l y.name = none := by
      by_contra hsome
      obtain ⟨v, hv⟩ := Option.ne_none_iff_exists'.1 hsome
      exact hl.1 (mem_map.2 ⟨_, mem_of_lookup hv, rfl⟩)
    by_cases hy : y.name = name
    · simp only [eraseP_cons, hy, decide_true, cond_true, lookup_cons]
      split
      next heq => rw [← heq, ← hy, hnone]
      next hne => rfl
    · simp only [eraseP_cons, hy, decide_false, cond_false, lookup_cons, ih hl.2]
      grind

lemma nvramGet_unset (t : Table p) (name name' : CStr) :
    nvramGet (t.unset name) name' = if name = name' then none else nvramGet t name' := by
  by_cases hb : bucketOf p name' = bucketOf p name
  · simp only [nvramGet, Table.unset, hb, if_true]
    exact lookup_eraseP (t.distinct _) name name'
  · have hne : name ≠ name' := fun heq => hb (by rw [heq])
    simp [nvramGet, Table.unset, hb, hne]

lemma offset_foldl_call (h : Handle p) (calls : List Call) :
    (calls.foldl call h).offset = h.offset := by
  induction calls generalizing h with
  | nil => rfl
  | cons c calls ih =>
    rw [foldl_cons, ih]
    cases c <;> simp only [call, nvramSet, nvramUnset]
    split <;> rfl

lemma nvramGet_call {h h' : Handle p} (hoffset : h'.offset = h.offset) (c : Call)
    (name v : CStr) :
    nvramGet (h'.call c).table name = some v ↔
      c = .set name v ∧ (nvramSet h name v).1 = 0 ∨ ¬ c.Writes h name ∧
      nvramGet h'.table name = some v := by
  cases c with
  | get n => simp [call, Call.Writes]
  | unset n =>
    simp only [call, nvramUnset, nvramGet_unset, Call.Writes]
    grind
  | set n x =>
    simp only [call, Call.Writes]
    unfold nvramSet
    rw [hoffset]
    split
    · grind
    · simp only [nvramGet_set]
      grind

/-- **The variables are a map**: `nvram_get` gives the value that was set last, or the one from the
start, and a failing `nvram_set` changes nothing. -/
theorem nvram_get_last_set (h : Handle p) (calls : List Call) :
    let h' := calls.foldl call h
    (∀ name v, nvramGet h'.table name = some v ↔
      (∃ before after, calls = before ++ .set name v :: after ∧ (nvramSet h name v).1 = 0 ∧
        ∀ c ∈ after, ¬ c.Writes h name) ∨
      (∀ c ∈ calls, ¬ c.Writes h name) ∧ nvramGet h.table name = some v) ∧
    ∀ name v, (nvramSet h' name v).1 ≠ 0 →
      ∀ n, nvramGet (nvramSet h' name v).2.table n = nvramGet h'.table n := by
  constructor
  · intro name v
    induction calls using reverseRecOn with
    | nil => simp
    | append_singleton calls c ih =>
      rw [foldl_append, foldl_cons, foldl_nil, nvramGet_call (offset_foldl_call h calls), ih]
      constructor
      · rintro (⟨rfl, hok⟩ | ⟨hc, ⟨before, after, rfl, hok, hafter⟩ | h⟩)
        · exact .inl ⟨calls, [], rfl, hok, by simp⟩
        · exact .inl ⟨before, after ++ [c], by simp, hok, by grind⟩
        · exact .inr ⟨by grind, h.2⟩
      · rintro (⟨before, after, heq, hok, hafter⟩ | h)
        -- the last call is the one that set the value, or it comes after that
        · obtain rfl | ⟨after, d, rfl⟩ := eq_nil_or_concat after
          · obtain ⟨rfl, hc⟩ := append_inj' heq rfl
            exact .inl ⟨by simpa using hc, hok⟩
          · rw [concat_eq_append, ← cons_append, ← append_assoc] at heq
            obtain ⟨rfl, hc⟩ := append_inj' heq rfl
            exact .inr ⟨by grind, .inl ⟨before, after, rfl, hok, by grind⟩⟩
        · exact .inr ⟨by grind, .inr ⟨by grind, h.2⟩⟩
  · intro name v hfail n
    unfold nvramSet at hfail ⊢
    split at hfail
    next hlong => rw [if_pos hlong]
    next => exact absurd rfl hfail

end SourceMaster.Nvram
