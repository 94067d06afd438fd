import Mathlib.Algebra.Group.Nat.Defs
import SourceMaster.Kconfig.Text

/-!
# Filters for kernel versions

`version_filter_list` compares versions by the numbers of `version_to_num`, which has eight bits for
each of the second to the fourth component and none for the others, and does not compare with the
number 0 (`version_filter_iff`).
-/

namespace SourceMaster.Kconfig

open Nat

/-- The components of a text that matches `/^\d+(?:\.\d+)+$/` -/
abbrev Version := List Nat

def component (v : Version) (i : Nat) : Nat := v.getD i 0

/-- An operand of `<<` or `|`; a number that does not fit becomes the largest one. -/
def uv (n : Nat) : Nat := min n (2 ^ 64 - 1)

def versionToNum : Option Version → Nat
  | none => 0
  | some v =>
    uv (component v 0) <<< 24 % 2 ^ 64 ||| uv (component v 1) <<< 16 % 2 ^ 64 |||
      uv (component v 2) <<< 8 % 2 ^ 64 ||| uv (component v 3)

inductive VersionOp
  | lt | le | gt | ge | eq | ne

def VersionOp.test (cmpver symver : Nat) : VersionOp → Bool
  | lt => cmpver < symver
  | le => cmpver ≤ symver
  | gt => cmpver > symver
  | ge => cmpver ≥ symver
  | eq => cmpver = symver
  | ne => cmpver ≠ symver

/-- An item, with what the pattern finds in it and takes out of it. -/
structure VersionItem where
  text : Text
  filter : Option (VersionOp × Version)

def versionFilterList (version : Option Version) (items : List VersionItem) : List Text :=
  let cmpver := versionToNum version
  items.filterMap fun item =>
    match item.filter with
    | none => some item.text
    | some (op, version) =>
      let symver := versionToNum (some version)
      if symver > 0 ∧ cmpver > 0 ∧ !op.test cmpver symver then none else some item.text

/-! ## The order of versions -/

/-- The first component that differs is smaller. -/
def Older (v w : Version) : Prop := ∃ i, (∀ j < i, component v j = component w j) ∧
    component v i < component w i

def VersionOp.Holds (v w : Version) : VersionOp → Prop
  | lt => Older v w
  | le => ¬ Older w v
  | gt => Older w v
  | ge => ¬ Older v w
  | eq => component v = component w
  | ne => component v ≠ component w

/-- The components have room in the number. -/
structure Small (v : Version) : Prop where
  first : component v 0 < 2 ^ 40
  bytes : component v 1 < 256 ∧ component v 2 < 256 ∧ component v 3 < 256
  rest : ∀ i, 4 ≤ i → component v i = 0

variable {v w : Version}

lemma or_byte (a : Nat) {b : Nat} (hb : b < 256) (i : Nat) : a <<< (8 + i) ||| b <<< i =
    (a * 256 + b) <<< i := by
  have hor : a <<< 8 + b = a <<< 8 ||| b := shiftLeft_add_eq_or_of_lt hb a
  rw [shiftLeft_add, ← shiftLeft_or_distrib, ← hor, shiftLeft_eq a]

lemma uv_shift {n i : Nat} (hi : i < 25) (hn : n < 2 ^ 40) : uv n <<< i % 2 ^ 64 = n <<< i := by
  have huv : uv n = n := by
    unfold uv
    omega
  have hpow : 2 ^ i ≤ 2 ^ 24 := Nat.pow_le_pow_right (by decide) (by omega)
  rw [huv, shiftLeft_eq, mod_eq_of_lt]
  calc n * 2 ^ i ≤ n * 2 ^ 24 := mul_le_mul_left n hpow
    _ < 2 ^ 64 := by omega

lemma Small.versionToNum_eq (h : Small v) : versionToNum (some v) =
    ((component v 0 * 256 + component v 1) * 256 + component v 2) * 256 + component v 3 := by
  obtain ⟨h0, ⟨h1, h2, h3⟩, -⟩ := h
  have hlast : uv (component v 3) = component v 3 <<< 0 := by
    unfold uv
    rw [shiftLeft_zero]
    omega
  rw [versionToNum, uv_shift (by decide) h0, uv_shift (by decide) (by omega),
    uv_shift (by decide) (by omega), hlast,
    or_byte _ h1 16, or_byte _ h2 8, or_byte _ h3 0, shiftLeft_zero]

lemma Small.older_iff (hv : Small v) (hw : Small w) :
    Older v w ↔ versionToNum (some v) < versionToNum (some w) := by
  rw [hv.versionToNum_eq, hw.versionToNum_eq]
  obtain ⟨-, ⟨v1, v2, v3⟩, hv⟩ := hv
  obtain ⟨-, ⟨w1, w2, w3⟩, hw⟩ := hw
  constructor
  · rintro ⟨i, hsame, hlt⟩
    have hi : i < 4 := by
      by_contra hi
      rw [hv i (by omega), hw i (by omega)] at hlt
      omega
    have h0 := hsame 0
    have h1 := hsame 1
    have h2 := hsame 2
    obtain rfl | rfl | rfl | rfl : i = 0 ∨ i = 1 ∨ i = 2 ∨ i = 3 := by omega
    all_goals omega
  · intro hlt
    by_contra hold
    -- a component that follows equal ones is not smaller, so it is equal as well
    have hle : ∀ i, (∀ j < i, component v j = component w j) → component w i ≤ component v i :=
      fun i hsame => Nat.le_of_not_lt fun hi => hold ⟨i, hsame, hi⟩
    have h0 := hle 0
    have h1 := hle 1
    have h2 := hle 2
    have h3 := hle 3
    simp only [forall_lt_succ_right, not_lt_zero, false_imp_iff, implies_true, true_and,
      true_imp_iff]
      at h0 h1 h2 h3
    omega

lemma Small.same_iff (hv : Small v) (hw : Small w) :
    component v = component w ↔ versionToNum (some v) = versionToNum (some w) := by
  constructor
  · intro h
    rw [versionToNum, versionToNum, h]
  · intro h
    rw [hv.versionToNum_eq, hw.versionToNum_eq] at h
    obtain ⟨-, ⟨v1, v2, v3⟩, hv⟩ := hv
    obtain ⟨-, ⟨w1, w2, w3⟩, hw⟩ := hw
    ext i
    by_cases hi : 4 ≤ i
    · rw [hv i hi, hw i hi]
    · obtain rfl | rfl | rfl | rfl : i = 0 ∨ i = 1 ∨ i = 2 ∨ i = 3 := by omega
      all_goals omega

lemma Small.pos_iff (hv : Small v) : versionToNum (some v) > 0 ↔ ∃ i, component v i ≠ 0 := by
  have hnil : Small [] := ⟨by decide, by decide, fun _ _ => rfl⟩
  exact Nat.pos_iff_ne_zero.trans ((hv.same_iff hnil).not.symm.trans Function.ne_iff)

lemma Small.test_iff (hv : Small v) (hw : Small w) (op : VersionOp) :
    op.test (versionToNum (some v)) (versionToNum (some w)) ↔ op.Holds v w := by
  cases op <;> simp [VersionOp.test, VersionOp.Holds, hv.older_iff hw, hw.older_iff hv,
    hv.same_iff hw]

lemma versionFilterList_iff (op : VersionOp) (text : Text) :
    versionFilterList (some v) [⟨text, some (op, w)⟩] = [text] ↔
      (versionToNum (some w) > 0 → versionToNum (some v) > 0 →
        op.test (versionToNum (some v)) (versionToNum (some w))) := by
  simp only [versionFilterList, List.filterMap_cons, List.filterMap_nil]
  split <;> simp_all

/-- **The filter keeps an item** for every operator iff the versions compare that way, if the
components have room and neither version is 0. -/
theorem version_filter_iff (hv : Small v) (hw : Small w) (text : Text) :
    (∀ op : VersionOp, versionFilterList (some v) [⟨text, some (op, w)⟩] = [text] ↔ op.Holds v w) ↔
      (∃ i, component v i ≠ 0) ∧ ∃ i, component w i ≠ 0 := by
  simp only [versionFilterList_iff, hv.test_iff hw, ← hv.pos_iff, ← hw.pos_iff]
  constructor
  · intro h
    by_contra hzero
    have hkept (op : VersionOp) : op.Holds v w := (h op).1 fun hw hv => absurd ⟨hv, hw⟩ hzero
    exact hkept .ne (hkept .eq)
  · rintro ⟨hv, hw⟩ op
    exact ⟨fun h => h hw hv, fun h _ _ => h⟩

theorem version_filter_iff_kernels :
    versionFilterList (some [5, 10]) [⟨[], some (.gt, [5, 4, 255])⟩] = [[]] ↔
    VersionOp.gt.Holds [5, 10] [5, 4, 255] :=
  have hv : Small [5, 10] := ⟨by decide, by decide, fun
    | _ + 4, _ => rfl⟩
  have hw : Small [5, 4, 255] := ⟨by decide, by decide, fun
    | _ + 4, _ => rfl⟩
  (version_filter_iff hv hw []).2 ⟨⟨0, by decide⟩, 0, by decide⟩ _

/-- 4.14.336 has the number of 4.15.80, a fifth component is not seen, and 0.0 is not compared. -/
theorem versions_without_room :
    versionFilterList (some [4, 14, 336]) [⟨[], some (.lt, [4, 15])⟩] = [] ∧
    VersionOp.lt.Holds [4, 14, 336] [4, 15] ∧
    versionFilterList (some [1, 0, 0, 0, 1]) [⟨[], some (.gt, [1, 0])⟩] = [] ∧
    VersionOp.gt.Holds [1, 0, 0, 0, 1] [1, 0] ∧
    versionFilterList (some [1, 0]) [⟨[], some (.lt, [0, 0])⟩] = [[]] ∧
    ¬ VersionOp.lt.Holds [1, 0] [0, 0] := by
  refine ⟨by decide, ⟨1, by decide, by decide⟩, by decide, ⟨4, by decide, by decide⟩, by decide, ?_⟩
  rintro ⟨i, -, hlt⟩
  match i with
  | 0 | 1 | _ + 2 => exact absurd hlt (by simp [component])

end SourceMaster.Kconfig
