import SourceMaster.Nvram.Commit

/-!
# Images are read back

The variables that `nvram_commit` has written are read again by `nvram_open` if there is room for
the rounded length. `nvram_commit` does not say when it leaves tuples out
(`nvram_commit_complete_iff`), and the last bytes of the partition can be filled but are not
accepted (`nvram_round_trip_iff`).
-/

namespace SourceMaster.Nvram

open Memory List Option Table Nat

variable {p : Platform}

/-! ## Handles -/

inductive Handle.Reached : Handle p → Prop
  | nvramOpen {mem : Nat → UInt8} {rdonly : Bool} {h : Handle p} :
    nvramOpen p mem rdonly = some h → Reached h
  | nvramSet {h : Handle p} (name value : CStr) : Reached h → Reached (nvramSet h name value).2
  | nvramUnset {h : Handle p} (name : CStr) : Reached h → Reached (nvramUnset h name)
  | nvramCommit {h h' : Handle p} {ret : Int} : nvramCommit h = some (ret, h') → Reached h →
    Reached h'

variable (n : Nat) {h h' : Handle p} {ret : Int}

lemma nvramOpen_opened {mem : Nat → UInt8} {rdonly : Bool}
    (hopen : nvramOpen p mem rdonly = some h) : h.Opened := by
  have hmin := p.minSpace_le
  have hspace : NVRAM_MIN_SPACE = 0x8000 := rfl
  obtain ⟨i, hfind, hopen⟩ := bind_eq_some_iff.1 hopen
  rw [find?_range_eq_some] at hfind
  obtain ⟨-, hi, hfirst⟩ := hfind
  rw [mem_range] at hi
  have hrehash : nvramRehash ⟨mem, 4 * i, .empty p⟩ = some h := by
    split at hopen
    next => exact hopen
    next => cases hopen
  obtain ⟨hmem, hoffset, -⟩ := nvramRehash_spec hrehash
  dsimp only at hmem hoffset
  refine ⟨by rw [hoffset]; exact mul_mod_right 4 i, by rw [hoffset]; omega, fun j hj => ?_⟩
  have hj' := hfirst j (by omega)
  rw [Bool.not_eq_true', decide_eq_false_iff_not] at hj'
  rw [hmem]
  exact hj'

lemma nvramCommit_result (hopen : h.Opened) (hcommit : nvramCommit h = some (ret, h')) :
    ret = 0 ∧ h'.offset = h.offset ∧ ∃ ws, (h.Fits → ws = h.table.all) ∧ Committed h ws h'.mem := by
  obtain ⟨ws, mem, n, -, -, -, hfit, hcom, heq⟩ := nvramCommit_spec hopen
  rw [heq] at hcommit
  split at hcommit
  next =>
    obtain ⟨g, hrehash, hg⟩ := map_eq_some_iff.1 hcommit
    obtain ⟨rfl, rfl⟩ := Prod.mk.inj hg
    obtain ⟨hmem, hoffset, -⟩ := nvramRehash_spec hrehash
    exact ⟨rfl, hoffset, ws, hfit, hmem ▸ hcom⟩
  next => cases hcommit

lemma Committed.keepsOpened {ws : List Tuple} (hopen : h.Opened) (hcom : Committed h ws h'.mem)
    (hoffset : h'.offset = h.offset) : h'.Opened := by
  have hmod := hopen.offset_mod
  refine ⟨hoffset ▸ hmod, hoffset ▸ hopen.offset_le, fun i hi => ?_⟩
  rw [getWord, slice_congr fun k hk => hcom.before _ (by omega)]
  exact hopen.first i (by omega)

lemma Handle.Reached.keepsOpened (hreached : h.Reached) : h.Opened := by
  induction hreached with
  | nvramOpen hopen => exact nvramOpen_opened hopen
  | @nvramSet h name value _ ih =>
    unfold Nvram.nvramSet
    split
    next => exact ih
    next => exact ⟨ih.offset_mod, ih.offset_le, ih.first⟩
  | nvramUnset name _ ih => exact ⟨ih.offset_mod, ih.offset_le, ih.first⟩
  | nvramCommit hcommit _ ih =>
    obtain ⟨-, hoffset, ws, -, hcom⟩ := nvramCommit_result ih hcommit
    exact hcom.keepsOpened ih hoffset

/-- The header is where the first magic number of the partition is. -/
structure Handle.AtMagic (h : Handle p) : Prop extends h.Opened where
  magic : getWord p h.mem h.offset = NVRAM_MAGIC

lemma Handle.AtMagic.find?_eq (hat : h.AtMagic) {i : Nat} (hi : h.offset = 4 * i) :
    (range ((p.partSize - NVRAM_MIN_SPACE) / 4 + 1)).find?
      (fun i => getWord p h.mem (4 * i) = NVRAM_MAGIC) = some i := by
  have hle := hat.offset_le
  rw [find?_range_eq_some]
  refine ⟨?_, ?_, fun j hj => ?_⟩
  · rw [← hi, hat.magic, decide_eq_true_eq]
  · rw [mem_range]
    omega
  · rw [Bool.not_eq_true', decide_eq_false_iff_not]
    exact hat.first j (by omega)

lemma nvramOpen_magic {mem : Nat → UInt8} {rdonly : Bool}
    (hopen : nvramOpen p mem rdonly = some h) :
    h.mem = mem ∧ getWord p h.mem h.offset = NVRAM_MAGIC ∧
      ∃ i, h.offset = 4 * i ∧ (range ((p.partSize - NVRAM_MIN_SPACE) / 4 + 1)).find?
        (fun i => getWord p mem (4 * i) = NVRAM_MAGIC) = some i := by
  obtain ⟨i, hfind, hopen⟩ := bind_eq_some_iff.1 hopen
  have hrehash : nvramRehash ⟨mem, 4 * i, .empty p⟩ = some h := by
    split at hopen
    next => exact hopen
    next => cases hopen
  obtain ⟨hmem, hoffset, -⟩ := nvramRehash_spec hrehash
  have hmagic := find?_some hfind
  rw [decide_eq_true_eq] at hmagic
  exact ⟨hmem, by rw [hmem, hoffset]; exact hmagic, i, hoffset, hfind⟩

lemma Handle.Reached.atMagic (hreached : h.Reached) : h.AtMagic := by
  refine ⟨hreached.keepsOpened, ?_⟩
  induction hreached with
  | nvramOpen hopen => exact (nvramOpen_magic hopen).2.1
  | @nvramSet h name value _ ih =>
    unfold Nvram.nvramSet
    split
    next => exact ih
    next => exact ih
  | nvramUnset name _ ih => exact ih
  | nvramCommit hcommit hreached _ =>
    obtain ⟨-, hoffset, ws, -, hcom⟩ := nvramCommit_result hreached.keepsOpened hcommit
    rw [hoffset]
    exact hcom.magic

/-- **A handle keeps its header.** Every handle is at the first magic number of the partition, with
room behind it, and when the partition is opened again the header is found at the same place. -/
theorem Handle.Reached.opened (hreached : h.Reached) : h.AtMagic ∧
    ∀ (rdonly : Bool) (h₂ : Handle p), Nvram.nvramOpen p h.mem rdonly = some h₂ →
    h₂.offset = h.offset := by
  have hat := hreached.atMagic
  refine ⟨hat, fun rdonly h₂ hopen => ?_⟩
  obtain ⟨i, hi⟩ := dvd_of_mod_eq_zero hat.offset_mod
  obtain ⟨-, -, j, hj, hfind⟩ := nvramOpen_magic hopen
  rw [hat.find?_eq hi] at hfind
  rw [hj, hi, some.inj hfind]

/-! ## A commit that fits -/

def sdramNames : List CStr := [sdramInit, sdramConfig, sdramRefresh, sdramNcdl]

lemma lookup_headerVars {name : CStr} (hname : name ∉ sdramNames) :
    lookup (headerVars h) name = none := by
  rw [eq_none_iff_forall_ne_some]
  intro value hvalue
  have hmem := List.mem_map_of_mem (f := Tuple.name) (mem_of_lookup hvalue)
  exact hname hmem

lemma commit_reopened (hopen : h.Opened)
    (hnames : ∀ name value, nvramGet h.table name = some value → 61 ∉ name.chars)
    (hroom : h.offset + sizeofHeader + h.table.textLength + 6 ≤ p.partSize) (rdonly : Bool) :
    ∃ h' h₂ : Handle p, nvramCommit h = some (0, h') ∧ Committed h h.table.all h'.mem ∧
      nvramOpen p h'.mem rdonly = some h₂ ∧ ∀ name, nvramGet h₂.table name =
        (nvramGet h.table name).or (lookup (headerVars ⟨h'.mem, h.offset, .empty p⟩) name) := by
  have hfits : h.Fits := le_trans (le_add_right _ 4) hroom
  obtain ⟨ws, mem, n, hn, hsub, hle, hall, hcom, heq⟩ := nvramCommit_spec hopen
  obtain rfl := hall hfits
  have hpad : n + 1 + padding p (n + 1) ≤ p.partSize := by
    have hmod := p.partSize_mod
    have hspec := padding_spec p (n + 1)
    have : n + 6 ≤ p.partSize := hn ▸ hroom
    omega
  have hnames' : ∀ y ∈ h.table.all, 61 ∉ y.name.chars := fun y hy =>
    hnames y.name y.value (nvramGet_eq_some.2 hy)
  obtain ⟨t, hrehash, -⟩ := nvramRehash_of_committed hopen hcom hsub (hn ▸ hle) hnames' h.table
  obtain ⟨t₂, hrehash₂, hget₂⟩ :=
    nvramRehash_of_committed hopen hcom hsub (hn ▸ hle) hnames' (.empty p)
  refine ⟨⟨mem, h.offset, t⟩, ⟨mem, h.offset, t₂⟩, ?_, hcom, ?_, fun name => ?_⟩
  · rw [heq, if_pos hpad, hrehash, map_some]
  · rw [nvramOpen_of_committed hopen hcom, if_pos (.inr hroom), hrehash₂]
  · rw [hget₂, lookup_all]

lemma commit_rejected (hopen : h.Opened) (hfits : h.Fits)
    (hroom : ¬ h.offset + sizeofHeader + h.table.textLength + 6 ≤ p.partSize)
    (hcommit : nvramCommit h = some (ret, h')) : nvramOpen p h'.mem false = none := by
  obtain ⟨-, -, ws, hall, hcom⟩ := nvramCommit_result hopen hcommit
  obtain rfl := hall hfits
  rw [nvramOpen_of_committed hopen hcom, if_neg]
  rintro (h | h)
  · cases h
  · exact hroom h

/-! ## A partition of the smallest size -/

def board : Platform := ⟨false, false, 4, fun _ =>
    0, 0, 0x8000, by decide, rfl, rfl, le_refl _, by decide⟩

def varName : CStr := ⟨ascii "a", by decide⟩

def longValue (n : Nat) : CStr :=
    ⟨replicate n 98, fun h => absurd (eq_of_mem_replicate h) (by decide)⟩

def oneVariable (n : Nat) : Handle board :=
  ⟨putWord board (fun _ => 0) 0 NVRAM_MAGIC, 0, (empty board).set varName (longValue n)⟩

theorem reached_opened_set : ∃ h₀ : Handle board, nvramOpen board (oneVariable 0).mem true =
    some h₀ ∧ (nvramSet h₀ varName (longValue 3)).2.AtMagic := by
  obtain ⟨h₀, hopen⟩ : ∃ h₀, nvramOpen board (oneVariable 0).mem true = some h₀ :=
    isSome_iff_exists.1 (by decide +kernel)
  exact ⟨h₀, hopen, (Handle.Reached.nvramSet varName (longValue 3) (.nvramOpen hopen)).opened.1⟩

lemma oneVariable_opened : (oneVariable n).Opened := by
  have hoffset : (oneVariable n).offset = 0 := rfl
  refine ⟨?_, ?_, fun i hi => ?_⟩
  · rw [hoffset]
  · rw [hoffset]
    decide
  · rw [hoffset] at hi
    exact absurd hi (not_lt_zero _)

/-- A new variable is one more tuple, somewhere in the table. -/
theorem all_set_perm {t : Table p} {name : CStr} (hnew : nvramGet t name = none) (value : CStr) :
    (t.set name value).all.Perm (⟨name, value⟩ :: t.all) := by
  have hnot : ∀ x ∈ t.all, x.name ≠ name := by
    rintro x hx rfl
    rw [nvramGet_eq_some.2 hx] at hnew
    cases hnew
  have hnodup : (⟨name, value⟩ :: t.all).Nodup :=
    nodup_cons.2 ⟨fun hmem => hnot _ hmem rfl, .of_map _ t.all_nodup⟩
  rw [perm_ext_iff_of_nodup (.of_map _ (t.set name value).all_nodup) hnodup]
  intro x
  rw [mem_all_set, mem_cons]
  exact or_congr_right (and_iff_right_of_imp (hnot x))

lemma textLength_set {t : Table p} {name : CStr} (hnew : nvramGet t name = none) (value : CStr) :
    (t.set name value).textLength = name.chars.length + value.chars.length + 2 + t.textLength := by
  have hlength := ((all_set_perm hnew value).flatMap_right Tuple.text).length_eq
  rw [flatMap_cons, length_append, length_text] at hlength
  dsimp only at hlength
  unfold textLength
  omega

lemma empty_all : (empty board).all = [] := by
  rw [eq_nil_iff_forall_not_mem]
  intro x hx
  rw [mem_all] at hx
  cases hx

lemma oneVariable_all : (oneVariable n).table.all = [⟨varName, longValue n⟩] := by
  rw [← perm_singleton, ← empty_all]
  exact all_set_perm rfl (longValue n)

lemma oneVariable_textLength : (oneVariable n).table.textLength = n + 3 := by
  have hname : varName.chars.length = 1 := rfl
  have hvalue : (longValue n).chars.length = n := length_replicate
  rw [oneVariable, textLength_set rfl, hname, hvalue, textLength, empty_all, flatMap_nil,
    length_nil]
  omega

lemma oneVariable_names (name value : CStr)
    (hget : nvramGet (oneVariable n).table name = some value) : 61 ∉ name.chars := by
  rw [nvramGet_eq_some, oneVariable_all, mem_singleton, Tuple.mk.injEq] at hget
  rw [hget.1]
  decide

def otherName : CStr := ⟨ascii "lan_ifname", by decide⟩

/-- A variable of `n` characters, and one of three. -/
def twoVariables (n : Nat) : Handle board :=
  { oneVariable n with table := (oneVariable n).table.set otherName (longValue 3) }

lemma twoVariables_opened : (twoVariables n).Opened :=
  ⟨(oneVariable_opened n).offset_mod, (oneVariable_opened n).offset_le,
    (oneVariable_opened n).first⟩

lemma twoVariables_textLength : (twoVariables n).table.textLength = n + 18 := by
  have hnew : nvramGet (oneVariable n).table otherName = none := by
    rw [oneVariable, nvramGet_set, if_neg (by decide)]
    rfl
  have hname : otherName.chars.length = 10 := rfl
  rw [twoVariables, textLength_set hnew, hname, oneVariable_textLength, longValue, length_replicate]
  omega

lemma twoVariables_names (name value : CStr)
    (hget : nvramGet (twoVariables n).table name = some value) : 61 ∉ name.chars := by
  rw [twoVariables, nvramGet_set] at hget
  split at hget
  next heq =>
    rw [← heq]
    decide
  next => exact oneVariable_names n name value hget

/-! ## A commit is complete or fails -/

/-- A commit returns zero only if all variables are read again, and never if they do not fit. -/
def Handle.CompleteOrFails (h : Handle p) : Prop :=
  ∃ ret h', nvramCommit h = some (ret, h') ∧
    (ret = 0 → ∀ rdonly, ∃ h₂, nvramOpen p h'.mem rdonly = some h₂ ∧
      ∀ name value, nvramGet h.table name = some value → nvramGet h₂.table name = some value) ∧
    (¬ h.Fits → ret ≠ 0)

lemma not_completeOrFails (hopen : h.Opened) (hfits : ¬ h.Fits) : ¬ h.CompleteOrFails := by
  rintro ⟨ret, h', hcommit, -, hret⟩
  exact hret hfits (nvramCommit_result hopen hcommit).1

/-- **A commit is complete** exactly if the texts leave six bytes of the partition and no name has a
`=`. -/
theorem nvram_commit_complete_iff {h : Handle p} (hopen : h.Opened) :
    h.CompleteOrFails ↔ h.offset + sizeofHeader + h.table.textLength + 6 ≤ p.partSize ∧
      ∀ name value, nvramGet h.table name = some value → 61 ∉ name.chars := by
  constructor
  · intro hcomplete
    have hfits : h.Fits := by
      by_contra hfits
      exact not_completeOrFails hopen hfits hcomplete
    obtain ⟨ret, h', hcommit, hread, -⟩ := hcomplete
    obtain ⟨h₂, hopen₂, hget⟩ := hread (nvramCommit_result hopen hcommit).1 false
    constructor
    · by_contra hroom
      rw [commit_rejected hopen hfits hroom hcommit] at hopen₂
      cases hopen₂
    intro name value hvalue
    obtain ⟨-, -, ws, -, hcom⟩ := nvramCommit_result hopen hcommit
    rw [nvramOpen_of_committed hopen hcom] at hopen₂
    split at hopen₂
    next => exact (nvramRehash_spec hopen₂).2.2 name value (hget name value hvalue)
    next => cases hopen₂
  · rintro ⟨hroom, hnames⟩
    obtain ⟨h', -, hcommit, -⟩ := commit_reopened hopen hnames hroom false
    refine ⟨0, h', hcommit, fun _ rdonly => ?_, fun hfits => ?_⟩
    · obtain ⟨h'', h₂, hcommit', -, hopen₂, hget⟩ := commit_reopened hopen hnames hroom rdonly
      obtain rfl : h' = h'' := by
        rw [hcommit] at hcommit'
        exact (Prod.mk.inj (some.inj hcommit')).2
      refine ⟨h₂, hopen₂, fun name value hvalue => ?_⟩
      rw [hget, hvalue, some_or]
    · exact absurd (le_trans (le_add_right _ 4) hroom) hfits

theorem nvram_commit_complete_iff_short : (twoVariables 100).CompleteOrFails :=
  (nvram_commit_complete_iff (twoVariables_opened 100)).2
    ⟨by rw [twoVariables_textLength]; decide, twoVariables_names 100⟩

/-- A variable that does not fit is left out, and zero is returned. -/
theorem nvram_commit_drops_variable : (oneVariable 32744).Opened ∧
    (∃ h', nvramCommit (oneVariable 32744) = some (0, h') ∧
      nvramGet (oneVariable 32744).table varName = some (longValue 32744) ∧
      nvramGet h'.table varName = none) ∧ ¬ (oneVariable 32744).CompleteOrFails := by
  have hopen := oneVariable_opened 32744
  have hsize : sizeofHeader = 20 := rfl
  have hpart : board.partSize = 32768 := rfl
  have hoffset : (oneVariable 32744).offset = 0 := rfl
  have hlong := oneVariable_textLength 32744
  refine ⟨hopen, ?_, not_completeOrFails hopen ?_⟩
  · obtain ⟨ws, mem, n, hn, hsub, hle, -, hcom, heq⟩ := nvramCommit_spec hopen
    have hws : ws = [] := by
      rw [oneVariable_all, sublist_singleton] at hsub
      obtain rfl | rfl := hsub
      · rfl
      · rw [textLength, oneVariable_all] at hlong
        omega
    subst hws
    obtain rfl : n = 20 := hn
    obtain ⟨t, hrehash, hget⟩ :=
      nvramRehash_of_committed hopen hcom hsub hle nofun (oneVariable 32744).table
    refine ⟨⟨mem, 0, t⟩, ?_, ?_, ?_⟩
    · rw [heq, if_pos (by decide), hrehash, map_some]
      rfl
    · rw [nvramGet_eq_some, oneVariable_all]
      exact mem_cons_self
    · rw [hget, lookup_headerVars (by decide)]
      rfl
  · rw [Handle.Fits, hlong, hoffset]
    omega

/-! ## The round trip -/

/-- The image of all variables is in the partition and accepted, with the same variables. -/
def Handle.RoundTrips (h : Handle p) : Prop :=
  ∃ ret h' h₂, nvramCommit h = some (ret, h') ∧
    h.offset + (getWord p h'.mem (h.offset + 4)).toNat ≤ p.partSize ∧
    nvramOpen p h'.mem false = some h₂ ∧
    ∀ name, (name ∈ sdramNames → nvramGet h.table name ≠ none) →
      nvramGet h₂.table name = nvramGet h.table name

/-- **A commit is read back** exactly if there is room for the length rounded up, which must be less
than what is left of the partition. -/
theorem nvram_round_trip_iff {h : Handle p} (hopen : h.Opened)
    (hnames : ∀ name value, nvramGet h.table name = some value → 61 ∉ name.chars) (hfits : h.Fits) :
    h.RoundTrips ↔ h.offset + sizeofHeader + h.table.textLength + 6 ≤ p.partSize := by
  constructor
  · rintro ⟨ret, h', h₂, hcommit, -, hopen₂, -⟩
    by_contra hroom
    rw [commit_rejected hopen hfits hroom hcommit] at hopen₂
    cases hopen₂
  · intro hroom
    obtain ⟨h', h₂, hcommit, hcom, hopen₂, hget⟩ := commit_reopened hopen hnames hroom false
    refine ⟨0, h', h₂, hcommit, ?_, hopen₂, fun name hname => ?_⟩
    · have hmod := p.partSize_mod
      have hlength : (h.table.all.flatMap Tuple.text).length = h.table.textLength := rfl
      rw [hcom.len]
      omega
    · rw [hget]
      cases hvalue : nvramGet h.table name with
      | some value => rw [some_or]
      | none => rw [lookup_headerVars fun hmem => hname hmem hvalue, or_none]

theorem nvram_round_trip_iff_short : (twoVariables 100).RoundTrips :=
  (nvram_round_trip_iff (twoVariables_opened 100) (twoVariables_names 100)
    (by rw [Handle.Fits, twoVariables_textLength]; decide)).2
      (by rw [twoVariables_textLength]; decide)

/-- A variable that just fits is written, but the image is not accepted. -/
theorem nvram_open_rejects_full_image : (oneVariable 32743).Opened ∧ (oneVariable 32743).Fits ∧
    (∃ h', nvramCommit (oneVariable 32743) = some (0, h') ∧
      nvramGet h'.table varName = some (longValue 32743) ∧ nvramOpen board h'.mem false = none) ∧
    ¬ (oneVariable 32743).RoundTrips := by
  have hopen := oneVariable_opened 32743
  have hoffset : (oneVariable 32743).offset = 0 := rfl
  have hlong := oneVariable_textLength 32743
  have hfits : (oneVariable 32743).Fits := by
    rw [Handle.Fits, hlong, hoffset]
    decide
  have hroom : ¬ (oneVariable 32743).offset + sizeofHeader + (oneVariable 32743).table.textLength +
    6 ≤ board.partSize := by
    rw [hlong, hoffset]
    decide
  refine ⟨hopen, hfits, ?_, ?_⟩
  · obtain ⟨ws, mem, n, hn, hsub, hle, hall, hcom, heq⟩ := nvramCommit_spec hopen
    obtain rfl := hall hfits
    have hlength : ((oneVariable 32743).table.all.flatMap Tuple.text).length = 32746 := hlong
    rw [hlength, hoffset] at hn
    obtain rfl : n = 32766 := hn
    obtain ⟨t, hrehash, hget⟩ :=
      nvramRehash_of_committed hopen hcom hsub (by rw [hlength, hoffset]; decide)
      (fun y hy => oneVariable_names 32743 y.name y.value (nvramGet_eq_some.2 hy))
      (oneVariable 32743).table
    have hcommit : nvramCommit (oneVariable 32743) = some (0, ⟨mem, 0, t⟩) := by
      rw [heq, if_pos (by decide), hrehash, map_some]
      rfl
    have hvalue : nvramGet (oneVariable 32743).table varName = some (longValue 32743) := by
      rw [nvramGet_eq_some, oneVariable_all]
      exact mem_cons_self
    refine ⟨⟨mem, 0, t⟩, hcommit, ?_, commit_rejected hopen hfits hroom hcommit⟩
    rw [hget, lookup_all, hvalue, some_or]
  · rintro ⟨ret, h', h₂, hcommit, -, hopen₂, -⟩
    rw [commit_rejected hopen hfits hroom hcommit] at hopen₂
    cases hopen₂

end SourceMaster.Nvram
