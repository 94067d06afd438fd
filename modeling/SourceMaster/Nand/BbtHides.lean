import SourceMaster.Nand.BbtRange

/-!
# Hiding the bad blocks of a range

The purpose of the BBT mapping is that the first logical blocks of a range, as many as it has good
blocks, are its good blocks in order. This holds for every bitmap if and only if the blocks of the
range are the first ones of those that the loops go over.
-/

namespace SourceMaster.Nand.Bmtd

open Partition Nat Int InRange

variable {d : Bmtd} {r : Nat × Nat} {b : Nat}

/-! ## What is required -/

section

variable (d : Bmtd)

section

variable (r : Nat × Nat)

def rank (b : Nat) : Nat := count (d.InRange r) b

section

variable (buf : Nat → BitVec 8)

def GoodIn (b : Nat) : Prop :=
  d.InRange r b ∧ bbtBlockIsBad buf b = false

instance (r : Nat × Nat) (buf : Nat → BitVec 8) : DecidablePred (d.GoodIn r buf) := fun b =>
  inferInstanceAs (Decidable (d.InRange r b ∧ bbtBlockIsBad buf b = false))

def goodCount : Nat := count (d.GoodIn r buf) d.totalBlks

/-- The first logical blocks of the range, as many as there are good blocks. -/
def firstBlocks : Set Nat :=
  {b | d.InRange r b ∧ d.rank r b < d.goodCount r buf}

end

/-- The first logical blocks are mapped in order to exactly the good blocks. -/
structure HidesBad (d : Bmtd) (r : Nat × Nat) (buf : Nat → BitVec 8) : Prop where
  inOrder : StrictMonoOn (d.getMappingBlockIndexBbt buf) (d.firstBlocks r buf)
  image : d.getMappingBlockIndexBbt buf '' d.firstBlocks r buf = Nat.cast '' {b | d.GoodIn r buf b}

/-- The blocks of the range are the first ones of those that the loops go over. -/
def Starts : Prop :=
  ∃ m ≤ d.shifted r.2, Nat.cast '' d.rangeBlocks r = Set.Ico (d.shifted r.1) m

/-- The range is a single block, and the loops look at no other one. -/
def Single : Prop :=
  (d.rangeBlocks r).Subsingleton ∧
    ∀ i, d.shifted r.1 ≤ i → i < d.shifted r.2 → ∀ b, d.InRange r b → i % 2 ^ 16 = b

end

end

variable {buf : Nat → BitVec 8}

lemma rank_lt_goodCount {y z : Nat} (hz : d.GoodIn r buf z) (hyz : y ≤ z)
    (hbelow : ∀ x < y, d.InRange r x → bbtBlockIsBad buf x = false) :
    d.rank r y < d.goodCount r buf :=
  calc d.rank r y ≤ count (d.GoodIn r buf) y :=
    count_mono_left fun x hx hin => ⟨hin, hbelow x hx hin⟩
    _ ≤ count (d.GoodIn r buf) z := count_monotone _ hyz
    _ < count (d.GoodIn r buf) d.totalBlks := count_strict_mono hz hz.1.1

lemma InRange.mapping_of_good (h : d.InRange r b)
    (hgood : ∀ k < d.rangeLength r, d.badOffset r buf k = false) :
    d.getMappingBlockIndexBbt buf b = b := by
  have hstart := h.start_le
  by_cases hb : (b : Int) < d.shifted r.2
  · have hk : (b - d.shifted r.1).toNat < d.rangeLength r := by
      unfold rangeLength
      omega
    have hplain : plain (d.badOffset r buf) (b - d.shifted r.1).toNat = (b - d.shifted r.1).toNat :=
      count_iff_forall.mpr fun m hm => hgood m (by omega)
    rw [h.mapping_eq hb hk (by rw [place_of_false _ (hgood _ hk), hplain]; omega)]
    omega
  · have ho : d.rangeLength r ≤ (b - d.shifted r.1).toNat := by
      unfold rangeLength
      omega
    rw [h.mapping]
    rcases mapOffset_behind (d.badOffset r buf) ho with ⟨hid, _⟩ | ⟨hlt, hbad, _⟩
    · rw [hid]
      omega
    · rw [hgood _ hlt] at hbad
      cases hbad

lemma Single.hidesBad (h : d.Single r) (buf : Nat → BitVec 8) : d.HidesBad r buf := by
  obtain ⟨hsub, hsame⟩ := h
  have hgoodcount : ∀ {b}, b ∈ d.firstBlocks r buf → d.GoodIn r buf b := by
    intro b hb
    obtain ⟨x, -, hx⟩ := count_ne_iff_exists.mp (Nat.ne_of_gt (zero_lt_of_lt hb.2))
    rwa [← hsub hx.1 hb.1]
  have hid : ∀ {b}, d.GoodIn r buf b → d.getMappingBlockIndexBbt buf b = b := by
    intro b hb
    refine hb.1.mapping_of_good fun k hk => ?_
    unfold badOffset bbtIsBadAt
    rw [hsame _ (by omega) (by unfold rangeLength at hk; omega) b hb.1]
    exact hb.2
  refine ⟨fun b hb b' hb' hlt => ?_, Set.ext fun y => ⟨?_, ?_⟩⟩
  · exact absurd (hsub hb.1 hb'.1) (Nat.ne_of_lt hlt)
  · rintro ⟨b, hb, rfl⟩
    exact ⟨b, hgoodcount hb, (hid (hgoodcount hb)).symm⟩
  · rintro ⟨b, hb, rfl⟩
    refine ⟨b, ⟨hb.1, rank_lt_goodCount hb (le_refl _) fun x hx hin => ?_⟩, hid hb⟩
    exact absurd (hsub hin hb.1) (Nat.ne_of_lt hx)

/-! ## The range starts where the loops start -/

lemma badOffset_eq {start k : Nat} (hstart : d.shifted r.1 = start) (hlt : start + k < 2 ^ 16)
    (buf : Nat → BitVec 8) : d.badOffset r buf k = bbtBlockIsBad buf (start + k) := by
  unfold badOffset bbtIsBadAt
  exact congrArg _ (by omega)

section Starts

variable {start len : Nat} (hstart : d.shifted r.1 = start) (hrange : ∀ b, d.InRange r b ↔
  start ≤ b ∧ b < start + len)
include hrange

lemma rank_of_starts : ∀ {o : Nat}, o ≤ len → d.rank r (start + o) = o := by
  intro o
  unfold rank
  induction o with
  | zero =>
    intro _
    exact count_iff_forall_not.mpr fun x hx hin => by have := (hrange x).mp hin; omega
  | succ o ih =>
    intro ho
    rw [← add_assoc, count_succ_eq_succ_count_iff.mpr ((hrange _).mpr ⟨by omega, by omega⟩),
      ih (by omega)]

include hstart

lemma goodCount_of_starts (htotal : start + len ≤ d.totalBlks) (buf : Nat → BitVec 8) :
    d.goodCount r buf = plain (d.badOffset r buf) len := by
  have hlt := d.totalBlks_lt
  have hbelow : ∀ k ≤ len, count (d.GoodIn r buf) (start + k) = plain (d.badOffset r buf) k := by
    intro k
    induction k with
    | zero =>
      intro _
      exact count_iff_forall_not.mpr fun x hx hin => by have := (hrange x).mp hin.1; omega
    | succ k ih =>
      intro hk
      have hbad := badOffset_eq (r := r) hstart (show start + k < 2 ^ 16 by omega) buf
      have hin : d.InRange r (start + k) := (hrange _).mpr ⟨by omega, by omega⟩
      cases hvalue : d.badOffset r buf k with
      | true =>
        rw [plain_succ_of_true hvalue, ← ih (by omega), ← add_assoc]
        refine count_succ_eq_count_iff.mpr fun hgood => ?_
        have hfalse := hgood.2
        rw [← hbad, hvalue] at hfalse
        cases hfalse
      | false =>
        rw [plain_succ_of_false hvalue, ← ih (by omega), ← add_assoc]
        exact count_succ_eq_succ_count_iff.mpr ⟨hin, by rw [← hbad, hvalue]⟩
  unfold goodCount
  obtain ⟨k, hk⟩ := Nat.exists_eq_add_of_le htotal
  rw [hk, count_add, hbelow len (le_refl _)]
  have hrest : count (fun j => d.GoodIn r buf (start + len + j)) k = 0 :=
    count_iff_forall_not.mpr fun x _ hin => by have := (hrange _).mp hin.1; omega
  omega

lemma mapping_of_starts (hstop : (start + len : Int) ≤ d.shifted r.2) (buf : Nat → BitVec 8)
    {o : Nat} (ho : o < plain (d.badOffset r buf) len) :
    ∃ x < len, d.getMappingBlockIndexBbt buf (start + o) = (start + x : Nat) ∧
    d.badOffset r buf x = false ∧ plain (d.badOffset r buf) x = o := by
  have hlen : len ≤ d.rangeLength r := by
    unfold rangeLength
    omega
  have hplain := plain_le (p := d.badOffset r buf) len
  have hmono := plain_mono (p := d.badOffset r buf) hlen
  obtain ⟨x, _, hmap, hplace⟩ :=
    place ((hrange (start + o)).mpr ⟨by omega, by omega⟩) buf (by omega)
  -- a bad block has a place behind all good ones
  have hgood : d.badOffset r buf x = false := by
    by_contra hbad
    rw [place_of_true _ (Bool.eq_true_of_not_eq_false hbad)] at hplace
    omega
  rw [place_of_false _ hgood] at hplace
  refine ⟨x, Nat.lt_of_not_le fun hle => ?_, by rw [hmap]; omega, hgood, by omega⟩
  have := plain_mono (p := d.badOffset r buf) hle
  omega

end Starts

lemma Starts.hidesBad {b₀ : Nat} (hword : ∀ r ∈ d.remapRange, r.2 < 2 ^ 32)
    (hsel : d.InRange r b₀) (h : d.Starts r) (buf : Nat → BitVec 8) : d.HidesBad r buf := by
  obtain ⟨m, hm, hset⟩ := h
  have hmem : ∀ b : Nat, d.InRange r b ↔ d.shifted r.1 ≤ b ∧ (b : Int) < m := by
    intro b
    have hb := Set.ext_iff.mp hset b
    simpa [rangeBlocks] using hb
  have hb₀ := (hmem b₀).mp hsel
  have hnonneg := hsel.start_nonneg hword (by omega)
  obtain ⟨start, hstart⟩ := eq_ofNat_of_zero_le hnonneg
  obtain ⟨len, hlen⟩ : ∃ len : Nat, m = start + len := ⟨(m - start).toNat, by omega⟩
  have hrange : ∀ b, d.InRange r b ↔ start ≤ b ∧ b < start + len := fun b => by
    rw [hmem b]
    omega
  have htotal : start + len ≤ d.totalBlks := by
    have hlast := ((hrange (start + len - 1)).mpr ⟨by omega, by omega⟩).1
    omega
  have hcount := goodCount_of_starts hstart hrange htotal buf
  have hlt := d.totalBlks_lt
  have hbad : ∀ {k : Nat}, k < len → d.badOffset r buf k = bbtBlockIsBad buf (start + k) :=
    fun hk => badOffset_eq hstart (by omega) buf
  have hoffset : ∀ b ∈ d.firstBlocks r buf, ∃ o < plain (d.badOffset r buf) len, b = start + o := by
    rintro b ⟨hin, hrank⟩
    obtain ⟨o, rfl⟩ := Nat.exists_eq_add_of_le ((hrange b).mp hin).1
    have ho := ((hrange _).mp hin).2
    rw [rank_of_starts hrange (by omega), hcount] at hrank
    exact ⟨o, hrank, rfl⟩
  refine ⟨fun b hb b' hb' hlt' => ?_, Set.ext fun y => ⟨?_, ?_⟩⟩
  · obtain ⟨o, ho, rfl⟩ := hoffset b hb
    obtain ⟨o', ho', rfl⟩ := hoffset b' hb'
    obtain ⟨x, _, hmap, _, hplain⟩ := mapping_of_starts hstart hrange (by omega) buf ho
    obtain ⟨x', _, hmap', _, hplain'⟩ := mapping_of_starts hstart hrange (by omega) buf ho'
    have hxx : x < x' := Nat.lt_of_not_le fun hle => by
      have := plain_mono (p := d.badOffset r buf) hle
      omega
    omega
  · rintro ⟨b, hb, rfl⟩
    obtain ⟨o, ho, rfl⟩ := hoffset b hb
    obtain ⟨x, hx, hmap, hgood, _⟩ := mapping_of_starts hstart hrange (by omega) buf ho
    exact ⟨start + x, ⟨(hrange _).mpr ⟨by omega, by omega⟩, by rw [← hbad hx, hgood]⟩, hmap.symm⟩
  · rintro ⟨p, ⟨hin, hgood⟩, rfl⟩
    obtain ⟨x, rfl⟩ := Nat.exists_eq_add_of_le ((hrange p).mp hin).1
    have hx : x < len := by have := ((hrange _).mp hin).2; omega
    rw [← hbad hx] at hgood
    have hle := plain_le (p := d.badOffset r buf) x
    have hplain := plain_lt hgood hx
    have hin' : d.InRange r (start + plain (d.badOffset r buf) x) :=
      (hrange _).mpr ⟨by omega, by omega⟩
    refine ⟨start + plain (d.badOffset r buf) x, ⟨hin', ?_⟩, ?_⟩
    · rw [rank_of_starts hrange (by omega), hcount]
      exact hplain
    have hlength : len ≤ d.rangeLength r := by
      unfold rangeLength
      omega
    rw [hin'.mapping_eq (k := x) (by omega) (by omega) (by rw [place_of_false _ hgood]; omega)]
    omega

/-! ## One bad block -/

lemma goodIn_onlyBad {t y : Nat} (hy : d.InRange r y) (hne : y ≠ t) : d.GoodIn r (onlyBad t) y :=
  ⟨hy, by rw [bbtBlockIsBad_onlyBad]; exact decide_eq_false hne⟩

lemma not_goodIn_onlyBad (t : Nat) : ¬ d.GoodIn r (onlyBad t) t := by
  rintro ⟨-, hgood⟩
  rw [bbtBlockIsBad_onlyBad, decide_eq_true rfl] at hgood
  cases hgood

lemma mem_firstBlocks_onlyBad {t y z : Nat} (hy : d.InRange r y) (hz : d.InRange r z)
    (hyz : y ≤ z) (hzt : z ≠ t)
    (hbelow : ∀ x < y, d.InRange r x → x ≠ t) : y ∈ d.firstBlocks r (onlyBad t) :=
  ⟨hy, rank_lt_goodCount (goodIn_onlyBad hz hzt) hyz fun x hx hin =>
    (goodIn_onlyBad hin (hbelow x hx hin)).2⟩

section Hides

variable {buf : Nat → BitVec 8}

lemma HidesBad.maps (h : d.HidesBad r buf) {y : Nat} (hy : y ∈ d.firstBlocks r buf) :
    ∃ g, d.GoodIn r buf g ∧ d.getMappingBlockIndexBbt buf y = g := by
  obtain ⟨g, hg, hgy⟩ := h.image.subset ⟨y, hy, rfl⟩
  exact ⟨g, hg, hgy.symm⟩

lemma HidesBad.reaches (h : d.HidesBad r buf) {g : Nat} (hg : d.GoodIn r buf g) :
    ∃ y ∈ d.firstBlocks r buf, d.getMappingBlockIndexBbt buf y = g :=
  h.image.superset ⟨g, hg, rfl⟩

variable (hall : ∀ buf, d.HidesBad r buf)
include hall

lemma HidesBad.stop_pos (hsingle : ¬ d.Single r) (hne : d.shifted r.1 < d.shifted r.2) :
    0 < d.shifted r.2 := by
  by_contra hneg
  -- a bitmap with a bad block among those that the loops go over, and a good block in the range
  obtain ⟨m, i, hi, hi', hmi, g, hg, hgm⟩ : ∃ (m : Nat) (i : Int), d.shifted r.1 ≤ i ∧
    i < d.shifted r.2 ∧ i % 2 ^ 16 = m ∧ ∃ g, d.InRange r g ∧ g ≠ m := by
    by_cases hsub : (d.rangeBlocks r).Subsingleton
    · have hother : ¬ ∀ i, d.shifted r.1 ≤ i → i < d.shifted r.2 → ∀ b, d.InRange r b →
        i % 2 ^ 16 = b :=
        fun hsame => hsingle ⟨hsub, hsame⟩
      push Not at hother
      obtain ⟨i, hi, hi', b, hb, hib⟩ := hother
      exact ⟨(i % 2 ^ 16).toNat, i, hi, hi', by omega, b, hb, by omega⟩
    · obtain ⟨y, hy, z, hz, hyz⟩ := Set.not_subsingleton_iff.mp hsub
      refine ⟨(d.shifted r.1 % 2 ^ 16).toNat, d.shifted r.1, le_refl _, hne, by omega, ?_⟩
      by_cases hym : y = (d.shifted r.1 % 2 ^ 16).toNat
      · exact ⟨z, hz, fun hzm => hyz (hym.trans hzm.symm)⟩
      · exact ⟨y, hy, hym⟩
  obtain ⟨b, hb, hmap⟩ := (hall (onlyBad m)).reaches (goodIn_onlyBad hg hgm)
  have hbad : d.badOffset r (onlyBad m) (i - d.shifted r.1).toNat := by
    unfold badOffset bbtIsBadAt
    rw [bbtBlockIsBad_onlyBad]
    refine decide_eq_true ?_
    omega
  obtain ⟨x, hx, hmapx, _⟩ := hb.1.mapping_behind (by omega) (by unfold rangeLength; omega) hbad
  unfold rangeLength at hx
  omega

lemma HidesBad.start_lt_stop (hsingle : ¬ d.Single r) : d.shifted r.1 < d.shifted r.2 := by
  by_contra hempty
  have hsub : ¬ (d.rangeBlocks r).Subsingleton :=
    fun hsub => hsingle ⟨hsub, fun i hi hi' => by omega⟩
  obtain ⟨y, hy, z, hz, hyz⟩ : ∃ y, d.InRange r y ∧ ∃ z, d.InRange r z ∧ y < z := by
    obtain ⟨y, hy, z, hz, hyz⟩ := Set.not_subsingleton_iff.mp hsub
    rcases lt_or_gt_of_ne hyz with hlt | hlt
    · exact ⟨y, hy, z, hz, hlt⟩
    · exact ⟨z, hz, y, hy, hlt⟩
  have hfirst : y ∈ d.firstBlocks r (onlyBad y) :=
    mem_firstBlocks_onlyBad hy hz (Nat.le_of_lt hyz) (Nat.ne_of_gt hyz) fun x hx _ =>
      Nat.ne_of_lt hx
  obtain ⟨g, hg, hmap⟩ := (hall (onlyBad y)).maps hfirst
  rw [hy.mapping_of_empty _ (not_lt.mp hempty)] at hmap
  obtain rfl : y = g := by omega
  exact not_goodIn_onlyBad y hg

/-- No block of the range is behind those that the loops go over: if the last of these is bad, it
would be mapped there. -/
theorem HidesBad.lt_stop {b₀ : Nat} (hword : ∀ r ∈ d.remapRange, r.2 < 2 ^ 32)
    (hsel : d.InRange r b₀)
    (hsingle : ¬ d.Single r) {b : Nat} (hb : d.InRange r b) : (b : Int) < d.shifted r.2 := by
  by_contra hbehind
  have hpos := HidesBad.stop_pos hall hsingle (HidesBad.start_lt_stop hall hsingle)
  have hnonneg := hsel.start_nonneg hword (le_of_lt hpos)
  have hne := HidesBad.start_lt_stop hall hsingle
  obtain ⟨start, hstart⟩ := eq_ofNat_of_zero_le hnonneg
  obtain ⟨t, ht⟩ : ∃ t : Nat, d.shifted r.2 = t + 1 := ⟨(d.shifted r.2 - 1).toNat, by omega⟩
  have hlength : d.rangeLength r = t - start + 1 := by
    unfold rangeLength
    omega
  have htotal := d.totalBlks_lt
  have hlt := hb.1
  have hvalue : ∀ k, k < d.rangeLength r →
    d.badOffset r (onlyBad t) k = decide (k = t - start) := by
    intro k hk
    rw [badOffset_eq hstart (by omega), bbtBlockIsBad_onlyBad]
    exact decide_eq_decide.mpr (by omega)
  have hself := (hvalue (t - start) (by omega)).trans (decide_eq_true rfl)
  obtain ⟨x, hx, hmap, hle, _⟩ :=
    hb.mapping_behind (not_lt.mp hbehind) (k := t - start) (by omega) hself
  obtain rfl : x = t - start := by omega
  by_cases htin : d.InRange r t
  · have hplain : plain (d.badOffset r (onlyBad t)) (t - start) = t - start := by
      refine count_iff_forall.mpr fun k hk => ?_
      rw [hvalue k (by omega)]
      exact decide_eq_false (by omega)
    have hplace : place (d.badOffset r (onlyBad t)) (d.rangeLength r) (t - start) = t - start := by
      rw [place_of_true _ hself, hlength, plain_succ_of_true hself, hplain]
      omega
    have hmapt : d.getMappingBlockIndexBbt (onlyBad t) t = d.shifted r.1 +
      ((t - start : Nat) : Int) :=
      htin.mapping_eq (by omega) (by omega) (by omega)
    obtain ⟨g, hg, hgt⟩ := (hall (onlyBad t)).maps
      (mem_firstBlocks_onlyBad htin hb (by omega) (by omega) fun y hy _ => Nat.ne_of_lt hy)
    obtain rfl : g = t := by omega
    exact not_goodIn_onlyBad g hg
  · obtain ⟨g, hg, hgt⟩ := (hall (onlyBad t)).maps
      (mem_firstBlocks_onlyBad hb hb (le_refl _) (by omega) fun y _ hin hyt => htin (hyt ▸ hin))
    obtain rfl : g = t := by omega
    exact htin hg.1

end Hides

/-- The mapping hides the bad blocks of a range, whatever blocks are bad, iff its blocks are the
first that the loops go over, or it is a single block. -/
theorem hidesBad_iff {b₀ : Nat} (hword : ∀ r ∈ d.remapRange, r.2 < 2 ^ 32) (hsel : d.InRange r b₀) :
    (∀ buf, d.HidesBad r buf) ↔ d.Starts r ∨ d.Single r := by
  refine ⟨fun hall => ?_, ?_⟩
  · by_cases hsingle : d.Single r
    · exact .inr hsingle
    left
    have hstop : ∀ {b}, d.InRange r b → (b : Int) < d.shifted r.2 :=
      fun hb => HidesBad.lt_stop hall hword hsel hsingle hb
    have hstart := hsel.start_nonneg hword (by have := hstop hsel; omega)
    have htotal := d.totalBlks_lt
    have hprev : ∀ i : Nat, d.shifted r.1 ≤ (i : Int) → i + 1 ∈ d.rangeBlocks r →
      i ∈ d.rangeBlocks r := by
      intro i hi hmem
      by_contra hnot
      have hi' := hmem.1
      obtain ⟨b, hb, hmap⟩ := (hall (onlyBad i)).reaches (goodIn_onlyBad hmem (succ_ne_self i))
      obtain ⟨k, _, hmapk, hplace⟩ := place hb.1 (onlyBad i) (hstop hb.1)
      have hafter := place_after_onlyBad (d := d) (r := r) hstart hi (by omega)
      obtain rfl : k = (i + 1 - d.shifted r.1).toNat := by
        omega
      obtain rfl : b = i := by
        omega
      exact hnot hb.1
    have hlast : d.InRange r (findGreatest (d.InRange r) d.totalBlks) :=
      findGreatest_spec (Nat.le_of_lt hsel.1) hsel
    refine ⟨(findGreatest (d.InRange r) d.totalBlks : Int) + 1, hstop hlast, Set.ext fun y =>
      ⟨?_, fun hy => ?_⟩⟩
    · rintro ⟨b, hb, rfl⟩
      have hle := le_findGreatest (P := d.InRange r) (Nat.le_of_lt hb.1) hb
      exact ⟨start_le hb, by omega⟩
    · obtain ⟨m, rfl⟩ : ∃ m : Nat, y = m := ⟨y.toNat, by have := hy.1; omega⟩
      exact ⟨m, mem_of_prev hlast hprev hy.1 (by have := hy.2; omega), rfl⟩
  · rintro (hstarts | hsingle)
    · exact hstarts.hidesBad hword hsel
    · exact hsingle.hidesBad

lemma Matches.starts (h : d.Matches r) : d.Starts r := ⟨d.shifted r.2, le_refl _, h⟩

/-! ## With and without a range -/

theorem hidesBad_rangedChip : rangedChip.InRange (8 * 2 ^ 17, 1016 * 2 ^ 17) 8 ∧
    ∀ buf, rangedChip.HidesBad (8 * 2 ^ 17, 1016 * 2 ^ 17) buf :=
  have hsel : rangedChip.InRange (8 * 2 ^ 17, 1016 * 2 ^ 17) 8 := by decide
  ⟨hsel, (hidesBad_iff (by decide) hsel).mpr (.inl rangedChip_matches.starts)⟩

/-- 1024 blocks of 128 KiB without the property: logical block 0 is mapped to the bad block 0. -/
theorem plainChip_not_hidesBad : ∃ d : Bmtd, d.remapRange = [] ∧ d.InRange (0, 1024) 0 ∧
    d.GoodIn (0, 1024) (onlyBad 0) 1 ∧ ¬ d.GoodIn (0, 1024) (onlyBad 0) 0 ∧
    d.getMappingBlockIndexBbt (onlyBad 0) 0 = 0 ∧ ¬ d.HidesBad (0, 1024) (onlyBad 0) := by
  refine ⟨plainChip 17 1024 (by decide) (by decide),
    rfl, by decide, by decide, by decide, by decide, fun h => ?_⟩
  have hfirst : 0 ∈ (plainChip 17 1024 (by decide) (by decide)).firstBlocks (0, 1024) (onlyBad 0) :=
    ⟨by decide, rank_lt_goodCount (z := 1) (by decide) (by decide) fun x hx =>
      absurd hx (not_lt_zero x)⟩
  obtain ⟨g, hg, hmap⟩ := h.image.subset ⟨0, hfirst, rfl⟩
  obtain rfl : g = 0 := ofNat_inj.mp (hmap.trans (by decide))
  exact absurd hg (by decide)

end SourceMaster.Nand.Bmtd
