import SourceMaster.Nand.Bbt
import Mathlib.Data.Int.SuccPred
import Mathlib.Data.Int.ConditionallyCompleteOrder
import Mathlib.Data.Set.Function

/-!
# The BBT mapping over a range of blocks

`get_mapping_block_index_bbt` numbers the blocks of a range anew: the good ones first, then the bad
ones. For any device this is a permutation of the blocks from `start >> blk_shift` to `end >>
blk_shift`. These need not be the blocks of the range: without a `mediatek,bmt-remap-range` property
`mapping_block_in_range` reports the bounds in blocks, and they are shifted all the same.

The bounds are `int`s and the argument of `bbt_block_is_bad` is a `u16`, so nothing is assumed of
the size.
-/

namespace SourceMaster.Nand

open Partition Nat

/-! ## The function -/

/-- `bbt_block_is_bad` with an `int`, which becomes a `u16`. -/
def bbtIsBadAt (buf : Nat → BitVec 8) (i : Int) : Bool := bbtBlockIsBad buf (i % 2 ^ 16).toNat

/-- The first loop of `get_mapping_block_index_bbt`, with `n` blocks to go. -/
def skipBad (isBad : Int → Bool) : Nat → Int → Int → Nat → Int × Int × Nat
  | 0, i, ofs, badBlocks => (i, ofs, badBlocks)
  | n + 1, i, ofs, badBlocks =>
    if isBad i then skipBad isBad n (i + 1) ofs (badBlocks + 1)
    else if ofs ≠ 0 then skipBad isBad n (i + 1) (ofs - 1) badBlocks
    else (i, ofs, badBlocks)

/-- The second loop, from `i` downwards, over the `n` blocks of the range. -/
def overflowTo (isBad : Int → Bool) (block ofs : Int) : Nat → Int → Nat → Int
  | 0, _, _ => block
  | n + 1, i, badBlocks =>
    if badBlocks = 0 then block
    else if !isBad i then overflowTo isBad block ofs n (i - 1) badBlocks
    else if ((badBlocks - 1 : Nat) : Int) ≤ ofs then i
    else overflowTo isBad block ofs n (i - 1) (badBlocks - 1)

namespace Bmtd

variable (d : Bmtd)

def shifted (bound : Nat) : Int := signed32 bound / d.blkSize

def getMappingBlockIndexBbt (buf : Nat → BitVec 8) (block : Nat) : Int :=
  match d.mappingBlockInRange block with
  | none => block
  | some r =>
    let start := d.shifted r.1
    let stop := d.shifted r.2
    let q := skipBad (bbtIsBadAt buf) (stop - start).toNat start (block - start) 0
    if q.1 < stop then q.1
    else overflowTo (bbtIsBadAt buf) block q.2.1 (stop - start).toNat (stop - 1) q.2.2

def InRange (r : Nat × Nat) (b : Nat) : Prop := b < d.totalBlks ∧ d.mappingBlockInRange b = some r

instance (r : Nat × Nat) : DecidablePred (d.InRange r) := fun b =>
  inferInstanceAs (Decidable (b < d.totalBlks ∧ d.mappingBlockInRange b = some r))

def rangeBlocks (r : Nat × Nat) : Set Nat := {b | d.InRange r b}

end Bmtd

/-! ## Offsets

Counted from the start of the range, both loops are those of natural numbers. -/

section

variable {isBad : Int → Bool} {isBad' : Nat → Bool} {s : Int}

lemma skipBad_eq (n k o bad : Nat) (hsame : ∀ j, k ≤ j → j < k + n → isBad (s + j) = isBad' j) :
    skipBad isBad n (s + k) o bad = (s + (skipBadBlocks isBad' n k o bad).1,
      ((skipBadBlocks isBad' n k o bad).2.1 : Int), (skipBadBlocks isBad' n k o bad).2.2) := by
  induction n generalizing k o bad with
  | zero => rfl
  | succ n ih =>
    have htail := fun o bad => ih (k + 1) o bad fun j hj hj' => hsame j (by omega) (by omega)
    unfold skipBad skipBadBlocks
    rw [hsame k (le_refl _) (by omega), show s + (k : Int) + 1 = s + ((k + 1 : Nat) : Int) by omega]
    by_cases hbad : isBad' k
    · rw [if_pos hbad, if_pos hbad]
      exact htail o (bad + 1)
    rw [if_neg hbad, if_neg hbad]
    by_cases ho : o = 0
    · rw [if_neg (by omega), if_neg (by omega)]
    · rw [if_pos (by omega), if_pos ho, show (o : Int) - 1 = ((o - 1 : Nat) : Int) by omega]
      exact htail (o - 1) bad

/-- The second loop stops at the start of the range, or after the last bad block. -/
theorem overflowTo_eq {k block ofs : Nat} (n bad : Nat) (hsame : ∀ j, k ≤ j → j < k + n →
    isBad (s + j) = isBad' j)
    (hcount : k = 0 ∨ bad + goodsBelow isBad' (k + n) = goodsBelow isBad' k + n) :
    overflowTo isBad (s + block) ofs n (s + (k + n : Nat) - 1) bad =
      s + overflowBlock isBad' block ofs (k + n) bad := by
  induction n generalizing bad with
  | zero =>
    rcases hcount with rfl | hcount
    · rfl
    · obtain rfl : bad = 0 := by simpa using hcount
      cases k <;> rfl
  | succ n ih =>
    have hsucc := goodsBelow_succ isBad' (k + n)
    have htail := fun bad => ih bad fun j hj hj' => hsame j hj (by omega)
    rw [show s + ((k + (n + 1) : Nat) : Int) - 1 = s + (k + n : Nat) by omega]
    rw [← add_assoc] at hcount ⊢
    unfold overflowTo overflowBlock
    rw [hsame (k + n) (by omega) (by omega)]
    by_cases h0 : bad = 0
    · rw [if_pos h0, if_pos h0]
    rw [if_neg h0, if_neg h0]
    by_cases hgood : (!isBad' (k + n))
    · rw [if_neg (by simpa using hgood)] at hsucc
      rw [if_pos hgood, if_pos hgood]
      exact htail bad (by omega)
    rw [if_pos (by simpa using hgood)] at hsucc
    rw [if_neg hgood, if_neg hgood]
    by_cases hstop : bad - 1 ≤ ofs
    · rw [if_pos (by omega), if_pos hstop]
    · rw [if_neg (by omega), if_neg hstop]
      exact htail (bad - 1) (by omega)

end

def mapOffset (isBad : Nat → Bool) (n o : Nat) : Nat :=
  let q := skipBadBlocks isBad n 0 o 0
  if q.1 < n then q.1 else overflowBlock isBad o q.2.1 n q.2.2

variable {isBad : Nat → Bool}

lemma overflowBlock_place {block ofs : Nat} (i bad : Nat) (hcount : bad + goodsBelow isBad i = i)
    (hofs : ofs < bad) : let r := overflowBlock isBad block ofs i bad
    r < i ∧ isBad r ∧ ofs + goodsBelow isBad r = r := by
  induction i generalizing bad with
  | zero => omega
  | succ i ih =>
    have hsucc := goodsBelow_succ isBad i
    simp only [overflowBlock]
    rw [if_neg (by omega)]
    cases hi : isBad i with
    | false =>
      rw [hi, if_neg (by decide)] at hsucc
      rw [if_pos (by decide)]
      obtain ⟨hlt, hrest⟩ := ih bad (by omega) hofs
      exact ⟨by omega, hrest⟩
    | true =>
      rw [hi, if_pos rfl] at hsucc
      rw [if_neg (by decide)]
      by_cases hstop : bad - 1 ≤ ofs
      · rw [if_pos hstop]
        exact ⟨by omega, hi, by omega⟩
      · rw [if_neg hstop]
        obtain ⟨hlt, hrest⟩ := ih (bad - 1) (by omega) (by omega)
        exact ⟨by omega, hrest⟩

lemma overflowBlock_last {block ofs : Nat} (i bad : Nat) (hcount : bad + goodsBelow isBad i = i)
    (hpos : 0 < bad) (hofs : bad ≤ ofs) : let r := overflowBlock isBad block ofs i bad
    r < i ∧ isBad r ∧ ∀ k, r < k → k < i → isBad k = false := by
  induction i generalizing bad with
  | zero => omega
  | succ i ih =>
    have hsucc := goodsBelow_succ isBad i
    simp only [overflowBlock]
    rw [if_neg (by omega)]
    cases hi : isBad i with
    | false =>
      rw [hi, if_neg (by decide)] at hsucc
      rw [if_pos (by decide)]
      obtain ⟨hlt, hbad, hlast⟩ := ih bad (by omega) hpos hofs
      refine ⟨by omega, hbad, fun k hk hk' => ?_⟩
      by_cases hki : k = i
      · rw [hki, hi]
      · exact hlast k hk (by omega)
    | true =>
      rw [if_neg (by decide), if_pos (by omega)]
      exact ⟨by omega, hi, fun k hk hk' => by omega⟩

section Offset

variable (isBad : Nat → Bool) {n o : Nat}

lemma mapOffset_place (ho : o < n) :
    mapOffset isBad n o < n ∧ place isBad n (mapOffset isBad n o) = o := by
  have hskip := skipBadBlocks_spec isBad n 0 o 0
  have hzero : goodsBelow isBad 0 = 0 := rfl
  simp only [zero_add, hzero] at hskip
  unfold mapOffset
  rcases hskip with ⟨hlt, _, hgood, hcount⟩ | ⟨heq, hcount, hbad⟩
  · rw [if_pos hlt]
    exact ⟨hlt, (place_of_false n hgood).trans hcount⟩
  rw [if_neg (by omega)]
  obtain ⟨hlt, hbadr, hrest⟩ := @overflowBlock_place isBad o (skipBadBlocks isBad n 0 o 0).2.1 n
    (skipBadBlocks isBad n 0 o 0).2.2 (by omega) (by omega)
  refine ⟨hlt, (place_of_true n hbadr).trans ?_⟩
  show goodsBelow isBad n + (_ - goodsBelow isBad _) = o
  omega

lemma mapOffset_behind (ho : n ≤ o) : (mapOffset isBad n o = o ∧ ∀ k < n, isBad k = false) ∨
    (mapOffset isBad n o < n ∧ isBad (mapOffset isBad n o) ∧
      ∀ k, mapOffset isBad n o < k → k < n → isBad k = false) := by
  have hskip := skipBadBlocks_spec isBad n 0 o 0
  have hzero : goodsBelow isBad 0 = 0 := rfl
  simp only [zero_add, hzero] at hskip
  unfold mapOffset
  rcases hskip with ⟨hlt, _, hgood, hcount⟩ | ⟨heq, hcount, hbad⟩
  · have hcount' : goodsBelow isBad (skipBadBlocks isBad n 0 o 0).1 ≤ _ := plain_le _
    omega
  rw [if_neg (by omega)]
  by_cases hnone : (skipBadBlocks isBad n 0 o 0).2.2 = 0
  · left
    refine ⟨?_, fun k hk => ?_⟩
    · rw [hnone]
      cases n <;> rfl
    · exact count_iff_forall.mp (show count _ n = n by
        have : goodsBelow isBad n = n := by omega
        exact this) k hk
  · right
    exact @overflowBlock_last isBad o (skipBadBlocks isBad n 0 o 0).2.1 n
      (skipBadBlocks isBad n 0 o 0).2.2 (by omega) (by omega) (by omega)

end Offset

/-! ## The blocks of a range -/

namespace Bmtd

variable {d : Bmtd} {r : Nat × Nat} {b : Nat}

def rangeLength (d : Bmtd) (r : Nat × Nat) : Nat := (d.shifted r.2 - d.shifted r.1).toNat

def badOffset (d : Bmtd) (r : Nat × Nat) (buf : Nat → BitVec 8) (k : Nat) : Bool :=
  bbtIsBadAt buf (d.shifted r.1 + k)

lemma InRange.cases (h : d.InRange r b) : (d.remapRange = [] ∧ r = (0, d.totalBlks)) ∨
    (r ∈ d.remapRange ∧ r.1 ≤ b * d.blkSize % 2 ^ 32 ∧ b * d.blkSize % 2 ^ 32 < r.2) :=
  mappingBlockInRange_cases h.2

variable {S : Set Nat} {w k m : Nat}

lemma shifted_of_lt (h : w < 2 ^ 31) : d.shifted w = (w / d.blkSize : Nat) := by
  unfold shifted
  rw [signed32_of_lt h]
  rfl

lemma shifted_neg (h : 2 ^ 31 ≤ w) (h' : w < 2 ^ 32) : d.shifted w < 0 := by
  unfold shifted signed32
  exact Int.ediv_neg_of_neg_of_pos (by omega) (by exact_mod_cast d.blkSize_pos)

section

variable (h : d.InRange r b)
include h

lemma InRange.start_le : d.shifted r.1 ≤ b := by
  rcases h.cases with ⟨_, rfl⟩ | ⟨_, hle, _⟩
  · rw [shifted_of_lt (show 0 < 2 ^ 31 by decide), Nat.zero_div]
    exact Int.natCast_nonneg b
  have hmod : b * d.blkSize % 2 ^ 32 < 2 ^ 32 := mod_lt _ (by decide)
  by_cases hlt : r.1 < 2 ^ 31
  · rw [shifted_of_lt hlt]
    have hdiv := Nat.div_le_div_right (c := d.blkSize) (Nat.le_trans hle (Nat.mod_le _ _))
    rw [Nat.mul_div_cancel _ d.blkSize_pos] at hdiv
    exact_mod_cast hdiv
  · have := shifted_neg (d := d) (Nat.le_of_not_lt hlt) (by omega)
    omega

lemma InRange.start_nonneg (hword : ∀ r ∈ d.remapRange, r.2 < 2 ^ 32)
    (hstop : 0 ≤ d.shifted r.2) : 0 ≤ d.shifted r.1 := by
  rcases h.cases with ⟨_, rfl⟩ | ⟨hmem, hle, hlt⟩
  · rw [shifted_of_lt (show 0 < 2 ^ 31 by decide)]
    exact Int.natCast_nonneg _
  by_cases hsmall : r.1 < 2 ^ 31
  · rw [shifted_of_lt hsmall]
    exact Int.natCast_nonneg _
  · have := shifted_neg (d := d) (w := r.2) (by omega) (hword r hmem)
    omega

variable (buf : Nat → BitVec 8)

lemma InRange.mapping : d.getMappingBlockIndexBbt buf b =
    d.shifted r.1 + mapOffset (d.badOffset r buf) (d.rangeLength r) (b - d.shifted r.1).toNat := by
  have hstart := h.start_le
  obtain ⟨o, ho⟩ : ∃ o : Nat, (b : Int) = d.shifted r.1 + o := ⟨(b - d.shifted r.1).toNat, by omega⟩
  have hofs : (b : Int) - d.shifted r.1 = (o : Nat) := by omega
  have hinside : ∀ x : Nat, d.shifted r.1 + x < d.shifted r.2 ↔ x < d.rangeLength r := fun x => by
    unfold rangeLength
    omega
  obtain ⟨q, hq⟩ : ∃ q, q = skipBadBlocks (d.badOffset r buf) (d.rangeLength r) 0 o 0 := ⟨_, rfl⟩
  have hskip : skipBad (bbtIsBadAt buf) (d.rangeLength r) (d.shifted r.1) o 0 =
      (d.shifted r.1 + q.1, (q.2.1 : Int), q.2.2) := by
    have hoffset := @skipBad_eq (bbtIsBadAt buf) _ (d.shifted r.1) (d.rangeLength r) 0 o 0
      fun _ _ _ => rfl
    rw [cast_zero, Int.add_zero] at hoffset
    rw [hoffset, hq]
    rfl
  unfold getMappingBlockIndexBbt mapOffset
  rw [h.2, hofs, Int.toNat_natCast, ← hq]
  dsimp only
  rw [show (d.shifted r.2 - d.shifted r.1).toNat = d.rangeLength r from rfl, hofs, hskip]
  by_cases hlt : q.1 < d.rangeLength r
  · rw [if_pos ((hinside _).mpr hlt), if_pos hlt]
  rw [if_neg (mt (hinside _).mp hlt), if_neg hlt, ho]
  by_cases hempty : d.rangeLength r = 0
  · rw [hempty]
    rfl
  · rw [show d.shifted r.2 - 1 = d.shifted r.1 + (d.rangeLength r : Nat) - 1 by
      unfold rangeLength at hempty ⊢; omega]
    have hoverflow := @overflowTo_eq (bbtIsBadAt buf) _ (d.shifted r.1) 0 o q.2.1
      (d.rangeLength r) q.2.2
      (fun _ _ _ => rfl) (.inl rfl)
    rw [zero_add] at hoverflow
    exact hoverflow

lemma InRange.mapping_eq {buf : Nat → BitVec 8} (hb : b < d.shifted r.2)
    (hk : k < d.rangeLength r)
    (hplace : (d.shifted r.1 + place (d.badOffset r buf) (d.rangeLength r) k : Int) = b) :
    d.getMappingBlockIndexBbt buf b = d.shifted r.1 + k := by
  have ho : (b - d.shifted r.1).toNat < d.rangeLength r := by
    unfold rangeLength
    omega
  obtain ⟨hlt, hfound⟩ := mapOffset_place (d.badOffset r buf) ho
  rw [h.mapping, place_inj hlt hk (hfound.trans (by omega))]

lemma InRange.place (hb : b < d.shifted r.2) :
    ∃ k < d.rangeLength r, d.getMappingBlockIndexBbt buf b = d.shifted r.1 + k ∧
      (d.shifted r.1 + place (d.badOffset r buf) (d.rangeLength r) k : Int) = b := by
  have hstart := h.start_le
  have ho : (b - d.shifted r.1).toNat < d.rangeLength r := by
    unfold rangeLength
    omega
  obtain ⟨hlt, hfound⟩ := mapOffset_place (d.badOffset r buf) ho
  exact ⟨_, hlt, h.mapping buf, by rw [hfound]; omega⟩

lemma InRange.mapping_of_empty
    (hempty : d.shifted r.2 ≤ d.shifted r.1) : d.getMappingBlockIndexBbt buf b = b := by
  have hstart := h.start_le
  have hlength : d.rangeLength r = 0 := by
    unfold rangeLength
    omega
  rw [h.mapping, hlength]
  show d.shifted r.1 + ((b - d.shifted r.1).toNat : Int) = b
  omega

lemma InRange.mapping_behind {buf : Nat → BitVec 8} (hb : d.shifted r.2 ≤ b)
    (hk : k < d.rangeLength r) (hbad : d.badOffset r buf k) :
    ∃ x < d.rangeLength r, d.getMappingBlockIndexBbt buf b = d.shifted r.1 + x ∧ k ≤ x ∧
      d.badOffset r buf x := by
  have ho : d.rangeLength r ≤ (b - d.shifted r.1).toNat := by
    unfold rangeLength
    omega
  rcases mapOffset_behind (d.badOffset r buf) ho with ⟨_, hnone⟩ | ⟨hlt, hlast, hafter⟩
  · rw [hnone k hk] at hbad
    cases hbad
  · refine ⟨_, hlt, h.mapping buf, Nat.le_of_not_lt fun hx => ?_, hlast⟩
    rw [hafter k hx hk] at hbad
    cases hbad

end

/-! ### Two bitmaps -/

def allBad : Nat → BitVec 8 := fun _ => 0xff#8

lemma bbtIsBadAt_allBad (i : Int) : bbtIsBadAt allBad i := by
  unfold bbtIsBadAt bbtBlockIsBad allBad
  rw [show (0xff#8 : BitVec 8) = BitVec.allOnes 8 from rfl, BitVec.allOnes_and]
  exact bne_iff_ne.mpr (bbtMask_ne_zero _)

def onlyBad (m : Nat) : Nat → BitVec 8 := bbtSetBits (fun _ => 0#8) m true

lemma bbtBlockIsBad_onlyBad (m k : Nat) : bbtBlockIsBad (onlyBad m) k = decide (k = m) := by
  unfold onlyBad
  rw [bbtBlockIsBad_set]
  have hgood : bbtBlockIsBad (fun _ => 0#8) k = false := by
    unfold bbtBlockIsBad
    rw [BitVec.zero_and]
    rfl
  rw [hgood, Bool.false_or]

lemma place_after_onlyBad (hstart : 0 ≤ d.shifted r.1) (hm : d.shifted r.1 ≤ m)
    (hlt : m + 1 < 2 ^ 16) :
    (d.shifted r.1 + place (d.badOffset r (onlyBad m)) (d.rangeLength r)
      (m + 1 - d.shifted r.1).toNat : Int) = m := by
  obtain ⟨k, hk⟩ : ∃ k : Nat, (m : Int) = d.shifted r.1 + k := ⟨(m - d.shifted r.1).toNat, by omega⟩
  have hvalue : ∀ j : Nat, d.shifted r.1 + j < 2 ^ 16 →
      d.badOffset r (onlyBad m) j = decide (d.shifted r.1 + j = m) := by
    intro j hj
    unfold badOffset bbtIsBadAt
    rw [bbtBlockIsBad_onlyBad, Int.emod_eq_of_lt (by omega) hj]
    exact decide_eq_decide.mpr (by omega)
  have hnext : d.badOffset r (onlyBad m) (k + 1) = false := by
    rw [hvalue _ (by omega)]
    exact decide_eq_false (by omega)
  have hself : d.badOffset r (onlyBad m) k := by
    rw [hvalue _ (by omega)]
    exact decide_eq_true (by omega)
  have hbelow : plain (d.badOffset r (onlyBad m)) k = k := by
    refine count_iff_forall.mpr fun j hj => ?_
    rw [hvalue _ (by omega)]
    exact decide_eq_false (by omega)
  rw [show (m + 1 - d.shifted r.1).toNat = k + 1 by omega, place_of_false _ hnext,
    plain_succ_of_true hself, hbelow]
  exact hk.symm

/-! ## The mapping as a permutation -/

/-- The mapping permutes the blocks of the range, whatever blocks are bad. -/
def Permutes (d : Bmtd) (r : Nat × Nat) : Prop :=
  ∀ buf, Set.BijOn (d.getMappingBlockIndexBbt buf) (d.rangeBlocks r) (Nat.cast '' d.rangeBlocks r)

/-- The blocks of the range are the ones that the loops go over. -/
def Matches (d : Bmtd) (r : Nat × Nat) : Prop :=
  Nat.cast '' d.rangeBlocks r = Set.Ico (d.shifted r.1) (d.shifted r.2)

lemma Matches.mem_iff (h : d.Matches r) {y : Int} :
    (∃ b, d.InRange r b ∧ (b : Int) = y) ↔ d.shifted r.1 ≤ y ∧ y < d.shifted r.2 := by
  have hy := Set.ext_iff.mp h y
  simpa [rangeBlocks] using hy

lemma Matches.permutes (h : d.Matches r) : d.Permutes r := by
  intro buf
  have hstop : ∀ {b}, d.InRange r b → (b : Int) < d.shifted r.2 :=
    fun hb => (h.mem_iff.mp ⟨_, hb, rfl⟩).2
  refine ⟨fun b hb => ?_, fun b hb b' hb' heq => ?_, ?_⟩
  · obtain ⟨k, hk, hmap, _⟩ := InRange.place hb buf (hstop hb)
    refine h.mem_iff.mpr ⟨by omega, ?_⟩
    unfold rangeLength at hk
    omega
  · obtain ⟨k, _, hmap, hplace⟩ := InRange.place hb buf (hstop hb)
    obtain ⟨k', _, hmap', hplace'⟩ := InRange.place hb' buf (hstop hb')
    obtain rfl : k = k' := by omega
    omega
  · rintro _ ⟨y, hy, rfl⟩
    -- the block with the place of `y` is mapped to `y`
    obtain ⟨hle, hlt⟩ := h.mem_iff.mp ⟨y, hy, rfl⟩
    have hk : (y - d.shifted r.1).toNat < d.rangeLength r := by
      unfold rangeLength
      omega
    have hplace := place_lt (p := d.badOffset r buf) hk
    have hend : (d.rangeLength r : Int) = d.shifted r.2 - d.shifted r.1 := by
      unfold rangeLength
      omega
    obtain ⟨b, hb, hbplace⟩ := (h.mem_iff (y := d.shifted r.1 +
      place (d.badOffset r buf) (d.rangeLength r) (y - d.shifted r.1).toNat)).mpr
        ⟨by omega, by omega⟩
    refine ⟨b, hb, ?_⟩
    rw [InRange.mapping_eq hb (hstop hb) hk hbplace.symm]
    omega

lemma mem_of_prev {s : Int} (hb : b ∈ S) (hprev : ∀ i : Nat, s ≤ (i : Int) → i + 1 ∈ S → i ∈ S)
    (hm : s ≤ (m : Int)) (hmb : m ≤ b) : m ∈ S := by
  have hdown : ∀ k, k ≤ b → s ≤ ((b - k : Nat) : Int) → b - k ∈ S := by
    intro k
    induction k with
    | zero => intro _ _; exact hb
    | succ k ih =>
      intro hk hs
      refine hprev _ hs ?_
      rw [show b - (k + 1) + 1 = b - k by omega]
      exact ih (by omega) (by omega)
  have hmem := hdown (b - m) (by omega)
  rw [show b - (b - m) = m by omega] at hmem
  exact hmem hm

lemma mem_of_next {e : Int} (hb : b ∈ S) (hnext : ∀ i ∈ S, (i : Int) + 1 < e → i + 1 ∈ S)
    (hm : (m : Int) < e) (hbm : b ≤ m) : m ∈ S := by
  obtain ⟨k, rfl⟩ := Nat.exists_eq_add_of_le hbm
  induction k with
  | zero => exact hb
  | succ k ih =>
    rw [← add_assoc] at hm ⊢
    exact hnext _ (ih (by omega) (by omega)) (by omega)

lemma Permutes.lt_stop (h : d.Permutes r) (hne : d.shifted r.1 < d.shifted r.2)
    (hb : d.InRange r b) : (b : Int) < d.shifted r.2 := by
  -- with all blocks bad, a block behind the end is mapped to the last one, which is mapped to
  -- itself
  by_contra hbehind
  obtain ⟨hmaps, hinj, _⟩ := h allBad
  have hlast : d.rangeLength r - 1 < d.rangeLength r := by
    unfold rangeLength
    omega
  obtain ⟨x, hx, hmap, hle, _⟩ :=
    hb.mapping_behind (Int.not_lt.mp hbehind) hlast (bbtIsBadAt_allBad _)
  have hxlast : d.shifted r.1 + (x : Int) = d.shifted r.2 - 1 := by
    unfold rangeLength at hx hle
    omega
  obtain ⟨t, ht, htx⟩ := hmaps hb
  have hplace : place (d.badOffset r allBad) (d.rangeLength r) x = x := by
    have hplain : ∀ k, plain (d.badOffset r allBad) k = 0 := fun k =>
      count_iff_forall_not.mpr fun m _ => by
        rw [show d.badOffset r allBad m from bbtIsBadAt_allBad _]
        decide
    rw [place_of_true _ (show d.badOffset r allBad x from bbtIsBadAt_allBad _), hplain, hplain]
    omega
  have hmapt : d.getMappingBlockIndexBbt allBad t = d.shifted r.1 + x :=
    InRange.mapping_eq ht (by rw [htx, hmap]; omega) hx (by rw [hplace, htx, hmap])
  have heq := hinj hb ht (hmap.trans hmapt.symm)
  omega

/-- The mapping permutes the blocks of a range iff the loops go over these blocks, or over none. -/
theorem permutes_iff {b₀ : Nat} (hword : ∀ r ∈ d.remapRange, r.2 < 2 ^ 32) (hsel : d.InRange r b₀) :
    d.Permutes r ↔ d.shifted r.2 ≤ d.shifted r.1 ∨ d.Matches r := by
  refine ⟨fun h => ?_, ?_⟩
  · by_cases hempty : d.shifted r.2 ≤ d.shifted r.1
    · exact .inl hempty
    right
    have hstop : ∀ {b}, d.InRange r b → (b : Int) < d.shifted r.2 :=
      fun hb => h.lt_stop (Int.not_le.mp hempty) hb
    have hstart := hsel.start_nonneg hword (by have := hstop hsel; omega)
    have htotal := d.totalBlks_lt
    have hnext : ∀ i ∈ d.rangeBlocks r, (i : Int) + 1 < d.shifted r.2 →
      i + 1 ∈ d.rangeBlocks r := by
      intro i hi hlt
      have hle := InRange.start_le hi
      have hi' := hi.1
      have hmap := InRange.mapping_eq hi (hstop hi) (k := (i + 1 - d.shifted r.1).toNat)
        (by unfold rangeLength; omega) (place_after_onlyBad hstart hle (by omega))
      obtain ⟨t, ht, htx⟩ := (h (onlyBad i)).1 hi
      obtain rfl : t = i + 1 := by omega
      exact ht
    have hprev : ∀ i : Nat, d.shifted r.1 ≤ (i : Int) → i + 1 ∈ d.rangeBlocks r →
      i ∈ d.rangeBlocks r := by
      intro i hi hmem
      have hi' := hmem.1
      obtain ⟨b, hb, hmap⟩ := (h (onlyBad i)).2.2 ⟨i + 1, hmem, rfl⟩
      obtain ⟨k, _, hmapk, hplace⟩ := InRange.place hb (onlyBad i) (hstop hb)
      have hafter := place_after_onlyBad (d := d) (r := r) hstart hi (by omega)
      obtain rfl : k = (i + 1 - d.shifted r.1).toNat := by
        omega
      obtain rfl : b = i := by
        omega
      exact hb
    ext y
    refine ⟨?_, fun hy => ?_⟩
    · rintro ⟨b, hb, rfl⟩
      exact ⟨InRange.start_le hb, hstop hb⟩
    obtain ⟨m, rfl⟩ : ∃ m : Nat, y = m := ⟨y.toNat, by have := hy.1; omega⟩
    refine ⟨m, ?_, rfl⟩
    rcases le_total b₀ m with hle | hle
    · exact mem_of_next hsel hnext hy.2 hle
    · exact mem_of_prev hsel hprev hy.1 hle
  · rintro (hempty | hmatch)
    · intro buf
      have hid : Set.EqOn (Nat.cast : Nat → Int) (d.getMappingBlockIndexBbt buf)
        (d.rangeBlocks r) :=
        fun b hb => (InRange.mapping_of_empty hb buf hempty).symm
      exact (Set.InjOn.bijOn_image (cast_injective.injOn)).congr hid
    · exact hmatch.permutes

/-! ## Two chips -/

def rangedChip : Bmtd where
  blkShift := 17
  pgShift := 11
  totalBlks := 1024
  remapRange := [(8 * 2 ^ 17, 1016 * 2 ^ 17)]
  pgShift_le := by decide
  totalBlks_lt := by decide

lemma rangedChip_inRange : ∀ b < 1024,
    rangedChip.InRange (8 * 2 ^ 17, 1016 * 2 ^ 17) b ↔ 8 ≤ b ∧ b < 1016 := by
  decide +kernel

lemma rangedChip_matches : rangedChip.Matches (8 * 2 ^ 17, 1016 * 2 ^ 17) := by
  unfold Matches
  rw [show rangedChip.shifted (8 * 2 ^ 17) =
    8 by decide, show rangedChip.shifted (1016 * 2 ^ 17) = 1016 by decide]
  ext y
  refine ⟨?_, fun hy => ?_⟩
  · rintro ⟨b, hb, rfl⟩
    obtain ⟨hlo, hhi⟩ := (rangedChip_inRange b hb.1).mp hb
    exact ⟨by omega, by omega⟩
  · obtain ⟨m, rfl⟩ : ∃ m : Nat, y = m := ⟨y.toNat, by have := hy.1; omega⟩
    have hlo := hy.1
    have hhi := hy.2
    exact ⟨m, (rangedChip_inRange m (by omega)).mpr ⟨by omega, by omega⟩, rfl⟩

theorem permutes_rangedChip : rangedChip.InRange (8 * 2 ^ 17, 1016 * 2 ^ 17) 8 ∧
    rangedChip.Permutes (8 * 2 ^ 17, 1016 * 2 ^ 17) :=
  have hsel : rangedChip.InRange (8 * 2 ^ 17, 1016 * 2 ^ 17) 8 := by decide
  ⟨hsel, (permutes_iff (by decide) hsel).mpr (.inr rangedChip_matches)⟩

def plainChip (blkShift totalBlks : Nat) (hshift : 9 ≤ blkShift) (htotal : totalBlks < 2 ^ 16) :
    Bmtd where
  blkShift := blkShift
  pgShift := 9
  totalBlks := totalBlks
  remapRange := []
  pgShift_le := hshift
  totalBlks_lt := htotal

/-- 16384 blocks of 16 KiB without the property: blocks 1 and 2 are both mapped to the bad block
0. -/
theorem plainChip_not_permutes : ∃ d : Bmtd, d.remapRange = [] ∧ d.InRange (0, 16384) 1 ∧
    d.InRange (0, 16384) 2 ∧
    d.getMappingBlockIndexBbt (onlyBad 0) 1 = 0 ∧ d.getMappingBlockIndexBbt (onlyBad 0) 2 = 0 ∧
    ¬ d.Permutes (0, 16384) := by
  refine ⟨plainChip 14 16384 (by decide) (by decide),
    rfl, by decide, by decide, by decide, by decide, fun h => ?_⟩
  have heq := (h (onlyBad 0)).2.1 (show Bmtd.InRange _ (0, 16384) 1 by decide)
    (show Bmtd.InRange _ (0, 16384) 2 by decide) (by decide)
  cases heq

end Bmtd

/-! ## Chips below 2 GiB -/

/-- On a chip below 2 GiB with ranges of whole blocks, the mapping is the one of `Bbt`. -/
theorem BbtDev.Separate.getMapping_eq {d : BbtDev} (hd : d.Separate) (buf : Nat → BitVec 8)
    {b : Nat} (hb : b < d.totalBlks) : d.toBmtd.getMappingBlockIndexBbt buf b =
    getMappingBlockIndexBbt d buf b := by
  unfold Bmtd.getMappingBlockIndexBbt
  cases hfind : d.mappingBlockInRange b with
  | none =>
    unfold getMappingBlockIndexBbt BbtDev.rangeOf
    rw [hfind]
    rfl
  | some r =>
    have hrange : d.rangeOf b = some (r.1 / d.blkSize, r.2 / d.blkSize) := by
      unfold BbtDev.rangeOf
      rw [hfind]
      rfl
    obtain ⟨hstart, hle⟩ := rangeOf_bounds hb hrange
    have hstop := hd.stop_le hb hrange
    have htotal := d.totalBlks_lt
    obtain ⟨hr1, hr2⟩ : r.1 < 2 ^ 31 ∧ r.2 < 2 ^ 31 := by
      rcases (show d.toBmtd.InRange r b from ⟨hb, hfind⟩).cases with ⟨_, rfl⟩ | ⟨hmem, hlo, hhi⟩
      · exact ⟨Nat.two_pow_pos 31, show d.totalBlks < 2 ^ 31 by omega⟩
      · have := lt_of_le_of_lt (hd.inside r hmem) d.size_lt
        omega
    obtain ⟨start, hs⟩ : ∃ start, start = r.1 / d.blkSize := ⟨_, rfl⟩
    obtain ⟨n, hn⟩ : ∃ n, r.2 / d.blkSize = start + n := ⟨r.2 / d.blkSize - start, by omega⟩
    have hsame : ∀ j : Nat, start ≤ j → j < start + n → bbtIsBadAt buf j = bbtBlockIsBad buf j := by
      intro j _ hj
      unfold bbtIsBadAt
      rw [Int.emod_eq_of_lt (by omega) (by omega), Int.toNat_natCast]
    have hskip := @skipBad_eq _ (bbtBlockIsBad buf) 0 n start (b - start) 0 (by simpa using hsame)
    simp only [Int.zero_add] at hskip
    have hspec := skipBadBlocks_spec (bbtBlockIsBad buf) n start (b - start) 0
    unfold getMappingBlockIndexBbt
    rw [hrange]
    dsimp only at hspec ⊢
    rw [Bmtd.shifted_of_lt hr1, Bmtd.shifted_of_lt hr2, ← hs, hn]
    rw [show (((start + n : Nat) : Int) - start).toNat = n by omega, Nat.add_sub_cancel_left,
      show (b : Int) - start = ((b - start : Nat) : Int) by omega, hskip]
    generalize skipBadBlocks (bbtBlockIsBad buf) n start (b - start) 0 = q at hspec ⊢
    by_cases hlt : q.1 < start + n
    · rw [if_pos (by omega), if_pos hlt]
    · rw [if_neg (by omega), if_neg hlt]
      have hrest : q.2.2 + goodsBelow (bbtBlockIsBad buf) (start + n) =
        goodsBelow (bbtBlockIsBad buf) start + n := by
        omega
      have hoverflow := @overflowTo_eq (bbtIsBadAt buf) _ 0 start b q.2.1 n q.2.2
        (by simpa using hsame) (.inr hrest)
      simpa using hoverflow

end SourceMaster.Nand
