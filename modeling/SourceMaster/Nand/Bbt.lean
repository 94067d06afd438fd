import SourceMaster.Nand.Bmt
import Mathlib.Data.List.Pairwise

/-!
# The BBT manager

This manager keeps no mapping at all. It has a bitmap of bad blocks, and counts: within a range, the
logical blocks are the good physical blocks from the start on, and the ones left over at the end are
the bad blocks. Marking a block bad therefore moves every logical block behind it by one.
-/

namespace SourceMaster.Nand

open Function Option Nat Chip Bmtd

/-- The chip of a BBT manager: its size is an `int`, and the bitmap fits into a block. -/
structure BbtDev extends Bmtd where
  size_lt : totalBlks * 2 ^ blkShift < 2 ^ 31
  table_fits : totalBlks / 4 ≤ 2 ^ blkShift

/-- The state of the manager: `bbt_buf`, the block it is stored in, and the chip. -/
structure Bbt where
  bbtBuf : Nat → BitVec 8
  bmtBlkIdx : Nat
  chip : Chip

def bbtMask (block : Nat) : BitVec 8 := 3#8 <<< (block % 4 * 2)

def bbtBlockIsBad (buf : Nat → BitVec 8) (block : Nat) : Bool :=
  buf (block / 4) &&& bbtMask block != 0#8

def BbtDev.bufSize (d : BbtDev) : Nat := (d.totalBlks / 4 + d.blkSize - 1) / d.blkSize * d.blkSize

def bbtSig : List Nat := [0x6d, 0x74, 0x6b, 0x6e, 0x61, 0x6e, 0x64]

def bbtSetBits (buf : Nat → BitVec 8) (block : Nat) (bad : Bool) : Nat → BitVec 8 :=
  update buf (block / 4)
    (if bad then buf (block / 4) ||| bbtMask block else buf (block / 4) &&& ~~~bbtMask block)

def bbtSetBlockState (F : Faults) (d : BbtDev) (s : Bbt) (block : Nat) (bad : Bool) : Bbt :=
  let buf := bbtSetBits s.bbtBuf block bad
  let c := (s.chip.erase F s.bmtBlkIdx).2
  let c := (writeBmt F s.bmtBlkIdx 0 bbtSig d.bufSize (fun i => (buf i).toNat) c).2
  { s with bbtBuf := buf, chip := c }

/-! ## The mapping -/

/-- The first loop of `get_mapping_block_index_bbt`, with `n` blocks to go: the block it stops at,
the rest of the offset, and the bad blocks passed. -/
def skipBadBlocks (isBad : Nat → Bool) : Nat → Nat → Nat → Nat → Nat × Nat × Nat
  | 0, i, ofs, badBlocks => (i, ofs, badBlocks)
  | n + 1, i, ofs, badBlocks =>
    if isBad i then skipBadBlocks isBad n (i + 1) ofs (badBlocks + 1)
    else if ofs ≠ 0 then skipBadBlocks isBad n (i + 1) (ofs - 1) badBlocks
    else (i, ofs, badBlocks)

/-- The second loop, from the end of the range downwards. It stops when all bad blocks are
passed. -/
def overflowBlock (isBad : Nat → Bool) (block ofs : Nat) : Nat → Nat → Nat
  | 0, _ => block
  | i + 1, badBlocks =>
    if badBlocks = 0 then block
    else if !isBad i then overflowBlock isBad block ofs i badBlocks
    else if badBlocks - 1 ≤ ofs then i
    else overflowBlock isBad block ofs i (badBlocks - 1)

/-- The range of a block, in blocks: `start >>= blk_shift; end >>= blk_shift`. -/
def BbtDev.rangeOf (d : BbtDev) (block : Nat) : Option (Nat × Nat) :=
  (d.mappingBlockInRange block).map (fun r => (r.1 / d.blkSize, r.2 / d.blkSize))

def getMappingBlockIndexBbt (d : BbtDev) (buf : Nat → BitVec 8) (block : Nat) : Nat :=
  match d.rangeOf block with
  | none => block
  | some (start, stop) =>
    let r := skipBadBlocks (bbtBlockIsBad buf) (stop - start) start (block - start) 0
    if r.1 < stop then r.1
    else overflowBlock (bbtBlockIsBad buf) block r.2.1 stop r.2.2

def remapBlockBbt (F : Faults) (d : BbtDev) (s : Bbt) (block mappedBlk copyLen : Nat) :
    Bool × Bbt :=
  match d.mappingBlockInRange block with
  | none => (false, s)
  | some _ =>
    let s := bbtSetBlockState F d s mappedBlk true
    let newBlk := getMappingBlockIndexBbt d s.bbtBuf block
    let c := (s.chip.erase F newBlk).2
    let c := if copyLen > 0 then (bbtNandCopy F d.toBmtd newBlk mappedBlk copyLen c).2 else c
    (true, { s with chip := c })

def bbtOps (d : BbtDev) : BmtOps Bbt where
  chip := Bbt.chip
  setChip s c := { s with chip := c }
  getMappingBlock s block := some (getMappingBlockIndexBbt d s.bbtBuf block)
  remapBlock F s := remapBlockBbt F d s

/-! ## The bitmap -/

variable {d : BbtDev} (isBad : Nat → Bool) (buf : Nat → BitVec 8) (m : Nat) {b : Nat} (k : Nat)

lemma bbtMask_and {a : Nat} (h : a / 4 = b / 4) :
    bbtMask a &&& bbtMask b = if a = b then bbtMask b else 0#8 := by
  have hcases : ∀ x < 4, ∀ y < 4,
      (3#8 <<< (x * 2)) &&& (3#8 <<< (y * 2)) = if x = y then 3#8 <<< (y * 2) else 0#8 := by
    decide
  have hmod := hcases (a % 4) (mod_lt _ (by omega)) (b % 4) (mod_lt _ (by omega))
  have hiff : a % 4 = b % 4 ↔ a = b := by omega
  rw [bbtMask, bbtMask, hmod]
  simp only [hiff]

lemma bbtMask_ne_zero (a : Nat) : bbtMask a ≠ 0#8 := by
  have hcases : ∀ x < 4, 3#8 <<< (x * 2) ≠ 0#8 := by decide
  exact hcases _ (mod_lt _ (by omega))

lemma bbtBlockIsBad_set :
    bbtBlockIsBad (bbtSetBits buf m true) k = (bbtBlockIsBad buf k || decide (k = m)) := by
  unfold bbtBlockIsBad bbtSetBits
  by_cases hunit : k / 4 = m / 4
  · rw [hunit, update_self, if_pos rfl, BitVec.and_comm, BitVec.and_or_distrib_left,
      bbtMask_and hunit]
    by_cases heq : k = m
    · subst heq
      have hor : bbtMask k &&& buf (k / 4) ||| bbtMask k ≠ 0#8 := by
        intro h
        exact bbtMask_ne_zero k (BitVec.or_eq_zero_iff.mp h).2
      simp [hor]
    · simp [heq, BitVec.and_comm]
  · rw [update_of_ne hunit]
    have heq : k ≠ m := fun h => hunit (by rw [h])
    simp [heq]

/-! ## The mapping in terms of good blocks -/

lemma skipBadBlocks_spec (isBad : Nat → Bool) (n i ofs bad : Nat) :
    let r := skipBadBlocks isBad n i ofs bad
    (r.1 < i + n ∧ i ≤ r.1 ∧ isBad r.1 = false ∧ goodsBelow isBad r.1 = goodsBelow isBad i + ofs) ∨
    (r.1 = i + n ∧ goodsBelow isBad (i + n) + r.2.1 = goodsBelow isBad i + ofs ∧
      r.2.2 + goodsBelow isBad (i + n) = bad + goodsBelow isBad i + n) := by
  induction n generalizing i ofs bad with
  | zero => right; simp [skipBadBlocks]
  | succ n ih =>
    have hsucc := goodsBelow_succ isBad i
    simp only [skipBadBlocks]
    split_ifs with hbad hofs
    · simp only [hbad, ↓reduceIte, add_zero] at hsucc
      have h := ih (i + 1) ofs (bad + 1)
      simp only [hsucc, show i + 1 + n = i + (n + 1) by omega] at h
      rcases h with ⟨hlt, hle, hgood, hcount⟩ | h
      · exact .inl ⟨hlt, by omega, hgood, by omega⟩
      · exact .inr (by omega)
    · simp only [hbad, Bool.false_eq_true, ↓reduceIte] at hsucc
      have h := ih (i + 1) (ofs - 1) bad
      simp only [hsucc, show i + 1 + n = i + (n + 1) by omega] at h
      rcases h with ⟨hlt, hle, hgood, hcount⟩ | h
      · exact .inl ⟨hlt, by omega, hgood, by omega⟩
      · exact .inr (by omega)
    · left
      refine ⟨by simp, le_rfl, by simpa using hbad, ?_⟩
      simp only [ne_eq, Decidable.not_not] at hofs
      simp [hofs]

lemma overflowBlock_spec (block ofs start i bad : Nat) (hle : start ≤ i)
    (hcount : bad + goodsBelow isBad i = goodsBelow isBad start + (i - start)) :
    let r := overflowBlock isBad block ofs i bad
    (bad = 0 ∧ r = block) ∨ (start ≤ r ∧ r < i ∧ isBad r) := by
  induction i generalizing bad with
  | zero =>
    left
    obtain rfl : start = 0 := by omega
    refine ⟨by omega, rfl⟩
  | succ i ih =>
    have hsucc := goodsBelow_succ isBad i
    simp only [overflowBlock]
    by_cases hend : start = i + 1
    · subst hend
      have : bad = 0 := by omega
      simp [this]
    split_ifs with h0 hgood hstop
    · exact .inl ⟨h0, rfl⟩
    · simp only [Bool.not_eq_true'] at hgood
      simp only [hgood, Bool.false_eq_true, ↓reduceIte] at hsucc
      rcases ih bad (by omega) (by omega) with h | h
      · exact .inl h
      · exact .inr ⟨h.1, by omega, h.2.2⟩
    · exact .inr ⟨by omega, by omega, by simpa using hgood⟩
    · simp only [Bool.not_eq_true', Bool.not_eq_false] at hgood
      simp only [hgood, ↓reduceIte, add_zero] at hsucc
      rcases ih (bad - 1) (by omega) (by omega) with h | h
      · exact absurd h.1 (by omega)
      · exact .inr ⟨h.1, by omega, h.2.2⟩

/-! ## Ranges -/

lemma mappingBlockInRange_cases {d : Bmtd} {r : Nat × Nat}
    (h : d.mappingBlockInRange b = some r) :
    (d.remapRange = [] ∧ r = (0, d.totalBlks)) ∨
      (r ∈ d.remapRange ∧ r.1 ≤ b * d.blkSize % 2 ^ 32 ∧ b * d.blkSize % 2 ^ 32 < r.2) := by
  unfold mappingBlockInRange at h
  split_ifs at h with hr
  · exact .inl ⟨hr, (some.inj h).symm⟩
  · have hin := List.find?_some h
    simp only [ge_iff_le, Bool.not_eq_true', Bool.or_eq_false_iff, decide_eq_false_iff_not, not_lt,
      not_le] at hin
    exact .inr ⟨List.mem_of_find?_eq_some h, hin⟩

lemma address_mod (hb : b < d.totalBlks) : b * d.blkSize % 2 ^ 32 = b * d.blkSize := by
  have hlt : b * d.blkSize ≤ d.totalBlks * d.blkSize := Nat.mul_le_mul_right _ hb.le
  have hsize : d.totalBlks * d.blkSize < 2 ^ 31 := d.size_lt
  exact mod_eq_of_lt (by omega)

lemma rangeOf_nil (hr : d.remapRange = []) (b : Nat) :
    d.rangeOf b = some (0, d.totalBlks / d.blkSize) := by
  rw [BbtDev.rangeOf, mappingBlockInRange, if_pos hr, map_some, Nat.zero_div]

lemma rangeOf_mem {start stop : Nat} (hb : b < d.totalBlks) (h : d.rangeOf b = some (start, stop))
    (hr : d.remapRange ≠ []) : ∃ r ∈ d.remapRange, r.1 ≤ b * d.blkSize ∧ b * d.blkSize < r.2 ∧
      start = r.1 / d.blkSize ∧ stop = r.2 / d.blkSize := by
  obtain ⟨r, hfind, heq⟩ := map_eq_some_iff.mp h
  rcases mappingBlockInRange_cases hfind with ⟨hnil, -⟩ | ⟨hmem, hin⟩
  · exact absurd hnil hr
  rw [address_mod hb] at hin
  obtain ⟨h1, h2⟩ := Prod.mk.inj heq
  exact ⟨r, hmem, hin.1, hin.2, h1.symm, h2.symm⟩

lemma rangeOf_bounds {start stop : Nat} (hb : b < d.totalBlks)
    (h : d.rangeOf b = some (start, stop)) : start ≤ b ∧ start ≤ stop := by
  by_cases hr : d.remapRange = []
  · obtain ⟨rfl, -⟩ := Prod.mk.inj (some.inj ((rangeOf_nil hr b).symm.trans h))
    exact ⟨Nat.zero_le _, Nat.zero_le _⟩
  · obtain ⟨r, -, h1, h2, rfl, rfl⟩ := rangeOf_mem hb h hr
    have hle : r.1 / d.blkSize ≤ b := by
      have := Nat.div_le_div_right (c := d.blkSize) h1
      rwa [Nat.mul_div_cancel _ d.blkSize_pos] at this
    exact ⟨hle, Nat.div_le_div_right (h1.trans h2.le)⟩

/-- The ranges of the property are made of whole blocks of the chip and do not overlap. Without the
property the chip has fewer blocks than a block has bytes, as all chips with blocks from 64 KiB on;
then no block is mapped to another one. -/
structure BbtDev.Separate (d : BbtDev) : Prop where
  whole : ∀ r ∈ d.remapRange, d.blkSize ∣ r.1 ∧ d.blkSize ∣ r.2
  inside : ∀ r ∈ d.remapRange, r.2 ≤ d.totalBlks * d.blkSize
  disjoint : d.remapRange.Pairwise (fun r r' => r.2 ≤ r'.1 ∨ r'.2 ≤ r.1)
  plain : d.remapRange = [] → d.totalBlks < d.blkSize

section

variable (hd : d.Separate)
include hd

lemma BbtDev.Separate.lt_stop {start stop : Nat} (hb : b < d.totalBlks)
    (h : d.rangeOf b = some (start, stop)) (hr : d.remapRange ≠ []) : b < stop := by
  obtain ⟨r, hmem, -, h2, -, rfl⟩ := rangeOf_mem hb h hr
  obtain ⟨k, hk⟩ := (hd.whole r hmem).2
  rw [hk, Nat.mul_comm] at h2
  rw [hk, Nat.mul_div_cancel_left _ d.blkSize_pos]
  exact Nat.lt_of_mul_lt_mul_left h2

lemma BbtDev.Separate.stop_le {start stop : Nat} (hb : b < d.totalBlks)
    (h : d.rangeOf b = some (start, stop)) : stop ≤ d.totalBlks := by
  by_cases hr : d.remapRange = []
  · obtain ⟨-, rfl⟩ := Prod.mk.inj (some.inj ((rangeOf_nil hr b).symm.trans h))
    exact div_le_self _ _
  · obtain ⟨r, hmem, -, -, -, rfl⟩ := rangeOf_mem hb h hr
    exact Nat.div_le_of_le_mul (by rw [Nat.mul_comm]; exact hd.inside r hmem)

lemma BbtDev.Separate.range_cases {b' start stop start' stop' : Nat}
    (hb : b < d.totalBlks) (hb' : b' < d.totalBlks) (h : d.rangeOf b = some (start, stop))
    (h' : d.rangeOf b' = some (start', stop')) :
    (start = start' ∧ stop = stop') ∨ (d.remapRange ≠ [] ∧ (stop ≤ start' ∨ stop' ≤ start)) := by
  by_cases hr : d.remapRange = []
  · rw [rangeOf_nil hr] at h h'
    exact .inl (Prod.mk.inj (some.inj (h.symm.trans h')))
  · obtain ⟨r, hmem, -, -, rfl, rfl⟩ := rangeOf_mem hb h hr
    obtain ⟨r', hmem', -, -, rfl, rfl⟩ := rangeOf_mem hb' h' hr
    by_cases heq : r = r'
    · left; simp [heq]
    right
    have : Std.Symm (fun r r' : Nat × Nat => r.2 ≤ r'.1 ∨ r'.2 ≤ r.1) := ⟨fun _ _ h => h.symm⟩
    refine ⟨hr, ?_⟩
    rcases hd.disjoint.forall hmem hmem' heq with h | h
    · exact .inl (Nat.div_le_div_right h)
    · exact .inr (Nat.div_le_div_right h)

lemma rangeOf_succ {start stop : Nat} (hb : b < d.totalBlks)
    (h : d.rangeOf b = some (start, stop)) (hlt : b + 1 < stop) :
    d.rangeOf (b + 1) = some (start, stop) := by
  have hb1 : b + 1 < d.totalBlks := lt_of_lt_of_le hlt (hd.stop_le hb h)
  by_cases hr : d.remapRange = []
  · rw [rangeOf_nil hr] at h ⊢
    exact h
  -- the range of `b` contains the block, so there is one; and it cannot be another one
  obtain ⟨r, hmem, h1, -, -, rfl⟩ := rangeOf_mem hb h hr
  have hin : (b + 1) * d.blkSize < r.2 := by
    have := Nat.mul_le_mul_right d.blkSize (succ_le_of_lt hlt)
    have hdiv := div_mul_le_self r.2 d.blkSize
    have hpos := d.blkSize_pos
    rw [succ_mul] at this
    omega
  have hsome : (d.rangeOf (b + 1)).isSome := by
    rw [BbtDev.rangeOf, isSome_map, mappingBlockInRange, if_neg hr, List.find?_isSome]
    refine ⟨r, hmem, ?_⟩
    have hle : r.1 ≤ (b + 1) * d.blkSize := h1.trans (Nat.mul_le_mul_right _ (le_succ b))
    simp only [address_mod hb1, ge_iff_le, Bool.not_eq_true', Bool.or_eq_false_iff,
      decide_eq_false_iff_not, not_lt, not_le]
    exact ⟨hle, hin⟩
  obtain ⟨⟨start', stop'⟩, h'⟩ := isSome_iff_exists.mp hsome
  rcases hd.range_cases hb hb1 h h' with ⟨rfl, rfl⟩ | ⟨-, hdisj⟩
  · exact h'
  · have hbounds := rangeOf_bounds hb h
    have hbounds' := rangeOf_bounds hb1 h'
    have hlt' := hd.lt_stop hb1 h' hr
    omega

end

/-! ## The blocks of a range -/

/-- `mapping_block_in_range` selects the same range for both blocks. -/
abbrev Bmtd.SameRange (d : Bmtd) (k l : Nat) : Prop :=
    d.mappingBlockInRange k = d.mappingBlockInRange l

/-- The number of blocks of the range in front of a block. -/
def BbtDev.position (d : BbtDev) (l : Nat) : Nat := Nat.count (d.SameRange · l) l

/-- The number of good blocks of the range of a block. -/
def BbtDev.goods (d : BbtDev) (buf : Nat → BitVec 8) (l : Nat) : Nat :=
  Nat.count (fun k => d.SameRange k l ∧ bbtBlockIsBad buf k = false) d.totalBlks

section

variable {l start stop : Nat} (hd : d.Separate) (hl : l < d.totalBlks)
  (hr : d.rangeOf l = some (start, stop)) (hne : d.remapRange ≠ [])
include hd hl hr hne

omit hl in
lemma sameRange_iff (hk : k < d.totalBlks) : d.SameRange k l ↔ start ≤ k ∧ k < stop := by
  constructor
  · intro hsame
    have hrk : d.rangeOf k = some (start, stop) := by
      rw [← hr, BbtDev.rangeOf, BbtDev.rangeOf, hsame]
    exact ⟨(rangeOf_bounds hk hrk).1, hd.lt_stop hk hrk hne⟩
  · rintro ⟨hstart, hstop⟩
    obtain ⟨r, hfind, heq⟩ := map_eq_some_iff.mp hr
    obtain ⟨rfl, rfl⟩ := Prod.mk.inj heq
    have hmem := ((mappingBlockInRange_cases hfind).resolve_left fun h => hne h.1).1
    obtain ⟨⟨i, hi⟩, ⟨j, hj⟩⟩ := hd.whole r hmem
    rw [hi, Nat.mul_div_cancel_left _ d.blkSize_pos] at hstart
    rw [hj, Nat.mul_div_cancel_left _ d.blkSize_pos] at hstop
    have hlow : r.1 ≤ k * d.blkSize := by
      rw [hi, Nat.mul_comm]
      exact Nat.mul_le_mul_right _ hstart
    have hhigh : k * d.blkSize < r.2 := by
      rw [hj, Nat.mul_comm]
      exact (Nat.mul_lt_mul_left d.blkSize_pos).2 hstop
    -- the block is in the range of `l`, and in no other one
    rw [Bmtd.SameRange, hfind]
    have hsome : (d.mappingBlockInRange k).isSome := by
      rw [mappingBlockInRange, if_neg hne, List.find?_isSome]
      refine ⟨r, hmem, ?_⟩
      simp only [address_mod hk, ge_iff_le, Bool.not_eq_true', Bool.or_eq_false_iff,
        decide_eq_false_iff_not, not_lt, not_le]
      exact ⟨hlow, hhigh⟩
    obtain ⟨r', hr'⟩ := isSome_iff_exists.mp hsome
    obtain ⟨hmem', hin⟩ := (mappingBlockInRange_cases hr').resolve_left fun h => hne h.1
    rw [address_mod hk] at hin
    rw [hr', some.injEq]
    by_contra hother
    have : Std.Symm (fun r r' : Nat × Nat => r.2 ≤ r'.1 ∨ r'.2 ≤ r.1) := ⟨fun _ _ h => h.symm⟩
    have := hd.disjoint.forall hmem' hmem hother
    omega

lemma position_eq : d.position l = l - start := by
  have hstop := hd.lt_stop hl hr hne
  suffices h : ∀ n ≤ l, Nat.count (d.SameRange · l) n = n - start from h l (le_refl l)
  intro n hn
  induction n with
  | zero => rw [Nat.count_zero, Nat.zero_sub]
  | succ n ih =>
    have hiff := sameRange_iff hd hr hne (k := n) (by omega)
    rw [Nat.count_succ, ih (by omega)]
    split_ifs with hsame
    · have := hiff.1 hsame
      omega
    · have := mt hiff.2 hsame
      omega

lemma goods_eq (buf : Nat → BitVec 8) :
    d.goods buf l + goodsBelow (bbtBlockIsBad buf) start = goodsBelow (bbtBlockIsBad buf) stop := by
  have hle := (rangeOf_bounds hl hr).2
  have hstop := hd.stop_le hl hr
  suffices h : ∀ n ≤ d.totalBlks,
      Nat.count (fun k => d.SameRange k l ∧ bbtBlockIsBad buf k = false) n +
        goodsBelow (bbtBlockIsBad buf) (min n start) =
          goodsBelow (bbtBlockIsBad buf) (min n stop) by
    have htotal := h d.totalBlks (le_refl _)
    rwa [min_eq_right (by omega), min_eq_right hstop] at htotal
  intro n hn
  induction n with
  | zero => simp
  | succ n ih =>
    have hiff := sameRange_iff hd hr hne (k := n) (by omega)
    have hsucc := goodsBelow_succ (bbtBlockIsBad buf) n
    specialize ih (by omega)
    rw [Nat.count_succ]
    -- before, in and behind the range
    by_cases hbefore : n < start
    · have hout : ¬ d.SameRange n l := fun hsame => by have := hiff.1 hsame; omega
      rw [if_neg fun h => hout h.1, min_eq_left (by omega), min_eq_left (by omega)]
      rw [min_eq_left (by omega), min_eq_left (by omega)] at ih
      omega
    by_cases hbehind : stop ≤ n
    · have hout : ¬ d.SameRange n l := fun hsame => by have := hiff.1 hsame; omega
      rw [if_neg fun h => hout h.1, min_eq_right (by omega), min_eq_right (by omega)]
      rw [min_eq_right (by omega), min_eq_right (by omega)] at ih
      omega
    rw [min_eq_right (by omega), min_eq_left (by omega), hsucc]
    rw [min_eq_right (by omega), min_eq_left (by omega)] at ih
    cases hbad : bbtBlockIsBad buf n
    · rw [if_pos ⟨hiff.2 (by omega), rfl⟩]
      simp only [Bool.false_eq_true, if_false]
      omega
    · rw [if_neg (by simp)]
      simp only [if_true]
      omega

end

/-- A logical block is mapped to the good block with as many good blocks below it or, if there are
too few, to a bad block. Without one it is left alone. -/
theorem getMappingBlockIndexBbt_spec (buf : Nat → BitVec 8) {start stop : Nat}
    (hb : b < d.totalBlks) (h : d.rangeOf b = some (start, stop)) : let isBad := bbtBlockIsBad buf
    let r := getMappingBlockIndexBbt d buf b
    (start ≤ r ∧ r < stop ∧ isBad r = false ∧ goodsBelow isBad r = goodsBelow isBad start +
      (b - start)) ∨
    (goodsBelow isBad stop ≤ goodsBelow isBad start + (b - start) ∧
      ((start ≤ r ∧ r < stop ∧ isBad r) ∨ (r = b ∧ stop ≤ b))) := by
  obtain ⟨hstart, hle⟩ := rangeOf_bounds hb h
  have hskip := skipBadBlocks_spec (bbtBlockIsBad buf) (stop - start) start (b - start) 0
  simp only [show start + (stop - start) = stop by omega] at hskip
  simp only [getMappingBlockIndexBbt, h]
  rcases hskip with ⟨hlt, hge, hgood, hcount⟩ | ⟨heq, hcount, hbad⟩
  · left
    rw [if_pos hlt]
    exact ⟨hge, hlt, hgood, hcount⟩
  right
  rw [if_neg (by omega)]
  refine ⟨by omega, ?_⟩
  rcases overflowBlock_spec (bbtBlockIsBad buf) b
    (skipBadBlocks (bbtBlockIsBad buf) (stop - start) start (b - start) 0).2.1 start stop
    (skipBadBlocks (bbtBlockIsBad buf) (stop - start) start (b - start) 0).2.2 hle (by omega)
    with ⟨h0, hblk⟩ | hover
  · exact .inr ⟨hblk, by omega⟩
  · exact .inl hover

/-! ## What a remap does to the other logical blocks -/

lemma goodsBelow_mark : goodsBelow (fun i => isBad i || decide (i = m)) k +
      (if isBad m = false ∧ m < k then 1 else 0) = goodsBelow isBad k := by
  induction k with
  | zero => simp [goodsBelow]
  | succ k ih =>
    rw [goodsBelow_succ, goodsBelow_succ]
    by_cases hkm : k = m
    · subst hkm
      cases hk : isBad k <;> simp [hk] at ih ⊢ <;> omega
    · have hlt : m < k + 1 ↔ m < k := by omega
      simp only [hkm, decide_false, Bool.or_false, hlt]
      omega

variable {d : BbtDev} {buf : Nat → BitVec 8}

/-- The logical block has a good block, and not the last one of its range, which is the next spare
block. -/
def BelowSpare (d : BbtDev) (buf : Nat → BitVec 8) (l : Nat) : Prop :=
  l < d.totalBlks ∧ (d.mappingBlockInRange l).isSome ∧ d.position l + 1 < d.goods buf l

variable {l : Nat} {F : Faults} {s : Bbt} {copyLen : Nat} {r : Nat × Nat} {m : Nat} {k : Nat}

lemma rangeOf_isSome : (d.rangeOf l).isSome = (d.mappingBlockInRange l).isSome := isSome_map

lemma belowSpare_iff (hd : d.Separate) (hne : d.remapRange ≠ []) (hl : l < d.totalBlks)
    {start stop : Nat} (h : d.rangeOf l = some (start, stop)) : BelowSpare d buf l ↔
      goodsBelow (bbtBlockIsBad buf) start +
      (l - start) + 1 < goodsBelow (bbtBlockIsBad buf) stop := by
  have hsome : (d.mappingBlockInRange l).isSome := by
    rw [← rangeOf_isSome, h]
    rfl
  have hgoods := goods_eq hd hl h hne buf
  rw [BelowSpare, position_eq hd hl h hne]
  simp only [hl, hsome, true_and]
  omega

section

variable {start stop : Nat} (hlt : l < d.totalBlks) (h : d.rangeOf l = some (start, stop))
  (hspare : goodsBelow (bbtBlockIsBad buf) start +
    (l - start) + 1 < goodsBelow (bbtBlockIsBad buf) stop)
include hlt h hspare

lemma mapping_of_spare : let x := getMappingBlockIndexBbt d buf l
    start ≤ x ∧ x < stop ∧ bbtBlockIsBad buf x = false ∧
      goodsBelow (bbtBlockIsBad buf) x = goodsBelow (bbtBlockIsBad buf) start + (l - start) := by
  rcases getMappingBlockIndexBbt_spec buf hlt h with hgood | ⟨h1, -⟩
  · exact hgood
  · exact absurd hspare (by omega)

omit hlt h hspare in
lemma isBad_mark (m : Nat) : bbtBlockIsBad (bbtSetBits buf m true) =
    fun i => bbtBlockIsBad buf i || decide (i = m) :=
  funext (bbtBlockIsBad_set buf m)

lemma getMapping_mark
    (hm : bbtBlockIsBad buf m ∨ m < start ∨ getMappingBlockIndexBbt d buf l < m) :
    let x := getMappingBlockIndexBbt d buf l
    getMappingBlockIndexBbt d (bbtSetBits buf m true) l = x ∧ start ≤ x ∧ x < stop ∧
      bbtBlockIsBad (bbtSetBits buf m true) x = false ∧
      goodsBelow (bbtBlockIsBad (bbtSetBits buf m true)) x =
        goodsBelow (bbtBlockIsBad (bbtSetBits buf m true)) start + (l - start) := by
  obtain ⟨hstart, hstop, hgood, hcount⟩ := mapping_of_spare hlt h hspare
  have hmk := goodsBelow_mark (bbtBlockIsBad buf) m
  have hspec := getMappingBlockIndexBbt_spec (bbtSetBits buf m true) hlt h
  simp only [isBad_mark] at hspec ⊢
  generalize getMappingBlockIndexBbt d buf l = x at *
  have hne : x ≠ m := by
    rintro rfl
    rcases hm with hm | hm | hm
    · rw [hgood] at hm; cases hm
    · omega
    · omega
  -- the block is still good, with as many good blocks of the range below it
  have hgood' : (bbtBlockIsBad buf x || decide (x = m)) = false := by simp [hgood, hne]
  have hcount' : goodsBelow (fun i => bbtBlockIsBad buf i || decide (i = m)) x =
      goodsBelow (fun i => bbtBlockIsBad buf i || decide (i = m)) start + (l - start) := by
    have hx := hmk x
    have hs := hmk start
    split_ifs at hx hs with h1 h2 h2
    · omega
    · rcases hm with hm | hm | hm
      · rw [h1.1] at hm; cases hm
      · exact absurd ⟨h1.1, hm⟩ h2
      · omega
    · exact absurd ⟨h2.1, by omega⟩ h1
    · omega
  refine ⟨?_, hstart, hstop, hgood', hcount'⟩
  rcases hspec with ⟨-, -, hg, hc⟩ | ⟨hc, -⟩
  · exact goodsBelow_inj hg hgood' (by rw [hc, hcount'])
  · have hlt : goodsBelow (fun i => bbtBlockIsBad buf i || decide (i = m)) x <
        goodsBelow (fun i => bbtBlockIsBad buf i || decide (i = m)) stop :=
      goodsBelow_lt hgood' hstop
    omega

end

/-- Without ranges nothing is mapped, as the bounds are shifted although they are in blocks. -/
theorem getMapping_plain (hd : d.Separate) (hnil : d.remapRange = []) (buf : Nat → BitVec 8)
    (l : Nat) : getMappingBlockIndexBbt d buf l = l := by
  have hzero : d.totalBlks / d.blkSize = 0 := Nat.div_eq_of_lt (hd.plain hnil)
  rw [getMappingBlockIndexBbt, rangeOf_nil hnil, hzero]
  rfl

lemma remapBlockBbt_block_of_ne (hr : d.mappingBlockInRange b = some r)
    (hnew : k ≠ getMappingBlockIndexBbt d (bbtSetBits s.bbtBuf m true) b) :
    (remapBlockBbt F d s b m copyLen).2.chip.block k =
    (bbtSetBlockState F d s m true).chip.block k := by
  have hbuf : (bbtSetBlockState F d s m true).bbtBuf = bbtSetBits s.bbtBuf m true := rfl
  simp only [remapBlockBbt, hr, hbuf]
  split_ifs
  · rw [bbtNandCopy_block_of_ne hnew, erase_block_of_ne hnew]
  · rw [erase_block_of_ne hnew]

lemma remapBlockBbt_block (hidx : k ≠ s.bmtBlkIdx)
    (hnew : k ≠ getMappingBlockIndexBbt d (bbtSetBits s.bbtBuf m true) b) :
    (remapBlockBbt F d s b m copyLen).2.chip.block k = s.chip.block k := by
  cases hr : d.mappingBlockInRange b with
  | none => rw [remapBlockBbt, hr]
  | some r =>
    rw [remapBlockBbt_block_of_ne hr hnew]
    show (writeBmt F s.bmtBlkIdx 0 bbtSig _ _ _).2.block k = _
    rw [writeBmt, write_block_of_ne hidx, erase_block_of_ne hidx]

lemma remapBlockBbt_bbtBuf (h : (remapBlockBbt F d s b m copyLen).1) :
    (remapBlockBbt F d s b m copyLen).2.bbtBuf = bbtSetBits s.bbtBuf m true := by
  unfold remapBlockBbt at h ⊢
  cases hr : d.mappingBlockInRange b with
  | none => simp [hr] at h
  | some r => rfl

def bbtTableBlock (d : BbtDev) (buf : Nat → BitVec 8) : Block :=
  (Block.erased.program 0 d.bufSize (fun i => (buf i).toNat)).programOob 0 1 bbtSig

lemma remapBlockBbt_block_none (hr : d.mappingBlockInRange b = some r)
    (hnew : k ≠ getMappingBlockIndexBbt d (bbtSetBits s.bbtBuf m true) b) :
    (remapBlockBbt .none d s b m copyLen).2.chip.block k =
      if k = s.bmtBlkIdx then bbtTableBlock d (bbtSetBits s.bbtBuf m true) else s.chip.block k := by
  split_ifs with hidx
  · subst hidx
    rw [remapBlockBbt_block_of_ne hr hnew]
    show (writeBmt .none s.bmtBlkIdx 0 bbtSig _ _ _).2.block s.bmtBlkIdx = _
    rw [writeBmt, write_block_self rfl, erase_block_self rfl]
    rfl
  · exact remapBlockBbt_block hidx hnew

def readLogical (d : BbtDev) (s : Bbt) (l : Nat) : Option (List Nat) :=
  (mtkBmtRead d.toBmtd (bbtOps d) .none 0 2 s (l * d.blkSize) d.blkSize).map Prod.fst

lemma readLogical_eq (s : Bbt) (l : Nat) : readLogical d s l =
    some (bytesOf (s.chip.block (getMappingBlockIndexBbt d s.bbtBuf l)) 0 d.blkSize) :=
  @mtkBmtRead_block Bbt d.toBmtd (bbtOps d) s l (getMappingBlockIndexBbt d s.bbtBuf l) rfl 0 0

def remapLogical (F : Faults) (d : BbtDev) (s : Bbt) (b copyLen : Nat) : Bool × Bbt :=
  remapBlockBbt F d s b (getMappingBlockIndexBbt d s.bbtBuf b) copyLen

/-- A successful remap of `b` leaves alone all other logical blocks with a good block other than the
last one.
-/
def RemapPreserves (d : BbtDev) (buf : Nat → BitVec 8) (idx b copyLen : Nat) : Prop :=
  ∀ (F : Faults) (c : Chip), (remapLogical F d ⟨buf, idx, c⟩ b copyLen).1 →
    ∀ l, l ≠ b → BelowSpare d buf l →
      readLogical d (remapLogical F d ⟨buf, idx, c⟩ b copyLen).2 l = readLogical d ⟨buf, idx, c⟩ l

lemma bytesOf_zero {blk blk' : Block} {n : Nat} (hn : 0 < n)
    (h : bytesOf blk 0 n = bytesOf blk' 0 n) : blk.data 0 = blk'.data 0 := by
  have hget := congrArg (fun l => l[0]?) h
  simpa [bytesOf, hn] using hget

def chipWith (x t : Nat) : Chip :=
  ⟨fun k => ⟨fun _ => if k = x ∧ t = 0 then 1 else 0, fun _ _ => 0xff⟩, fun _ => false, 0, []⟩

/-- The bitmap after a remap of `b` -/
abbrev remapBuf (d : BbtDev) (buf : Nat → BitVec 8) (b : Nat) : Nat → BitVec 8 :=
  bbtSetBits buf (getMappingBlockIndexBbt d buf b) true

/-! ## The range of the block that is remapped -/

section Preserves

variable {b start stop : Nat} (hd : d.Separate) (hne : d.remapRange ≠ []) (hb : b < d.totalBlks)
  (hr : d.rangeOf b = some (start, stop))
include hd hne hb hr

lemma getMapping_remap_ne {buf' : Nat → BitVec 8} {l x : Nat} (hlb : l ≠ b)
    (hl : l < d.totalBlks) {start' stop' : Nat} (hr' : d.rangeOf l = some (start', stop'))
    (hx : start' ≤ x ∧ x < stop' ∧ bbtBlockIsBad buf' x = false ∧
      goodsBelow (bbtBlockIsBad buf') x = goodsBelow (bbtBlockIsBad buf') start' + (l - start')) :
    x ≠ getMappingBlockIndexBbt d buf' b := by
  obtain ⟨h1, h2, h3, h4⟩ := hx
  have hspec := getMappingBlockIndexBbt_spec buf' hb hr
  have hb' := hd.lt_stop hb hr hne
  intro heq
  rw [← heq] at hspec
  rcases hd.range_cases hb hl hr hr' with ⟨rfl, rfl⟩ | ⟨-, hdisj⟩
  · have hbounds := (rangeOf_bounds hb hr).1
    have hbounds' := (rangeOf_bounds hl hr').1
    rcases hspec with ⟨-, -, -, hc⟩ | ⟨-, ⟨-, -, hbad⟩ | ⟨hxb, hge⟩⟩
    · omega
    · rw [h3] at hbad; cases hbad
    · omega
  · omega

lemma getMapping_remap (hlast : d.goods buf b ≤ d.position b + 2) {l : Nat} (hlb : l ≠ b)
    (hl : BelowSpare d buf l) : let buf' := remapBuf d buf b
    let x := getMappingBlockIndexBbt d buf l
    getMappingBlockIndexBbt d buf' l = x ∧ x ≠ getMappingBlockIndexBbt d buf' b := by
  obtain ⟨⟨start', stop'⟩, hr'⟩ := isSome_iff_exists.mp (rangeOf_isSome.trans hl.2.1)
  have hspare := (belowSpare_iff hd hne hl.1 hr').1 hl
  have hgoods := goods_eq hd hb hr hne buf
  rw [position_eq hd hb hr hne] at hlast
  have hkeep : ∀ hm, _ := fun hm =>
    getMapping_mark (m := getMappingBlockIndexBbt d buf b) hl.1 hr' hspare hm
  suffices hm : _ from ⟨(hkeep hm).1, getMapping_remap_ne hd hne hb hr hlb hl.1 hr' (hkeep hm).2⟩
  obtain ⟨hstart, hstop, hgood, hcount⟩ := mapping_of_spare hl.1 hr' hspare
  have hspec := getMappingBlockIndexBbt_spec buf hb hr
  have hb' := hd.lt_stop hb hr hne
  rcases hd.range_cases hb hl.1 hr hr' with ⟨rfl, rfl⟩ | ⟨-, hdisj⟩
  · rcases hspec with ⟨-, -, -, hc⟩ | ⟨-, ⟨-, -, hbad⟩ | ⟨heq, hge⟩⟩
    · right; right
      by_contra hnot
      have hmono := goodsBelow_mono (bbtBlockIsBad buf) (Nat.le_of_not_lt hnot)
      have hbounds := (rangeOf_bounds hb hr).1
      have hbounds' := (rangeOf_bounds hl.1 hr').1
      omega
    · exact .inl hbad
    · right; right
      omega
  · -- `b`'s block lies in the other range
    right
    rcases hspec with ⟨h1, h2, -, -⟩ | ⟨-, ⟨h1, h2, -⟩ | ⟨heq, hge⟩⟩
    · omega
    · omega
    · omega

lemma getMapping_remap_succ (hmid : d.position b + 2 < d.goods buf b) :
    let buf' := remapBuf d buf b
    let y := getMappingBlockIndexBbt d buf' (b + 1)
    BelowSpare d buf (b + 1) ∧ y ≠ getMappingBlockIndexBbt d buf (b + 1) ∧
      y ≠ getMappingBlockIndexBbt d buf' b := by
  intro buf' y
  have hgoods := goods_eq hd hb hr hne buf
  rw [position_eq hd hb hr hne] at hmid
  have hbounds := rangeOf_bounds hb hr
  have hspan : goodsBelow (bbtBlockIsBad buf) stop ≤
      goodsBelow (bbtBlockIsBad buf) start + (stop - start) := by
    have := goodsBelow_add_le (bbtBlockIsBad buf) start (stop - start)
    rwa [show start + (stop - start) = stop by omega] at this
  have hstop := hd.stop_le hb hr
  have hb1 : b + 1 < d.totalBlks := by omega
  have hr1 : d.rangeOf (b + 1) = some (start, stop) := rangeOf_succ hd hb hr (by omega)
  have hspare : goodsBelow (bbtBlockIsBad buf) start + (b + 1 - start) + 1 <
      goodsBelow (bbtBlockIsBad buf) stop := by omega
  obtain ⟨hx1, hx2, hx3, hx4⟩ := mapping_of_spare hb1 hr1 hspare
  -- `b` has a good block, in front of the one of `b + 1`
  obtain ⟨hm1, hm2, hm3, hm4⟩ : _ := (getMappingBlockIndexBbt_spec buf hb hr).resolve_right
    (fun h => by omega)
  have hmx : getMappingBlockIndexBbt d buf b < getMappingBlockIndexBbt d buf (b + 1) := by
    by_contra hnot
    have := goodsBelow_mono (bbtBlockIsBad buf) (Nat.le_of_not_lt hnot)
    omega
  have hmk : ∀ k, goodsBelow (bbtBlockIsBad buf') k +
      (if bbtBlockIsBad buf (getMappingBlockIndexBbt d buf b) = false ∧
        getMappingBlockIndexBbt d buf b < k then 1 else 0) = goodsBelow (bbtBlockIsBad buf) k := by
    intro k
    rw [isBad_mark]
    exact goodsBelow_mark _ _ _
  have hstart' := hmk start
  have hstop' := hmk stop
  have hx' := hmk (getMappingBlockIndexBbt d buf (b + 1))
  rw [if_neg (by omega)] at hstart'
  rw [if_pos ⟨hm3, hm2⟩] at hstop'
  rw [if_pos ⟨hm3, hmx⟩] at hx'
  have hy : _ := (getMappingBlockIndexBbt_spec buf' hb1 hr1).resolve_right
    (fun h => by have := h.1; omega)
  refine ⟨(belowSpare_iff hd hne hb1 hr1).2 hspare, ?_,
    getMapping_remap_ne hd hne hb hr (by omega) hb1 hr1 hy⟩
  intro heq
  have hcount := hy.2.2.2
  rw [show getMappingBlockIndexBbt d buf' (b + 1) = getMappingBlockIndexBbt d buf (b + 1) from heq]
    at hcount
  omega

end Preserves

/-! ## What is read afterwards -/

section

variable {b : Nat} {idx copyLen : Nat} (hrange : (d.mappingBlockInRange b).isSome)
include hrange

/-- A remap on which nothing fails, read back at `l`. -/
theorem RemapPreserves.read (hpres : RemapPreserves d buf idx b copyLen) (c : Chip) {l : Nat}
    (hlb : l ≠ b)
    (hl : BelowSpare d buf l) {y : Nat} (hy : getMappingBlockIndexBbt d (remapBuf d buf b) l = y)
    (hnew : y ≠ getMappingBlockIndexBbt d (remapBuf d buf b) b) :
    (if y = idx then bbtTableBlock d (remapBuf d buf b) else c.block y).data 0 =
      (c.block (getMappingBlockIndexBbt d buf l)).data 0 := by
  obtain ⟨r, hrange⟩ := isSome_iff_exists.mp hrange
  have hok : (remapLogical .none d ⟨buf, idx, c⟩ b copyLen).1 := by
    simp [remapLogical, remapBlockBbt, hrange]
  have h := hpres .none c hok l hlb hl
  have hbuf : (remapLogical .none d ⟨buf, idx, c⟩ b copyLen).2.bbtBuf = remapBuf d buf b :=
    remapBlockBbt_bbtBuf hok
  have hblock : (remapLogical .none d ⟨buf, idx, c⟩ b copyLen).2.chip.block y = _ :=
    remapBlockBbt_block_none (s := ⟨buf, idx, c⟩) hrange hnew
  rw [readLogical_eq, readLogical_eq, some.injEq] at h
  have h0 := bytesOf_zero d.blkSize_pos h
  rwa [hbuf, hy, hblock] at h0

/-- If the other logical blocks stay where they are and are not erased, only the table can be
written over one of them. -/
theorem remapPreserves_of_keep (hkeep : ∀ l, l ≠ b → BelowSpare d buf l →
      getMappingBlockIndexBbt d (remapBuf d buf b) l = getMappingBlockIndexBbt d buf l ∧
        getMappingBlockIndexBbt d buf l ≠ getMappingBlockIndexBbt d (remapBuf d buf b) b) :
    RemapPreserves d buf idx b copyLen ↔
      ∀ l, l ≠ b → BelowSpare d buf l → getMappingBlockIndexBbt d buf l ≠ idx := by
  constructor
  · intro hpres l hlb hl hidx
    obtain ⟨hsame, hnew⟩ := hkeep l hlb hl
    have h := hpres.read hrange (chipWith idx ((bbtTableBlock d (remapBuf d buf b)).data 0)) hlb hl
      hsame hnew
    simp only [hidx, ↓reduceIte, chipWith, true_and] at h
    split_ifs at h <;> omega
  · intro htable F c hok l hlb hl
    obtain ⟨hsame, hnew⟩ := hkeep l hlb hl
    have hbuf : (remapLogical F d ⟨buf, idx, c⟩ b copyLen).2.bbtBuf = remapBuf d buf b :=
      remapBlockBbt_bbtBuf hok
    have hblock : (remapLogical F d ⟨buf, idx, c⟩ b copyLen).2.chip.block
        (getMappingBlockIndexBbt d buf l) = c.block (getMappingBlockIndexBbt d buf l) :=
      remapBlockBbt_block (s := ⟨buf, idx, c⟩) (htable l hlb hl) hnew
    rw [readLogical_eq, readLogical_eq, hbuf, hsame, hblock]

/-- If `b + 1` is mapped to another block afterwards, what it reads does not depend on what it
held. -/
theorem not_remapPreserves (hl : BelowSpare d buf (b + 1))
    (hyx : getMappingBlockIndexBbt d (remapBuf d buf b) (b + 1) ≠ getMappingBlockIndexBbt d buf
    (b + 1)) (hynew : getMappingBlockIndexBbt d (remapBuf d buf b) (b + 1) ≠
      getMappingBlockIndexBbt d (remapBuf d buf b) b) : ¬ RemapPreserves d buf idx b copyLen := by
  intro hpres
  generalize hy : getMappingBlockIndexBbt d (remapBuf d buf b) (b + 1) = y at hyx hynew
  let t := if y = idx then (bbtTableBlock d (remapBuf d buf b)).data 0 else 0
  have h := hpres.read hrange (chipWith (getMappingBlockIndexBbt d buf (b + 1)) t)
    (by omega) hl hy hynew
  by_cases hidx : y = idx
  · simp only [hidx, ↓reduceIte, chipWith, true_and, t] at h
    split_ifs at h <;> omega
  · simp only [hidx, ↓reduceIte, chipWith, hyx, false_and, and_self, t] at h
    omega

end

/-- **A remap preserves the other logical blocks**, whatever fails, iff there are no ranges or `b`
is one of the last two of its range that have a good block, and no other one is mapped to the block
with the table. -/
theorem remapPreserves_iff {b : Nat} (hd : d.Separate) (hb : b < d.totalBlks)
    (hrange : (d.mappingBlockInRange b).isSome) (idx copyLen : Nat) :
    RemapPreserves d buf idx b copyLen ↔
      (d.remapRange = [] ∨ d.goods buf b ≤ d.position b + 2) ∧
      ∀ l, l ≠ b → BelowSpare d buf l → getMappingBlockIndexBbt d buf l ≠ idx := by
  by_cases hne : d.remapRange = []
  · have hkeep := getMapping_plain hd hne
    rw [remapPreserves_of_keep hrange fun l hlb _ => by rw [hkeep, hkeep, hkeep]; exact ⟨rfl, hlb⟩]
    simp only [hne, true_or, true_and]
  obtain ⟨⟨start, stop⟩, hr⟩ := isSome_iff_exists.mp (rangeOf_isSome.trans hrange)
  simp only [hne, false_or]
  by_cases hlast : d.goods buf b ≤ d.position b + 2
  · rw [remapPreserves_of_keep hrange fun l hlb hl => getMapping_remap hd hne hb hr hlast hlb hl]
    simp only [hlast, true_and]
  · obtain ⟨hl, hyx, hynew⟩ := getMapping_remap_succ hd hne hb hr (Nat.lt_of_not_le hlast)
    exact iff_of_false (not_remapPreserves hrange hl hyx hynew) fun h => hlast h.1

def smallDev : BbtDev where
  blkShift := 1
  pgShift := 0
  totalBlks := 8
  remapRange := [(0, 12)]
  pgShift_le := by decide
  totalBlks_lt := by decide
  size_lt := by decide
  table_fits := by decide

lemma smallDev_separate : smallDev.Separate := ⟨by decide, by decide, by decide, by decide⟩

/-- The last but one of the blocks that can be remapped, with the table in the last block. -/
theorem remapPreserves_smallDev : RemapPreserves smallDev (fun _ => 0#8) 7 4 2 := by
  refine (remapPreserves_iff smallDev_separate (by decide) (by decide) 7 2).mpr ⟨by decide, ?_⟩
  rintro l - ⟨hlt, hsome, -⟩
  have hcases : ∀ l < 8, (smallDev.mappingBlockInRange l).isSome →
      getMappingBlockIndexBbt smallDev (fun _ => 0#8) l ≠ 7 := by decide
  exact hcases l hlt hsome

/-- Remapping block 0 on a chip without bad blocks: logical block 1 reads what was in block 2. -/
theorem remapBlockBbt_shifts :
    let s : Bbt := ⟨fun _ => 0#8, 7,
    ⟨fun k => ⟨fun _ => k, fun _ _ => 0xff⟩, fun _ => false, 0, []⟩⟩
    let r := remapLogical .none smallDev s 0 2
    r.1 ∧ BelowSpare smallDev s.bbtBuf 1 ∧ readLogical smallDev s 1 = some [1, 1] ∧
      readLogical smallDev r.2 1 = some [2, 2] ∧ readLogical smallDev r.2 0 = some [0, 0] := by
  refine ⟨by decide, ⟨by decide, by decide, by decide⟩, by decide, by decide, by decide⟩

end SourceMaster.Nand
