import SourceMaster.Nand.Chip
import SourceMaster.Lib.Partition
import Mathlib.Algebra.Order.Ring.Int
import Mathlib.Data.List.Basic

/-!
# The core shared by the bad-block managers

A manager keeps a mapping from logical to physical blocks. The core translates the accesses of the
MTD layer through it (`mtkBmtRead`), asks the manager to remap a block that cannot be accessed, and
gives the managers their helpers: copying a block, the range of blocks that may be remapped, and
writing a table with its signature.
-/

namespace SourceMaster.Nand

open Partition

/-- The geometry of the chip and the ranges of `mediatek,bmt-remap-range`, in bytes. -/
structure Bmtd where
  blkShift : Nat
  pgShift : Nat
  totalBlks : Nat
  remapRange : List (Nat × Nat)
  pgShift_le : pgShift ≤ blkShift
  totalBlks_lt : totalBlks < 2 ^ 16

def signed32 (w : Nat) : Int := if w < 2 ^ 31 then w else w - 2 ^ 32

lemma signed32_of_lt {w : Nat} (h : w < 2 ^ 31) : signed32 w = w := if_pos h

namespace Bmtd

variable (d : Bmtd)

def blkSize : Nat := 2 ^ d.blkShift

def pgSize : Nat := 2 ^ d.pgShift

lemma blkSize_pos : 0 < d.blkSize := Nat.two_pow_pos _

lemma pgSize_pos : 0 < d.pgSize := Nat.two_pow_pos _

/-- `mapping_block_in_range`: the bounds of the range of the block. Without ranges they are those of
the chip, in blocks and not in bytes. -/
def mappingBlockInRange (block : Nat) : Option (Nat × Nat) :=
  if d.remapRange = [] then some (0, d.totalBlks)
  else
    let addr := block * d.blkSize % 2 ^ 32
    d.remapRange.find? (fun r => !(addr < r.1 || addr ≥ r.2))

end Bmtd

/-! ## Copying a block -/

/-- The loop of `bbt_nand_copy`, with `n` pages to go. Spare bytes are not written: their length is
set after the write. -/
def bbtNandCopyLoop (F : Faults) (d : Bmtd) (dest src maxOffset : Nat) :
    Nat → Nat → Chip → Bool × Chip
  | 0, _, c => (true, c)
  | n + 1, offset, c =>
    if offset ≥ maxOffset then (true, c)
    else
      let r := c.read F
      if r.1 = .badmsg ∨ r.1 = .error then (false, r.2)
      else
        let dat := fun i => (c.block src).data (offset + i)
        let w := r.2.write F dest (fun blk => blk.program offset d.pgSize dat)
        if w.1 then bbtNandCopyLoop F d dest src maxOffset n (offset + d.pgSize) w.2
        else (false, w.2)

def bbtNandCopy (F : Faults) (d : Bmtd) (dest src maxOffset : Nat) (c : Chip) : Bool × Chip :=
  bbtNandCopyLoop F d dest src maxOffset (d.blkSize / d.pgSize) 0 c

variable (isBad : Nat → Bool) {F : Faults} {d : Bmtd} {a dest src b maxOffset : Nat}

lemma bbtNandCopyLoop_block_of_ne (h : b ≠ dest) (n offset : Nat) (c : Chip) :
    (bbtNandCopyLoop F d dest src maxOffset n offset c).2.block b = c.block b := by
  induction n generalizing offset c with
  | zero => rfl
  | succ n ih =>
    have hwrite : ∀ prog : Block → Block,
        ((c.read F).2.write F dest prog).2.block b = c.block b := fun prog =>
      Chip.write_block_of_ne h
    simp only [bbtNandCopyLoop]
    split_ifs
    · rfl
    · rfl
    · rw [ih]
      exact hwrite _
    · exact hwrite _

lemma bbtNandCopy_block_of_ne (h : b ≠ dest) (c : Chip) :
    (bbtNandCopy F d dest src maxOffset c).2.block b = c.block b :=
  bbtNandCopyLoop_block_of_ne h _ _ _

/-! ## Counting good blocks -/

def goodsBelow (isBad : Nat → Bool) (k : Nat) : Nat := Nat.count (fun i => isBad i = false) k

lemma goodsBelow_succ (k : Nat) :
    goodsBelow isBad (k + 1) = goodsBelow isBad k + if isBad k then 0 else 1 := by
  unfold goodsBelow
  rw [Nat.count_succ]
  cases isBad k <;> rfl

lemma goodsBelow_mono (h : a ≤ b) : goodsBelow isBad a ≤ goodsBelow isBad b := plain_mono h

lemma goodsBelow_inj {isBad : Nat → Bool} (ha : isBad a = false) (hb : isBad b = false)
    (h : goodsBelow isBad a = goodsBelow isBad b) : a = b :=
  plain_inj ha hb h

lemma goodsBelow_lt {isBad : Nat → Bool} (ha : isBad a = false) (h : a < b) :
    goodsBelow isBad a < goodsBelow isBad b :=
  plain_lt ha h

lemma goodsBelow_add_le (a n : Nat) : goodsBelow isBad (a + n) ≤ goodsBelow isBad a + n :=
  plain_add_le a n

/-! ## Writing a table -/

/-- `write_bmt`: the table goes to the start of the block, its signature into the spare bytes behind
the bad block mark. -/
def writeBmt (F : Faults) (block oobOffset : Nat) (sig : List Nat) (len : Nat) (dat : Nat → Nat)
    (c : Chip) : Bool × Chip :=
  c.write F block (fun blk => (blk.program 0 len dat).programOob 0 (1 + oobOffset) sig)

/-! ## Reading through the mapping -/

structure BmtOps (σ : Type) where
  chip : σ → Chip
  setChip : σ → Chip → σ
  /-- `get_mapping_block`; `none` stands for a negative result. -/
  getMappingBlock : σ → Nat → Option Nat
  remapBlock : Faults → σ → Nat → Nat → Nat → Bool × σ

variable {σ : Type}

def mtkBmtRemapBlock (d : Bmtd) (ops : BmtOps σ) (F : Faults) (s : σ)
    (block mappedBlock copyLen : Nat) : Bool × σ :=
  match d.mappingBlockInRange block with
  | none => (false, s)
  | some _ => ops.remapBlock F s block mappedBlock copyLen

def bytesOf (blk : Block) (offset len : Nat) : List Nat :=
  (List.range len).map (fun i => blk.data (offset + i))

/-- The loop of `mtk_bmt_read` for data without spare bytes, shorter than 4 GiB: the bytes so far
and whether it ended; `none` without fuel. -/
def mtkBmtReadLoop (d : Bmtd) (ops : BmtOps σ) (F : Faults) (threshold : Nat) :
    Nat → σ → Nat → Nat → Nat → List Nat → Option (List Nat × Bool × σ)
  | 0, _, _, _, _, _ => none
  | fuel + 1, s, src, len, retryCount, dat =>
    if len = 0 then some (dat, true, s)
    else
      let offset := src % d.blkSize
      let block := src / d.blkSize
      match ops.getMappingBlock s block with
      | none => some (dat, false, s)
      | some curBlock =>
        let curLen := min (d.blkSize - offset) len
        let curDat := bytesOf ((ops.chip s).block curBlock) offset curLen
        let r := (ops.chip s).read F
        let s := ops.setChip s r.2
        match r.1 with
        | .ok bitflips =>
          let s := if threshold ≠ 0 ∧ bitflips ≥ threshold then
            (mtkBmtRemapBlock d ops F s block curBlock d.blkSize).2 else s
          mtkBmtReadLoop d ops F threshold fuel s (src + curLen) (len - curLen) 0 (dat ++ curDat)
        | .euclean =>
          -- the negative result is compared as an unsigned number
          let s := if threshold ≠ 0 ∧ 2 ^ 32 - 117 ≥ threshold then
            (mtkBmtRemapBlock d ops F s block curBlock d.blkSize).2 else s
          mtkBmtReadLoop d ops F threshold fuel s (src + curLen) (len - curLen) 0 (dat ++ curDat)
        | _ =>
          let m := mtkBmtRemapBlock d ops F s block curBlock d.blkSize
          if m.1 ∧ retryCount < 10 then
            mtkBmtReadLoop d ops F threshold fuel m.2 src len (retryCount + 1) dat
          else some (dat, false, m.2)

def mtkBmtRead (d : Bmtd) (ops : BmtOps σ) (F : Faults) (threshold fuel : Nat) (s : σ)
    (src len : Nat) : Option (List Nat × Bool × σ) :=
  mtkBmtReadLoop d ops F threshold fuel s src len 0 []

lemma mtkBmtRead_block {d : Bmtd} {ops : BmtOps σ} {s : σ} {block pb : Nat}
    (hmap : ops.getMappingBlock s block = some pb) (threshold fuel : Nat) :
    (mtkBmtRead d ops .none threshold (fuel + 2) s (block * d.blkSize) d.blkSize).map Prod.fst =
      some (bytesOf ((ops.chip s).block pb) 0 d.blkSize) := by
  have hpos := d.blkSize_pos
  have hdiv : block * d.blkSize / d.blkSize = block := Nat.mul_div_cancel _ hpos
  have hmod : block * d.blkSize % d.blkSize = 0 := Nat.mul_mod_left _ _
  rw [mtkBmtRead, mtkBmtReadLoop, if_neg (Nat.ne_of_gt hpos)]
  simp only [hdiv, hmod, hmap, Nat.sub_zero, min_self]
  -- the one round that reads; the next one finds nothing left to do
  have hread : ((ops.chip s).read Faults.none).1 = .ok 0 := rfl
  rw [hread]
  simp only [Nat.sub_self, mtkBmtReadLoop, ↓reduceIte, Option.map_some, List.nil_append]

end SourceMaster.Nand
