import SourceMaster.Nand.Bbt
import Mathlib.Data.Set.Function

/-!
# Reading and writing through the mapping

`mtk_bmt_read` and `mtk_bmt_write` cut a request at the block boundaries, translate every piece and
go on behind it, for the data and the spare bytes at the same time. When nothing fails the mapping
stays as it is, and a request is one access to the memory that the mapping shows. The length of a
piece is computed in 32 bits, though: a request that is longer never comes to its end.
-/

namespace SourceMaster.Nand

open Nat List

/-! ## The functions -/

/-- A request, `struct mtd_oob_ops`. The buffers are those of a write. -/
structure MtdOobOps where
  len : Nat
  ooblen : Nat
  ooboffs : Nat
  datbuf : Nat → Nat
  oobbuf : Nat → Nat

structure OobDriver where
  write : (offset ooboffs : Nat) → List Nat → (Nat → Nat → Nat) → Nat → Nat → Nat
  read : (offset ooboffs ooblen : Nat) → (Nat → Nat → Nat) → List Nat

/-- What is in a block after `_write_oob`. -/
def OobDriver.program (drv : OobDriver) (offset ooboffs len : Nat) (dat : Nat → Nat)
    (oob : List Nat) (blk : Block) : Block :=
  { blk.program offset len dat with oob := drv.write offset ooboffs oob blk.oob }

structure Wrote (σ : Type) where
  ok : Bool
  retlen : Nat
  oobretlen : Nat
  state : σ

structure Fetched (σ : Type) where
  ret : ReadResult
  retlen : Nat
  oobretlen : Nat
  dat : List Nat
  oob : List Nat
  state : σ

section Functions

variable {σ : Type} (d : Bmtd) (ops : BmtOps σ) (drv : OobDriver) (F : Faults) (req : MtdOobOps)

/-- `min_t(u32, blk_size - offset, ops->len - ops->retlen)`. -/
def Bmtd.curLen (offset rest : Nat) : Nat := min (d.blkSize - offset) (rest % 2 ^ 32)

/-- How far the next piece is away: an empty piece stands for the rest of the block. -/
def Bmtd.advance (offset curLen : Nat) : Nat := if curLen = 0 then d.blkSize - offset else curLen

/-- The loop of `mtk_bmt_write`; `none` if `fuel` rounds are not enough. -/
def mtkBmtWriteLoop : (fuel : Nat) → σ → (dest retlen oobretlen ooboffs retryCount : Nat) →
    Option (Wrote σ)
  | 0, _, _, _, _, _, _ => none
  | fuel + 1, s, dest, retlen, oobretlen, ooboffs, retryCount =>
    if ¬ (retlen < req.len ∨ oobretlen < req.ooblen) then some ⟨true, retlen, oobretlen, s⟩
    else
      let offset := dest % d.blkSize
      let block := dest / d.blkSize % 2 ^ 32
      match ops.getMappingBlock s block with
      | none => some ⟨false, retlen, oobretlen, s⟩
      | some curBlock =>
        let curLen := d.curLen offset (req.len - retlen)
        let curOoblen := req.ooblen - oobretlen
        let oob := (range curOoblen).map fun i => req.oobbuf (oobretlen + i)
        let w := (ops.chip s).write F curBlock
          (drv.program offset ooboffs curLen (fun i => req.datbuf (retlen + i)) oob)
        let s := ops.setChip s w.2
        if w.1 then
          mtkBmtWriteLoop fuel s (dest + d.advance offset curLen) (retlen + curLen)
            (oobretlen + curOoblen) 0 0
        else
          let m := mtkBmtRemapBlock d ops F s block curBlock offset
          if m.1 ∧ retryCount < 10 then
            mtkBmtWriteLoop fuel m.2 dest retlen oobretlen ooboffs (retryCount + 1)
          else some ⟨false, retlen, oobretlen, m.2⟩

def mtkBmtWrite (fuel : Nat) (s : σ) (dest : Nat) : Option (Wrote σ) :=
  mtkBmtWriteLoop d ops drv F req fuel s dest 0 0 req.ooboffs 0

/-- The state of the loop of `mtk_bmt_read`. An error stays in `ret`. -/
structure Reading where
  ret : Option ReadResult
  maxBitflips : Nat
  dat : List Nat
  oob : List Nat

def Reading.result (a : Reading) : ReadResult := a.ret.getD (.ok a.maxBitflips)

/-- The loop of `mtk_bmt_read`; `none` if `fuel` rounds are not enough. -/
def mtkBmtReadOobLoop (threshold : Nat) :
    (fuel : Nat) → σ → (src retlen oobretlen ooboffs retryCount : Nat) → Reading →
    Option (Fetched σ)
  | 0, _, _, _, _, _, _, _ => none
  | fuel + 1, s, src, retlen, oobretlen, ooboffs, retryCount, a =>
    if ¬ (retlen < req.len ∨ oobretlen < req.ooblen) then
      some ⟨a.result, retlen, oobretlen, a.dat, a.oob, s⟩
    else
      let offset := src % d.blkSize
      let block := src / d.blkSize % 2 ^ 32
      match ops.getMappingBlock s block with
      | none => some ⟨.error, retlen, oobretlen, a.dat, a.oob, s⟩
      | some curBlock =>
        let curLen := d.curLen offset (req.len - retlen)
        let curOoblen := req.ooblen - oobretlen
        let blk := (ops.chip s).block curBlock
        let r := (ops.chip s).read F
        let s := ops.setChip s r.2
        let dat := a.dat ++ bytesOf blk offset curLen
        let oob := a.oob ++ drv.read offset ooboffs curOoblen blk.oob
        let src' := src + d.advance offset curLen
        match r.1 with
        | .ok bitflips =>
          let s := if threshold ≠ 0 ∧ bitflips ≥ threshold then
            (mtkBmtRemapBlock d ops F s block curBlock d.blkSize).2 else s
          mtkBmtReadOobLoop threshold fuel s src' (retlen + curLen) (oobretlen + curOoblen) 0 0
            ⟨a.ret, max a.maxBitflips bitflips, dat, oob⟩
        | .euclean =>
          -- the negative result is compared as an unsigned number
          let s := if threshold ≠ 0 ∧ 2 ^ 32 - 117 ≥ threshold then
            (mtkBmtRemapBlock d ops F s block curBlock d.blkSize).2 else s
          mtkBmtReadOobLoop threshold fuel s src' (retlen + curLen) (oobretlen + curOoblen) 0 0
            ⟨some .euclean, a.maxBitflips, dat, oob⟩
        | err =>
          let a := { a with ret := some err }
          let m := mtkBmtRemapBlock d ops F s block curBlock d.blkSize
          if m.1 ∧ retryCount < 10 then
            mtkBmtReadOobLoop threshold fuel m.2 src retlen oobretlen ooboffs (retryCount + 1) a
          else some ⟨a.result, retlen, oobretlen, a.dat, a.oob, m.2⟩

def mtkBmtReadOob (threshold fuel : Nat) (s : σ) (src : Nat) : Option (Fetched σ) :=
  mtkBmtReadOobLoop d ops drv F req threshold fuel s src 0 0 req.ooboffs 0 ⟨none, 0, [], []⟩

end Functions

/-! ## What is assumed -/

structure BmtOps.Lawful {σ : Type} (ops : BmtOps σ) : Prop where
  chip_setChip : ∀ s c, ops.chip (ops.setChip s c) = c
  mapping_setChip : ∀ s c b, ops.getMappingBlock (ops.setChip s c) b = ops.getMappingBlock s b

lemma bbtOps_lawful (d : BbtDev) : (bbtOps d).Lawful := ⟨fun _ _ => rfl, fun _ _ _ => rfl⟩

/-- The chip's operations succeed, and no read asks for a remap. -/
structure Faults.Succeeds (F : Faults) (threshold : Nat) : Prop where
  write : ∀ t, F.write t = Option.none
  read : ∀ t, ∃ bitflips, F.read t = .ok bitflips ∧ ¬ (threshold ≠ 0 ∧ bitflips ≥ threshold)

structure MapsBy {σ : Type} (d : Bmtd) (ops : BmtOps σ) (s : σ) (m : Nat → Nat) : Prop where
  mapping : ∀ b < d.totalBlks, ops.getMappingBlock s b = some (m b)
  injective : Set.InjOn m {b | b < d.totalBlks}

/-! ## The memory behind the mapping -/

section Memory

variable {d : Bmtd} {m : Nat → Nat} {c c' : Chip} {dat : Nat → Nat} {addr n l : Nat}

def logicalByte (d : Bmtd) (m : Nat → Nat) (c : Chip) (addr : Nat) : Nat :=
  (c.block (m (addr / d.blkSize))).data (addr % d.blkSize)

/-- The physical byte belongs to one of the `n` logical addresses from `addr` on. -/
def Addressed (d : Bmtd) (m : Nat → Nat) (addr n pb i : Nat) : Prop :=
  ∃ k < n, m ((addr + k) / d.blkSize) = pb ∧ (addr + k) % d.blkSize = i

/-- The `n` bytes from the logical address on are written, and nothing else is. -/
structure Written (d : Bmtd) (m : Nat → Nat) (addr n : Nat) (dat : Nat → Nat)
    (c c' : Chip) : Prop where
  bytes : ∀ k < n, logicalByte d m c' (addr + k) = dat k
  frame : ∀ pb i, ¬ Addressed d m addr n pb i → (c'.block pb).data i = (c.block pb).data i

lemma addr_in_block (d : Bmtd) (addr n : Nat) (hl : addr % d.blkSize + n < d.blkSize) :
    (addr + n) / d.blkSize = addr / d.blkSize ∧ (addr + n) % d.blkSize = addr % d.blkSize + n := by
  have hdiv := div_add_mod addr d.blkSize
  have hsum : addr + n = addr % d.blkSize + n + d.blkSize * (addr / d.blkSize) := by omega
  rw [hsum, add_mul_div_left _ _ d.blkSize_pos, div_eq_of_lt hl, add_mul_mod_self_left,
    mod_eq_of_lt hl]
  exact ⟨zero_add _, rfl⟩

lemma bytesOf_logical (addr : Nat) (hl : addr % d.blkSize + l ≤ d.blkSize) :
    bytesOf (c.block (m (addr / d.blkSize))) (addr % d.blkSize) l =
      (range l).map fun i => logicalByte d m c (addr + i) := by
  refine map_congr_left fun i hi => ?_
  obtain ⟨hdiv, hmod⟩ := addr_in_block d addr i (by have := mem_range.mp hi; omega)
  unfold logicalByte
  rw [hdiv, hmod]

lemma Written.append (hinj : Set.InjOn m {b | b < d.totalBlks}) (h : Written d m addr n dat c c')
    {c'' : Chip}
    (hlt : addr + n < d.totalBlks * d.blkSize) (hl : (addr + n) % d.blkSize + l ≤ d.blkSize)
    (hpiece : ∀ pb i, (c''.block pb).data i =
      if pb = m ((addr + n) / d.blkSize) ∧
      (addr + n) % d.blkSize ≤ i ∧ i < (addr + n) % d.blkSize + l then
        dat (n + (i - (addr + n) % d.blkSize)) else (c'.block pb).data i) :
    Written d m addr (n + l) dat c c'' := by
  have hblock : ∀ k ≤ n, (addr + k) / d.blkSize < d.totalBlks := fun k hk =>
    Nat.div_lt_of_lt_mul (by rw [Nat.mul_comm]; omega)
  refine ⟨fun k hk => ?_, fun pb i hnot => ?_⟩
  · by_cases hkn : k < n
    · -- an earlier byte: in another block, or below the piece
      unfold logicalByte
      rw [hpiece, if_neg, ← h.bytes k hkn]
      · rfl
      rintro ⟨hpb, hle, _⟩
      have hsame := hinj (hblock k (by omega)) (hblock n (le_refl _)) hpb
      have hk' := div_add_mod (addr + k) d.blkSize
      have hn' := div_add_mod (addr + n) d.blkSize
      rw [hsame] at hk'
      omega
    · obtain ⟨i, rfl⟩ := Nat.exists_eq_add_of_le (Nat.le_of_not_lt hkn)
      obtain ⟨hdiv, hmod⟩ := addr_in_block d (addr + n) i (by omega)
      unfold logicalByte
      rw [← add_assoc, hdiv, hmod, hpiece, if_pos ⟨rfl, by omega, by omega⟩]
      exact congrArg dat (by omega)
  · rw [hpiece, if_neg]
    · exact h.frame pb i fun ⟨k, hk, hrest⟩ => hnot ⟨k, by omega, hrest⟩
    rintro ⟨rfl, hle, hlt'⟩
    obtain ⟨hdiv, hmod⟩ := addr_in_block d (addr + n) (i - (addr + n) % d.blkSize) (by omega)
    refine hnot ⟨n + (i - (addr + n) % d.blkSize), by omega, ?_, ?_⟩
    · rw [← add_assoc, hdiv]
    · rw [← add_assoc, hmod]
      omega

end Memory

/-! ## Requests below 4 GiB -/

section Access

variable {σ : Type} {d : Bmtd} {ops : BmtOps σ} {drv : OobDriver} {F : Faults} {req : MtdOobOps}
  {m : Nat → Nat}
  {threshold : Nat}

lemma curLen_le (offset rest : Nat) : d.curLen offset rest ≤ d.blkSize - offset ∧
    d.curLen offset rest ≤ rest :=
  ⟨min_le_left .., le_trans (min_le_right ..) (mod_le ..)⟩

lemma curLen_pos (d : Bmtd) (addr rest : Nat) (hrest : 0 < rest) (hlt : rest < 2 ^ 32) :
    0 < d.curLen (addr % d.blkSize) rest := by
  have hmod := mod_lt addr d.blkSize_pos
  unfold Bmtd.curLen
  omega

lemma write_piece (drv : OobDriver) (c : Chip) (hF : F.Succeeds threshold)
    (b offset ooboffs len : Nat) (dat : Nat → Nat)
    (oob : List Nat) : (c.write F b (drv.program offset ooboffs len dat oob)).1 ∧
      ∀ pb i, ((c.write F b (drv.program offset ooboffs len dat oob)).2.block pb).data i =
        if pb = b ∧ offset ≤ i ∧ i < offset + len then dat (i - offset)
        else (c.block pb).data i := by
  rw [Chip.write_of_none (hF.write _)]
  refine ⟨rfl, fun pb i => ?_⟩
  by_cases hpb : pb = b
  · subst hpb
    rw [Chip.set_block_self]
    show (if offset ≤ i ∧ i < offset + len then _ else _) = _
    split_ifs with h h' h'
    · rfl
    · exact absurd ⟨rfl, h⟩ h'
    · exact absurd h'.2 h
    · rfl
  · rw [Chip.set_block_of_ne hpb, if_neg fun h => hpb h.1]

def MtdOobOps.left (req : MtdOobOps) (retlen oobretlen : Nat) : Nat :=
  req.len - retlen + if oobretlen < req.ooblen then 1 else 0

/-- When `retlen` bytes are done: the spare bytes go with the first piece, and the address follows
the data while something is left. -/
structure Progress (req : MtdOobOps) (addr pos retlen oobretlen : Nat) : Prop where
  retlen_le : retlen ≤ req.len
  oobretlen_le : oobretlen ≤ req.ooblen
  oob : retlen = 0 ∨ oobretlen = req.ooblen
  pos : retlen < req.len ∨ oobretlen < req.ooblen → pos = addr + retlen

namespace Progress

variable {addr pos retlen oobretlen : Nat}

lemma lt_size (h : Progress req addr pos retlen oobretlen) {size : Nat} (haddr : addr < size)
    (hsize : addr + req.len ≤ size) (hmore : retlen < req.len ∨ oobretlen < req.ooblen) :
    pos < size := by
  have hpos := h.pos hmore
  have hoob := h.oob
  omega

lemma next (h : Progress req addr pos retlen oobretlen) (hlen : req.len < 2 ^ 32)
    (hmore : retlen < req.len ∨ oobretlen < req.ooblen) :
    Progress req addr (pos + d.advance (pos % d.blkSize)
    (d.curLen (pos % d.blkSize) (req.len - retlen)))
      (retlen + d.curLen (pos % d.blkSize) (req.len - retlen))
      (oobretlen + (req.ooblen - oobretlen)) := by
  have hpos := h.pos hmore
  have hle := (curLen_le (d := d) (pos % d.blkSize) (req.len - retlen)).2
  have hr := h.retlen_le
  have ho := h.oobretlen_le
  refine ⟨by omega, by omega, .inr (by omega), fun hmore' => ?_⟩
  have hcur := curLen_pos d pos (req.len - retlen) (by omega) (by omega)
  unfold Bmtd.advance
  rw [if_neg (by omega)]
  omega

lemma left_lt (pos : Nat) (hlen : req.len < 2 ^ 32)
    (hmore : retlen < req.len ∨ oobretlen < req.ooblen) :
    req.left (retlen + d.curLen (pos % d.blkSize) (req.len - retlen))
    (oobretlen + (req.ooblen - oobretlen)) < req.left retlen oobretlen := by
  unfold MtdOobOps.left
  rw [if_neg (by omega)]
  by_cases hdata : retlen < req.len
  · have hcur := curLen_pos d pos (req.len - retlen) (by omega) (by omega)
    split_ifs <;> omega
  · rw [if_pos (by omega)]
    omega

end Progress

variable {s₀ : σ} {addr : Nat} {s : σ}

def SameMapping (ops : BmtOps σ) (s₀ s : σ) : Prop :=
    ∀ b, ops.getMappingBlock s b = ops.getMappingBlock s₀ b

lemma SameMapping.setChip (hlaw : ops.Lawful) (h : SameMapping ops s₀ s) (c : Chip) :
    SameMapping ops s₀ (ops.setChip s c) := fun b => (hlaw.mapping_setChip s c b).trans (h b)

lemma MapsBy.block (hmaps : MapsBy d ops s₀ m) (h : SameMapping ops s₀ s) {pos : Nat}
    (hpos : pos < d.totalBlks * d.blkSize) :
    ops.getMappingBlock s (pos / d.blkSize % 2 ^ 32) = some (m (pos / d.blkSize)) := by
  have hlt : pos / d.blkSize < d.totalBlks :=
    Nat.div_lt_of_lt_mul (by rw [Nat.mul_comm]; exact hpos)
  have htotal := d.totalBlks_lt
  rw [mod_eq_of_lt (by omega), h, hmaps.mapping _ hlt]

section Short

variable (drv) (hlaw : ops.Lawful) (hmaps : MapsBy d ops s₀ m) (hF : F.Succeeds threshold)
  (haddr : addr < d.totalBlks * d.blkSize) (hsize : addr + req.len ≤ d.totalBlks * d.blkSize)
  (hlen : req.len < 2 ^ 32)
include hlaw hmaps hF haddr hsize hlen

lemma mtkBmtWriteLoop_written (fuel : Nat) (s : σ) (pos retlen oobretlen ooboffs retry : Nat)
    (hprog : Progress req addr pos retlen oobretlen) (hsame : SameMapping ops s₀ s)
    (hwritten : Written d m addr retlen req.datbuf (ops.chip s₀) (ops.chip s))
    (hfuel : req.left retlen oobretlen < fuel) :
    ∃ w, mtkBmtWriteLoop d ops drv F req fuel s pos retlen oobretlen ooboffs retry = some w ∧ w.ok ∧
      w.retlen = req.len ∧ w.oobretlen = req.ooblen ∧ SameMapping ops s₀ w.state ∧
      Written d m addr req.len req.datbuf (ops.chip s₀) (ops.chip w.state) := by
  induction fuel generalizing s pos retlen oobretlen ooboffs retry with
  | zero => omega
  | succ fuel ih =>
    unfold mtkBmtWriteLoop
    by_cases hmore : retlen < req.len ∨ oobretlen < req.ooblen
    · have hlt := hprog.lt_size haddr hsize hmore
      have hpos := hprog.pos hmore
      rw [if_neg (not_not.mpr hmore)]
      dsimp only
      rw [hmaps.block hsame hlt]
      dsimp only
      obtain ⟨hok, hpiece⟩ := write_piece drv (ops.chip s) hF (m (pos / d.blkSize))
        (pos % d.blkSize)
        ooboffs (d.curLen (pos % d.blkSize) (req.len - retlen)) (fun i => req.datbuf (retlen + i))
        ((range (req.ooblen - oobretlen)).map fun i => req.oobbuf (oobretlen + i))
      rw [if_pos hok]
      apply ih
      · exact hprog.next hlen hmore
      · exact hsame.setChip hlaw _
      · rw [hlaw.chip_setChip]
        have hcur := (curLen_le (d := d) (pos % d.blkSize) (req.len - retlen)).1
        have hmod := mod_lt pos d.blkSize_pos
        rw [hpos] at hlt hpiece hcur hmod ⊢
        exact hwritten.append hmaps.injective hlt (by omega) hpiece
      · have := Progress.left_lt (d := d) pos hlen hmore
        omega
    · have hr := hprog.retlen_le
      have ho := hprog.oobretlen_le
      obtain rfl : retlen = req.len := by omega
      rw [if_pos hmore]
      exact ⟨_, rfl, rfl, rfl, by show oobretlen = _; omega, hsame, hwritten⟩

lemma mtkBmtReadOobLoop_bytes {c : Chip} (fuel : Nat) (s : σ)
    (pos retlen oobretlen ooboffs retry : Nat)
    (a : Reading) (hprog : Progress req addr pos retlen oobretlen) (hsame : SameMapping ops s₀ s)
    (hchip : (ops.chip s).block = c.block) (hret : a.ret = none)
    (hdat : a.dat = (range retlen).map (fun k => logicalByte d m c (addr + k)))
    (hfuel : req.left retlen oobretlen < fuel) :
    ∃ r, mtkBmtReadOobLoop d ops drv F req threshold fuel s pos retlen oobretlen ooboffs retry a =
    some r ∧
      r.ret.isOk ∧ r.retlen = req.len ∧ r.oobretlen = req.ooblen ∧
      r.dat = (range req.len).map fun k => logicalByte d m c (addr + k) := by
  induction fuel generalizing s pos retlen oobretlen ooboffs retry a with
  | zero => omega
  | succ fuel ih =>
    unfold mtkBmtReadOobLoop
    by_cases hmore : retlen < req.len ∨ oobretlen < req.ooblen
    · have hlt := hprog.lt_size haddr hsize hmore
      have hpos := hprog.pos hmore
      rw [if_neg (not_not.mpr hmore)]
      dsimp only
      rw [hmaps.block hsame hlt]
      obtain ⟨bitflips, hread, hquiet⟩ := hF.read (ops.chip s).clock
      rw [show ((ops.chip s).read F).1 = .ok bitflips from hread]
      dsimp only
      rw [if_neg hquiet]
      apply ih
      · exact hprog.next hlen hmore
      · exact hsame.setChip hlaw _
      · rw [hlaw.chip_setChip]
        exact hchip
      · exact hret
      · dsimp only
        have hcur := (curLen_le (d := d) (pos % d.blkSize) (req.len - retlen)).1
        have hmod := mod_lt pos d.blkSize_pos
        have hbytes := bytesOf_logical (d := d) (m := m) (c := c) pos
          (l := d.curLen (pos % d.blkSize) (req.len - retlen)) (by omega)
        rw [hchip, hdat, hbytes, range_add, map_append, map_map, hpos]
        refine congrArg _ (map_congr_left fun i _ => ?_)
        rw [Function.comp_apply, add_assoc]
      · have := Progress.left_lt (d := d) pos hlen hmore
        omega
    · have hr := hprog.retlen_le
      have ho := hprog.oobretlen_le
      obtain rfl : retlen = req.len := by omega
      rw [if_pos hmore]
      refine ⟨_, rfl, ?_, rfl, by show oobretlen = _; omega, hdat⟩
      unfold Reading.result
      rw [hret]
      rfl

end Short

/-! ## Longer requests -/

lemma curLen_long {offset len retlen : Nat} (hlong : 2 ^ 32 ≤ len - retlen) :
    2 ^ 32 ≤ len - (retlen + d.curLen offset (len - retlen)) := by
  have hcur : d.curLen offset (len - retlen) ≤ (len - retlen) % 2 ^ 32 := min_le_right ..
  omega

lemma mtkBmtWriteLoop_long (fuel : Nat) (s : σ) (pos retlen oobretlen ooboffs retry : Nat)
    (w : Wrote σ) (hlong : 2 ^ 32 ≤ req.len - retlen)
    (h : mtkBmtWriteLoop d ops drv F req fuel s pos retlen oobretlen ooboffs retry = some w) :
    w.retlen < req.len := by
  induction fuel generalizing s pos retlen oobretlen ooboffs retry w with
  | zero => exact absurd h (by simp [mtkBmtWriteLoop])
  | succ fuel ih =>
    unfold mtkBmtWriteLoop at h
    rw [if_neg (not_not.mpr (.inl (by omega)))] at h
    dsimp only at h
    split at h
    next =>
      cases Option.some.inj h
      show retlen < req.len
      omega
    next curBlock _ =>
      split_ifs at h
      · exact ih _ _ _ _ _ _ _ (curLen_long hlong) h
      · exact ih _ _ _ _ _ _ _ hlong h
      · cases Option.some.inj h
        show retlen < req.len
        omega

lemma mtkBmtWriteLoop_endless (hF : F.Succeeds threshold)
    (hmapped : ∀ s b, ∃ curBlock, ops.getMappingBlock s b = some curBlock) (fuel : Nat) (s : σ)
    (pos retlen oobretlen ooboffs retry : Nat) (hlong : 2 ^ 32 ≤ req.len - retlen) :
    mtkBmtWriteLoop d ops drv F req fuel s pos retlen oobretlen ooboffs retry = none := by
  induction fuel generalizing s pos retlen oobretlen ooboffs retry with
  | zero => rfl
  | succ fuel ih =>
    obtain ⟨curBlock, hblock⟩ := hmapped s (pos / d.blkSize % 2 ^ 32)
    unfold mtkBmtWriteLoop
    rw [if_neg (not_not.mpr (.inl (by omega)))]
    dsimp only
    rw [hblock]
    dsimp only
    rw [if_pos (write_piece _ _ hF _ _ _ _ _ _).1]
    exact ih _ _ _ _ _ _ (curLen_long hlong)

/-! ## The round trip -/

/-- A write and a read of the same range end and report the length, the read returns the bytes, and
no other bytes change. -/
def RoundTrips (d : Bmtd) (ops : BmtOps σ) (drv : OobDriver) (F : Faults) (threshold : Nat)
    (m : Nat → Nat) (req readReq : MtdOobOps) (s : σ) (addr : Nat) : Prop :=
  ∃ fuel w, mtkBmtWrite d ops drv F req fuel s addr = some w ∧ w.ok ∧ w.retlen = req.len ∧
    (∀ pb i, ¬ Addressed d m addr req.len pb i →
      ((ops.chip w.state).block pb).data i = ((ops.chip s).block pb).data i) ∧
    ∃ fuel' r, mtkBmtReadOob d ops drv F readReq threshold fuel' w.state addr = some r ∧
      r.ret.isOk ∧
      r.retlen = req.len ∧ r.dat = (range req.len).map req.datbuf

lemma Progress.start {addr : Nat} : Progress req addr addr 0 0 :=
  ⟨zero_le _, zero_le _, .inl rfl, fun _ => rfl⟩

/-- On a chip without failures, a request is written and read back iff it is shorter than 4 GiB. -/
theorem roundTrips_iff {s : σ} {readReq : MtdOobOps} (hlaw : ops.Lawful) (hmaps : MapsBy d ops s m)
    (hF : F.Succeeds threshold) (haddr : addr < d.totalBlks * d.blkSize)
    (hsize : addr + req.len ≤ d.totalBlks * d.blkSize) (hread : readReq.len = req.len) :
    RoundTrips d ops drv F threshold m req readReq s addr ↔ req.len < 2 ^ 32 := by
  refine ⟨?_, fun hlen => ?_⟩
  · rintro ⟨fuel, w, hwrite, _, hretlen, _⟩
    by_contra hlong
    have hlt := mtkBmtWriteLoop_long _ _ _ _ _ _ _ w (by omega) hwrite
    omega
  · obtain ⟨w, hwrite, hok, hretlen, _, hsame, hwritten⟩ :=
      mtkBmtWriteLoop_written drv hlaw hmaps hF haddr
      hsize hlen (req.left 0 0 + 1) s addr 0 0 req.ooboffs 0 .start (fun _ => rfl)
      ⟨fun k hk => absurd hk (not_lt_zero k), fun _ _ _ => rfl⟩ (lt_succ_self _)
    have hmaps' : MapsBy d ops w.state m :=
      ⟨fun b hb => (hsame b).trans (hmaps.mapping b hb), hmaps.injective⟩
    obtain ⟨r, hfetch, hret, hlen', _, hdat⟩ :=
      mtkBmtReadOobLoop_bytes drv (c := ops.chip w.state) hlaw hmaps'
      hF haddr (by rw [hread]; exact hsize) (by rw [hread]; exact hlen)
        (readReq.left 0 0 + 1) w.state addr 0 0
      readReq.ooboffs 0 ⟨none, 0, [], []⟩ .start (fun _ => rfl) rfl rfl rfl (lt_succ_self _)
    refine ⟨_, w, hwrite, hok, hretlen, hwritten.frame, _, r, hfetch, hret, hlen'.trans hread, ?_⟩
    rw [hdat, hread]
    exact map_congr_left fun k hk => hwritten.bytes k (mem_range.mp hk)

def noOob : OobDriver := ⟨fun _ _ _ oob => oob, fun _ _ _ _ => []⟩

lemma Faults.none_succeeds : Faults.none.Succeeds 0 :=
    ⟨fun _ => rfl, fun _ => ⟨0, rfl, fun h => h.1 rfl⟩⟩

def smallState : Bbt := ⟨fun _ => 0x0c#8, 7, ⟨fun _ => .erased, fun _ => false, 0, []⟩⟩

lemma smallState_mapsBy : MapsBy smallDev.toBmtd (bbtOps smallDev) smallState
    (getMappingBlockIndexBbt smallDev smallState.bbtBuf) := by
  have hinj : ∀ a < 8, ∀ b < 8, getMappingBlockIndexBbt smallDev smallState.bbtBuf a =
      getMappingBlockIndexBbt smallDev smallState.bbtBuf b → a = b := by decide
  exact ⟨fun _ _ => rfl, fun a ha b hb => hinj a ha b hb⟩

/-- Nine bytes from the middle of block 0 on. -/
theorem roundTrips_smallDev : RoundTrips smallDev.toBmtd (bbtOps smallDev) noOob .none 0
    (getMappingBlockIndexBbt smallDev smallState.bbtBuf) ⟨9, 0, 0, fun i => 2 * i, fun _ => 0⟩
    ⟨9, 0, 0, fun _ => 0, fun _ => 0⟩ smallState 1 := by
  refine (roundTrips_iff (bbtOps_lawful smallDev) smallState_mapsBy Faults.none_succeeds ?_ ?_
    ?_).mpr ?_
  · show 1 < 8 * 2 ^ 1
    decide
  · show 1 + 9 ≤ 8 * 2 ^ 1
    decide
  · rfl
  · show 9 < 2 ^ 32
    decide

def fixedOps (m : Nat → Nat) : BmtOps Chip where
  chip c := c
  setChip _ c := c
  getMappingBlock _ b := some (m b)
  remapBlock _ c _ _ _ := (false, c)

def wideChip : Bmtd where
  blkShift := 17
  pgShift := 12
  totalBlks := 32768
  remapRange := []
  pgShift_le := by decide
  totalBlks_lt := by decide

/-- Writing all of the chip does not end. -/
theorem write_wideChip_endless : ∃ req readReq : MtdOobOps,
    req.len = wideChip.totalBlks * wideChip.blkSize ∧
    (∀ fuel c, mtkBmtWrite wideChip (fixedOps id) noOob .none req fuel c 0 = none) ∧
    ∀ c, ¬ RoundTrips wideChip (fixedOps id) noOob .none 0 id req readReq c 0 := by
  have hend : ∀ fuel c, mtkBmtWrite wideChip (fixedOps id) noOob .none
    ⟨2 ^ 32, 0, 0, fun _ => 0, fun _ => 0⟩ fuel c 0 =
      none := fun fuel c => mtkBmtWriteLoop_endless Faults.none_succeeds
        (fun _ b => ⟨b, rfl⟩) fuel c 0 0 0 0 0
    (by decide)
  refine ⟨_, ⟨2 ^ 32, 0, 0, fun _ => 0, fun _ => 0⟩, by decide, hend, ?_⟩
  rintro c ⟨fuel, w, hwrite, _⟩
  rw [hend] at hwrite
  cases hwrite

end Access

end SourceMaster.Nand
