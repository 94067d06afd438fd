import SourceMaster.Nand.Bmt

/-!
# The BMT v2 manager

`struct bbbt` is a signature with a version, the mapping `bb_tbl` of the logical blocks, and behind
it `bmt_tbl`, the pool of spare blocks. Both tables are addressed without a bound, so the memory
they lie in is one function from 16-bit words to their values: `bb_tbl[i]` is word `2 + i`, and
`bmt_tbl[j]` are the two words after `2 + table_size + 2 * j`. The first `bufWords` words are the
buffer `bbt_buf`, which is on the chip.
-/

namespace SourceMaster.Nand

open Function

/-- A chip of up to 4 GiB with a BMT v2: the table fits into a block, and there is a logical
block. -/
structure V2Dev extends Bmtd where
  tableSize : Nat
  /-- The first block that is not logical. -/
  poolLba : Nat
  oobOffset : Nat
  poolLba_pos : 0 < poolLba
  poolLba_le : poolLba ≤ totalBlks
  table_fits : (4 + tableSize * 4 + 2 ^ pgShift - 1) / 2 ^ pgShift * 2 ^ pgShift ≤ 2 ^ blkShift
  /-- The address of a page is computed in 32 bits. -/
  size_le : totalBlks * 2 ^ blkShift ≤ 2 ^ 32

namespace V2Dev

variable (d : V2Dev)

def bufSz : Nat := (4 + d.tableSize * 4 + d.pgSize - 1) / d.pgSize * d.pgSize

def bufWords : Nat := d.bufSz / 2

/-- `bb_max`: two per cent of the blocks. -/
def bbMax : Nat := d.totalBlks * 2 / 100

section

variable (mem : Nat → Nat)

def bbTbl (i : Nat) : Nat := mem (2 + i)

def bmtBlock (j : Nat) : Nat := mem (2 + d.tableSize + 2 * j)

def bmtMapped (j : Nat) : Nat := mem (2 + d.tableSize + 2 * j + 1)

def setBbTbl (i v : Nat) : Nat → Nat := update mem (2 + i) v

def setBmtBlock (j v : Nat) : Nat → Nat :=
  update mem (2 + d.tableSize + 2 * j) v

def setBmtMapped (j v : Nat) : Nat → Nat :=
  update mem (2 + d.tableSize + 2 * j + 1) v

end

variable (mem : Nat → Nat)

lemma setBbTbl_bbTbl_self (i v : Nat) : bbTbl (setBbTbl mem i v) i = v := update_self ..

lemma setBbTbl_bbTbl_of_ne {i k : Nat} (h : k ≠ i) (mem : Nat → Nat) (v : Nat) :
    bbTbl (setBbTbl mem i v) k = bbTbl mem k :=
  update_of_ne (by omega) ..

lemma setBmtBlock_bmtBlock_self (j v : Nat) : d.bmtBlock (d.setBmtBlock mem j v) j = v :=
  update_self ..

lemma setBmtBlock_bmtBlock_of_ne {j k : Nat} (h : k ≠ j) (mem : Nat → Nat) (v : Nat) :
    d.bmtBlock (d.setBmtBlock mem j v) k = d.bmtBlock mem k :=
  update_of_ne (by omega) ..

@[simp] lemma setBmtBlock_bmtMapped (j v k : Nat) :
    d.bmtMapped (d.setBmtBlock mem j v) k = d.bmtMapped mem k :=
  update_of_ne (by omega) ..

@[simp] lemma setBmtMapped_bmtBlock (j v k : Nat) :
    d.bmtBlock (d.setBmtMapped mem j v) k = d.bmtBlock mem k :=
  update_of_ne (by omega) ..

lemma setBmtMapped_bmtMapped_self (j v : Nat) : d.bmtMapped (d.setBmtMapped mem j v) j = v :=
  update_self ..

lemma setBmtMapped_bmtMapped_of_ne {j k : Nat} (h : k ≠ j) (mem : Nat → Nat) (v : Nat) :
    d.bmtMapped (d.setBmtMapped mem j v) k = d.bmtMapped mem k :=
  update_of_ne (by omega) ..

/-! The two tables only overlap beyond the end of `bb_tbl`. -/

variable {d}

variable {i : Nat}

section

variable (h : i < d.tableSize)
include h

section

variable (mem : Nat → Nat)

lemma setBbTbl_bmtBlock (v j : Nat) : d.bmtBlock (setBbTbl mem i v) j = d.bmtBlock mem j :=
  update_of_ne (by omega) ..

lemma setBbTbl_bmtMapped (v j : Nat) : d.bmtMapped (setBbTbl mem i v) j = d.bmtMapped mem j :=
  update_of_ne (by omega) ..

lemma setBmtBlock_bbTbl (j v : Nat) : bbTbl (d.setBmtBlock mem j v) i = bbTbl mem i :=
  update_of_ne (by omega) ..

lemma setBmtMapped_bbTbl (j v : Nat) : bbTbl (d.setBmtMapped mem j v) i = bbTbl mem i :=
  update_of_ne (by omega) ..

end

end

end V2Dev

def noMapped : Nat := 0
def normalMapped : Nat := 1
def bmtMappedVal : Nat := 2

def noIndex : Nat := 65535

structure V2 where
  mem : Nat → Nat
  bmtBlkIdx : Nat
  chip : Chip

/-! ## Bytes and words -/

def toBytes (mem : Nat → Nat) (i : Nat) : Nat :=
  if i % 2 = 0 then mem (i / 2) % 256 else mem (i / 2) / 256 % 256

def V2Dev.load (d : V2Dev) (blk : Block) (mem : Nat → Nat) : Nat → Nat := fun w =>
  if w < d.bufWords then blk.data (2 * w) % 256 + 256 * (blk.data (2 * w + 1) % 256) else mem w

/-! ## Scanning the chip -/

def V2Dev.fdm (d : V2Dev) (blk : Block) (k : Nat) : Nat := blk.oob 0 (d.oobOffset + k)

/-- A block that cannot be read now, or is marked in its spare bytes. -/
def V2Dev.looksBad (d : V2Dev) (F : Faults) (c : Chip) (block : Nat) : Bool :=
  !(c.read F).1.isOk || d.fdm (c.block block) 0 ≠ 0xff

/-- `find_valid_block`, with `n` bad blocks still allowed; 0 if there is none. -/
def findValidBlock (F : Faults) (d : V2Dev) : Nat → Nat → Chip → Nat × Chip
  | n, block, c =>
    if block ≥ d.totalBlks then (0, c)
    else if d.looksBad F c block then
      match n with
      | 0 => (0, (c.read F).2)
      | n + 1 => findValidBlock F d n (block + 1) (c.read F).2
    else (block, (c.read F).2)

/-- An entry of one of the tables, as it is read or written. -/
inductive TableRef where
  | bb (i : Nat)
  | bmt (j : Nat)
  deriving DecidableEq, Repr

/-- The entries of the tables that a part of the scan has used, whether it succeeds, and the state
that it leaves. -/
structure Scan where
  refs : List TableRef
  ok : Bool
  s : V2

/-- What the caller goes on with. -/
def Scan.result (r : Scan) : Option V2 := if r.ok then some r.s else none

def Scan.after (refs : List TableRef) (r : Scan) : Scan := { r with refs := refs ++ r.refs }

/-- The first loop. -/
def scanLogical (F : Faults) (d : V2Dev) : Nat → Nat → V2 → Scan
  | 0, _, s => ⟨[], true, s⟩
  | n + 1, i, s =>
    let r := findValidBlock F d d.bbMax (V2Dev.bbTbl s.mem (i - 1) + 1) s.chip
    let s := { s with mem := V2Dev.setBbTbl s.mem i r.1, chip := r.2 }
    let refs := [.bb (i - 1), .bb i]
    if r.1 = 0 then ⟨refs, false, s⟩ else .after refs (scanLogical F d n (i + 1) s)

structure Pool where
  refs : List TableRef
  count : Nat
  s : V2

/-- The second loop: the pool entries from `i` on, and their number. Every round uses up a block. -/
def scanPool (F : Faults) (d : V2Dev) : Nat → Nat → Nat → V2 → Pool
  | 0, i, _, s => ⟨[], i, s⟩
  | n + 1, i, block, s =>
    let r := findValidBlock F d d.bbMax block s.chip
    let s := { s with chip := r.2 }
    if r.1 = 0 then ⟨[], i, s⟩
    else
      let mem := d.setBmtMapped (d.setBmtBlock s.mem i r.1) i noMapped
      let t := scanPool F d n (i + 1) (r.1 + 1) { s with mem := mem }
      { t with refs := .bmt i :: t.refs }

/-- The part of the scan behind the first loop. The flag of the last entry is set before it is known
whether there is one. -/
def Scan.thenPool (F : Faults) (d : V2Dev) (t : Scan) : Scan :=
  if !t.ok then t
  else
    let poolPba := V2Dev.bbTbl t.s.mem (d.poolLba - 1) + 1
    let refs := t.refs ++ [.bb (d.poolLba - 1)]
    if poolPba ≥ d.totalBlks - 2 then ⟨refs, false, t.s⟩
    else
      let r := scanPool F d d.totalBlks 0 poolPba t.s
      -- a `u16`, and the pool has less than `2 ^ 16` blocks
      let idx := if r.count = 0 then noIndex else r.count - 1
      let mem := d.setBmtMapped r.s.mem idx bmtMappedVal
      ⟨refs ++ r.refs ++ [.bmt idx], r.count ≠ 0, { r.s with bmtBlkIdx := idx, mem := mem }⟩

/-- `scan_bad_blocks`. -/
def scanBadBlocks (F : Faults) (d : V2Dev) (s : V2) : Scan :=
  let s := { s with mem := V2Dev.setBbTbl s.mem 0 0 }
  .thenPool F d (.after [.bb 0] (scanLogical F d (d.poolLba - 1) 1 s))

/-! ## Finding and writing the table -/

/-- `is_valid_bmt`: `"BMT"` and version 2 in the table, `"bmt"` in the spare bytes. -/
def isValidBmt (d : V2Dev) (mem : Nat → Nat) (blk : Block) : Bool :=
  mem 0 = 0x4d42 && mem 1 = 0x0254 &&
    (d.fdm blk 1 = 0x62 && d.fdm blk 2 = 0x6d && d.fdm blk 3 = 0x74)

/-- `get_bmt_index`, from entry `i` on. The loop has no bound; `none` beyond the 16-bit indices. -/
def getBmtIndex (d : V2Dev) (mem : Nat → Nat) : Nat → Nat → Option Nat
  | 0, _ => none
  | n + 1, i =>
    if d.bmtBlock mem i = 0 then some 0
    else if d.bmtMapped mem i = bmtMappedVal then some i
    else getBmtIndex d mem n (i + 1)

def signMem (mem : Nat → Nat) : Nat → Nat :=
  update (update mem 0 0x4d42) 1 0x0254

variable (d : V2Dev) (mem : Nat → Nat) (j : Nat)

@[simp] lemma signMem_bbTbl (i : Nat) : V2Dev.bbTbl (signMem mem) i = V2Dev.bbTbl mem i := by
  unfold V2Dev.bbTbl signMem
  rw [update_of_ne (by omega), update_of_ne (by omega)]

@[simp] lemma signMem_bmtBlock : d.bmtBlock (signMem mem) j = d.bmtBlock mem j := by
  unfold V2Dev.bmtBlock signMem
  rw [update_of_ne (by omega), update_of_ne (by omega)]

@[simp] lemma signMem_bmtMapped : d.bmtMapped (signMem mem) j = d.bmtMapped mem j := by
  unfold V2Dev.bmtMapped signMem
  rw [update_of_ne (by omega), update_of_ne (by omega)]

def v2Sig : List Nat := [0x62, 0x6d, 0x74]

/-- `upload_bmt`, called with the index plus one: the table goes to the highest entry that is
neither mapped nor fails. -/
def uploadBmt (F : Faults) (d : V2Dev) : Nat → V2 → Nat × V2
  | 0, s => (noIndex, s)
  | n + 1, s =>
    if d.bmtMapped s.mem n = normalMapped then (noIndex, s)
    else
      let block := d.bmtBlock s.mem n
      let e := s.chip.erase F block
      if !e.1 then uploadBmt F d n { s with mem := d.setBmtBlock s.mem n 0, chip := e.2 }
      else
        let mem := signMem s.mem
        let w := writeBmt F block d.oobOffset v2Sig d.bufSz (toBytes mem) e.2
        if !w.1 then uploadBmt F d n { s with mem := d.setBmtBlock mem n 0, chip := w.2 }
        else (n, { s with mem := mem, chip := w.2 })

/-- The loop of `mtk_bmt_init_v2` over the `n` highest blocks of the pool, and whether a table was
found. -/
def findBmt (F : Faults) (d : V2Dev) : Nat → V2 → Option (Bool × V2)
  | 0, s => some (false, s)
  | n + 1, s =>
    let blk := s.chip.block (d.poolLba + n)
    let r := s.chip.read F
    let s := { s with mem := d.load blk s.mem, chip := r.2 }
    if !r.1.isOk || !isValidBmt d s.mem blk then findBmt F d n s
    else
      match getBmtIndex d s.mem (2 ^ 16) 0 with
      | none => none
      | some idx => some (idx ≠ 0, { s with bmtBlkIdx := idx })

def createBmt (F : Faults) (d : V2Dev) (s : V2) : Option V2 :=
  if d.totalBlks > d.tableSize + d.tableSize * 2 / 100 then none
  else
    let mem := fun w => if 2 + d.tableSize ≤ w ∧ w < 2 + d.tableSize + 2 * d.tableSize then 0
      else s.mem w
    match (scanBadBlocks F d { s with mem := mem }).result with
    | none => none
    | some s =>
      let r := uploadBmt F d (s.bmtBlkIdx + 1) s
      if r.1 = noIndex then none else some { r.2 with bmtBlkIdx := r.1 }

/-- `mtk_bmt_init_v2` on a chip, with what is in the memory before. -/
def mtkBmtInitV2 (F : Faults) (d : V2Dev) (mem : Nat → Nat) (c : Chip) : Option V2 :=
  let mem := fun w => if w < d.bufWords then 0xffff else mem w
  match findBmt F d (d.totalBlks - d.poolLba) ⟨mem, 0, c⟩ with
  | none => none
  | some (true, s) => some s
  | some (false, s) => createBmt F d s

/-! ## Remapping -/

/-- The loop of `find_valid_block_in_pool` over `n` entries from `i` on. -/
def findInPool (d : V2Dev) (mem : Nat → Nat) : Nat → Nat → Option Nat
  | 0, _ => none
  | n + 1, i =>
    if d.bmtBlock mem i ≠ 0 ∧ d.bmtMapped mem i = noMapped then some i
    else findInPool d mem n (i + 1)

/-- `find_valid_block_in_pool`: the entry that is taken. -/
def findValidBlockInPool (d : V2Dev) (s : V2) : Option Nat :=
  if s.bmtBlkIdx = 0 then none else findInPool d s.mem s.bmtBlkIdx 0

def takePoolBlock (F : Faults) (d : V2Dev) (s : V2) (j block mappedBlock copyLen : Nat) : V2 :=
  let newBlock := d.bmtBlock s.mem j
  let mem := V2Dev.setBbTbl (d.setBmtMapped s.mem j normalMapped) block newBlock
  let c := (s.chip.erase F newBlock).2
  let c := if copyLen > 0 then (bbtNandCopy F d.toBmtd newBlock mappedBlock copyLen c).2 else c
  { s with mem := mem, chip := c }

def remapBlockV2 (F : Faults) (d : V2Dev) (s : V2) (block mappedBlock copyLen : Nat) : Bool × V2 :=
  match findValidBlockInPool d s with
  | none => (false, s)
  | some j =>
    let r := uploadBmt F d (s.bmtBlkIdx + 1) (takePoolBlock F d s j block mappedBlock copyLen)
    (true, { r.2 with bmtBlkIdx := r.1 })

def getMappingBlockIndexV2 (d : V2Dev) (s : V2) (block : Nat) : Nat :=
  if block ≥ d.poolLba then block
  else if (d.mappingBlockInRange block).isNone then block
  else V2Dev.bbTbl s.mem block

end SourceMaster.Nand
