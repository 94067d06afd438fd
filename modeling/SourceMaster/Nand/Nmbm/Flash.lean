import SourceMaster.Nand.Bmt
import SourceMaster.Lib.Bytes

/-!
# NMBM: the device and its page operations

The geometry that `nmbm_init_structure` computes, and the functions that access the chip page by
page: every operation is tried three times, an erase may be followed by a check of the empty pages,
and what has been written is read back and compared.
-/

namespace SourceMaster.Nand

open Bytes

/-- The chip and the device tree properties. A page has room for the signature and a table
header. -/
structure NmbmDev extends Bmtd where
  oobSize : Nat
  maxRatio : Nat
  maxReservedBlocks : Nat
  emptyPageEccOk : Bool
  forceCreate : Bool
  maxRatio_le : maxRatio ≤ 16
  pgShift_ge : 6 ≤ pgShift

namespace NmbmDev

variable (d : NmbmDev)

def alignPage (size : Nat) : Nat := (size + d.pgSize - 1) / d.pgSize * d.pgSize

def size2blk (size : Nat) : Nat := (size + d.blkSize - 1) / d.blkSize

/-- Two bits for each block, in units of 32 bits. -/
def stateTableSize : Nat := (d.totalBlks + 15) / 16 * 4

def mappingTableSize : Nat := d.totalBlks * 4

def infoTableHeaderSize : Nat := 32

def stateTableOff : Nat := d.alignPage infoTableHeaderSize

def mappingTableOff : Nat := d.stateTableOff + d.alignPage d.stateTableSize

def infoTableSize : Nat := d.mappingTableOff + d.alignPage d.mappingTableSize

def infoTableBlocks : Nat := d.size2blk d.infoTableSize

/-- `nmbm_get_spare_block_count` of the number of blocks of an info table. -/
def infoTableSpareBlocks : Nat := max 2 ((d.infoTableBlocks + 1) / 2)

def pagesPerBlock : Nat := d.blkSize / d.pgSize

end NmbmDev

def sub32 (a b : Nat) : Nat := (a + (2 ^ 32 - b % 2 ^ 32)) % 2 ^ 32

/-! ## Operations with retries -/

def nmbmTryCount : Nat := 3

def ReadResult.isError : ReadResult → Bool
  | .badmsg => true
  | .error => true
  | _ => false

def readTries (F : Faults) : Nat → Chip → ReadResult × Chip
  | 0, c => (.error, c)
  | n + 1, c =>
    let r := c.read F
    if !r.1.isError then (r.1, r.2)
    else if n = 0 then (r.1, r.2)
    else readTries F n r.2

/-- `nmbm_read_phys_page`. The bytes that are read are those of the block. -/
def nmbmReadPhysPage (F : Faults) (c : Chip) : ReadResult × Chip := readTries F nmbmTryCount c

def writeTries (F : Faults) (ba off len : Nat) (dat : Nat → Nat) : Nat → Chip → Bool × Chip
  | 0, c => (false, c)
  | n + 1, c =>
    let w := c.writePage F ba off len dat
    if w.1 then (true, w.2) else writeTries F ba off len dat n w.2

def nmbmWritePhysPage (F : Faults) (d : NmbmDev) (ba off : Nat) (dat : Nat → Nat) (c : Chip) :
    Bool × Chip :=
  writeTries F ba off d.pgSize dat nmbmTryCount c

def eraseTries (F : Faults) (ba : Nat) : Nat → Chip → Bool × Chip
  | 0, c => (false, c)
  | n + 1, c =>
    let e := c.erase F ba
    if e.1 then (true, e.2) else eraseTries F ba n e.2

def nmbmErasePhysBlock (F : Faults) (ba : Nat) (c : Chip) : Bool × Chip :=
  eraseTries F ba nmbmTryCount c

/-! ## Erasing and writing a block -/

def checkEmptyPages (F : Faults) : Nat → Chip → Bool × Chip
  | 0, c => (true, c)
  | n + 1, c =>
    let r := nmbmReadPhysPage F c
    if r.1 = .badmsg then (false, r.2) else checkEmptyPages F n r.2

def nmbmEraseBlockAndCheck (F : Faults) (d : NmbmDev) (ba : Nat) (c : Chip) : Bool × Chip :=
  let e := nmbmErasePhysBlock F ba c
  if !e.1 then (false, e.2)
  else if !d.emptyPageEccOk then (true, e.2)
  else checkEmptyPages F d.pagesPerBlock e.2

def sameBytes (f g : Nat → Nat) (n : Nat) : Bool :=
  (List.range n).all (fun i => f i % 256 == g i % 256)

/-- One round of the functions that write and verify: `len` bytes go to the page at `off`, filled up
with `0xff`, and are read back. -/
def writeVerifyPage (F : Faults) (d : NmbmDev) (ba off len : Nat) (dat : Nat → Nat) (c : Chip) :
    Bool × Chip :=
  let w := nmbmWritePhysPage F d ba off (fun i => if i < len then dat i else 0xff) c
  if !w.1 then (false, w.2)
  else
    let r := nmbmReadPhysPage F w.2
    if r.1.isError then (false, r.2)
    else (sameBytes (fun i => (r.2.block ba).data (off + i)) dat len, r.2)

def writeRepeatedLoop (F : Faults) (d : NmbmDev) (ba : Nat) (dat : Nat → Nat) (size : Nat) :
    Nat → Nat → Chip → Bool × Chip
  | 0, _, c => (true, c)
  | n + 1, off, c =>
    let w := writeVerifyPage F d ba off size dat c
    if w.1 then writeRepeatedLoop F d ba dat size n (off + d.pgSize) w.2 else (false, w.2)

def nmbmWriteRepeatedData (F : Faults) (d : NmbmDev) (ba : Nat) (dat : Nat → Nat) (size : Nat)
    (c : Chip) : Bool × Chip :=
  if size > d.pgSize then (false, c)
  else writeRepeatedLoop F d ba dat size d.pagesPerBlock 0 c

/-- The loop of `nmbn_write_verify_data`, with `n` pages to go and `off` bytes written. -/
def writeVerifyLoop (F : Faults) (d : NmbmDev) (ba : Nat) (dat : Nat → Nat) (size : Nat) :
    Nat → Nat → Chip → Bool × Chip
  | 0, _, c => (true, c)
  | n + 1, off, c =>
    let w := writeVerifyPage F d ba off (min d.pgSize (size - off)) (fun i => dat (off + i)) c
    if w.1 then writeVerifyLoop F d ba dat size n (off + d.pgSize) w.2 else (false, w.2)

def nmbnWriteVerifyData (F : Faults) (d : NmbmDev) (ba : Nat) (dat : Nat → Nat) (size : Nat)
    (c : Chip) : Bool × Chip :=
  writeVerifyLoop F d ba dat size ((size + d.pgSize - 1) / d.pgSize) 0 c

def readPages (F : Faults) : Nat → Chip → Bool × Chip
  | 0, c => (true, c)
  | n + 1, c =>
    let r := nmbmReadPhysPage F c
    if r.1.isError then (false, r.2) else readPages F n r.2

/-- `nmbn_read_data` for `size` bytes from the start of a page on. -/
def nmbnReadData (F : Faults) (d : NmbmDev) (size : Nat) (c : Chip) : Bool × Chip :=
  readPages F ((size + d.pgSize - 1) / d.pgSize) c

end SourceMaster.Nand
