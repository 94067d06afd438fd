import SourceMaster.Nand.Nmbm.InfoTable

/-!
# NMBM: attaching and remapping

Attaching looks for the signature block. Without one, a new instance is created: bad blocks are
recorded, the logical blocks get the good blocks below the management area, and signature and tables
are written. Otherwise the first two valid info tables behind the start of the management area are
searched for, and the one with the higher write count is loaded.
-/

namespace SourceMaster.Nand

open Bytes

variable (F : Faults) (d : NmbmDev)

/-! ## Checking a table -/

def nmbmCheckHeader (f : Nat → Nat) (size : Nat) : Bool :=
  let hsize := word32 f 8
  if hsize > size then false
  else
    let crc := crc32Le 0 (slice (fun i => if 12 ≤ i ∧ i < 16 then 0 else f i) 0 16)
    let crc := if hsize > 16 then crc32Le crc (slice f 16 (hsize - 16)) else crc
    word32 f 12 = crc

def nmbmCheckInfoTableHeader (f : Nat → Nat) : Bool :=
  word32 f 0 = nmbmMagicInfoTable && word32 f 8 = d.infoTableSize &&
    (sub32 (word32 f 24) (word32 f 20) ≥ d.stateTableSize &&
      sub32 d.infoTableSize (word32 f 24) ≥ d.mappingTableSize)

variable (ni : Nmbm)

/-- The memory from the cache on: the state table and the mapping follow directly. -/
def Nmbm.cacheMem (i : Nat) : Nat :=
  if i < d.infoTableSize then ni.infoTableCache i
  else if i < d.infoTableSize + d.stateTableSize then
    stateTableByte ni.blockState (i - d.infoTableSize)
  else if i < d.infoTableSize + d.stateTableSize + d.mappingTableSize then
    mappingTableByte ni.blockMapping (i - d.infoTableSize - d.stateTableSize)
  else ni.heap i

def memMapping (mem : Nat → Nat) (i : Nat) : Nat := word32 mem (word32 mem 24 + 4 * i)

def memState (mem : Nat → Nat) (ba : Nat) : BlockState :=
  .ofBits (field2 (fun k => mem (word32 mem 20 + k) % 256) ba)

/-- The first loop of `nmbm_check_info_table`, over the `n` logical blocks from `ba` on. -/
def checkMappingLoop (m : Nat → Nat) (dataBlockCount stop signatureBa : Nat) :
    Nat → Nat → Nat → Option Nat
  | 0, _, minimum => some minimum
  | n + 1, ba, minimum =>
    if (m ba ≥ dataBlockCount ∧ m ba < stop) ∨ m ba = signatureBa then none
    else checkMappingLoop m dataBlockCount stop signatureBa n (ba + 1)
      (if m ba ≥ stop ∧ m ba < minimum then m ba else minimum)

/-- `nmbm_check_info_table`: the new `mapping_blocks_top_ba`. -/
def nmbmCheckInfoTable (start stop : Nat) : Option Nat :=
  let mem := ni.cacheMem d
  match checkMappingLoop (memMapping mem) ni.dataBlockCount stop ni.signatureBa ni.dataBlockCount 0
      ni.signatureBa with
  | none => none
  | some minimum =>
    if (List.range (stop - start)).all (fun k =>
        ni.blockState (start + k) ≠ .good || memState mem (start + k) = .good) then
      some (minimum - 1)
    else none

/-! ## Loading tables -/

/-- The loop of `nmbm_try_load_info_table` over `n` blocks from `ba` on, with `off` bytes read from
block `start` on. A failed read leaves the cache as it is. -/
def tryLoadLoop : Nat → Nat → Nat → Option Nat → Nmbm → Option (Nat × Nat) × Nmbm
  | 0, ba, off, start, ni =>
    (if d.infoTableSize ≤ off then start.map (fun s => (s, ba)) else none, ni)
  | n + 1, ba, off, start, ni =>
    if d.infoTableSize ≤ off then (start.map (fun s => (s, ba)), ni)
    else if ni.blockState ba ≠ .good then tryLoadLoop n (ba + 1) off start ni
    else if ni.chip.isBad ba then tryLoadLoop n (ba + 1) off start
      { ni with toMedia := ni.toMedia.setBlockState ba .bad }
    else
      let len := min d.blkSize (d.infoTableSize - off)
      let r := nmbnReadData F d len ni.chip
      let ni := { ni with chip := r.2 }
      if !r.1 then tryLoadLoop n (ba + 1) off start
      { ni with toMedia := ni.toMedia.setBlockState ba .bad }
      else
        let ni := { ni with infoTableCache := fun i =>
          if off ≤ i ∧ i < off + len then (ni.chip.block ba).data (i - off) % 256
          else ni.infoTableCache i }
        if start.isNone && !nmbmCheckInfoTableHeader d ni.infoTableCache then (none, ni)
        else tryLoadLoop n (ba + 1) (off + len) (some (start.getD ba)) ni

def Nmbm.loadTables : Nmbm :=
  let mem := ni.cacheMem d
  let ni := { ni with
    infoTable := ⟨word32 mem 16, word32 mem 20, word32 mem 24, word32 mem 28⟩
    blockState := fun b => if b < d.stateTableSize * 4 then memState mem b else ni.blockState b }
  let mem := ni.cacheMem d
  { ni with
    blockMapping := fun i => if i < d.totalBlks then memMapping mem i else ni.blockMapping i }

/-- `nmbm_try_load_info_table`: the end of the table, its write count and the highest unmapped
block. -/
def nmbmTryLoadInfoTable (ba : Nat) (tableLoaded : Bool) (ni : Nmbm) :
    Option (Nat × Nat × Nat) × Nmbm :=
  let r := tryLoadLoop F d d.infoTableBlocks ba 0 none ni
  match r.1 with
  | none => (none, r.2)
  | some (start, eba) =>
    if !nmbmCheckHeader r.2.infoTableCache d.infoTableSize then (none, r.2)
    else
      match nmbmCheckInfoTable d r.2 start eba with
      | none => (none, r.2)
      | some top =>
        let writeCount := word32 r.2.infoTableCache 16
        let ni := if !tableLoaded || writeCount > r.2.infoTable.writeCount then r.2.loadTables d
          else r.2
        (some (eba, writeCount, top), ni)

structure FoundTable where
  start : Nat
  stop : Nat
  writeCount : Nat
  top : Nat

/-- The loop of `nmbm_search_info_table` over the `n` blocks from `ba` on. -/
def searchInfoTableLoop (tableLoaded : Bool) : Nat → Nat → Nmbm → Option FoundTable × Nmbm
  | 0, _, ni => (none, ni)
  | n + 1, ba, ni =>
    let r := nmbmTryLoadInfoTable F d ba tableLoaded ni
    match r.1 with
    | some (stop, writeCount, top) => (some ⟨ba, stop, writeCount, top⟩, r.2)
    | none => searchInfoTableLoop tableLoaded n (ba + 1) r.2

def nmbmSearchInfoTable (ba limit : Nat) (tableLoaded : Bool) (ni : Nmbm) :
    Option FoundTable × Nmbm :=
  searchInfoTableLoop F d tableLoaded (sub32 limit d.infoTableBlocks - ba) ba ni

/-- The number of logical blocks: up to the last one that is mapped. -/
def lastMapped (m : Nat → Nat) : Nat → Option Nat
  | 0 => none
  | i + 1 => if m i < 2 ^ 31 then some (i + 1) else lastMapped m i

/-- `nmbm_load_info_table` once a table has been found: the second one, and the positions. -/
def loadSecondTable (limit : Nat) (first : FoundTable) (ni : Nmbm) : Option FoundTable × Nmbm :=
  let ni := { ni with mainTableBa := first.start, mainTableEnd := first.stop }
  let r := nmbmSearchInfoTable F d first.stop limit true ni
  let top := match r.1 with
    | none => first.top
    | some second => if first.writeCount ≥ second.writeCount then first.top else second.top
  let ni := match r.1 with
    | none => { r.2 with mappingBlocksBa := first.stop }
    | some second => { r.2 with
        backupTableBa := second.start, backupTableEnd := second.stop,
          mappingBlocksBa := second.stop }
  (r.1, { ni with
    mappingBlocksTopBa := top
    dataBlockCount := (lastMapped ni.blockMapping ni.signature.mgmtStartPb).getD ni.dataBlockCount
      })

/-- The end of `nmbm_load_info_table`: writes a table that is missing or out of date. -/
def syncTables (first : FoundTable) (second : Option FoundTable) (ni : Nmbm) : Bool × Nmbm :=
  match second with
  | none => nmbmRescueSingleInfoTable F d ni
  | some second =>
    if first.writeCount ≠ second.writeCount then
      nmbmUpdateSingleInfoTable F d { ni with blockStateChanged := 1, blockMappingChanged := 1 }
        (first.writeCount < second.writeCount)
    else (true, ni)

def nmbmLoadInfoTable (ba limit : Nat) (ni : Nmbm) : Bool × Nmbm :=
  let ni := { ni with
    mainTableBa := 0, backupTableBa := 0
    infoTable := { ni.infoTable with writeCount := 0 }
    mappingBlocksTopBa := ni.signatureBa - 1
    dataBlockCount := ni.signature.mgmtStartPb }
  let r := nmbmSearchInfoTable F d ba limit false ni
  match r.1 with
  | none => (false, r.2)
  | some first =>
    let r := loadSecondTable F d limit first r.2
    let g := nmbmGenerateInfoTableCache d r.2
    let u := syncTables F d first r.1 g.2
    (true, { u.2 with isProtected :=
      u.2.mappingBlocksBa = u.2.mappingBlocksTopBa || !u.1 || u.2.isProtected })

/-! ## Creating -/

/-- The loop of `nmbm_create_info_table` over the last `n` logical blocks. -/
def mapDataBlocks : Nat → Nmbm → Nmbm
  | 0, ni => ni
  | n + 1, ni =>
    let m := nmbmMapBlock F d ni ni.dataBlockCount
    if m.1 then mapDataBlocks n { m.2 with dataBlockCount := m.2.dataBlockCount + 1 } else m.2

/-- `nmbm_create_info_table` up to the loop that maps further blocks. -/
def createTables : Option Nmbm :=
  match nmbmBlockWalkDesc d ni.toMedia ni.signatureBa 1 ni.mgmtStartBa with
  | none => none
  | some top =>
    let g := nmbmGenerateInfoTableCache d { ni with mappingBlocksTopBa := top }
    let r := nmbmRebuildInfoTable F d g.2
    if r.1 then some r.2 else none

def nmbmCreateInfoTable : Option Nmbm :=
  match createTables F d ni with
  | none => none
  | some ni =>
    let ni := mapDataBlocks F d (ni.mgmtStartBa - ni.dataBlockCount) ni
    let u := nmbmUpdateInfoTable F d ni
    if u.1 then some u.2 else none

def NmbmDev.mgmtStart : Nat :=
  let start := d.totalBlks * (16 - d.maxRatio) / 16
  if d.maxReservedBlocks ≠ 0 ∧ d.totalBlks - start > d.maxReservedBlocks then
    d.totalBlks - d.maxReservedBlocks
  else start

/-! ### The signature -/

def nmbmMagicSignature : Nat := 0x304d4d4e

def signatureSize : Nat := 48

variable (s : Signature)

def signatureWords (checksum : Nat) : List Nat :=
  [nmbmMagicSignature, s.version, signatureSize, checksum, s.nandSize % 2 ^ 32, s.nandSize / 2 ^ 32,
    s.blockSize, s.pageSize, s.spareSize, s.mgmtStartPb, nmbmTryCount, 0]

def rawSignature (i : Nat) : Nat :=
  byteOf ((signatureWords s 0).getD (i / 4) 0) (i % 4)

def signatureBytes (i : Nat) : Nat :=
  if 12 ≤ i ∧ i < 16 then byteOf (crc32Le 0 (slice (rawSignature s) 0 signatureSize)) (i - 12)
  else rawSignature s i

def decodeSignature (f : Nat → Nat) : Signature :=
  ⟨word32 f 4, word32 f 16 + 2 ^ 32 * word32 f 20, word32 f 24, word32 f 28, word32 f 32,
    word32 f 36⟩

/-- One round of `nmbm_write_signature`. -/
def writeSignatureBlock (ba : Nat) (dat : Nat → Nat) (m : Media) : Bool × Media :=
  useGoodBlock F d ba (nmbmWriteRepeatedData F d ba dat signatureSize) m

def nmbmWriteSignature (limit : Nat) (dat : Nat → Nat) : Nat → Media → Option Nat × Media
  | 0, m => (none, m)
  | n + 1, m =>
    let r := writeSignatureBlock F d (limit + n + 1) dat m
    if r.1 then (some (limit + n + 1), r.2) else nmbmWriteSignature limit dat n r.2

/-- `nmbm_create_new` up to the call of `nmbm_create_info_table`. -/
def signNew : Option Nmbm :=
  let ni := { ni with mgmtStartBa := d.mgmtStart }
  let ni := nmbmBuildMappingTable d (nmbmScanBadblocks d ni)
  let sig : Signature := ⟨nmbmVer, d.totalBlks * d.blkSize, d.blkSize, d.pgSize, d.oobSize,
    ni.mgmtStartBa⟩
  let w := nmbmWriteSignature F d ni.mgmtStartBa (signatureBytes sig)
    (d.totalBlks - 1 - ni.mgmtStartBa) ni.toMedia
  match w.1 with
  | none => none
  | some ba => some { ni with toMedia := w.2, signature := sig, signatureBa := ba }

def nmbmCreateNew : Option Nmbm := (signNew F d ni).bind (nmbmCreateInfoTable F d)

/-! ## Attaching -/

/-- The page loop of `nmbm_find_signature`, with `n` pages to go. -/
def findSignaturePages (ba : Nat) : Nat → Nat → Chip → Option Signature × Chip
  | 0, _, c => (none, c)
  | n + 1, off, c =>
    let r := nmbnReadData F d signatureSize c
    let page := fun i => (c.block ba).data (off + i)
    if r.1 && nmbmCheckHeader page signatureSize && word32 page 0 = nmbmMagicSignature then
      (some (decodeSignature page), r.2)
    else findSignaturePages ba n (off + d.pgSize) r.2

/-- `nmbm_find_signature` over the `n` blocks from `low` on, from the last one down. -/
def findSignatureLoop (low : Nat) : Nat → Chip → Option (Nat × Signature) × Chip
  | 0, c => (none, c)
  | n + 1, c =>
    if c.isBad (low + n) then findSignatureLoop low n c
    else
      let r := findSignaturePages F d (low + n) d.pagesPerBlock 0 c
      match r.1 with
      | some sig => (some (low + n, sig), r.2)
      | none => findSignatureLoop low n r.2

/-- The lowest block that is searched: the loop still looks at the block below its limit. -/
def NmbmDev.signatureLow : Nat :=
  let limit := d.totalBlks / 16 * (16 - d.maxRatio)
  (if d.maxReservedBlocks ≠ 0 ∧ d.totalBlks - limit > d.maxReservedBlocks then
    d.totalBlks - d.maxReservedBlocks else limit) - 1

def nmbmFindSignature (c : Chip) : Option (Nat × Signature) × Chip :=
  findSignatureLoop F d d.signatureLow (d.totalBlks - d.signatureLow) c

def nmbmLoadExisting : Option Nmbm :=
  let ni := { ni with mgmtStartBa := ni.signature.mgmtStartPb }
  let r := nmbmLoadInfoTable F d ni.mgmtStartBa ni.signatureBa ni
  if r.1 then some r.2
  else if !d.forceCreate then none
  else nmbmCreateInfoTable F d (nmbmBuildMappingTable d (nmbmScanBadblocks d r.2))

/-- The instance as it is allocated, after `nmbm_init_structure`. -/
def nmbmInitStructure (heap : Nat → Nat) (c : Chip) : Nmbm where
  signature := ⟨0, 0, 0, 0, 0, 0⟩
  infoTableCache := fun _ => 0
  infoTable := ⟨0, d.stateTableOff, d.mappingTableOff, 0⟩
  blockState := fun _ => .good
  blockStateChanged := 0
  blockMapping := fun _ => 0
  blockMappingChanged := 0
  isProtected := false
  dataBlockCount := 0
  mgmtStartBa := 0
  mainTableBa := 0
  backupTableBa := 0
  mappingBlocksBa := 0
  mappingBlocksTopBa := 0
  signatureBa := 0
  mainTableEnd := 0
  backupTableEnd := 0
  heap := heap
  chip := c

def NmbmDev.signatureMatches : Bool :=
  s.version = nmbmVer && s.nandSize = d.totalBlks * d.blkSize && s.blockSize = d.blkSize &&
    (s.pageSize = d.pgSize && s.spareSize = d.oobSize)

/-- `nmbm_attach`; `none` is an error. -/
def nmbmAttach (heap : Nat → Nat) (c : Chip) : Option Nmbm :=
  let s := nmbmFindSignature F d c
  let ni := nmbmInitStructure d heap s.2
  match s.1 with
  | none => if d.forceCreate then nmbmCreateNew F d ni else none
  | some (ba, sig) =>
    if d.signatureMatches sig then nmbmLoadExisting F d
      { ni with signature := sig, signatureBa := ba }
    else none

/-! ## Remapping -/

/-- The first step of `remap_block_nmbm`: the block that is given up is recorded as bad. -/
def Nmbm.giveUp (mappedBlock : Nat) : Nmbm :=
  { ni with toMedia := ni.toMedia.setBlockState mappedBlock .bad }

def remapBlockNmbm (block mappedBlock copyLen : Nat) : Bool × Nmbm :=
  if block ≥ ni.dataBlockCount then (false, ni)
  else
    let m := nmbmMapBlock F d (ni.giveUp mappedBlock) block
    if !m.1 then (false, m.2)
    else
      let ni := m.2
      let newBlock := ni.blockMapping block
      let c := (ni.chip.erase F newBlock).2
      let c := if copyLen > 0 then (bbtNandCopy F d.toBmtd newBlock mappedBlock copyLen c).2 else c
      (true, (nmbmUpdateInfoTable F d { ni with chip := c }).2)

/-- `get_mapping_block_index_nmbm`; `none` stands for −1. -/
def getMappingBlockIndexNmbm (block : Nat) : Option Nat :=
  if block ≥ ni.dataBlockCount then none else some (ni.blockMapping block)

end SourceMaster.Nand
