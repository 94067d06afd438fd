import SourceMaster.Nand.Nmbm.Flash

/-!
# NMBM: the instance and its tables

`struct nmbm_instance` keeps a state for each block and the physical block of each logical one. An
info table is the byte image of both behind a header with a checksum. The mapping is kept in 32-bit
words as the table has them, so that −1 is `0xffffffff`.
-/

namespace SourceMaster.Nand

open Bytes

/-- The state of a block: two bits of the state table. -/
inductive BlockState where
  | bad
  | unused
  | needRemap
  | good
  deriving DecidableEq, Repr

namespace BlockState

def toBits : BlockState → Nat
  | bad => 0
  | unused => 1
  | needRemap => 2
  | good => 3

def ofBits : Nat → BlockState
  | 0 => bad
  | 1 => unused
  | 2 => needRemap
  | _ => good

lemma toBits_lt (s : BlockState) : s.toBits < 4 := by
  cases s <;> decide

end BlockState

/-- The part of `struct nmbm_info_table_header` that is not set anew with a table. -/
structure InfoTable where
  writeCount : Nat
  stateTableOff : Nat
  mappingTableOff : Nat
  padding : Nat

structure Signature where
  version : Nat
  nandSize : Nat
  blockSize : Nat
  pageSize : Nat
  spareSize : Nat
  mgmtStartPb : Nat

structure Media where
  blockState : Nat → BlockState
  blockStateChanged : Nat
  chip : Chip

def Media.Usable (m : Media) (b : Nat) : Prop := m.blockState b = .good ∧ m.chip.isBad b = false

instance (m : Media) (b : Nat) : Decidable (m.Usable b) := inferInstanceAs (Decidable (_ ∧ _))

structure Nmbm extends Media where
  signature : Signature
  infoTableCache : Nat → Nat
  infoTable : InfoTable
  blockMapping : Nat → Nat
  blockMappingChanged : Nat
  isProtected : Bool
  dataBlockCount : Nat
  mgmtStartBa : Nat
  mainTableBa : Nat
  backupTableBa : Nat
  mappingBlocksBa : Nat
  mappingBlocksTopBa : Nat
  signatureBa : Nat
  /-- Where the main table ends. The source does not keep it; no function reads it. -/
  mainTableEnd : Nat
  /-- Where the backup table ends, which no function reads either. -/
  backupTableEnd : Nat
  /-- What lies in the memory behind the instance. -/
  heap : Nat → Nat

def unmapped : Nat := 0xffffffff

def Media.setBlockState (m : Media) (ba : Nat) (st : BlockState) : Media :=
  { m with
    blockState := Function.update m.blockState ba st
    blockStateChanged :=
      if m.blockState ba ≠ st then m.blockStateChanged + 1 else m.blockStateChanged }

def Media.markBad (m : Media) (ba : Nat) : Media :=
  { m with chip := m.chip.markBad ba }.setBlockState ba .bad

def Nmbm.markTablesClean (ni : Nmbm) : Nmbm :=
  { ni with blockStateChanged := 0, blockMappingChanged := 0 }

/-! ## Walking over good blocks -/

def walkAsc (st : Nat → BlockState) : Nat → Nat → Nat → Option Nat
  | 0, _, _ => none
  | n + 1, ba, count =>
    if st ba = .good then
      if count = 0 then some ba else walkAsc st n (ba + 1) (count - 1)
    else walkAsc st n (ba + 1) count

def walkDesc (st : Nat → BlockState) : Nat → Nat → Nat → Option Nat
  | 0, _, _ => none
  | n + 1, ba, count =>
    if st ba = .good then
      if count = 0 then some ba else walkDesc st n (ba - 1) (count - 1)
    else walkDesc st n (ba - 1) count

def NmbmDev.walkLimit (d : NmbmDev) (limit : Nat) : Nat :=
  if limit ≥ d.totalBlks then d.totalBlks - 1 else limit

def nmbmBlockWalkAsc (d : NmbmDev) (m : Media) (ba count limit : Nat) : Option Nat :=
  walkAsc m.blockState (d.walkLimit limit - ba) ba count

def nmbmBlockWalkDesc (d : NmbmDev) (m : Media) (ba count limit : Nat) : Option Nat :=
  walkDesc m.blockState (ba - d.walkLimit limit) ba count

def nmbmTryReserveBlocks (d : NmbmDev) (m : Media) (ba limit : Nat) : Nat → Option Nat
  | 0 => nmbmBlockWalkAsc d m ba 0 limit
  | n + 1 =>
    match nmbmBlockWalkAsc d m ba (n + 1) limit with
    | some nba => some nba
    | none => nmbmTryReserveBlocks d m ba limit n

/-! ## The first tables -/

def scanBadblocksLoop : Nat → Nat → Media → Media
  | 0, _, m => m
  | n + 1, ba, m =>
    scanBadblocksLoop n (ba + 1) (if m.chip.isBad ba then m.setBlockState ba .bad else m)

variable (d : NmbmDev)

def nmbmScanBadblocks (ni : Nmbm) : Nmbm :=
  { ni with toMedia := scanBadblocksLoop d.totalBlks 0 ni.toMedia }

/-- The first loop of `nmbm_build_mapping_table`, over `n` blocks from `pb` on; `lb` are mapped. -/
def buildMappingLoop (st : Nat → BlockState) : Nat → Nat → Nat → (Nat → Nat) → Nat × (Nat → Nat)
  | 0, _, lb, m => (lb, m)
  | n + 1, pb, lb, m =>
    if st pb = .bad then buildMappingLoop st n (pb + 1) lb m
    else buildMappingLoop st n (pb + 1) (lb + 1) (Function.update m lb pb)

def nmbmBuildMappingTable (ni : Nmbm) : Nmbm :=
  let r := buildMappingLoop ni.blockState ni.mgmtStartBa 0 0 ni.blockMapping
  { ni with
    dataBlockCount := r.1
    blockMapping := fun pb => if r.1 ≤ pb ∧ pb < d.totalBlks then unmapped else r.2 pb }

/-! ## The bytes of an info table -/

def nmbmMagicInfoTable : Nat := 0x314d4d4e

def nmbmVer : Nat := 1

variable (t : InfoTable)

def headerWords (checksum : Nat) : List Nat :=
  [nmbmMagicInfoTable, nmbmVer, d.infoTableSize, checksum, t.writeCount, t.stateTableOff,
    t.mappingTableOff, t.padding]

variable (st : Nat → BlockState)

def stateTableByte : Nat → Nat := pack2 (fun b => (st b).toBits)

variable (m : Nat → Nat)

def mappingTableByte (k : Nat) : Nat := byteOf (m (k / 4)) (k % 4)

/-- The bytes of the table before the checksum is set: the last copy to a place counts. -/
def rawTable (i : Nat) : Nat :=
  if i < NmbmDev.infoTableHeaderSize then byteOf ((headerWords d t 0).getD (i / 4) 0) (i % 4)
  else if t.mappingTableOff ≤ i ∧ i < t.mappingTableOff + d.mappingTableSize then
    mappingTableByte m (i - t.mappingTableOff)
  else if t.stateTableOff ≤ i ∧ i < t.stateTableOff + d.stateTableSize then
    stateTableByte st (i - t.stateTableOff)
  else 0xff

def tableChecksum : Nat :=
  crc32Le 0 (slice (rawTable d t st m) 0 d.infoTableSize)

def tableBytes (i : Nat) : Nat :=
  if 12 ≤ i ∧ i < 16 then byteOf (tableChecksum d t st m) (i - 12) else rawTable d t st m i

/-- `nmbm_generate_info_table_cache`: whether there is a change to be written. -/
def nmbmGenerateInfoTableCache (ni : Nmbm) : Bool × Nmbm :=
  let changed := ni.blockStateChanged ≠ 0 ∨ ni.blockMappingChanged ≠ 0
  let t := if changed then
      { ni.infoTable with writeCount := (ni.infoTable.writeCount + 1) % 2 ^ 32 } else ni.infoTable
  (changed, { ni with infoTable := t, infoTableCache := tableBytes d t ni.blockState ni.blockMapping
    })

end SourceMaster.Nand
