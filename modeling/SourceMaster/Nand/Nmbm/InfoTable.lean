import SourceMaster.Nand.Nmbm.Instance

/-!
# NMBM: writing the info tables

A table goes to the first good blocks of a range; a block that cannot be erased or written is marked
bad and passed over. An update writes the backup table and then the main table, each one where it
was before, and falls back to the rescue functions when a range has become too short.
-/

namespace SourceMaster.Nand

variable (F : Faults) (d : NmbmDev)

/-! ## Erasing and writing ranges -/

/-- What the functions that erase and write do with a block: one that is not good is passed over;
another one is erased and used, and marked bad if this fails. -/
def useGoodBlock (ba : Nat) (action : Chip → Bool × Chip) (m : Media) : Bool × Media :=
  if m.blockState ba ≠ .good then (false, m)
  else if m.chip.isBad ba then (false, m.setBlockState ba .bad)
  else
    let e := nmbmEraseBlockAndCheck F d ba m.chip
    if !e.1 then (false, { m with chip := e.2 }.markBad ba)
    else
      let w := action e.2
      if w.1 then (true, { m with chip := w.2 }) else (false, { m with chip := w.2 }.markBad ba)

def eraseRangeBlock (ba : Nat) (m : Media) : Media :=
  (useGoodBlock F d ba (fun c => (true, c)) m).2

def eraseRangeLoop : Nat → Nat → Media → Media
  | 0, _, m => m
  | n + 1, ba, m => eraseRangeLoop n (ba + 1) (eraseRangeBlock F d ba m)

def nmbmEraseRange (ba limit : Nat) (ni : Nmbm) : Nmbm :=
  { ni with toMedia := eraseRangeLoop F d (limit - ba) ba ni.toMedia }

/-- One round of `nmbm_write_mgmt_range`: whether the `len` bytes are in the block now. -/
def writeMgmtBlock (ba : Nat) (dat : Nat → Nat) (len : Nat) (m : Media) : Bool × Media :=
  useGoodBlock F d ba (nmbnWriteVerifyData F d ba dat len) m

/-- The loop of `nmbm_write_mgmt_range` over `n` blocks from `ba` on, with `off` bytes written: the
first block of the data and the one behind the last. -/
def writeMgmtLoop (dat : Nat → Nat) (size : Nat) : Nat → Nat → Nat → Nat → Media →
    Option (Nat × Nat) × Media
  | 0, ba, off, start, m => (if size ≤ off then some (start, ba) else none, m)
  | n + 1, ba, off, start, m =>
    if size ≤ off then (some (start, ba), m)
    else
      let r := writeMgmtBlock F d ba (fun i => dat (off + i)) (min d.blkSize (size - off)) m
      if r.1 then
        writeMgmtLoop dat size n (ba + 1) (off + min d.blkSize (size - off))
          (if off = 0 then ba else start) r.2
      else writeMgmtLoop dat size n (ba + 1) off start r.2

def nmbmWriteInfoTable (ba limit : Nat) (ni : Nmbm) : Option (Nat × Nat) × Nmbm :=
  let r := writeMgmtLoop F d ni.infoTableCache d.infoTableSize (limit - ba) ba 0 0 ni.toMedia
  (r.1, { ni with toMedia := r.2 })

def writeInfoTableDown : Nat → Nat → Nmbm → Option (Nat × Nat) × Nmbm
  | 0, _, ni => (none, ni)
  | n + 1, writeBa, ni =>
    let w := nmbmWriteInfoTable F d writeBa ni.mappingBlocksTopBa ni
    if w.1.isSome then w else writeInfoTableDown n (writeBa - 1) w.2

/-! ## Rebuilding and rescuing -/

variable (ni : Nmbm)

def Nmbm.reserveLimit : Nat := sub32 ni.mappingBlocksTopBa d.infoTableBlocks

def nmbmRebuildInfoTable : Bool × Nmbm :=
  let ni := { ni with
    mainTableBa := 0, backupTableBa := 0, mappingBlocksBa := ni.mappingBlocksTopBa }
  let w := nmbmWriteInfoTable F d ni.mgmtStartBa ni.mappingBlocksTopBa ni
  match w.1 with
  | none => (false, { w.2 with isProtected := true })
  | some (start, stop) =>
    let ni := { w.2 with mainTableBa := start, mainTableEnd := stop, mappingBlocksBa := stop }
    let ni := ni.markTablesClean
    match nmbmTryReserveBlocks d ni.toMedia stop (ni.reserveLimit d) d.infoTableSpareBlocks with
    | none => (true, ni)
    | some next =>
      let w := nmbmWriteInfoTable F d next ni.mappingBlocksTopBa ni
      match w.1 with
      | none => (true, w.2)
      | some (start', stop') =>
        let ni := { w.2 with
          backupTableBa := start', backupTableEnd := stop', mappingBlocksBa := stop' }
        (true, nmbmEraseRange F d stop start' ni)

/-- The second part of `nmbm_rescue_single_info_table`: a new table behind the existing one. -/
def rescueBehind : Bool × Nmbm :=
  match nmbmTryReserveBlocks d ni.toMedia ni.mappingBlocksBa
    (ni.reserveLimit d) d.infoTableSpareBlocks with
  | none => (false, ni)
  | some writeBa =>
    let w := writeInfoTableDown F d (writeBa + 1 - ni.mappingBlocksBa) writeBa ni
    match w.1 with
    | none => (false, w.2)
    | some (start, stop) =>
      let ni := nmbmEraseRange F d w.2.mappingBlocksBa start w.2
      let ni := { ni with backupTableBa := start, backupTableEnd := stop, mappingBlocksBa := stop }
      (true, ni.markTablesClean)

def nmbmRescueSingleInfoTable : Bool × Nmbm :=
  let w := nmbmWriteInfoTable F d ni.mgmtStartBa ni.mainTableBa ni
  match w.1 with
  | none => rescueBehind F d w.2
  | some (start, stop) =>
    let ni := { w.2 with
      backupTableBa := w.2.mainTableBa, backupTableEnd := w.2.mainTableEnd,
      mainTableBa := start, mainTableEnd := stop }
    let ni := ni.markTablesClean
    (true, nmbmEraseRange F d stop ni.backupTableBa ni)

def Nmbm.backupBecomesMain : Nmbm :=
  { ni with mainTableBa := ni.backupTableBa, mainTableEnd := ni.backupTableEnd, backupTableBa := 0 }

def nmbmUpdateSingleInfoTable (updateMainTable : Bool) : Bool × Nmbm :=
  if updateMainTable then
    let w := nmbmWriteInfoTable F d ni.mainTableBa ni.backupTableBa ni
    match w.1 with
    | some (start, stop) =>
      (true, { w.2 with mainTableBa := start, mainTableEnd := stop }.markTablesClean)
    | none => nmbmRescueSingleInfoTable F d w.2.backupBecomesMain
  else
    let w := nmbmWriteInfoTable F d ni.backupTableBa ni.mappingBlocksTopBa ni
    match w.1 with
    | some (start, stop) =>
      (true, { w.2 with
        backupTableBa := start, backupTableEnd := stop, mappingBlocksBa := stop }.markTablesClean)
    | none => (false, { w.2 with mappingBlocksBa := w.2.backupTableBa, backupTableBa := 0 })

/-- The end of `nmbm_rescue_main_info_table`, after the main table overwrote the temporary one: a
new backup table. -/
def rescueNewBackup (stop : Nat) (ni : Nmbm) : Bool × Nmbm :=
  let ni := { ni with mappingBlocksBa := stop }
  match nmbmTryReserveBlocks d ni.toMedia stop (ni.reserveLimit d) d.infoTableSpareBlocks with
  | none => (true, { ni with backupTableBa := 0 })
  | some writeBa =>
    let w := writeInfoTableDown F d (writeBa + 1 - stop) writeBa ni
    match w.1 with
    | none => (true, { w.2 with backupTableBa := 0 })
    | some (start', stop') =>
      let ni := { w.2 with backupTableBa := start', backupTableEnd := stop', mappingBlocksBa :=
        stop' }
      (true, nmbmEraseRange F d stop start' ni)

def nmbmRescueMainInfoTable : Bool × Nmbm :=
  match nmbmTryReserveBlocks d ni.toMedia ni.mappingBlocksBa
    (ni.reserveLimit d) d.infoTableSpareBlocks with
  | none => (true, ni.backupBecomesMain)
  | some writeBa =>
    let w := writeInfoTableDown F d (writeBa + 1 - ni.mappingBlocksBa) writeBa ni
    match w.1 with
    | none => (true, w.2.backupBecomesMain)
    | some (tmpStart, tmpStop) =>
      let ni := { w.2 with mappingBlocksBa := tmpStop }
      let w := nmbmWriteInfoTable F d ni.mgmtStartBa tmpStart ni
      match w.1 with
      | none =>
        (true, { w.2 with
          mainTableBa := tmpStart, mainTableEnd := tmpStop, backupTableBa := 0 }.markTablesClean)
      | some (start, stop) =>
        let ni := { w.2 with mainTableBa := start, mainTableEnd := stop }.markTablesClean
        if stop ≤ tmpStart then
          (true, { ni with backupTableBa := tmpStart, backupTableEnd := tmpStop })
        else rescueNewBackup F d stop ni

/-! ## Updating -/

/-- `nmbm_update_info_table_once` from the label `write_main_table` on. -/
def writeMainTable (mainTableLimit : Nat) (ni : Nmbm) : Bool × Nmbm :=
  if ni.mainTableBa = 0 then nmbmRebuildInfoTable F d ni
  else
    let w := nmbmWriteInfoTable F d ni.mainTableBa mainTableLimit ni
    match w.1 with
    | none =>
      if w.2.backupTableBa = 0 then nmbmRebuildInfoTable F d w.2
      else nmbmRescueMainInfoTable F d w.2
    | some (start, stop) =>
      let ni := { w.2 with
        mainTableBa := start, mainTableEnd := stop,
        mappingBlocksBa := if w.2.backupTableBa = 0 then stop else w.2.mappingBlocksBa }
      (true, ni.markTablesClean)

def nmbmUpdateInfoTableOnce (force : Bool) : Bool × Nmbm :=
  let g := nmbmGenerateInfoTableCache d ni
  let ni := g.2
  if !g.1 && !force then (true, ni)
  else if ni.backupTableBa = 0 then writeMainTable F d ni.mappingBlocksTopBa ni
  else
    let w := nmbmWriteInfoTable F d ni.backupTableBa ni.mappingBlocksTopBa ni
    match w.1 with
    | none =>
      let ni := { w.2 with mappingBlocksBa := w.2.backupTableBa, backupTableBa := 0 }
      writeMainTable F d ni.mappingBlocksTopBa ni
    | some (start, stop) =>
      let ni := { w.2 with backupTableBa := start, backupTableEnd := stop, mappingBlocksBa := stop }
      let ni := ni.markTablesClean
      writeMainTable F d ni.backupTableBa ni

def updateInfoTableLoop : Nat → Nmbm → Bool × Nmbm
  | 0, ni => (true, ni)
  | n + 1, ni =>
    if ni.blockStateChanged = 0 ∧ ni.blockMappingChanged = 0 then (true, ni)
    else
      let r := nmbmUpdateInfoTableOnce F d ni false
      if r.1 then updateInfoTableLoop n r.2 else (false, r.2)

/-- `nmbm_update_info_table`. Every further round has found a bad block, so these rounds are
enough. -/
def nmbmUpdateInfoTable : Bool × Nmbm :=
  if ni.isProtected then (true, ni) else updateInfoTableLoop F d (d.totalBlks + 2) ni

def nmbmMapBlock (lb : Nat) : Bool × Nmbm :=
  if ni.mappingBlocksBa = ni.mappingBlocksTopBa then (false, ni)
  else
    match nmbmBlockWalkDesc d ni.toMedia ni.mappingBlocksTopBa 0 ni.mappingBlocksBa with
    | none =>
      let ni := (nmbmUpdateInfoTable F d ni).2
      (false, { ni with mappingBlocksTopBa := ni.mappingBlocksBa })
    | some pb =>
      (true, { ni with
        blockMapping := Function.update ni.blockMapping lb pb
        mappingBlocksTopBa := ni.mappingBlocksTopBa - 1
        blockMappingChanged := ni.blockMappingChanged + 1 })

end SourceMaster.Nand
