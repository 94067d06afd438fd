import SourceMaster.Nand.Nmbm.Load

/-!
# NMBM: which offsets an accepted table may have

The header of an info table says where its state table and its mapping table start. The check
compares differences of unsigned 32-bit numbers, which wrap around: it does not see a mapping table
that starts behind the end, nor a state table that starts behind the mapping table; and either may
start inside the header. The module says which accepted tables describe tables within their own
bytes.
-/

namespace SourceMaster.Nand

open Bytes Option NmbmDev

variable {F : Faults} {d : NmbmDev} {ni : Nmbm} {f : Nat → Nat}

/-! ## What the header describes -/

def tableStateOff (f : Nat → Nat) : Nat := word32 f 20

def tableMappingOff (f : Nat → Nat) : Nat := word32 f 24

/-- The state and mapping tables of the header lie between its end and the end of the info table. -/
structure TablesInside (d : NmbmDev) (f : Nat → Nat) : Prop where
  state_ge : infoTableHeaderSize ≤ tableStateOff f
  state_le : tableStateOff f + d.stateTableSize ≤ d.infoTableSize
  mapping_ge : infoTableHeaderSize ≤ tableMappingOff f
  mapping_le : tableMappingOff f + d.mappingTableSize ≤ d.infoTableSize

/-- No offset points into the header, the mapping table does not start behind the end, and a state
table that does ends in time. -/
structure OffsetsInOrder (d : NmbmDev) (f : Nat → Nat) : Prop where
  state_ge : infoTableHeaderSize ≤ tableStateOff f
  mapping_ge : infoTableHeaderSize ≤ tableMappingOff f
  mapping_le : tableMappingOff f ≤ d.infoTableSize
  state_le : tableMappingOff f < tableStateOff f →
    tableStateOff f + d.stateTableSize ≤ d.infoTableSize

lemma sub32_of_le {a b : Nat} (ha : a < 2 ^ 32) (h : b ≤ a) : sub32 a b = a - b := by
  unfold sub32
  omega

lemma nmbmCheckInfoTableHeader_offsets (h : nmbmCheckInfoTableHeader d f) :
    d.infoTableSize < 2 ^ 32 ∧ d.stateTableSize ≤ sub32 (tableMappingOff f) (tableStateOff f) ∧
      d.mappingTableSize ≤ sub32 d.infoTableSize (tableMappingOff f) := by
  unfold nmbmCheckInfoTableHeader at h
  simp only [Bool.and_eq_true, decide_eq_true_eq] at h
  obtain ⟨⟨_, hsize⟩, hstate, hmapping⟩ := h
  refine ⟨?_, hstate, hmapping⟩
  rw [← hsize]
  exact word32_lt f 8

lemma tablesInside_iff (h : nmbmCheckInfoTableHeader d f) :
    TablesInside d f ↔ OffsetsInOrder d f := by
  obtain ⟨hsize, hstate, hmapping⟩ := nmbmCheckInfoTableHeader_offsets h
  constructor
  · rintro ⟨h1, h2, h3, h4⟩
    exact ⟨h1, h3, by omega, fun _ => h2⟩
  rintro ⟨h1, h2, h3, h4⟩
  rw [sub32_of_le hsize h3] at hmapping
  refine ⟨h1, ?_, h2, by omega⟩
  by_cases horder : tableStateOff f ≤ tableMappingOff f
  · have hlt : tableMappingOff f < 2 ^ 32 := word32_lt f 24
    rw [sub32_of_le hlt horder] at hstate
    omega
  · exact h4 (by omega)

/-- Of the accepted tables, exactly those whose offsets are in order have their state and mapping
tables within their own bytes and behind the header. -/
theorem accepted_tablesInside_iff {ba : Nat} {tableLoaded : Bool} {eba writeCount top : Nat}
    (h : (nmbmTryLoadInfoTable F d ba tableLoaded ni).1 = some (eba, writeCount, top)) :
    TablesInside d (imageAt d ni.chip ba) ↔ OffsetsInOrder d (imageAt d ni.chip ba) := by
  obtain ⟨ni', haccepted, _⟩ := nmbmTryLoadInfoTable_some h
  exact tablesInside_iff haccepted.valid.1

/-! ## Reading without errors -/

def Faults.ReadsOk (F : Faults) : Prop := ∀ t, (F.read t).isError = false

section

variable (hF : F.ReadsOk)
include hF

lemma nmbmReadPhysPage_ok (c : Chip) : (nmbmReadPhysPage F c).1.isError = false := by
  unfold nmbmReadPhysPage nmbmTryCount readTries
  have hok : (c.read F).1.isError = false := hF c.clock
  simp [hok]

lemma readPages_ok (n : Nat) (c : Chip) : (readPages F n c).1 := by
  induction n generalizing c with
  | zero => rfl
  | succ n ih =>
    unfold readPages
    rw [if_neg (by rw [nmbmReadPhysPage_ok hF]; decide)]
    exact ih _

lemma tryLoadLoop_isSome : ∀ (n ba off : Nat) (start : Option Nat) (ni : Nmbm),
    (∀ b, ba ≤ b → b < ba + n → ni.Usable b) → d.infoTableSize ≤ off + n * d.blkSize →
    (start = none → off = 0 ∧ nmbmCheckInfoTableHeader d (imageAt d ni.chip ba)) →
    (tryLoadLoop F d n ba off start ni).1.isSome := by
  have hsize := d.infoTableSize_ge
  have hstarted : ∀ {start : Option Nat} {ba off : Nat} {p : Prop}, (start = none → off = 0 ∧ p) →
    d.infoTableSize ≤ off → (start.map fun s => (s, ba)).isSome := by
    rintro (_ | s) ba off p hnone hoff
    · have := (hnone rfl).1
      omega
    · rfl
  intro n
  induction n with
  | zero =>
    intro ba off start ni _ hroom hnone
    unfold tryLoadLoop
    rw [if_pos (by omega)]
    exact hstarted hnone (by omega)
  | succ n ih =>
    intro ba off start ni hgood hroom hnone
    have hread := readPages_block (F := F)
      ((min d.blkSize (d.infoTableSize - off) + d.pgSize - 1) / d.pgSize) ni.chip
    rw [Nat.succ_mul] at hroom
    obtain ⟨hstate, hmark⟩ := hgood ba (Nat.le_refl _) (by omega)
    unfold tryLoadLoop
    dsimp only
    split_ifs with hdone hbad hisbad hfail hhead
    · exact hstarted hnone hdone
    · exact absurd hstate hbad
    · exact absurd hisbad (by rw [hmark]; decide)
    · exact absurd hfail (by rw [nmbnReadData, readPages_ok hF]; decide)
    · rw [Bool.and_eq_true] at hhead
      obtain ⟨rfl, hheader⟩ := hnone (by simpa using hhead.1)
      rw [nmbnReadData, nmbmCheckInfoTableHeader_firstBlock hread.1, hheader] at hhead
      exact absurd hhead.2 (by decide)
    · refine ih _ _ _ _ (fun b hb hbn => ?_) (by omega) (by rintro ⟨⟩)
      obtain ⟨h1, h2⟩ := hgood b (by omega) (by omega)
      exact ⟨h1, (congrFun hread.2 b).trans h2⟩

lemma nmbmTryLoadInfoTable_isSome {ba : Nat} (tableLoaded : Bool)
    (hgood : ∀ b, ba ≤ b → b < ba + d.infoTableBlocks → ni.Usable b)
    (hvalid : ValidImage d ni.chip ba)
    (hcheck : ∀ ni', LoadFrame ni ni' → ni'.blockState = ni.blockState →
      (∀ i < d.infoTableSize, ni'.infoTableCache i = imageAt d ni.chip ba i) →
      (nmbmCheckInfoTable d ni' ba (ba + d.infoTableBlocks)).isSome) :
    (nmbmTryLoadInfoTable F d ba tableLoaded ni).1.isSome := by
  have hgt := d.infoTableSize_gt
  have hsize := d.infoTableSize_ge
  have hroom := d.infoTableSize_le
  have hframe := tryLoadLoop_frame (F := F) (d := d) d.infoTableBlocks ba 0 none ni
  obtain ⟨⟨start, stop⟩, hloop⟩ := isSome_iff_exists.mp
    (tryLoadLoop_isSome hF _ _ 0 none ni hgood (by omega) fun _ => ⟨rfl, hvalid.1⟩)
  have hread := tryLoadLoop_read _ _ _ _ _ _ hloop (by omega)
  have hstart : start = ba := hread.start
  have hstop : stop = ba + d.infoTableBlocks := hread.stop
  have hcache : ∀ i < d.infoTableSize,
      (tryLoadLoop F d d.infoTableBlocks ba 0 none ni).2.infoTableCache i =
        imageAt d ni.chip ba i := by
    intro i hi
    rw [hread.body i (Nat.zero_le _) hi, Nat.sub_zero]
    rfl
  have hcrc : nmbmCheckHeader (tryLoadLoop F d d.infoTableBlocks ba 0 none ni).2.infoTableCache
      d.infoTableSize := by
    rw [nmbmCheckHeader_congr (by omega) hcache]
    exact hvalid.2
  obtain ⟨top, htop⟩ := isSome_iff_exists.mp (hcheck _ hframe hread.media hcache)
  unfold nmbmTryLoadInfoTable
  dsimp only
  rw [hloop]
  dsimp only
  rw [if_neg (by rw [hcrc]; decide), hstart, hstop, htop]
  rfl

end

/-! ## The check of the mapping -/

section Check

variable {f : Nat → Nat} (hcache : ∀ i < d.infoTableSize, ni.infoTableCache i = f i)
include hcache

lemma word32_cacheMem {off : Nat} (hoff : off + 4 ≤ d.infoTableSize) :
    word32 (ni.cacheMem d) off = word32 f off := by
  apply word32_congr
  intro k hk
  unfold Nmbm.cacheMem
  rw [if_pos (by omega), hcache _ (by omega)]

lemma memMapping_cacheMem {i : Nat} (hi : tableMappingOff f + 4 * i + 4 ≤ d.infoTableSize) :
    memMapping (ni.cacheMem d) i = memMapping f i := by
  have hsize := d.infoTableSize_ge
  unfold memMapping
  rw [word32_cacheMem hcache (show 24 + 4 ≤ _ by omega)]
  exact word32_cacheMem hcache hi

lemma memState_cacheMem {b : Nat} (hb : tableStateOff f + b / 4 < d.infoTableSize) :
    memState (ni.cacheMem d) b = memState f b := by
  have hsize := d.infoTableSize_ge
  unfold memState field2
  rw [word32_cacheMem hcache (show 20 + 4 ≤ _ by omega)]
  dsimp only
  rw [show ni.cacheMem d (word32 f 20 + b / 4) = f (word32 f 20 + b / 4) from
    (if_pos hb).trans (hcache _ hb)]

end Check

lemma checkMappingLoop_congr {m m' : Nat → Nat} {dataBlockCount stop signatureBa : Nat}
    (n ba minimum : Nat) (h : ∀ i < ba + n, m i = m' i) :
    checkMappingLoop m dataBlockCount stop signatureBa n ba minimum =
      checkMappingLoop m' dataBlockCount stop signatureBa n ba minimum := by
  induction n generalizing ba minimum with
  | zero => rfl
  | succ n ih =>
    unfold checkMappingLoop
    rw [h ba (by omega)]
    split_ifs
    · rfl
    · exact ih _ _ fun i hi => h i (by omega)
    · exact ih _ _ fun i hi => h i (by omega)

structure MappingOk (d : NmbmDev) (ni : Nmbm) (start stop : Nat) (f : Nat → Nat) : Prop where
  mapping : (checkMappingLoop (memMapping f) ni.dataBlockCount stop ni.signatureBa ni.dataBlockCount
    0
    ni.signatureBa).isSome
  mapping_le : tableMappingOff f + 4 * ni.dataBlockCount ≤ d.infoTableSize
  state : ∀ b, start ≤ b → b < stop → memState f b = .good
  state_lt : ∀ b, start ≤ b → b < stop → tableStateOff f + b / 4 < d.infoTableSize

lemma MappingOk.isSome {start stop : Nat} {f : Nat → Nat} (h : MappingOk d ni start stop f)
    {ni' : Nmbm}
    (hdata : ni'.dataBlockCount = ni.dataBlockCount) (hsig : ni'.signatureBa = ni.signatureBa)
    (hcache : ∀ i < d.infoTableSize, ni'.infoTableCache i = f i) :
    (nmbmCheckInfoTable d ni' start stop).isSome := by
  obtain ⟨minimum, hmin⟩ := isSome_iff_exists.mp h.mapping
  have hle := h.mapping_le
  have hloop : checkMappingLoop (memMapping (ni'.cacheMem d)) ni.dataBlockCount stop ni.signatureBa
      ni.dataBlockCount 0 ni.signatureBa = some minimum := by
    rw [← hmin]
    exact checkMappingLoop_congr _ _ _ fun i hi => memMapping_cacheMem hcache (by omega)
  have hall : (List.range (stop - start)).all (fun k =>
      ni'.blockState (start + k) ≠ .good || memState (ni'.cacheMem d) (start + k) = .good) := by
    rw [List.all_eq_true]
    intro k hk
    have hlt := List.mem_range.mp hk
    rw [memState_cacheMem hcache (h.state_lt _ (by omega) (by omega)),
      h.state _ (by omega) (by omega)]
    simp
  unfold nmbmCheckInfoTable
  dsimp only
  rw [hdata, hsig, hloop]
  dsimp only
  rw [if_pos hall]
  rfl

/-! ## The bytes of a table -/

section TableBytes

variable {t : InfoTable} {st : Nat → BlockState} {m : Nat → Nat}

lemma tableBytes_lt (i : Nat) : tableBytes d t st m i < 256 := by
  unfold tableBytes rawTable
  split_ifs
  · exact byteOf_lt _ _
  · exact byteOf_lt _ _
  · exact byteOf_lt _ _
  · exact pack2_lt (fun b => (st b).toBits_lt) _
  · decide

end TableBytes

/-! ## A state table in the header -/

def fourBlocks : NmbmDev where
  blkShift := 8
  pgShift := 6
  totalBlks := 4
  remapRange := []
  pgShift_le := by decide
  totalBlks_lt := by decide
  oobSize := 16
  maxRatio := 8
  maxReservedBlocks := 0
  emptyPageEccOk := false
  forceCreate := false
  maxRatio_le := by decide
  pgShift_ge := by decide

def sampleTable (off : Nat) : Nat → Nat :=
    tableBytes fourBlocks ⟨1, off, 128, 0⟩ (fun _ => .good) id

def sampleChip (off : Nat) : Chip where
  block := fun b => if b = 1 then ⟨sampleTable off, fun _ _ => 0xff⟩ else .erased
  isBad := fun _ => false
  clock := 0
  trace := []

def sample (off : Nat) : Nmbm :=
  { nmbmInitStructure fourBlocks (fun _ => 0) (sampleChip off)
    with dataBlockCount := 1, signatureBa := 3 }

/-- The table that `nmbm_init_structure` lays out is accepted, and its tables are inside. -/
theorem accepted_tablesInside_regular : ∃ eba writeCount top,
    (nmbmTryLoadInfoTable .none fourBlocks 1 false (sample 64)).1 = some (eba, writeCount, top) ∧
      TablesInside fourBlocks (imageAt fourBlocks (sample 64).chip 1) := by
  have hsome : (nmbmTryLoadInfoTable .none fourBlocks 1 false (sample 64)).1.isSome :=
    by decide +kernel
  obtain ⟨⟨eba, writeCount, top⟩, h⟩ := isSome_iff_exists.mp hsome
  refine ⟨eba, writeCount, top, h, (accepted_tablesInside_iff h).mpr ⟨?_, ?_, ?_, ?_⟩⟩
  all_goals decide +kernel

/-- A table with a valid checksum is accepted although its state table overlaps the header. -/
theorem accepted_state_table_in_header :
    nmbmCheckHeader (imageAt fourBlocks (sample 0).chip 1) fourBlocks.infoTableSize ∧
      (nmbmTryLoadInfoTable .none fourBlocks 1 false (sample 0)).1.isSome ∧
      ¬ TablesInside fourBlocks (imageAt fourBlocks (sample 0).chip 1) := by
  -- the first byte of the magic number makes the state of block 1 a good one
  refine ⟨by decide +kernel, by decide +kernel, fun hinside => ?_⟩
  exact absurd hinside.state_ge (by decide +kernel)

end SourceMaster.Nand
