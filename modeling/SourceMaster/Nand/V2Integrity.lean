import SourceMaster.Nand.V2Scan
import Mathlib.Logic.Relation

/-!
# The mapping of the BMT v2 manager over whole runs

The invariant: the mapping is injective, the pool entries up to the one of the BMT are different
blocks, and an entry that is not flagged as mapped is not in use. A scan of the chip establishes it,
an upload keeps it for the entries that are left, and a remap keeps it as long as there is a BMT.
When an upload has failed on all entries, `bmt_blk_idx` is `0xffff`; the next remap takes it for the
number of pool entries and reads on behind the table.
-/

namespace SourceMaster.Nand

open Option V2Dev Nat

variable {F : Faults} {d : V2Dev}

structure TableInv (d : V2Dev) (mem : Nat → Nat) (n : Nat) : Prop where
  injective : ∀ i < d.poolLba, ∀ k < d.poolLba, bbTbl mem i = bbTbl mem k → i = k
  distinct : ∀ j < n, ∀ k < n, d.bmtBlock mem j = d.bmtBlock mem k → j = k
  unused : ∀ j < n, d.bmtMapped mem j ≠ normalMapped →
    ∀ i < d.poolLba, bbTbl mem i ≠ d.bmtBlock mem j

variable {mem : Nat → Nat} {i idx : Nat} {s : V2} {j : Nat} {s' : V2} {n : Nat} {block : Nat}

lemma TableInv.of_eq {mem' : Nat → Nat} {n' : Nat} (h : TableInv d mem n) (hn : n' ≤ n)
    (hbb : ∀ i < d.poolLba, bbTbl mem' i = bbTbl mem i)
    (hblock : ∀ j < n', d.bmtBlock mem' j = d.bmtBlock mem j)
    (hmapped : ∀ j < n', d.bmtMapped mem' j = d.bmtMapped mem j) : TableInv d mem' n' := by
  refine ⟨?_, ?_, ?_⟩
  · intro i hi k hk heq
    rw [hbb i hi, hbb k hk] at heq
    exact h.injective i hi k hk heq
  · intro j hj k hk heq
    rw [hblock j hj, hblock k hk] at heq
    exact h.distinct j (by omega) k (by omega) heq
  · intro j hj hm i hi
    rw [hmapped j hj] at hm
    rw [hbb i hi, hblock j hj]
    exact h.unused j (by omega) hm i hi

lemma Scanned.tableInv (h : Scanned d mem idx) : TableInv d mem (idx + 1) := by
  refine ⟨eq_of_ascending h.logical_lt, eq_of_ascending ?_, ?_⟩
  · intro j k hjk hk
    exact h.pool_lt j k hjk (Nat.le_of_lt_succ hk)
  · intro j hj _ i hi
    exact Nat.ne_of_lt (h.behind i hi j (Nat.le_of_lt_succ hj))

/-! ## Uploading -/

lemma uploadBmt_bbTbl (hi : i < d.tableSize) (n : Nat) (s : V2) :
    bbTbl (uploadBmt F d n s).2.mem i = bbTbl s.mem i := by
  induction n generalizing s with
  | zero => rfl
  | succ n ih =>
    unfold uploadBmt
    dsimp only
    split_ifs
    · rfl
    · rw [ih]
      exact setBmtBlock_bbTbl hi ..
    · rw [ih]
      exact (setBmtBlock_bbTbl hi ..).trans (signMem_bbTbl ..)
    · exact signMem_bbTbl ..

lemma uploadBmt_inv (hpool : d.poolLba ≤ d.tableSize) (n : Nat) (s : V2)
    (hinv : TableInv d s.mem n) :
    (uploadBmt F d n s).1 ≠ noIndex →
    TableInv d (uploadBmt F d n s).2.mem ((uploadBmt F d n s).1 + 1) ∧
      d.bmtMapped (uploadBmt F d n s).2.mem (uploadBmt F d n s).1 ≠ normalMapped := by
  induction n generalizing s with
  | zero =>
    intro h
    exact absurd rfl h
  | succ n ih =>
    -- a failed entry is cleared and left behind
    have hclear : ∀ mem, (∀ i, bbTbl mem i = bbTbl s.mem i) →
        (∀ j, d.bmtBlock mem j = d.bmtBlock s.mem j) →
        (∀ j, d.bmtMapped mem j = d.bmtMapped s.mem j) → TableInv d (d.setBmtBlock mem n 0) n := by
      intro mem hbb hblock hmapped
      apply hinv.of_eq (le_succ n)
      · intro i hi
        rw [setBmtBlock_bbTbl (by omega), hbb]
      · intro j hj
        rw [setBmtBlock_bmtBlock_of_ne d (by omega), hblock]
      · intro j _
        rw [setBmtBlock_bmtMapped, hmapped]
    unfold uploadBmt
    dsimp only
    split_ifs with hm he hw
    · intro h
      exact absurd rfl h
    · exact ih _ (hclear _ (fun _ => rfl) (fun _ => rfl) (fun _ => rfl))
    · exact ih _ (hclear _ (signMem_bbTbl _) (signMem_bmtBlock d _) (signMem_bmtMapped d _))
    · intro _
      refine ⟨hinv.of_eq (le_refl _) ?_ ?_ ?_, ?_⟩
      · exact fun i _ => signMem_bbTbl ..
      · exact fun j _ => signMem_bmtBlock ..
      · exact fun j _ => signMem_bmtMapped ..
      · rw [signMem_bmtMapped]
        exact hm

/-! ## Remapping -/

lemma findInPool_spec (n i j : Nat) (h : findInPool d mem n i = some j) :
    j < i + n ∧ d.bmtMapped mem j = noMapped := by
  induction n generalizing i j with
  | zero => exact absurd h (by simp [findInPool])
  | succ n ih =>
    unfold findInPool at h
    split_ifs at h with hfree
    · cases some.inj h
      exact ⟨by omega, hfree.2⟩
    · obtain ⟨hlt, hmapped⟩ := ih (i + 1) j h
      exact ⟨by omega, hmapped⟩

lemma findValidBlockInPool_spec (h : findValidBlockInPool d s = some j) :
    j < s.bmtBlkIdx ∧ d.bmtMapped s.mem j = noMapped := by
  unfold findValidBlockInPool at h
  split_ifs at h
  obtain ⟨hlt, hfree⟩ := findInPool_spec _ _ _ h
  exact ⟨by omega, hfree⟩

lemma takePoolBlock_inv (hpool : d.poolLba ≤ d.tableSize) (hinv : TableInv d s.mem n)
    (hj : j < n) (hfree : d.bmtMapped s.mem j = noMapped) (hblock : block < d.tableSize)
    (mappedBlock copyLen : Nat) :
    TableInv d (takePoolBlock F d s j block mappedBlock copyLen).mem n := by
  show TableInv d (setBbTbl (d.setBmtMapped s.mem j normalMapped) block _) n
  have hbb : ∀ i < d.poolLba, i ≠ block → bbTbl (setBbTbl
      (d.setBmtMapped s.mem j normalMapped) block (d.bmtBlock s.mem j)) i = bbTbl s.mem i := by
    intro i hi hne
    rw [setBbTbl_bbTbl_of_ne hne, setBmtMapped_bbTbl (by omega)]
  -- the new block is in use nowhere else
  have hnew : ∀ i < d.poolLba, bbTbl s.mem i ≠ d.bmtBlock s.mem j :=
    hinv.unused j hj (by rw [hfree]; decide)
  refine ⟨?_, ?_, ?_⟩
  · intro i hi k hk heq
    by_cases hib : i = block <;> by_cases hkb : k = block
    · rw [hib, hkb]
    · subst hib
      rw [setBbTbl_bbTbl_self, hbb k hk hkb] at heq
      exact absurd heq.symm (hnew k hk)
    · subst hkb
      rw [setBbTbl_bbTbl_self, hbb i hi hib] at heq
      exact absurd heq (hnew i hi)
    · rw [hbb i hi hib, hbb k hk hkb] at heq
      exact hinv.injective i hi k hk heq
  · intro k hk l hl heq
    simp only [setBbTbl_bmtBlock hblock, setBmtMapped_bmtBlock] at heq
    exact hinv.distinct k hk l hl heq
  · intro k hk hm i hi
    rw [setBbTbl_bmtMapped hblock] at hm
    rw [setBbTbl_bmtBlock hblock, setBmtMapped_bmtBlock]
    have hkj : k ≠ j := by
      intro hkj
      rw [hkj, setBmtMapped_bmtMapped_self] at hm
      exact hm rfl
    rw [setBmtMapped_bmtMapped_of_ne d hkj] at hm
    by_cases hib : i = block
    · subst hib
      rw [setBbTbl_bbTbl_self]
      exact fun heq => hkj (hinv.distinct j hj k hk heq).symm
    · rw [hbb i hi hib]
      exact hinv.unused k hk hm i hi

lemma remapBlockV2_bbTbl (s : V2) (hi : i < d.tableSize) (hne : i ≠ block)
    (mappedBlock copyLen : Nat) :
    bbTbl (remapBlockV2 F d s block mappedBlock copyLen).2.mem i = bbTbl s.mem i := by
  unfold remapBlockV2
  split
  next => rfl
  next j hj =>
    rw [uploadBmt_bbTbl hi]
    show bbTbl (setBbTbl _ block _) i = _
    rw [setBbTbl_bbTbl_of_ne hne, setBmtMapped_bbTbl hi]

/-! ## Runs -/

structure MappingIntegrity (d : V2Dev) (s : V2) : Prop where
  injective : ∀ i < d.poolLba, ∀ k < d.poolLba, bbTbl s.mem i = bbTbl s.mem k → i = k
  bmt_unmapped : s.bmtBlkIdx ≠ noIndex →
    ∀ i < d.poolLba, bbTbl s.mem i ≠ d.bmtBlock s.mem s.bmtBlkIdx

/-- No two logical blocks that are in a range are read from the same block of the chip, and none is
read from that of the BMT. -/
theorem MappingIntegrity.getMappingBlockIndexV2 (h : MappingIntegrity d s) (hi : i < d.poolLba)
    (hrange : (d.mappingBlockInRange i).isSome) :
    (s.bmtBlkIdx ≠ noIndex →
      Nand.getMappingBlockIndexV2 d s i ≠ d.bmtBlock s.mem s.bmtBlkIdx) ∧
    ∀ k < d.poolLba, (d.mappingBlockInRange k).isSome →
      Nand.getMappingBlockIndexV2 d s i = Nand.getMappingBlockIndexV2 d s k → i = k := by
  have hindex : ∀ k < d.poolLba, (d.mappingBlockInRange k).isSome →
      Nand.getMappingBlockIndexV2 d s k = bbTbl s.mem k := by
    intro k hk hk'
    rw [Nand.getMappingBlockIndexV2, if_neg (by omega), if_neg]
    rw [← not_isSome, hk']
    decide
  rw [hindex i hi hrange]
  refine ⟨fun hidx => h.bmt_unmapped hidx i hi, fun k hk hk' heq => ?_⟩
  rw [hindex k hk hk'] at heq
  exact h.injective i hi k hk heq

/-- The invariant of a run: once no BMT is left, only the injectivity remains. -/
structure V2Inv (d : V2Dev) (s : V2) : Prop where
  injective : ∀ i < d.poolLba, ∀ k < d.poolLba, bbTbl s.mem i = bbTbl s.mem k → i = k
  table : s.bmtBlkIdx ≠ noIndex → TableInv d s.mem (s.bmtBlkIdx + 1) ∧
    d.bmtMapped s.mem s.bmtBlkIdx ≠ normalMapped

lemma V2Inv.integrity (h : V2Inv d s) : MappingIntegrity d s := by
  refine ⟨h.injective, ?_⟩
  intro hidx
  obtain ⟨htable, hbmt⟩ := h.table hidx
  exact htable.unused _ (lt_succ_self _) hbmt

lemma V2Inv.of_upload (hpool : d.poolLba ≤ d.tableSize) (h : TableInv d s.mem n) :
    V2Inv d { (uploadBmt F d n s).2 with bmtBlkIdx := (uploadBmt F d n s).1 } := by
  refine ⟨?_, ?_⟩
  · intro i hi k hk heq
    rw [uploadBmt_bbTbl (by omega), uploadBmt_bbTbl (by omega)] at heq
    exact h.injective i hi k hk heq
  · intro hidx
    exact uploadBmt_inv hpool n s h hidx

/-- A remap of a block of the table, while there is a BMT. -/
def RemapStep (F : Faults) (d : V2Dev) (s s' : V2) : Prop :=
  s.bmtBlkIdx ≠ noIndex ∧ ∃ block < d.tableSize, ∃ mappedBlock copyLen,
    s' = (remapBlockV2 F d s block mappedBlock copyLen).2

lemma V2Inv.step (hpool : d.poolLba ≤ d.tableSize) {s s' : V2} (h : V2Inv d s)
    (hstep : RemapStep F d s s') : V2Inv d s' := by
  obtain ⟨hidx, block, hblock, mappedBlock, copyLen, rfl⟩ := hstep
  unfold remapBlockV2
  split
  next => exact h
  next j hj =>
    obtain ⟨hlt, hfree⟩ := findValidBlockInPool_spec hj
    obtain ⟨htable, _⟩ := h.table hidx
    exact V2Inv.of_upload hpool
      (takePoolBlock_inv hpool htable (by omega) hfree hblock mappedBlock copyLen)

lemma V2Inv.run (hpool : d.poolLba ≤ d.tableSize) (h : V2Inv d s)
    (hrun : Relation.ReflTransGen (RemapStep F d) s s') : V2Inv d s' := by
  induction hrun with
  | refl => exact h
  | tail _ hstep ih => exact ih.step hpool hstep

/-! ## The first state -/

lemma findBmt_spec (n : Nat) (s s' : V2) (found : Bool) (h : findBmt F d n s = some (found, s')) :
    s'.chip.block = s.chip.block ∧
      (found → ∃ b mem, d.poolLba ≤ b ∧ b < d.poolLba + n ∧ s'.mem = d.load (s.chip.block b) mem ∧
      isValidBmt d s'.mem (s.chip.block b) ∧ getBmtIndex d s'.mem (2 ^ 16) 0 = some s'.bmtBlkIdx ∧
      s'.bmtBlkIdx ≠ 0) := by
  induction n generalizing s s' found with
  | zero =>
    cases some.inj h
    exact ⟨rfl, nofun⟩
  | succ n ih =>
    unfold findBmt at h
    dsimp only at h
    split_ifs at h with hskip
    · obtain ⟨hblock, hfound⟩ := ih _ s' found h
      refine ⟨hblock, fun hf => ?_⟩
      obtain ⟨b, mem, hle, hlt, hrest⟩ := hfound hf
      exact ⟨b, mem, hle, by omega, hrest⟩
    · split at h
      next => cases h
      next idx hidx =>
        cases some.inj h
        refine ⟨rfl, fun hf => ⟨d.poolLba + n, s.mem, by omega, by omega, rfl, ?_, hidx, ?_⟩⟩
        · have hvalid := hskip
          simp only [Bool.or_eq_true, Bool.not_eq_true', not_or, Bool.not_eq_false] at hvalid
          exact hvalid.2
        · exact of_decide_eq_true hf

lemma getBmtIndex_bmtMapped (hidx : idx ≠ 0) (n i : Nat) (h : getBmtIndex d mem n i = some idx) :
    d.bmtMapped mem idx = bmtMappedVal := by
  induction n generalizing i with
  | zero => exact absurd h (by simp [getBmtIndex])
  | succ n ih =>
    unfold getBmtIndex at h
    split_ifs at h with hend hbmt
    · exact absurd (some.inj h).symm hidx
    · cases some.inj h
      exact hbmt
    · exact ih (i + 1) h

/-- Whatever passes for a BMT on the chip has consistent tables. -/
def StoredTablesOk (d : V2Dev) (c : Chip) : Prop :=
  ∀ b, d.poolLba ≤ b → b < d.totalBlks → ∀ mem idx,
    isValidBmt d (d.load (c.block b) mem) (c.block b) →
    getBmtIndex d (d.load (c.block b) mem) (2 ^ 16) 0 = some idx → idx ≠ 0 →
    TableInv d (d.load (c.block b) mem) (idx + 1)

lemma createBmt_inv (hpool : d.poolLba ≤ d.tableSize) (h : createBmt F d s = some s') :
    V2Inv d s' := by
  unfold createBmt at h
  dsimp only at h
  split_ifs at h
  split at h
  next => cases h
  next s1 hscan =>
    split_ifs at h
    cases some.inj h
    exact V2Inv.of_upload hpool (scanBadBlocks_spec hpool hscan).1.tableInv

lemma mtkBmtInitV2_inv (hpool : d.poolLba ≤ d.tableSize) {c : Chip} (hflash : StoredTablesOk d c)
    (h : mtkBmtInitV2 F d mem c = some s) : V2Inv d s := by
  unfold mtkBmtInitV2 at h
  dsimp only at h
  split at h
  next => cases h
  next s1 hfind =>
    cases some.inj h
    obtain ⟨b, mem', hle, hlt, hmem, hvalid, hidx, hne⟩ := (findBmt_spec _ _ _ _ hfind).2 rfl
    have htable : TableInv d s.mem (s.bmtBlkIdx + 1) := by
      rw [hmem] at hvalid hidx ⊢
      exact hflash b hle (by omega) mem' _ hvalid hidx hne
    refine ⟨htable.injective, fun _ => ⟨htable, ?_⟩⟩
    rw [getBmtIndex_bmtMapped hne _ _ hidx]
    decide
  next s1 hfind => exact createBmt_inv hpool h

/-- The mapping keeps its integrity as long as every remap finds a BMT, whatever fails on the chip;
a remap never changes the mapping of another block. -/
theorem v2_mapping_integrity (hpool : d.poolLba ≤ d.tableSize) {mem : Nat → Nat} {c : Chip}
    {s s' : V2} (hflash : StoredTablesOk d c) (hinit : mtkBmtInitV2 F d mem c = some s)
    (hrun : Relation.ReflTransGen (RemapStep F d) s s') :
    MappingIntegrity d s' ∧ ∀ block mappedBlock copyLen, ∀ i < d.poolLba, i ≠ block →
      bbTbl (remapBlockV2 F d s' block mappedBlock copyLen).2.mem i = bbTbl s'.mem i := by
  refine ⟨((mtkBmtInitV2_inv hpool hflash hinit).run hpool hrun).integrity, ?_⟩
  intro block mappedBlock copyLen i hi hne
  exact remapBlockV2_bbTbl s' (by omega) hne mappedBlock copyLen

/-! ## A chip of five blocks -/

def fiveBlocks : V2Dev where
  blkShift := 7
  pgShift := 2
  totalBlks := 5
  remapRange := []
  pgShift_le := by decide
  totalBlks_lt := by decide
  tableSize := 5
  poolLba := 2
  oobOffset := 0
  poolLba_pos := Nat.zero_lt_two
  poolLba_le := by decide
  table_fits := by decide
  size_le := by decide

def blankChip : Chip := ⟨fun _ => .erased, fun _ => false, 0, []⟩

lemma blankChip_not_valid (d : V2Dev) (mem : Nat → Nat) (b : Nat) :
    isValidBmt d mem (blankChip.block b) = false := by
  simp [isValidBmt, fdm, blankChip, Block.erased]

theorem v2_mapping_integrity_fiveBlocks :
    ∃ s, mtkBmtInitV2 .none fiveBlocks (fun _ => 0) blankChip = some s ∧
    MappingIntegrity fiveBlocks (remapBlockV2 .none fiveBlocks s 1 1 0).2 := by
  have hsome : ((mtkBmtInitV2 .none fiveBlocks (fun _ => 0) blankChip).map V2.bmtBlkIdx) =
    some 2 := by
    decide +kernel
  obtain ⟨s, hinit, hidx⟩ := map_eq_some_iff.mp hsome
  have hflash : StoredTablesOk fiveBlocks blankChip := by
    intro b _ _ mem idx hvalid
    rw [blankChip_not_valid] at hvalid
    cases hvalid
  have hstep : RemapStep .none fiveBlocks s (remapBlockV2 .none fiveBlocks s 1 1 0).2 :=
    ⟨by rw [hidx]; decide, 1, by decide, 1, 0, rfl⟩
  exact ⟨s, hinit, (v2_mapping_integrity (by decide) hflash hinit (.single hstep)).1⟩

def uploadFails : Faults :=
  ⟨fun t => if t = 10 ∨ t = 11 then some .erased else none, fun _ => none, fun _ => .ok 0, fun _ =>
    none⟩

def strayEntry : Nat → Nat := fun w => if w = 17 then 2 else 0

/-- The first remap takes block 2, and its upload fails. The second one finds the stray entry: both
logical blocks are at block 2. -/
theorem remapBlockV2_reads_behind_table : ∃ s0 s1 s2,
    mtkBmtInitV2 uploadFails fiveBlocks strayEntry blankChip = some s0 ∧
    remapBlockV2 uploadFails fiveBlocks s0 0 0 0 = (true, s1) ∧
    remapBlockV2 uploadFails fiveBlocks s1 1 1 0 = (true, s2) ∧
    bbTbl s2.mem 0 = bbTbl s2.mem 1 := by
  have hrun : (mtkBmtInitV2 uploadFails fiveBlocks strayEntry blankChip).map (fun s0 =>
      let r1 := remapBlockV2 uploadFails fiveBlocks s0 0 0 0
      let r2 := remapBlockV2 uploadFails fiveBlocks r1.2 1 1 0
      (r1.1, r2.1, bbTbl r2.2.mem 0, bbTbl r2.2.mem 1)) = some (true, true, 2, 2) := by
    decide +kernel
  obtain ⟨s0, hinit, h⟩ := map_eq_some_iff.mp hrun
  simp only [Prod.mk.injEq] at h
  obtain ⟨h1, h2, h3, h4⟩ := h
  exact ⟨s0, _, _, hinit, Prod.ext h1 rfl, Prod.ext h2 rfl, h3.trans h4.symm⟩

end SourceMaster.Nand
