import SourceMaster.Nand.V2Integrity

/-!
# What a restart of the BMT v2 manager finds

A restart takes the first block from the end that looks like a table, and the index of the BMT is
that of the pool entry with the flag `BMT_MAPPED`. As long as an upload writes the block it tries
first, this finds the table of the last upload (`Stored`). An upload that falls back to a lower
entry clears the block of the flagged entry and does not move the flag, so that the restart discards
the table and scans the chip again.
-/

namespace SourceMaster.Nand

open Function Option V2Dev Nat Chip

variable {F : Faults} {d : V2Dev}

/-! ## Words and bytes -/

def Words (d : V2Dev) (mem : Nat → Nat) : Prop := ∀ w < d.bufWords, mem w < 2 ^ 16

variable {mem' : Nat → Nat} {s' : V2} {c c' : Chip} {mem : Nat → Nat} {idx : Nat} {s : V2}

lemma Words.update {v : Nat} (h : Words d mem) (hv : v < 2 ^ 16) (a : Nat) :
    Words d (update mem a v) := by
  intro w hw
  by_cases hwa : w = a
  · rw [hwa, update_self]
    exact hv
  · rw [update_of_ne hwa]
    exact h w hw

lemma Words.sign (h : Words d mem) : Words d (signMem mem) :=
    (h.update (by decide) 0).update (by decide) 1

lemma words_load (blk : Block) (mem : Nat → Nat) : Words d (d.load blk mem) := by
  intro w hw
  unfold load
  rw [if_pos hw]
  omega

lemma load_program (h : Words d mem) (blk : Block) (mem' : Nat → Nat) {w : Nat}
    (hw : w < d.bufWords) : d.load (blk.program 0 d.bufSz (toBytes mem)) mem' w = mem w := by
  have hlt := h w hw
  have hsz : 2 * w + 1 < d.bufSz := by
    unfold bufWords at hw
    omega
  unfold load Block.program
  dsimp only
  rw [if_pos hw, if_pos (by omega), if_pos (by omega), Nat.sub_zero, Nat.sub_zero]
  -- an even byte is the low half of its word, an odd one the high half
  have heven : toBytes mem (2 * w) = mem w % 256 := by
    unfold toBytes
    rw [if_pos (by omega), Nat.mul_div_cancel_left _ (by decide)]
  have hodd : toBytes mem (2 * w + 1) = mem w / 256 % 256 := by
    unfold toBytes
    rw [if_neg (by omega), show (2 * w + 1) / 2 = w from by omega]
  omega

lemma findValidBlock_lt (n block : Nat) (c : Chip) :
    (findValidBlock F d n block c).1 < 2 ^ 16 := by
  have htotal := d.totalBlks_lt
  by_cases h : (findValidBlock F d n block c).1 = 0
  · omega
  · exact lt_trans (findValidBlock_spec n block c h).2 htotal

lemma scanLogical_words (n i : Nat) (s s' : V2) (h : Words d s.mem) 
    (heq : (scanLogical F d n i s).result = some s') : Words d s'.mem := by
  induction n generalizing i s s' with
  | zero =>
    cases some.inj heq
    exact h
  | succ n ih =>
    rw [scanLogical_result] at heq
    dsimp only at heq
    split_ifs at heq
    exact ih _ _ _ (h.update (findValidBlock_lt ..) _) heq

lemma scanPool_words (n i block : Nat) (s : V2) (h : Words d s.mem) :
    Words d (scanPool F d n i block s).s.mem := by
  induction n generalizing i block s with
  | zero => exact h
  | succ n ih =>
    unfold scanPool
    dsimp only
    split_ifs
    · exact h
    · exact ih _ _ _ ((h.update (findValidBlock_lt ..) _).update (by decide) _)

lemma scanBadBlocks_words (h : Words d s.mem)
    (hscan : (scanBadBlocks F d s).result = some s') : Words d s'.mem := by
  rw [scanBadBlocks_result] at hscan
  dsimp only at hscan
  split at hscan
  next => cases hscan
  next s1 hlog =>
    split_ifs at hscan
    cases some.inj hscan
    have h1 : Words d s1.mem := scanLogical_words _ _ _ _ (h.update (by decide) _) hlog
    exact (scanPool_words _ _ _ s1 h1).update (by decide) _

lemma findBmt_words (n : Nat) (s s' : V2) (found : Bool) (h : Words d s.mem)
    (heq : findBmt F d n s = some (found, s')) : Words d s'.mem := by
  induction n generalizing s s' found with
  | zero =>
    cases some.inj heq
    exact h
  | succ n ih =>
    unfold findBmt at heq
    dsimp only at heq
    split_ifs at heq
    · exact ih _ _ _ (words_load _ _) heq
    split at heq
    next => cases heq
    next =>
      cases some.inj heq
      exact words_load _ _

/-! ## A table on the chip -/

def NoTable (d : V2Dev) (blk : Block) : Prop := ∀ mem, isValidBmt d (d.load blk mem) blk = false

/-- A restart finds the BMT at entry `idx`, once it is written there. -/
structure Placed (d : V2Dev) (mem : Nat → Nat) (idx : Nat) (c : Chip) : Prop where
  words : Words d mem
  idx_ne : idx ≠ 0
  idx_lt : idx < 2 ^ 16
  /-- The entries up to `idx` lie in the buffer. -/
  inside : 2 + d.tableSize + 2 * (idx + 1) ≤ d.bufWords
  below : ∀ j < idx, d.bmtBlock mem j ≠ 0 ∧ d.bmtMapped mem j ≠ bmtMappedVal ∧
    d.bmtBlock mem j < d.bmtBlock mem idx
  bmt : d.bmtMapped mem idx = bmtMappedVal
  poolLba_le : d.poolLba ≤ d.bmtBlock mem idx
  lt_total : d.bmtBlock mem idx < d.totalBlks
  above : ∀ b, d.bmtBlock mem idx < b → b < d.totalBlks → NoTable d (c.block b)

/-- The tables in the memory are on the chip, in the block of entry `idx`. -/
structure Stored (d : V2Dev) (mem : Nat → Nat) (idx : Nat) (c : Chip) : Prop
    extends Placed d mem idx c where
  image : ∀ mem', ∀ w < d.bufWords, d.load (c.block (d.bmtBlock mem idx)) mem' w = mem w
  valid : isValidBmt d mem (c.block (d.bmtBlock mem idx))

lemma Placed.of_eq (h : Placed d mem idx c) (hwords : Words d mem')
    (hblock : ∀ j ≤ idx, d.bmtBlock mem' j = d.bmtBlock mem j)
    (hmapped : ∀ j ≤ idx, d.bmtMapped mem' j = bmtMappedVal ↔ d.bmtMapped mem j = bmtMappedVal)
    (habove : ∀ b, d.bmtBlock mem idx < b → b < d.totalBlks → c'.block b = c.block b) :
    Placed d mem' idx c' := by
  have hself := hblock idx (le_refl _)
  refine ⟨hwords, h.idx_ne, h.idx_lt, h.inside, ?_, (hmapped idx (le_refl _)).mpr h.bmt, ?_, ?_, ?_⟩
  · intro j hj
    obtain ⟨h1, h2, h3⟩ := h.below j hj
    rw [hblock j (le_of_lt hj), hself]
    exact ⟨h1, fun hm => h2 ((hmapped j (le_of_lt hj)).mp hm), h3⟩
  · rw [hself]
    exact h.poolLba_le
  · rw [hself]
    exact h.lt_total
  · intro b hb hbt
    rw [hself] at hb
    rw [habove b hb hbt]
    exact h.above b hb hbt

lemma Stored.of_eq (h : Stored d mem idx c) (hmem : ∀ w < d.bufWords, mem' w = mem w)
    (hc : c'.block = c.block) : Stored d mem' idx c' := by
  have hin := h.inside
  have hblock : ∀ j ≤ idx, d.bmtBlock mem' j = d.bmtBlock mem j := fun j hj => hmem _ (by omega)
  have hmapped : ∀ j ≤ idx, d.bmtMapped mem' j = d.bmtMapped mem j := fun j hj => hmem _ (by omega)
  refine ⟨h.toPlaced.of_eq ?_ hblock ?_ (fun b _ _ => by rw [hc]), ?_, ?_⟩
  · intro w hw
    rw [hmem w hw]
    exact h.words w hw
  · intro j hj
    rw [hmapped j hj]
  · intro mem'' w hw
    rw [hc, hblock idx (le_refl _), hmem w hw]
    exact h.image mem'' w hw
  · have hvalid := h.valid
    unfold isValidBmt at hvalid ⊢
    rw [hc, hblock idx (le_refl _), hmem 0 (by omega), hmem 1 (by omega)]
    exact hvalid

/-! ## Restarting -/

/-- The read of block `b` when a restart comes to it succeeds. -/
def Readable (F : Faults) (d : V2Dev) (c : Chip) (b : Nat) : Prop :=
  (F.read (c.clock + (d.totalBlks - 1 - b))).isOk

lemma getBmtIndex_eq (hidx : d.bmtBlock mem idx ≠ 0) (hbmt : d.bmtMapped mem idx = bmtMappedVal)
    (hbelow : ∀ j < idx, d.bmtBlock mem j ≠ 0 ∧ d.bmtMapped mem j ≠ bmtMappedVal) :
    ∀ (n i : Nat), i ≤ idx → idx < i + n → getBmtIndex d mem n i = some idx := by
  intro n
  induction n with
  | zero => intro i h1 h2; omega
  | succ n ih =>
    intro i hle hlt
    unfold getBmtIndex
    by_cases hi : i = idx
    · rw [hi, if_neg hidx, if_pos hbmt]
    · obtain ⟨h1, h2⟩ := hbelow i (by omega)
      rw [if_neg h1, if_neg h2]
      exact ih (i + 1) (by omega) (by omega)

lemma Stored.getBmtIndex {c : Chip} (h : Stored d mem idx c) (mem' : Nat → Nat) :
    getBmtIndex d (d.load (c.block (d.bmtBlock mem idx)) mem') (2 ^ 16) 0 = some idx := by
  have hcopy : Stored d (d.load (c.block (d.bmtBlock mem idx)) mem') idx c :=
    h.of_eq (h.image mem') rfl
  have hpos := d.poolLba_pos
  have hle := hcopy.poolLba_le
  have hlt := hcopy.idx_lt
  apply getBmtIndex_eq (by omega) hcopy.bmt _ _ _ (zero_le _) (by omega)
  intro j hj
  obtain ⟨h1, h2, _⟩ := hcopy.below j hj
  exact ⟨h1, h2⟩

lemma Stored.findBmt (n : Nat) (s : V2) (h : Stored d mem idx s.chip)
    (hlt : d.bmtBlock mem idx < d.poolLba + n) :
    d.poolLba + n ≤ d.totalBlks →
    (F.read (s.chip.clock + (d.poolLba + n - 1 - d.bmtBlock mem idx))).isOk → ∃ s',
      findBmt F d n s = some (true, s') ∧ s'.bmtBlkIdx = idx ∧
      (∀ w < d.bufWords, s'.mem w = mem w) ∧ s'.chip.block = s.chip.block := by
  induction n generalizing s with
  | zero =>
    have hle := h.poolLba_le
    omega
  | succ n ih =>
    intro htotal hread
    unfold SourceMaster.Nand.findBmt
    by_cases hb : d.bmtBlock mem idx = d.poolLba + n
    · -- this is the block of the table
      have hok : (s.chip.read F).1.isOk := by
        rw [show d.poolLba + (n + 1) - 1 - d.bmtBlock mem idx = 0 from by omega] at hread
        exact hread
      have himage := h.image s.mem
      have hindex := h.getBmtIndex s.mem
      have hin := h.inside
      have hblock : d.bmtBlock (d.load (s.chip.block (d.bmtBlock mem idx)) s.mem) idx =
          d.bmtBlock mem idx := himage _ (by omega)
      have hvalid := (h.of_eq himage rfl : Stored d _ idx s.chip).valid
      rw [hblock] at hvalid
      rw [hb] at himage hindex hvalid
      rw [if_neg (by simp [hok, hvalid]), hindex]
      refine ⟨⟨d.load (s.chip.block (d.poolLba + n)) s.mem, idx, (s.chip.read F).2⟩, ?_, rfl,
        himage, rfl⟩
      simp [h.idx_ne]
    · have hno := h.above (d.poolLba + n) (by omega) (by omega) s.mem
      rw [if_pos (by simp [hno])]
      have hs : Stored d mem idx (s.chip.read F).2 := h.of_eq (fun _ _ => rfl) rfl
      apply ih _ hs (by omega) (by omega)
      show (F.read (s.chip.clock + 1 + (d.poolLba + n - 1 - d.bmtBlock mem idx))).isOk
      rw [show s.chip.clock + 1 + (d.poolLba + n - 1 - d.bmtBlock mem idx) =
        s.chip.clock + (d.poolLba + (n + 1) - 1 - d.bmtBlock mem idx) from by omega]
      exact hread

lemma Stored.restart (h : Stored d mem idx c) (hread : Readable F d c (d.bmtBlock mem idx))
    (mem' : Nat → Nat) : ∃ s, mtkBmtInitV2 F d mem' c = some s ∧ s.bmtBlkIdx = idx ∧
      (∀ w < d.bufWords, s.mem w = mem w) ∧ s.chip.block = c.block := by
  have hpl := d.poolLba_le
  have hlt := h.lt_total
  unfold mtkBmtInitV2
  dsimp only
  set s0 : V2 := ⟨fun w => if w < d.bufWords then 0xffff else mem' w, 0, c⟩ with hs0
  have hstored : Stored d mem idx s0.chip := h
  obtain ⟨s, hfind, hrest⟩ := hstored.findBmt (d.totalBlks - d.poolLba) s0 (by omega) (by omega) (by
    rw [show d.poolLba + (d.totalBlks - d.poolLba) = d.totalBlks from by omega]
    exact hread)
  rw [hfind]
  exact ⟨s, rfl, hrest⟩

/-! ## Uploading without a fall-back -/

def UploadOk (F : Faults) (s : V2) : Prop :=
  F.erase s.chip.clock = none ∧ F.write (s.chip.clock + 1) = none

def tableBlock (d : V2Dev) (mem : Nat → Nat) : Block :=
  (Block.erased.program 0 d.bufSz (toBytes mem)).programOob 0 (1 + d.oobOffset) v2Sig

lemma uploadBmt_of_ok (hmapped : d.bmtMapped s.mem idx ≠ normalMapped) (h : UploadOk F s) :
    ∃ c, uploadBmt F d (idx + 1) s = (idx, { s with mem := signMem s.mem, chip := c }) ∧
      c.block = update s.chip.block (d.bmtBlock s.mem idx) (tableBlock d (signMem s.mem)) := by
  have herase := erase_of_none h.1 (d.bmtBlock s.mem idx)
  have hwrite : (s.chip.set (d.bmtBlock s.mem idx) .erased).write F (d.bmtBlock s.mem idx) _ = _ :=
    write_of_none h.2 (d.bmtBlock s.mem idx) (fun blk =>
      (blk.program 0 d.bufSz (toBytes (signMem s.mem))).programOob 0 (1 + d.oobOffset) v2Sig)
  refine ⟨(s.chip.set (d.bmtBlock s.mem idx) .erased).set (d.bmtBlock s.mem idx)
    (tableBlock d (signMem s.mem)), ?_, ?_⟩
  · unfold uploadBmt writeBmt
    rw [if_neg hmapped]
    simp only [herase, hwrite, Bool.not_true, Bool.false_eq_true, if_false, set_block_self]
    rfl
  · show update (update _ _ _) _ _ = _
    rw [update_idem]

lemma tableBlock_fdm (mem : Nat → Nat) (k : Nat) (hk : k < 3) :
    d.fdm (tableBlock d mem) (k + 1) = v2Sig.getD k 0xff := by
  unfold fdm tableBlock Block.programOob
  dsimp only
  rw [if_pos ⟨rfl, by omega⟩, show d.oobOffset + (k + 1) - (1 + d.oobOffset) = k from by omega]
  rfl

lemma Placed.upload (h : Placed d s.mem idx s.chip) (hok : UploadOk F s) :
    (uploadBmt F d (idx + 1) s).1 = idx ∧
      Stored d (uploadBmt F d (idx + 1) s).2.mem idx (uploadBmt F d (idx + 1) s).2.chip ∧
      ∀ i, bbTbl (uploadBmt F d (idx + 1) s).2.mem i = bbTbl s.mem i := by
  obtain ⟨c, hup, hblock⟩ := uploadBmt_of_ok (by rw [h.bmt]; decide) hok
  rw [hup]
  refine ⟨rfl, ⟨?_, ?_, ?_⟩, fun i => signMem_bbTbl ..⟩
  · apply h.of_eq h.words.sign (fun j _ => signMem_bmtBlock ..)
    · intro j _
      rw [signMem_bmtMapped]
    · intro b hb _
      rw [hblock, update_of_ne (by omega)]
  · intro mem' w hw
    rw [signMem_bmtBlock, hblock, update_self]
    exact load_program h.words.sign .erased mem' hw
  · dsimp only
    rw [signMem_bmtBlock, hblock, update_self]
    unfold isValidBmt
    rw [tableBlock_fdm _ 0 (by decide), tableBlock_fdm _ 1 (by decide),
      tableBlock_fdm _ 2 (by decide)]
    rfl

lemma uploadBmt_clock_le (n : Nat) (s : V2) :
    s.chip.clock ≤ (uploadBmt F d n s).2.chip.clock := by
  induction n generalizing s with
  | zero => exact le_refl _
  | succ n ih =>
    unfold uploadBmt writeBmt
    dsimp only
    split_ifs
    · exact le_refl _
    · apply le_trans _ (ih _)
      simp
    · apply le_trans _ (ih _)
      simp only [write_clock, erase_clock]
      omega
    · simp only [write_clock, erase_clock]
      omega

lemma UploadOk.of_clock (hmapped : d.bmtMapped s.mem idx ≠ normalMapped)
    (h : ∀ t < (uploadBmt F d (idx + 1) s).2.chip.clock, F.erase t = none ∧ F.write t = none) :
    UploadOk F s := by
  unfold uploadBmt writeBmt at h
  rw [if_neg hmapped] at h
  dsimp only at h
  have herase : F.erase s.chip.clock = none := by
    apply (h s.chip.clock _).1
    split_ifs
    · apply lt_of_lt_of_le _ (uploadBmt_clock_le _ _)
      simp
    · apply lt_of_lt_of_le _ (uploadBmt_clock_le _ _)
      simp only [write_clock, erase_clock]
      omega
    · simp only [write_clock, erase_clock]
      omega
  refine ⟨herase, ?_⟩
  apply (h (s.chip.clock + 1) _).2
  rw [if_neg (by simp [erase_of_none herase])]
  split_ifs
  · apply lt_of_lt_of_le _ (uploadBmt_clock_le _ _)
    simp only [write_clock, erase_clock]
    omega
  · simp only [write_clock, erase_clock]
    omega

/-! ## Remapping -/

lemma takePoolBlock_block_of_ne {j block b : Nat} (hb : b ≠ d.bmtBlock s.mem j)
    (mappedBlock copyLen : Nat) :
    (takePoolBlock F d s j block mappedBlock copyLen).chip.block b = s.chip.block b := by
  unfold takePoolBlock
  split_ifs
  · rw [bbtNandCopy_block_of_ne hb]
    exact erase_block_of_ne hb
  · exact erase_block_of_ne hb

lemma Placed.takePoolBlock {j block : Nat} (h : Placed d s.mem idx s.chip)
    (hj : j < idx) (hfree : d.bmtMapped s.mem j = noMapped) (hblock : block < d.tableSize)
    (mappedBlock copyLen : Nat) : Placed d (takePoolBlock F d s j block mappedBlock copyLen).mem idx
      (takePoolBlock F d s j block mappedBlock copyLen).chip := by
  obtain ⟨_, _, hlt⟩ := h.below j hj
  have htotal := h.lt_total
  have hmax := d.totalBlks_lt
  apply h.of_eq
  · exact (h.words.update (by decide) _).update (by omega) _
  · intro k _
    exact (setBbTbl_bmtBlock hblock ..).trans (setBmtMapped_bmtBlock ..)
  · intro k _
    show d.bmtMapped (setBbTbl _ block _) k = _ ↔ _
    rw [setBbTbl_bmtMapped hblock]
    by_cases hkj : k = j
    · -- the entry was free and is mapped now; it never has the flag of the BMT
      rw [hkj, setBmtMapped_bmtMapped_self, hfree]
      decide
    · rw [setBmtMapped_bmtMapped_of_ne d hkj]
  · intro b hb _
    exact takePoolBlock_block_of_ne (by omega) mappedBlock copyLen

lemma Stored.remap {block mappedBlock copyLen : Nat} (h : Stored d s.mem s.bmtBlkIdx s.chip)
    (hblock : block < d.tableSize) (hok : ∀ j, findValidBlockInPool d s = some j →
      UploadOk F (takePoolBlock F d s j block mappedBlock copyLen)) :
    Stored d (remapBlockV2 F d s block mappedBlock copyLen).2.mem
      (remapBlockV2 F d s block mappedBlock copyLen).2.bmtBlkIdx
      (remapBlockV2 F d s block mappedBlock copyLen).2.chip := by
  unfold remapBlockV2
  split
  next => exact h
  next j hj =>
    obtain ⟨hlt, hfree⟩ := findValidBlockInPool_spec hj
    have hplaced := h.toPlaced.takePoolBlock (F := F) hlt hfree hblock mappedBlock copyLen
    obtain ⟨hidx, hstored, _⟩ := hplaced.upload (hok j hj)
    dsimp only
    rw [hidx]
    exact hstored

/-! ## The first start -/

lemma createBmt_stored (hpool : d.poolLba ≤ d.tableSize)
    (hroom : 2 + d.tableSize + 2 * (d.totalBlks - d.poolLba) ≤ d.bufWords) (hwords : Words d s.mem)
    (hfresh : ∀ b, d.poolLba ≤ b → b < d.totalBlks → NoTable d (s.chip.block b))
    (h : createBmt F d s = some s') (hok : ∀ t < s'.chip.clock, F.erase t = none ∧ F.write t = none)
    (hidx : s'.bmtBlkIdx ≠ 0) : Stored d s'.mem s'.bmtBlkIdx s'.chip := by
  unfold createBmt at h
  dsimp only at h
  split_ifs at h
  split at h
  next => cases h
  next s1 hscan =>
    split_ifs at h
    cases some.inj h
    obtain ⟨hscanned, hchip⟩ := scanBadBlocks_spec hpool hscan
    have hwords1 : Words d s1.mem := by
      apply scanBadBlocks_words _ hscan
      intro w hw
      dsimp only
      split_ifs
      · decide
      · exact hwords w hw
    have hmapped : d.bmtMapped s1.mem s1.bmtBlkIdx ≠ normalMapped := by
      rw [hscanned.bmt]
      decide
    have hup : UploadOk F s1 := UploadOk.of_clock hmapped hok
    obtain ⟨c, heq, _⟩ := uploadBmt_of_ok hmapped hup
    have hsame : (uploadBmt F d (s1.bmtBlkIdx + 1) s1).1 = s1.bmtBlkIdx := by rw [heq]
    have hcount := hscanned.count
    have hmax := d.totalBlks_lt
    have hplaced : Placed d s1.mem s1.bmtBlkIdx s1.chip := by
      have hpos := d.poolLba_pos
      refine ⟨hwords1, ?_, by omega, by omega, ?_, hscanned.bmt,
        hscanned.poolLba_le (le_refl _), hscanned.pool_bound _ (le_refl _), ?_⟩
      · intro h0
        exact hidx (hsame.trans h0)
      · intro j hj
        have hle := hscanned.poolLba_le (le_of_lt hj)
        refine ⟨by omega, ?_, hscanned.pool_lt j _ hj (le_refl _)⟩
        rw [hscanned.free j hj]
        decide
      · intro b hb hbt
        rw [hchip]
        have hle := hscanned.poolLba_le (le_refl _)
        exact hfresh b (by omega) hbt
    rw [hsame]
    exact (hplaced.upload hup).2.1

lemma mtkBmtInitV2_stored (hpool : d.poolLba ≤ d.tableSize)
    (hroom : 2 + d.tableSize + 2 * (d.totalBlks - d.poolLba) ≤ d.bufWords)
    (hfresh : ∀ b, d.poolLba ≤ b → b < d.totalBlks → NoTable d (c.block b))
    (h : mtkBmtInitV2 F d mem c = some s) (hok : ∀ t < s.chip.clock, F.erase t = none ∧
    F.write t = none) (hidx : s.bmtBlkIdx ≠ 0) : Stored d s.mem s.bmtBlkIdx s.chip := by
  unfold mtkBmtInitV2 at h
  dsimp only at h
  have hwords : Words d (fun w => if w < d.bufWords then 0xffff else mem w) := by
    intro w hw
    dsimp only
    rw [if_pos hw]
    decide
  split at h
  next => cases h
  next s1 hfind =>
    -- there is no table to be found
    obtain ⟨b, mem', hle, hlt, hmem, hvalid, _⟩ := (findBmt_spec _ _ _ _ hfind).2 rfl
    rw [hmem, hfresh b hle (by omega) mem'] at hvalid
    cases hvalid
  next s1 hfind =>
    apply createBmt_stored hpool hroom (findBmt_words _ _ _ _ hwords hfind) _ h hok hidx
    rw [(findBmt_spec _ _ _ _ hfind).1]
    exact hfresh

/-! ## Runs -/

/-- The states of a manager that is started on a chip `c` and never falls back in an upload. -/
inductive V2Run (F : Faults) (d : V2Dev) (c : Chip) : V2 → Prop
  /-- The first start, on a chip without a table. -/
  | fresh {mem : Nat → Nat} {s : V2}
      (hfresh : ∀ b, d.poolLba ≤ b → b < d.totalBlks → NoTable d (c.block b))
      (hinit : mtkBmtInitV2 F d mem c = some s)
      (hok : ∀ t < s.chip.clock, F.erase t = none ∧ F.write t = none) : V2Run F d c s
  /-- A start on a chip with a table. -/
  | stored {mem mem' : Nat → Nat} {idx : Nat} {s : V2} (hstored : Stored d mem' idx c)
      (hread : Readable F d c (d.bmtBlock mem' idx))
      (hinit : mtkBmtInitV2 F d mem c = some s) : V2Run F d c s
  | remap {s : V2} (block mappedBlock copyLen : Nat) (hrun : V2Run F d c s)
      (hblock : block < d.tableSize) (hok : ∀ j, findValidBlockInPool d s = some j →
        UploadOk F (takePoolBlock F d s j block mappedBlock copyLen)) :
      V2Run F d c (remapBlockV2 F d s block mappedBlock copyLen).2
  | restart {mem : Nat → Nat} {s s' : V2} (hrun : V2Run F d c s) (hidx : s.bmtBlkIdx ≠ 0)
      (hread : Readable F d s.chip (d.bmtBlock s.mem s.bmtBlkIdx))
      (hinit : mtkBmtInitV2 F d mem s.chip = some s') : V2Run F d c s'

lemma remapBlockV2_of_idx_zero (h : s.bmtBlkIdx = 0) (block mappedBlock copyLen : Nat) :
    remapBlockV2 F d s block mappedBlock copyLen = (false, s) := by
  unfold remapBlockV2 findValidBlockInPool
  rw [if_pos h]

lemma Stored.of_init (h : Stored d mem' idx c) (hread : Readable F d c (d.bmtBlock mem' idx))
    (hinit : mtkBmtInitV2 F d mem c = some s) : Stored d s.mem s.bmtBlkIdx s.chip := by
  obtain ⟨s1, hs1, hidx, hmem, hchip⟩ := h.restart hread mem
  cases some.inj (hinit.symm.trans hs1)
  rw [hidx]
  exact h.of_eq hmem hchip

lemma V2Run.invariant (hpool : d.poolLba ≤ d.tableSize)
    (hroom : 2 + d.tableSize + 2 * (d.totalBlks - d.poolLba) ≤ d.bufWords) (h : V2Run F d c s) :
    s.bmtBlkIdx ≠ 0 → Stored d s.mem s.bmtBlkIdx s.chip := by
  induction h with
  | fresh hfresh hinit hok => exact mtkBmtInitV2_stored hpool hroom hfresh hinit hok
  | stored hstored hread hinit => exact fun _ => hstored.of_init hread hinit
  | @remap s block mappedBlock copyLen _ hblock hok ih =>
    by_cases hidx : s.bmtBlkIdx = 0
    · rw [remapBlockV2_of_idx_zero hidx]
      exact ih
    · exact fun _ => (ih hidx).remap hblock hok
  | restart _ hidx hread hinit ih => exact fun _ => (ih hidx).of_init hread hinit

/-- In a run without a fall-back, over pools in the buffer, a restart finds the table of the last
upload, and nothing is written. -/
theorem v2_restart_keeps_mapping (hpool : d.poolLba ≤ d.tableSize)
    (hroom : 2 + d.tableSize + 2 * (d.totalBlks - d.poolLba) ≤ d.bufWords) {c : Chip} {s : V2}
    (hrun : V2Run F d c s) (hidx : s.bmtBlkIdx ≠ 0) {G : Faults}
    (hread : Readable G d s.chip (d.bmtBlock s.mem s.bmtBlkIdx)) (mem : Nat → Nat) :
    ∃ s', mtkBmtInitV2 G d mem s.chip = some s' ∧ s'.bmtBlkIdx = s.bmtBlkIdx ∧
      (∀ i < d.poolLba, bbTbl s'.mem i = bbTbl s.mem i) ∧ s'.chip.block = s.chip.block := by
  have hstored := hrun.invariant hpool hroom hidx
  obtain ⟨s', hinit, hsame, hmem, hchip⟩ := hstored.restart hread mem
  exact ⟨s', hinit, hsame, fun i hi => hmem _ (by omega), hchip⟩

/-! ## What is left alone

A remap erases and writes entries of the pool that no logical block is mapped to. -/

section

variable {i b : Nat}

lemma uploadBmt_block_of_ne (n : Nat) (s : V2)
    (h : ∀ j < n, d.bmtMapped s.mem j ≠ normalMapped → b ≠ d.bmtBlock s.mem j) :
    (uploadBmt F d n s).2.chip.block b = s.chip.block b := by
  fun_induction uploadBmt F d n s with
  | case1 | case2 => rfl
  | case3 n s hm block e he ih =>
    refine (ih fun j hj hm' => ?_).trans (erase_block_of_ne (h n (lt_succ_self n) hm))
    rw [setBmtBlock_bmtBlock_of_ne d (by omega)]
    exact h j (by omega) (by simpa using hm')
  | case4 n s hm block e he mem w hw ih =>
    have hb := h n (lt_succ_self n) hm
    refine (ih fun j hj hm' => ?_).trans ((write_block_of_ne hb).trans (erase_block_of_ne hb))
    rw [setBmtBlock_bmtBlock_of_ne d (by omega), signMem_bmtBlock]
    exact h j (by omega) (by simpa [mem] using hm')
  | case5 n s hm =>
    have hb := h n (lt_succ_self n) hm
    exact (write_block_of_ne hb).trans (erase_block_of_ne hb)

/-- A remap of another block than `i`, while there is a BMT. -/
def RemapOther (F : Faults) (d : V2Dev) (i : Nat) (s s' : V2) : Prop :=
  s.bmtBlkIdx ≠ noIndex ∧ ∃ block < d.tableSize, i ≠ block ∧ ∃ mappedBlock copyLen,
    s' = (remapBlockV2 F d s block mappedBlock copyLen).2

lemma RemapOther.keeps (hpool : d.poolLba ≤ d.tableSize) (hi : i < d.poolLba) (h : V2Inv d s)
    (hstep : RemapOther F d i s s') : V2Inv d s' ∧ bbTbl s'.mem i = bbTbl s.mem i ∧
      s'.chip.block (bbTbl s.mem i) = s.chip.block (bbTbl s.mem i) := by
  obtain ⟨hidx, block, hblock, hne, mappedBlock, copyLen, rfl⟩ := hstep
  refine ⟨h.step hpool ⟨hidx, block, hblock, mappedBlock, copyLen, rfl⟩,
    remapBlockV2_bbTbl s (by omega) hne mappedBlock copyLen, ?_⟩
  unfold remapBlockV2
  split
  next => rfl
  next j hj =>
    obtain ⟨hlt, hfree⟩ := findValidBlockInPool_spec hj
    obtain ⟨htable, _⟩ := h.table hidx
    have htaken := @takePoolBlock_inv F d s j _ block hpool htable
      (by omega) hfree hblock mappedBlock copyLen
    have hbb : bbTbl (takePoolBlock F d s j block mappedBlock copyLen).mem i = bbTbl s.mem i :=
      (setBbTbl_bbTbl_of_ne hne ..).trans (setBmtMapped_bbTbl (by omega) ..)
    have hupload := @uploadBmt_block_of_ne F d _ (s.bmtBlkIdx + 1) _ fun k hk hm =>
      htaken.unused k hk hm i hi
    rw [hbb] at hupload
    have hnew := htable.unused j (by omega) (by rw [hfree]; decide) i hi
    exact hupload.trans (takePoolBlock_block_of_ne hnew mappedBlock copyLen)

/-- Until it is remapped itself, a logical block keeps its physical block and what is in it,
whatever fails. -/
theorem v2_run_keeps_data (hpool : d.poolLba ≤ d.tableSize) (hflash : StoredTablesOk d c) {s₀ : V2}
    (hinit : mtkBmtInitV2 F d mem c = some s₀) (hrun : Relation.ReflTransGen (RemapStep F d) s₀ s)
    (hi : i < d.poolLba) (hothers : Relation.ReflTransGen (RemapOther F d i) s s') :
    bbTbl s'.mem i = bbTbl s.mem i ∧
    s'.chip.block (bbTbl s.mem i) = s.chip.block (bbTbl s.mem i) := by
  suffices h : V2Inv d s' ∧ bbTbl s'.mem i = bbTbl s.mem i ∧
      s'.chip.block (bbTbl s.mem i) = s.chip.block (bbTbl s.mem i) from h.2
  induction hothers with
  | refl => exact ⟨(mtkBmtInitV2_inv hpool hflash hinit).run hpool hrun, rfl, rfl⟩
  | tail _ hstep ih =>
    obtain ⟨hinv, hbb, hdata⟩ := ih
    obtain ⟨hinv', hbb', hdata'⟩ := hstep.keeps hpool hi hinv
    rw [hbb] at hbb' hdata'
    exact ⟨hinv', hbb', hdata'.trans hdata⟩

theorem v2_run_keeps_data_fiveBlocks : ∃ s, mtkBmtInitV2 .none fiveBlocks (fun _ => 0) blankChip =
    some s ∧
    (remapBlockV2 .none fiveBlocks s 1 1 0).2.chip.block (bbTbl s.mem 0) =
    s.chip.block (bbTbl s.mem 0) := by
  have hsome : (mtkBmtInitV2 .none fiveBlocks (fun _ => 0) blankChip).map V2.bmtBlkIdx =
    some 2 := by
    decide +kernel
  obtain ⟨s, hinit, hidx⟩ := map_eq_some_iff.mp hsome
  have hflash : StoredTablesOk fiveBlocks blankChip := by
    intro b _ _ mem idx hvalid
    rw [blankChip_not_valid] at hvalid
    cases hvalid
  have hstep : RemapOther .none fiveBlocks 0 s (remapBlockV2 .none fiveBlocks s 1 1 0).2 :=
    ⟨by rw [hidx]; decide, 1, by decide, by decide, 1, 0, rfl⟩
  exact ⟨s, hinit, (v2_run_keeps_data (by decide) hflash hinit .refl (by decide) (.single hstep)).2⟩

end

/-! ## A chip whose whole pool is in the buffer -/

def wideTable : V2Dev where
  blkShift := 7
  pgShift := 2
  totalBlks := 5
  remapRange := []
  pgShift_le := fiveBlocks.pgShift_le
  totalBlks_lt := fiveBlocks.totalBlks_lt
  tableSize := 6
  poolLba := 2
  oobOffset := 0
  poolLba_pos := fiveBlocks.poolLba_pos
  poolLba_le := fiveBlocks.poolLba_le
  table_fits := by decide
  size_le := fiveBlocks.size_le

theorem v2_restart_keeps_mapping_wideTable : ∃ s s',
    mtkBmtInitV2 .none wideTable (fun _ => 0) blankChip = some s ∧
    mtkBmtInitV2 .none wideTable (fun _ => 0) (remapBlockV2 .none wideTable s 0 0 0).2.chip =
    some s' ∧ bbTbl s'.mem 0 = 2 := by
  have hsome : (mtkBmtInitV2 .none wideTable (fun _ => 0) blankChip).map (fun s =>
      ((remapBlockV2 .none wideTable s 0 0 0).2.bmtBlkIdx,
        bbTbl (remapBlockV2 .none wideTable s 0 0 0).2.mem 0)) = some (2, 2) := by
    decide +kernel
  obtain ⟨s, hinit, h⟩ := map_eq_some_iff.mp hsome
  simp only [Prod.mk.injEq] at h
  have hfresh : ∀ b, wideTable.poolLba ≤ b → b < wideTable.totalBlks →
      NoTable wideTable (blankChip.block b) := fun b _ _ mem => blankChip_not_valid _ _ _
  have hrun : V2Run .none wideTable blankChip (remapBlockV2 .none wideTable s 0 0 0).2 :=
    .remap 0 0 0 (.fresh hfresh hinit (fun _ _ => ⟨rfl, rfl⟩)) (by decide) (fun _ _ => ⟨rfl, rfl⟩)
  obtain ⟨s', hs', _, hbb, _⟩ := v2_restart_keeps_mapping (by decide) (by decide) hrun
    (by rw [h.1]; decide) (G := .none) rfl (fun _ => 0)
  exact ⟨s, s', hinit, hs', (hbb 0 (by decide)).trans h.2⟩

def lastEraseFails : Faults :=
  ⟨fun t => if t = 10 then some .erased else none, fun _ => none, fun _ => .ok 0, fun _ => none⟩

/-- The upload falls back to entry 1. A restart finds the table, but not its index, and starts all
over with the old mapping. -/
theorem upload_fallback_loses_remap : ∃ s0 s1 s2,
    mtkBmtInitV2 lastEraseFails wideTable (fun _ => 0) blankChip = some s0 ∧
    remapBlockV2 lastEraseFails wideTable s0 0 0 0 = (true, s1) ∧ s1.bmtBlkIdx = 1 ∧
    mtkBmtInitV2 .none wideTable s1.mem s1.chip = some s2 ∧
    s2.bmtBlkIdx ≠ s1.bmtBlkIdx ∧ bbTbl s1.mem 0 = 2 ∧ bbTbl s2.mem 0 = 0 := by
  have hrun : (mtkBmtInitV2 lastEraseFails wideTable (fun _ => 0) blankChip).bind (fun s0 =>
      let r := remapBlockV2 lastEraseFails wideTable s0 0 0 0
      (mtkBmtInitV2 .none wideTable r.2.mem r.2.chip).map (fun s2 =>
        (r.1, r.2.bmtBlkIdx, s2.bmtBlkIdx, bbTbl r.2.mem 0, bbTbl s2.mem 0))) =
      some (true, 1, 2, 2, 0) := by
    decide +kernel
  obtain ⟨s0, h0, hrest⟩ := bind_eq_some_iff.mp hrun
  obtain ⟨s2, h2, h⟩ := map_eq_some_iff.mp hrest
  simp only [Prod.mk.injEq] at h
  obtain ⟨h3, h4, h5, h6, h7⟩ := h
  exact ⟨s0, _, s2, h0, Prod.ext h3 rfl, h4, h2, by rw [h4, h5]; decide, h6, h7⟩

end SourceMaster.Nand
