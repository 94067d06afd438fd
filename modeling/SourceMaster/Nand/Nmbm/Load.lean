import SourceMaster.Nand.Nmbm.Frame

/-!
# NMBM: which tables are loaded

A table is only loaded from consecutive good blocks: the loop that reads it may pass over bad
blocks, but it stops after as many blocks as a table has. So what is loaded from block `ba` is
`imageAt ba`, and whether it is loaded depends on the checks of that image.
-/

namespace SourceMaster.Nand

open Bytes Function Option Nat

variable {F : Faults} {d : NmbmDev}

section

variable (d : NmbmDev)

lemma NmbmDev.pgSize_ge : 64 ≤ d.pgSize :=
  Nat.pow_le_pow_right (show 0 < 2 by decide) d.pgShift_ge

lemma NmbmDev.blkSize_ge : 64 ≤ d.blkSize :=
  Nat.pow_le_pow_right (show 0 < 2 by decide) (Nat.le_trans d.pgShift_ge d.pgShift_le)

lemma NmbmDev.infoTableSize_gt : d.infoTableBlocks * d.blkSize < d.infoTableSize + d.blkSize := by
  have hpos := d.blkSize_pos
  have hdiv := div_mul_le_self (d.infoTableSize + d.blkSize - 1) d.blkSize
  show (d.infoTableSize + d.blkSize - 1) / d.blkSize * d.blkSize < _
  omega

lemma NmbmDev.infoTableSize_le : d.infoTableSize ≤ d.infoTableBlocks * d.blkSize := by
  have hpos := d.blkSize_pos
  have hdiv := lt_div_mul_add hpos (a := d.infoTableSize + d.blkSize - 1)
  show d.infoTableSize ≤ (d.infoTableSize + d.blkSize - 1) / d.blkSize * d.blkSize
  omega

lemma NmbmDev.infoTableBlocks_pos : 0 < d.infoTableBlocks := by
  have hsize := d.infoTableSize_le
  have hpos := d.infoTableSize_pos
  by_contra h
  rw [show d.infoTableBlocks = 0 from by omega] at hsize
  omega

def imageAt (c : Chip) (ba : Nat) (i : Nat) : Nat :=
  (c.block (ba + i / d.blkSize)).data (i % d.blkSize) % 256

end

lemma readPages_block (n : Nat) (c : Chip) :
    (readPages F n c).2.block = c.block ∧ (readPages F n c).2.isBad = c.isBad := by
  induction n generalizing c with
  | zero => exact ⟨rfl, rfl⟩
  | succ n ih =>
    have hread := readTries_block (F := F) nmbmTryCount c
    unfold readPages
    dsimp only
    split_ifs
    · exact hread
    · obtain ⟨h1, h2⟩ := ih (nmbmReadPhysPage F c).2
      exact ⟨h1.trans hread.1, h2.trans hread.2⟩

/-! ## Reading the blocks of a table -/

/-- Reading a table changes the cache, and states of blocks that turn out to be bad. -/
structure LoadFrame (ni ni' : Nmbm) : Prop where
  same : ni' = { ni with toMedia := ni'.toMedia, infoTableCache := ni'.infoTableCache }
  block : ni'.chip.block = ni.chip.block
  isBad : ni'.chip.isBad = ni.chip.isBad
  state : ∀ b, ni'.blockState b = ni.blockState b ∨ ni'.blockState b = .bad

namespace LoadFrame

variable {ni ni' ni'' : Nmbm}

lemma refl (ni : Nmbm) : LoadFrame ni ni := ⟨rfl, rfl, rfl, fun _ => Or.inl rfl⟩

lemma trans (h : LoadFrame ni ni') (h' : LoadFrame ni' ni'') : LoadFrame ni ni'' := by
  refine ⟨?_, h'.block.trans h.block, h'.isBad.trans h.isBad, ?_⟩
  · rw [h'.same, h.same]
  intro b
  rcases h'.state b with h2 | h2
  · rw [h2]
    exact h.state b
  · exact Or.inr h2

lemma setBad (ni : Nmbm) (ba : Nat) :
    LoadFrame ni { ni with toMedia := ni.toMedia.setBlockState ba .bad } := by
  refine ⟨rfl, rfl, rfl, ?_⟩
  intro b
  by_cases hb : b = ba
  · rw [hb]
    exact Or.inr (update_self ..)
  · exact Or.inl (update_of_ne hb ..)

end LoadFrame

lemma tryLoadLoop_frame (n ba off : Nat) (start : Option Nat) (ni : Nmbm) :
    LoadFrame ni (tryLoadLoop F d n ba off start ni).2 := by
  induction n generalizing ba off start ni with
  | zero => exact .refl ni
  | succ n ih =>
    have hread := readPages_block (F := F)
      ((min d.blkSize (d.infoTableSize - off) + d.pgSize - 1) / d.pgSize) ni.chip
    have hstep : ∀ cache, LoadFrame ni { ni with
        chip := (nmbnReadData F d (min d.blkSize (d.infoTableSize - off)) ni.chip).2,
        infoTableCache := cache } :=
      fun _ => ⟨rfl, hread.1, hread.2, fun _ => Or.inl rfl⟩
    unfold tryLoadLoop
    dsimp only
    split_ifs
    · exact .refl ni
    · exact ih _ _ _ _
    · exact (LoadFrame.setBad ni ba).trans (ih _ _ _ _)
    · exact ((hstep ni.infoTableCache).trans (.setBad _ ba)).trans (ih _ _ _ _)
    · exact hstep _
    · exact (hstep _).trans (ih _ _ _ _)

lemma tryLoadLoop_room (n ba off : Nat) (start : Option Nat) (ni : Nmbm) (p : Nat × Nat)
    (h : (tryLoadLoop F d n ba off start ni).1 = some p) :
    d.infoTableSize ≤ off + n * d.blkSize := by
  induction n generalizing ba off start ni p with
  | zero =>
    unfold tryLoadLoop at h
    split_ifs at h with hdone
    omega
  | succ n ih =>
    rw [succ_mul]
    unfold tryLoadLoop at h
    dsimp only at h
    split_ifs at h with hdone
    · omega
    · have := ih _ _ _ _ p h
      omega
    · have := ih _ _ _ _ p h
      omega
    · have := ih _ _ _ _ p h
      omega
    · have := ih _ _ _ _ p h
      omega

structure ReadTable (d : NmbmDev) (n ba off : Nat) (start : Option Nat) (ni ni' : Nmbm)
    (p : Nat × Nat) : Prop where
  stop : p.2 = ba + n
  start : p.1 = start.getD ba
  media : ni'.blockState = ni.blockState
  good : ∀ b, ba ≤ b → b < ba + n → ni.blockState b = .good ∧ ni.chip.isBad b = false
  head : ∀ i < off, ni'.infoTableCache i = ni.infoTableCache i
  body : ∀ i, off ≤ i → i < d.infoTableSize → ni'.infoTableCache i =
    (ni.chip.block (ba + (i - off) / d.blkSize)).data ((i - off) % d.blkSize) % 256

lemma tryLoadLoop_read (n ba off : Nat) (start : Option Nat) (ni : Nmbm) (p : Nat × Nat)
    (h : (tryLoadLoop F d n ba off start ni).1 = some p)
    (hroom : off + n * d.blkSize < d.infoTableSize + d.blkSize) :
    ReadTable d n ba off start ni (tryLoadLoop F d n ba off start ni).2 p := by
  induction n generalizing ba off start ni p with
  | zero =>
    unfold tryLoadLoop at h ⊢
    split_ifs at h with hdone
    obtain ⟨s, hs, rfl⟩ := map_eq_some_iff.mp h
    exact ⟨rfl, by rw [hs]; rfl, rfl, fun _ _ _ => by omega, fun _ _ => rfl, fun _ _ _ => by omega⟩
  | succ n ih =>
    rw [succ_mul] at hroom
    have hblk := d.blkSize_pos
    have hread := readPages_block (F := F)
      ((min d.blkSize (d.infoTableSize - off) + d.pgSize - 1) / d.pgSize) ni.chip
    unfold tryLoadLoop at h ⊢
    dsimp only at h ⊢
    split_ifs at h ⊢ with hdone hgood hbad hfail hhead
    · omega
    · have := tryLoadLoop_room _ _ _ _ _ p h
      omega
    · have := tryLoadLoop_room _ _ _ _ _ p h
      omega
    · have := tryLoadLoop_room _ _ _ _ _ p h
      omega
    · -- the last block may be filled only in part, and then none is left
      have htail := ih (ba + 1) (off + min d.blkSize (d.infoTableSize - off)) _ _ p h (by omega)
      obtain ⟨hstop, hstart, hmedia, htgood, hthead, htbody⟩ := htail
      refine ⟨by omega, hstart, hmedia, ?_, ?_, ?_⟩
      · intro b hb hbn
        by_cases hba : b = ba
        · rw [hba]
          exact ⟨not_not.mp hgood, Bool.eq_false_iff.mpr hbad⟩
        · obtain ⟨h1, h2⟩ := htgood b (by omega) (by omega)
          exact ⟨h1, (congrFun hread.2 b).symm.trans h2⟩
      · intro i hi
        rw [hthead i (by omega)]
        dsimp only
        rw [if_neg (by omega)]
      · intro i hi hisize
        by_cases hfirst : i - off < d.blkSize
        · rw [hthead i (by omega)]
          dsimp only
          rw [if_pos (by omega), div_eq_of_lt hfirst, mod_eq_of_lt hfirst, add_zero]
          exact congrArg (fun blk : Block => blk.data (i - off) % 256) (congrFun hread.1 ba)
        · have hdiv : (i - off) / d.blkSize = (i - off - d.blkSize) / d.blkSize + 1 :=
            div_eq_sub_div hblk (by omega)
          have hmod : (i - off) % d.blkSize = (i - off - d.blkSize) % d.blkSize :=
            mod_eq_sub_mod (by omega)
          have hrest : i - (off + min d.blkSize (d.infoTableSize - off)) = i - off - d.blkSize := by
            omega
          have hbody := htbody i (by omega) hisize
          rw [hrest, add_right_comm] at hbody
          rw [hbody, hdiv, hmod]
          exact congrArg (fun blk : Block => blk.data _ % 256) (congrFun hread.1 _)

/-! ## The checks -/

variable {f : Nat → Nat} {ba : Nat} {tableLoaded : Bool} {g : Nat → Nat} {ni : Nmbm}

lemma nmbmCheckInfoTableHeader_congr (h : ∀ i < 32, f i = g i) :
    nmbmCheckInfoTableHeader d f = nmbmCheckInfoTableHeader d g := by
  have hword : ∀ off, off + 4 ≤ 32 → word32 f off = word32 g off :=
    fun off hoff => word32_congr fun k hk => h _ (by omega)
  unfold nmbmCheckInfoTableHeader
  rw [hword 0 (by decide), hword 8 (by decide), hword 20 (by decide), hword 24 (by decide)]

lemma nmbmCheckHeader_congr {size : Nat} (hsize : 16 ≤ size) (h : ∀ i < size, f i = g i) :
    nmbmCheckHeader f size = nmbmCheckHeader g size := by
  have hword : ∀ off, off + 4 ≤ size → word32 f off = word32 g off :=
    fun off hoff => word32_congr fun k hk => h _ (by omega)
  have hslice : slice (fun i => if 12 ≤ i ∧ i < 16 then 0 else f i) 0 16 =
      slice (fun i => if 12 ≤ i ∧ i < 16 then 0 else g i) 0 16 := by
    apply slice_congr
    intro i hi
    rw [h (0 + i) (by omega)]
  unfold nmbmCheckHeader
  dsimp only
  rw [hword 8 (by omega), hword 12 (by omega), hslice]
  by_cases hbig : word32 g 8 > size
  · rw [if_pos hbig, if_pos hbig]
  · rw [if_neg hbig, if_neg hbig]
    by_cases hrest : word32 g 8 > 16
    · rw [if_pos hrest, if_pos hrest, slice_congr fun i hi => h (16 + i) (by omega)]
    · rw [if_neg hrest, if_neg hrest]

def ValidImage (d : NmbmDev) (c : Chip) (ba : Nat) : Prop :=
  nmbmCheckInfoTableHeader d (imageAt d c ba) ∧
    nmbmCheckHeader (imageAt d c ba) d.infoTableSize

lemma NmbmDev.infoTableSize_ge (d : NmbmDev) : 64 ≤ d.infoTableSize := by
  have hpg := d.pgSize_ge
  have hdiv : 0 < (32 + d.pgSize - 1) / d.pgSize := div_pos (by omega) d.pgSize_pos
  have hoff : d.pgSize ≤ d.stateTableOff := Nat.le_mul_of_pos_left _ hdiv
  unfold infoTableSize mappingTableOff
  omega

lemma nmbmCheckInfoTableHeader_firstBlock {c c' : Chip} {cache : Nat → Nat}
    (hblock : c'.block = c.block) :
    nmbmCheckInfoTableHeader d (fun i => if 0 ≤ i ∧ i < 0 + min d.blkSize (d.infoTableSize - 0) then
      (c'.block ba).data (i - 0) % 256 else cache i) =
      nmbmCheckInfoTableHeader d (imageAt d c ba) := by
  have hsize := d.infoTableSize_ge
  have hblk := d.blkSize_ge
  apply nmbmCheckInfoTableHeader_congr
  intro i hi
  have hdiv : i / d.blkSize = 0 := div_eq_of_lt (by omega)
  have hmod : i % d.blkSize = i := mod_eq_of_lt (by omega)
  unfold imageAt
  rw [if_pos (by omega), hdiv, hmod, add_zero]
  exact congrArg (fun blk : Block => blk.data i % 256) (congrFun hblock ba)

lemma tryLoadLoop_header {n : Nat} {p : Nat × Nat}
    (h : (tryLoadLoop F d (n + 1) ba 0 none ni).1 = some p)
    (hroom : n * d.blkSize < d.infoTableSize) :
    nmbmCheckInfoTableHeader d (imageAt d ni.chip ba) := by
  have hread := readPages_block (F := F)
    ((min d.blkSize (d.infoTableSize - 0) + d.pgSize - 1) / d.pgSize) ni.chip
  unfold tryLoadLoop at h
  dsimp only at h
  split_ifs at h with hdone hgood hbad hfail hhead
  · omega
  · have := tryLoadLoop_room _ _ _ _ _ p h
    omega
  · have := tryLoadLoop_room _ _ _ _ _ p h
    omega
  · have := tryLoadLoop_room _ _ _ _ _ p h
    omega
  · simp only [isNone_none, Bool.true_and, Bool.not_eq_true', Bool.not_eq_false] at hhead
    rw [← hhead]
    exact (nmbmCheckInfoTableHeader_firstBlock hread.1).symm

/-- A table has been accepted at `ba`: `ni'` is the instance with the table in its cache. -/
structure Accepted (d : NmbmDev) (ba : Nat) (ni ni' : Nmbm) (top : Nat) : Prop where
  frame : LoadFrame ni ni'
  state : ni'.blockState = ni.blockState
  good : ∀ b, ba ≤ b → b < ba + d.infoTableBlocks → ni.blockState b = .good ∧
    ni.chip.isBad b = false
  cache : ∀ i < d.infoTableSize, ni'.infoTableCache i = imageAt d ni.chip ba i
  valid : ValidImage d ni.chip ba
  check : nmbmCheckInfoTable d ni' ba (ba + d.infoTableBlocks) = some top

/-- A table is accepted from consecutive good blocks, if its image is valid and the mapping passes
the check, and loaded if it is the first one or newer. -/
theorem nmbmTryLoadInfoTable_some {eba wc top : Nat}
    (h : (nmbmTryLoadInfoTable F d ba tableLoaded ni).1 = some (eba, wc, top)) :
    ∃ ni', Accepted d ba ni ni' top ∧ eba = ba + d.infoTableBlocks ∧
    wc = word32 (imageAt d ni.chip ba) 16 ∧
      (nmbmTryLoadInfoTable F d ba tableLoaded ni).2 =
        if !tableLoaded || wc > ni.infoTable.writeCount then ni'.loadTables d else ni' := by
  have hgt := d.infoTableSize_gt
  have hpos := d.infoTableBlocks_pos
  have hsize := d.infoTableSize_ge
  have hframe := tryLoadLoop_frame (F := F) (d := d) d.infoTableBlocks ba 0 none ni
  unfold nmbmTryLoadInfoTable at h ⊢
  dsimp only at h ⊢
  split at h
  next => cases h
  next start stop hloop =>
    by_cases hcrc : (!nmbmCheckHeader
      (tryLoadLoop F d d.infoTableBlocks ba 0 none ni).2.infoTableCache
        d.infoTableSize)
    · rw [if_pos hcrc] at h
      cases h
    rw [if_neg hcrc] at h ⊢
    have hread := tryLoadLoop_read _ _ _ _ _ _ hloop (by omega)
    have hheader : nmbmCheckInfoTableHeader d (imageAt d ni.chip ba) := by
      obtain ⟨n, hn⟩ : ∃ n, d.infoTableBlocks = n + 1 := ⟨d.infoTableBlocks - 1, by omega⟩
      rw [hn] at hloop
      rw [hn, succ_mul] at hgt
      exact tryLoadLoop_header hloop (by omega)
    have hcache : ∀ i < d.infoTableSize,
        (tryLoadLoop F d d.infoTableBlocks ba 0 none ni).2.infoTableCache i =
          imageAt d ni.chip ba i := by
      intro i hi
      rw [hread.body i (Nat.zero_le _) hi, Nat.sub_zero]
      rfl
    have hstart : start = ba := hread.start
    have hstop : stop = ba + d.infoTableBlocks := hread.stop
    split at h
    next => cases h
    next top' hcheck =>
      have hword : word32 (tryLoadLoop F d d.infoTableBlocks ba 0 none ni).2.infoTableCache 16 =
          word32 (imageAt d ni.chip ba) 16 := word32_congr fun k hk => hcache _ (by omega)
      simp only [some.injEq, Prod.mk.injEq] at h
      obtain ⟨h1, h2, h3⟩ := h
      refine ⟨_, ⟨hframe, hread.media, hread.good, hcache, ⟨hheader, ?_⟩, ?_⟩, ?_, ?_, ?_⟩
      · rw [← nmbmCheckHeader_congr (by omega) hcache]
        simpa using hcrc
      · rw [← h3, ← hcheck, hstart, hstop]
      · rw [← h1, hstop]
      · rw [← h2, hword]
      · rw [← h2, hframe.same]

section

variable (h : (nmbmTryLoadInfoTable F d ba tableLoaded ni).1 = none)
include h

lemma nmbmTryLoadInfoTable_none_eq :
    (nmbmTryLoadInfoTable F d ba tableLoaded ni).2 =
    (tryLoadLoop F d d.infoTableBlocks ba 0 none ni).2 := by
  unfold nmbmTryLoadInfoTable at h ⊢
  dsimp only at h ⊢
  split
  next => rfl
  next start stop hloop =>
    rw [hloop] at h
    dsimp only at h
    by_cases hcrc : (!nmbmCheckHeader
      (tryLoadLoop F d d.infoTableBlocks ba 0 none ni).2.infoTableCache
        d.infoTableSize)
    · rw [if_pos hcrc]
    rw [if_neg hcrc] at h ⊢
    split
    next => rfl
    next top hcheck =>
      rw [hcheck] at h
      cases h

lemma nmbmTryLoadInfoTable_none :
    LoadFrame ni (nmbmTryLoadInfoTable F d ba tableLoaded ni).2 := by
  rw [nmbmTryLoadInfoTable_none_eq h]
  exact tryLoadLoop_frame _ _ _ _ _

end

end SourceMaster.Nand
