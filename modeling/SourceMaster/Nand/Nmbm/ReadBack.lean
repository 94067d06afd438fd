import SourceMaster.Nand.Nmbm.Acceptance

/-!
# NMBM: finding a table that has been written

`nmbm_write_mgmt_range` passes over the blocks it cannot use and goes on with the rest of the table
in the next good one. `nmbm_try_load_info_table` passes over bad blocks as well, but it gives up
after as many blocks as a table has, the bad ones included. So the two agree if and only if the
blocks that the writer used are consecutive.
-/

namespace SourceMaster.Nand

open Bytes Function Option Nat

variable {F : Faults} {d : NmbmDev}

/-! ## What is in a block that has been written -/

variable {c : Chip} {ba size off : Nat} {dat : Nat → Nat} {len i : Nat}

lemma writePage_data_of_out (hi : i < off ∨ off + len ≤ i) :
    ((c.writePage F ba off len dat).2.block ba).data i = (c.block ba).data i := by
  have hprog : ∀ g, ((c.block ba).program off len g).data i = (c.block ba).data i := fun g =>
    if_neg (by omega)
  unfold Chip.writePage
  split
  · rw [Chip.set_block_self]
    exact hprog _
  split
  · rw [Chip.set_block_self]
    exact hprog _
  · rw [Chip.set_block_self]
    exact hprog _

lemma writeTries_data_of_out (hi : i < off ∨ off + len ≤ i) (n : Nat) (c : Chip) :
    ((writeTries F ba off len dat n c).2.block ba).data i = (c.block ba).data i := by
  induction n generalizing c with
  | zero => rfl
  | succ n ih =>
    unfold writeTries
    dsimp only
    split_ifs
    · exact writePage_data_of_out hi
    · exact (ih _).trans (writePage_data_of_out hi)

lemma writeVerifyPage_data_of_out (hi : i < off ∨ off + d.pgSize ≤ i) :
    ((writeVerifyPage F d ba off len dat c).2.block ba).data i = (c.block ba).data i := by
  have hwrite : ∀ page, ((nmbmWritePhysPage F d ba off page c).2.block ba).data i =
    (c.block ba).data i :=
    fun page => writeTries_data_of_out hi _ c
  have hread : ∀ c' : Chip, (nmbmReadPhysPage F c').2.block = c'.block := fun c' =>
    (readTries_block _ c').1
  unfold writeVerifyPage
  dsimp only
  split_ifs
  · exact hwrite _
  · rw [hread]
    exact hwrite _
  · rw [hread]
    exact hwrite _

lemma writeVerifyPage_data (h : (writeVerifyPage F d ba off len dat c).1) (hi : i < len) :
    ((writeVerifyPage F d ba off len dat c).2.block ba).data (off + i) % 256 = dat i % 256 := by
  unfold writeVerifyPage at h ⊢
  dsimp only at h ⊢
  split_ifs at h ⊢
  unfold sameBytes at h
  rw [List.all_eq_true] at h
  exact beq_iff_eq.mp (h i (List.mem_range.mpr hi))

lemma writeVerifyLoop_data (n off : Nat) (c : Chip)
    (h : (writeVerifyLoop F d ba dat size n off c).1) :
    (∀ i, off ≤ i → i < off + n * d.pgSize → i < size →
      ((writeVerifyLoop F d ba dat size n off c).2.block ba).data i % 256 = dat i % 256) ∧
      ∀ i < off,
      ((writeVerifyLoop F d ba dat size n off c).2.block ba).data i = (c.block ba).data i := by
  induction n generalizing off c with
  | zero => exact ⟨fun i _ _ _ => by omega, fun _ _ => rfl⟩
  | succ n ih =>
    unfold writeVerifyLoop at h ⊢
    dsimp only at h ⊢
    split_ifs at h ⊢ with hpage
    obtain ⟨hdata, hbefore⟩ := ih _ _ h
    refine ⟨?_, ?_⟩
    · intro i hoff hi hsize
      rw [Nat.succ_mul] at hi
      by_cases hfirst : i < off + d.pgSize
      · rw [hbefore i hfirst]
        have hverified := writeVerifyPage_data hpage (i := i - off) (by omega)
        rw [Nat.add_sub_cancel' hoff] at hverified
        exact hverified
      · exact hdata i (by omega) (by omega) hsize
    · intro i hi
      rw [hbefore i (by omega)]
      exact writeVerifyPage_data_of_out (.inl hi)

/-- After one round of `nmbm_write_mgmt_range`, a block that was used holds its part of the data,
and another one is not usable any more. -/
theorem writeMgmtBlock_used {ba len : Nat} {dat : Nat → Nat} {m : Media} :
    ((writeMgmtBlock F d ba dat len m).1 ↔ (writeMgmtBlock F d ba dat len m).2.Usable ba) ∧
      ((writeMgmtBlock F d ba dat len m).1 → ∀ i < len,
        ((writeMgmtBlock F d ba dat len m).2.chip.block ba).data i % 256 = dat i % 256) := by
  have hpg := d.pgSize_pos
  have hbad : ∀ m' : Media, ¬ (m'.setBlockState ba .bad).Usable ba := by
    intro m' husable
    have hstate : (m'.setBlockState ba .bad).blockState ba = .bad := update_self ..
    exact absurd (hstate.symm.trans husable.1) (by decide)
  have honly := writeVerifyLoop_onlyAt (F := F) (d := d) ba dat len
    ((len + d.pgSize - 1) / d.pgSize) 0
    (nmbmEraseBlockAndCheck F d ba m.chip).2
  have herase := nmbmEraseBlockAndCheck_onlyAt (F := F) (d := d) ba m.chip
  unfold writeMgmtBlock useGoodBlock
  dsimp only
  split_ifs with hgood hmark hfail hwrite
  · exact ⟨⟨nofun, fun h => absurd h.1 hgood⟩, nofun⟩
  · exact ⟨⟨nofun, fun h => absurd h (hbad _)⟩, nofun⟩
  · exact ⟨⟨nofun, fun h => absurd h (hbad _)⟩, nofun⟩
  · refine ⟨⟨fun _ => ⟨not_not.mp hgood, ?_⟩, fun _ => rfl⟩, fun _ i hi => ?_⟩
    · show (nmbnWriteVerifyData F d ba dat len _).2.isBad ba = false
      rw [show (nmbnWriteVerifyData F d ba dat len _).2.isBad = m.chip.isBad from
        honly.isBad.trans herase.isBad]
      exact Bool.eq_false_iff.mpr hmark
    · have hpages : len ≤ (len + d.pgSize - 1) / d.pgSize * d.pgSize := by
        have hdiv := lt_div_mul_add hpg (a := len + d.pgSize - 1)
        omega
      exact (writeVerifyLoop_data _ _ _ hwrite).1 i (zero_le _) (by omega) hi
  · exact ⟨⟨nofun, fun h => absurd h (hbad _)⟩, nofun⟩

/-! ## Where a table is written to -/

def nmbmWriteMgmtRange (F : Faults) (d : NmbmDev) (ba limit : Nat) (dat : Nat → Nat) (size : Nat)
    (m : Media) : Option (Nat × Nat) × Media :=
  writeMgmtLoop F d dat size (limit - ba) ba 0 0 m

lemma writeMgmtLoop_before {n start : Nat} {m : Media} :
    ((writeMgmtLoop F d dat size n (ba + 1) off start m).2.Usable ba ↔ m.Usable ba) ∧
      (writeMgmtLoop F d dat size n (ba + 1) off start m).2.chip.block ba = m.chip.block ba := by
  have hframe := (@writeMgmtLoop_touched F d (ba + 1) (ba + 1 + n) dat size n (ba + 1) off start m
    (le_refl _) (le_refl _)).toFrame
  have hmark : (writeMgmtLoop F d dat size n (ba + 1) off start m).2.chip.isBad ba =
    m.chip.isBad ba := by
    by_contra hne
    have hrange := (hframe.isBad ba hne).1
    omega
  unfold Media.Usable
  rw [hframe.state_eq (by omega), hmark]
  exact ⟨Iff.rfl, hframe.block ba (by omega)⟩

lemma writeMgmtLoop_data (n ba off start : Nat) (m : Media) (p : Nat × Nat)
    (h : (writeMgmtLoop F d dat size n ba off start m).1 = some p) :
    ∀ k, (∀ b, ba ≤ b → b < ba + k → (writeMgmtLoop F d dat size n ba off start m).2.Usable b) →
      ∀ i < k * d.blkSize, off + i < size →
      ((writeMgmtLoop F d dat size n ba off start m).2.chip.block (ba + i / d.blkSize)).data
      (i % d.blkSize) % 256 = dat (off + i) % 256 := by
  induction n generalizing ba off start m p with
  | zero =>
    intro k _ i _ hsize
    unfold writeMgmtLoop at h
    rw [if_neg (by omega)] at h
    cases h
  | succ n ih =>
    intro k husable i hik hsize
    have hblk := d.blkSize_pos
    have hk : k ≠ 0 := by
      rintro rfl
      rw [zero_mul] at hik
      exact absurd hik (not_lt_zero _)
    have hfirst := husable ba (le_refl _) (by omega)
    obtain ⟨hused, hdata⟩ := @writeMgmtBlock_used F d ba (min d.blkSize (size - off))
      (fun i => dat (off + i)) m
    unfold writeMgmtLoop at h hfirst husable ⊢
    rw [if_neg (by omega)] at h hfirst husable ⊢
    by_cases hwrite : (writeMgmtBlock F d ba (fun i => dat (off + i))
      (min d.blkSize (size - off)) m).1
    · rw [if_pos hwrite] at h hfirst husable ⊢
      by_cases hin : i < d.blkSize
      · rw [div_eq_of_lt hin, mod_eq_of_lt hin, show ba + 0 = ba from rfl, writeMgmtLoop_before.2]
        exact hdata hwrite i (by omega)
      have hlen : min d.blkSize (size - off) = d.blkSize := by omega
      rw [hlen] at h husable ⊢
      have hmul : k * d.blkSize = (k - 1) * d.blkSize + d.blkSize := by
        rw [← Nat.succ_mul, Nat.succ_eq_add_one, Nat.sub_add_cancel (Nat.pos_of_ne_zero hk)]
      have hrest := ih (ba + 1) (off + d.blkSize) _ _ p h (k - 1)
        (fun b hb hbk => husable b (by omega) (by omega)) (i - d.blkSize) (by omega) (by omega)
      have hdiv : ba + i / d.blkSize = ba + 1 + (i - d.blkSize) / d.blkSize := by
        rw [div_eq_sub_div hblk (by omega)]
        omega
      have hmod : i % d.blkSize = (i - d.blkSize) % d.blkSize := mod_eq_sub_mod (by omega)
      rw [hdiv, hmod, hrest, show off + d.blkSize + (i - d.blkSize) = off + i from by omega]
    · rw [if_neg hwrite] at hfirst
      exact absurd (hused.mpr (writeMgmtLoop_before.1.mp hfirst)) hwrite

/-- When `size` bytes have been written from `ba` on: they start in the first usable block, and
follow each other as far as the usable blocks are consecutive. -/
structure WrittenAt (d : NmbmDev) (m : Media) (ba start stop : Nat) (dat : Nat → Nat)
    (size : Nat) : Prop where
  le : ba ≤ start
  first : m.Usable start
  before : ∀ b, ba ≤ b → b < start → ¬ m.Usable b
  room : start ≤ stop ∧ size ≤ (stop - start) * d.blkSize
  data : ∀ k, (∀ b, start ≤ b → b < start + k → m.Usable b) → ∀ i < k * d.blkSize, i < size →
    (m.chip.block (start + i / d.blkSize)).data (i % d.blkSize) % 256 = dat i % 256

lemma writeMgmtLoop_writtenAt (hsize : 0 < size) (n ba start : Nat) (m : Media) (s e : Nat)
    (h : (writeMgmtLoop F d dat size n ba 0 start m).1 = some (s, e)) :
    WrittenAt d (writeMgmtLoop F d dat size n ba 0 start m).2 ba s e dat size := by
  induction n generalizing ba start m s e with
  | zero =>
    unfold writeMgmtLoop at h
    rw [if_neg (by omega)] at h
    cases h
  | succ n ih =>
    have hblk := d.blkSize_pos
    obtain ⟨⟨hba, -⟩, hroom, -, -⟩ := writeMgmtLoop_place _ _ _ _ _ s e h
    have hdata := writeMgmtLoop_data _ _ _ _ _ _ h
    have hused := (@writeMgmtBlock_used F d ba (min d.blkSize (size - 0))
      (fun i => dat (0 + i)) m).1
    unfold writeMgmtLoop at h hdata ⊢
    rw [if_neg (by omega)] at h hdata ⊢
    by_cases hwrite : (writeMgmtBlock F d ba (fun i => dat (0 + i)) (min d.blkSize (size - 0)) m).1
    · rw [if_pos hwrite, if_pos rfl] at h hdata ⊢
      have hs : s = ba := (writeMgmtLoop_place _ _ _ _ _ s e h).2.2.1 (by omega)
      subst hs
      refine ⟨le_refl _, writeMgmtLoop_before.1.mpr (hused.mp hwrite), fun b hb hb' => by omega,
        by omega, ?_⟩
      intro k husable i hik hi
      rw [hdata k husable i hik (by omega), zero_add]
    · rw [if_neg hwrite] at h ⊢
      obtain ⟨hle, hfirst, hbefore, hrest, hbytes⟩ := ih _ _ _ s e h
      refine ⟨by omega, hfirst, ?_, hrest, hbytes⟩
      intro b hb hbs
      by_cases hba : b = ba
      · subst hba
        exact fun husable => hwrite (hused.mpr (writeMgmtLoop_before.1.mp husable))
      · exact hbefore b (by omega) hbs

/-! ## Searching -/

variable {ni ni' : Nmbm} {tableLoaded : Bool}

lemma tryLoadLoop_usable (hF : F.ReadsOk) (b : Nat) (n ba off : Nat) (start : Option Nat)
    (ni : Nmbm) : (tryLoadLoop F d n ba off start ni).2.Usable b ↔ ni.Usable b := by
  induction n generalizing ba off start ni with
  | zero => exact Iff.rfl
  | succ n ih =>
    have hread := readPages_block (F := F)
      ((min d.blkSize (d.infoTableSize - off) + d.pgSize - 1) / d.pgSize) ni.chip
    have hstep : ∀ cache, Media.Usable { ni with
        chip := (nmbnReadData F d (min d.blkSize (d.infoTableSize - off)) ni.chip).2,
        infoTableCache := cache : Nmbm }.toMedia b ↔ ni.Usable b := by
      intro cache
      show ni.blockState b = .good ∧ (nmbnReadData F d _ ni.chip).2.isBad b = false ↔ _
      rw [show (nmbnReadData F d _ ni.chip).2.isBad = ni.chip.isBad from hread.2]
      rfl
    unfold tryLoadLoop
    dsimp only
    split_ifs with hdone hgood hmark hfail hhead
    · exact Iff.rfl
    · exact ih _ _ _ _
    · refine (ih _ _ _ _).trans ?_
      show update ni.blockState ba .bad b = .good ∧ ni.chip.isBad b = false ↔ _
      by_cases hb : b = ba
      · subst hb
        rw [update_self]
        exact ⟨fun h => absurd h.1 (by decide), fun h => absurd (h.2.symm.trans hmark) (by decide)⟩
      · rw [update_of_ne hb]
        rfl
    · exact absurd hfail (by rw [nmbnReadData, readPages_ok hF]; decide)
    · exact hstep _
    · exact (ih _ _ _ _).trans (hstep _)

def UsableRun (d : NmbmDev) (m : Media) (ba : Nat) : Prop :=
  ∀ b, ba ≤ b → b < ba + d.infoTableBlocks → m.Usable b

structure Passed (ni ni' : Nmbm) : Prop where
  frame : LoadFrame ni ni'
  usable : ∀ b, ni'.Usable b ↔ ni.Usable b

lemma Passed.refl (ni : Nmbm) : Passed ni ni := ⟨.refl ni, fun _ => Iff.rfl⟩

lemma nmbmTryLoadInfoTable_passed (hF : F.ReadsOk) {ba : Nat} (hpassed : Passed ni ni')
    (h : (nmbmTryLoadInfoTable F d ba tableLoaded ni').1 = none) :
    Passed ni (nmbmTryLoadInfoTable F d ba tableLoaded ni').2 := by
  refine ⟨hpassed.frame.trans (nmbmTryLoadInfoTable_none h), fun b => ?_⟩
  rw [nmbmTryLoadInfoTable_none_eq h, tryLoadLoop_usable hF]
  exact hpassed.usable b

lemma searchInfoTableLoop_some (hF : F.ReadsOk) {t : FoundTable} (n ba : Nat) (ni' : Nmbm)
    (hpassed : Passed ni ni') (h : (searchInfoTableLoop F d tableLoaded n ba ni').1 = some t) :
    UsableRun d ni.toMedia t.start := by
  induction n generalizing ba ni' with
  | zero => exact absurd h (by simp [searchInfoTableLoop])
  | succ n ih =>
    unfold searchInfoTableLoop at h
    dsimp only at h
    split at h
    next stop writeCount top hload =>
      cases some.inj h
      obtain ⟨_, haccepted, _⟩ := nmbmTryLoadInfoTable_some hload
      exact fun b hb hb' => (hpassed.usable b).mp (haccepted.good b hb hb')
    next hnone => exact ih _ _ (nmbmTryLoadInfoTable_passed hF hpassed hnone) h

lemma searchInfoTableLoop_reaches (hF : F.ReadsOk) (tableLoaded : Bool) (k n ba : Nat)
    (ni' : Nmbm)
    (hpassed : Passed ni ni') (hn : k < n) (hunusable : ∀ b, ba ≤ b → b < ba + k → ¬ ni.Usable b)
    (hload : ∀ ni₁, Passed ni ni₁ → (nmbmTryLoadInfoTable F d (ba + k) tableLoaded ni₁).1.isSome) :
    ∃ ni₁ stop writeCount top, Passed ni ni₁ ∧
      (nmbmTryLoadInfoTable F d (ba + k) tableLoaded ni₁).1 = some (stop, writeCount, top) ∧
      searchInfoTableLoop F d tableLoaded n ba ni' = (some ⟨ba + k, stop, writeCount, top⟩,
      (nmbmTryLoadInfoTable F d (ba + k) tableLoaded ni₁).2) := by
  induction k generalizing n ba ni' with
  | zero =>
    obtain ⟨n, rfl⟩ : ∃ n', n = n' + 1 := ⟨n - 1, by omega⟩
    obtain ⟨⟨stop, writeCount, top⟩, hsome⟩ := isSome_iff_exists.mp (hload ni' hpassed)
    refine ⟨ni', stop, writeCount, top, hpassed, hsome, ?_⟩
    unfold searchInfoTableLoop
    dsimp only
    rw [show ba + 0 = ba from rfl] at hsome ⊢
    rw [hsome]
  | succ k ih =>
    obtain ⟨n, rfl⟩ : ∃ n', n = n' + 1 := ⟨n - 1, by omega⟩
    have hnone : (nmbmTryLoadInfoTable F d ba tableLoaded ni').1 = none := by
      rw [eq_none_iff_forall_ne_some]
      rintro ⟨stop, writeCount, top⟩ hsome
      obtain ⟨_, haccepted, _⟩ := nmbmTryLoadInfoTable_some hsome
      have hpos := d.infoTableBlocks_pos
      have husable := haccepted.good ba (le_refl _) (by omega)
      exact hunusable ba (le_refl _) (by omega) ((hpassed.usable ba).mp husable)
    unfold searchInfoTableLoop
    dsimp only
    rw [hnone]
    rw [show ba + (k + 1) = ba + 1 + k from by omega] at hload ⊢
    exact ih n (ba + 1) _ (nmbmTryLoadInfoTable_passed hF hpassed hnone) (by omega)
      (fun b hb hb' => hunusable b (by omega) (by omega)) hload

/-! ## Agreement -/

/-- The bytes `f` are a table: they pass the checks at block `start`, and the tables of the header
are inside.
-/
structure IsTable (d : NmbmDev) (ni : Nmbm) (start : Nat) (f : Nat → Nat) : Prop where
  bytes : ∀ i, f i < 256
  header : nmbmCheckInfoTableHeader d f
  checksum : nmbmCheckHeader f d.infoTableSize
  inside : TablesInside d f
  mapping : MappingOk d ni start (start + d.infoTableBlocks) f

/-- The search found the table at `start` and read the bytes `f`, which are loaded without an
earlier table.
-/
structure FindsTable (d : NmbmDev) (start : Nat) (tableLoaded : Bool) (f : Nat → Nat)
    (r : Option FoundTable × Nmbm) : Prop where
  found : ∃ t, r.1 = some t ∧ t.start = start
  cache : ∀ i < d.infoTableSize, r.2.infoTableCache i = f i
  loaded : tableLoaded = false → ∃ ni : Nmbm, (∀ i < d.infoTableSize, ni.infoTableCache i = f i) ∧
    r.2 = ni.loadTables d

lemma IsTable.accepted (hF : F.ReadsOk) {start : Nat} {f : Nat → Nat}
    (htable : IsTable d ni start f) (hrun : UsableRun d ni.toMedia start)
    (himage : ∀ i < d.infoTableSize, imageAt d ni.chip start i = f i) (tableLoaded : Bool)
    (hpassed : Passed ni ni') : (nmbmTryLoadInfoTable F d start tableLoaded ni').1.isSome := by
  have hsize := d.infoTableSize_ge
  have himage' : ∀ i < d.infoTableSize, imageAt d ni'.chip start i = f i := by
    intro i hi
    rw [← himage i hi]
    unfold imageAt
    rw [hpassed.frame.block]
  refine nmbmTryLoadInfoTable_isSome hF tableLoaded
    (fun b hb hb' => (hpassed.usable b).mpr (hrun b hb hb')) ⟨?_, ?_⟩ ?_
  · rw [nmbmCheckInfoTableHeader_congr fun i hi => himage' i (by omega)]
    exact htable.header
  · rw [nmbmCheckHeader_congr (by omega) himage']
    exact htable.checksum
  · intro ni₁ hframe _ hcache
    have hsame := (hpassed.frame.trans hframe).same
    refine htable.mapping.isSome ?_ ?_ fun i hi => (hcache i hi).trans (himage' i hi)
    · rw [hsame]
    · rw [hsame]

/-- The search finds a written table and loads its bytes iff the first usable blocks are
consecutive. -/
theorem search_finds_iff {F' : Faults} (hF : F'.ReadsOk) {ba limit start stop limit' : Nat}
    {f : Nat → Nat} {m : Media} (hwrite : (nmbmWriteMgmtRange F d ba limit f d.infoTableSize m).1 =
    some (start, stop))
    (hblock : ni.chip.block = (nmbmWriteMgmtRange F d ba limit f d.infoTableSize m).2.chip.block)
    (husable : ∀ b, ba ≤ b → b < stop →
      (ni.Usable b ↔ (nmbmWriteMgmtRange F d ba limit f d.infoTableSize m).2.Usable b))
    (htable : IsTable d ni start f) (hstop : stop < limit') (hlimit : limit' < 2 ^ 32)
    (tableLoaded : Bool) :
    FindsTable d start tableLoaded f (nmbmSearchInfoTable F' d ba limit' tableLoaded ni) ↔
      ∃ s, ba ≤ s ∧ (∀ b, ba ≤ b → b < s → ¬ ni.Usable b) ∧ UsableRun d ni.toMedia s := by
  have hsize := d.infoTableSize_ge
  have hpos := d.infoTableBlocks_pos
  have hw : WrittenAt d (nmbmWriteMgmtRange F d ba limit f d.infoTableSize m).2 ba start stop f
      d.infoTableSize := writeMgmtLoop_writtenAt (by omega) _ _ _ _ _ _ hwrite
  obtain ⟨hle, hfirst, hbefore, ⟨hstart, hroom⟩, hdata⟩ := hw
  have hfits : start + d.infoTableBlocks ≤ stop := by
    have hgt := d.infoTableSize_gt
    have hlt : d.infoTableBlocks * d.blkSize < (stop - start + 1) * d.blkSize := by
      rw [Nat.succ_mul]
      omega
    have := lt_of_mul_lt_mul_right hlt
    omega
  have hunusable : ∀ b, ba ≤ b → b < start → ¬ ni.Usable b := fun b hb hb' h =>
    hbefore b hb hb' ((husable b hb (by omega)).mp h)
  constructor
  · rintro ⟨⟨t, hfound, rfl⟩, _, _⟩
    exact ⟨t.start, hle, hunusable, searchInfoTableLoop_some hF _ _ _ (.refl ni) hfound⟩
  rintro ⟨s, hs, hskip, hrun⟩
  -- both start at the first usable block
  have hsame : s = start := by
    rcases lt_trichotomy s start with hlt | heq | hgt
    · exact absurd (hrun s (le_refl _) (by omega)) (hunusable s hs hlt)
    · exact heq
    · exact absurd ((husable start hle (by omega)).mpr hfirst) (hskip start hle hgt)
  subst hsame
  have himage : ∀ i < d.infoTableSize, imageAt d ni.chip s i = f i := by
    intro i hi
    have hbytes := hdata d.infoTableBlocks
      (fun b hb hb' => (husable b (by omega) (by omega)).mp (hrun b hb hb')) i
      (lt_of_lt_of_le hi d.infoTableSize_le) hi
    unfold imageAt
    rw [hblock, hbytes]
    exact mod_eq_of_lt (htable.bytes i)
  have hloop := @searchInfoTableLoop_reaches F' d ni hF tableLoaded (s - ba)
    (sub32 limit' d.infoTableBlocks - ba) ba ni (.refl ni)
    (by rw [sub32_of_le hlimit (by omega)]; omega) (fun b hb hb' => hunusable b hb (by omega))
  rw [Nat.add_sub_cancel' hs] at hloop
  obtain ⟨ni₁, stop', writeCount, top, hpassed, hload, hsearch⟩ :=
    hloop fun ni₁ hpassed => htable.accepted hF hrun himage tableLoaded hpassed
  obtain ⟨ni₂, haccepted, _, _, hresult⟩ := nmbmTryLoadInfoTable_some hload
  have hcache : ∀ i < d.infoTableSize, ni₂.infoTableCache i = f i := by
    intro i hi
    rw [haccepted.cache i hi, ← himage i hi]
    unfold imageAt
    rw [hpassed.frame.block]
  unfold nmbmSearchInfoTable
  rw [hsearch, hresult]
  refine ⟨⟨_, rfl, rfl⟩, ?_, ?_⟩
  · intro i hi
    split_ifs
    · exact hcache i hi
    · exact hcache i hi
  · intro hnew
    refine ⟨ni₂, hcache, ?_⟩
    dsimp only
    rw [hnew]
    rfl

/-! ## A bad block in the middle of a table -/

def eightBlocks : NmbmDev where
  blkShift := 7
  pgShift := 6
  totalBlks := 8
  remapRange := []
  pgShift_le := by decide
  totalBlks_lt := show 9 ≤ 2 ^ 16 by decide
  oobSize := 16
  maxRatio := 8
  maxReservedBlocks := 0
  emptyPageEccOk := false
  forceCreate := false
  maxRatio_le := fourBlocks.maxRatio_le
  pgShift_ge := fourBlocks.pgShift_ge

def longTable : Nat → Nat := tableBytes eightBlocks ⟨1, 64, 128, 0⟩ (fun _ => .good) id

def blankMedia (bad : List Nat) : Media where
  blockState := fun _ => .good
  blockStateChanged := 0
  chip := ⟨fun _ => .erased, fun b => decide (b ∈ bad), 0, []⟩

def longWrite (bad : List Nat) : Option (Nat × Nat) × Media :=
  nmbmWriteMgmtRange .none eightBlocks 1 6 longTable eightBlocks.infoTableSize (blankMedia bad)

def longReader (m : Media) : Nmbm :=
  { nmbmInitStructure eightBlocks (fun _ => 0) m.chip with
    toMedia := m, dataBlockCount := 1, signatureBa := 7 }

lemma longTable_isTable (m : Media) : IsTable eightBlocks (longReader m) 1 longTable := by
  have hstate : ∀ b < 3, 1 ≤ b → memState longTable b = .good := by decide +kernel
  have hoff : ∀ b < 3, 1 ≤ b →
    tableStateOff longTable + b / 4 < eightBlocks.infoTableSize := by decide +kernel
  refine ⟨tableBytes_lt, by decide +kernel, by decide +kernel, ?_, ?_, ?_, fun b hb hb' =>
    hstate b hb' hb, fun b hb hb' => hoff b hb' hb⟩
  · constructor <;> decide +kernel
  · show (checkMappingLoop (memMapping longTable) 1 3 7 1 0 7).isSome
    decide +kernel
  · show tableMappingOff longTable + 4 * 1 ≤ eightBlocks.infoTableSize
    decide +kernel

/-- With nothing between its two blocks the table is found. -/
theorem search_finds_consecutive : (longWrite []).1 = some (1, 3) ∧
    FindsTable eightBlocks 1 false longTable
      (nmbmSearchInfoTable .none eightBlocks 1 7 false (longReader (longWrite []).2)) := by
  have hsome : (longWrite []).1 = some (1, 3) := by decide +kernel
  have husable : ∀ b < 3, 1 ≤ b → (longWrite []).2.Usable b := by decide +kernel
  refine ⟨hsome, ?_⟩
  generalize hmedia : (longWrite []).2 = m at husable ⊢
  unfold longWrite at hmedia hsome
  refine (search_finds_iff (fun _ => rfl) hsome ?_ ?_ (longTable_isTable m) (by decide)
    (by decide) false).mpr
    ⟨1, le_refl _, fun b hb hb' => by omega, fun b hb hb' => husable b hb' hb⟩
  · rw [hmedia]
    rfl
  · rw [hmedia]
    exact fun _ _ _ => Iff.rfl

/-- Block 2 is bad: the table goes to the blocks 1 and 3, and it is not found again. -/
theorem search_misses_split_table : (longWrite [2]).1 = some (1, 4) ∧
    IsTable eightBlocks (longReader (longWrite [2]).2) 1 longTable ∧
      ¬ FindsTable eightBlocks 1 false longTable
        (nmbmSearchInfoTable .none eightBlocks 1 7 false (longReader (longWrite [2]).2)) := by
  have hunusable : ¬ (longWrite [2]).2.Usable 2 := by decide +kernel
  refine ⟨by decide +kernel, longTable_isTable _, ?_⟩
  generalize (longWrite [2]).2 = m at hunusable ⊢
  rintro ⟨⟨t, hfound, hstart⟩, _, _⟩
  have hrun := searchInfoTableLoop_some (fun _ => rfl) _ _ _ (.refl _) hfound
  rw [hstart] at hrun
  exact hunusable (hrun 2 (by decide) (by decide))

end SourceMaster.Nand
