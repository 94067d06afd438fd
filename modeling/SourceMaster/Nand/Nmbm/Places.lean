import SourceMaster.Nand.Nmbm.Load
import SourceMaster.Nand.Nmbm.Termination

/-!
# NMBM: what stays in its place

An update writes the tables again, which may move them towards the spare blocks, but it leaves the
mapping and the blocks behind the spare ones alone. In every instance that `nmbm_attach` makes, and
after every remapping, the signature is where it was and the backup table is in front of the spare
blocks (`Tidy`).
-/

namespace SourceMaster.Nand

open Function Option Nat

variable {F : Faults} {d : NmbmDev} {ni ni' ni'' : Nmbm}

/-! ## What an update leaves alone -/

/-- What every round keeps is kept by the update. -/
theorem nmbmUpdateInfoTable_induction {P : Nmbm → Prop} (F : Faults) (d : NmbmDev)
    (hround : ∀ ni₀ written ni, Round ni₀ written ni → P ni₀ → P ni) (h : P ni) :
    P (nmbmUpdateInfoTable F d ni).2 := by
  have hloop : ∀ n ni, P ni → P (updateInfoTableLoop F d n ni).2 := by
    intro n
    induction n with
    | zero => exact fun _ h => h
    | succ n ih =>
      intro ni h
      have honce : P (nmbmUpdateInfoTableOnce F d ni false).2 := by
        obtain ⟨hr, _⟩ | ⟨_, hr, _⟩ := @nmbmUpdateInfoTableOnce_ends F d ni
        · exact hround _ _ _ hr h
        · exact hround _ _ _ hr h
      unfold updateInfoTableLoop
      dsimp only
      split_ifs
      · exact h
      · exact ih _ honce
      · exact honce
  unfold nmbmUpdateInfoTable
  split_ifs
  · exact h
  · exact hloop _ _ h

lemma Round.frame {ni₀ : Nmbm} {written : Bool} (h : Round ni₀ written ni) :
    ni.mappingBlocksTopBa = ni₀.mappingBlocksTopBa ∧
      Frame 0 ni₀.mappingBlocksTopBa ni₀.toMedia ni.toMedia := by
  induction h with
  | start => exact ⟨rfl, .refl ..⟩
  | touch _ ht hhi ih => exact ⟨ih.1, ih.2.trans (ht.toFrame.mono (zero_le _) (ih.1 ▸ hhi))⟩
  | place _ _ _ _ _ _ _ _ _ ih | clean _ ih | protect _ ih =>
    exact ⟨ih.1, ih.2.state, ih.2.block, ih.2.isBad⟩

/-- Whatever fails, an update changes no block from `mapping_blocks_top_ba` on, and a block only
goes from good to bad. A block that was remapped to a spare block below (`nmbm_map_block` passes
over bad ones, but lowers the top by one) is not protected by this. -/
theorem nmbm_update_stays_below_top (F : Faults) (d : NmbmDev) (ni : Nmbm) :
    Frame 0 ni.mappingBlocksTopBa ni.toMedia (nmbmUpdateInfoTable F d ni).2.toMedia := by
  let Kept (ni' : Nmbm) := ni'.mappingBlocksTopBa = ni.mappingBlocksTopBa ∧
    Frame 0 ni.mappingBlocksTopBa ni.toMedia ni'.toMedia
  have hround : ∀ ni₀ written ni', Round ni₀ written ni' → Kept ni₀ → Kept ni' := by
    intro ni₀ written ni' hr ⟨htop, hframe⟩
    obtain ⟨htop', hframe'⟩ := hr.frame
    exact ⟨htop'.trans htop, hframe.trans (htop ▸ hframe')⟩
  have hkept : Kept _ := nmbmUpdateInfoTable_induction F d hround ⟨rfl, .refl ..⟩
  exact hkept.2

/-- The update does not touch the mapping. The tables reach no further than the spare blocks, or
than they did before, and the backup table stays in front of the spare blocks. -/
structure Updated (ni ni' : Nmbm) : Prop where
  blockMapping : ni'.blockMapping = ni.blockMapping
  dataBlockCount : ni'.dataBlockCount = ni.dataBlockCount
  mgmtStartBa : ni'.mgmtStartBa = ni.mgmtStartBa
  signatureBa : ni'.signatureBa = ni.signatureBa
  top : ni'.mappingBlocksTopBa = ni.mappingBlocksTopBa
  reach : ∀ high, ni.mappingBlocksTopBa ≤ high → ni.mappingBlocksBa ≤ high →
    ni.backupTableBa ≤ high →
    ni'.mappingBlocksBa ≤ high ∧ ni'.backupTableBa ≤ high
  order : ni.backupTableBa ≤ ni.mappingBlocksBa → ni'.backupTableBa ≤ ni'.mappingBlocksBa

lemma Updated.refl (ni : Nmbm) : Updated ni ni :=
  ⟨rfl, rfl, rfl, rfl, rfl, fun _ _ hmap hbackup => ⟨hmap, hbackup⟩, id⟩

lemma Updated.trans (h : Updated ni ni') (h' : Updated ni' ni'') : Updated ni ni'' := by
  refine ⟨h'.blockMapping.trans h.blockMapping, h'.dataBlockCount.trans h.dataBlockCount,
    h'.mgmtStartBa.trans h.mgmtStartBa, h'.signatureBa.trans h.signatureBa, h'.top.trans h.top,
    fun high htop hmap hbackup => ?_, fun horder => h'.order (h.order horder)⟩
  obtain ⟨hmap', hbackup'⟩ := h.reach high htop hmap hbackup
  exact h'.reach high (h.top ▸ htop) hmap' hbackup'

lemma Round.updated {ni₀ : Nmbm} {written : Bool} (h : Round ni₀ written ni) :
    Updated ni₀ ni := by
  induction h with
  | start => exact { Updated.refl ni₀ with }
  | touch _ _ _ ih | clean _ ih | protect _ ih => exact { ih with }
  | place _ main backup mapBa mainEnd backupEnd hmapBa hbackupBa horder ih =>
    refine { ih with
      reach := fun high htop hmap hbackup => ?_
      order := fun h => horder (ih.order h) }
    obtain ⟨hmap', hbackup'⟩ := ih.reach high htop hmap hbackup
    have := ih.top
    exact ⟨show mapBa ≤ high by omega, show backup ≤ high by omega⟩

lemma nmbmUpdateInfoTable_updated (F : Faults) (d : NmbmDev) (ni : Nmbm) :
    Updated ni (nmbmUpdateInfoTable F d ni).2 :=
  nmbmUpdateInfoTable_induction F d (fun _ _ _ hround h => h.trans hround.updated) (.refl ni)

/-! ## Remapping -/

/-- Where the signature is, and that the backup table is in front of the spare blocks. -/
structure Tidy (sig : Nat) (ni : Nmbm) : Prop where
  signature : ni.signatureBa = sig
  order : ni.backupTableBa ≤ ni.mappingBlocksBa

lemma Tidy.updated {sig : Nat} (h : Tidy sig ni) (hu : Updated ni ni') : Tidy sig ni' :=
  ⟨hu.signatureBa.trans h.signature, hu.order h.order⟩

lemma Tidy.mapBlock {sig : Nat} (h : Tidy sig ni) (F : Faults) (d : NmbmDev) (lb : Nat) :
    Tidy sig (nmbmMapBlock F d ni lb).2 := by
  unfold nmbmMapBlock
  split_ifs
  · exact h
  split
  next => exact { h.updated (nmbmUpdateInfoTable_updated F d ni) with }
  next => exact { h with }

variable {block : Nat}

lemma remapBlockNmbm_snd (F : Faults) (d : NmbmDev) (hblock : block < ni.dataBlockCount)
    (mappedBlock copyLen : Nat) :
    let m := nmbmMapBlock F d (ni.giveUp mappedBlock) block
    ∃ c, (remapBlockNmbm F d ni block mappedBlock copyLen).2 =
      if m.1 then (nmbmUpdateInfoTable F d { m.2 with chip := c }).2 else m.2 := by
  unfold remapBlockNmbm
  rw [if_neg (by omega)]
  dsimp only
  generalize nmbmMapBlock F d (ni.giveUp mappedBlock) block = m
  generalize (if copyLen > 0 then _ else _ : Chip) = c
  obtain ⟨_ | _, ni'⟩ := m
  · exact ⟨c, rfl⟩
  · exact ⟨c, rfl⟩

lemma Tidy.remap {sig : Nat} (h : Tidy sig ni) (F : Faults) (d : NmbmDev)
    (hblock : block < ni.dataBlockCount)
    (mappedBlock copyLen : Nat) : Tidy sig (remapBlockNmbm F d ni block mappedBlock copyLen).2 := by
  have hgiven : Tidy sig (ni.giveUp mappedBlock) := { h with }
  have hmapped := hgiven.mapBlock F d block
  obtain ⟨c, heq⟩ := remapBlockNmbm_snd F d hblock mappedBlock copyLen
  rw [heq]
  split_ifs
  · refine Tidy.updated ?_ (nmbmUpdateInfoTable_updated ..)
    exact ⟨hmapped.signature, hmapped.order⟩
  · exact hmapped

/-! ## Attaching -/

section Attach

variable {sig : Nat} {heap : Nat → Nat} {c : Chip}

lemma Tidy.createInfoTable (h : Tidy sig ni) (hcreate : nmbmCreateInfoTable F d ni = some ni') :
    Tidy sig ni' := by
  have hmap : ∀ n ni, Tidy sig ni → Tidy sig (mapDataBlocks F d n ni) := by
    intro n
    induction n with
    | zero => exact fun _ h => h
    | succ n ih =>
      intro ni h
      have hmapped := h.mapBlock F d ni.dataBlockCount
      unfold mapDataBlocks
      dsimp only
      split_ifs
      · exact ih _ { hmapped with }
      · exact hmapped
  unfold nmbmCreateInfoTable at hcreate
  split at hcreate
  next => cases hcreate
  next ni₁ htables =>
    have htidy : Tidy sig ni₁ := by
      unfold createTables at htables
      split at htables
      next => cases htables
      next top htop =>
        dsimp only at htables
        split_ifs at htables
        obtain rfl := some.inj htables
        obtain ⟨_, hround, -⟩ := @nmbmRebuildInfoTable_ends F d
          _ { ni with mappingBlocksTopBa := top } _
          (.start _ _)
        have htop : Tidy sig { ni with mappingBlocksTopBa := top } := { h with }
        exact htop.updated hround.updated
    dsimp only at hcreate
    split_ifs at hcreate
    obtain rfl := some.inj hcreate
    exact (hmap _ _ htidy).updated (nmbmUpdateInfoTable_updated ..)

lemma nmbmWriteSignature_le {limit : Nat} {dat : Nat → Nat} (n : Nat) (m : Media) {ba : Nat}
    (h : (nmbmWriteSignature F d limit dat n m).1 = some ba) : ba ≤ limit + n ∧ 0 < n := by
  induction n generalizing m with
  | zero => cases h
  | succ n ih =>
    unfold nmbmWriteSignature at h
    dsimp only at h
    split_ifs at h
    · obtain rfl := some.inj h
      omega
    · have := ih _ h
      omega

lemma findSignatureLoop_lt {low : Nat} (n : Nat) (c : Chip) {ba : Nat} {s : Signature}
    (h : (findSignatureLoop F d low n c).1 = some (ba, s)) : ba < low + n ∧ 0 < n := by
  induction n generalizing c with
  | zero => cases h
  | succ n ih =>
    unfold findSignatureLoop at h
    dsimp only at h
    split_ifs at h
    · have := ih _ h
      omega
    · split at h
      next =>
        obtain ⟨rfl, -⟩ := Prod.mk.inj (some.inj h)
        omega
      next =>
        have := ih _ h
        omega

lemma Tidy.createNew (hnew : nmbmCreateNew F d ni = some ni')
    (hbackup : ni.backupTableBa ≤ ni.mappingBlocksBa) : ∃ sig < d.totalBlks, Tidy sig ni' := by
  unfold nmbmCreateNew at hnew
  obtain ⟨ni₁, hsign, hcreate⟩ := bind_eq_some_iff.1 hnew
  unfold signNew at hsign
  dsimp only at hsign
  split at hsign
  next => cases hsign
  next ba hba =>
    obtain rfl := some.inj hsign
    have hle := nmbmWriteSignature_le _ _ hba
    refine ⟨ba, by omega, Tidy.createInfoTable ?_ hcreate⟩
    exact ⟨rfl, hbackup⟩

/-! ### Loading tables -/

/-- The search for a table changes neither the places of the tables nor that of the signature. -/
structure SamePlaces (ni ni' : Nmbm) : Prop where
  signatureBa : ni'.signatureBa = ni.signatureBa
  mainTableBa : ni'.mainTableBa = ni.mainTableBa
  backupTableBa : ni'.backupTableBa = ni.backupTableBa

lemma LoadFrame.samePlaces (h : LoadFrame ni ni') : SamePlaces ni ni' := by
  rw [h.same]
  exact ⟨rfl, rfl, rfl⟩

lemma nmbmTryLoadInfoTable_samePlaces (ba : Nat) (tableLoaded : Bool) (ni : Nmbm) :
    SamePlaces ni (nmbmTryLoadInfoTable F d ba tableLoaded ni).2 ∧
      ∀ stop wc top, (nmbmTryLoadInfoTable F d ba tableLoaded ni).1 = some (stop, wc, top) →
      ba ≤ stop := by
  cases hload : (nmbmTryLoadInfoTable F d ba tableLoaded ni).1 with
  | none => exact ⟨(nmbmTryLoadInfoTable_none hload).samePlaces, nofun⟩
  | some p =>
    obtain ⟨stop, wc, top⟩ := p
    obtain ⟨ni', haccepted, rfl, -, heq⟩ := nmbmTryLoadInfoTable_some hload
    have hsame := haccepted.frame.samePlaces
    constructor
    · rw [heq]
      split_ifs
      · exact { hsame with }
      · exact hsame
    · intro stop' wc' top' h
      obtain ⟨rfl, -⟩ := Prod.mk.inj (some.inj h)
      exact le_add_right _ _

lemma searchInfoTableLoop_samePlaces (tableLoaded : Bool) (n ba : Nat) (ni : Nmbm) :
    SamePlaces ni (searchInfoTableLoop F d tableLoaded n ba ni).2 ∧
      ∀ t, (searchInfoTableLoop F d tableLoaded n ba ni).1 = some t → t.start ≤ t.stop := by
  induction n generalizing ba ni with
  | zero => exact ⟨⟨rfl, rfl, rfl⟩, nofun⟩
  | succ n ih =>
    obtain ⟨hsame, hstop⟩ := @nmbmTryLoadInfoTable_samePlaces F d ba tableLoaded ni
    unfold searchInfoTableLoop
    dsimp only
    split
    next stop wc top hload =>
      refine ⟨hsame, fun t ht => ?_⟩
      obtain rfl := some.inj ht
      exact hstop _ _ _ hload
    next =>
      obtain ⟨hsame', hstart⟩ := ih (ba + 1) (nmbmTryLoadInfoTable F d ba tableLoaded ni).2
      exact ⟨⟨hsame'.signatureBa.trans hsame.signatureBa,
        hsame'.mainTableBa.trans hsame.mainTableBa,
        hsame'.backupTableBa.trans hsame.backupTableBa⟩, hstart⟩

lemma Tidy.rescueBehind (h : Tidy sig ni) : Tidy sig (rescueBehind F d ni).2 := by
  unfold Nand.rescueBehind
  split
  next => exact h
  next writeBa hreserve =>
    have hw := @writeInfoTableDown_spec F d ni.mappingBlocksBa (writeBa + 1 - ni.mappingBlocksBa)
      writeBa ni
      (by omega)
    generalize writeInfoTableDown F d (writeBa + 1 - ni.mappingBlocksBa) writeBa ni = w at hw ⊢
    cases hw with
    | failed m _ => exact { h with }
    | written start stop m _ _ hlt _ => exact ⟨h.signature, le_of_lt hlt⟩

lemma Tidy.rescueSingle (h : Tidy sig ni) (hmain : ni.mainTableBa ≤ ni.mappingBlocksBa) :
    Tidy sig (nmbmRescueSingleInfoTable F d ni).2 := by
  have hw := @nmbmWriteInfoTable_spec F d ni.mgmtStartBa ni.mainTableBa ni
  unfold nmbmRescueSingleInfoTable
  generalize nmbmWriteInfoTable F d ni.mgmtStartBa ni.mainTableBa ni = w at hw ⊢
  cases hw with
  | failed m _ => exact Tidy.rescueBehind { h with }
  | written start stop m _ _ _ _ => exact ⟨h.signature, hmain⟩

lemma Tidy.updateSingle (h : Tidy sig ni) (updateMainTable : Bool) :
    Tidy sig (nmbmUpdateSingleInfoTable F d ni updateMainTable).2 := by
  unfold nmbmUpdateSingleInfoTable
  cases updateMainTable with
  | true =>
    have hw := @nmbmWriteInfoTable_spec F d ni.mainTableBa ni.backupTableBa ni
    rw [if_pos rfl]
    generalize nmbmWriteInfoTable F d ni.mainTableBa ni.backupTableBa ni = w at hw ⊢
    cases hw with
    | failed m _ => exact Tidy.rescueSingle ⟨h.signature, zero_le _⟩ h.order
    | written start stop m _ _ _ _ => exact { h with }
  | false =>
    have hw := @nmbmWriteInfoTable_spec F d ni.backupTableBa ni.mappingBlocksTopBa ni
    rw [if_neg (by decide)]
    generalize nmbmWriteInfoTable F d ni.backupTableBa ni.mappingBlocksTopBa ni = w at hw ⊢
    cases hw with
    | failed m _ => exact ⟨h.signature, zero_le _⟩
    | written start stop m _ _ hlt _ => exact ⟨h.signature, le_of_lt hlt⟩

lemma loadSecondTable_spec {first : FoundTable} (hfirst : first.start ≤ first.stop) (limit : Nat)
    (hsig : ni.signatureBa = sig) (hbackup : ni.backupTableBa = 0) :
    Tidy sig (loadSecondTable F d limit first ni).2 ∧
      ((loadSecondTable F d limit first ni).1 = none →
      (loadSecondTable F d limit first ni).2.mainTableBa ≤
        (loadSecondTable F d limit first ni).2.mappingBlocksBa) := by
  obtain ⟨hsame, hstop⟩ := @searchInfoTableLoop_samePlaces F d true
    (sub32 limit d.infoTableBlocks - first.stop) first.stop
    { ni with mainTableBa := first.start, mainTableEnd := first.stop }
  unfold loadSecondTable nmbmSearchInfoTable
  dsimp only
  generalize searchInfoTableLoop F d true _ first.stop _ = r at hsame hstop ⊢
  obtain ⟨second, ni'⟩ := r
  cases second with
  | none =>
    refine ⟨⟨hsame.signatureBa.trans hsig, ?_⟩, fun _ => ?_⟩
    · exact le_of_eq_of_le (hsame.backupTableBa.trans hbackup) (zero_le _)
    · exact le_of_eq_of_le hsame.mainTableBa hfirst
  | some second => exact ⟨⟨hsame.signatureBa.trans hsig, hstop second rfl⟩, nofun⟩

lemma Tidy.loadInfoTable (hsig : ni.signatureBa = sig) (ba limit : Nat) :
    Tidy sig (nmbmLoadInfoTable F d ba limit ni).2 := by
  obtain ⟨hsame, hstop⟩ := @searchInfoTableLoop_samePlaces F d false
    (sub32 limit d.infoTableBlocks - ba) ba
    { ni with
      mainTableBa := 0, backupTableBa := 0
      infoTable := { ni.infoTable with writeCount := 0 }
      mappingBlocksTopBa := ni.signatureBa - 1
      dataBlockCount := ni.signature.mgmtStartPb }
  unfold nmbmLoadInfoTable nmbmSearchInfoTable
  dsimp only
  generalize searchInfoTableLoop F d false _ ba _ = r at hsame hstop ⊢
  obtain ⟨first, ni₁⟩ := r
  cases first with
  | none => exact ⟨hsame.signatureBa.trans hsig, le_of_eq_of_le hsame.backupTableBa (zero_le _)⟩
  | some first =>
    obtain ⟨htidy, hmain⟩ := @loadSecondTable_spec F d ni₁ sig first (hstop first rfl) limit
      (hsame.signatureBa.trans hsig) hsame.backupTableBa
    dsimp only at htidy hmain ⊢
    generalize loadSecondTable F d limit first ni₁ = r at htidy hmain ⊢
    have hsync : Tidy sig (syncTables F d first r.1 (nmbmGenerateInfoTableCache d r.2).2).2 := by
      unfold syncTables
      split
      next hnone => exact Tidy.rescueSingle { htidy with } (hmain hnone)
      next =>
        split_ifs
        · refine Tidy.updateSingle ?_ _
          exact ⟨htidy.signature, htidy.order⟩
        · exact { htidy with }
    exact ⟨hsync.signature, hsync.order⟩

lemma Tidy.loadExisting (hsig : ni.signatureBa = sig) (h : nmbmLoadExisting F d ni = some ni') :
    Tidy sig ni' := by
  have hload := @Tidy.loadInfoTable F d { ni with mgmtStartBa := ni.signature.mgmtStartPb } sig hsig
    ni.signature.mgmtStartPb ni.signatureBa
  unfold nmbmLoadExisting at h
  dsimp only at h
  split_ifs at h
  · obtain rfl := some.inj h
    exact hload
  · refine Tidy.createInfoTable ?_ h
    exact ⟨hload.signature, hload.order⟩

lemma nmbmAttach_tidy (h : nmbmAttach F d heap c = some ni) : ∃ sig < d.totalBlks,
    Tidy sig ni := by
  unfold nmbmAttach at h
  dsimp only at h
  split at h
  next =>
    split_ifs at h
    exact Tidy.createNew h (le_refl _)
  next ba sig hfind =>
    have hlt := findSignatureLoop_lt _ _ hfind
    split_ifs at h
    exact ⟨ba, by omega, Tidy.loadExisting rfl h⟩

end Attach

end SourceMaster.Nand
