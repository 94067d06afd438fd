import SourceMaster.Nand.Nmbm.Frame

/-!
# NMBM: updating the tables comes to an end

`nmbm_update_info_table` repeats the update until nothing has changed since the last table was
written. Writing a table can turn good blocks into bad ones, which is a change. The measure is the
number of good blocks below `mapping_blocks_top_ba`: a successful round has written a table and
marked the tables clean, so what has changed afterwards are blocks that were good before.
-/

namespace SourceMaster.Nand

open Nat

variable {F : Faults} {d : NmbmDev} {ni ni' ni'' : Nmbm}

def Nmbm.Dirty (ni : Nmbm) : Prop := ni.blockStateChanged ≠ 0 ∨ ni.blockMappingChanged ≠ 0

/-- The loop of `nmbm_update_info_table`, started with `ni`, ends with the result `r`. -/
inductive UpdateEnds (F : Faults) (d : NmbmDev) : Nmbm → Bool × Nmbm → Prop
  | clean (ni : Nmbm) (h : ¬ ni.Dirty) : UpdateEnds F d ni (true, ni)
  | failed (ni : Nmbm) (h : ni.Dirty) (hfail : (nmbmUpdateInfoTableOnce F d ni false).1 = false) :
      UpdateEnds F d ni (false, (nmbmUpdateInfoTableOnce F d ni false).2)
  | again (ni : Nmbm) (r : Bool × Nmbm) (h : ni.Dirty)
      (hsuccess : (nmbmUpdateInfoTableOnce F d ni false).1)
      (hrest : UpdateEnds F d (nmbmUpdateInfoTableOnce F d ni false).2 r) : UpdateEnds F d ni r

/-! ## Counting what has changed -/

lemma goodCount_mono {st st' : Nat → BlockState} (n : Nat)
    (h : (∀ b < n, st' b = .good → st b = .good)) : goodCount st' n ≤ goodCount st n := by
  induction n with
  | zero => exact le_refl _
  | succ n ih =>
    have hrest := ih (fun b hb => h b (lt_succ_of_lt hb))
    have hlast := h n (lt_succ_self n)
    unfold goodCount
    by_cases hn : st' n = .good
    · rw [if_pos hn, if_pos (hlast hn)]
      omega
    · rw [if_neg hn]
      omega

def Nmbm.goodBlocks (ni : Nmbm) : Nat := goodCount ni.blockState ni.mappingBlocksTopBa

structure Fewer (ni ni' : Nmbm) : Prop where
  top : ni'.mappingBlocksTopBa = ni.mappingBlocksTopBa
  le : ni'.goodBlocks ≤ ni.goodBlocks

lemma Fewer.trans (h : Fewer ni ni') (h' : Fewer ni' ni'') : Fewer ni ni'' :=
  ⟨h'.top.trans h.top, le_trans h'.le h.le⟩

structure Found (ni ni' : Nmbm) : Prop extends Fewer ni ni' where
  count : ni'.blockStateChanged + ni'.goodBlocks = ni.blockStateChanged + ni.goodBlocks
  mapping : ni'.blockMappingChanged = ni.blockMappingChanged

/-- A table was written in between: only blocks that were good before have changed since. -/
structure Settled (ni ni' : Nmbm) : Prop where
  top : ni'.mappingBlocksTopBa = ni.mappingBlocksTopBa
  count : ni'.blockStateChanged + ni'.goodBlocks ≤ ni.goodBlocks
  mapping : ni'.blockMappingChanged = 0

lemma Found.of_touched {lo hi : Nat} {m : Media} (h : Touched lo hi ni.toMedia m)
    (hhi : hi ≤ ni.mappingBlocksTopBa) : Found ni { ni with toMedia := m } :=
  ⟨⟨rfl, goodCount_mono _ fun _ _ hgood => h.toFrame.good_of_good hgood⟩, h.count _ hhi, rfl⟩

lemma Fewer.clean (h : Fewer ni ni') : Settled ni ni'.markTablesClean := by
  refine ⟨h.top, ?_, rfl⟩
  show 0 + ni'.goodBlocks ≤ ni.goodBlocks
  rw [zero_add]
  exact h.le

namespace Settled

lemma fewer (h : Settled ni ni') : Fewer ni ni' := ⟨h.top, le_trans (le_add_left _ _) h.count⟩

lemma found (h : Settled ni ni') (h' : Found ni' ni'') : Settled ni ni'' := by
  refine ⟨h'.top.trans h.top, ?_, h'.mapping.trans h.mapping⟩
  rw [h'.count]
  exact h.count

lemma lt_of_dirty (h : Settled ni ni') (hdirty : ni'.Dirty) : ni'.goodBlocks < ni.goodBlocks := by
  have hcount := h.count
  have hstate : ni'.blockStateChanged ≠ 0 := hdirty.resolve_right (not_not.mpr h.mapping)
  omega

end Settled

/-! ## One round -/

/-- A round, step by step. The flag says whether a table has been written and the tables marked
clean. -/
inductive Round (ni₀ : Nmbm) : Bool → Nmbm → Prop
  | start (table : InfoTable) (cache : Nat → Nat) :
      Round ni₀ false { ni₀ with infoTable := table, infoTableCache := cache }
  | touch {written : Bool} {ni : Nmbm} {lo hi : Nat} {m : Media} (h : Round ni₀ written ni)
      (ht : Touched lo hi ni.toMedia m) (hhi : hi ≤ ni.mappingBlocksTopBa) :
      Round ni₀ written { ni with toMedia := m }
  | place {written : Bool} {ni : Nmbm} (h : Round ni₀ written ni)
    (main backup mapBa mainEnd backupEnd : Nat)
      (hmap : mapBa ≤ ni.mappingBlocksTopBa ∨ mapBa = ni.mappingBlocksBa ∨ mapBa = ni.backupTableBa)
      (hbackup : backup ≤ ni.mappingBlocksTopBa ∨ backup = ni.backupTableBa)
      (horder : ni.backupTableBa ≤ ni.mappingBlocksBa → backup ≤ mapBa) :
      Round ni₀ written { ni with
        mainTableBa := main, backupTableBa := backup, mappingBlocksBa := mapBa,
          mainTableEnd := mainEnd,
        backupTableEnd := backupEnd }
  | clean {written : Bool} {ni : Nmbm} (h : Round ni₀ written ni) :
    Round ni₀ true ni.markTablesClean
  | protect {written : Bool} {ni : Nmbm} (h : Round ni₀ written ni) :
      Round ni₀ written { ni with isProtected := true }

/-- The end of a round: it has written a table, or the instance is protected. -/
def Round.Ends (ni₀ : Nmbm) (r : Bool × Nmbm) : Prop :=
  ∃ written, Round ni₀ written r.2 ∧ (r.1 → written) ∧ (r.1 = false → r.2.isProtected)

lemma Round.success {ni₀ : Nmbm} (h : Round ni₀ true ni) : Round.Ends ni₀ (true, ni) :=
  ⟨true, h, fun _ => rfl, nofun⟩

section Steps

variable {ni₀ : Nmbm} {written : Bool}

lemma nmbmRebuildInfoTable_ends (h : Round ni₀ written ni) :
    Round.Ends ni₀ (nmbmRebuildInfoTable F d ni) := by
  have hstart := h.place 0 0 ni.mappingBlocksTopBa ni.mainTableEnd ni.backupTableEnd
    (.inl (le_refl _)) (.inl (zero_le _)) fun _ => zero_le _
  have hw := @nmbmWriteInfoTable_spec F d ni.mgmtStartBa ni.mappingBlocksTopBa { ni with
    mainTableBa := 0, backupTableBa := 0, mappingBlocksBa := ni.mappingBlocksTopBa }
  unfold nmbmRebuildInfoTable
  dsimp only
  generalize nmbmWriteInfoTable F d ni.mgmtStartBa ni.mappingBlocksTopBa _ = w at hw ⊢
  cases hw with
  | failed m htouched =>
    exact ⟨_, (hstart.touch htouched (le_refl _)).protect, nofun, fun _ => rfl⟩
  | written start stop m htouched hle hlt hstop =>
    have hclean := ((hstart.touch htouched (le_refl _)).place start 0 stop stop ni.backupTableEnd
      (.inl hstop) (.inl (zero_le _)) fun _ => zero_le _).clean
    dsimp only
    generalize hni : Nmbm.markTablesClean _ = ni1 at hclean ⊢
    split
    next => exact hclean.success
    next next hreserve =>
      have hw := @nmbmWriteInfoTable_spec F d next ni1.mappingBlocksTopBa ni1
      generalize nmbmWriteInfoTable F d next ni1.mappingBlocksTopBa ni1 = w at hw ⊢
      cases hw with
      | failed m' htouched' => exact (hclean.touch htouched' (le_refl _)).success
      | written start' stop' m' htouched' hle' hlt' hstop' =>
        have htop : start' ≤ ni1.mappingBlocksTopBa := by omega
        have hbackup := (hclean.touch htouched' (le_refl _)).place ni1.mainTableBa start' stop'
          ni1.mainTableEnd stop' (.inl hstop') (.inl htop) fun _ => le_of_lt hlt'
        exact (hbackup.touch (nmbmEraseRange_touched stop start' _) htop).success

lemma nmbmRescueMainInfoTable_ends (h : Round ni₀ true ni) :
    Round.Ends ni₀ (nmbmRescueMainInfoTable F d ni) := by
  unfold nmbmRescueMainInfoTable
  split
  next => exact (h.place _ 0 _ _ _ (.inr (.inl rfl)) (.inl (zero_le _)) fun _ => zero_le _).success
  next writeBa hreserve =>
    have hw := @writeInfoTableDown_spec F d ni.mappingBlocksBa (writeBa + 1 - ni.mappingBlocksBa)
      writeBa ni
      (by omega)
    generalize writeInfoTableDown F d (writeBa + 1 - ni.mappingBlocksBa) writeBa ni = w at hw ⊢
    cases hw with
    | failed m htouched =>
      have hdown := h.touch htouched (le_refl _)
      exact (hdown.place _ 0 _ _ _ (.inr (.inl rfl)) (.inl (zero_le _)) fun _ => zero_le _).success
    | written tmpStart tmpStop m htouched hle hlt hstop =>
      have htmp := (h.touch htouched (le_refl _)).place ni.mainTableBa ni.backupTableBa tmpStop
        ni.mainTableEnd ni.backupTableEnd (.inl hstop) (.inr rfl) fun horder =>
          -- the temporary table is behind the others
          le_trans horder (le_trans hle (le_of_lt hlt))
      have hw := @nmbmWriteInfoTable_spec F d ni.mgmtStartBa tmpStart
        { ni with toMedia := m, mappingBlocksBa := tmpStop }
      have htop : tmpStart ≤ ni.mappingBlocksTopBa := le_trans (le_of_lt hlt) hstop
      dsimp only
      generalize nmbmWriteInfoTable F d ni.mgmtStartBa tmpStart _ = w at hw ⊢
      cases hw with
      | failed m' htouched' =>
        exact ((htmp.touch htouched' htop).place tmpStart 0 tmpStop tmpStop ni.backupTableEnd
          (.inl hstop) (.inl (zero_le _)) fun _ => zero_le _).clean.success
      | written start stop m' htouched' hle' hlt' hstop' =>
        have hclean := ((htmp.touch htouched' htop).place start ni.backupTableBa tmpStop stop
          ni.backupTableEnd
          (.inl hstop) (.inr rfl) id).clean
        -- the main table ends before the temporary one, which is its limit
        dsimp only
        rw [if_pos hstop']
        exact (hclean.place _ tmpStart _ _ _ (.inr (.inl rfl)) (.inl htop) fun _ =>
          le_of_lt hlt).success

/-- From the label `write_main_table` on: there is no backup table, so that a failed write leads to
new tables, or it has just been written. -/
theorem writeMainTable_ends {limit : Nat} (hlimit : limit ≤ ni.mappingBlocksTopBa)
    (h : Round ni₀ written ni)
    (hw : ni.backupTableBa = 0 ∨ written) : Round.Ends ni₀ (writeMainTable F d limit ni) := by
  unfold writeMainTable
  by_cases hmain : ni.mainTableBa = 0
  · rw [if_pos hmain]
    exact nmbmRebuildInfoTable_ends h
  rw [if_neg hmain]
  have hwrite := @nmbmWriteInfoTable_spec F d ni.mainTableBa limit ni
  generalize nmbmWriteInfoTable F d ni.mainTableBa limit ni = w at hwrite ⊢
  cases hwrite with
  | failed m htouched =>
    have htouch := h.touch htouched hlimit
    dsimp only
    split_ifs with hbackup
    · exact nmbmRebuildInfoTable_ends htouch
    · rw [hw.resolve_left hbackup] at htouch
      exact nmbmRescueMainInfoTable_ends htouch
  | written start stop m htouched hle hlt hstop =>
    refine ((h.touch htouched hlimit).place start ni.backupTableBa
      (if ni.backupTableBa = 0 then stop else ni.mappingBlocksBa) stop ni.backupTableEnd ?_
        (.inr rfl)
      fun horder => ?_).clean.success
    · split_ifs
      · exact .inl (le_trans hstop hlimit)
      · exact .inr (.inl rfl)
    · split_ifs with hnone
      · exact hnone ▸ zero_le _
      · exact horder

end Steps

lemma nmbmUpdateInfoTableOnce_ends (ni : Nmbm) :
    Round ni false (nmbmUpdateInfoTableOnce F d ni false).2 ∧
    ¬ ni.Dirty ∨ Round.Ends ni (nmbmUpdateInfoTableOnce F d ni false) := by
  have hgen : Round ni false (nmbmGenerateInfoTableCache d ni).2 := .start _ _
  have hchanged : (nmbmGenerateInfoTableCache d ni).1 ↔ ni.Dirty := decide_eq_true_iff
  unfold nmbmUpdateInfoTableOnce
  dsimp only
  generalize nmbmGenerateInfoTableCache d ni = g at hgen hchanged ⊢
  split_ifs with hclean hbackup
  · exact .inl ⟨hgen, fun hdirty => by simp [hchanged.mpr hdirty] at hclean⟩
  · exact .inr (writeMainTable_ends (le_refl _) hgen (.inl hbackup))
  refine .inr ?_
  have hw := @nmbmWriteInfoTable_spec F d g.2.backupTableBa g.2.mappingBlocksTopBa g.2
  generalize nmbmWriteInfoTable F d g.2.backupTableBa g.2.mappingBlocksTopBa g.2 = w at hw ⊢
  cases hw with
  | failed m htouched =>
    have hdropped := (hgen.touch htouched (le_refl _)).place g.2.mainTableBa 0 g.2.backupTableBa
      g.2.mainTableEnd g.2.backupTableEnd (.inr (.inr rfl)) (.inl (zero_le _)) fun _ => zero_le _
    exact writeMainTable_ends (le_refl _) hdropped (.inl rfl)
  | written start stop m htouched hle hlt hstop =>
    have htop : start ≤ g.2.mappingBlocksTopBa := le_trans (le_of_lt hlt) hstop
    have hclean := ((hgen.touch htouched (le_refl _)).place g.2.mainTableBa start stop
      g.2.mainTableEnd
      stop (.inl hstop) (.inl htop) fun _ => le_of_lt hlt).clean
    exact writeMainTable_ends htop hclean (.inr rfl)

structure RoundDone (ni : Nmbm) (r : Bool × Nmbm) : Prop where
  settled : r.1 → Settled ni r.2
  failed : r.1 = false → r.2.isProtected

lemma Round.settled {ni₀ : Nmbm} {written : Bool} (h : Round ni₀ written ni) :
    Fewer ni₀ ni ∧ (written → Settled ni₀ ni) := by
  induction h with
  | start => exact ⟨⟨rfl, le_refl _⟩, nofun⟩
  | touch _ ht hhi ih =>
    have hfound := Found.of_touched ht hhi
    exact ⟨ih.1.trans hfound.toFewer, fun hr => (ih.2 hr).found hfound⟩
  | clean _ ih => exact ⟨ih.1.clean.fewer, fun _ => ih.1.clean⟩
  | place _ _ _ _ _ _ _ _ _ ih | protect _ ih =>
    -- nothing that counts has changed
    exact ⟨⟨ih.1.top, ih.1.le⟩, fun hr => ⟨(ih.2 hr).top, (ih.2 hr).count, (ih.2 hr).mapping⟩⟩

lemma nmbmUpdateInfoTableOnce_done (hdirty : ni.Dirty) :
    RoundDone ni (nmbmUpdateInfoTableOnce F d ni false) := by
  obtain ⟨_, hclean⟩ | ⟨written, hround, hsuccess, hfail⟩ := @nmbmUpdateInfoTableOnce_ends F d ni
  · exact absurd hdirty hclean
  · exact ⟨fun hr => hround.settled.2 (hsuccess hr), hfail⟩

/-! ## The loop -/

lemma Nmbm.dirty_iff (ni : Nmbm) : ¬ (ni.blockStateChanged = 0 ∧ ni.blockMappingChanged = 0) ↔
    ni.Dirty :=
  not_and_or

/-- Every further round has lost a good block, so two more rounds than good blocks are enough. -/
theorem updateInfoTableLoop_ends (n : Nat) (ni : Nmbm) (hn : (ni.Dirty → ni.goodBlocks + 2 ≤ n))
    (h : 1 ≤ n) : UpdateEnds F d ni (updateInfoTableLoop F d n ni) := by
  induction n generalizing ni with
  | zero => cases h
  | succ n ih =>
    unfold updateInfoTableLoop
    by_cases hdirty : ni.Dirty
    · have hdone := nmbmUpdateInfoTableOnce_done (F := F) (d := d) hdirty
      have hrounds := hn hdirty
      rw [if_neg ((Nmbm.dirty_iff ni).mpr hdirty)]
      dsimp only
      split_ifs with hsuccess
      · have hsettled := hdone.settled hsuccess
        refine .again ni _ hdirty hsuccess (ih _ ?_ (by omega))
        intro hdirty'
        have hlt := hsettled.lt_of_dirty hdirty'
        omega
      · exact .failed ni hdirty (Bool.eq_false_iff.mpr hsuccess)
    · rw [if_pos (not_not.mp fun h => hdirty ((Nmbm.dirty_iff ni).mp h))]
      exact .clean ni hdirty

lemma UpdateEnds.isProtected {r : Bool × Nmbm} (h : UpdateEnds F d ni r) (hr : r.1 = false) :
    r.2.isProtected := by
  induction h with
  | clean ni _ => cases hr
  | failed ni hdirty hfail => exact (nmbmUpdateInfoTableOnce_done hdirty).failed hfail
  | again ni r _ _ _ ih => exact ih hr

lemma UpdateEnds.unique {r r' : Bool × Nmbm} (h : UpdateEnds F d ni r)
    (h' : UpdateEnds F d ni r') : r' = r := by
  induction h generalizing r' with
  | clean ni hclean =>
    cases h' with
    | clean => rfl
    | failed _ hdirty => exact absurd hdirty hclean
    | again _ _ hdirty => exact absurd hdirty hclean
  | failed ni hdirty hfail =>
    cases h' with
    | clean _ hclean => exact absurd hdirty hclean
    | failed => rfl
    | again _ _ _ hsuccess => exact absurd (hfail.symm.trans hsuccess) (by decide)
  | again ni r hdirty hsuccess _ ih =>
    cases h' with
    | clean _ hclean => exact absurd hdirty hclean
    | failed _ _ hfail => exact absurd (hfail.symm.trans hsuccess) (by decide)
    | again _ _ _ _ hrest => exact ih hrest

/-- `nmbm_update_info_table`, called with `ni`, returns `r`. -/
def UpdateInfoTableReturns (F : Faults) (d : NmbmDev) (ni : Nmbm) (r : Bool × Nmbm) : Prop :=
  if ni.isProtected then r = (true, ni) else UpdateEnds F d ni r

/-- Whatever fails, the update returns, and the instance is protected if it returns false. The
rounds are enough if the spare blocks end within the chip. -/
theorem nmbmUpdateInfoTable_returns (F : Faults) (d : NmbmDev) (ni : Nmbm) :
    ∃ r, UpdateInfoTableReturns F d ni r ∧ (∀ r', UpdateInfoTableReturns F d ni r' → r' = r) ∧
      (r.1 = false → r.2.isProtected) ∧
      (ni.mappingBlocksTopBa ≤ d.totalBlks → nmbmUpdateInfoTable F d ni = r) := by
  unfold UpdateInfoTableReturns nmbmUpdateInfoTable
  split_ifs with hprotected
  · exact ⟨(true, ni), rfl, fun _ h => h, nofun, fun _ => rfl⟩
  have hends : UpdateEnds F d ni (updateInfoTableLoop F d (ni.goodBlocks + 2) ni) :=
    updateInfoTableLoop_ends _ ni (fun _ => le_refl _) (by omega)
  refine ⟨_, hends, fun _ => hends.unique, hends.isProtected, ?_⟩
  intro htop
  have hgood : ni.goodBlocks ≤ ni.mappingBlocksTopBa := goodCount_le _ _
  exact hends.unique (updateInfoTableLoop_ends _ ni (fun _ => by omega) (by omega))

end SourceMaster.Nand
