import SourceMaster.Nand.V2Tables

/-!
# Unmapping with the BMT v2

`unmap_block_v2` maps a logical block to the physical block of the same number. The bad blocks of
the factory shift the mapping from the start, so that physical block usually belongs to another
logical block.
-/

namespace SourceMaster.Nand

open V2Dev

variable {F : Faults} {d : V2Dev}

def unmapBlockV2 (F : Faults) (d : V2Dev) (s : V2) (block : Nat) : V2 :=
  let r := uploadBmt F d (s.bmtBlkIdx + 1) { s with mem := setBbTbl s.mem block block }
  { r.2 with bmtBlkIdx := r.1 }

def BbTblInjective (d : V2Dev) (s : V2) : Prop :=
  ∀ i < d.poolLba, ∀ k < d.poolLba, bbTbl s.mem i = bbTbl s.mem k → i = k

def NotTaken (d : V2Dev) (s : V2) (block : Nat) : Prop :=
  ∀ i < d.poolLba, i ≠ block → bbTbl s.mem i ≠ block

lemma unmapBlockV2_bbTbl (hpool : d.poolLba ≤ d.tableSize) (s : V2) (block : Nat) {i : Nat}
    (hi : i < d.poolLba) : bbTbl (unmapBlockV2 F d s block).mem i =
      if i = block then block else bbTbl s.mem i := by
  show bbTbl (uploadBmt F d _ _).2.mem i = _
  rw [uploadBmt_bbTbl (by omega)]
  split_ifs with h
  · rw [h]
    exact setBbTbl_bbTbl_self ..
  · exact setBbTbl_bbTbl_of_ne h ..

lemma unmapBlockV2_injective_iff (hpool : d.poolLba ≤ d.tableSize) {s : V2}
    (hinj : BbTblInjective d s) {block : Nat} (hblock : block < d.poolLba) :
    BbTblInjective d (unmapBlockV2 F d s block) ↔ NotTaken d s block := by
  refine ⟨fun h i hi hne heq => ?_, fun h i hi k hk heq => ?_⟩
  · apply hne
    apply h i hi block hblock
    rw [unmapBlockV2_bbTbl hpool s block hi, unmapBlockV2_bbTbl hpool s block hblock, if_neg hne,
      if_pos rfl, heq]
  rw [unmapBlockV2_bbTbl hpool s block hi, unmapBlockV2_bbTbl hpool s block hk] at heq
  split_ifs at heq with hib hkb hkb
  · rw [hib, hkb]
  · exact absurd heq.symm (h k hk hkb)
  · exact absurd heq (h i hi hib)
  · exact hinj i hi k hk heq

/-! ## Runs -/

/-- An unmap of a block that is no logical block's and not free in the pool, while there is a
BMT. -/
def UnmapStep (F : Faults) (d : V2Dev) (s s' : V2) : Prop :=
  s.bmtBlkIdx ≠ noIndex ∧ ∃ block < d.poolLba, NotTaken d s block ∧
    (∀ j ≤ s.bmtBlkIdx, d.bmtMapped s.mem j ≠ normalMapped → d.bmtBlock s.mem j ≠ block) ∧
    s' = unmapBlockV2 F d s block

def V2Step (F : Faults) (d : V2Dev) (s s' : V2) : Prop := RemapStep F d s s' ∨ UnmapStep F d s s'

lemma V2Inv.unmap (hpool : d.poolLba ≤ d.tableSize) {s s' : V2} (h : V2Inv d s)
    (hstep : UnmapStep F d s s') : V2Inv d s' := by
  obtain ⟨hidx, block, hblock, hfree, hspare, rfl⟩ := hstep
  obtain ⟨htable, _⟩ := h.table hidx
  have hlt : block < d.tableSize := by omega
  apply V2Inv.of_upload hpool
  -- the new entry is different from all others and from the free blocks of the pool
  refine ⟨fun i hi k hk heq => ?_, fun j hj k hk heq => ?_, fun j hj hmapped i hi => ?_⟩
  · dsimp only at heq
    by_cases hib : i = block <;> by_cases hkb : k = block
    · rw [hib, hkb]
    · subst hib
      rw [setBbTbl_bbTbl_self, setBbTbl_bbTbl_of_ne hkb] at heq
      exact absurd heq.symm (hfree k hk hkb)
    · subst hkb
      rw [setBbTbl_bbTbl_self, setBbTbl_bbTbl_of_ne hib] at heq
      exact absurd heq (hfree i hi hib)
    · rw [setBbTbl_bbTbl_of_ne hib, setBbTbl_bbTbl_of_ne hkb] at heq
      exact htable.injective i hi k hk heq
  · dsimp only at heq
    rw [setBbTbl_bmtBlock hlt, setBbTbl_bmtBlock hlt] at heq
    exact htable.distinct j hj k hk heq
  · dsimp only at hmapped ⊢
    rw [setBbTbl_bmtMapped hlt] at hmapped
    rw [setBbTbl_bmtBlock hlt]
    by_cases hib : i = block
    · rw [hib, setBbTbl_bbTbl_self]
      exact fun heq => hspare j (Nat.le_of_lt_succ hj) hmapped heq.symm
    · rw [setBbTbl_bbTbl_of_ne hib]
      exact htable.unused j hj hmapped i hi

lemma V2Inv.steps (hpool : d.poolLba ≤ d.tableSize) {s s' : V2} (h : V2Inv d s)
    (hrun : Relation.ReflTransGen (V2Step F d) s s') : V2Inv d s' := by
  induction hrun with
  | refl => exact h
  | tail _ hstep ih =>
    rcases hstep with hremap | hunmap
    · exact ih.step hpool hremap
    · exact ih.unmap hpool hunmap

/-- In a run of remaps and unmaps the mapping is injective, and stays so after one more unmap iff no
other logical block is mapped to the physical block of that number. -/
theorem unmapBlockV2_run (hpool : d.poolLba ≤ d.tableSize) {mem : Nat → Nat} {c : Chip} {s s' : V2}
    (hflash : StoredTablesOk d c) (hinit : mtkBmtInitV2 F d mem c = some s)
    (hrun : Relation.ReflTransGen (V2Step F d) s s') : BbTblInjective d s' ∧
      ∀ block < d.poolLba, BbTblInjective d (unmapBlockV2 F d s' block) ↔ NotTaken d s' block := by
  have hinj : BbTblInjective d s' :=
    ((mtkBmtInitV2_inv hpool hflash hinit).steps hpool hrun).injective
  exact ⟨hinj, fun block hblock => unmapBlockV2_injective_iff hpool hinj hblock⟩

/-! ## A chip with one bad block -/

lemma markedChip_storedTablesOk (d : V2Dev) (bad : Nat → Bool) :
    StoredTablesOk d (markedChip bad) := by
  intro b _ _ mem idx hvalid
  have hfdm : d.fdm ((markedChip bad).block b) 1 ≠ 0x62 := by
    unfold fdm markedChip
    dsimp only
    split_ifs
    · exact show (0 : Nat) ≠ 0x62 by decide
    · exact show (0xff : Nat) ≠ 0x62 by decide
  unfold isValidBmt at hvalid
  simp [hfdm] at hvalid

theorem unmapBlockV2_run_fiftyBlocks : ∃ s, mtkBmtInitV2 .none fiftyBlocks (fun _ => 0)
    (markedChip fun b => b = 3) = some s ∧
    BbTblInjective fiftyBlocks
    (unmapBlockV2 .none fiftyBlocks (remapBlockV2 .none fiftyBlocks s 2 2 0).2 2) := by
  have hrun : (mtkBmtInitV2 .none fiftyBlocks (fun _ => 0) (markedChip fun b => b = 3)).map
    (fun s =>
      (decide (s.bmtBlkIdx ≠ noIndex), (List.range 40).all fun i => i = 2 ∨
        bbTbl (remapBlockV2 .none fiftyBlocks s 2 2 0).2.mem i ≠ 2)) = some (true, true) := by
    decide +kernel
  obtain ⟨s, hinit, hs⟩ := Option.map_eq_some_iff.mp hrun
  simp only [Prod.mk.injEq, decide_eq_true_eq, List.all_eq_true, List.mem_range] at hs
  have hstep : V2Step .none fiftyBlocks s (remapBlockV2 .none fiftyBlocks s 2 2 0).2 :=
    .inl ⟨hs.1, 2, by decide, 2, 0, rfl⟩
  exact ⟨s, hinit, ((unmapBlockV2_run (by decide) (markedChip_storedTablesOk _ _) hinit
    (.single hstep)).2 2
    (by decide)).mpr fun i hi hne => (hs.2 i hi).resolve_left hne⟩

/-- Block 3 is bad, so logical block 3 is block 4, where unmapping maps block 4 as well. -/
theorem unmapBlockV2_collides : ∃ s, mtkBmtInitV2 .none fiftyBlocks (fun _ => 0)
    (markedChip fun b => b = 3) = some s ∧ bbTbl (unmapBlockV2 .none fiftyBlocks s 4).mem 3 = 4 ∧
    bbTbl (unmapBlockV2 .none fiftyBlocks s 4).mem 4 = 4 := by
  have hrun : (mtkBmtInitV2 .none fiftyBlocks (fun _ => 0) (markedChip fun b => b = 3)).map
    (fun s =>
      (bbTbl (unmapBlockV2 .none fiftyBlocks s 4).mem 3,
        bbTbl (unmapBlockV2 .none fiftyBlocks s 4).mem 4)) = some (4, 4) := by
    decide +kernel
  obtain ⟨s, hinit, hs⟩ := Option.map_eq_some_iff.mp hrun
  simp only [Prod.mk.injEq] at hs
  exact ⟨s, hinit, hs⟩

end SourceMaster.Nand
