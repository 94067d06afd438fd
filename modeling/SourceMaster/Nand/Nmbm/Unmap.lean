import SourceMaster.Lib.Runs
import SourceMaster.Nand.Nmbm.Places

/-!
# NMBM: taking a remapping back

`unmap_block_nmbm` does not know where a logical block was mapped to before. It walks down to the
nearest block that is not remapped and counts up again from the physical block of that one. Bad
blocks shift the mapping, and the last logical blocks are mapped to spare blocks from the start, so
the block it arrives at may be bad, may belong to another logical block, or may lie in the
management area.

`nmbm_map_block` has a defect of its own: it passes over bad spare blocks, but lowers the top of the
spare blocks by one only. `unmap_keeps_outside` is about the runs in which neither shows.
-/

namespace SourceMaster.Nand

open Function Option Nat Runs

variable {F : Faults} {d : NmbmDev} {ni ni' ni'' : Nmbm}

/-! ## The function -/

/-- The first loop of `unmap_block_nmbm`: the nearest block at or below `start` not remapped. -/
def unmapStart (mapping : Nat → Nat) (mappingBlocksBa : Nat) : Nat → Option Nat
  | 0 => if mapping 0 ≥ mappingBlocksBa then none else some 0
  | start + 1 =>
    if mapping (start + 1) ≥ mappingBlocksBa then unmapStart mapping mappingBlocksBa start
    else some (start + 1)

/-- The second loop, over `n` logical blocks: the highest block below all remapped ones. -/
def unmapTopLoop (mapping : Nat → Nat) (mappingBlocksBa : Nat) : Nat → Nat → Int → Int
  | 0, _, newBlock => newBlock
  | n + 1, block, newBlock =>
    unmapTopLoop mapping mappingBlocksBa n (block + 1)
      (if mapping block < mappingBlocksBa then newBlock
      else if signed32 (mapping block) ≤ newBlock then signed32 (mapping block) - 1 else newBlock)

/-- The block that `unmap_block_nmbm` computes; `none` if it returns before. -/
def Nmbm.unmapTarget (ni : Nmbm) (block : Nat) : Option Nat :=
  if block ≥ ni.dataBlockCount then none
  else
    match unmapStart ni.blockMapping ni.mappingBlocksBa block with
    | none => none
    | some start => if block - start =
      0 then none else some (ni.blockMapping start + (block - start))

def Nmbm.unmapTo (ni : Nmbm) (block newBlock : Nat) : Nmbm :=
  let mapping := update ni.blockMapping block newBlock
  { ni with
    toMedia := ni.toMedia.setBlockState newBlock .good
    blockMapping := mapping
    blockMappingChanged := ni.blockMappingChanged + 1
    mappingBlocksTopBa :=
      (unmapTopLoop mapping ni.mappingBlocksBa ni.dataBlockCount 0
        (ni.signatureBa - 1) % 2 ^ 32).toNat }

def unmapBlockNmbm (F : Faults) (d : NmbmDev) (ni : Nmbm) (block : Nat) : Nmbm :=
  match ni.unmapTarget block with
  | none => ni
  | some newBlock => (nmbmUpdateInfoTable F d (ni.unmapTo block newBlock)).2

/-! ## What is required of the mapping -/

/-- Every logical block has its own physical block, outside the management area and not marked by
the factory. -/
structure MappedOutside (d : NmbmDev) (factory : Nat → Prop) (ni : Nmbm) : Prop where
  inj : ∀ a < ni.dataBlockCount, ∀ b < ni.dataBlockCount, ni.blockMapping a = ni.blockMapping b →
    a = b
  lt : ∀ a < ni.dataBlockCount, ni.blockMapping a < d.totalBlks
  place : ∀ a < ni.dataBlockCount,
    ni.blockMapping a < ni.mgmtStartBa ∨ ni.mappingBlocksBa ≤ ni.blockMapping a
  clean : ∀ a < ni.dataBlockCount, ¬ factory (ni.blockMapping a)

/-- `newBlock` is a block that the logical block `block` may have. -/
structure FreeFor (d : NmbmDev) (factory : Nat → Prop) (ni : Nmbm)
    (block newBlock : Nat) : Prop where
  other : ∀ a < ni.dataBlockCount, a ≠ block → ni.blockMapping a ≠ newBlock
  lt : newBlock < d.totalBlks
  place : newBlock < ni.mgmtStartBa ∨ ni.mappingBlocksBa ≤ newBlock
  clean : ¬ factory newBlock

section

variable (factory : Nat → Prop) [DecidablePred factory] (ni : Nmbm)

instance : Decidable (MappedOutside d factory ni) :=
  decidable_of_iff (_ ∧ _ ∧ _ ∧ _)
    ⟨fun h => ⟨h.1, h.2.1, h.2.2.1, h.2.2.2⟩, fun h => ⟨h.inj, h.lt, h.place, h.clean⟩⟩

instance (block newBlock : Nat) : Decidable (FreeFor d factory ni block newBlock) :=
  decidable_of_iff (_ ∧ _ ∧ _ ∧ _)
    ⟨fun h => ⟨h.1, h.2.1, h.2.2.1, h.2.2.2⟩, fun h => ⟨h.other, h.lt, h.place, h.clean⟩⟩

end

variable {factory : Nat → Prop} {block newBlock : Nat}

lemma MappedOutside.moved (h : MappedOutside d factory ni)
    (hfree : FreeFor d factory ni block newBlock) :
    MappedOutside d factory { ni with blockMapping := update ni.blockMapping block newBlock } := by
  have hall : ∀ P : Nat → Prop, P newBlock → (∀ a < ni.dataBlockCount, P (ni.blockMapping a)) →
      ∀ a < ni.dataBlockCount, P (update ni.blockMapping block newBlock a) := by
    intro P hnew hold a ha
    by_cases hab : a = block
    · rw [hab, update_self]
      exact hnew
    · rw [update_of_ne hab]
      exact hold a ha
  refine ⟨fun a ha b hb hab => ?_, hall (· < d.totalBlks) hfree.lt h.lt,
    hall (fun b => b < ni.mgmtStartBa ∨ ni.mappingBlocksBa ≤ b) hfree.place h.place,
    hall (¬ factory ·) hfree.clean h.clean⟩
  dsimp only at ha hb hab
  by_cases hablock : a = block <;> by_cases hbblock : b = block
  · rw [hablock, hbblock]
  · rw [hablock, update_self, update_of_ne hbblock] at hab
    exact absurd hab.symm (hfree.other b hb hbblock)
  · rw [hbblock, update_self, update_of_ne hablock] at hab
    exact absurd hab (hfree.other a ha hablock)
  · rw [update_of_ne hablock, update_of_ne hbblock] at hab
    exact h.inj a ha b hb hab

/-! ## The highest spare block -/

section Top

variable {mapping : Nat → Nat} {mappingBlocksBa : Nat}

lemma unmapTopLoop_lt (n block : Nat) (newBlock : Int)
    (hlt : ∀ a, block ≤ a → a < block + n → mapping a < 2 ^ 31) :
    unmapTopLoop mapping mappingBlocksBa n block newBlock ≤ newBlock ∧ ∀ a, block ≤ a →
    a < block + n →
      mappingBlocksBa ≤ mapping a →
      unmapTopLoop mapping mappingBlocksBa n block newBlock < mapping a := by
  induction n generalizing block newBlock with
  | zero => exact ⟨Int.le_refl _, fun a _ _ _ => by omega⟩
  | succ n ih =>
    have hblock := signed32_of_lt (hlt block (le_refl _) (by omega))
    unfold unmapTopLoop
    rw [hblock]
    obtain ⟨hle, hbelow⟩ := ih (block + 1) (if mapping block < mappingBlocksBa then newBlock
      else if (mapping block : Int) ≤ newBlock then (mapping block : Int) - 1 else newBlock)
      (fun a ha ha' => hlt a (by omega) (by omega))
    refine ⟨?_, ?_⟩
    · refine Int.le_trans hle ?_
      split_ifs <;> omega
    intro a ha ha' hge
    by_cases hfirst : a = block
    · subst hfirst
      refine Int.lt_of_le_of_lt hle ?_
      split_ifs <;> omega
    · exact hbelow a (by omega) (by omega) hge

lemma unmapTopLoop_ge {low : Int} : ∀ (n block : Nat) (newBlock : Int),
    (∀ a, block ≤ a → a < block + n → mapping a < 2 ^ 31) →
    (∀ a, block ≤ a → a < block + n → mappingBlocksBa ≤ mapping a → low < mapping a) →
    low ≤ newBlock → low ≤ unmapTopLoop mapping mappingBlocksBa n block newBlock := by
  intro n
  induction n with
  | zero => intro block newBlock _ _ h; exact h
  | succ n ih =>
    intro block newBlock hlt habove hlow
    have hblock := signed32_of_lt (hlt block (le_refl _) (by omega))
    have hfirst := habove block (le_refl _) (by omega)
    unfold unmapTopLoop
    apply ih
    · exact fun a ha ha' => hlt a (by omega) (by omega)
    · exact fun a ha ha' => habove a (by omega) (by omega)
    split_ifs with hskip
    · exact hlow
    · have := hfirst (by omega)
      omega
    · exact hlow

end Top

/-- The mapping stays outside if the blocks that are remapped are not among the spare ones. -/
theorem MappedOutside.updated (h : MappedOutside d factory ni)
    (horder : ni.backupTableBa ≤ ni.mappingBlocksBa)
    (habove : ∀ a < ni.dataBlockCount, ni.blockMapping a < ni.mgmtStartBa ∨
      ni.mappingBlocksBa ≤ ni.blockMapping a ∧ ni.mappingBlocksTopBa ≤ ni.blockMapping a)
      (F : Faults) : MappedOutside d factory (nmbmUpdateInfoTable F d ni).2 := by
  have hu := nmbmUpdateInfoTable_updated F d ni
  constructor
  · rw [hu.dataBlockCount, hu.blockMapping]
    exact h.inj
  · rw [hu.dataBlockCount, hu.blockMapping]
    exact h.lt
  · rw [hu.dataBlockCount, hu.blockMapping, hu.mgmtStartBa]
    intro a ha
    refine (habove a ha).imp_right fun ⟨hge, htop⟩ => ?_
    exact (hu.reach _ htop hge (le_trans horder hge)).1
  · rw [hu.dataBlockCount, hu.blockMapping]
    exact h.clean

/-! ## Unmapping -/

lemma unmapStart_some {mapping : Nat → Nat} {mappingBlocksBa : Nat} {b start : Nat}
    (h : unmapStart mapping mappingBlocksBa b = some start) : start ≤ b ∧
    mapping start < mappingBlocksBa := by
  induction b generalizing start with
  | zero =>
    unfold unmapStart at h
    split_ifs at h with hmapped
    cases some.inj h
    exact ⟨le_refl _, by omega⟩
  | succ b ih =>
    unfold unmapStart at h
    split_ifs at h with hmapped
    · obtain ⟨hle, hlt⟩ := ih h
      exact ⟨by omega, hlt⟩
    · cases some.inj h
      exact ⟨le_refl _, by omega⟩

lemma Nmbm.unmapTarget_pos (htarget : ni.unmapTarget block = some newBlock) :
    0 < ni.mappingBlocksBa := by
  unfold Nmbm.unmapTarget at htarget
  split_ifs at htarget with hblock
  split at htarget
  next => cases htarget
  next start hstart => exact lt_of_le_of_lt (zero_le _) (unmapStart_some hstart).2

/-- After the mapping of `block` has changed, the top of the spare blocks is below all blocks that
are remapped. -/
theorem unmapTo_top_lt (hout : MappedOutside d factory (ni.unmapTo block newBlock))
    (hsig : 0 < ni.signatureBa) (hlt : ni.signatureBa < d.totalBlks) (hpos : 0 < ni.mappingBlocksBa)
    {a : Nat} (ha : a < ni.dataBlockCount)
    (hge : ni.mappingBlocksBa ≤ (ni.unmapTo block newBlock).blockMapping a) :
    (ni.unmapTo block newBlock).mappingBlocksTopBa <
      (ni.unmapTo block newBlock).blockMapping a := by
  have htotal := d.totalBlks_lt
  have hsmall : ∀ a, 0 ≤ a → a < 0 + ni.dataBlockCount →
      (ni.unmapTo block newBlock).blockMapping a < 2 ^ 31 := by
    intro a _ ha
    have := hout.lt a (show a < ni.dataBlockCount by omega)
    omega
  obtain ⟨hle, hbelow⟩ :=
    @unmapTopLoop_lt _ ni.mappingBlocksBa ni.dataBlockCount 0 (ni.signatureBa - 1) hsmall
  have hnonneg := @unmapTopLoop_ge _ ni.mappingBlocksBa 0 ni.dataBlockCount 0
    (ni.signatureBa - 1) hsmall
    (fun a _ _ hge => by omega) (by omega)
  have hbelow := hbelow a (zero_le _) (by omega) hge
  show (unmapTopLoop (ni.unmapTo block newBlock).blockMapping _ _ _ _ % 2 ^ 32).toNat < _
  omega

/-- The block that is computed for `block`, if any, is one that the logical block may have. -/
def TargetFree (d : NmbmDev) (factory : Nat → Prop) (ni : Nmbm) (block : Nat) : Prop :=
  ∀ newBlock ∈ ni.unmapTarget block, FreeFor d factory ni block newBlock

lemma MappedOutside.unmap {sig : Nat} (h : MappedOutside d factory ni) (htidy : Tidy sig ni)
    (hsig : 0 < sig) (hlt : sig < d.totalBlks) (hfree : TargetFree d factory ni block)
    (F : Faults) : MappedOutside d factory (unmapBlockNmbm F d ni block) := by
  unfold unmapBlockNmbm
  split
  next => exact h
  next newBlock htarget =>
    have hmoved : MappedOutside d factory (ni.unmapTo block newBlock) :=
      { h.moved (hfree newBlock htarget) with }
    rw [← htidy.signature] at hsig hlt
    refine hmoved.updated htidy.order (fun a ha => (hmoved.place a ha).imp_right fun hge =>
      ⟨hge, ?_⟩) F
    exact le_of_lt (unmapTo_top_lt hmoved hsig hlt (Nmbm.unmapTarget_pos htarget) ha hge)

lemma Tidy.unmap {sig : Nat} (h : Tidy sig ni) (F : Faults) (d : NmbmDev) (block : Nat) :
    Tidy sig (unmapBlockNmbm F d ni block) := by
  unfold unmapBlockNmbm
  split
  next => exact h
  next newBlock htarget =>
    have htidy : Tidy sig (ni.unmapTo block newBlock) := { h with }
    exact htidy.updated (nmbmUpdateInfoTable_updated ..)

/-! ## Remapping -/

/-- No logical block is mapped to a spare block, and the highest spare block, if there is one, is
good: `nmbm_map_block` passes over none. -/
structure SpareFree (d : NmbmDev) (factory : Nat → Prop) (ni : Nmbm) : Prop where
  above : ∀ a < ni.dataBlockCount,
    ni.blockMapping a < ni.mgmtStartBa ∨ ni.mappingBlocksTopBa < ni.blockMapping a
  mgmt_le : ni.mgmtStartBa ≤ ni.mappingBlocksTopBa
  map_le : ni.mappingBlocksBa ≤ ni.mappingBlocksTopBa
  top_lt : ni.mappingBlocksTopBa < d.totalBlks
  good : ni.mappingBlocksBa ≠ ni.mappingBlocksTopBa →
    ni.blockState ni.mappingBlocksTopBa = .good ∧ ¬ factory ni.mappingBlocksTopBa

/-- `nmbm_map_block` takes the highest spare block if it is good. -/
theorem nmbmMapBlock_top (hlt : ni.mappingBlocksBa < ni.mappingBlocksTopBa)
    (htop : ni.mappingBlocksTopBa < d.totalBlks)
    (hgood : ni.blockState ni.mappingBlocksTopBa = .good)
    (lb : Nat) : nmbmMapBlock F d ni lb = (true, { ni with
      blockMapping := update ni.blockMapping lb ni.mappingBlocksTopBa
      mappingBlocksTopBa := ni.mappingBlocksTopBa - 1
      blockMappingChanged := ni.blockMappingChanged + 1 }) := by
  have hwalk : nmbmBlockWalkDesc d ni.toMedia ni.mappingBlocksTopBa 0 ni.mappingBlocksBa =
      some ni.mappingBlocksTopBa := by
    obtain ⟨n, hn⟩ : ∃ n, ni.mappingBlocksTopBa - ni.mappingBlocksBa = n + 1 :=
      ⟨ni.mappingBlocksTopBa - ni.mappingBlocksBa - 1, by omega⟩
    unfold nmbmBlockWalkDesc NmbmDev.walkLimit
    rw [if_neg (by omega), hn, walkDesc, if_pos hgood, if_pos rfl]
  unfold nmbmMapBlock
  rw [if_neg (by omega), hwalk]

lemma MappedOutside.remap (h : MappedOutside d factory ni)
    (horder : ni.backupTableBa ≤ ni.mappingBlocksBa)
    (hspare : SpareFree d factory ni) (hblock : block < ni.dataBlockCount) (F : Faults)
    (copyLen : Nat) :
    MappedOutside d factory (remapBlockNmbm F d ni block (ni.blockMapping block) copyLen).2 := by
  have habove := hspare.above
  have hmgmt := hspare.mgmt_le
  obtain ⟨c, heq⟩ := remapBlockNmbm_snd F d hblock (ni.blockMapping block) copyLen
  rw [heq]
  by_cases hfull : ni.mappingBlocksBa = ni.mappingBlocksTopBa
  · have hnone : nmbmMapBlock F d (ni.giveUp (ni.blockMapping block)) block =
        (false, ni.giveUp (ni.blockMapping block)) := if_pos hfull
    rw [hnone]
    exact { h with }
  obtain ⟨hgood, hclean⟩ := hspare.good hfull
  have hlt := lt_of_le_of_ne hspare.map_le hfull
  -- the block that is given up is not the one that is taken
  have hne : ni.mappingBlocksTopBa ≠ ni.blockMapping block := by
    have := habove block hblock
    omega
  have hfree : FreeFor d factory ni block ni.mappingBlocksTopBa := by
    refine ⟨fun a ha _ => ?_, hspare.top_lt, .inr (le_of_lt hlt), hclean⟩
    have := habove a ha
    omega
  have hmoved := h.moved hfree
  rw [@nmbmMapBlock_top F d (ni.giveUp (ni.blockMapping block)) hlt hspare.top_lt
    ((update_of_ne hne ..).trans hgood), if_pos rfl]
  refine MappedOutside.updated ?_ ?_ (fun a ha => ?_) F
  · exact ⟨hmoved.inj, hmoved.lt, hmoved.place, hmoved.clean⟩
  · exact horder
  show update ni.blockMapping block ni.mappingBlocksTopBa a < ni.mgmtStartBa ∨
    ni.mappingBlocksBa ≤ update ni.blockMapping block ni.mappingBlocksTopBa a ∧
      ni.mappingBlocksTopBa - 1 ≤ update ni.blockMapping block ni.mappingBlocksTopBa a
  by_cases hab : a = block
  · rw [hab, update_self]
    exact .inr ⟨le_of_lt hlt, sub_le _ _⟩
  · rw [update_of_ne hab]
    have := habove a ha
    omega

/-! ## Runs -/

/-- What is done to an attached instance: a block is remapped or the remapping is taken back, with
the faults that happen in the meantime, or the chip is accessed otherwise. -/
inductive NmbmCall
  | remap (F : Faults) (block copyLen : Nat)
  | unmap (F : Faults) (block : Nat)
  | access (c : Chip)

/-- A remap first looks up the block, as the callers do. -/
def NmbmDev.step (d : NmbmDev) (ni : Nmbm) : NmbmCall → Nmbm
  | .remap F block copyLen =>
    match getMappingBlockIndexNmbm ni block with
    | none => ni
    | some mappedBlock => (remapBlockNmbm F d ni block mappedBlock copyLen).2
  | .unmap F block => unmapBlockNmbm F d ni block
  | .access c => { ni with chip := c }

/-- The instances that calls lead to after `nmbm_attach`. -/
inductive Nmbm.Reached (d : NmbmDev) : Nmbm → Prop
  | attach {F : Faults} {heap : Nat → Nat} {c : Chip} {ni : Nmbm}
    (h : nmbmAttach F d heap c = some ni) :
      Reached d ni
  | call {ni : Nmbm} (h : Reached d ni) (call : NmbmCall) : Reached d (d.step ni call)

/-- The condition on a call. -/
def NmbmCall.Meets (d : NmbmDev) (factory : Nat → Prop) (ni : Nmbm) : NmbmCall → Prop
  | .remap _ block _ => block < ni.dataBlockCount → SpareFree d factory ni
  | .unmap _ block => TargetFree d factory ni block
  | .access _ => True

lemma NmbmDev.step_remap (F : Faults) (block copyLen : Nat) : d.step ni (.remap F block copyLen) =
    if block ≥ ni.dataBlockCount then ni
    else (remapBlockNmbm F d ni block (ni.blockMapping block) copyLen).2 := by
  unfold NmbmDev.step getMappingBlockIndexNmbm
  dsimp only
  split_ifs
  · rfl
  · rfl

lemma Tidy.step {sig : Nat} (h : Tidy sig ni) (d : NmbmDev) (call : NmbmCall) :
    Tidy sig (d.step ni call) := by
  cases call with
  | remap F block copyLen =>
    rw [NmbmDev.step_remap]
    split_ifs with hblock
    · exact h
    · exact h.remap F d (not_le.1 hblock) _ _
  | unmap F block => exact h.unmap F d block
  | access c => exact { h with }

lemma MappedOutside.step {sig : Nat} (h : MappedOutside d factory ni) (htidy : Tidy sig ni)
    (hsig : 0 < sig) (hlt : sig < d.totalBlks) {call : NmbmCall}
    (hmeets : call.Meets d factory ni) : MappedOutside d factory (d.step ni call) := by
  cases call with
  | remap F block copyLen =>
    rw [NmbmDev.step_remap]
    split_ifs with hblock
    · exact h
    · exact h.remap htidy.order (hmeets (not_le.1 hblock)) (not_le.1 hblock) F copyLen
  | unmap F block => exact h.unmap htidy hsig hlt hmeets F
  | access c => exact { h with }

lemma Nmbm.Reached.tidy (h : Nmbm.Reached d ni) : ∃ sig < d.totalBlks, Tidy sig ni := by
  induction h with
  | attach h => exact nmbmAttach_tidy h
  | call _ call ih =>
    obtain ⟨sig, hlt, htidy⟩ := ih
    exact ⟨sig, hlt, htidy.step d call⟩

/-- Once every logical block has its own block outside the management area, this stays so, whatever
fails, in all calls that find the spare blocks in order and the block to be mapped again free. -/
theorem unmap_keeps_outside (h : Nmbm.Reached d ni) (hsig : 0 < ni.signatureBa)
    (hout : MappedOutside d factory ni) (calls : List NmbmCall)
    (hmeets : Each d.step (fun ni call => call.Meets d factory ni) ni calls) :
    Always d.step (MappedOutside d factory) ni calls := by
  obtain ⟨sig, hlt, htidy⟩ := h.tidy
  have hpos : 0 < sig := htidy.signature ▸ hsig
  have hstep : ∀ ni call, True → MappedOutside d factory ni ∧ Tidy sig ni →
      call.Meets d factory ni → MappedOutside d factory (d.step ni call) ∧
        Tidy sig (d.step ni call) :=
    fun _ call _ h hcall => ⟨h.1.step h.2 hpos hlt hcall, h.2.step d call⟩
  exact always_of_each (fun _ h => h.1) hstep calls (fun _ _ => trivial) ⟨hout, htidy⟩ hmeets

/-! ## A logical block at the end of the data area

Block 0 of the chip is marked by the factory. The eight logical blocks get the blocks 1 to 7 and the
highest spare block, 14. The main table lies in block 8, the backup table in block 11. -/

def sixteenBlocks : NmbmDev where
  blkShift := 8
  pgShift := 6
  totalBlks := 16
  remapRange := []
  pgShift_le := show 5 < 8 by decide
  totalBlks_lt := by decide
  oobSize := 16
  maxRatio := 8
  maxReservedBlocks := 0
  emptyPageEccOk := false
  forceCreate := true
  maxRatio_le := show 7 < 16 by decide
  pgShift_ge := show 5 < 6 by decide

def firstMarked (b : Nat) : Bool := b = 0

def firstChip : Chip := ⟨fun _ => .erased, firstMarked, 0, []⟩

/-- Two blocks are remapped, and then one of them is mapped as before. -/
theorem unmap_keeps_outside_sixteenBlocks :
    ∃ ni, nmbmAttach .none sixteenBlocks (fun _ => 0) firstChip = some ni ∧
      Always sixteenBlocks.step (MappedOutside sixteenBlocks (fun b => firstMarked b))
        (sixteenBlocks.step (sixteenBlocks.step ni (.remap .none 3 0)) (.remap .none 5 0))
        [.unmap .none 3] := by
  have hrun : ∃ ni ∈ nmbmAttach .none sixteenBlocks (fun _ => 0) firstChip,
      let ni := sixteenBlocks.step (sixteenBlocks.step ni (.remap .none 3 0)) (.remap .none 5 0)
      0 < ni.signatureBa ∧ MappedOutside sixteenBlocks (fun b => firstMarked b) ni ∧
        ∀ newBlock ∈ ni.unmapTarget 3,
          FreeFor sixteenBlocks (fun b => firstMarked b) ni 3 newBlock := by
    decide +kernel
  obtain ⟨ni, hattach, hsig, hout, hfree⟩ := hrun
  exact ⟨ni, hattach, unmap_keeps_outside (.call (.call (.attach hattach) _) _) hsig hout _
    ⟨hfree, trivial⟩⟩

/-- Unmapping the last logical block of the new chip maps it to the block of the main table. -/
theorem unmap_into_main_table :
    ∃ ni, nmbmAttach .none sixteenBlocks (fun _ => 0) firstChip = some ni ∧ 7 < ni.dataBlockCount ∧
      MappedOutside sixteenBlocks (fun b => firstMarked b) ni ∧
      ¬ MappedOutside sixteenBlocks (fun b => firstMarked b)
        (unmapBlockNmbm .none sixteenBlocks ni 7) := by
  have hrun : ∃ ni ∈ nmbmAttach .none sixteenBlocks (fun _ => 0) firstChip, 7 < ni.dataBlockCount ∧
      MappedOutside sixteenBlocks (fun b => firstMarked b) ni ∧
      ¬ MappedOutside sixteenBlocks (fun b => firstMarked b)
        (unmapBlockNmbm .none sixteenBlocks ni 7) := by
    decide +kernel
  exact hrun

end SourceMaster.Nand
