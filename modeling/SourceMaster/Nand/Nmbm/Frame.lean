import SourceMaster.Nand.Nmbm.Attach

/-!
# NMBM: what writing to a range can change

Whatever fails, a function that erases or writes the blocks of a range changes no other block, and
the only thing it does to the states is to turn good blocks of the range into bad ones. `Touched`
says so for every function that writes; all invariants of the regions are derived from it.
-/

namespace SourceMaster.Nand

open Function Nat

variable {F : Faults} {d : NmbmDev}

/-! ## One block -/

structure Chip.OnlyAt (ba : Nat) (c c' : Chip) : Prop where
  block : ∀ b, b ≠ ba → c'.block b = c.block b
  isBad : c'.isBad = c.isBad

namespace Chip.OnlyAt

variable {ba : Nat} {c c' c'' : Chip}

lemma refl (ba : Nat) (c : Chip) : OnlyAt ba c c := ⟨fun _ _ => rfl, rfl⟩

lemma trans (h : OnlyAt ba c c') (h' : OnlyAt ba c' c'') : OnlyAt ba c c'' :=
  ⟨fun b hb => (h'.block b hb).trans (h.block b hb), h'.isBad.trans h.isBad⟩

lemma of_set (ba : Nat) (c : Chip) (blk : Block) : OnlyAt ba c (c.set ba blk) :=
  ⟨fun _ hb => Chip.set_block_of_ne hb blk, rfl⟩

end Chip.OnlyAt

lemma readTries_block (n : Nat) (c : Chip) :
    (readTries F n c).2.block = c.block ∧ (readTries F n c).2.isBad = c.isBad := by
  induction n generalizing c with
  | zero => exact ⟨rfl, rfl⟩
  | succ n ih =>
    unfold readTries
    dsimp only
    split_ifs
    · exact ⟨rfl, rfl⟩
    · exact ⟨rfl, rfl⟩
    · exact ih _

variable {st : Nat → BlockState} (ba off len : Nat) (c : Chip) (dat : Nat → Nat)

lemma nmbmReadPhysPage_onlyAt : c.OnlyAt ba (nmbmReadPhysPage F c).2 :=
  ⟨fun b _ => congrFun (readTries_block _ c).1 b, (readTries_block _ c).2⟩

lemma eraseTries_onlyAt (n : Nat) (c : Chip) : c.OnlyAt ba (eraseTries F ba n c).2 := by
  induction n generalizing c with
  | zero => exact .refl ba c
  | succ n ih =>
    have hstep : c.OnlyAt ba (c.erase F ba).2 :=
      ⟨fun b hb => Chip.erase_block_of_ne hb, Chip.erase_isBad ba⟩
    unfold eraseTries
    dsimp only
    split_ifs
    · exact hstep
    · exact hstep.trans (ih _)

lemma checkEmptyPages_onlyAt (n : Nat) (c : Chip) : c.OnlyAt ba (checkEmptyPages F n c).2 := by
  induction n generalizing c with
  | zero => exact .refl ba c
  | succ n ih =>
    unfold checkEmptyPages
    dsimp only
    split_ifs
    · exact nmbmReadPhysPage_onlyAt ba c
    · exact (nmbmReadPhysPage_onlyAt ba c).trans (ih _)

lemma nmbmEraseBlockAndCheck_onlyAt : c.OnlyAt ba (nmbmEraseBlockAndCheck F d ba c).2 := by
  have herase : c.OnlyAt ba (nmbmErasePhysBlock F ba c).2 := eraseTries_onlyAt ba _ c
  unfold nmbmEraseBlockAndCheck
  dsimp only
  split_ifs
  · exact herase
  · exact herase
  · exact herase.trans (checkEmptyPages_onlyAt ba _ _)

lemma writePage_onlyAt (c : Chip) : c.OnlyAt ba (c.writePage F ba off len dat).2 := by
  unfold Chip.writePage
  split
  · exact .of_set ba c _
  · split <;> exact .of_set ba c _

lemma writeTries_onlyAt (n : Nat) (c : Chip) :
    c.OnlyAt ba (writeTries F ba off len dat n c).2 := by
  induction n generalizing c with
  | zero => exact .refl ba c
  | succ n ih =>
    have hstep : c.OnlyAt ba (c.writePage F ba off len dat).2 := writePage_onlyAt ba off len dat c
    unfold writeTries
    dsimp only
    split_ifs
    · exact hstep
    · exact hstep.trans (ih _)

lemma writeVerifyPage_onlyAt (c : Chip) :
    c.OnlyAt ba (writeVerifyPage F d ba off len dat c).2 := by
  have hwrite : ∀ page, c.OnlyAt ba (nmbmWritePhysPage F d ba off page c).2 :=
    fun page => writeTries_onlyAt ba off _ page _ c
  unfold writeVerifyPage
  dsimp only
  split_ifs
  · exact hwrite _
  · exact (hwrite _).trans (nmbmReadPhysPage_onlyAt ba _)
  · exact (hwrite _).trans (nmbmReadPhysPage_onlyAt ba _)

lemma writeVerifyLoop_onlyAt (size : Nat) (n off : Nat) (c : Chip) :
    c.OnlyAt ba (writeVerifyLoop F d ba dat size n off c).2 := by
  induction n generalizing off c with
  | zero => exact .refl ba c
  | succ n ih =>
    unfold writeVerifyLoop
    dsimp only
    split_ifs
    · exact (writeVerifyPage_onlyAt ba off _ _ c).trans (ih _ _)
    · exact writeVerifyPage_onlyAt ba off _ _ c

/-! ## Counting good blocks -/

def goodCount (st : Nat → BlockState) : Nat → Nat
  | 0 => 0
  | n + 1 => goodCount st n + if st n = .good then 1 else 0

lemma goodCount_congr {st' : Nat → BlockState} (n : Nat) (h : (∀ b < n, st' b = st b)) :
    goodCount st' n = goodCount st n := by
  induction n with
  | zero => rfl
  | succ n ih =>
    unfold goodCount
    rw [ih (fun b hb => h b (lt_succ_of_lt hb)), h n (lt_succ_self n)]

lemma goodCount_update {ba : Nat} (hgood : st ba = .good) : ∀ n, ba < n →
    goodCount (update st ba .bad) n + 1 = goodCount st n := by
  intro n
  induction n with
  | zero => intro h; exact absurd h (not_lt_zero _)
  | succ n ih =>
    intro hba
    unfold goodCount
    by_cases hn : ba = n
    · subst hn
      rw [update_self, hgood, goodCount_congr ba fun b hb => update_of_ne (by omega) ..]
      rfl
    · rw [update_of_ne (fun h => hn h.symm)]
      omega

lemma goodCount_le (st : Nat → BlockState) (n : Nat) : goodCount st n ≤ n := by
  induction n with
  | zero => exact le_refl _
  | succ n ih =>
    unfold goodCount
    split_ifs <;> omega

/-! ## Ranges -/

/-- What may change in the states and on the chip when blocks `lo, …, hi - 1` are erased or
written. -/
structure Frame (lo hi : Nat) (m m' : Media) : Prop where
  state : ∀ b, m'.blockState b ≠ m.blockState b →
    (lo ≤ b ∧ b < hi) ∧ m.blockState b = .good ∧ m'.blockState b = .bad
  block : ∀ b, b < lo ∨ hi ≤ b → m'.chip.block b = m.chip.block b
  isBad : ∀ b, m'.chip.isBad b ≠ m.chip.isBad b →
    (lo ≤ b ∧ b < hi) ∧ m'.chip.isBad b ∧ m'.blockState b = .bad

structure Touched (lo hi : Nat) (m m' : Media) : Prop extends Frame lo hi m m' where
  count : ∀ n, hi ≤ n → m'.blockStateChanged + goodCount m'.blockState n =
    m.blockStateChanged + goodCount m.blockState n

namespace Frame

variable {lo hi : Nat} {m m' m'' : Media}

lemma refl (lo hi : Nat) (m : Media) : Frame lo hi m m :=
  ⟨fun _ h => absurd rfl h, fun _ _ => rfl, fun _ h => absurd rfl h⟩

lemma trans (h : Frame lo hi m m') (h' : Frame lo hi m' m'') : Frame lo hi m m'' := by
  refine ⟨?_, ?_, ?_⟩
  · intro b hb
    by_cases h1 : m'.blockState b = m.blockState b
    · rw [← h1] at hb ⊢
      exact h'.state b hb
    obtain ⟨hrange, hgood, hbad⟩ := h.state b h1
    refine ⟨hrange, hgood, ?_⟩
    by_cases h2 : m''.blockState b = m'.blockState b
    · rw [h2, hbad]
    · exact (h'.state b h2).2.2
  · intro b hb
    rw [h'.block b hb, h.block b hb]
  · intro b hb
    by_cases h2 : m''.chip.isBad b = m'.chip.isBad b
    · rw [h2] at hb ⊢
      obtain ⟨hrange, hmark, hbad⟩ := h.isBad b hb
      refine ⟨hrange, hmark, ?_⟩
      by_cases h3 : m''.blockState b = m'.blockState b
      · rw [h3, hbad]
      · exact (h'.state b h3).2.2
    · exact h'.isBad b h2

lemma mono {lo' hi' : Nat} (h : Frame lo hi m m') (hlo : lo' ≤ lo) (hhi : hi ≤ hi') :
    Frame lo' hi' m m' := by
  refine ⟨?_, ?_, ?_⟩
  · intro b hb
    obtain ⟨hrange, hrest⟩ := h.state b hb
    exact ⟨by omega, hrest⟩
  · intro b hb
    exact h.block b (by omega)
  · intro b hb
    obtain ⟨hrange, hrest⟩ := h.isBad b hb
    exact ⟨by omega, hrest⟩

lemma good_of_good (h : Frame lo hi m m') {b : Nat} (hb : m'.blockState b = .good) :
    m.blockState b = .good := by
  by_contra hne
  have hdiff : m'.blockState b ≠ m.blockState b := fun heq => hne (heq ▸ hb)
  exact hne (h.state b hdiff).2.1

lemma state_eq (h : Frame lo hi m m') {b : Nat} (hb : b < lo ∨ hi ≤ b) :
    m'.blockState b = m.blockState b := by
  by_contra hne
  have hrange := (h.state b hne).1
  omega

end Frame

namespace Touched

variable {lo hi : Nat} {m m' m'' : Media}

lemma refl (lo hi : Nat) (m : Media) : Touched lo hi m m := ⟨.refl lo hi m, fun _ _ => rfl⟩

lemma trans (h : Touched lo hi m m') (h' : Touched lo hi m' m'') : Touched lo hi m m'' :=
  ⟨h.toFrame.trans h'.toFrame, fun n hn => (h'.count n hn).trans (h.count n hn)⟩

lemma of_onlyAt {ba : Nat} {c : Chip} (hba : lo ≤ ba ∧ ba < hi) (h : m.chip.OnlyAt ba c) :
    Touched lo hi m { m with chip := c } := by
  refine ⟨⟨fun _ hne => absurd rfl hne, ?_, ?_⟩, fun _ _ => rfl⟩
  · intro b hb
    exact h.block b (by omega)
  · intro b hne
    exact absurd (congrFun h.isBad b) hne

lemma setBad {ba : Nat} (hba : lo ≤ ba ∧ ba < hi) (hgood : m.blockState ba = .good) :
    Touched lo hi m (m.setBlockState ba .bad) := by
  unfold Media.setBlockState
  refine ⟨⟨?_, fun _ _ => rfl, fun _ hne => absurd rfl hne⟩, ?_⟩
  · intro b hne
    by_cases hb : b = ba
    · subst hb
      exact ⟨hba, hgood, update_self ..⟩
    · exact absurd (update_of_ne hb ..) hne
  · intro n hn
    dsimp only
    rw [if_pos (by rw [hgood]; decide)]
    have := goodCount_update hgood n (by omega)
    omega

lemma markBad {ba : Nat} (hba : lo ≤ ba ∧ ba < hi) (hgood : m.blockState ba = .good) :
    Touched lo hi m (m.markBad ba) := by
  obtain ⟨⟨hstate, hblock, _⟩, hcount⟩ :=
    setBad (m := { m with chip := m.chip.markBad ba }) hba hgood
  refine ⟨⟨hstate, hblock, ?_⟩, hcount⟩
  intro b hne
  have hb : b = ba := by
    by_contra hb
    exact hne (update_of_ne hb ..)
  subst hb
  exact ⟨hba, update_self .., update_self ..⟩

end Touched

lemma useGoodBlock_touched {lo hi ba : Nat} {action : Chip → Bool × Chip} {m : Media}
    (hba : lo ≤ ba ∧ ba < hi) (haction : ∀ c : Chip, c.OnlyAt ba (action c).2) :
    Touched lo hi m (useGoodBlock F d ba action m).2 := by
  have herase := nmbmEraseBlockAndCheck_onlyAt (F := F) (d := d) ba m.chip
  unfold useGoodBlock
  dsimp only
  split_ifs with hgood
  · exact .refl lo hi m
  · exact .setBad hba (not_not.mp hgood)
  · exact (Touched.of_onlyAt hba herase).trans (.markBad hba (not_not.mp hgood))
  · exact .of_onlyAt hba (herase.trans (haction _))
  · exact (Touched.of_onlyAt hba (herase.trans (haction _))).trans (.markBad hba (not_not.mp hgood))

lemma eraseRangeLoop_touched {lo hi : Nat} (n ba : Nat) (m : Media) (hlo : lo ≤ ba)
    (hhi : ba + n ≤ hi) : Touched lo hi m (eraseRangeLoop F d n ba m) := by
  induction n generalizing ba m with
  | zero => exact .refl lo hi m
  | succ n ih =>
    have hstep : Touched lo hi m (eraseRangeBlock F d ba m) :=
      useGoodBlock_touched ⟨hlo, by omega⟩ (fun c => .refl ba c)
    exact hstep.trans (ih (ba + 1) _ (by omega) (by omega))

lemma nmbmEraseRange_touched (ba limit : Nat) (ni : Nmbm) :
    Touched ba limit ni.toMedia (nmbmEraseRange F d ba limit ni).toMedia := by
  by_cases h : ba ≤ limit
  · exact eraseRangeLoop_touched _ _ _ (le_refl _) (by omega)
  · unfold nmbmEraseRange
    rw [show limit - ba = 0 from by omega]
    exact .refl ba limit _

lemma writeMgmtLoop_touched {lo hi : Nat} {dat : Nat → Nat} {size : Nat} (n ba off start : Nat)
    (m : Media) (hlo : lo ≤ ba) (hhi : ba + n ≤ hi) :
    Touched lo hi m (writeMgmtLoop F d dat size n ba off start m).2 := by
  induction n generalizing ba off start m with
  | zero => exact .refl lo hi m
  | succ n ih =>
    have hstep : Touched lo hi m (writeMgmtBlock F d ba (fun i => dat (off + i))
        (min d.blkSize (size - off)) m).2 :=
      useGoodBlock_touched ⟨hlo, by omega⟩ (fun c => writeVerifyLoop_onlyAt ba _ _ _ _ c)
    unfold writeMgmtLoop
    dsimp only
    split_ifs
    · exact .refl lo hi m
    · exact hstep.trans (ih _ _ _ _ (by omega) (by omega))
    · exact hstep.trans (ih _ _ _ _ (by omega) (by omega))
    · exact hstep.trans (ih _ _ _ _ (by omega) (by omega))

/-- Where written data lies: up to `e` there are enough blocks for what is behind `off`, and the
start is recorded. -/
theorem writeMgmtLoop_place {dat : Nat → Nat} {size : Nat} (n ba off start : Nat) (m : Media)
    (s e : Nat) (h : (writeMgmtLoop F d dat size n ba off start m).1 = some (s, e)) :
    (ba ≤ e ∧ e ≤ ba + n) ∧ size ≤ off + (e - ba) * d.blkSize ∧ (off ≠ 0 → s = start) ∧
      (off = 0 → 0 < size → ba ≤ s ∧ s < e) := by
  induction n generalizing ba off start m s e with
  | zero =>
    unfold writeMgmtLoop at h
    split_ifs at h
    cases Option.some.inj h
    exact ⟨by omega, by omega, fun _ => rfl, by omega⟩
  | succ n ih =>
    have hmul : ba + 1 ≤ e → (e - ba) * d.blkSize = (e - (ba + 1)) * d.blkSize + d.blkSize := by
      intro hle
      rw [← succ_mul]
      congr 1
      omega
    have hblk := d.blkSize_pos
    unfold writeMgmtLoop at h
    dsimp only at h
    split_ifs at h with hdone hwrite h0
    · cases Option.some.inj h
      exact ⟨by omega, by omega, fun _ => rfl, by omega⟩
    · obtain ⟨hle, hroom, hstart, -⟩ := ih _ _ _ _ s e h
      exact ⟨by omega, by omega, by omega, by omega⟩
    · obtain ⟨hle, hroom, hstart, -⟩ := ih _ _ _ _ s e h
      exact ⟨by omega, by omega, fun _ => hstart (by omega), fun h => absurd h h0⟩
    · obtain ⟨hle, hroom, hstart, hfirst⟩ := ih _ _ _ _ s e h
      exact ⟨by omega, by omega, hstart, fun h0 hsize => by have := hfirst h0 hsize; omega⟩

lemma NmbmDev.infoTableSize_pos (d : NmbmDev) : 0 < d.infoTableSize := by
  have hpg := d.pgSize_pos
  have hhead : 0 < d.stateTableOff := by
    apply Nat.mul_pos _ hpg
    apply Nat.div_pos _ hpg
    show d.pgSize ≤ 32 + d.pgSize - 1
    omega
  unfold infoTableSize mappingTableOff
  omega

/-- Writing a table to a range changes the states only, and a table that has been written lies in
the range.
-/
inductive WroteTable (ba limit : Nat) (ni : Nmbm) : Option (Nat × Nat) × Nmbm → Prop
  | failed (m : Media) (htouched : Touched ba limit ni.toMedia m) :
      WroteTable ba limit ni (none, { ni with toMedia := m })
  | written (start stop : Nat) (m : Media) (htouched : Touched ba limit ni.toMedia m)
      (hle : ba ≤ start) (hlt : start < stop) (hstop : stop ≤ limit) :
      WroteTable ba limit ni (some (start, stop), { ni with toMedia := m })

lemma WroteTable.mono {ba ba' limit : Nat} {ni : Nmbm} {w : Option (Nat × Nat) × Nmbm}
    (h : WroteTable ba limit ni w) (hba : ba' ≤ ba) : WroteTable ba' limit ni w := by
  cases h with
  | failed m htouched =>
    exact .failed m ⟨htouched.toFrame.mono hba (le_refl _), htouched.count⟩
  | written start stop m htouched hle hlt hstop =>
    exact .written start stop m ⟨htouched.toFrame.mono hba (le_refl _), htouched.count⟩
      (le_trans hba hle) hlt hstop

lemma nmbmWriteInfoTable_spec (ba limit : Nat) (ni : Nmbm) :
    WroteTable ba limit ni (nmbmWriteInfoTable F d ba limit ni) := by
  have htouched : Touched ba limit ni.toMedia (writeMgmtLoop F d ni.infoTableCache d.infoTableSize
      (limit - ba) ba 0 0 ni.toMedia).2 := by
    by_cases h : ba ≤ limit
    · exact writeMgmtLoop_touched _ _ _ _ _ (le_refl ba) (by omega)
    · rw [show limit - ba = 0 from by omega]
      exact .refl ba limit _
  have hplace := @writeMgmtLoop_place F d ni.infoTableCache d.infoTableSize
    (limit - ba) ba 0 0 ni.toMedia
  unfold nmbmWriteInfoTable
  generalize writeMgmtLoop F d ni.infoTableCache d.infoTableSize (limit - ba) ba 0 0 ni.toMedia =
    r at *
  obtain ⟨p, m⟩ := r
  cases p with
  | none => exact .failed m htouched
  | some p =>
    obtain ⟨hle, -, -, hfirst⟩ := hplace p.1 p.2 rfl
    obtain ⟨hstart, hlt⟩ := hfirst rfl d.infoTableSize_pos
    exact .written p.1 p.2 m htouched hstart hlt (by omega)

/-- The starts that are tried go down to `low`. -/
theorem writeInfoTableDown_spec {low : Nat} (n writeBa : Nat) (ni : Nmbm) (hn : n = 0 ∨
    low + n = writeBa + 1) :
    WroteTable low ni.mappingBlocksTopBa ni (writeInfoTableDown F d n writeBa ni) := by
  induction n generalizing writeBa ni with
  | zero => exact .failed ni.toMedia (.refl _ _ _)
  | succ n ih =>
    have hw := (@nmbmWriteInfoTable_spec F d writeBa ni.mappingBlocksTopBa ni).mono
      (show low ≤ writeBa by omega)
    unfold writeInfoTableDown
    generalize nmbmWriteInfoTable F d writeBa ni.mappingBlocksTopBa ni = w at hw
    cases hw with
    | written start stop m htouched hle hlt hstop =>
      exact .written start stop m htouched hle hlt hstop
    | failed m htouched =>
      have htail := ih (writeBa - 1) { ni with toMedia := m } (by omega)
      show WroteTable _ _ ni (writeInfoTableDown F d n (writeBa - 1) { ni with toMedia := m })
      generalize writeInfoTableDown F d n (writeBa - 1) { ni with toMedia := m } = w at htail
      cases htail with
      | failed m' h => exact .failed m' (htouched.trans h)
      | written start stop m' h hle hlt hstop =>
        exact .written start stop m' (htouched.trans h) hle hlt hstop

end SourceMaster.Nand
