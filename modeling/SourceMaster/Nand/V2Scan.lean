import SourceMaster.Nand.BmtV2

/-!
# What a scan of the chip leaves in the tables

`scan_bad_blocks` numbers the good blocks in ascending order: the first `pool_lba` of them are the
logical blocks, the others are the pool. Each loop gets one lemma, which says what it writes and
that it writes nothing else; together they give `Scanned`.
-/

namespace SourceMaster.Nand

open Function V2Dev Nat

variable {F : Faults} {d : V2Dev} {f : Nat → Nat} {n : Nat}

lemma findValidBlock_spec (n block : Nat) (c : Chip) (h : (findValidBlock F d n block c).1 ≠ 0) :
    block ≤ (findValidBlock F d n block c).1 ∧ (findValidBlock F d n block c).1 < d.totalBlks := by
  induction n generalizing block c with
  | zero =>
    unfold findValidBlock at h ⊢
    split_ifs at h ⊢ with htotal
    · exact absurd rfl h
    · exact absurd rfl h
    · exact ⟨Nat.le_refl _, Nat.lt_of_not_le htotal⟩
  | succ n ih =>
    unfold findValidBlock at h ⊢
    split_ifs at h ⊢ with htotal
    · exact absurd rfl h
    · obtain ⟨hle, hlt⟩ := ih (block + 1) _ h
      exact ⟨le_of_succ_le hle, hlt⟩
    · exact ⟨Nat.le_refl _, Nat.lt_of_not_le htotal⟩

@[simp] lemma findValidBlock_block (n block : Nat) (c : Chip) :
    (findValidBlock F d n block c).2.block = c.block := by
  induction n generalizing block c with
  | zero =>
    unfold findValidBlock
    split_ifs <;> rfl
  | succ n ih =>
    unfold findValidBlock
    split_ifs
    · rfl
    · exact ih (block + 1) _
    · rfl

/-! ## The results of the parts -/

lemma scanLogical_result (n i : Nat) (s : V2) : (scanLogical F d (n + 1) i s).result =
    let r := findValidBlock F d d.bbMax (bbTbl s.mem (i - 1) + 1) s.chip
    if r.1 = 0 then none
    else (scanLogical F d n (i + 1)
      { s with mem := setBbTbl s.mem i r.1, chip := r.2 }).result := by
  rw [scanLogical]
  dsimp only
  split_ifs <;> rfl

lemma thenPool_result (t : Scan) : (t.thenPool F d).result =
    match t.result with
    | none => none
    | some s =>
      let poolPba := bbTbl s.mem (d.poolLba - 1) + 1
      if poolPba ≥ d.totalBlks - 2 then none
      else
        let r := scanPool F d d.totalBlks 0 poolPba s
        if r.count = 0 then none
        else
          let mem := d.setBmtMapped r.s.mem (r.count - 1) bmtMappedVal
          some { r.s with bmtBlkIdx := r.count - 1, mem := mem } := by
  obtain ⟨refs, ok, s⟩ := t
  cases ok with
  | false => rfl
  | true =>
    by_cases hfull : bbTbl s.mem (d.poolLba - 1) + 1 ≥ d.totalBlks - 2
    · simp [Scan.thenPool, Scan.result, hfull]
    · by_cases hnone : (scanPool F d d.totalBlks 0 (bbTbl s.mem (d.poolLba - 1) + 1) s).count = 0
      · simp [Scan.thenPool, Scan.result, hfull, hnone]
      · simp [Scan.thenPool, Scan.result, hfull, hnone]

lemma scanBadBlocks_result (s : V2) : (scanBadBlocks F d s).result =
    match (scanLogical F d (d.poolLba - 1) 1 { s with mem := setBbTbl s.mem 0 0 }).result with
    | none => none
    | some s =>
      let poolPba := bbTbl s.mem (d.poolLba - 1) + 1
      if poolPba ≥ d.totalBlks - 2 then none
      else
        let r := scanPool F d d.totalBlks 0 poolPba s
        if r.count = 0 then none
        else
          let mem := d.setBmtMapped r.s.mem (r.count - 1) bmtMappedVal
          some { r.s with bmtBlkIdx := r.count - 1, mem := mem } := by
  rw [scanBadBlocks, thenPool_result]
  rfl

/-! ## The logical blocks -/

structure LogicalScan (d : V2Dev) (n i : Nat) (s s' : V2) : Prop where
  frame : ∀ w, w < 2 + i ∨ 2 + i + n ≤ w → s'.mem w = s.mem w
  lt : ∀ k l, i - 1 ≤ k → k < l → l < i + n → bbTbl s'.mem k < bbTbl s'.mem l
  bound : ∀ k, i ≤ k → k < i + n → bbTbl s'.mem k < d.totalBlks
  block : s'.chip.block = s.chip.block

lemma scanLogical_spec (n i : Nat) (s s' : V2) (hi : 0 < i)
    (h : (scanLogical F d n i s).result = some s') : LogicalScan d n i s s' := by
  induction n generalizing i s s' with
  | zero =>
    cases Option.some.inj h
    exact ⟨fun _ _ => rfl, fun k l _ _ _ => by omega, fun k _ _ => by omega, rfl⟩
  | succ n ih =>
    rw [scanLogical_result] at h
    dsimp only at h
    split_ifs at h with hr
    obtain ⟨hle, hlt⟩ := findValidBlock_spec _ _ _ hr
    have htail := ih (i + 1) _ s' (succ_pos i) h
    -- the entries up to `i` are left alone from here on
    have hprev : bbTbl s'.mem (i - 1) = bbTbl s.mem (i - 1) := by
      show s'.mem (2 + (i - 1)) = s.mem (2 + (i - 1))
      rw [htail.frame _ (Or.inl (by omega))]
      exact update_of_ne (by omega) ..
    have hself : bbTbl s'.mem i = (findValidBlock F d d.bbMax (bbTbl s.mem (i - 1) + 1) s.chip).1 :=
      (htail.frame (2 + i) (Or.inl (by omega))).trans (update_self ..)
    have hstep : bbTbl s'.mem (i - 1) < bbTbl s'.mem i := by
      rw [hprev, hself]
      exact hle
    refine ⟨?_, ?_, ?_, ?_⟩
    · intro w hw
      rw [htail.frame w (by omega)]
      exact update_of_ne (by omega) ..
    · intro k l hk hkl hl
      by_cases hki : i ≤ k
      · exact htail.lt k l (by omega) hkl (by omega)
      have hk' : k = i - 1 := by omega
      subst hk'
      by_cases hli : l = i
      · rw [hli]
        exact hstep
      · exact lt_trans hstep (htail.lt i l (by omega) (by omega) (by omega))
    · intro k hk hkn
      by_cases hki : k = i
      · rw [hki, hself]
        exact hlt
      · exact htail.bound k (by omega) (by omega)
    · rw [htail.block]
      exact findValidBlock_block _ _ _

/-! ## The pool -/

/-- The loop over the pool from entry `i` and block `block` on, which leaves with `m` entries in
all. -/
structure PoolScan (d : V2Dev) (i block m : Nat) (s s' : V2) : Prop where
  le : i ≤ m
  frame : ∀ w, w < 2 + d.tableSize + 2 * i ∨ 2 + d.tableSize + 2 * m ≤ w → s'.mem w = s.mem w
  lt : ∀ j k, i ≤ j → j < k → k < m → d.bmtBlock s'.mem j < d.bmtBlock s'.mem k
  bound : ∀ j, i ≤ j → j < m → block ≤ d.bmtBlock s'.mem j ∧ d.bmtBlock s'.mem j < d.totalBlks
  ne_zero : ∀ j, i ≤ j → j < m → d.bmtBlock s'.mem j ≠ 0
  free : ∀ j, i ≤ j → j < m → d.bmtMapped s'.mem j = noMapped
  count : m = i ∨ block + (m - i) ≤ d.totalBlks
  block : s'.chip.block = s.chip.block

lemma PoolScan.refl {i block : Nat} {s s' : V2} (hmem : s'.mem = s.mem)
    (hblock : s'.chip.block = s.chip.block) : PoolScan d i block i s s' where
  le := Nat.le_refl _
  frame _ _ := by rw [hmem]
  lt _ _ _ _ hk := by omega
  bound _ _ hj := by omega
  ne_zero _ _ hj := by omega
  free _ _ hj := by omega
  count := .inl rfl
  block := hblock

lemma scanPool_spec (n i block : Nat) (s : V2) :
    PoolScan d i block (scanPool F d n i block s).count s (scanPool F d n i block s).s := by
  induction n generalizing i block s with
  | zero => exact .refl rfl rfl
  | succ n ih =>
    unfold scanPool
    dsimp only
    have hblock := @findValidBlock_block F d d.bbMax block s.chip
    have hspec := @findValidBlock_spec F d d.bbMax block s.chip
    generalize findValidBlock F d d.bbMax block s.chip = r at hblock hspec ⊢
    split_ifs with hr
    · exact .refl rfl hblock
    obtain ⟨hle, hlt⟩ := hspec hr
    set s1 : V2 := { s with
      mem := d.setBmtMapped (d.setBmtBlock s.mem i r.1) i noMapped, chip := r.2 } with hs1
    have htail := ih (i + 1) (r.1 + 1) s1
    generalize scanPool F d n (i + 1) (r.1 + 1) s1 = t at htail ⊢
    change PoolScan d i block t.count s t.s
    -- entry `i` is written in this round and left alone from here on
    have hself : d.bmtBlock t.s.mem i = r.1 := by
      show t.s.mem _ = _
      rw [htail.frame _ (Or.inl (by omega))]
      exact (d.setBmtMapped_bmtBlock ..).trans (d.setBmtBlock_bmtBlock_self ..)
    have hflag : d.bmtMapped t.s.mem i = noMapped := by
      show t.s.mem _ = _
      rw [htail.frame _ (Or.inl (by omega))]
      exact d.setBmtMapped_bmtMapped_self ..
    have hm : i < t.count := htail.le
    refine ⟨le_of_lt hm, ?_, ?_, ?_, ?_, ?_, ?_, ?_⟩
    · intro w hw
      rw [htail.frame w (by omega)]
      show update (update s.mem _ _) _ _ w = _
      rw [update_of_ne (by omega), update_of_ne (by omega)]
    · intro j k hj hjk hk
      by_cases hji : j = i
      · rw [hji, hself]
        exact (htail.bound k (by omega) hk).1
      · exact htail.lt j k (by omega) hjk hk
    · intro j hj hjm
      by_cases hji : j = i
      · rw [hji, hself]
        exact ⟨hle, hlt⟩
      · obtain ⟨h1, h2⟩ := htail.bound j (by omega) hjm
        exact ⟨by omega, h2⟩
    · intro j hj hjm
      by_cases hji : j = i
      · rw [hji, hself]
        exact hr
      · exact htail.ne_zero j (by omega) hjm
    · intro j hj hjm
      by_cases hji : j = i
      · rw [hji, hflag]
      · exact htail.free j (by omega) hjm
    · rcases htail.count with h | h <;> right <;> omega
    · rw [htail.block]
      exact hblock

/-! ## Both tables -/

lemma le_of_ascending (h : ∀ k l, k < l → l < n → f k < f l) : ∀ k < n, k ≤ f k := by
  intro k
  induction k with
  | zero => intro _; exact zero_le _
  | succ k ih =>
    intro hk
    have hlt := h k (k + 1) (lt_succ_self k) hk
    omega

lemma eq_of_ascending (h : ∀ k l, k < l → l < n → f k < f l) :
    ∀ k < n, ∀ l < n, f k = f l → k = l := by
  intro k hk l hl heq
  rcases lt_trichotomy k l with hlt | hkl | hlt
  · exact absurd heq (Nat.ne_of_lt (h k l hlt hl))
  · exact hkl
  · exact absurd heq.symm (Nat.ne_of_lt (h l k hlt hk))

structure Scanned (d : V2Dev) (mem : Nat → Nat) (idx : Nat) : Prop where
  logical_lt : ∀ k l, k < l → l < d.poolLba → bbTbl mem k < bbTbl mem l
  pool_lt : ∀ j k, j < k → k ≤ idx → d.bmtBlock mem j < d.bmtBlock mem k
  pool_bound : ∀ j ≤ idx, d.bmtBlock mem j < d.totalBlks
  /-- The pool lies behind the logical blocks. -/
  behind : ∀ k < d.poolLba, ∀ j ≤ idx, bbTbl mem k < d.bmtBlock mem j
  free : ∀ j < idx, d.bmtMapped mem j = noMapped
  bmt : d.bmtMapped mem idx = bmtMappedVal
  count : d.poolLba + idx < d.totalBlks

namespace Scanned

variable {mem : Nat → Nat} {idx : Nat}

lemma poolLba_le (h : Scanned d mem idx) {j : Nat} (hj : j ≤ idx) :
    d.poolLba ≤ d.bmtBlock mem j := by
  have hpos := d.poolLba_pos
  have hle := le_of_ascending h.logical_lt (d.poolLba - 1) (by omega)
  have hlt := h.behind (d.poolLba - 1) (by omega) j hj
  omega

end Scanned

lemma scanBadBlocks_spec (hpool : d.poolLba ≤ d.tableSize) {s s' : V2}
    (h : (scanBadBlocks F d s).result = some s') :
    Scanned d s'.mem s'.bmtBlkIdx ∧ s'.chip.block = s.chip.block := by
  have hpos := d.poolLba_pos
  rw [scanBadBlocks_result] at h
  dsimp only at h
  split at h
  next => cases h
  next s1 hlog =>
    have hL := scanLogical_spec _ _ _ _ one_pos hlog
    split_ifs at h with hfull hnone
    cases Option.some.inj h
    have hP := @scanPool_spec F d d.totalBlks 0 (bbTbl s1.mem (d.poolLba - 1) + 1) s1
    generalize scanPool F d d.totalBlks 0 (bbTbl s1.mem (d.poolLba - 1) + 1) s1 = r at *
    have hbb : ∀ k < d.poolLba, bbTbl (d.setBmtMapped r.s.mem (r.count - 1) bmtMappedVal) k =
        bbTbl s1.mem k := by
      intro k hk
      rw [setBmtMapped_bbTbl (by omega)]
      exact hP.frame _ (Or.inl (by omega))
    have hltlog : ∀ k l, k < l → l < d.poolLba → bbTbl s1.mem k < bbTbl s1.mem l :=
      fun k l hkl hl => hL.lt k l (zero_le _) hkl (by omega)
    have hlast : ∀ k < d.poolLba, bbTbl s1.mem k ≤ bbTbl s1.mem (d.poolLba - 1) := by
      intro k hk
      by_cases hk' : k = d.poolLba - 1
      · rw [hk']
      · exact le_of_lt (hltlog k _ (by omega) (by omega))
    refine ⟨⟨?_, ?_, ?_, ?_, ?_, ?_, ?_⟩, ?_⟩
    · intro k l hkl hl
      rw [hbb k (by omega), hbb l hl]
      exact hltlog k l hkl hl
    · intro j k hjk hk
      simp only at hk
      simp only [setBmtMapped_bmtBlock]
      exact hP.lt j k (zero_le _) hjk (by omega)
    · intro j hj
      simp only at hj
      simp only [setBmtMapped_bmtBlock]
      exact (hP.bound j (zero_le _) (by omega)).2
    · intro k hk j hj
      simp only at hj
      simp only [setBmtMapped_bmtBlock]
      rw [hbb k hk]
      exact lt_of_le_of_lt (hlast k hk) (hP.bound j (zero_le _) (by omega)).1
    · intro j hj
      simp only at hj
      rw [setBmtMapped_bmtMapped_of_ne d (by omega)]
      exact hP.free j (zero_le _) (by omega)
    · exact d.setBmtMapped_bmtMapped_self ..
    · have hle := le_of_ascending hltlog (d.poolLba - 1) (by omega)
      rcases hP.count with h0 | h0
      · omega
      · simp only
        omega
    · rw [hP.block, hL.block]

end SourceMaster.Nand
