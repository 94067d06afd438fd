import SourceMaster.Nand.V2Integrity

/-!
# The scan as an enumeration of the good blocks

Both loops of `scan_bad_blocks` go on from the block that was found last, so the tables together
hold one sequence: block 0, the next good block, and so on. Its first `pool_lba` members are the
logical blocks, the others the pool. It ends at the end of the chip, or where more than `bb_max` bad
blocks follow each other.

The scan never looks at block 0, and it writes to entry `i - 1` of the pool before it looks whether
`i` is zero. Its tables are right iff the bad blocks leave it enough room (`ScanFits`).
-/

namespace SourceMaster.Nand

open List Option V2Dev Nat

variable {F : Faults} {d : V2Dev} {bad : Nat → Bool}

/-! ## The table entries that are used -/

/-- The entry lies in its table: in `bb_tbl`, or in what the buffer has room for behind it. -/
def TableRef.Inside (d : V2Dev) : TableRef → Prop
  | bb i => i < d.tableSize
  | bmt j => 2 + d.tableSize + 2 * j + 1 < d.bufWords

instance (d : V2Dev) : DecidablePred (TableRef.Inside d)
  | .bb i => inferInstanceAs (Decidable (i < d.tableSize))
  | .bmt j => inferInstanceAs (Decidable (2 + d.tableSize + 2 * j + 1 < d.bufWords))

lemma scanLogical_refs (n i : Nat) (s : V2) : (scanLogical F d (n + 1) i s).refs =
    let r := findValidBlock F d d.bbMax (bbTbl s.mem (i - 1) + 1) s.chip
    .bb (i - 1) :: .bb i :: if r.1 = 0 then []
      else (scanLogical F d n (i + 1)
        { s with mem := setBbTbl s.mem i r.1, chip := r.2 }).refs := by
  rw [scanLogical]
  dsimp only
  split_ifs <;> rfl

lemma thenPool_refs (t : Scan) : (t.thenPool F d).refs = t.refs ++
    match t.result with
    | none => []
    | some s =>
      let poolPba := bbTbl s.mem (d.poolLba - 1) + 1
      .bb (d.poolLba - 1) :: if poolPba ≥ d.totalBlks - 2 then []
        else
          let r := scanPool F d d.totalBlks 0 poolPba s
          r.refs ++ [.bmt (if r.count = 0 then noIndex else r.count - 1)] := by
  obtain ⟨refs, ok, s⟩ := t
  cases ok with
  | false => simp [Scan.thenPool, Scan.result]
  | true =>
    by_cases hfull : bbTbl s.mem (d.poolLba - 1) + 1 ≥ d.totalBlks - 2
    · simp [Scan.thenPool, Scan.result, hfull]
    · simp [Scan.thenPool, Scan.result, hfull]

lemma scanBadBlocks_refs (s : V2) : (scanBadBlocks F d s).refs =
    let t := scanLogical F d (d.poolLba - 1) 1 { s with mem := setBbTbl s.mem 0 0 }
    .bb 0 :: t.refs ++
    match t.result with
    | none => []
    | some s =>
      let poolPba := bbTbl s.mem (d.poolLba - 1) + 1
      .bb (d.poolLba - 1) :: if poolPba ≥ d.totalBlks - 2 then []
        else
          let r := scanPool F d d.totalBlks 0 poolPba s
          r.refs ++ [.bmt (if r.count = 0 then noIndex else r.count - 1)] := by
  rw [scanBadBlocks, thenPool_refs]
  rfl

/-! ## The sequence of blocks -/

/-- `find_valid_block` for a set of bad blocks, with `n` bad blocks still allowed. -/
def nextGood (d : V2Dev) (bad : Nat → Bool) : Nat → Nat → Option Nat
  | n, block =>
    if block ≥ d.totalBlks then none
    else if bad block then
      match n with
      | 0 => none
      | n + 1 => nextGood d bad n (block + 1)
    else some block

def found (d : V2Dev) (bad : Nat → Bool) : Nat → Option Nat
  | 0 => some 0
  | k + 1 => (found d bad k).bind fun b => nextGood d bad d.bbMax (b + 1)

lemma nextGood_spec (n block p : Nat) (h : nextGood d bad n block = some p) :
    block ≤ p ∧ p < d.totalBlks ∧ bad p = false ∧ goodsBelow bad p = goodsBelow bad block := by
  fun_induction nextGood d bad n block with
  | case1 | case2 => cases h
  | case3 block hend hbad n ih =>
    obtain ⟨hle, hlt, hgood, hcount⟩ := ih h
    refine ⟨by omega, hlt, hgood, hcount.trans ?_⟩
    exact count_succ_eq_count_iff.mpr (by simpa using hbad)
  | case4 n block hend hbad =>
    cases some.inj h
    exact ⟨Nat.le_refl _, Nat.lt_of_not_le hend, Bool.eq_false_iff.mpr hbad, rfl⟩

lemma found_succ {k p : Nat} (h : found d bad (k + 1) = some p) : ∃ b, found d bad k = some b ∧
    b < p ∧ p < d.totalBlks ∧ bad p = false ∧ goodsBelow bad p = goodsBelow bad (b + 1) := by
  obtain ⟨b, hb, hnext⟩ := bind_eq_some_iff.1 h
  exact ⟨b, hb, nextGood_spec _ _ _ hnext⟩

lemma found_of_le {k l : Nat} (hkl : k ≤ l) (h : (found d bad l).isSome) :
    (found d bad k).isSome := by
  induction hkl with
  | refl => exact h
  | step _ ih => exact ih (isSome_of_isSome_bind h)

lemma found_succ_lt {k b p : Nat} (hk : found d bad k = some b)
    (h : found d bad (k + 1) = some p) : b < p := by
  obtain ⟨b', hb', hlt, -⟩ := found_succ h
  rwa [some.inj (hk.symm.trans hb')]

lemma found_strict {k l b p : Nat} (hkl : k < l) (hk : found d bad k = some b)
    (hl : found d bad l = some p) : b < p := by
  induction hkl generalizing p with
  | refl => exact found_succ_lt hk hl
  | step _ ih =>
    obtain ⟨q, hq, hlt, -⟩ := found_succ hl
    exact lt_trans (ih hq) hlt

lemma found_kth (hzero : bad 0 = false) {k b : Nat} (h : found d bad k = some b) :
    bad b = false ∧ goodsBelow bad b = k := by
  induction k generalizing b with
  | zero => cases some.inj h; exact ⟨hzero, rfl⟩
  | succ k ih =>
    obtain ⟨q, hq, -, -, hgood, hcount⟩ := found_succ h
    obtain ⟨hqgood, rfl⟩ := ih hq
    exact ⟨hgood, hcount.trans (count_succ_eq_succ_count_iff.mpr hqgood)⟩

/-! ## The chip as a scan sees it -/

/-- The bad blocks of a scan from the chip `c`. Every block but block 0 is read at most once, so the
time of a read is known. -/
def Sees (F : Faults) (d : V2Dev) (c : Chip) (bad : Nat → Bool) : Prop :=
  ∀ b, 0 < b → b < d.totalBlks → d.looksBad F { c with clock := c.clock + (b - 1) } b = bad b

structure Next (c : Chip) (b : Nat) (c' : Chip) : Prop where
  block : c'.block = c.block
  clock : c'.clock = c.clock + (b - 1)
  pos : 0 < b

variable {c : Chip} {c' : Chip} {block : Nat}

lemma Next.looksBad (h : Next c block c') (hsees : Sees F d c bad)
    (hlt : block < d.totalBlks) : d.looksBad F c' block = bad block := by
  rw [← hsees block h.pos hlt]
  unfold V2Dev.looksBad Chip.read
  rw [h.block, h.clock]

lemma Next.read (h : Next c block c') (F : Faults) : Next c (block + 1) (c'.read F).2 :=
  ⟨h.block, by have := h.clock; have := h.pos; show c'.clock + 1 = _; omega, succ_pos _⟩

lemma findValidBlock_sees (hsees : Sees F d c bad) (n block : Nat) (c' : Chip)
    (hnext : Next c block c') :
    (findValidBlock F d n block c').1 = (nextGood d bad n block).getD 0 ∧
    ∀ p, nextGood d bad n block = some p → Next c (p + 1) (findValidBlock F d n block c').2 := by
  fun_induction nextGood d bad n block generalizing c' with
  | case1 n block hend =>
    unfold findValidBlock
    rw [if_pos hend]
    exact ⟨rfl, fun _ hp => by cases hp⟩
  | case2 block hend hbad =>
    rw [findValidBlock, if_neg hend, hnext.looksBad hsees (Nat.lt_of_not_le hend), if_pos hbad]
    exact ⟨rfl, fun _ hp => by cases hp⟩
  | case3 block hend hbad n ih =>
    rw [findValidBlock, if_neg hend, hnext.looksBad hsees (Nat.lt_of_not_le hend), if_pos hbad]
    exact ih _ (hnext.read F)
  | case4 n block hend hbad =>
    unfold findValidBlock
    rw [if_neg hend, hnext.looksBad hsees (Nat.lt_of_not_le hend), if_neg hbad]
    exact ⟨rfl, fun p hp => by cases some.inj hp; exact hnext.read F⟩

lemma findValidBlock_found (hsees : Sees F d c bad) {k b : Nat} (hk : found d bad k = some b)
    (hnext : Next c (b + 1) c') : (findValidBlock F d d.bbMax (b + 1) c').1 =
    (found d bad (k + 1)).getD 0 ∧
      ∀ p, found d bad (k + 1) = some p →
      Next c (p + 1) (findValidBlock F d d.bbMax (b + 1) c').2 := by
  have hsucc : found d bad (k + 1) = nextGood d bad d.bbMax (b + 1) := by
    rw [found, hk]
    rfl
  rw [hsucc]
  exact findValidBlock_sees hsees _ _ _ hnext

/-! ## The loops -/

lemma not_found_of_le {k l : Nat} (h : found d bad k = none) (hkl : k ≤ l) :
    found d bad l = none := by
  cases hl : found d bad l with
  | none => rfl
  | some p =>
    have hk := found_of_le hkl (by rw [hl]; rfl)
    rw [h] at hk
    cases hk

structure LogicalFound (d : V2Dev) (bad : Nat → Bool) (c : Chip) (n k : Nat) (r : Option V2)
    (refs : List TableRef) : Prop where
  isSome : r.isSome = (found d bad (k + n)).isSome
  entries : ∀ s', r = some s' → ∀ l, k ≤ l → l ≤ k + n → found d bad l = some (bbTbl s'.mem l)
  next : ∀ s', r = some s' → Next c (bbTbl s'.mem (k + n) + 1) s'.chip
  refs : ∀ x, x ∈ refs ↔ ∃ l, k ≤ l ∧ l < k + n ∧ (found d bad l).isSome ∧
    (x = .bb l ∨ x = .bb (l + 1))

namespace LogicalFound

variable {n k : Nat} {r : Option V2} {refs : List TableRef}

lemma start {s : V2} (hk : found d bad k = some (bbTbl s.mem k))
    (hnext : Next c (bbTbl s.mem k + 1) s.chip) : LogicalFound d bad c 0 k (some s) [] := by
  refine ⟨?_, ?_, ?_, ?_⟩
  · show true = (found d bad k).isSome
    rw [hk]
    rfl
  · intro s' hs l hl hl'
    cases some.inj hs
    obtain rfl : l = k := by omega
    exact hk
  · intro s' hs
    cases some.inj hs
    exact hnext
  · intro x
    exact ⟨nofun, fun ⟨l, h1, h2, _⟩ => by omega⟩

lemma stop (hk : (found d bad k).isSome) (hnone : found d bad (k + 1) = none) :
    LogicalFound d bad c (n + 1) k none [.bb k, .bb (k + 1)] := by
  refine ⟨?_, nofun, nofun, fun x => ⟨?_, ?_⟩⟩
  · rw [not_found_of_le hnone (by omega)]
    rfl
  · intro hx
    exact ⟨k, Nat.le_refl _, by omega, hk, by simpa using hx⟩
  · rintro ⟨l, hl, hl', hsome, hx⟩
    obtain rfl : l = k := by
      by_contra hne
      rw [not_found_of_le hnone (by omega)] at hsome
      cases hsome
    simpa using hx

lemma cons (htail : LogicalFound d bad c n (k + 1) r refs) (hk : (found d bad k).isSome)
    (hfirst : ∀ s', r = some s' → found d bad k = some (bbTbl s'.mem k)) :
    LogicalFound d bad c (n + 1) k r (.bb k :: .bb (k + 1) :: refs) := by
  have hend : k + 1 + n = k + (n + 1) := by omega
  refine ⟨?_, ?_, ?_, fun x => ⟨?_, ?_⟩⟩
  · rw [htail.isSome, hend]
  · intro s' hs l hl hl'
    by_cases hlk : l = k
    · rw [hlk]
      exact hfirst s' hs
    · exact htail.entries s' hs l (by omega) (by omega)
  · intro s' hs
    rw [← hend]
    exact htail.next s' hs
  · intro hx
    rcases mem_cons.mp hx with rfl | hx
    · exact ⟨k, Nat.le_refl _, by omega, hk, .inl rfl⟩
    rcases mem_cons.mp hx with rfl | hx
    · exact ⟨k, Nat.le_refl _, by omega, hk, .inr rfl⟩
    · obtain ⟨l, hl, hl', hrest⟩ := (htail.refs x).mp hx
      exact ⟨l, by omega, by omega, hrest⟩
  · rintro ⟨l, hl, hl', hsome, hx⟩
    by_cases hlk : l = k
    · subst hlk
      rcases hx with rfl | rfl
      · exact mem_cons_self ..
      · exact mem_cons_of_mem _ (mem_cons_self ..)
    · exact mem_cons_of_mem _ (mem_cons_of_mem _
        ((htail.refs x).mpr ⟨l, by omega, by omega, hsome, hx⟩))

end LogicalFound

lemma scanLogical_found (hsees : Sees F d c bad) (n k : Nat) (s : V2)
    (hk : found d bad k = some (bbTbl s.mem k)) (hnext : Next c (bbTbl s.mem k + 1) s.chip) :
    LogicalFound d bad c n k (scanLogical F d n (k + 1) s).result
      (scanLogical F d n (k + 1) s).refs := by
  induction n generalizing k s with
  | zero => exact .start hk hnext
  | succ n ih =>
    have hsome : (found d bad k).isSome := by
      rw [hk]
      rfl
    obtain ⟨hvalue, hread⟩ := findValidBlock_found hsees hk hnext
    obtain ⟨r, hr⟩ : ∃ r, findValidBlock F d d.bbMax (bbTbl s.mem k + 1) s.chip = r := ⟨_, rfl⟩
    rw [hr] at hvalue hread
    obtain ⟨s₁, hs₁⟩ : ∃ s₁ : V2, s₁ = { s with
        mem := setBbTbl s.mem (k + 1) r.1
        chip := r.2 } := ⟨_, rfl⟩
    have hscan : (scanLogical F d (n + 1) (k + 1) s).result =
        if r.1 = 0 then none
        else (scanLogical F d n (k + 1 + 1) s₁).result := by
      rw [hs₁, ← hr, scanLogical_result]
      rfl
    have hrefs : (scanLogical F d (n + 1) (k + 1) s).refs = .bb k :: .bb (k + 1) ::
        if r.1 = 0 then []
        else (scanLogical F d n (k + 1 + 1) s₁).refs := by
      rw [hs₁, ← hr, scanLogical_refs]
      rfl
    rw [hscan, hrefs]
    cases hp : found d bad (k + 1) with
    | none =>
      rw [hp] at hvalue
      replace hvalue : r.1 = 0 := hvalue
      rw [if_pos hvalue, if_pos hvalue]
      exact .stop hsome hp
    | some p =>
      rw [hp] at hvalue
      have hpos : p ≠ 0 := ne_of_gt (zero_lt_of_lt (found_succ_lt hk hp))
      have hself : bbTbl s₁.mem (k + 1) = p := by
        rw [hs₁]
        exact (setBbTbl_bbTbl_self ..).trans hvalue
      have hchip : s₁.chip = r.2 := by rw [hs₁]
      have hvalue' : r.1 ≠ 0 := by
        rw [hvalue]
        exact hpos
      rw [if_neg hvalue', if_neg hvalue']
      refine .cons (ih (k + 1) s₁ (by rw [hself]; exact hp)
        (by rw [hself, hchip]; exact hread p hp)) hsome ?_
      intro s' hs
      rw [hk]
      -- the later rounds leave the entry `k` alone
      have hframe := (scanLogical_spec _ _ _ _ (succ_pos _) hs).frame (2 + k) (.inl (by omega))
      refine congrArg some (Eq.symm (Eq.trans hframe ?_))
      rw [hs₁]
      exact setBbTbl_bbTbl_of_ne (by omega) ..

/-- The second loop behind the `k`-th block, from entry `i` of the pool on. -/
structure PoolFound (d : V2Dev) (bad : Nat → Bool) (k i : Nat) (r : Pool) : Prop where
  count : ∀ j, i + j < r.count ↔ (found d bad (k + 1 + j)).isSome
  entries : ∀ j, i + j < r.count → found d bad (k + 1 + j) = some (d.bmtBlock r.s.mem (i + j))
  refs : ∀ x, x ∈ r.refs ↔ ∃ j, (found d bad (k + 1 + j)).isSome ∧ x = .bmt (i + j)

lemma PoolFound.of_none {k i : Nat} {s : V2} (h : found d bad (k + 1) = none) :
    PoolFound d bad k i ⟨[], i, s⟩ := by
  have hnone : ∀ j, found d bad (k + 1 + j) = none := fun j => not_found_of_le h (by omega)
  have hfew : ∀ j, ¬ i + j < i := fun j => not_lt.mpr (le_add_right i j)
  refine ⟨fun j => ⟨fun hj => absurd hj (hfew j), fun hj => ?_⟩, fun j hj => absurd hj (hfew j),
    fun x => ⟨?_, ?_⟩⟩
  · rw [hnone j] at hj
    cases hj
  · exact nofun
  · rintro ⟨j, hj, _⟩
    rw [hnone j] at hj
    cases hj

lemma PoolFound.cons {k i p : Nat} {r : Pool} (htail : PoolFound d bad (k + 1) (i + 1) r)
    (hp : found d bad (k + 1) = some p) (hle : i < r.count) (hself : d.bmtBlock r.s.mem i = p) :
    PoolFound d bad k i { r with refs := .bmt i :: r.refs } := by
  have hshift : ∀ j, k + 1 + 1 + j = k + 1 + (j + 1) := fun j => by omega
  have hindex : ∀ j, i + 1 + j = i + (j + 1) := fun j => by omega
  refine ⟨fun j => ?_, fun j hj => ?_, fun x => ⟨fun hx => ?_, ?_⟩⟩
  · cases j with
    | zero =>
      refine ⟨fun _ => ?_, fun _ => hle⟩
      rw [add_zero, hp]
      rfl
    | succ j =>
      rw [← hshift, ← hindex]
      exact htail.count j
  · cases j with
    | zero =>
      show found d bad (k + 1) = some (d.bmtBlock _ i)
      rw [hself]
      exact hp
    | succ j =>
      have hentry := htail.entries j (by rw [hindex]; exact hj)
      rwa [hshift, hindex] at hentry
  · rcases mem_cons.mp hx with rfl | hx
    · exact ⟨0, by rw [add_zero, hp]; rfl, rfl⟩
    · obtain ⟨j, hj, hxj⟩ := (htail.refs x).mp hx
      exact ⟨j + 1, by rw [← hshift]; exact hj, by rw [← hindex]; exact hxj⟩
  · rintro ⟨j, hj, rfl⟩
    cases j with
    | zero => exact mem_cons_self ..
    | succ j =>
      rw [← hshift] at hj
      exact mem_cons_of_mem _ ((htail.refs _).mpr ⟨j, hj, by rw [hindex]⟩)

lemma scanPool_found (hsees : Sees F d c bad) (n k b i : Nat) (s : V2)
    (hk : found d bad k = some b) (hnext : Next c (b + 1) s.chip) (hn : d.totalBlks ≤ b + n) :
    PoolFound d bad k i (scanPool F d n i (b + 1) s) := by
  induction n generalizing k b i s with
  | zero =>
    apply PoolFound.of_none
    rw [found, hk]
    unfold nextGood
    exact if_pos (by omega)
  | succ n ih =>
    obtain ⟨hvalue, hread⟩ := findValidBlock_found hsees hk hnext
    unfold scanPool
    dsimp only
    cases hp : found d bad (k + 1) with
    | none =>
      rw [hp] at hvalue
      replace hvalue : (findValidBlock F d d.bbMax (b + 1) s.chip).1 = 0 := hvalue
      rw [if_pos hvalue]
      exact .of_none hp
    | some p =>
      rw [hp] at hvalue
      replace hvalue : (findValidBlock F d d.bbMax (b + 1) s.chip).1 = p := hvalue
      have hlt := found_succ_lt hk hp
      rw [hvalue, if_neg (by omega)]
      obtain ⟨s₁, hs₁⟩ : ∃ s₁ : V2, s₁ = { s with
          mem := d.setBmtMapped (d.setBmtBlock s.mem i p) i noMapped
          chip := (findValidBlock F d d.bbMax (b + 1) s.chip).2 } := ⟨_, rfl⟩
      rw [← hs₁]
      have htail := ih (k + 1) p (i + 1) s₁ hp (by rw [hs₁]; exact hread p hp) (by omega)
      have hscan := @scanPool_spec F d n (i + 1) (p + 1) s₁
      have hself : d.bmtBlock (scanPool F d n (i + 1) (p + 1) s₁).s.mem i = p := by
        show (scanPool F d n (i + 1) (p + 1) s₁).s.mem _ = _
        rw [hscan.frame _ (.inl (by omega)), hs₁]
        exact (d.setBmtMapped_bmtBlock ..).trans (d.setBmtBlock_bmtBlock_self ..)
      exact htail.cons hp hscan.le hself

/-! ## The whole scan -/

def ReachesPool (d : V2Dev) (bad : Nat → Bool) : Prop :=
  ∃ b, found d bad (d.poolLba - 1) = some b ∧ b + 1 < d.totalBlks - 2

/-- What the tables hold after the scan, and that no entry outside them is used. -/
structure ScanOk (F : Faults) (d : V2Dev) (bad : Nat → Bool) (s : V2) : Prop where
  /-- `bb_tbl[k]` is the `k`-th good block. -/
  logical : ∀ s', (scanBadBlocks F d s).result = some s' → ∀ k < d.poolLba,
    bad (bbTbl s'.mem k) = false ∧ goodsBelow bad (bbTbl s'.mem k) = k
  increasing : ∀ s', (scanBadBlocks F d s).result = some s' → ∀ k l, k < l → l < d.poolLba →
    bbTbl s'.mem k < bbTbl s'.mem l
  pool : ∀ s', (scanBadBlocks F d s).result = some s' → ∀ j ≤ s'.bmtBlkIdx,
    bad (d.bmtBlock s'.mem j) = false ∧ d.poolLba ≤ d.bmtBlock s'.mem j ∧
      (∀ i < j, d.bmtBlock s'.mem i < d.bmtBlock s'.mem j) ∧
      ∀ k < d.poolLba, bbTbl s'.mem k ≠ d.bmtBlock s'.mem j
  inside : ∀ x ∈ (scanBadBlocks F d s).refs, x.Inside d

/-- The tables have an entry for every block that is found; a pool that is reached has a block, or
entry `0xffff` is inside the table; and if there is a block for the pool, block 0 is good. -/
structure ScanFits (d : V2Dev) (bad : Nat → Bool) : Prop where
  first : 0 < d.tableSize
  logical : ∀ k, k + 1 < d.poolLba → (found d bad k).isSome → k + 1 < d.tableSize
  zero : ReachesPool d bad → (found d bad d.poolLba).isSome → bad 0 = false
  pool : ReachesPool d bad → ∀ j, (found d bad (d.poolLba + j)).isSome → (TableRef.bmt j).Inside d
  empty : ReachesPool d bad → found d bad d.poolLba = none → (TableRef.bmt noIndex).Inside d

section Scan

variable {s : V2}

lemma pred_poolLba (d : V2Dev) : d.poolLba - 1 + 1 = d.poolLba := Nat.sub_add_cancel d.poolLba_pos

lemma scanLogical_start (hsees : Sees F d s.chip bad) :
    LogicalFound d bad s.chip (d.poolLba - 1) 0
      (scanLogical F d (d.poolLba - 1) 1 { s with mem := setBbTbl s.mem 0 0 }).result
      (scanLogical F d (d.poolLba - 1) 1 { s with mem := setBbTbl s.mem 0 0 }).refs := by
  apply scanLogical_found hsees
  · exact congrArg some (setBbTbl_bbTbl_self ..).symm
  · rw [setBbTbl_bbTbl_self]
    exact ⟨rfl, rfl, one_pos⟩

structure AtPool (F : Faults) (d : V2Dev) (bad : Nat → Bool) (s s₁ : V2) : Prop where
  scan : (scanLogical F d (d.poolLba - 1) 1 { s with mem := setBbTbl s.mem 0 0 }).result = some s₁
  entries : ∀ k < d.poolLba, found d bad k = some (bbTbl s₁.mem k)
  room : bbTbl s₁.mem (d.poolLba - 1) + 1 < d.totalBlks - 2
  pool : PoolFound d bad (d.poolLba - 1) 0
    (scanPool F d d.totalBlks 0 (bbTbl s₁.mem (d.poolLba - 1) + 1) s₁)

lemma ReachesPool.atPool (hreach : ReachesPool d bad) (hsees : Sees F d s.chip bad) :
    ∃ s₁, AtPool F d bad s s₁ := by
  obtain ⟨b, hb, hroom⟩ := hreach
  have hpos := d.poolLba_pos
  have hlog := scanLogical_start hsees
  have hsome := hlog.isSome
  rw [zero_add, hb] at hsome
  obtain ⟨s₁, hs₁⟩ := isSome_iff_exists.mp hsome
  have hentries : ∀ k < d.poolLba, found d bad k = some (bbTbl s₁.mem k) :=
    fun k hk => hlog.entries s₁ hs₁ k (zero_le _) (by omega)
  have hlast : bbTbl s₁.mem (d.poolLba - 1) = b :=
    some.inj ((hentries _ (by omega)).symm.trans hb)
  have hnext := hlog.next s₁ hs₁
  rw [zero_add] at hnext
  refine ⟨s₁, hs₁, hentries, by rw [hlast]; exact hroom, ?_⟩
  exact scanPool_found hsees _ _ _ _ _ (hentries _ (by omega)) hnext (by omega)

lemma scanLogical_some (hsees : Sees F d s.chip bad) {s₁ : V2}
    (h : (scanLogical F d (d.poolLba - 1) 1 { s with mem := setBbTbl s.mem 0 0 }).result =
    some s₁) : found d bad (d.poolLba - 1) = some (bbTbl s₁.mem (d.poolLba - 1)) := by
  have hentry := (scanLogical_start hsees).entries s₁ h (d.poolLba - 1) (zero_le _) (by omega)
  exact hentry

variable (hsees : Sees F d s.chip bad)
include hsees

lemma scanBadBlocks_reaches {s' : V2} (h : (scanBadBlocks F d s).result = some s') :
    ReachesPool d bad ∧ (found d bad d.poolLba).isSome := by
  have hpos := d.poolLba_pos
  rw [scanBadBlocks_result] at h
  dsimp only at h
  split at h
  next => cases h
  next s₁ hlog =>
    split_ifs at h with hfull hnone
    have hreach : ReachesPool d bad := ⟨_, scanLogical_some hsees hlog, Nat.lt_of_not_le hfull⟩
    refine ⟨hreach, ?_⟩
    obtain ⟨s₂, hat⟩ := hreach.atPool hsees
    obtain rfl : s₁ = s₂ := some.inj (hlog.symm.trans hat.scan)
    have hcount := (hat.pool.count 0).mp (by omega)
    rwa [pred_poolLba d] at hcount

lemma scanBadBlocks_entries (hpool : d.poolLba ≤ d.tableSize) {s' : V2}
    (h : (scanBadBlocks F d s).result = some s') :
    (∀ k < d.poolLba, found d bad k = some (bbTbl s'.mem k)) ∧
      ∀ j ≤ s'.bmtBlkIdx, found d bad (d.poolLba + j) = some (d.bmtBlock s'.mem j) := by
  have hpos := d.poolLba_pos
  obtain ⟨hreach, _⟩ := scanBadBlocks_reaches hsees h
  obtain ⟨s₁, hat⟩ := hreach.atPool hsees
  rw [scanBadBlocks_result] at h
  dsimp only at h
  rw [hat.scan] at h
  dsimp only at h
  split_ifs at h with hfull hnone
  cases some.inj h
  have hspec := @scanPool_spec F d d.totalBlks 0 (bbTbl s₁.mem (d.poolLba - 1) + 1) s₁
  have hentries := hat.pool.entries
  refine ⟨fun k hk => ?_, fun j hj => ?_⟩
  · rw [setBmtMapped_bbTbl (by omega), hat.entries k hk]
    exact congrArg some (hspec.frame _ (.inl (by omega))).symm
  · dsimp only at hj ⊢
    rw [setBmtMapped_bmtBlock]
    have hentry := hentries j (by omega)
    rwa [pred_poolLba d, zero_add] at hentry

lemma scanBadBlocks_isSome (hreach : ReachesPool d bad)
    (hfound : (found d bad d.poolLba).isSome) : (scanBadBlocks F d s).result.isSome := by
  have hpos := d.poolLba_pos
  obtain ⟨s₁, hat⟩ := hreach.atPool hsees
  have hcount := (hat.pool.count 0).mpr (by rwa [pred_poolLba d])
  rw [scanBadBlocks_result, hat.scan]
  dsimp only
  rw [if_neg (not_le.mpr hat.room), if_neg (by omega)]
  rfl

/-! The entries that are used. -/

lemma ScanFits.inside (h : ScanFits d bad) : ∀ x ∈ (scanBadBlocks F d s).refs, x.Inside d := by
  have hpos := d.poolLba_pos
  have hlogical : ∀ l, l + 1 < d.poolLba → (found d bad l).isSome →
      (TableRef.bb l).Inside d ∧ (TableRef.bb (l + 1)).Inside d := by
    intro l hl hsome
    have hlt := h.logical l hl hsome
    exact ⟨lt_of_succ_lt hlt, hlt⟩
  intro x hx
  rw [scanBadBlocks_refs] at hx
  rcases mem_append.mp hx with hx | hx
  · rcases mem_cons.mp hx with rfl | hx
    · exact h.first
    · obtain ⟨l, _, hl, hsome, hx⟩ := ((scanLogical_start hsees).refs x).mp hx
      rcases hx with rfl | rfl
      · exact (hlogical l (by omega) hsome).1
      · exact (hlogical l (by omega) hsome).2
  · split at hx
    next => cases hx
    next s₁ hlog =>
      have hlast := scanLogical_some hsees hlog
      rcases mem_cons.mp hx with rfl | hx
      · -- the last logical block: entry 0, or one that the loop has written
        by_cases hone : d.poolLba = 1
        · show d.poolLba - 1 < d.tableSize
          have := h.first
          omega
        · have hsome := (hlogical (d.poolLba - 2) (by omega)
            (found_of_le (l := d.poolLba - 1) (by omega) (by rw [hlast]; rfl))).2
          rwa [show d.poolLba - 2 + 1 = d.poolLba - 1 by omega] at hsome
      · by_cases hfull : bbTbl s₁.mem (d.poolLba - 1) + 1 ≥ d.totalBlks - 2
        · rw [if_pos hfull] at hx
          cases hx
        rw [if_neg hfull] at hx
        have hreach : ReachesPool d bad := ⟨_, hlast, Nat.lt_of_not_le hfull⟩
        obtain ⟨s₂, hat⟩ := hreach.atPool hsees
        obtain rfl : s₁ = s₂ := some.inj (hlog.symm.trans hat.scan)
        have hfound : ∀ j, (found d bad (d.poolLba - 1 + 1 + j)).isSome →
          (TableRef.bmt j).Inside d := by
          intro j hj
          rw [pred_poolLba d] at hj
          exact h.pool hreach j hj
        rcases mem_append.mp hx with hx | hx
        · obtain ⟨j, hj, rfl⟩ := (hat.pool.refs x).mp hx
          rw [zero_add]
          exact hfound j hj
        rw [mem_singleton.mp hx]
        split_ifs with hnone
        · refine h.empty hreach ?_
          have hcount := mt (hat.pool.count 0).mpr (by omega)
          rw [pred_poolLba d] at hcount
          simpa using hcount
        · refine hfound _ ((hat.pool.count _).mp (by omega))

lemma ScanOk.fits (h : ScanOk F d bad s) : ScanFits d bad := by
  have hpos := d.poolLba_pos
  have hrefs : ∀ s₁, AtPool F d bad s s₁ → ∀ x,
      let r := scanPool F d d.totalBlks 0 (bbTbl s₁.mem (d.poolLba - 1) + 1) s₁
      x ∈ r.refs ++ [TableRef.bmt (if r.count = 0 then noIndex else r.count - 1)] → x.Inside d := by
    intro s₁ hat x r hx
    apply h.inside x
    rw [scanBadBlocks_refs]
    dsimp only
    rw [hat.scan]
    dsimp only
    rw [if_neg (not_le.mpr hat.room)]
    exact mem_append_right _ (mem_cons_of_mem _ hx)
  refine ⟨?_, ?_, ?_, ?_, ?_⟩
  · refine h.inside (.bb 0) ?_
    rw [scanBadBlocks_refs]
    exact mem_append_left _ (mem_cons_self ..)
  · intro k hk hsome
    refine h.inside (.bb (k + 1)) ?_
    rw [scanBadBlocks_refs]
    refine mem_append_left _ (mem_cons_of_mem _ ?_)
    exact ((scanLogical_start hsees).refs _).mpr ⟨k, zero_le _, by omega, hsome, .inr rfl⟩
  · intro hreach hfound
    obtain ⟨s', hs'⟩ := isSome_iff_exists.mp (scanBadBlocks_isSome hsees hreach hfound)
    obtain ⟨s₁, hat⟩ := hreach.atPool hsees
    have htable : d.poolLba ≤ d.tableSize := by
      by_contra hlong
      have := h.inside (.bb (d.poolLba - 1)) (by
        rw [scanBadBlocks_refs]
        dsimp only
        rw [hat.scan]
        exact mem_append_right _ (mem_cons_self ..))
      exact absurd this (by show ¬ d.poolLba - 1 < d.tableSize; omega)
    have hfirst := (scanBadBlocks_entries hsees htable hs').1 0 hpos
    have hkth := (h.logical s' hs' 0 hpos).1
    rwa [← some.inj hfirst] at hkth
  · intro hreach j hsome
    obtain ⟨s₁, hat⟩ := hreach.atPool hsees
    refine hrefs s₁ hat _ (mem_append_left _ ((hat.pool.refs _).mpr ⟨j, ?_, ?_⟩))
    · rwa [pred_poolLba d]
    · rw [zero_add]
  · intro hreach hnone
    obtain ⟨s₁, hat⟩ := hreach.atPool hsees
    have hempty : (scanPool F d d.totalBlks 0 (bbTbl s₁.mem (d.poolLba - 1) + 1) s₁).count = 0 := by
      have hcount := mt (hat.pool.count 0).mp (by
        rw [pred_poolLba d, hnone]
        decide)
      omega
    have hinside := hrefs s₁ hat (.bmt noIndex) (mem_append_right _ (by rw [if_pos hempty]; simp))
    exact hinside

/-- **The scan is right** and uses no entry outside of the tables iff the bad blocks fit. -/
theorem scanBadBlocks_ok_iff : ScanOk F d bad s ↔ ScanFits d bad := by
  refine ⟨ScanOk.fits hsees, fun h => ?_⟩
  have hpos := d.poolLba_pos
  have htable : ∀ s', (scanBadBlocks F d s).result = some s' → d.poolLba ≤ d.tableSize := by
    intro s' hs'
    obtain ⟨⟨b, hb, _⟩, _⟩ := scanBadBlocks_reaches hsees hs'
    by_cases hone : d.poolLba = 1
    · have := h.first
      omega
    · have := h.logical (d.poolLba - 2) (by omega)
        (found_of_le (l := d.poolLba - 1) (by omega) (by rw [hb]; rfl))
      omega
  have hzero : ∀ s', (scanBadBlocks F d s).result = some s' → bad 0 = false := by
    intro s' hs'
    obtain ⟨hreach, hsome⟩ := scanBadBlocks_reaches hsees hs'
    exact h.zero hreach hsome
  refine ⟨?_, ?_, ?_, h.inside hsees⟩
  · intro s' hs' k hk
    exact found_kth (hzero s' hs') ((scanBadBlocks_entries hsees (htable s' hs') hs').1 k hk)
  · intro s' hs' k l hkl hl
    obtain ⟨hentries, _⟩ := scanBadBlocks_entries hsees (htable s' hs') hs'
    exact found_strict hkl (hentries k (by omega)) (hentries l hl)
  · intro s' hs' j hj
    obtain ⟨hlogical, hpool⟩ := scanBadBlocks_entries hsees (htable s' hs') hs'
    have hscanned := (scanBadBlocks_spec (htable s' hs') hs').1
    refine ⟨(found_kth (hzero s' hs') (hpool j hj)).1, hscanned.poolLba_le hj, ?_, ?_⟩
    · exact fun i hi => hscanned.pool_lt i j hi hj
    · exact fun k hk => Nat.ne_of_lt (hscanned.behind k hk j hj)

end Scan

/-! ## Tables with enough room -/

lemma found_ge {k b : Nat} (h : found d bad k = some b) : k ≤ b := by
  induction k generalizing b with
  | zero => exact zero_le _
  | succ k ih =>
    obtain ⟨q, hq, hlt, -⟩ := found_succ h
    have hle := ih hq
    omega

/-- With an entry for every block it is enough that block 0 is good and that a block is found for
the pool. -/
theorem scanFits_of_room (htable : d.poolLba ≤ d.tableSize)
    (hroom : 2 + d.tableSize + 2 * (d.totalBlks - d.poolLba) ≤ d.bufWords) (hzero : bad 0 = false)
    (hfound : (found d bad d.poolLba).isSome) : ScanFits d bad := by
  have hpos := d.poolLba_pos
  refine ⟨by omega, fun k hk _ => by omega, fun _ _ => hzero, fun _ j hj => ?_, fun _ hnone => ?_⟩
  · obtain ⟨b, hb⟩ := isSome_iff_exists.mp hj
    rw [show d.poolLba + j = d.poolLba + j - 1 + 1 by omega] at hb
    have hge := found_ge hb
    obtain ⟨_, -, -, hlt, -⟩ := found_succ hb
    show 2 + d.tableSize + 2 * j + 1 < d.bufWords
    omega
  · rw [hnone] at hfound
    cases hfound

def fiftyBlocks : V2Dev where
  blkShift := 9
  pgShift := 5
  totalBlks := 50
  remapRange := []
  pgShift_le := by decide
  totalBlks_lt := by decide
  tableSize := 64
  poolLba := 40
  oobOffset := 0
  poolLba_pos := by decide
  poolLba_le := by decide
  table_fits := by decide
  size_le := by decide

def markedChip (bad : Nat → Bool) : Chip :=
  ⟨fun b => if bad b then ⟨fun _ => 0xff, fun _ _ => 0⟩ else .erased, bad, 0, []⟩

lemma markedChip_sees (d : V2Dev) (bad : Nat → Bool) : Sees .none d (markedChip bad) bad := by
  intro b _ _
  show (!true || decide (d.fdm (if bad b then _ else .erased) 0 ≠ 0xff)) = bad b
  cases bad b <;> rfl

theorem scanBadBlocks_ok_fiftyBlocks : ∃ bad, bad 3 ∧ bad 45 ∧
    ScanOk .none fiftyBlocks bad ⟨fun _ => 0, 0, markedChip bad⟩ :=
  ⟨fun b => b = 3 || b = 45, rfl, rfl, (scanBadBlocks_ok_iff (markedChip_sees _ _)).mpr
    (scanFits_of_room (by decide) (by decide) rfl (by decide +kernel))⟩

/-- All blocks of the pool are bad: the scan fails, after it has written to the flag of pool entry
65535. -/
theorem scanBadBlocks_empty_pool : ∃ s : V2, Sees .none fiftyBlocks s.chip (fun b => 40 ≤ b) ∧
    let r := scanBadBlocks .none fiftyBlocks s
    r.ok = false ∧ TableRef.bmt 65535 ∈ r.refs ∧ ¬ (TableRef.bmt 65535).Inside fiftyBlocks ∧
      fiftyBlocks.bmtMapped s.mem 65535 = 0 ∧ fiftyBlocks.bmtMapped r.s.mem 65535 = bmtMappedVal ∧
      ¬ ScanOk .none fiftyBlocks (fun b => 40 ≤ b) s := by
  have hmem : TableRef.bmt 65535 ∈ (scanBadBlocks .none fiftyBlocks
      ⟨fun _ => 0, 0, markedChip fun b => 40 ≤ b⟩).refs := by
    decide +kernel
  have hout : ¬ (TableRef.bmt 65535).Inside fiftyBlocks := by decide
  refine ⟨_, markedChip_sees _ _, ?_, hmem, hout, rfl, ?_, fun h => hout (h.inside _ hmem)⟩
  · decide +kernel
  · decide +kernel

end SourceMaster.Nand
