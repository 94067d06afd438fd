import SourceMaster.Lib.Probe
import SourceMaster.Realtek.L2Entry

/-!
# Looking up a key in the L2 table

A key hashes to a bucket of four rows of the L2 table; what does not fit there goes to a CAM of 64
rows. `rtl83xx_find_l2_hash_entry` and `rtl83xx_find_l2_cam_entry` walk these rows: with
`must_exist` up to the first row of the key, otherwise up to the first row that is free or of the
key.

`Switch.table` reads the rows as a table of `Probe`, and the two functions are its searches
(`findL2HashEntry_spec`, `findL2CamEntry_spec`), except that with `must_exist` the search of the CAM
takes a free row for the entry of the key whose seed is 0.
-/

namespace SourceMaster.Realtek

open Function List Option Bool Nat EtherAddr

/-- A row of table 0 (`SRAM`) or of table 1 (`CAM`) of `RTL8380_TBL_L2`. -/
inductive Slot
  | sram (idx : Nat)
  | cam (idx : Nat)
deriving DecidableEq, Repr

structure Switch where
  rows : Slot → Row
  /-- table 2, `MC_PMSK` -/
  mcPmask : Nat → Nat
  mcGroupBm : Nat → Bool
  isLagmember : Nat → Bool
  /-- register `l2_ctrl_0` -/
  l2Ctrl0 : Nat

/-! ## Access to the tables -/

namespace Switch

section

variable (sw : Switch)

def write (s : Slot) (r : Row) : Switch :=
  { sw with rows := update sw.rows s r }

def read (s : Slot) (e : L2Entry) : Nat × L2Entry :=
  let e := fillL2Entry (sw.rows s) e
  (if e.valid then (sw.rows s).word else 0, e)

def readL2EntryUsingHash (hash pos : Nat) (e : L2Entry) : Nat × L2Entry :=
  sw.read (.sram (0 <<< 14 ||| hash <<< 2 ||| pos)) e

def writeL2EntryUsingHash (hash pos : Nat) (e : L2Entry) : Switch :=
  sw.write (.sram (0 <<< 14 ||| hash <<< 2 ||| pos)) (fillL2Row e)

def readCam (idx : Nat) (e : L2Entry) : Nat × L2Entry := sw.read (.cam idx) e

def writeCam (idx : Nat) (e : L2Entry) : Switch := sw.write (.cam idx) (fillL2Row e)

def l2HashKey (seed : Nat) : Nat :=
  if sw.l2Ctrl0 &&& 1 ≠ 0 then
    let h1 := seed >>> 11 &&& 0x7ff
    let h1 := (h1 &&& 0x1f) <<< 6 ||| (h1 >>> 5 &&& 0x3f)
    let h2 := seed >>> 33 &&& 0x7ff
    let h2 := (h2 &&& 0x3f) <<< 5 ||| (h2 >>> 6 &&& 0x1f)
    let h3 := seed >>> 44 &&& 0x7ff
    let h3 := (h3 &&& 0x7f) <<< 4 ||| (h3 >>> 7 &&& 0xf)
    let h := h1 ^^^ h2 ^^^ h3 ^^^ (seed >>> 55 &&& 0x1ff)
    h ^^^ ((seed >>> 22 &&& 0x7ff) ^^^ (seed &&& 0x7ff))
  else
    (seed >>> 55 &&& 0x1ff) ^^^ (seed >>> 44 &&& 0x7ff) ^^^ (seed >>> 33 &&& 0x7ff) ^^^
      (seed >>> 22 &&& 0x7ff) ^^^ (seed >>> 11 &&& 0x7ff) ^^^ (seed &&& 0x7ff)

end

/-! ## `rtl83xx_find_l2_hash_entry` and `rtl83xx_find_l2_cam_entry` -/

def l2BucketSize : Nat := 4

/-- The index for position `i` of the bucket; positions above 3 exist on RTL93xx only. -/
def l2Index (key i : Nat) : Nat :=
  if i > 3 then (key >>> 14 &&& 0xffff) ||| i >>> 1 else (key <<< 2 ||| i) &&& 0xffff

def findInBucket (sw : Switch) (key seed : Nat) (mustExist : Bool) :
    List Nat → L2Entry → Option Nat × L2Entry
  | [], e => (none, e)
  | i :: is, e =>
    let (entry, e) := sw.readL2EntryUsingHash key i e
    if mustExist && !e.valid then
      findInBucket sw key seed mustExist is e
    else if !e.valid || (entry &&& 0x0fffffffffffffff) == seed then
      (some (l2Index key i), e)
    else
      findInBucket sw key seed mustExist is e

def findL2HashEntry (sw : Switch) (seed : Nat) (mustExist : Bool) (e : L2Entry) :
    Option Nat × L2Entry :=
  findInBucket sw (sw.l2HashKey seed) seed mustExist (range l2BucketSize) e

def findInCam (sw : Switch) (seed : Nat) (mustExist : Bool) :
    List Nat → L2Entry → Option Nat × L2Entry
  | [], e => (none, e)
  | i :: is, e =>
    let (entry, e) := sw.readCam i e
    if !mustExist && !e.valid then
      (some i, e)
    else if (entry &&& 0x0fffffffffffffff) == seed then
      (some i, e)
    else
      findInCam sw seed mustExist is e

def findL2CamEntry (sw : Switch) (seed : Nat) (mustExist : Bool) (e : L2Entry) :
    Option Nat × L2Entry :=
  findInCam sw seed mustExist (range 64) e

/-! ## The rows as a table -/

def table (sw : Switch) : Probe.Table Slot Key Row := fun s =>
  if (sw.rows s).valid then some (.ofSeed (sw.rows s).wordKey, sw.rows s) else none

def entry (sw : Switch) (s : Slot) : L2Entry := fillL2Entry (sw.rows s) {}

def bucket (sw : Switch) (k : Key) : List Slot :=
  (range l2BucketSize).map fun i => .sram (sw.l2HashKey k.seed <<< 2 ||| i)

def camSlots : List Slot := (range 64).map .cam

def order (sw : Switch) (k : Key) : List Slot := sw.bucket k ++ camSlots

end Switch

open Switch Probe

variable {sw : Switch} {s : Slot} {k : Key}

lemma table_eq_none : sw.table s = none ↔ (sw.rows s).valid = false := by
  simp [table]

lemma holds_table : holds sw.table k s ↔ (sw.rows s).valid ∧ (sw.rows s).wordKey = k.seed := by
  rw [holds_iff]
  by_cases h : (sw.rows s).valid
  · simp [table, h, Key.ofSeed_eq_iff (Row.wordKey_lt _)]
  · simp [table, h]

lemma table_of_holds (h : holds sw.table k s) : sw.table s = some (k, sw.rows s) := by
  obtain ⟨hv, hw⟩ := holds_table.1 h
  simp [table, hv, hw]

section

variable (sw : Switch)

lemma table_write (s : Slot) (r : Row) : (sw.write s r).table =
    update sw.table s (if r.valid then some (.ofSeed r.wordKey, r) else none) := by
  funext s'
  by_cases h : s' = s
  · subst h
    simp [table, Switch.write]
  · simp [table, Switch.write, update_of_ne h]

lemma table_clear (s : Slot) : (sw.write s ⟨0, 0, 0⟩).table = update sw.table s none := by
  rw [table_write, if_neg (by decide)]

lemma table_put (s : Slot) {r : Row} (hr : r.For k) (hv : r.valid) :
    (sw.write s r).table = update sw.table s (some (k, r)) := by
  rw [table_write, if_pos hv, hr.wordKey, Key.ofSeed_seed]

/-! ## The hash key stays within the table -/

lemma and_lt (x : Nat) {n m : Nat} (hn : n < 2 ^ m) : x &&& n < 2 ^ m := and_lt_two_pow x hn

lemma shuffle_lt {h n m : Nat} (hn : n + m = 11) :
    (h &&& (2 ^ n - 1)) <<< m ||| (h >>> n &&& (2 ^ m - 1)) < 2 ^ 11 := by
  have hpos : 0 < 2 ^ n := Nat.two_pow_pos n
  have hpos' : 0 < 2 ^ m := Nat.two_pow_pos m
  apply or_lt_two_pow
  · rw [shiftLeft_eq, ← hn, pow_add]
    exact mul_lt_mul_of_pos_right (and_lt _ (by omega)) hpos'
  · calc _ < 2 ^ m := and_lt _ (by omega)
      _ ≤ 2 ^ 11 := Nat.pow_le_pow_right (by decide) (by omega)

lemma l2HashKey_lt (seed : Nat) : sw.l2HashKey seed < 2 ^ 11 := by
  have h7ff : ∀ x, x &&& 0x7ff < 2 ^ 11 := fun x => and_lt x (by decide)
  have h1ff : ∀ x, x &&& 0x1ff < 2 ^ 11 := fun x => and_lt x (by decide)
  have h₁ : ∀ h, (h &&& 0x1f) <<< 6 ||| (h >>> 5 &&& 0x3f) < 2 ^ 11 :=
    fun h => @shuffle_lt h 5 6 rfl
  have h₂ : ∀ h, (h &&& 0x3f) <<< 5 ||| (h >>> 6 &&& 0x1f) < 2 ^ 11 :=
    fun h => @shuffle_lt h 6 5 rfl
  have h₃ : ∀ h, (h &&& 0x7f) <<< 4 ||| (h >>> 7 &&& 0xf) < 2 ^ 11 := fun h => @shuffle_lt h 7 4 rfl
  unfold l2HashKey
  split
  · exact xor_lt_two_pow (xor_lt_two_pow (xor_lt_two_pow (xor_lt_two_pow (h₁ _) (h₂ _))
      (h₃ _)) (h1ff _)) (xor_lt_two_pow (h7ff _) (h7ff _))
  · exact xor_lt_two_pow (xor_lt_two_pow (xor_lt_two_pow (xor_lt_two_pow
      (xor_lt_two_pow (h1ff _) (h7ff _)) (h7ff _)) (h7ff _)) (h7ff _)) (h7ff _)

lemma l2Index_eq {key i : Nat} (hkey : key < 2 ^ 11) (hi : i < 4) :
    l2Index key i = key * 2 ^ 2 + i := by
  rw [l2Index, if_neg (by omega), @shiftLeft_or key i 2 hi, and_two_pow_sub_one_eq_mod _ 16,
    mod_eq_of_lt (by omega)]

lemma index_split (idx : Nat) :
    (0 : Nat) <<< 14 ||| (idx >>> 2) <<< 2 ||| (idx &&& 0x3) = idx := by
  rw [zero_shiftLeft, zero_or, and_two_pow_sub_one_eq_mod _ 2,
    shiftLeft_or (mod_lt _ (by decide)), shiftRight_eq_div_pow]
  omega

lemma order_nodup (k : Key) : (sw.order k).Nodup := by
  have hbucket : (sw.bucket k).Nodup := by
    refine List.Nodup.map_on (fun i hi j hj hij => ?_) nodup_range
    have hi : i < 2 ^ 2 := mem_range.1 hi
    have hj : j < 2 ^ 2 := mem_range.1 hj
    rw [Slot.sram.injEq, shiftLeft_or hi, shiftLeft_or hj] at hij
    omega
  have hcam : camSlots.Nodup := nodup_range.map fun i j h => Slot.cam.inj h
  refine nodup_append.2 ⟨hbucket, hcam, fun a ha b hb hab => ?_⟩
  obtain ⟨i, -, rfl⟩ := List.mem_map.1 ha
  obtain ⟨j, -, rfl⟩ := List.mem_map.1 hb
  cases hab

/-! ## What the searches find -/

def stops (mustExist : Bool) (k : Key) (s : Slot) : Bool :=
  if mustExist then holds sw.table k s else usable sw.table k s

/-- Where a search of the CAM stops: what it reads from a free row is 0. -/
def camStops (mustExist : Bool) (k : Key) (s : Slot) : Bool :=
  stops sw mustExist k s || ((sw.table s).isNone && k.seed == 0)

end

/-- A search of the rows `l` that stops at `p`: the row found, if any, and the entry read. -/
structure Found (sw : Switch) (slot : Nat → Slot) (p : Slot → Bool) (l : List Slot)
    (res : Option Nat × L2Entry) : Prop where
  found : res.1.map slot = l.find? p
  entry : ∀ idx, res.1 = some idx → ∃ e, res.2 = fillL2Entry (sw.rows (slot idx)) e

namespace Found

variable {slot : Nat → Slot} {p : Slot → Bool} {l : List Slot} {res : Option Nat × L2Entry}

lemma nil (e : L2Entry) : Found sw slot p [] (none, e) := ⟨rfl, fun _ h => by cases h⟩

lemma skip (hp : p s = false) (h : Found sw slot p l res) : Found sw slot p (s :: l) res :=
  ⟨by rw [h.found, find?_cons, hp], h.entry⟩

lemma stop {idx : Nat} (hs : slot idx = s) (hp : p s) (e : L2Entry) :
    Found sw slot p (s :: l) (some idx, fillL2Entry (sw.rows s) e) := by
  subst hs
  refine ⟨by rw [find?_cons, hp, map_some], ?_⟩
  rintro _ ⟨rfl⟩
  exact ⟨e, rfl⟩

end Found

lemma stops_of_free (hs : (sw.rows s).valid = false) (mustExist : Bool) :
    stops sw mustExist k s = !mustExist := by
  have hnone : sw.table s = none := table_eq_none.2 hs
  cases mustExist <;> simp [stops, usable, holds, hnone]

lemma stops_of_valid (hs : (sw.rows s).valid) (mustExist : Bool) :
    stops sw mustExist k s = ((sw.rows s).wordKey == k.seed) := by
  have hsome : (sw.table s).isNone = false := by simp [table, hs]
  rw [Bool.eq_iff_iff, beq_iff_eq]
  cases mustExist <;> simp [stops, usable, holds_table, hsome, hs]

lemma findInBucket_spec (mustExist : Bool) (is : List Nat) (his : ∀ i ∈ is, i < 4) (e : L2Entry) :
    Found sw .sram (stops sw mustExist k) (is.map fun i => .sram (sw.l2HashKey k.seed <<< 2 ||| i))
      (findInBucket sw (sw.l2HashKey k.seed) k.seed mustExist is e) := by
  induction is generalizing e with
  | nil => exact .nil e
  | cons i is ih =>
    have hi : i < 2 ^ 2 := his i (by simp)
    have hidx : Slot.sram (l2Index (sw.l2HashKey k.seed) i) =
      .sram (sw.l2HashKey k.seed <<< 2 ||| i) := by
      rw [l2Index_eq (l2HashKey_lt sw k.seed) hi, shiftLeft_or hi]
    specialize ih fun j hj => his j (mem_cons_of_mem i hj)
    rw [map_cons]
    unfold findInBucket
    simp only [readL2EntryUsingHash, Switch.read, zero_shiftLeft, zero_or, fillL2Entry_valid]
    generalize Slot.sram (sw.l2HashKey k.seed <<< 2 ||| i) = s at hidx ⊢
    cases hv : (sw.rows s).valid with
    | false =>
      have hstops := @stops_of_free sw s k hv mustExist
      cases mustExist with
      | true => exact (ih _).skip hstops
      | false => exact .stop hidx hstops e
    | true =>
      have hstops := @stops_of_valid sw s k hv mustExist
      simp only [Bool.not_true, Bool.and_false, false_eq_true, if_false, Bool.false_or, if_true]
      change Found sw _ _ _ (if ((sw.rows s).wordKey == k.seed) then _ else _)
      split
      next h => exact .stop hidx (by rw [hstops, h]) e
      next h => exact (ih _).skip (by rw [hstops, eq_false_iff]; exact h)

lemma findL2HashEntry_spec (sw : Switch) (k : Key) (mustExist : Bool) (e : L2Entry) :
    Found sw .sram (stops sw mustExist k) (sw.bucket k) (findL2HashEntry sw k.seed mustExist e) :=
  findInBucket_spec mustExist _ (fun _ hi => mem_range.1 hi) e

lemma findInCam_spec (mustExist : Bool) (is : List Nat) (e : L2Entry) :
    Found sw .cam (camStops sw mustExist k) (is.map .cam) (findInCam sw k.seed mustExist is e) := by
  induction is generalizing e with
  | nil => exact .nil e
  | cons i is ih =>
    unfold findInCam
    simp only [readCam, Switch.read, fillL2Entry_valid]
    cases hv : (sw.rows (.cam i)).valid with
    | false =>
      have hnone : sw.table (.cam i) = none := table_eq_none.2 hv
      have hstops : camStops sw mustExist k (.cam i) = (!mustExist || k.seed == 0) := by
        rw [camStops, stops_of_free hv, hnone, isNone_none, Bool.true_and]
      cases mustExist with
      | false => exact .stop rfl hstops e
      | true =>
        simp only [Bool.not_true, Bool.false_and, false_eq_true, if_false, zero_and]
        split
        next h => exact .stop rfl (by simp [hstops, ← beq_iff_eq.1 h]) e
        next h =>
          have hne : k.seed ≠ 0 := fun h0 => h (by rw [h0]; rfl)
          exact (ih _).skip (by simp [hstops, hne])
    | true =>
      have hsome : (sw.table (.cam i)).isNone = false := by simp [table, hv]
      have hstops : camStops sw mustExist k (.cam i) = ((sw.rows (.cam i)).wordKey == k.seed) := by
        rw [camStops, stops_of_valid hv, hsome, Bool.false_and, Bool.or_false]
      simp only [Bool.not_true, Bool.and_false, false_eq_true, if_false, if_true]
      change Found sw _ _ _ (if ((sw.rows (.cam i)).wordKey == k.seed) then _ else _)
      split
      next h => exact .stop rfl (by rw [hstops, h]) e
      next h => exact (ih _).skip (by rw [hstops, eq_false_iff]; exact h)

lemma findL2CamEntry_spec (sw : Switch) (k : Key) (mustExist : Bool) (e : L2Entry) :
    Found sw .cam (camStops sw mustExist k) camSlots (findL2CamEntry sw k.seed mustExist e) :=
  findInCam_spec mustExist _ e

lemma camStops_false (sw : Switch) (k : Key) : camStops sw false k = stops sw false k := by
  funext s
  cases h : (sw.table s).isNone <;> simp [camStops, stops, usable, h]

lemma camStops_true (sw : Switch) (hk : k.seed ≠ 0) : camStops sw true k = stops sw true k := by
  funext s
  simp [camStops, hk]

lemma camStops_seed_zero (hk : k.seed = 0) : camStops sw true k = usable sw.table k := by
  funext s
  simp [camStops, stops, usable, hk, Bool.or_comm]

/-- How the two searches of a call can end, compared with one search of bucket and CAM. -/
inductive Searched (sw : Switch) (k : Key) (mustExist : Bool) (e : L2Entry) : Option Slot → Prop
  | hash (idx : Nat) (e' : L2Entry) (h : findL2HashEntry sw k.seed mustExist e =
        (some idx, fillL2Entry (sw.rows (.sram idx)) e')) :
      Searched sw k mustExist e (some (.sram idx))
  | cam (e₁ : L2Entry) (idx : Nat) (e' : L2Entry)
      (h₁ : findL2HashEntry sw k.seed mustExist e = (none, e₁))
      (h : findL2CamEntry sw k.seed mustExist e₁ =
        (some idx, fillL2Entry (sw.rows (.cam idx)) e')) :
      Searched sw k mustExist e (some (.cam idx))
  | none (e₁ e₂ : L2Entry) (h₁ : findL2HashEntry sw k.seed mustExist e = (none, e₁))
      (h : findL2CamEntry sw k.seed mustExist e₁ = (none, e₂)) : Searched sw k mustExist e none

lemma searched (sw : Switch) (k : Key) (mustExist : Bool) (e : L2Entry) :
    Searched sw k mustExist e (((sw.bucket k).find? (stops sw mustExist k)).or
      (camSlots.find? (camStops sw mustExist k))) := by
  have hhash := findL2HashEntry_spec sw k mustExist e
  rw [← hhash.found]
  rcases h₁ : findL2HashEntry sw k.seed mustExist e with ⟨_ | idx, e₁⟩
  · have hcam := findL2CamEntry_spec sw k mustExist e₁
    rw [map_none, none_or, ← hcam.found]
    rcases h₂ : findL2CamEntry sw k.seed mustExist e₁ with ⟨_ | idx, e₂⟩
    · exact .none e₁ e₂ h₁ h₂
    · obtain ⟨e', he'⟩ := hcam.entry idx (by rw [h₂])
      rw [h₂] at he'
      exact .cam e₁ idx e' h₁ (by rw [h₂, ← he'])
  · obtain ⟨e', he'⟩ := hhash.entry idx (by rw [h₁])
    rw [h₁] at he'
    exact .hash idx e' (by rw [h₁, ← he'])

lemma searched_order (sw : Switch) {mustExist : Bool} (e : L2Entry)
    (hcam : camStops sw mustExist k = stops sw mustExist k) :
    Searched sw k mustExist e ((sw.order k).find? (stops sw mustExist k)) := by
  rw [order, find?_append, ← hcam]
  exact hcam ▸ searched sw k mustExist e

lemma writeL2EntryUsingHash_split (sw : Switch) (idx : Nat) (e : L2Entry) :
    sw.writeL2EntryUsingHash (idx >>> 2) (idx &&& 0x3) e = sw.write (.sram idx) (fillL2Row e) := by
  rw [writeL2EntryUsingHash, index_split]

/-! ## The entries of a table that is a map -/

lemma L2Entry.IsFor.key_unique {e : L2Entry} {k k' : Key} (h : e.IsFor k) (h' : e.IsFor k') :
    k = k' := by
  obtain ⟨addr, vid⟩ := k
  obtain ⟨addr', vid'⟩ := k'
  have haddr : addr = addr' := h.mac.symm.trans h'.mac
  have hvid : vid = vid' := Fin.ext (h.vid.symm.trans h'.vid)
  rw [haddr, hvid]

lemma table_of_valid (hs : (sw.entry s).valid) : ∃ k, sw.table s = some (k, sw.rows s) := by
  have hvalid : (sw.rows s).valid := hs
  simp [table, hvalid]

lemma entry_isFor_iff {M : Key → Option Row} (h : Represents sw.order sw.table M)
    (hread : ∀ k r, M k = some r → (fillL2Entry r {}).IsFor k) :
    (sw.entry s).IsFor k ↔ holds sw.table k s := by
  constructor
  · intro hfor
    obtain ⟨k', hk'⟩ := table_of_valid hfor.valid
    have hfor' : (sw.entry s).IsFor k' := hread k' _ (h.agrees.2 ⟨s, hk'⟩)
    rw [hfor.key_unique hfor']
    exact holds_iff.2 ⟨_, hk'⟩
  · intro hholds
    exact hread k _ (h.agrees.2 ⟨s, table_of_holds hholds⟩)

end SourceMaster.Realtek
