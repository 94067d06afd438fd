import Mathlib.Data.Nat.Bitwise
import Mathlib.Tactic.Ring

/-!
# Rows of the RTL838x L2 table

The L2 table of the switch stores a forwarding entry in three registers `r[0..2]`
(`rtl838x_fill_l2_row`), from which the driver reads the entry back (`rtl838x_fill_l2_entry`).
There is no valid bit: whether a row is in use is guessed from the bits of the row. The last two
registers are, but for four flag bits, the MAC address and the VLAN id one after the other, the
number from which the hash key is computed (`rtl838x_l2_hash_seed`).
-/

namespace SourceMaster.Realtek

open Nat

/-! ## MAC addresses -/

structure EtherAddr where
  b0 : UInt8
  b1 : UInt8
  b2 : UInt8
  b3 : UInt8
  b4 : UInt8
  b5 : UInt8
deriving DecidableEq, Repr

namespace EtherAddr

def toU64 (a : EtherAddr) : Nat :=
  [a.b0, a.b1, a.b2, a.b3, a.b4, a.b5].foldl (fun u b => u <<< 8 ||| b.toNat) 0

def ofU64 (u : Nat) : EtherAddr where
  b5 := .ofNat (u &&& 0xff)
  b4 := .ofNat (u >>> 8 &&& 0xff)
  b3 := .ofNat (u >>> 16 &&& 0xff)
  b2 := .ofNat (u >>> 24 &&& 0xff)
  b1 := .ofNat (u >>> 32 &&& 0xff)
  b0 := .ofNat (u >>> 40 &&& 0xff)

def isMulticast (a : EtherAddr) : Bool := a.b0 &&& 1 != 0

lemma shiftLeft_or {a b n : Nat} (hb : b < 2 ^ n) : a <<< n ||| b = a * 2 ^ n + b := by
  rw [← shiftLeft_add_eq_or_of_lt hb, shiftLeft_eq]

variable (a : EtherAddr) {u : Nat}

lemma toU64_eq : a.toU64 = a.b0.toNat * 2 ^ 40 + a.b1.toNat * 2 ^ 32 +
    a.b2.toNat * 2 ^ 24 + a.b3.toNat * 2 ^ 16 + a.b4.toNat * 2 ^ 8 + a.b5.toNat := by
  have h : ∀ (u : Nat) (b : UInt8), u <<< 8 ||| b.toNat = u * 2 ^ 8 + b.toNat := fun u b =>
    shiftLeft_or b.toNat_lt
  simp only [toU64, List.foldl_cons, List.foldl_nil, h]
  ring

lemma toU64_lt : a.toU64 < 2 ^ 48 := by
  have h₀ := a.b0.toNat_lt
  have h₁ := a.b1.toNat_lt
  have h₂ := a.b2.toNat_lt
  have h₃ := a.b3.toNat_lt
  have h₄ := a.b4.toNat_lt
  have h₅ := a.b5.toNat_lt
  rw [toU64_eq]
  omega

lemma ofNat_eq_of_mod {b : UInt8} (h : u % 2 ^ 8 = b.toNat) : UInt8.ofNat u = b := by
  rw [← UInt8.toNat_inj, UInt8.toNat_ofNat', h]

@[simp]
lemma ofU64_toU64 : ofU64 a.toU64 = a := by
  obtain ⟨b0, b1, b2, b3, b4, b5⟩ := a
  have h₀ := b0.toNat_lt
  have h₁ := b1.toNat_lt
  have h₂ := b2.toNat_lt
  have h₃ := b3.toNat_lt
  have h₄ := b4.toNat_lt
  have h₅ := b5.toNat_lt
  simp only [ofU64, toU64_eq, EtherAddr.mk.injEq, shiftRight_eq_div_pow]
  refine ⟨?_, ?_, ?_, ?_, ?_, ?_⟩ <;> apply ofNat_eq_of_mod <;>
    rw [and_two_pow_sub_one_eq_mod _ 8] <;> omega

lemma toU64_ofU64 (h : u < 2 ^ 48) : (ofU64 u).toU64 = u := by
  have hand : ∀ x, x &&& 255 = x % 2 ^ 8 := fun x => and_two_pow_sub_one_eq_mod x 8
  simp only [toU64_eq, ofU64, UInt8.toNat_ofNat', shiftRight_eq_div_pow, hand]
  omega

end EtherAddr

/-! ## Entries and rows -/

inductive L2EntryType
  | invalid | unicast | multicast | ip4Multicast | ip6Multicast
deriving DecidableEq, Repr

/-- `struct rtl838x_l2_entry`, without the fields that only other families use. -/
structure L2Entry where
  mac : EtherAddr := ⟨0, 0, 0, 0, 0, 0⟩
  vid : Nat := 0
  rvid : Nat := 0
  port : Nat := 0
  valid : Bool := false
  type : L2EntryType := .invalid
  isStatic : Bool := false
  isIpMc : Bool := false
  isIpv6Mc : Bool := false
  blockDa : Bool := false
  blockSa : Bool := false
  suspended : Bool := false
  nextHop : Bool := false
  age : Nat := 0
  mcPortmaskIndex : Nat := 0
  mcGip : Nat := 0
  nhRouteId : Nat := 0
  nhVlanTarget : Bool := false
deriving DecidableEq, Repr

structure Row where
  r0 : Nat
  r1 : Nat
  r2 : Nat
deriving DecidableEq, Repr

def u32 (x : Nat) : Nat := x % 2 ^ 32

def flag (b : Bool) (n : Nat) : Nat := if b then 1 <<< n else 0

/-- The bytes of `e->mac` as `rtl838x_fill_l2_entry` reads them. -/
def Row.mac (r : Row) : EtherAddr where
  b0 := .ofNat (r.r1 >>> 20)
  b1 := .ofNat (r.r1 >>> 12)
  b2 := .ofNat (r.r1 >>> 4)
  b3 := .ofNat ((r.r1 &&& 0xf) <<< 4 ||| r.r2 >>> 28)
  b4 := .ofNat (r.r2 >>> 20)
  b5 := .ofNat (r.r2 >>> 12)

def fillUnicastEntry (r : Row) (e : L2Entry) : L2Entry :=
  let e := { e with
    isStatic := r.r0.testBit 19
    port := r.r0 >>> 12 &&& 0x1f
    blockDa := r.r1.testBit 30
    blockSa := r.r1.testBit 31
    suspended := r.r1.testBit 29
    nextHop := r.r1.testBit 28 }
  let e :=
    if e.nextHop then
      { e with nhVlanTarget := r.r0.testBit 9, nhRouteId := r.r0 &&& 0x1ff, vid := e.rvid }
    else e
  let e := { e with age := r.r0 >>> 17 &&& 0x3, valid := true }
  -- one of multicast, aging, blocking, next hop or static is set in a valid entry
  if r.r0 &&& 0x007c0000 = 0 ∧ r.r1 &&& 0xd0000000 = 0 then
    { e with valid := false }
  else
    { e with type := .unicast }

/-- `rtl838x_fill_l2_entry`; the fields it does not set keep what `e` held before. -/
def fillL2Entry (r : Row) (e : L2Entry) : L2Entry :=
  let e := { e with
    isIpMc := r.r0.testBit 22
    isIpv6Mc := r.r0.testBit 21
    type := .invalid }
  let e :=
    if !e.isIpMc && !e.isIpv6Mc then
      let e := { e with mac := r.mac, rvid := r.r2 &&& 0xfff, vid := r.r0 &&& 0xfff }
      if !e.mac.isMulticast then
        fillUnicastEntry r e
      else
        { e with valid := true, type := .multicast, mcPortmaskIndex := r.r0 >>> 12 &&& 0x1ff }
    else
      { e with
        valid := true
        mcPortmaskIndex := r.r0 >>> 12 &&& 0x1ff
        mcGip := u32 (r.r1 <<< 20) ||| r.r2 >>> 12
        rvid := r.r2 &&& 0xfff }
  let e := if e.isIpMc then { e with type := .ip4Multicast } else e
  if e.isIpv6Mc then { e with type := .ip6Multicast } else e

def fillL2Row (e : L2Entry) : Row :=
  let mac := e.mac.toU64
  if !e.valid then
    ⟨0, 0, 0⟩
  else
    let r0 := flag e.isIpMc 22
    let r0 := r0 ||| flag e.isIpv6Mc 21
    if !e.isIpMc && !e.isIpv6Mc then
      let r1 := u32 (mac >>> 20)
      let r2 := u32 ((mac &&& 0xfffff) <<< 12)
      if !e.mac.isMulticast then
        let r0 := r0 ||| flag e.isStatic 19
        let r0 := r0 ||| (e.port &&& 0x3f) <<< 12
        let r0 := r0 ||| e.vid
        let r1 := r1 ||| flag e.blockDa 30
        let r1 := r1 ||| flag e.blockSa 31
        let r1 := r1 ||| flag e.suspended 29
        let r2 := r2 ||| (e.rvid &&& 0xfff)
        let r1 := if e.nextHop then r1 ||| 1 <<< 28 else r1
        let r0 := if e.nextHop then r0 ||| flag e.nhVlanTarget 9 ||| (e.nhRouteId &&& 0x1ff) else r0
        let r0 := r0 ||| (e.age &&& 0x3) <<< 17
        ⟨r0, r1, r2⟩
      else
        let r0 := r0 ||| (e.mcPortmaskIndex &&& 0x1ff) <<< 12
        let r2 := r2 ||| (e.rvid &&& 0xfff)
        let r0 := r0 ||| (e.vid &&& 0xfff)
        ⟨r0, r1, r2⟩
    else
      let r0 := r0 ||| (e.mcPortmaskIndex &&& 0x1ff) <<< 12
      let r1 := e.mcGip >>> 20
      let r2 := u32 (e.mcGip <<< 12)
      let r2 := r2 ||| e.rvid
      ⟨r0, r1, r2⟩

def setupL2UcEntry (port vid mac : Nat) : L2Entry :=
  { type := .unicast, valid := true, age := 3, isStatic := true, port := port,
    rvid := vid, vid := vid, isIpMc := false, isIpv6Mc := false, mac := .ofU64 mac }

def setupL2McEntry (vid mac mcGroup : Nat) : L2Entry :=
  { type := .multicast, valid := true, mcPortmaskIndex := mcGroup,
    rvid := vid, vid := vid, isIpMc := false, isIpv6Mc := false, mac := .ofU64 mac }

def l2HashSeed (mac vid : Nat) : Nat := mac <<< 12 ||| vid

/-! ## Keys -/

instance neZeroVlans : NeZero 4096 := ⟨by decide⟩

/-- What an entry is for: a MAC address in a VLAN. -/
structure Key where
  addr : EtherAddr
  vid : Fin 4096
deriving DecidableEq, Repr

namespace Key

def seed (k : Key) : Nat := l2HashSeed k.addr.toU64 k.vid

def ofSeed (w : Nat) : Key := ⟨.ofU64 (w >>> 12), w % 4096, mod_lt _ (by decide)⟩

lemma seed_eq (k : Key) : k.seed = k.addr.toU64 * 2 ^ 12 + k.vid :=
    EtherAddr.shiftLeft_or k.vid.isLt

@[simp]
lemma ofSeed_seed (k : Key) : ofSeed k.seed = k := by
  obtain ⟨addr, vid⟩ := k
  simp only [ofSeed, seed_eq, Key.mk.injEq, Fin.ext_iff]
  refine ⟨?_, by omega⟩
  rw [shiftRight_eq_div_pow, show (addr.toU64 * 2 ^ 12 + vid.val) / 2 ^ 12 = addr.toU64 by omega,
    EtherAddr.ofU64_toU64]

lemma seed_ofSeed {w : Nat} (h : w < 2 ^ 60) : (ofSeed w).seed = w := by
  have hmac : w >>> 12 < 2 ^ 48 := by rw [shiftRight_eq_div_pow]; omega
  rw [seed_eq, ofSeed, EtherAddr.toU64_ofU64 hmac, shiftRight_eq_div_pow]
  exact div_add_mod' w 4096

lemma ofSeed_eq_iff {w : Nat} (h : w < 2 ^ 60) (k : Key) : ofSeed w = k ↔ w = k.seed := by
  constructor
  · rintro rfl
    rw [seed_ofSeed h]
  · rintro rfl
    exact ofSeed_seed k

end Key

/-! ## Reading rows back -/

namespace Row

/-- `r[1]` and `r[2]`, what `rtl838x_read_l2_entry_using_hash` returns for a valid entry. -/
def word (r : Row) : Nat := r.r1 <<< 32 ||| r.r2

def wordKey (r : Row) : Nat := r.word &&& 0x0fffffffffffffff

def valid (r : Row) : Bool := (fillL2Entry r {}).valid

lemma wordKey_lt (r : Row) : r.wordKey < 2 ^ 60 := and_lt_two_pow _ (by decide)

end Row

structure Row.IsL2 (r : Row) : Prop where
  ip4 : r.r0.testBit 22 = false
  ip6 : r.r0.testBit 21 = false

variable (r : Row) (e : L2Entry)

lemma fillUnicastEntry_isIpMc : (fillUnicastEntry r e).isIpMc = e.isIpMc := by
  unfold fillUnicastEntry
  dsimp only
  split_ifs <;> rfl

lemma fillUnicastEntry_isIpv6Mc : (fillUnicastEntry r e).isIpv6Mc = e.isIpv6Mc := by
  unfold fillUnicastEntry
  dsimp only
  split_ifs <;> rfl

lemma fillUnicastEntry_valid :
    (fillUnicastEntry r e).valid = !decide (r.r0 &&& 0x007c0000 = 0 ∧ r.r1 &&& 0xd0000000 = 0) := by
  unfold fillUnicastEntry
  split_ifs with h <;> simp [h]

lemma fillL2Entry_unicast {r : Row} (hr : r.IsL2) (hmac : r.mac.isMulticast = false)
    (e : L2Entry) : fillL2Entry r e = fillUnicastEntry r
      { e with isIpMc := false, isIpv6Mc := false, type := .invalid, mac := r.mac,
               rvid := r.r2 &&& 0xfff, vid := r.r0 &&& 0xfff } := by
  simp [fillL2Entry, hr.ip4, hr.ip6, hmac, fillUnicastEntry_isIpMc, fillUnicastEntry_isIpv6Mc]

lemma fillL2Entry_multicast {r : Row} (hr : r.IsL2) (hmac : r.mac.isMulticast)
    (e : L2Entry) : fillL2Entry r e =
      { e with isIpMc := false, isIpv6Mc := false, mac := r.mac, rvid := r.r2 &&& 0xfff,
               vid := r.r0 &&& 0xfff, valid := true, type := .multicast,
               mcPortmaskIndex := r.r0 >>> 12 &&& 0x1ff } := by
  simp [fillL2Entry, hr.ip4, hr.ip6, hmac]

lemma fillL2Entry_valid : (fillL2Entry r e).valid = r.valid := by
  unfold Row.valid
  by_cases hr : r.IsL2
  · cases hmac : r.mac.isMulticast with
    | false => rw [fillL2Entry_unicast hr hmac, fillL2Entry_unicast hr hmac, fillUnicastEntry_valid,
        fillUnicastEntry_valid]
    | true => rw [fillL2Entry_multicast hr hmac, fillL2Entry_multicast hr hmac]
  · have hip : (!r.r0.testBit 22 && !r.r0.testBit 21) = false := by
      rw [Bool.eq_false_iff]
      intro h
      rw [Bool.and_eq_true, Bool.not_eq_true', Bool.not_eq_true'] at h
      exact hr ⟨h.1, h.2⟩
    have hvalid : ∀ e, (fillL2Entry r e).valid := by
      intro e
      simp only [fillL2Entry, hip, Bool.false_eq_true, if_false]
      split_ifs <;> rfl
    rw [hvalid, hvalid]

/-- The last two registers hold the address and the VLAN of the key. -/
structure Row.For (r : Row) (k : Key) : Prop where
  r1 : r.r1 = k.addr.toU64 / 2 ^ 20
  r2 : r.r2 = k.addr.toU64 % 2 ^ 20 * 2 ^ 12 + k.vid

namespace Row.For

variable {r : Row} {k : Key}

lemma wordKey (h : r.For k) : r.wordKey = k.seed := by
  have hmac := k.addr.toU64_lt
  have hr2 : r.r2 < 2 ^ 32 := by rw [h.r2]; omega
  rw [Row.wordKey, Row.word, EtherAddr.shiftLeft_or hr2, and_two_pow_sub_one_eq_mod _ 60, h.r1,
    h.r2, k.seed_eq]
  omega

lemma mac (h : r.For k) : r.mac = k.addr := by
  have hb3 : (r.r1 &&& 0xf) <<< 4 ||| r.r2 >>> 28 = r.r1 % 2 ^ 4 * 2 ^ 4 + r.r2 / 2 ^ 28 := by
    have hlt : r.r2 / 2 ^ 28 < 2 ^ 4 := by rw [h.r2]; omega
    rw [and_two_pow_sub_one_eq_mod _ 4, shiftRight_eq_div_pow, EtherAddr.shiftLeft_or hlt]
  rw [← EtherAddr.ofU64_toU64 k.addr]
  simp only [Row.mac, EtherAddr.ofU64, EtherAddr.mk.injEq, hb3]
  simp only [shiftRight_eq_div_pow, h.r1, h.r2]
  refine ⟨?_, ?_, ?_, ?_, ?_, ?_⟩ <;> rw [← UInt8.toNat_inj, UInt8.toNat_ofNat', UInt8.toNat_ofNat',
    and_two_pow_sub_one_eq_mod _ 8] <;> omega

lemma of_setup {mac vid : Nat} (hmac : mac = k.addr.toU64) (hvid : vid = k.vid)
    (h1 : r.r1 = u32 (mac >>> 20))
    (h2 : r.r2 = u32 ((mac &&& 0xfffff) <<< 12) ||| (vid &&& 0xfff)) : r.For k := by
  have hlt := k.addr.toU64_lt
  have hv := k.vid.isLt
  have hmask : k.addr.toU64 &&& 0xfffff = k.addr.toU64 % 2 ^ 20 := and_two_pow_sub_one_eq_mod _ 20
  have hvmask : k.vid.val &&& 0xfff = k.vid := by
    rw [and_two_pow_sub_one_eq_mod _ 12, mod_eq_of_lt hv]
  have hshift : u32 ((k.addr.toU64 % 2 ^ 20) <<< 12) = (k.addr.toU64 % 2 ^ 20) <<< 12 := by
    rw [u32, shiftLeft_eq, mod_eq_of_lt (by omega)]
  constructor
  · rw [h1, hmac, u32, shiftRight_eq_div_pow, mod_eq_of_lt (by omega)]
  · rw [h2, hmac, hvid, hmask, hvmask, hshift, EtherAddr.shiftLeft_or hv]

end Row.For

/-! ## The rows the driver writes -/

def ucRow (k : Key) (port : Nat) : Row := fillL2Row (setupL2UcEntry port k.vid k.addr.toU64)

def mcRow (k : Key) (mcGroup : Nat) : Row := fillL2Row (setupL2McEntry k.vid k.addr.toU64 mcGroup)

lemma fillL2Row_of_not_valid {e : L2Entry} (h : e.valid = false) : fillL2Row e = ⟨0, 0, 0⟩ := by
  simp [fillL2Row, h]

lemma mcRow_for (k : Key) (mcGroup : Nat) : (mcRow k mcGroup).For k := by
  refine .of_setup rfl rfl ?_ ?_ <;>
    cases h : k.addr.isMulticast <;> simp [mcRow, fillL2Row, setupL2McEntry, h, flag]

lemma ucRow_for (k : Key) (port : Nat) : (ucRow k port).For k := by
  refine .of_setup rfl rfl ?_ ?_ <;>
    cases h : k.addr.isMulticast <;> simp [ucRow, fillL2Row, setupL2UcEntry, h, flag]

variable {k : Key} {mcGroup : Nat}

lemma ucRow_of_multicast (hk : k.addr.isMulticast) (port : Nat) : ucRow k port = mcRow k 0 := by
  simp [ucRow, mcRow, fillL2Row, setupL2UcEntry, setupL2McEntry, hk]

lemma mcRow_r0 (hk : k.addr.isMulticast) (hg : mcGroup < 512) :
    (mcRow k mcGroup).r0 = mcGroup * 2 ^ 12 + k.vid := by
  have hv := k.vid.isLt
  have hgm : mcGroup &&& 0x1ff = mcGroup := by
    rw [and_two_pow_sub_one_eq_mod _ 9, mod_eq_of_lt hg]
  have hvmask : k.vid.val &&& 0xfff = k.vid := by
    rw [and_two_pow_sub_one_eq_mod _ 12, mod_eq_of_lt hv]
  have hr0 : (mcRow k mcGroup).r0 = mcGroup <<< 12 ||| k.vid := by
    simp [mcRow, fillL2Row, setupL2McEntry, hk, flag, hgm, hvmask]
  rw [hr0, EtherAddr.shiftLeft_or hv]

lemma ucRow_r0 (hk : k.addr.isMulticast = false) {port : Nat} (hp : port < 32) :
    (ucRow k port).r0 = 7 * 2 ^ 17 + (port * 2 ^ 12 + k.vid) := by
  have hv := k.vid.isLt
  have hpm : port &&& 0x3f = port := by
    rw [and_two_pow_sub_one_eq_mod _ 6, mod_eq_of_lt (by omega)]
  have hr0 : (ucRow k port).r0 = 1 <<< 19 ||| port <<< 12 ||| k.vid ||| 3 <<< 17 := by
    simp [ucRow, fillL2Row, setupL2UcEntry, hk, flag, hpm]
  calc (ucRow k port).r0 = 1 <<< 19 ||| port <<< 12 ||| k.vid ||| 3 <<< 17 := hr0
    _ = 7 <<< 17 ||| (port <<< 12 ||| k.vid) := by
      ac_rfl
    _ = 7 <<< 17 ||| (port * 2 ^ 12 + k.vid) := by
      rw [@EtherAddr.shiftLeft_or port _ 12 hv]
    _ = 7 * 2 ^ 17 + (port * 2 ^ 12 + k.vid) := EtherAddr.shiftLeft_or (by omega)

lemma mcRow_isL2 (hk : k.addr.isMulticast) (hg : mcGroup < 512) : (mcRow k mcGroup).IsL2 := by
  constructor <;> rw [mcRow_r0 hk hg] <;> apply testBit_lt_two_pow <;> omega

lemma ucRow_isL2 (hk : k.addr.isMulticast = false) {port : Nat} (hp : port < 32) :
    (ucRow k port).IsL2 := by
  constructor <;> rw [ucRow_r0 hk hp] <;> apply testBit_lt_two_pow <;> omega

structure L2Entry.IsFor (e : L2Entry) (k : Key) : Prop where
  valid : e.valid
  mac : e.mac = k.addr
  vid : e.vid = k.vid

lemma fillL2Entry_mcRow (hk : k.addr.isMulticast) (hg : mcGroup < 512) (e : L2Entry) :
    (fillL2Entry (mcRow k mcGroup) e).IsFor k ∧
    (fillL2Entry (mcRow k mcGroup) e).type = .multicast ∧
      (fillL2Entry (mcRow k mcGroup) e).mcPortmaskIndex = mcGroup := by
  have hmac := (mcRow_for k mcGroup).mac
  rw [fillL2Entry_multicast (mcRow_isL2 hk hg) (by rw [hmac, hk]), mcRow_r0 hk hg]
  refine ⟨⟨rfl, hmac, ?_⟩, rfl, ?_⟩
  · change (mcGroup * 2 ^ 12 + k.vid.val) &&& 0xfff = k.vid
    rw [and_two_pow_sub_one_eq_mod _ 12]
    omega
  · change (mcGroup * 2 ^ 12 + k.vid.val) >>> 12 &&& 0x1ff = mcGroup
    rw [and_two_pow_sub_one_eq_mod _ 9, shiftRight_eq_div_pow]
    omega

lemma fillL2Entry_ucRow (hk : k.addr.isMulticast = false) {port : Nat} (hp : port < 32)
    (e : L2Entry) :
    (fillL2Entry (ucRow k port) e).IsFor k ∧ (fillL2Entry (ucRow k port) e).type = .unicast ∧
      (fillL2Entry (ucRow k port) e).port = port := by
  have hmac := (ucRow_for k port).mac
  have hr1 := (ucRow_for k port).r1
  have hlt := k.addr.toU64_lt
  have hstatic : ¬ ((ucRow k port).r0 &&& 0x007c0000 = 0 ∧
      (ucRow k port).r1 &&& 0xd0000000 = 0) := by
    rintro ⟨h, -⟩
    have h19 : ((ucRow k port).r0 &&& 0x007c0000).testBit 19 = false := by rw [h]; rfl
    rw [testBit_and, ucRow_r0 hk hp, testBit_eq_decide_div_mod_eq] at h19
    have hset : (7 * 2 ^ 17 + (port * 2 ^ 12 + k.vid.val)) / 2 ^ 19 % 2 = 1 := by omega
    rw [hset] at h19
    cases h19
  have hnext : (ucRow k port).r1.testBit 28 = false := by
    apply testBit_lt_two_pow
    omega
  rw [fillL2Entry_unicast (ucRow_isL2 hk hp) (by rw [hmac, hk])]
  unfold fillUnicastEntry
  rw [hnext, if_neg hstatic]
  refine ⟨⟨rfl, hmac, ?_⟩, rfl, ?_⟩
  · change (ucRow k port).r0 &&& 0xfff = k.vid
    rw [ucRow_r0 hk hp, and_two_pow_sub_one_eq_mod _ 12]
    omega
  · change (ucRow k port).r0 >>> 12 &&& 0x1f = port
    rw [ucRow_r0 hk hp, and_two_pow_sub_one_eq_mod _ 5, shiftRight_eq_div_pow]
    omega

end SourceMaster.Realtek
