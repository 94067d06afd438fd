import SourceMaster.Lib.Fields
import SourceMaster.Realtek.L2Table

/-!
# Next hops in the L2 table

The engine forwards a routed packet to a next hop, which is a row of the L2 table with the next hop
bit. `rtl83xx_l2_nexthop_add` looks for the address of the gateway in its bucket, and marks the row
or sets up a new one; `rtl83xx_l2_nexthop_rm` takes the mark away, and with it a row that is static.
The row is named by its index, `nh->l2_id`.
-/

namespace SourceMaster.Realtek

open Switch Probe Nat EtherAddr Row

/-- `struct rtl83xx_nexthop`, without the fields that only other families use. -/
structure Nexthop where
  id : Nat := 0
  port : Nat := 0
  vid : Nat := 0
  rvid : Nat := 0
  mac : Nat := 0
  l2Id : Nat := 0
  gw : Nat := 0

def portIgnore : Nat := 0x1f

/-- `rtl83xx_l2_nexthop_add`. The entry `e` of the source is not initialised, but what is written
back for a unicast address has been set or read. -/
def l2NexthopAdd (sw : Switch) (nh : Nexthop) : Int × Switch × Nexthop :=
  let e : L2Entry := { type := .unicast, mac := .ofU64 nh.mac, port := nh.port }
  match findL2HashEntry sw (l2HashSeed nh.mac nh.rvid) false e with
  | (none, _) => (-1, sw, nh)
  | (some idx, e) =>
    let nh := { nh with l2Id := idx }
    if e.valid then
      let nh := { nh with port := e.port, vid := e.vid, rvid := e.rvid }
      if e.nextHop then (0, sw, nh)
      else
        let e := { e with nextHop := true, nhRouteId := nh.id, nhVlanTarget := false }
        (0, sw.writeL2EntryUsingHash (idx >>> 2) (idx &&& 0x3) e, nh)
    else
      let e := { e with
        valid := true
        isStatic := true
        rvid := nh.rvid
        isIpMc := false
        isIpv6Mc := false
        blockDa := false
        blockSa := false
        suspended := false
        age := 0
        port := portIgnore
        mac := .ofU64 nh.mac }
      let e := { e with nextHop := true, nhRouteId := nh.id, nhVlanTarget := false }
      (0, sw.writeL2EntryUsingHash (idx >>> 2) (idx &&& 0x3) e, nh)

def l2NexthopRm (sw : Switch) (nh : Nexthop) : Int × Switch :=
  let key := nh.l2Id >>> 2
  let i := nh.l2Id &&& 0x3
  let (_, e) := sw.readL2EntryUsingHash key i {}
  if !e.valid then (-1, sw)
  else
    let e := if e.isStatic then { e with valid := false } else e
    let e := { e with nextHop := false, vid := nh.vid, rvid := nh.rvid }
    (0, sw.writeL2EntryUsingHash key i e)

/-! ## Rows -/

structure Row.Sane (r : Row) : Prop extends r.IsL2 where
  r1_lt : r.r1 < 2 ^ 32
  r2_lt : r.r2 < 2 ^ 32

def Row.IsNexthop (r : Row) : Prop := r.valid ∧ (fillL2Entry r {}).nextHop

lemma flag_lt (b : Bool) {n m : Nat} (h : n < m) : flag b n < 2 ^ m := by
  unfold flag
  split
  next =>
    rw [shiftLeft_eq, one_mul]
    exact Nat.pow_lt_pow_right (by decide) h
  next => exact Nat.two_pow_pos m

lemma u32_lt (x : Nat) : u32 x < 2 ^ 32 := mod_lt _ (by decide)

variable (a : EtherAddr) {sw : Switch} {r : Row} {nh : Nexthop} {e : L2Entry}

lemma fillL2Row_sane (h4 : e.isIpMc = false) (h6 : e.isIpv6Mc = false) (hvid : e.vid < 2 ^ 12) :
    (fillL2Row e).Sane := by
  suffices hlt : (fillL2Row e).r0 < 2 ^ 21 ∧ (fillL2Row e).r1 < 2 ^ 32 ∧
    (fillL2Row e).r2 < 2 ^ 32 from
    ⟨⟨testBit_lt_two_pow (hlt.1.trans (by decide)), testBit_lt_two_pow hlt.1⟩, hlt.2.1, hlt.2.2⟩
  have hvid' : e.vid < 2 ^ 21 := hvid.trans (by decide)
  have hflag (n : Nat) : flag false n = 0 := rfl
  cases hv : e.valid with
  | false =>
    rw [fillL2Row_of_not_valid hv]
    decide
  | true =>
    cases hm : e.mac.isMulticast <;> cases hn : e.nextHop
    -- each word is an or of values that fit
    all_goals
      simp only [fillL2Row, hv, hm, hn, h4, h6, hflag, Bool.not_true, Bool.not_false, Bool.and_self,
        if_true, Bool.false_eq_true, if_false, zero_or]
      refine ⟨?_, ?_, ?_⟩
      all_goals
        repeat' with_reducible apply or_lt_two_pow
        all_goals with_reducible first
          | exact u32_lt _
          | exact hvid'
          | exact flag_lt _ (by decide)
          | exact Fields.masked_lt _ (by decide)
          | exact and_lt_two_pow _ (by decide)
          | decide

/-! ## Reading a next hop back -/

lemma EtherAddr.isMulticast_eq : a.isMulticast = decide (a.b0.toNat % 2 = 1) := by
  have hand : (a.b0 &&& 1).toNat = a.b0.toNat % 2 := by
    exact and_one_is_mod _
  have hzero : a.b0 &&& 1 = 0 ↔ a.b0.toNat % 2 = 0 := by
    rw [← UInt8.toNat_inj, hand]
    rfl
  rw [isMulticast, Bool.eq_iff_iff, bne_iff_ne, ne_eq, hzero, decide_eq_true_iff]
  omega

lemma EtherAddr.isMulticast_toU64 : a.isMulticast = a.toU64.testBit 40 := by
  have h₁ := a.b1.toNat_lt
  have h₂ := a.b2.toNat_lt
  have h₃ := a.b3.toNat_lt
  have h₄ := a.b4.toNat_lt
  have h₅ := a.b5.toNat_lt
  rw [isMulticast_eq, testBit_eq_decide_div_mod_eq, toU64_eq]
  congr 2
  omega

lemma Row.mac_isMulticast (r : Row) : r.mac.isMulticast = r.r1.testBit 20 := by
  rw [isMulticast_eq, testBit_eq_decide_div_mod_eq, mac, UInt8.toNat_ofNat', shiftRight_eq_div_pow]
  congr 2
  omega

lemma Row.mac_isMulticast_of_wordKey {k : Key} (hr : r.r2 < 2 ^ 32) (h : r.wordKey = k.seed) :
    r.mac.isMulticast = k.addr.isMulticast := by
  have hseed : k.seed.testBit 52 = k.addr.toU64.testBit 40 := by
    simp only [testBit_eq_decide_div_mod_eq, k.seed_eq]
    congr 2
    omega
  rw [mac_isMulticast, isMulticast_toU64, ← hseed, ← h, wordKey, word,
    testBit_and, testBit_or, testBit_lt_two_pow (hr.trans (by decide)),
    testBit_shiftLeft, show testBit 0x0fffffffffffffff 52 by decide]
  simp

lemma fillUnicastEntry_nextHop (r : Row) (e : L2Entry) :
    (fillUnicastEntry r e).nextHop = r.r1.testBit 28 := by
  unfold fillUnicastEntry
  dsimp only
  split_ifs <;> simp_all

lemma isNexthop_of_testBit (hr : r.IsL2) (hmac : r.mac.isMulticast = false)
    (h28 : r.r1.testBit 28) : r.IsNexthop := by
  have hne : r.r1 &&& 0xd0000000 ≠ 0 := by
    intro h
    have hbit : (r.r1 &&& 0xd0000000).testBit 28 := by
      rw [testBit_and, h28]
      rfl
    rw [h] at hbit
    cases hbit
  constructor
  · rw [valid, fillL2Entry_unicast hr hmac, fillUnicastEntry_valid]
    simp [hne]
  · rw [fillL2Entry_unicast hr hmac, fillUnicastEntry_nextHop, h28]

lemma fillL2Row_isNexthop (h4 : e.isIpMc = false) (h6 : e.isIpv6Mc = false)
    (hvid : e.vid < 2 ^ 12)
    (hmac : e.mac.isMulticast = false) (hvalid : e.valid) (hnext : e.nextHop) :
    (fillL2Row e).IsNexthop := by
  have hr1 : (fillL2Row e).r1 = u32 (e.mac.toU64 >>> 20) ||| flag e.blockDa 30 ||| flag e.blockSa 31
    ||| flag e.suspended 29 ||| 1 <<< 28 := by
    simp only [fillL2Row, hvalid, hmac, h4, h6, hnext, Bool.not_true, Bool.not_false, Bool.and_self,
      if_true, Bool.false_eq_true, if_false]
  have hflag (b : Bool) (n : Nat) (hn : 20 < n) : (flag b n).testBit 20 = false := by
    unfold flag
    split
    next => rw [one_shiftLeft, testBit_two_pow_of_ne (by omega)]
    next => exact zero_testBit 20
  refine isNexthop_of_testBit (fillL2Row_sane h4 h6 hvid).toIsL2 ?_ ?_
  · rw [mac_isMulticast, hr1, testBit_or, testBit_or, testBit_or, testBit_or,
      hflag _ 30 (by decide), hflag _ 31 (by decide), hflag _ 29 (by decide), u32,
      testBit_mod_two_pow, testBit_shiftRight, ← isMulticast_toU64, hmac]
    rfl
  · rw [hr1, testBit_or, show (1 <<< 28).testBit 28 by decide, Bool.or_true]

/-! ## What the two functions do -/

structure Nexthop.InRange (nh : Nexthop) : Prop where
  vid : nh.vid < 2 ^ 12
  rvid : nh.rvid < 2 ^ 12

def Switch.Sane (sw : Switch) : Prop := ∀ s, (sw.rows s).Sane

lemma Switch.Sane.write (h : sw.Sane) (s : Slot) (hr : r.Sane) : (sw.write s r).Sane := by
  intro s'
  by_cases hs : s' = s
  · subst hs
    simpa [Switch.write] using hr
  · simpa [Switch.write, Function.update_of_ne hs] using h s'

lemma fillL2Entry_of_isL2 (hr : r.IsL2) (e : L2Entry) :
    (fillL2Entry r e).isIpMc = false ∧ (fillL2Entry r e).isIpv6Mc = false ∧
      (fillL2Entry r e).mac = r.mac ∧ (fillL2Entry r e).vid < 2 ^ 12 ∧
      (fillL2Entry r e).rvid < 2 ^ 12 := by
  have hmask (x : Nat) : x &&& 0xfff < 2 ^ 12 := and_lt_two_pow x (by decide)
  cases hmac : r.mac.isMulticast with
  | true =>
    rw [fillL2Entry_multicast hr hmac]
    exact ⟨rfl, rfl, rfl, hmask _, hmask _⟩
  | false =>
    rw [fillL2Entry_unicast hr hmac]
    unfold fillUnicastEntry
    dsimp only
    split_ifs <;> exact ⟨rfl, rfl, rfl, hmask _, hmask _⟩

/-- After a successful `rtl83xx_l2_nexthop_add` the row it stores is a next hop, and no other row
has changed, nor one that was a next hop. -/
structure NexthopAdded (sw sw' : Switch) (nh' : Nexthop) : Prop where
  isNexthop : (sw'.rows (.sram nh'.l2Id)).IsNexthop
  rows : ∀ s, s ≠ .sram nh'.l2Id ∨ (sw.rows s).IsNexthop → sw'.rows s = sw.rows s
  sane : sw'.Sane
  inRange : nh'.InRange

lemma NexthopAdded.write {nh' : Nexthop} {idx : Nat} (hidx : nh'.l2Id = idx) (hsw : sw.Sane)
    (hnh : nh'.InRange) (hrow : ¬ (sw.rows (.sram idx)).IsNexthop) (h4 : e.isIpMc = false)
    (h6 : e.isIpv6Mc = false) (hvid : e.vid < 2 ^ 12) (hmac : e.mac.isMulticast = false)
    (hvalid : e.valid) (hnext : e.nextHop) :
    NexthopAdded sw (sw.writeL2EntryUsingHash (idx >>> 2) (idx &&& 0x3) e) nh' := by
  subst hidx
  rw [writeL2EntryUsingHash_split]
  refine ⟨?_, fun s hs => ?_, hsw.write _ (fillL2Row_sane h4 h6 hvid), hnh⟩
  · simpa [Switch.write] using fillL2Row_isNexthop h4 h6 hvid hmac hvalid hnext
  · have hne : s ≠ .sram nh'.l2Id := by
      rintro rfl
      exact hs.elim (fun h => h rfl) hrow
    simp [Switch.write, Function.update_of_ne hne]

lemma l2NexthopAdd_spec {a : EtherAddr} (hsw : sw.Sane) (hnh : nh.InRange)
    (hmac : nh.mac = a.toU64) (ha : a.isMulticast = false) : l2NexthopAdd sw nh = (-1, sw, nh) ∨
      ∃ sw' nh', l2NexthopAdd sw nh = (0, sw', nh') ∧ NexthopAdded sw sw' nh' := by
  have hseed : l2HashSeed nh.mac nh.rvid = Key.seed ⟨a, ⟨nh.rvid, hnh.rvid⟩⟩ := by rw [hmac]; rfl
  generalize hk : (⟨a, ⟨nh.rvid, hnh.rvid⟩⟩ : Key) = k at hseed
  have haddr : k.addr = a := by rw [← hk]
  have hfound := findL2HashEntry_spec sw k false
    { type := .unicast, mac := .ofU64 nh.mac, port := nh.port }
  unfold l2NexthopAdd
  dsimp only
  rw [hseed]
  generalize findL2HashEntry sw k.seed false _ = res at hfound
  obtain ⟨_ | idx, e⟩ := res
  · exact .inl rfl
  right
  obtain ⟨e', rfl⟩ : ∃ e', e = fillL2Entry (sw.rows (.sram idx)) e' := hfound.entry idx rfl
  have hstop : stops sw false k (.sram idx) := List.find?_some hfound.found.symm
  have hrow := hsw (.sram idx)
  obtain ⟨h4, h6, hm, hvid, hrvid⟩ := fillL2Entry_of_isL2 hrow.toIsL2 e'
  have hvalid := fillL2Entry_valid (sw.rows (.sram idx)) e'
  dsimp only
  split
  next hv =>
    -- the row is valid and of the address; it may be a next hop already
    rw [hvalid] at hv
    rw [stops_of_valid hv, beq_iff_eq] at hstop
    have huni : (sw.rows (.sram idx)).mac.isMulticast = false := by
      rw [mac_isMulticast_of_wordKey hrow.r2_lt hstop, haddr, ha]
    have hnext (e) : (fillL2Entry (sw.rows (.sram idx)) e).nextHop =
        (sw.rows (.sram idx)).r1.testBit 28 := by
      rw [fillL2Entry_unicast hrow.toIsL2 huni, fillUnicastEntry_nextHop]
    split
    next h28 =>
      rw [hnext] at h28
      exact ⟨_, _, rfl, isNexthop_of_testBit hrow.toIsL2 huni h28, fun _ _ => rfl, hsw, hvid, hrvid⟩
    next h28 =>
      have hrow28 : ¬ (sw.rows (.sram idx)).IsNexthop := fun h =>
        h28 (by rw [hnext, ← hnext {}, h.2])
      refine ⟨_, _, rfl, ?_⟩
      apply NexthopAdded.write
      exacts [rfl, hsw, ⟨hvid, hrvid⟩, hrow28, h4, h6,
        hvid, by rw [hm, huni], by rw [hvalid, hv], rfl]
  next hv =>
    have hrowv : ¬ (sw.rows (.sram idx)).IsNexthop := fun h => hv (by rw [hvalid, h.1])
    refine ⟨_, _, rfl, ?_⟩
    apply NexthopAdded.write
    exacts [rfl, hsw, ⟨hnh.vid, hnh.rvid⟩, hrowv, rfl, rfl, hvid,
      by rw [hmac, ofU64_toU64, ha], rfl, rfl]

lemma l2NexthopRm_spec (hsw : sw.Sane) (hnh : nh.InRange) : (l2NexthopRm sw nh).2.Sane ∧
      ∀ s, s ≠ .sram nh.l2Id → (l2NexthopRm sw nh).2.rows s = sw.rows s := by
  obtain ⟨h4, h6, -, -, -⟩ := fillL2Entry_of_isL2 (hsw (.sram nh.l2Id)).toIsL2 {}
  unfold l2NexthopRm
  simp only [readL2EntryUsingHash, Switch.read, index_split, writeL2EntryUsingHash_split]
  split
  next => exact ⟨hsw, fun _ _ => rfl⟩
  next =>
    refine ⟨hsw.write _ (fillL2Row_sane ?_ ?_ hnh.vid), fun s hs => ?_⟩
    · dsimp only
      split <;> exact h4
    · dsimp only
      split <;> exact h6
    · simp [Switch.write, Function.update_of_ne hs]

end SourceMaster.Realtek
