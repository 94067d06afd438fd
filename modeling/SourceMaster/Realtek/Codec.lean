import SourceMaster.Realtek.Nexthop

/-!
# RTL838x entries read back from their rows

`rtl838x_fill_l2_row` and `rtl838x_fill_l2_entry` are meant to be inverse to each other. There are
two places where they are not. The route id of a next hop shares its bits with the VLAN id, and both
are or-ed into the row; and the mask with which a row in use is told from a free one leaves out the
lower of the two bits of the age. `fillL2Entry_fillL2Row_iff` says which entries survive.
-/

namespace SourceMaster.Realtek

open Fields Nat L2Entry

/-! ## Flags in a register -/

section Flag

variable {n j mask : Nat}

variable (b : Bool)

lemma flag_eq (n : Nat) : flag b n = b.toNat <<< n := by
  cases b with
  | false => rw [Bool.toNat_false, zero_shiftLeft]; rfl
  | true => rfl

lemma testBit_flag (n j : Nat) : (flag b n).testBit j = (b && n == j) := by
  cases b with
  | false => exact zero_testBit j
  | true => rw [flag, if_pos rfl, one_shiftLeft, testBit_two_pow, Bool.true_and]; rfl

lemma field_flag_of_lt (h : n < j) : field j mask (flag b n) = 0 := field_of_lt (flag_lt b h)

lemma field_flag_of_le (hj : j ≤ n) (h : mask < 2 ^ (n - j)) : field j mask (flag b n) = 0 := by
  rw [flag_eq, field_shiftLeft_of_lt hj h]

end Flag

/-! ## The row of a unicast entry -/

def L2Entry.nexthopBits (e : L2Entry) : Nat :=
  if e.nextHop then flag e.nhVlanTarget 9 ||| (e.nhRouteId &&& 0x1ff) else 0

structure L2Entry.IsL2 (e : L2Entry) : Prop where
  valid : e.valid
  ip4 : e.isIpMc = false
  ip6 : e.isIpv6Mc = false

structure L2Entry.Fits (e : L2Entry) : Prop where
  port : e.port < 29
  vid : e.vid < 4096
  rvid : e.rvid < 4096
  age : e.age < 4
  nhRouteId : e.nhRouteId < 512
  mcPortmaskIndex : e.mcPortmaskIndex < 512

variable {e : L2Entry} {r : Row}

lemma fillL2Row_unicast (h : e.IsL2) (hmac : e.mac.isMulticast = false) : fillL2Row e =
    { r0 := flag e.isStatic 19 ||| (e.port &&& 0x3f) <<< 12 ||| e.vid ||| e.nexthopBits |||
        (e.age &&& 0x3) <<< 17
      r1 := u32 (e.mac.toU64 >>> 20) ||| flag e.blockDa 30 ||| flag e.blockSa 31 |||
        flag e.suspended 29 ||| flag e.nextHop 28
      r2 := u32 ((e.mac.toU64 &&& 0xfffff) <<< 12) ||| (e.rvid &&& 0xfff) } := by
  have hflag (n : Nat) : flag false n = 0 := rfl
  simp only [fillL2Row, h.valid, h.ip4, h.ip6, hmac, hflag, Bool.not_true, Bool.not_false,
    Bool.and_self, if_true, Bool.false_eq_true, if_false, Nat.zero_or, nexthopBits]
  cases e.nextHop with
  | false => simp only [Bool.false_eq_true, if_false, Nat.or_zero, hflag]
  | true => simp only [if_true, Nat.or_assoc]; rfl

lemma fillL2Row_multicast (h : e.IsL2) (hmac : e.mac.isMulticast) : fillL2Row e =
    { r0 := (e.mcPortmaskIndex &&& 0x1ff) <<< 12 ||| (e.vid &&& 0xfff)
      r1 := u32 (e.mac.toU64 >>> 20)
      r2 := u32 ((e.mac.toU64 &&& 0xfffff) <<< 12) ||| (e.rvid &&& 0xfff) } := by
  have hflag (n : Nat) : flag false n = 0 := rfl
  simp only [fillL2Row, h.valid, h.ip4, h.ip6, hmac, hflag, Bool.not_true, Bool.not_false,
    Bool.and_self, if_true, Bool.false_eq_true, if_false, Nat.zero_or]

lemma nexthopBits_lt (e : L2Entry) : e.nexthopBits < 2 ^ 10 := by
  unfold nexthopBits
  split
  next => exact or_lt_two_pow (flag_lt _ (by decide)) (and_lt_two_pow _ (by decide))
  next => decide

/-! ## Where the fields of the row are read -/

lemma Row.mac_congr {r' : Row} (h1 : r.r1 % 2 ^ 28 = r'.r1 % 2 ^ 28) (h2 : r.r2 = r'.r2) :
    r.mac = r'.mac := by
  have hlow : r.r1 &&& 0xf = r'.r1 &&& 0xf := by
    rw [Nat.and_two_pow_sub_one_eq_mod _ 4, Nat.and_two_pow_sub_one_eq_mod _ 4]
    omega
  have hbyte {x y : Nat} (h : x % 2 ^ 8 = y % 2 ^ 8) : UInt8.ofNat x = UInt8.ofNat y := by
    rw [← UInt8.toNat_inj, UInt8.toNat_ofNat', UInt8.toNat_ofNat', h]
  simp only [Row.mac, EtherAddr.mk.injEq, hlow, h2, Nat.shiftRight_eq_div_pow]
  refine ⟨hbyte ?_, hbyte ?_, hbyte ?_, trivial, trivial, trivial⟩ <;> omega

lemma or_flag_mod (x : Nat) (b : Bool) {n m : Nat} (h : m ≤ n) :
    (x ||| flag b n) % 2 ^ m = x % 2 ^ m := by
  have hflag : flag b n % 2 ^ m = 0 := by
    rw [flag_eq, Nat.shiftLeft_eq]
    exact mod_eq_zero_of_dvd ((pow_dvd_pow 2 h).mul_left _)
  rw [or_mod_two_pow, hflag, Nat.or_zero]

def L2Entry.key (e : L2Entry) (h : e.rvid < 4096) : Key := ⟨e.mac, ⟨e.rvid, h⟩⟩

lemma fillL2Row_mac (h : e.IsL2) (hrvid : e.rvid < 4096) : (fillL2Row e).mac = e.mac := by
  have hfor : Row.For ⟨0, u32 (e.mac.toU64 >>> 20),
      u32 ((e.mac.toU64 &&& 0xfffff) <<< 12) ||| (e.rvid &&& 0xfff)⟩ (e.key hrvid) :=
    .of_setup rfl rfl rfl rfl
  rw [show e.mac = (e.key hrvid).addr from rfl, ← hfor.mac]
  cases hmac : e.mac.isMulticast with
  | false =>
    rw [fillL2Row_unicast h hmac]
    refine Row.mac_congr ?_ rfl
    simp (disch := decide) only [or_flag_mod]
  | true => rw [fillL2Row_multicast h hmac]; exact Row.mac_congr rfl rfl

lemma fillL2Row_rvid (h : e.IsL2) (hrvid : e.rvid < 4096) :
    (fillL2Row e).r2 &&& 0xfff = e.rvid := by
  have hr2 : (fillL2Row e).r2 = u32 ((e.mac.toU64 &&& 0xfffff) <<< 12) ||| (e.rvid &&& 0xfff) := by
    cases hmac : e.mac.isMulticast with
    | false => rw [fillL2Row_unicast h hmac]
    | true => rw [fillL2Row_multicast h hmac]
  have hmask (x : Nat) : x &&& 0xfff = x % 2 ^ 12 := Nat.and_two_pow_sub_one_eq_mod x 12
  rw [hr2, and_or_distrib_right, hmask, hmask, hmask, u32, Nat.shiftLeft_eq]
  rw [show (e.mac.toU64 &&& 0xfffff) * 2 ^ 12 % 2 ^ 32 % 2 ^ 12 = 0 by omega, Nat.zero_or]
  omega

lemma and_mask_of_lt {x n : Nat} (h : x < 2 ^ n) : x &&& 2 ^ n - 1 = x := by
  rw [Nat.and_two_pow_sub_one_eq_mod, mod_eq_of_lt h]

/-- The fields of the row of a unicast entry, each as `rtl838x_fill_l2_entry` reads it. -/
structure UnicastFields (e : L2Entry) (r : Row) : Prop where
  isStatic : r.r0.testBit 19 = e.isStatic
  port : r.r0 >>> 12 &&& 0x1f = e.port
  age : r.r0 >>> 17 &&& 0x3 = e.age
  blockDa : r.r1.testBit 30 = e.blockDa
  blockSa : r.r1.testBit 31 = e.blockSa
  suspended : r.r1.testBit 29 = e.suspended
  nextHop : r.r1.testBit 28 = e.nextHop
  route : e.nextHop → r.r0 &&& 0x1ff = (e.vid ||| e.nhRouteId) &&& 0x1ff
  target : e.nextHop → r.r0.testBit 9 = (e.vid.testBit 9 || e.nhVlanTarget)
  free : (r.r0 &&& 0x007c0000 = 0 ∧ r.r1 &&& 0xd0000000 = 0) ↔
    ¬ (e.isStatic ∨ 2 ≤ e.age ∨ e.blockDa ∨ e.blockSa ∨ e.nextHop)

lemma unicastFields (h : e.IsL2) (hfits : e.Fits) (hmac : e.mac.isMulticast = false) :
    UnicastFields e (fillL2Row e) := by
  have hlt := e.mac.toU64_lt
  have hvid : e.vid < 2 ^ 12 := hfits.vid
  have hnext : e.nexthopBits < 2 ^ 12 := (nexthopBits_lt e).trans (by decide)
  have hmac28 : u32 (e.mac.toU64 >>> 20) < 2 ^ 28 := by
    rw [u32, Nat.shiftRight_eq_div_pow]
    omega
  have hport : e.port &&& 0x3f = e.port := and_mask_of_lt (n := 6) (hfits.port.trans (by decide))
  have hage : e.age &&& 0x3 = e.age := and_mask_of_lt (n := 2) hfits.age
  have hbit (n : Nat) (hn : 28 ≤ n) : (u32 (e.mac.toU64 >>> 20)).testBit n = false :=
    Nat.testBit_lt_two_pow (hmac28.trans_le (Nat.pow_le_pow_right (by decide) hn))
  have hlow (x : Nat) (hx : x < 2 ^ 12) (n mask : Nat) (hn : 12 ≤ n) : field n mask x = 0 :=
    field_of_lt (hx.trans_le (Nat.pow_le_pow_right (by decide) hn))
  rw [fillL2Row_unicast h hmac]
  constructor <;> dsimp only
  case port =>
    change field 12 0x1f _ = _
    simp (disch := decide) only [field_or, field_flag_of_le, field_shiftLeft_self, hlow _ hvid,
      hlow _ hnext, field_shiftLeft_of_lt, hport, Nat.zero_or, Nat.or_zero]
    exact and_mask_of_lt (n := 5) (hfits.port.trans (by decide))
  case age =>
    change field 17 0x3 _ = _
    have hport17 : e.port <<< 12 < 2 ^ 17 := by
      have := hfits.port
      omega
    simp (disch := decide) only [field_or, field_flag_of_le, hport, field_of_lt hport17,
      hlow _ hvid, hlow _ hnext, field_shiftLeft_self, hage, Nat.zero_or]
  case route =>
    intro hnh
    rw [← field_zero 0x1ff, ← field_zero 0x1ff, nexthopBits, if_pos hnh]
    simp (disch := decide) only [field_or, field_flag_of_le, field_shiftLeft_of_lt, Nat.zero_or,
      Nat.or_zero, field_zero, Nat.and_assoc, Nat.and_self]
  case target =>
    intro hnh
    rw [nexthopBits, if_pos hnh]
    simp (disch := decide) only [Nat.testBit_or, testBit_flag, testBit_shiftLeft_of_lt,
      testBit_and_of_lt]
    simp
  case free =>
    have hr0 : field 18 0x1f (e.age <<< 17) = 0 ↔ ¬ 2 ≤ e.age := by
      have hage4 := hfits.age
      rw [field, Nat.shiftLeft_eq, Nat.shiftRight_eq_div_pow, Nat.and_two_pow_sub_one_eq_mod _ 5]
      omega
    have hstatic : field 18 0x1f (flag e.isStatic 19) = 0 ↔ ¬ e.isStatic := by
      cases e.isStatic <;> decide
    have hda : field 28 0xd (flag e.blockDa 30) = 0 ↔ ¬ e.blockDa := by
      cases e.blockDa <;> decide
    have hsa : field 28 0xd (flag e.blockSa 31) = 0 ↔ ¬ e.blockSa := by
      cases e.blockSa <;> decide
    have hsuspended : field 28 0xd (flag e.suspended 29) = 0 := by
      cases e.suspended <;> decide
    have hnh : field 28 0xd (flag e.nextHop 28) = 0 ↔ ¬ e.nextHop := by
      cases e.nextHop <;> decide
    rw [show 0x007c0000 = 0x1f <<< 18 by decide, show 0xd0000000 = 0xd <<< 28 by decide,
      and_shiftLeft_eq_zero, and_shiftLeft_eq_zero]
    simp (disch := decide) only [field_or, or_eq_zero_iff, hage, hr0, hstatic, hda, hsa, hsuspended,
      hnh,
      field_masked_of_lt, hlow _ hvid, hlow _ hnext, field_of_lt hmac28, not_or, and_true, true_and,
        and_assoc]
  case isStatic =>
    simp (disch := decide) only [Nat.testBit_or, testBit_flag, testBit_masked_of_lt,
      Nat.testBit_lt_two_pow (hvid.trans (show 2 ^ 12 < 2 ^ 19 by decide)),
      Nat.testBit_lt_two_pow (hnext.trans (show 2 ^ 12 < 2 ^ 19 by decide))]
    simp
  all_goals simp (disch := decide) [testBit_flag, hbit]

/-! ## Entries read back -/

/-- What has become of `e` in `e'`, read into a variable that held `e₀`. The row of a multicast
entry has no port, flags or age. -/
structure L2Entry.ReadBack (e e₀ e' : L2Entry) : Prop where
  valid : e'.valid
  mac : e'.mac = e.mac
  rvid : e'.rvid = e.rvid
  unicast : e.mac.isMulticast = false →
    e'.type = .unicast ∧ e'.port = e.port ∧ e'.age = e.age ∧ e'.isStatic = e.isStatic ∧
      e'.blockDa = e.blockDa ∧ e'.blockSa = e.blockSa ∧ e'.suspended = e.suspended ∧
      e'.nextHop = e.nextHop
  nextHop : e.mac.isMulticast = false → e.nextHop →
    e'.nhRouteId = e.nhRouteId ∧ e'.nhVlanTarget = e.nhVlanTarget
  multicast : e.mac.isMulticast →
    e' = { e₀ with
      isIpMc := false, isIpv6Mc := false, valid := true, type := .multicast, mac := e.mac,
      rvid := e.rvid, vid := e.vid, mcPortmaskIndex := e.mcPortmaskIndex }

def L2Entry.Marked (e : L2Entry) : Prop :=
  e.isStatic ∨ e.age ≠ 0 ∨ e.blockDa ∨ e.blockSa ∨ e.mac.isMulticast ∨
    e.nextHop

/-- The VLAN id of a next hop has no bits where its route has none. -/
def L2Entry.VidInRoute (e : L2Entry) : Prop :=
  (e.vid ||| e.nhRouteId) &&& 0x1ff = e.nhRouteId ∧ (e.vid.testBit 9 → e.nhVlanTarget)

lemma fillL2Entry_fillL2Row_multicast (h : e.IsL2) (hfits : e.Fits)
    (hmac : e.mac.isMulticast) (e₀ : L2Entry) : fillL2Entry (fillL2Row e) e₀ = { e₀ with
      isIpMc := false, isIpv6Mc := false, valid := true, type := .multicast, mac := e.mac,
      rvid := e.rvid, vid := e.vid, mcPortmaskIndex := e.mcPortmaskIndex } := by
  have hrow := fillL2Row_mac h hfits.rvid
  have hindex : e.mcPortmaskIndex &&& 0x1ff = e.mcPortmaskIndex :=
    and_mask_of_lt (n := 9) hfits.mcPortmaskIndex
  have hvid : e.vid &&& 0xfff = e.vid := and_mask_of_lt (n := 12) hfits.vid
  have hr0 : (fillL2Row e).r0 = e.mcPortmaskIndex <<< 12 ||| e.vid := by
    rw [fillL2Row_multicast h hmac, hindex, hvid]
  have hread : (fillL2Row e).r0 >>> 12 &&& 0x1ff = e.mcPortmaskIndex := by
    change field 12 0x1ff _ = _
    rw [hr0, field_or, field_shiftLeft_self, field_of_lt hfits.vid, Nat.or_zero, hindex]
  have hreadVid : (fillL2Row e).r0 &&& 0xfff = e.vid := by
    rw [← field_zero, hr0, field_or, field_shiftLeft_of_lt (by decide) (by decide), Nat.zero_or,
      field_zero, hvid]
  rw [fillL2Entry_multicast (fillL2Row_sane h.ip4 h.ip6 hfits.vid).toIsL2 (by rw [hrow, hmac]),
    hrow, fillL2Row_rvid h hfits.rvid, hread, hreadVid]

lemma fillL2Entry_fillL2Row_unicast (h : e.IsL2) (hfits : e.Fits)
    (hmac : e.mac.isMulticast = false) (e₀ : L2Entry) : fillL2Entry (fillL2Row e) e₀ =
    fillUnicastEntry (fillL2Row e)
      { e₀ with isIpMc := false, isIpv6Mc := false, type := .invalid, mac := e.mac,
                rvid := e.rvid, vid := (fillL2Row e).r0 &&& 0xfff } := by
  have hrow := fillL2Row_mac h hfits.rvid
  rw [fillL2Entry_unicast (fillL2Row_sane h.ip4 h.ip6 hfits.vid).toIsL2 (by rw [hrow, hmac]), hrow,
    fillL2Row_rvid h hfits.rvid]

def L2Entry.Recognised (e : L2Entry) : Prop :=
  e.isStatic ∨ 2 ≤ e.age ∨ e.blockDa ∨ e.blockSa ∨ e.nextHop

lemma fillUnicastEntry_valid_iff (hf : UnicastFields e r) (e₁ : L2Entry) :
    (fillUnicastEntry r e₁).valid ↔ e.Recognised := by
  rw [fillUnicastEntry_valid, Bool.not_eq_true', decide_eq_false_iff_not, hf.free, not_not]
  rfl

lemma fillUnicastEntry_of_recognised (hf : UnicastFields e r) (hused : e.Recognised)
    (e₁ : L2Entry) : fillUnicastEntry r e₁ = { e₁ with
        isStatic := e.isStatic, port := e.port, blockDa := e.blockDa, blockSa := e.blockSa,
        suspended := e.suspended, nextHop := e.nextHop, age := e.age, valid := true,
          type := .unicast
        vid := if e.nextHop then e₁.rvid else e₁.vid
        nhVlanTarget := if e.nextHop then r.r0.testBit 9 else e₁.nhVlanTarget
        nhRouteId := if e.nextHop then r.r0 &&& 0x1ff else e₁.nhRouteId } := by
  have hfree : ¬ (r.r0 &&& 0x007c0000 = 0 ∧ r.r1 &&& 0xd0000000 = 0) := fun h => hf.free.1 h hused
  unfold fillUnicastEntry
  simp only [if_neg hfree, hf.isStatic, hf.port, hf.blockDa, hf.blockSa, hf.suspended, hf.nextHop,
    hf.age]
  cases e.nextHop with
  | false => simp only [Bool.false_eq_true, if_false]
  | true => simp only [if_true]

def L2Entry.MarkedOtherwise (e : L2Entry) : Prop :=
  e.isStatic ∨ e.blockDa ∨ e.blockSa ∨ e.nextHop

lemma recognised_iff (hmarked : e.Marked) (hmac : e.mac.isMulticast = false) :
    e.Recognised ↔ (e.age = 1 → e.MarkedOtherwise) := by
  have hne : ¬ e.mac.isMulticast := by rw [hmac]; exact Bool.noConfusion
  have hage : 2 ≤ e.age ↔ e.age ≠ 0 ∧ e.age ≠ 1 := by omega
  unfold L2Entry.Recognised L2Entry.MarkedOtherwise
  unfold L2Entry.Marked at hmarked
  tauto

/-- An entry that fits is read back unless it is ageing with age 1 and nothing else, or a next hop
whose route shares bits with the VLAN id. -/
theorem fillL2Entry_fillL2Row_iff (e : L2Entry) (h : e.IsL2) (hfits : e.Fits) (hmarked : e.Marked) :
    (∀ e₀, e.ReadBack e₀ (fillL2Entry (fillL2Row e) e₀)) ↔ (e.mac.isMulticast = false →
        (e.age = 1 → e.MarkedOtherwise) ∧ (e.nextHop → e.VidInRoute)) := by
  cases hmac : e.mac.isMulticast with
  | true =>
    have hread := fillL2Entry_fillL2Row_multicast h hfits hmac
    have hne : e.mac.isMulticast ≠ false := by rw [hmac]; exact Bool.noConfusion
    refine ⟨fun _ hfalse => Bool.noConfusion hfalse, fun _ e₀ => ?_⟩
    exact ⟨by rw [hread], by rw [hread], by rw [hread], fun hfalse => absurd hfalse hne,
      fun hfalse => absurd hfalse hne, fun _ => hread e₀⟩
  | false =>
    have hf := unicastFields h hfits hmac
    have hread := fillL2Entry_fillL2Row_unicast h hfits hmac
    rw [← recognised_iff hmarked hmac]
    constructor
    · intro hback _
      have hused : e.Recognised := by
        rw [← fillUnicastEntry_valid_iff hf, ← hread {}]
        exact (hback {}).valid
      refine ⟨hused, fun hnext => ?_⟩
      obtain ⟨hroute, htarget⟩ := (hback {}).nextHop hmac hnext
      rw [hread, fillUnicastEntry_of_recognised hf hused] at hroute htarget
      dsimp only at hroute htarget
      rw [if_pos hnext] at hroute htarget
      rw [hf.route hnext] at hroute
      rw [hf.target hnext] at htarget
      exact ⟨hroute, fun h9 => by rw [← htarget, h9, Bool.true_or]⟩
    · intro hcond e₀
      obtain ⟨hused, hshare⟩ := hcond rfl
      rw [hread, fillUnicastEntry_of_recognised hf hused]
      refine ⟨rfl, rfl, rfl, fun _ => ⟨rfl, rfl, rfl, rfl, rfl, rfl, rfl, rfl⟩, fun _ hnext => ?_,
        fun htrue => Bool.noConfusion (hmac.symm.trans htrue)⟩
      obtain ⟨hroute, htarget⟩ := hshare hnext
      dsimp only
      rw [if_pos hnext, if_pos hnext, hf.route hnext, hf.target hnext, hroute]
      refine ⟨rfl, ?_⟩
      cases h9 : e.vid.testBit 9 with
      | false => rw [Bool.false_or]
      | true => rw [htarget h9, Bool.or_true]

def learnedNexthop : L2Entry :=
  { mac := ⟨0x02, 0, 0, 0, 0, 1⟩, vid := 1, rvid := 1, port := 5, valid := true, type := .unicast
    age := 3, nextHop := true, nhRouteId := 2 }

def oldEntry : L2Entry :=
  { mac := ⟨0x02, 0, 0, 0, 0, 1⟩, vid := 1, rvid := 1, port := 5, valid := true, type := .unicast
    age := 1 }

lemma learnedNexthop_isL2 : learnedNexthop.IsL2 := ⟨rfl, rfl, rfl⟩

lemma learnedNexthop_fits : learnedNexthop.Fits := by
  constructor <;> decide

/-- The next hop comes back with route 3, and the old entry as a free row. -/
theorem rows_not_read_back : (learnedNexthop.IsL2 ∧ learnedNexthop.Fits ∧ learnedNexthop.Marked ∧
      (fillL2Entry (fillL2Row learnedNexthop) {}).nhRouteId = 3) ∧
    (oldEntry.IsL2 ∧ oldEntry.Fits ∧ oldEntry.Marked ∧
      (fillL2Entry (fillL2Row oldEntry) {}).valid = false) := by
  refine ⟨⟨learnedNexthop_isL2, learnedNexthop_fits, .inr (.inl (by decide)), by decide⟩,
    ⟨rfl, rfl, rfl⟩, ?_, .inr (.inl (by decide)), by decide⟩
  constructor <;> decide

theorem fillL2Entry_fillL2Row_route_three :
    L2Entry.ReadBack { learnedNexthop with nhRouteId := 3 } learnedNexthop
      (fillL2Entry (fillL2Row { learnedNexthop with nhRouteId := 3 }) learnedNexthop) := by
  refine (fillL2Entry_fillL2Row_iff { learnedNexthop with nhRouteId := 3 } ⟨rfl, rfl, rfl⟩ ?_
    (.inr (.inl (by decide)))).2 (fun _ => ⟨nofun, fun _ => ?_⟩) learnedNexthop
  · exact { learnedNexthop_fits with nhRouteId := by decide }
  · exact ⟨by decide, by decide⟩

end SourceMaster.Realtek
