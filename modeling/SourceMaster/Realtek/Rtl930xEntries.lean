import SourceMaster.Realtek.Rtl930x

/-!
# RTL930x entries found again

What `rtl930x_fill_l2_row` writes for a unicast entry is read back by `rtl930x_fill_l2_entry`,
except for the flag `block_sa`, which is written to a bit of the age. From the hash table the entry
is read with the id `rtl930x_l2_hash_seed` of its address and VLAN. From the CAM it is read with an
id of another layout, which agrees with the seed for addresses made of four copies of the VLAN id
only.
-/

namespace SourceMaster.Realtek.Rtl930x

open Fields Nat

/-! ## The row of a unicast entry -/

lemma bytes_or (a b c d : UInt8) :
    a.toNat <<< 24 ||| b.toNat <<< 16 ||| c.toNat <<< 8 ||| d.toNat =
      a.toNat * 2 ^ 24 + (b.toNat * 2 ^ 16 + (c.toNat * 2 ^ 8 + d.toNat)) := by
  have hb := b.toNat_lt
  have hc := c.toNat_lt
  have hd := d.toNat_lt
  rw [Nat.or_assoc, Nat.or_assoc, @EtherAddr.shiftLeft_or c.toNat d.toNat 8 hd,
    @EtherAddr.shiftLeft_or b.toNat _ 16 (by omega),
      @EtherAddr.shiftLeft_or a.toNat _ 24 (by omega)]

lemma mac_or (m : EtherAddr) :
    m.b0.toNat <<< 40 ||| m.b1.toNat <<< 32 ||| m.b2.toNat <<< 24 ||| m.b3.toNat <<< 16 |||
      m.b4.toNat <<< 8 ||| m.b5.toNat = m.toU64 := by
  simp only [EtherAddr.toU64, List.foldl_cons, List.foldl_nil, shiftLeft_or_distrib,
    ← shiftLeft_add, zero_shiftLeft, Nat.zero_or, reduceAdd]

def stackPort (e : TrunkEntry) : Nat :=
  if e.isTrunk then e.stackDev <<< 9 ||| (e.port &&& 0x3f)
  else (e.stackDev &&& 0xf) <<< 6 ||| (e.port &&& 0x3f)

def portField (e : TrunkEntry) : Nat :=
  (e.port &&& 0x3ff) ||| flag e.isTrunk 10 ||| stackPort e % 2 ^ 12

def ucVid (e : TrunkEntry) : Nat := if e.nextHop then e.nhRouteId &&& 0x7ff else e.vid &&& 0xfff

structure IsUnicast (e : TrunkEntry) : Prop where
  valid : e.valid
  type : e.type = .unicast

variable {e : TrunkEntry}

variable (x : Nat) {r : Row} {n vid m : Nat} {sw : Rtl930x} {mac : Nat}

lemma u32_shiftLeft : u32 (x <<< 20) = (x % 2 ^ 12) <<< 20 := by
  rw [u32, shiftLeft_eq, shiftLeft_eq]
  omega

lemma fillL2Row_unicast (h : IsUnicast e) : fillL2Row e =
    { r0 := e.mac.b0.toNat * 2 ^ 24 +
    (e.mac.b1.toNat * 2 ^ 16 + (e.mac.b2.toNat * 2 ^ 8 + e.mac.b3.toNat))
      r1 := e.mac.b4.toNat <<< 24 ||| e.mac.b5.toNat <<< 16 ||| (e.rvid &&& 0xfff)
      r2 := flag true 31 ||| flag e.nextHop 12 ||| flag e.isStatic 14 ||| portField e <<< 20 |||
        flag e.blockDa 15 ||| flag e.blockSa 17 ||| flag e.suspended 13 |||
          (e.age &&& 0x3) <<< 17 ||| ucVid e } := by
  have hport : portField e <<< 20 = (e.port &&& 0x3ff) <<< 20 ||| flag e.isTrunk 30 |||
      u32 (stackPort e <<< 20) := by
    rw [portField, shiftLeft_or_distrib, shiftLeft_or_distrib, u32_shiftLeft, flag_eq, flag_eq,
      ← shiftLeft_add]
  rw [hport, ← bytes_or]
  unfold fillL2Row stackPort ucVid
  simp only [h.valid, h.type, Bool.not_true, Bool.false_eq_true, if_false, if_true, Nat.or_assoc]
  cases e.isTrunk <;> cases e.nextHop <;> simp [flag, Nat.or_assoc]

/-! ## Where the fields of the row are read -/

lemma mod_or_mod (h : m ≤ n) : x % 2 ^ n ||| x % 2 ^ m = x % 2 ^ n := by
  apply eq_of_testBit_eq
  intro i
  rw [Nat.testBit_or, testBit_mod_two_pow, testBit_mod_two_pow]
  rcases lt_or_ge i m with hi | hi
  · rw [decide_eq_true hi, decide_eq_true (hi.trans_le h), Bool.or_self]
  · rw [decide_eq_false (not_lt.2 hi), Bool.false_and, Bool.or_false]

lemma shiftLeft_mod (h : m ≤ n) : x <<< n % 2 ^ m = 0 := by
  rw [shiftLeft_eq]
  exact mod_eq_zero_of_dvd ((pow_dvd_pow 2 h).mul_left _)

lemma portField_of_trunk (h : e.isTrunk) : portField e % 2 ^ 8 = e.port % 2 ^ 8 := by
  have hstack : stackPort e % 2 ^ 12 % 2 ^ 8 = e.port % 2 ^ 6 := by
    rw [mod_mod_of_dvd _ (by decide), stackPort, if_pos h, or_mod_two_pow,
      shiftLeft_mod _ (by decide), Nat.zero_or, Nat.and_two_pow_sub_one_eq_mod _ 6]
    omega
  rw [portField, or_mod_two_pow, or_flag_mod _ _ (by decide),
    Nat.and_two_pow_sub_one_eq_mod _ 10, mod_mod_of_dvd _ (by decide), hstack,
    mod_or_mod _ (by decide)]

lemma portField_of_not_trunk (h : e.isTrunk = false) : portField e % 2 ^ 6 = e.port % 2 ^ 6 := by
  have hstack : stackPort e % 2 ^ 12 % 2 ^ 6 = e.port % 2 ^ 6 := by
    rw [mod_mod_of_dvd _ (by decide), stackPort, if_neg (by rw [h]; decide), or_mod_two_pow,
      shiftLeft_mod _ (by decide), Nat.zero_or, Nat.and_two_pow_sub_one_eq_mod _ 6, mod_mod]
  rw [portField, or_mod_two_pow, or_flag_mod _ _ (by decide),
    Nat.and_two_pow_sub_one_eq_mod _ 10, mod_mod_of_dvd _ (by decide), hstack, Nat.or_self]

lemma portField_testBit (e : TrunkEntry) : (portField e).testBit 10 = e.isTrunk := by
  rw [portField, Nat.testBit_or, Nat.testBit_or, testBit_and_of_lt (by decide), testBit_flag]
  cases h : e.isTrunk with
  | true => rfl
  | false =>
    have hlt : stackPort e < 2 ^ 10 := by
      rw [stackPort, if_neg (by rw [h]; decide)]
      exact or_lt_two_pow (masked_lt _ (by decide)) (Nat.and_lt_two_pow _ (by decide))
    rw [testBit_mod_two_pow, Nat.testBit_lt_two_pow hlt]
    rfl

lemma ucVid_lt (e : TrunkEntry) : ucVid e < 2 ^ 12 := by
  unfold ucVid
  split <;> exact Nat.and_lt_two_pow _ (by decide)

structure RowFields (e : TrunkEntry) (r : Row) : Prop where
  mac : rowMac r = e.mac
  rvid : r.r1 &&& 0xfff = e.rvid &&& 0xfff
  valid : r.r2.testBit 31
  nextHop : r.r2.testBit 12 = e.nextHop
  isTrunk : r.r2.testBit 30 = e.isTrunk
  port : r.r2 >>> 20 &&& 0x3ff = portField e &&& 0x3ff
  blockDa : r.r2.testBit 15 = e.blockDa
  blockSa : r.r2.testBit 16 = false
  age : r.r2 >>> 17 &&& 3 = e.blockSa.toNat ||| (e.age &&& 3)
  vid : r.r2 &&& 0xfff = ucVid e
  /-- the address as `rtl930x_read_cam` returns it -/
  cam : r.r0 <<< 28 ||| (r.r1 &&& 0xffff0000) >>> 4 = e.mac.toU64 <<< 12

lemma fillL2Row_r1 (h : IsUnicast e) : (fillL2Row e).r1 =
    (e.mac.b4.toNat * 2 ^ 8 + e.mac.b5.toNat) * 2 ^ 16 + (e.rvid &&& 0xfff) := by
  have h₅ := e.mac.b5.toNat_lt
  have hrvid : e.rvid &&& 0xfff < 2 ^ 12 := Nat.and_lt_two_pow _ (by decide)
  rw [fillL2Row_unicast h, Nat.or_assoc,
    @EtherAddr.shiftLeft_or e.mac.b5.toNat _ 16 (hrvid.trans (by decide)),
    @EtherAddr.shiftLeft_or e.mac.b4.toNat _ 24 (by omega)]
  dsimp only
  omega

lemma rowMac_eq {m : EtherAddr} {low : Nat} (hlow : low < 2 ^ 16)
    (h0 : r.r0 = m.b0.toNat * 2 ^ 24 + (m.b1.toNat * 2 ^ 16 + (m.b2.toNat * 2 ^ 8 + m.b3.toNat)))
    (h1 : r.r1 = (m.b4.toNat * 2 ^ 8 + m.b5.toNat) * 2 ^ 16 + low) : rowMac r = m := by
  obtain ⟨b0, b1, b2, b3, b4, b5⟩ := m
  have h₀ := b0.toNat_lt
  have h₁ := b1.toNat_lt
  have h₂ := b2.toNat_lt
  have h₃ := b3.toNat_lt
  have h₄ := b4.toNat_lt
  have h₅ := b5.toNat_lt
  simp only [rowMac, h0, h1, EtherAddr.mk.injEq, shiftRight_eq_div_pow]
  refine ⟨?_, ?_, ?_, ?_, ?_, ?_⟩ <;> apply EtherAddr.ofNat_eq_of_mod <;> omega

lemma rowMac_fillL2Row (h : IsUnicast e) : rowMac (fillL2Row e) = e.mac := by
  have hrvid : e.rvid &&& 0xfff < 2 ^ 16 := Nat.and_lt_two_pow _ (by decide)
  refine rowMac_eq hrvid ?_ (fillL2Row_r1 h)
  rw [fillL2Row_unicast h]

lemma cam_fillL2Row (h : IsUnicast e) :
    (fillL2Row e).r0 <<< 28 ||| ((fillL2Row e).r1 &&& 0xffff0000) >>> 4 = e.mac.toU64 <<< 12 := by
  have h₄ := e.mac.b4.toNat_lt
  have h₅ := e.mac.b5.toNat_lt
  have hrvid : e.rvid &&& 0xfff < 2 ^ 12 := Nat.and_lt_two_pow _ (by decide)
  have hlow : ((fillL2Row e).r1 &&& 0xffff0000) >>> 4 =
    (e.mac.b4.toNat * 2 ^ 8 + e.mac.b5.toNat) * 2 ^ 12 := by
    rw [show 0xffff0000 = 0xffff <<< 16 by decide, and_shiftLeft, field,
      Nat.and_two_pow_sub_one_eq_mod _ 16, shiftLeft_eq, shiftRight_eq_div_pow,
      shiftRight_eq_div_pow, fillL2Row_r1 h]
    omega
  rw [hlow, EtherAddr.shiftLeft_or (by omega), shiftLeft_eq, EtherAddr.toU64_eq,
    fillL2Row_unicast h]
  dsimp only
  omega

lemma rowFields (h : IsUnicast e) : RowFields e (fillL2Row e) := by
  have hvid := ucVid_lt e
  have hvid' (n mask : Nat) (hn : 12 ≤ n) : field n mask (ucVid e) = 0 :=
    field_of_lt (hvid.trans_le (Nat.pow_le_pow_right (by decide) hn))
  have hvidBit (n : Nat) (hn : 12 ≤ n) : (ucVid e).testBit n = false :=
    Nat.testBit_lt_two_pow (hvid.trans_le (Nat.pow_le_pow_right (by decide) hn))
  have hr2 : (fillL2Row e).r2 = flag true 31 ||| flag e.nextHop 12 ||| flag e.isStatic 14 |||
      portField e <<< 20 ||| flag e.blockDa 15 ||| flag e.blockSa 17 ||| flag e.suspended 13 |||
      (e.age &&& 0x3) <<< 17 ||| ucVid e := by rw [fillL2Row_unicast h]
  refine ⟨rowMac_fillL2Row h, ?rvid, ?valid, ?nextHop, ?isTrunk, ?port, ?blockDa, ?blockSa, ?age,
    ?vid, cam_fillL2Row h⟩
  case rvid =>
    have hrvid : e.rvid &&& 0xfff < 2 ^ 12 := Nat.and_lt_two_pow _ (by decide)
    rw [fillL2Row_r1 h, Nat.and_two_pow_sub_one_eq_mod _ 12]
    omega
  all_goals rw [hr2]
  case port =>
    change field 20 0x3ff _ = _
    simp (disch := decide) only [field_or, field_flag_of_le, field_flag_of_lt, field_shiftLeft_self,
      field_masked_of_lt, hvid', Nat.zero_or, Nat.or_zero]
  case age =>
    change field 17 3 _ = _
    have hsa : field 17 3 (flag e.blockSa 17) = e.blockSa.toNat := by cases e.blockSa <;> decide
    simp (disch := decide) only [field_or, hsa, field_flag_of_le, field_flag_of_lt,
      field_shiftLeft_self,
      field_shiftLeft_of_lt, hvid', Nat.zero_or, Nat.or_zero, Nat.and_assoc, Nat.and_self]
  case vid =>
    rw [← field_zero]
    have hmask : field 0 0xfff (ucVid e) = ucVid e := and_mask_of_lt (n := 12) hvid
    simp (disch := decide) only [field_or, hmask, field_flag_of_le, field_shiftLeft_of_lt,
      Nat.zero_or]
  case isTrunk =>
    have hage : ((e.age &&& 0x3) <<< 17).testBit 30 = false := testBit_masked_of_lt (by decide)
    rw [Nat.testBit_or, Nat.testBit_or, hage, hvidBit 30 (by decide)]
    simp [testBit_flag, portField_testBit]
  all_goals simp (disch := decide) [testBit_flag, hvidBit]

/-! ## Entries read back -/

def readHead (e e₀ : TrunkEntry) : TrunkEntry :=
  { e₀ with valid := true, isIpMc := false, isIpv6Mc := false, mac := e.mac, nextHop := e.nextHop,
            rvid := e.rvid &&& 0xfff }

lemma fillL2Entry_eq (hf : RowFields e r) (e₀ : TrunkEntry) :
    fillL2Entry r e₀ = if e.mac.isMulticast then
      { readHead e e₀ with type := .multicast, mcPortmaskIndex := r.r2 >>> 16 &&& 0x3ff }
    else fillUnicastEntry r (readHead e e₀) := by
  unfold fillL2Entry
  simp only [hf.valid, hf.mac, hf.nextHop, hf.rvid, Bool.not_true, Bool.false_eq_true, if_false]
  cases e.mac.isMulticast <;> rfl

def readPort (e : TrunkEntry) : Nat := if e.isTrunk then e.port % 2 ^ 8 else e.port % 2 ^ 6

lemma readPort_eq (e : TrunkEntry) :
    (if e.isTrunk then u8 (portField e &&& 0x3ff) else u8 (portField e &&& 0x3ff) &&& 0x3f) =
    readPort e := by
  have hand : u8 (portField e &&& 0x3ff) = portField e % 2 ^ 8 := by
    rw [u8, Nat.and_two_pow_sub_one_eq_mod _ 10, mod_mod_of_dvd _ (by decide)]
  unfold readPort
  rw [hand]
  cases h : e.isTrunk with
  | true => rw [if_pos rfl, if_pos rfl, portField_of_trunk h]
  | false =>
    rw [if_neg Bool.false_ne_true, if_neg Bool.false_ne_true, Nat.and_two_pow_sub_one_eq_mod _ 6,
      mod_mod_of_dvd _ (by decide), portField_of_not_trunk h]

lemma fillUnicastEntry_fields (hf : RowFields e r) (e₀ : TrunkEntry) :
    let e' := fillUnicastEntry r (readHead e e₀)
    e'.valid ∧ e'.mac = e.mac ∧ e'.rvid = e.rvid &&& 0xfff ∧ e'.port = readPort e ∧
      e'.age = e.blockSa.toNat ||| (e.age &&& 3) ∧ e'.blockDa = e.blockDa ∧ e'.blockSa = false ∧
      e'.vid = if e.nextHop then 0 else e.vid &&& 0xfff := by
  have hvid : e.nextHop = false → ucVid e = e.vid &&& 0xfff := fun h => by
    rw [ucVid, if_neg (by rw [h]; decide)]
  rw [← readPort_eq]
  unfold fillUnicastEntry readHead
  simp only [hf.isTrunk, hf.port, hf.blockDa, hf.blockSa, hf.age, hf.vid]
  cases hnext : e.nextHop <;> cases e.isTrunk <;> simp [hvid, hnext]

/-- An entry that the row can hold: its fields fit, and it is not to be blocked as a source. -/
structure Survives (e : TrunkEntry) : Prop where
  unicast : e.mac.isMulticast = false
  rvid : e.rvid < 4096
  port : e.port < if e.isTrunk then 256 else 64
  age : e.age < 4
  blockSa : e.blockSa = false

/-- The entry `e'` read back has the address, VLAN, port, age and blocking of `e`. -/
structure SameEntry (e e' : TrunkEntry) : Prop where
  valid : e'.valid
  mac : e'.mac = e.mac
  rvid : e'.rvid = e.rvid
  port : e'.port = e.port
  age : e'.age = e.age
  blockDa : e'.blockDa = e.blockDa
  blockSa : e'.blockSa = e.blockSa

lemma Survives.sameEntry (hs : Survives e) (h : IsUnicast e) (e₀ : TrunkEntry) :
    SameEntry e (fillL2Entry (fillL2Row e) e₀) := by
  obtain ⟨hvalid, hmac, hrvid, hport, hage, hda, hsa, -⟩ := fillUnicastEntry_fields (rowFields h) e₀
  have hnm : ¬ e.mac.isMulticast := by rw [hs.unicast]; exact Bool.false_ne_true
  rw [fillL2Entry_eq (rowFields h), if_neg hnm]
  refine ⟨hvalid, hmac, ?_, ?_, ?_, hda, hsa.trans hs.blockSa.symm⟩
  · exact hrvid.trans (and_mask_of_lt (n := 12) hs.rvid)
  · have hp := hs.port
    rw [hport, readPort]
    split at hp
    next htrunk => rw [if_pos htrunk]; exact mod_eq_of_lt hp
    next htrunk => rw [if_neg htrunk]; exact mod_eq_of_lt hp
  · rw [hage, hs.blockSa, Bool.toNat_false, Nat.zero_or]
    exact and_mask_of_lt (n := 2) hs.age

lemma survives_of_sameEntry (h : IsUnicast e)
    (hsame : ∀ e₀, SameEntry e (fillL2Entry (fillL2Row e) e₀)) : Survives e := by
  have hmac : e.mac.isMulticast = false := by
    -- a group address is read as a multicast entry, and the port of the variable stays
    rw [Bool.eq_false_iff]
    intro hm
    have hport := (hsame { port := e.port + 1 }).port
    rw [fillL2Entry_eq (rowFields h), if_pos hm] at hport
    exact absurd hport (succ_ne_self e.port)
  have hnm : ¬ e.mac.isMulticast := by rw [hmac]; exact Bool.false_ne_true
  obtain ⟨-, -, hrvid, hport, hage, -, hsa, -⟩ := fillUnicastEntry_fields (rowFields h) {}
  have hback := hsame {}
  rw [fillL2Entry_eq (rowFields h), if_neg hnm] at hback
  have hblockSa : e.blockSa = false := hback.blockSa.symm.trans hsa
  refine ⟨hmac, ?_, ?_, ?_, hblockSa⟩
  · rw [← hback.rvid, hrvid]
    exact Nat.and_lt_two_pow (n := 12) _ (by decide)
  · rw [← hback.port, hport, readPort]
    split
    next => exact mod_lt _ (by decide)
    next => exact mod_lt _ (by decide)
  · rw [← hback.age, hage, hblockSa, Bool.toNat_false, Nat.zero_or]
    exact Nat.and_lt_two_pow (n := 2) _ (by decide)

/-! ## The ids that are read -/

def readVid (e : TrunkEntry) : Nat := if e.nextHop then 0 else e.vid &&& 0xfff

def camId (e : TrunkEntry) : Nat := e.mac.toU64 <<< 12 ||| readVid e

/-- The address is made of four copies of the VLAN id, which is in both VLAN fields. -/
structure Repeats (e : TrunkEntry) : Prop where
  mac : e.mac.toU64 = e.rvid * 0x001001001001
  vid : readVid e = e.rvid

lemma readVid_lt (e : TrunkEntry) : readVid e < 2 ^ 12 := by
  unfold readVid
  split
  next => decide
  next => exact Nat.and_lt_two_pow _ (by decide)

lemma l2HashSeed_eq (hmac : mac < 2 ^ 48) (hvid : vid < 4096) :
    l2HashSeed mac vid = vid * 2 ^ 48 + mac := by
  have hlt : vid <<< 48 < 2 ^ 64 := by
    omega
  rw [l2HashSeed, u64, mod_eq_of_lt hlt, EtherAddr.shiftLeft_or hmac]

lemma l2HashSeed_masked (hmac : mac < 2 ^ 48) (hvid : vid < 4096) :
    l2HashSeed mac vid &&& 0x0fffffffffffffff = l2HashSeed mac vid := by
  apply and_mask_of_lt (n := 60)
  rw [l2HashSeed_eq hmac hvid]
  omega

lemma camId_eq_iff (hrvid : e.rvid < 4096) : camId e = l2HashSeed e.mac.toU64 e.rvid ↔
    Repeats e := by
  have hmac := e.mac.toU64_lt
  have hvid := readVid_lt e
  rw [camId, EtherAddr.shiftLeft_or hvid, l2HashSeed_eq hmac hrvid]
  constructor
  · intro h
    constructor <;> omega
  · rintro ⟨hm, hv⟩
    omega

lemma readL2EntryUsingHash_of_row {hash pos : Nat}
    (hrow : sw.rows (.sram (readIdx hash pos)) = fillL2Row e) {e₀ : TrunkEntry}
    (hsame : SameEntry e (fillL2Entry (fillL2Row e) e₀)) :
    sw.readL2EntryUsingHash hash pos e₀ =
    (l2HashSeed e.mac.toU64 e.rvid, fillL2Entry (fillL2Row e) e₀) := by
  unfold readL2EntryUsingHash
  dsimp only
  rw [hrow, hsame.valid, mac_or, hsame.mac, hsame.rvid]
  rfl

lemma readCam_of_row {idx : Nat} (h : IsUnicast e) (hs : Survives e)
    (hrow : sw.rows (.cam idx) = fillL2Row e) (e₀ : TrunkEntry) :
    sw.readCam idx e₀ = (camId e, fillL2Entry (fillL2Row e) e₀) := by
  have hsame := hs.sameEntry h e₀
  have hnm : ¬ e.mac.isMulticast := by rw [hs.unicast]; exact Bool.false_ne_true
  have hvid : (fillL2Entry (fillL2Row e) e₀).vid = readVid e := by
    rw [fillL2Entry_eq (rowFields h), if_neg hnm]
    exact (fillUnicastEntry_fields (rowFields h) e₀).2.2.2.2.2.2.2
  unfold readCam
  dsimp only
  rw [hrow, hsame.valid, (rowFields h).cam, hvid]
  rfl

/-! ## Entries found again -/

end SourceMaster.Realtek.Rtl930x

namespace SourceMaster.Realtek.L2Access

variable {ε : Type} {a : L2Access ε} {seed : Nat} {is : List Nat}

lemma findInBucket_isSome {key i : Nat} (hi : i ∈ is)
    (hread : ∀ e, a.valid (a.readL2EntryUsingHash key i e).2 ∧
      (a.readL2EntryUsingHash key i e).1 &&& 0x0fffffffffffffff = seed) (e : ε) :
    (a.findInBucket key seed true is e).1.isSome := by
  induction is generalizing e with
  | nil => cases hi
  | cons j is ih =>
    unfold findInBucket
    dsimp only
    split_ifs with hfree hmatch
    · rcases List.mem_cons.1 hi with rfl | hi
      · rw [(hread e).1] at hfree
        cases hfree
      · exact ih hi _
    · rfl
    · rcases List.mem_cons.1 hi with rfl | hi
      · rw [(hread e).1, (hread e).2] at hmatch
        simp at hmatch
      · exact ih hi _

lemma findInCam_isSome {i : Nat} (hi : i ∈ is)
    (hread : ∀ e, (a.readCam i e).1 &&& 0x0fffffffffffffff = seed) (e : ε) :
    (a.findInCam seed true is e).1.isSome := by
  induction is generalizing e with
  | nil => cases hi
  | cons j is ih =>
    unfold findInCam
    simp only [Bool.not_true, Bool.false_and, Bool.false_eq_true, if_false]
    split_ifs with hmatch
    · rfl
    · rcases List.mem_cons.1 hi with rfl | hi
      · rw [hread e] at hmatch
        simp at hmatch
      · exact ih hi _

end SourceMaster.Realtek.L2Access

namespace SourceMaster.Realtek.Rtl930x

variable {e : TrunkEntry}

/-- What a read function returns: the entry, under the id by which it is looked up. -/
structure ReadsBack (e : TrunkEntry) (res : Nat × TrunkEntry) : Prop extends SameEntry e res.2 where
  id : res.1 = l2HashSeed e.mac.toU64 e.rvid

/-- The entry is written to row `s`, read back, and found by the search for its address and VLAN. -/
def FoundAgain (sw : Rtl930x) (e : TrunkEntry) : Slot → Prop
  | .sram idx =>
    let sw' := sw.writeL2EntryUsingHash (idx >>> 2) (idx &&& 0x3) e
    let seed := l2HashSeed e.mac.toU64 e.rvid
    (∀ hash pos e₀, readIdx hash pos = idx → ReadsBack e (sw'.readL2EntryUsingHash hash pos e₀)) ∧
      ∀ i < 8, readIdx (sw.l2HashKey seed) i = idx →
        ∀ e₀, (sw'.access.findL2HashEntry seed true e₀).1.isSome
  | .cam idx =>
    let sw' := sw.writeCam idx e
    let seed := l2HashSeed e.mac.toU64 e.rvid
    (∀ e₀, ReadsBack e (sw'.readCam idx e₀)) ∧
      ∀ e₀, (sw'.access.findL2CamEntry seed true e₀).1.isSome

def InTable : Slot → Prop
  | .sram idx => idx < 2 ^ 14
  | .cam idx => idx < 64

variable (sw : Rtl930x) {idx : Nat}

lemma readL2EntryUsingHash_snd (hash pos : Nat) (e₀ : TrunkEntry) :
    (sw.readL2EntryUsingHash hash pos e₀).2 =
      fillL2Entry (sw.rows (.sram (readIdx hash pos))) e₀ := by
  unfold readL2EntryUsingHash
  dsimp only
  split <;> rfl

lemma readCam_snd (idx : Nat) (e₀ : TrunkEntry) :
    (sw.readCam idx e₀).2 = fillL2Entry (sw.rows (.cam idx)) e₀ := by
  unfold readCam
  dsimp only
  split <;> rfl

lemma writeL2EntryUsingHash_row (idx : Nat) (e : TrunkEntry) :
    (sw.writeL2EntryUsingHash (idx >>> 2) (idx &&& 0x3) e).rows (.sram idx) = fillL2Row e := by
  rw [writeL2EntryUsingHash, writeIdx, index_split]
  exact Function.update_self _ _ _

lemma readIdx_split (h : idx < 2 ^ 14) : readIdx (idx >>> 2) (idx &&& 0x3) = idx := by
  have hpos : idx &&& 0x3 < 2 ^ 2 := Nat.and_lt_two_pow _ (by decide)
  have hhash : idx >>> 2 &&& 0xffff = idx >>> 2 := by
    apply and_mask_of_lt (n := 16)
    omega
  rw [readIdx, if_neg (by omega), hhash, index_split]

lemma foundAgain_sram_iff (h : IsUnicast e) (hidx : idx < 2 ^ 14) :
    FoundAgain sw e (.sram idx) ↔ Survives e := by
  have hrow := writeL2EntryUsingHash_row sw idx e
  constructor
  · rintro ⟨hback, -⟩
    refine survives_of_sameEntry h fun e₀ => ?_
    have hread := (hback (idx >>> 2) (idx &&& 0x3) e₀ (readIdx_split hidx)).toSameEntry
    rwa [readL2EntryUsingHash_snd, readIdx_split hidx, hrow] at hread
  · intro hs
    have hread {hash pos : Nat} (hpos : readIdx hash pos = idx) (e₀ : TrunkEntry) :=
      @readL2EntryUsingHash_of_row e _ hash pos (by rw [hpos, hrow]) e₀ (hs.sameEntry h e₀)
    refine ⟨fun hash pos e₀ hpos => ?_, fun i hi hpos e₀ => ?_⟩
    · rw [hread hpos]
      exact ⟨hs.sameEntry h e₀, rfl⟩
    refine L2Access.findInBucket_isSome (List.mem_range.2 hi) (fun e₁ => ?_) e₀
    have hmatch := l2HashSeed_masked e.mac.toU64_lt hs.rvid
    change (readL2EntryUsingHash _ (sw.l2HashKey _) i e₁).2.valid ∧
      (readL2EntryUsingHash _ (sw.l2HashKey _) i e₁).1 &&& _ = _
    rw [hread hpos]
    exact ⟨(hs.sameEntry h e₁).valid, hmatch⟩

lemma foundAgain_cam_iff (h : IsUnicast e) (hidx : idx < 64) :
    FoundAgain sw e (.cam idx) ↔ Survives e ∧ Repeats e := by
  have hrow : (sw.writeCam idx e).rows (.cam idx) = fillL2Row e := Function.update_self _ _ _
  constructor
  · rintro ⟨hback, -⟩
    have hs : Survives e := survives_of_sameEntry h fun e₀ => by
      have hread := (hback e₀).toSameEntry
      rwa [readCam_snd, hrow] at hread
    have hid := (hback {}).id
    rw [readCam_of_row h hs hrow] at hid
    exact ⟨hs, (camId_eq_iff hs.rvid).1 hid⟩
  · rintro ⟨hs, hrepeats⟩
    have hid := (camId_eq_iff hs.rvid).2 hrepeats
    have hread := readCam_of_row h hs hrow
    refine ⟨fun e₀ => ?_, fun e₀ => ?_⟩
    · rw [hread]
      exact ⟨hs.sameEntry h e₀, hid⟩
    · refine L2Access.findInCam_isSome (List.mem_range.2 hidx) (fun e₁ => ?_) e₀
      change (readCam _ idx e₁).1 &&& _ = _
      rw [hread, hid]
      exact l2HashSeed_masked e.mac.toU64_lt hs.rvid

/-- An entry in use is found again in the hash table if the row can hold it, and in the CAM if its
address also rotates into itself. -/
theorem foundAgain_iff (sw : Rtl930x) (e : TrunkEntry) (h : IsUnicast e) (s : Slot)
    (hs : InTable s) : FoundAgain sw e s ↔ Survives e ∧ ((∃ idx, s = .cam idx) → Repeats e) := by
  cases s with
  | sram idx =>
    rw [foundAgain_sram_iff sw h hs, and_iff_left]
    rintro ⟨_, hcam⟩
    cases hcam
  | cam idx =>
    rw [foundAgain_cam_iff sw h hs]
    exact and_congr_right fun _ => ⟨fun hr _ => hr, fun hr => hr ⟨idx, rfl⟩⟩

def fdbEntry : TrunkEntry :=
  { mac := ⟨0x02, 0, 0, 0, 0, 1⟩, vid := 1, rvid := 1, port := 5, valid := true, type := .unicast
    isStatic := true, age := 3 }

def blank : Rtl930x := ⟨fun _ => ⟨0, 0, 0⟩, 0⟩

def camStored : Rtl930x := blank.writeCam 0 fdbEntry

def blockStored : Rtl930x :=
    blank.writeL2EntryUsingHash 0 0 { fdbEntry with blockSa := true, age := 0 }

/-- From the CAM the entry comes back under another id and is not found; the blocked entry comes
back with an age and unblocked. -/
theorem entries_not_found_again : ((camStored.readCam 0 {}).1 = 0x0020000000001001 ∧
      l2HashSeed fdbEntry.mac.toU64 fdbEntry.rvid = 0x0001020000000001 ∧
      (camStored.access.findL2CamEntry 0x0001020000000001 true {}).1 = none) ∧
    (blockStored.readL2EntryUsingHash 0 0 {}).2.blockSa = false ∧
      (blockStored.readL2EntryUsingHash 0 0 {}).2.age = 1 := by
  decide

theorem foundAgain_fdbEntry : FoundAgain blank fdbEntry (.sram 4096) := by
  refine (foundAgain_iff blank fdbEntry ⟨rfl, rfl⟩ (.sram 4096) (by decide : 4096 < 2 ^ 14)).2
    ⟨?_, ?_⟩
  · constructor <;> decide
  · rintro ⟨_, hcam⟩
    cases hcam

end SourceMaster.Realtek.Rtl930x
