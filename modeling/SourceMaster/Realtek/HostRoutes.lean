import SourceMaster.Realtek.L2Entry

/-!
# Host routes of the RTL930x

A host route is kept in one of six slots of two buckets, one in each half of the host route table.
`rtl930x_find_l3_slot` is to find a slot for a route: one that is free or holds its destination. But
it looks at the validity of the route it was called with, and not of the entry it has just read, and
so returns the first slot of the first bucket for every valid route, taken or not
(`findL3Slot_of_valid`, `safeSlot_iff`).
-/

namespace SourceMaster.Realtek

lemma routeTypes : @NeZero Nat Zero.ofOfNat0 4 := Nat.instNeZeroSucc

attribute [local instance] routeTypes

/-- `struct rtl93xx_route_attr`; `type` is IPv4 or IPv6, unicast or multicast. -/
structure RouteAttr where
  valid : Bool := false
  hit : Bool := false
  ttlDec : Bool := false
  ttlCheck : Bool := false
  dstNull : Bool := false
  qosAs : Bool := false
  qosPrio : Nat := 0
  type : Fin 4 := 0
  action : Nat := 0
deriving DecidableEq, Repr

/-- The words `s6_addr32` of a `struct in6_addr`. -/
structure Ip6Words where
  w0 : Nat := 0
  w1 : Nat := 0
  w2 : Nat := 0
  w3 : Nat := 0
deriving DecidableEq, Repr

structure HostRoute where
  dstIp : Nat := 0
  dstIp6 : Ip6Words := {}
  nhId : Nat := 0
  attr : RouteAttr := {}
deriving DecidableEq, Repr

structure HostRow where
  r0 : Nat := 0
  r1 : Nat := 0
  r2 : Nat := 0
  r3 : Nat := 0
  r4 : Nat := 0
deriving DecidableEq, Repr

/-- The host route table by physical index, and the register `RTL930X_L3_HOST_TBL_CTRL`. -/
structure HostTable where
  rows : Nat → HostRow
  ctrl : Nat

namespace HostTable

/-! ## Access to the table -/

def physical (idx : Nat) : Nat := idx / 6 * 8 + idx % 6

section

variable (T : HostTable)

/-- `rtl930x_host_route_read`; the fields it does not set keep what `rt` held before. -/
def hostRouteRead (idx : Nat) (rt : HostRoute) : HostRoute :=
  let r := T.rows (physical idx)
  let v := r.r0
  let rt := { rt with attr := { rt.attr with valid := v.testBit 31 } }
  if !rt.attr.valid then rt
  else
    let type := Fin.ofNat 4 (v >>> 29 &&& 0x3)
    let rt := { rt with attr := { rt.attr with type := type } }
    let filled : HostRoute → HostRoute := fun rt => { rt with
      nhId := v >>> 6 &&& 0x7ff
      attr := { rt.attr with
        hit := v.testBit 20
        dstNull := v.testBit 19
        action := v >>> 17 &&& 3
        ttlDec := v.testBit 5
        ttlCheck := v.testBit 4
        qosAs := v.testBit 3
        qosPrio := v &&& 0x7 } }
    match type with
    | 0 => filled { rt with dstIp := r.r4 }
    -- the words are taken in the reverse order and from one register too early
    | 2 => filled { rt with dstIp6 := ⟨r.r3, r.r2, r.r1, r.r0⟩ }
    | 1 => rt
    | 3 => rt

def hostWord (rt : HostRoute) : Nat :=
  let v := 1 <<< 31
  let v := v ||| (rt.attr.type.val &&& 0x3) <<< 29
  let v := v ||| flag rt.attr.hit 20
  let v := v ||| flag rt.attr.dstNull 19
  let v := v ||| (rt.attr.action &&& 0x3) <<< 17
  let v := v ||| (rt.nhId &&& 0x7ff) <<< 6
  let v := v ||| flag rt.attr.ttlDec 5
  let v := v ||| flag rt.attr.ttlCheck 4
  let v := v ||| flag rt.attr.qosAs 3
  v ||| (rt.attr.qosPrio &&& 0x7)

def hostRouteWrite (idx : Nat) (rt : HostRoute) : HostTable :=
  let write (r : HostRow) : HostTable := { T with rows := Function.update T.rows (physical idx) r }
  match rt.attr.type with
  | 0 => write ⟨hostWord rt, 0, 0, 0, rt.dstIp⟩
  | 2 => write ⟨hostWord rt, rt.dstIp6.w0, rt.dstIp6.w1, rt.dstIp6.w2, rt.dstIp6.w3⟩
  | 1 => T
  | 3 => T

/-! ## The search -/

def hashPick (val lsb len : Nat) : Nat := (val &&& ((1 <<< len) - 1) <<< lsb) >>> lsb

def l3Hash4 (ip algorithm : Nat) (moveDip : Bool) : Nat :=
  let row0 := hashPick ip 27 5
  let row1 := hashPick ip 18 9
  let row2 := hashPick ip 9 9
  let row3 := if !moveDip then hashPick ip 0 9 else 0
  if algorithm = 0 then
    row0 ^^^ row1 ^^^ row2 ^^^ row3
  else
    let s0 := row0 + row1 + row2
    let s1 := (s0 &&& 0x1ff) + (s0 &&& 0x1ff <<< 9) >>> 9
    let pH := (s1 &&& 0x1ff) + (s1 &&& 0x1ff <<< 9) >>> 9
    pH ^^^ row3

def hash (rt : HostRoute) (t : Nat) : Nat :=
  l3Hash4 rt.dstIp (T.ctrl >>> (2 + t) &&& 0x1) false

/-- `addr`, the physical address of slot `s` of the bucket in table `t`. -/
def addr (rt : HostRoute) (t s : Nat) : Nat :=
  t <<< 12 ||| (T.hash rt t &&& 0x1ff) <<< 3 ||| s

end

def logical (addr : Nat) : Nat := addr / 8 * 6 + addr % 8

def searchBucket (T : HostTable) (rt : HostRoute) (mustExist : Bool) (t : Nat) :
    List Nat → HostRoute → Option Nat × HostRoute
  | [], e => (none, e)
  | s :: ss, e =>
    let idx := logical (T.addr rt t s)
    let e := T.hostRouteRead idx e
    if !mustExist && rt.attr.valid then (some idx, e)
    else if mustExist && e.dstIp == rt.dstIp then (some idx, e)
    else T.searchBucket rt mustExist t ss e

def slotWidth (rt : HostRoute) : Nat := if rt.attr.type = 0 ∨ rt.attr.type = 2 then 1 else 3

def slots (rt : HostRoute) : List Nat := (List.range 6).filter (· % slotWidth rt == 0)

/-- `rtl930x_find_l3_slot`; `e` is what the stack holds where the entries are read to. -/
def findL3Slot (T : HostTable) (rt : HostRoute) (mustExist : Bool) (e : HostRoute) : Option Nat :=
  match T.searchBucket rt mustExist 0 (slots rt) e with
  | (some idx, _) => some idx
  | (none, e) => (T.searchBucket rt mustExist 1 (slots rt) e).1

/-! ## What the slots are for -/

/-- A destination: the type of the route and the address. -/
structure Destination where
  type : Fin 4
  words : List Nat
deriving DecidableEq, Repr

end HostTable

open HostTable

def HostRoute.destination (rt : HostRoute) : Destination where
  type := rt.attr.type
  words := if rt.attr.type.val < 2 then [rt.dstIp]
    else [rt.dstIp6.w0, rt.dstIp6.w1, rt.dstIp6.w2, rt.dstIp6.w3]

/-- The destination in a row, as `rtl930x_host_route_write` lays it out; none if free. -/
def HostRow.destination (r : HostRow) : Option Destination :=
  if r.r0.testBit 31 then
    let type := Fin.ofNat 4 (r.r0 >>> 29 &&& 0x3)
    some ⟨type, if type.val < 2 then [r.r4] else [r.r1, r.r2, r.r3, r.r4]⟩
  else none

def HostRow.FreeFor (r : HostRow) (rt : HostRoute) : Prop :=
  r.destination = none ∨ r.destination = some rt.destination

def HostTable.buckets (T : HostTable) (rt : HostRoute) : List Nat :=
  [0, 1].flatMap fun t => (List.range 6).map (T.addr rt t)

namespace HostTable

variable {T : HostTable} {rt : HostRoute} {s : Nat}

/-- The search for a slot for `rt` does no harm. -/
structure SafeSlot (T : HostTable) (rt e : HostRoute) : Prop where
  slot : ∀ idx, T.findL3Slot rt false e = some idx → (T.rows (physical idx)).FreeFor rt
  /-- writing the route to the slot leaves the entries of other destinations -/
  keeps : ∀ idx, T.findL3Slot rt false e = some idx → ∀ a d, (T.rows a).destination = some d →
    d ≠ rt.destination → (T.hostRouteWrite idx rt).rows a = T.rows a
  full : T.findL3Slot rt false e = none →
    ∀ a ∈ T.buckets rt, ∃ d, (T.rows a).destination = some d ∧ d ≠ rt.destination

/-! ## Slots and addresses -/

lemma addr_eq (t : Nat) (hs : s < 6) :
    T.addr rt t s = t * 2 ^ 12 + ((T.hash rt t &&& 0x1ff) * 2 ^ 3 + s) := by
  have hhash : T.hash rt t &&& 0x1ff < 2 ^ 9 := Nat.and_lt_two_pow _ (by decide)
  rw [addr, Nat.or_assoc, @EtherAddr.shiftLeft_or _ s 3 (by omega),
    @EtherAddr.shiftLeft_or t _ 12 (by omega)]

lemma physical_logical (t : Nat) (hs : s < 6) :
    physical (logical (T.addr rt t s)) = T.addr rt t s := by
  rw [physical, logical, addr_eq t hs]
  omega

lemma slots_eq (rt : HostRoute) : ∃ ss, slots rt = 0 :: ss := by
  unfold slots slotWidth
  split
  next => exact ⟨[1, 2, 3, 4, 5], rfl⟩
  next => exact ⟨[3], rfl⟩

lemma findL3Slot_of_valid (h : rt.attr.valid) (e : HostRoute) :
    T.findL3Slot rt false e = some (logical (T.addr rt 0 0)) := by
  obtain ⟨ss, hss⟩ := slots_eq rt
  rw [findL3Slot, hss, searchBucket, h]
  rfl

lemma hostRouteWrite_rows (idx : Nat) {a : Nat} (ha : a ≠ physical idx) :
    (T.hostRouteWrite idx rt).rows a = T.rows a := by
  unfold hostRouteWrite
  split <;> simp [Function.update_of_ne ha]

/-- The search is harmless exactly when the first slot is free or holds the destination. -/
theorem safeSlot_iff (T : HostTable) (rt e : HostRoute) (h : rt.attr.valid) :
    T.SafeSlot rt e ↔ (T.rows (T.addr rt 0 0)).FreeFor rt := by
  have hfind := @findL3Slot_of_valid T rt h e
  have hphys : physical (logical (T.addr rt 0 0)) = T.addr rt 0 0 := physical_logical 0 (by decide)
  constructor
  · intro hsafe
    have hslot := hsafe.slot _ hfind
    rwa [hphys] at hslot
  intro hfree
  refine ⟨fun idx hidx => ?_, fun idx hidx a d hd hne => ?_, fun hnone => ?_⟩
  · rw [hfind] at hidx
    cases hidx
    rwa [hphys]
  · rw [hfind] at hidx
    cases hidx
    apply hostRouteWrite_rows
    rintro rfl
    rw [hphys] at hd
    rcases hfree with hnone | hsome
    · rw [hd] at hnone
      cases hnone
    · rw [hd] at hsome
      exact hne (Option.some.inj hsome)
  · rw [hfind] at hnone
    cases hnone

def firstHost : HostRoute := { dstIp := 0xc0a80101, attr := { valid := true } }

def secondHost : HostRoute := { dstIp := 0xc0a80300, attr := { valid := true } }

def emptyTable : HostTable := ⟨fun _ => {}, 0⟩

def oneHost : HostTable :=
    emptyTable.hostRouteWrite (logical (emptyTable.addr firstHost 0 0)) firstHost

/-- The slot found for the second route is that of the first, whose entry is lost. -/
theorem second_host_overwrites : ∃ idx, oneHost.findL3Slot secondHost false {} = some idx ∧
      (oneHost.rows (physical idx)).destination = some firstHost.destination ∧
      firstHost.destination ≠ secondHost.destination ∧
      ((oneHost.hostRouteWrite idx secondHost).rows (physical idx)).destination =
        some secondHost.destination := by
  refine ⟨logical (oneHost.addr secondHost 0 0), findL3Slot_of_valid rfl {}, ?_⟩
  decide

/-- The first route in the first slot of the bucket, and the second one behind it. -/
def twoHosts : HostTable :=
  oneHost.hostRouteWrite (logical (oneHost.addr secondHost 0 1)) secondHost

/-- The first route finds its own slot, next to that of the second one. -/
theorem safeSlot_twoHosts : twoHosts.addr firstHost 0 1 ∈ twoHosts.buckets firstHost ∧
    (twoHosts.rows (twoHosts.addr firstHost 0 1)).destination = some secondHost.destination ∧
      twoHosts.SafeSlot firstHost {} :=
  ⟨by decide, by decide, (safeSlot_iff twoHosts firstHost {} rfl).2 (.inr (by decide))⟩

end HostTable

end SourceMaster.Realtek
