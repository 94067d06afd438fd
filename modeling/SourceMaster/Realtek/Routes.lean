import SourceMaster.Realtek.Flower
import SourceMaster.Realtek.Nexthop

/-!
# Offloaded routes

A route that is added (`rtl83xx_fib4_add`) waits for the MAC address of its gateway. Then
`rtl83xx_l3_nexthop_update` installs a next hop in the L2 table and a rule of the packet inspection
engine for each route through the gateway, and `rtl83xx_fib4_del` removes them again.

All routes through one gateway share its row of the L2 table, and there is no count of them.
`fib4_del_independent` says which deletions leave the next hops of the other routes alone.
-/

namespace SourceMaster.Realtek

open Runs Switch Function List Option

/-! ## Routes -/

/-- `struct rtl83xx_route`, without the fields that only other families use. -/
structure Route where
  /-- where `kzalloc` has put it -/
  addr : Nat := 0
  gwIp : BitVec 32
  dstIp : BitVec 32
  prefixLen : Nat
  id : Nat
  nh : Nexthop := {}
  pr : PieRule
  /-- whether a next hop has been installed for the route, which the source does not store -/
  resolved : Bool := false

/-- `priv->routes`. The routes through one gateway are kept in a list, the newest first. -/
structure Routes where
  list : List Route
  /-- the next address from `kzalloc` -/
  next : Nat
  nodup : (list.map Route.addr).Nodup
  lt_next : ∀ r ∈ list, r.addr < next

lemma lt_next_nil : ∀ r ∈ ([] : List Route), r.addr < 0 := fun _ h => absurd h not_mem_nil

namespace Routes

variable (rs : Routes)

def lookup (gw : BitVec 32) : List Route := rs.list.filter fun r => r.gwIp == gw

def insert (r : Route) : Routes where
  list := { r with addr := rs.next } :: rs.list
  next := rs.next + 1
  nodup := by
    rw [map_cons, nodup_cons]
    refine ⟨fun h => ?_, rs.nodup⟩
    obtain ⟨r', hr', haddr⟩ := List.mem_map.1 h
    exact absurd haddr (Nat.ne_of_lt (rs.lt_next r' hr'))
  lt_next := by
    intro r' hr'
    obtain rfl | hr' := mem_cons.1 hr'
    · exact Nat.lt_succ_self _
    · exact Nat.lt_succ_of_lt (rs.lt_next r' hr')

def remove (addr : Nat) : Routes where
  list := rs.list.filter fun r => r.addr != addr
  next := rs.next
  nodup := rs.nodup.sublist (filter_sublist.map _)
  lt_next r hr := rs.lt_next r (mem_filter.1 hr).1

def change (list : List Route) (h : list.map Route.addr = rs.list.map Route.addr) :
    Routes where
  list := list
  next := rs.next
  nodup := by
    rw [h]
    exact rs.nodup
  lt_next := by
    intro r hr
    have hmem : r.addr ∈ rs.list.map Route.addr := h ▸ List.mem_map_of_mem hr
    obtain ⟨r', hr', haddr⟩ := List.mem_map.1 hmem
    exact haddr ▸ rs.lt_next r' hr'

end Routes

/-! ## `rtl83xx_l3_nexthop_update` -/

structure Engine where
  sw : Switch
  flower : FlowerState
  /-- table `ROUTING` -/
  routing : Nat → Nat

def PIE_ACT_ROUTE_UC : BitVec 8 := 6

def inetMakeMask (logmask : Nat) : BitVec 32 :=
  if logmask ≠ 0 then ~~~((1 <<< (32 - logmask)) - 1) else 0

def Route.gateway (routing : Nat → Nat) (mac : Nat) (r : Route) : Nexthop :=
  -- `rtl838x_route_read`
  let nh := { r.nh with gw := routing r.id }
  { nh with mac := mac, gw := mac, port := portIgnore, id := r.id }

def Route.rule (r : Route) (nh : Nexthop) : PieRule :=
  let pr := { r.pr with key.dip := r.dstIp, mask.dip := inetMakeMask r.prefixLen }
  { pr with
    act.fwdSel := true
    act.fwdData := .ofNat 16 nh.l2Id
    act.fwdAct := PIE_ACT_ROUTE_UC }

def PieRule.withCntr (pr : PieRule) (cntr : Int) : PieRule :=
  let pr := { pr with packetCntr := cntr }
  if 0 ≤ pr.packetCntr then { pr with act.logSel := true, act.logData := .ofInt 16 cntr } else pr

/-- The body of the loop in `rtl83xx_l3_nexthop_update`, which looks at no error. -/
def updateRoute (b : PieBlocks) (mac : Nat) (eng : Engine) (r : Route) : Engine × Route :=
  let (err, sw, nh) := l2NexthopAdd eng.sw (r.gateway eng.routing mac)
  let r : Route := { r with nh := nh, resolved := r.resolved || err == 0 }
  let pr : PieRule := r.rule nh
  let routing := update eng.routing r.id nh.gw
  if pr.id < 0 then
    let (cntr, cntrs) := packetCntrAlloc eng.flower.cntrs
    let (_, pie, pr) := pieRuleAdd b eng.flower.pie (pr.withCntr cntr)
    (⟨sw, { eng.flower with pie, cntrs }, routing⟩, { r with pr })
  else
    let (_, pie) := pieRuleWrite b eng.flower.pie pr.id.toNat pr
    (⟨sw, { eng.flower with pie }, routing⟩, { r with pr })

def updateRoutes (b : PieBlocks) (ip : BitVec 32) (mac : Nat) :
    Engine → List Route → Engine × List Route
  | eng, [] => (eng, [])
  | eng, r :: rs =>
    if r.gwIp == ip then
      let (eng, r) := updateRoute b mac eng r
      let (eng, rs) := updateRoutes b ip mac eng rs
      (eng, r :: rs)
    else
      let (eng, rs) := updateRoutes b ip mac eng rs
      (eng, r :: rs)

lemma updateRoute_addr (b : PieBlocks) (mac : Nat) (eng : Engine) (r : Route) :
    (updateRoute b mac eng r).2.addr = r.addr := by
  unfold updateRoute
  dsimp only
  split <;> rfl

lemma updateRoutes_addr (b : PieBlocks) (ip : BitVec 32) (mac : Nat) (eng : Engine)
    (rs : List Route) : (updateRoutes b ip mac eng rs).2.map Route.addr = rs.map Route.addr := by
  induction rs generalizing eng with
  | nil => rfl
  | cons r rs ih =>
    unfold updateRoutes
    split
    next => simp only [map_cons, ih, updateRoute_addr]
    next => simp only [map_cons, ih]

structure Offload extends Engine where
  routes : Routes
  routeUseBm : Nat → Bool

def l3NexthopUpdate (b : PieBlocks) (s : Offload) (ip : BitVec 32) (mac : Nat) : Int × Offload :=
  if (s.routes.lookup ip).isEmpty then (-ENOENT, s)
  else
    let updated := updateRoutes b ip mac s.toEngine s.routes.list
    (0, ⟨updated.1, s.routes.change updated.2 (updateRoutes_addr ..), s.routeUseBm⟩)

/-! ## `rtl83xx_fib4_add` and `rtl83xx_fib4_del` -/

def MAX_ROUTES : Nat := 512

/-- What the two functions read: the destination, its length, the gateway, the VLAN of the device
and the port found for it. -/
structure FibEntry where
  dst : BitVec 32
  dstLen : Nat
  gw4 : BitVec 32
  vlan : Fin 4096 := 0
  port : Int := 0

def FibEntry.route (info : FibEntry) (idx : Nat) : Route where
  id := idx
  gwIp := info.gw4
  pr := { id := -1 }
  dstIp := info.dst
  prefixLen := info.dstLen
  nh := { rvid := info.vlan }

variable (s : Offload)

variable (info : FibEntry)

/-- `rtl83xx_route_alloc`, with the results of `kzalloc` and `rhltable_insert`. -/
def routeAlloc (allocated : Bool) (insertErr : Int) : Option Offload :=
  let idx := findFirstZeroBit s.routeUseBm MAX_ROUTES
  if !allocated then none
  else
    let routes := s.routes.insert (info.route idx)
    if insertErr ≠ 0 then none
    else some { s with routes, routeUseBm := update s.routeUseBm idx true }

/-- `rtl83xx_fib4_add`; `neigh` is the address of the gateway if it is known already. -/
def fib4Add (b : PieBlocks) (s : Offload) (info : FibEntry) (allocated : Bool) (insertErr : Int)
    (neigh : Option EtherAddr) : Int × Offload :=
  if info.dst = 0 then (0, s)
  else if info.port < 0 then (-1, s)
  else if info.dst &&& 0xff = 0xff then (0, s)
  -- routes to 192.168.100.x
  else if info.dst &&& 0xffffff00 = 0xc0a86400 then (0, s)
  -- routes to 127.x.x.x
  else if info.dst &&& 0xff000000 = 0x7f000000 then (0, s)
  else
    match routeAlloc s info allocated insertErr with
    | none => (-1, s)
    | some s =>
      let toLocalhost := info.gw4 == 0
      if !toLocalhost then
        match neigh with
        | some ha => (0, (l3NexthopUpdate b s info.gw4 ha.toU64).2)
        | none => (0, s)
      else (0, s)

/-- `set_bit` in `packet_cntr_use_bm`; a negative number names a bit far outside of the map. -/
def Counters.release (c : Counters) (nr : Int) : Counters :=
  if nr < 0 then c else { c with packetCntrUseBm := update c.packetCntrUseBm nr.toNat true }

def Offload.own : Option Route :=
  (s.routes.lookup info.gw4).find? fun r => r.dstIp == info.dst && r.prefixLen == info.dstLen

/-- The route at which the loop in `rtl83xx_fib4_del` stops: if none is right, the last one. -/
def Offload.victim : Option Route :=
  (s.own info).or (s.routes.lookup info.gw4).getLast?

def fib4Del : Int × Offload :=
  match s.victim info with
  | none => (-ENOENT, s)
  | some r =>
    let sw := (l2NexthopRm s.sw r.nh).2
    let cntrs := s.flower.cntrs.release r.pr.packetCntr
    let pie := pieRuleRm s.flower.pie r.pr
    -- `rtl83xx_route_rm`
    (0, { s with
      sw := sw
      flower := { s.flower with pie, cntrs }
      routes := s.routes.remove r.addr
      routeUseBm := update s.routeUseBm r.id false })

/-! ## Runs -/

inductive OffloadCall
  | fib4Add (info : FibEntry) (allocated : Bool) (insertErr : Int) (neigh : Option EtherAddr)
  | nexthopUpdate (ip : BitVec 32) (mac : EtherAddr)
  | fib4Del (info : FibEntry)
  | configureFlower (f : FlowClsOffload) (allocated : Bool) (insertErr : Int)
  | deleteFlower (cookie : Nat)

def Offload.step (b : PieBlocks) (cpuPort : Nat) (s : Offload) : OffloadCall → Offload
  | .fib4Add info allocated insertErr neigh =>
    (Realtek.fib4Add b s info allocated insertErr neigh).2
  | .nexthopUpdate ip mac => (l3NexthopUpdate b s ip mac.toU64).2
  | .fib4Del info => (Realtek.fib4Del s info).2
  | .configureFlower f allocated insertErr =>
    { s with flower := (Realtek.configureFlower b cpuPort s.flower f allocated insertErr).2 }
  | .deleteFlower cookie => { s with flower := (Realtek.deleteFlower s.flower cookie).2 }

section

variable {b : PieBlocks} {ip : BitVec 32} {mac : Nat} {cpuPort : Nat}

variable {P : Engine → List Route → Prop}

lemma updateRoutes_keeps (hpass : ∀ eng l₁ r l₂, P eng (l₁ ++ r :: l₂) →
      P (updateRoute b mac eng r).1 (l₁ ++ (updateRoute b mac eng r).2 :: l₂))
    (eng : Engine) (l₁ rs : List Route) (h : P eng (l₁ ++ rs)) :
    P (updateRoutes b ip mac eng rs).1 (l₁ ++ (updateRoutes b ip mac eng rs).2) := by
  induction rs generalizing eng l₁ with
  | nil => exact h
  | cons r rs ih =>
    -- the routes that have been passed go to the front
    unfold updateRoutes
    split
    next =>
      have hr := hpass eng l₁ r rs h
      rw [append_cons] at hr
      have hrs := ih _ _ hr
      rwa [← append_cons] at hrs
    next =>
      rw [append_cons] at h
      have hrs := ih _ _ h
      rwa [← append_cons] at hrs

lemma l3NexthopUpdate_keeps (hpass : ∀ eng l₁ r l₂, P eng (l₁ ++ r :: l₂) →
      P (updateRoute b mac eng r).1 (l₁ ++ (updateRoute b mac eng r).2 :: l₂))
    (s : Offload) (h : P s.toEngine s.routes.list) :
    P (l3NexthopUpdate b s ip mac).2.toEngine (l3NexthopUpdate b s ip mac).2.routes.list := by
  unfold l3NexthopUpdate
  split
  next => exact h
  next => exact updateRoutes_keeps hpass s.toEngine [] s.routes.list h

lemma fib4Add_keeps {neigh : Option EtherAddr}
    (hpass : ∀ ha, neigh = some ha → ∀ eng l₁ r l₂, P eng (l₁ ++ r :: l₂) →
      P (updateRoute b ha.toU64 eng r).1 (l₁ ++ (updateRoute b ha.toU64 eng r).2 :: l₂))
    (s : Offload) (info : FibEntry) (allocated : Bool) (insertErr : Int)
    (hnew : ∀ idx, P s.toEngine ({ info.route idx with addr := s.routes.next } :: s.routes.list))
    (h : P s.toEngine s.routes.list) :
    P (fib4Add b s info allocated insertErr neigh).2.toEngine
      (fib4Add b s info allocated insertErr neigh).2.routes.list := by
  have halloc : ∀ s', routeAlloc s info allocated insertErr = some s' →
    P s'.toEngine s'.routes.list := by
    intro s' hs'
    unfold routeAlloc at hs'
    split at hs'
    next => cases hs'
    next =>
      split at hs'
      next => cases hs'
      next =>
        obtain rfl := some.inj hs'
        exact hnew _
  unfold fib4Add
  split_ifs
  iterate 5 exact h
  cases hs' : routeAlloc s info allocated insertErr with
  | none => exact h
  | some s' =>
    dsimp only
    split
    next =>
      cases neigh with
      | none => exact halloc s' hs'
      | some ha => exact l3NexthopUpdate_keeps (hpass ha rfl) s' (halloc s' hs')
    next => exact halloc s' hs'

/-! ## Next hops of the routes -/

variable (eng : Engine) {s : Offload} {r : Route} {info : FibEntry}

lemma updateRoute_sw (r : Route) : (updateRoute b mac eng r).1.sw =
    (l2NexthopAdd eng.sw (r.gateway eng.routing mac)).2.1 := by
  unfold updateRoute
  dsimp only
  split <;> rfl

lemma updateRoute_nh (r : Route) : (updateRoute b mac eng r).2.nh =
    (l2NexthopAdd eng.sw (r.gateway eng.routing mac)).2.2 := by
  unfold updateRoute
  dsimp only
  split <;> rfl

lemma updateRoute_resolved (r : Route) : (updateRoute b mac eng r).2.resolved =
    (r.resolved || (l2NexthopAdd eng.sw (r.gateway eng.routing mac)).1 == 0) := by
  unfold updateRoute
  dsimp only
  split <;> rfl

structure NexthopInv (eng : Engine) (routes : List Route) : Prop where
  sane : eng.sw.Sane
  inRange : ∀ r ∈ routes, r.nh.InRange
  nexthop : ∀ r ∈ routes, r.resolved → (eng.sw.rows (.sram r.nh.l2Id)).IsNexthop

lemma NexthopInv.updateRoute {eng : Engine} {l₁ l₂ : List Route} {a : EtherAddr}
    (ha : a.isMulticast = false) (h : NexthopInv eng (l₁ ++ r :: l₂)) :
    NexthopInv (updateRoute b a.toU64 eng r).1 (l₁ ++ (updateRoute b a.toU64 eng r).2 :: l₂) := by
  have hmem : r ∈ l₁ ++ r :: l₂ := by simp
  have hothers : ∀ r' ∈ l₁ ++ (Realtek.updateRoute b a.toU64 eng r).2 :: l₂,
      r' = (Realtek.updateRoute b a.toU64 eng r).2 ∨ r' ∈ l₁ ++ r :: l₂ := by
    intro r' hr'
    simp only [mem_append, mem_cons] at hr' ⊢
    tauto
  have hrange : (r.gateway eng.routing a.toU64).InRange :=
    ⟨(h.inRange r hmem).vid, (h.inRange r hmem).rvid⟩
  have hsw := @updateRoute_sw b a.toU64 eng r
  have hnh := @updateRoute_nh b a.toU64 eng r
  have hres := @updateRoute_resolved b a.toU64 eng r
  obtain hadd | ⟨sw', nh', hadd, hadded⟩ := l2NexthopAdd_spec h.sane hrange rfl ha
  · rw [hadd] at hsw hnh hres
    refine ⟨hsw ▸ h.sane, fun r' hr' => ?_, fun r' hr' hr'res => ?_⟩
    · obtain rfl | hr' := hothers r' hr'
      · exact hnh ▸ hrange
      · exact h.inRange r' hr'
    rw [hsw]
    obtain rfl | hr' := hothers r' hr'
    · rw [hnh]
      exact h.nexthop r hmem (by simpa [hres] using hr'res)
    · exact h.nexthop r' hr' hr'res
  · rw [hadd] at hsw hnh
    refine ⟨hsw ▸ hadded.sane, fun r' hr' => ?_, fun r' hr' hr'res => ?_⟩
    · obtain rfl | hr' := hothers r' hr'
      · exact hnh ▸ hadded.inRange
      · exact h.inRange r' hr'
    rw [hsw]
    obtain rfl | hr' := hothers r' hr'
    · rw [hnh]
      exact hadded.isNexthop
    · have hold := h.nexthop r' hr' hr'res
      rw [hadded.rows _ (.inr hold)]
      exact hold

/-! ## Deletions -/

/-- A deletion keeps the next hops of the other routes, and only the row of the route that is asked
for changes. -/
structure Offload.Independent (s s' : Offload) (info : FibEntry) : Prop where
  others : ∀ r ∈ s.routes.list, r.resolved →
    (∀ own, s.own info = some own → r.addr ≠ own.addr) → (s'.sw.rows (.sram r.nh.l2Id)).IsNexthop
  rows : ∀ slot, s'.sw.rows slot ≠ s.sw.rows slot →
    ∃ own, s.own info = some own ∧ own.resolved ∧ slot = .sram own.nh.l2Id

def Offload.DeletesAlone (b : PieBlocks) (cpuPort : Nat) (s : Offload) : OffloadCall → Prop
  | .fib4Del info => s.Independent (s.step b cpuPort (.fib4Del info)) info
  | _ => True

/-- Gateways have unicast addresses, and a deletion finds no valid row at the stored index, or the
route that is asked for, with a next hop of its own. -/
def Offload.Unshared (s : Offload) : OffloadCall → Prop
  | .fib4Add _ _ _ neigh => ∀ ha ∈ neigh, ha.isMulticast = false
  | .nexthopUpdate _ mac => mac.isMulticast = false
  | .fib4Del info =>
    ∀ r ∈ s.victim info, (s.sw.rows (.sram r.nh.l2Id)).valid →
      (s.own info).isSome ∧ r.resolved ∧
        ∀ r' ∈ s.routes.list, r'.addr ≠ r.addr → r'.resolved → r'.nh.l2Id ≠ r.nh.l2Id
  | _ => True

instance (s : Offload) : (call : OffloadCall) → Decidable (s.Unshared call)
  | .fib4Add _ _ _ neigh => inferInstanceAs (Decidable (∀ ha ∈ neigh, ha.isMulticast = false))
  | .nexthopUpdate _ mac => inferInstanceAs (Decidable (mac.isMulticast = false))
  | .fib4Del info => inferInstanceAs (Decidable (∀ r ∈ s.victim info, _ → _))
  | .configureFlower .. => isTrue trivial
  | .deleteFlower _ => isTrue trivial

lemma l2NexthopRm_of_not_valid {sw : Switch} {nh : Nexthop}
    (h : (sw.rows (.sram nh.l2Id)).valid = false) : (l2NexthopRm sw nh).2 = sw := by
  have hvalid : (fillL2Entry (sw.rows (.sram nh.l2Id)) {}).valid = false := h
  simp only [l2NexthopRm, readL2EntryUsingHash, Switch.read, index_split, hvalid, Bool.not_false,
    if_true]

lemma mem_remove {rs : Routes} {addr : Nat} :
    r ∈ (rs.remove addr).list ↔ r ∈ rs.list ∧ r.addr ≠ addr := by
  simp [Routes.remove]

lemma victim_mem (h : s.victim info = some r) : r ∈ s.routes.list := by
  have hlookup : r ∈ s.routes.lookup info.gw4 := by
    obtain h | ⟨-, h⟩ := or_eq_some_iff.1 h
    · exact mem_of_find?_eq_some h
    · exact mem_of_getLast? h
  exact (mem_filter.1 hlookup).1

lemma NexthopInv.fib4Del (h : NexthopInv s.toEngine s.routes.list)
    (hmeets : s.Unshared (.fib4Del info)) :
    NexthopInv (fib4Del s info).2.toEngine (fib4Del s info).2.routes.list ∧
      s.Independent (fib4Del s info).2 info := by
  unfold Realtek.fib4Del
  cases hv : s.victim info with
  | none =>
    refine ⟨h, fun r hr hres _ => h.nexthop r hr hres, fun slot hslot => absurd rfl hslot⟩
  | some v =>
    dsimp only
    obtain ⟨hsane, hrows⟩ := l2NexthopRm_spec h.sane (h.inRange v (victim_mem hv))
    cases hvalid : (s.sw.rows (.sram v.nh.l2Id)).valid with
    | false =>
      rw [l2NexthopRm_of_not_valid hvalid]
      refine ⟨⟨h.sane, fun r hr => ?_, fun r hr => ?_⟩, fun r hr hres _ => h.nexthop r hr hres,
        fun slot hslot => absurd rfl hslot⟩
      · exact h.inRange r (mem_remove.1 hr).1
      · exact h.nexthop r (mem_remove.1 hr).1
    | true =>
      obtain ⟨hsome, hvres, hunshared⟩ := hmeets v hv hvalid
      have hown : s.own info = some v := by
        obtain ⟨own, hown⟩ := isSome_iff_exists.1 hsome
        rwa [Offload.victim, hown, some_or, ← hown] at hv
      have hkept : ∀ r ∈ s.routes.list, r.addr ≠ v.addr → r.resolved →
          ((l2NexthopRm s.sw v.nh).2.rows (.sram r.nh.l2Id)).IsNexthop := by
        intro r hr haddr hres
        have hne : Slot.sram r.nh.l2Id ≠ .sram v.nh.l2Id := fun heq =>
          hunshared r hr haddr hres (Slot.sram.inj heq)
        rw [hrows _ hne]
        exact h.nexthop r hr hres
      refine ⟨⟨hsane, fun r hr => ?_, fun r hr => ?_⟩, fun r hr hres hother => ?_,
        fun slot hslot => ⟨v, hown, hvres, ?_⟩⟩
      · exact h.inRange r (mem_remove.1 hr).1
      · exact hkept r (mem_remove.1 hr).1 (mem_remove.1 hr).2
      · exact hkept r hr (hother v hown) hres
      · by_contra hne
        exact hslot (hrows slot hne)

lemma NexthopInv.step (h : NexthopInv s.toEngine s.routes.list) (call : OffloadCall)
    (hmeets : s.Unshared call) :
    NexthopInv (s.step b cpuPort call).toEngine (s.step b cpuPort call).routes.list ∧
      s.DeletesAlone b cpuPort call := by
  cases call with
  | fib4Add info allocated insertErr neigh =>
    refine ⟨fib4Add_keeps (fun ha hha _ _ _ _ => NexthopInv.updateRoute (hmeets ha hha)) s info
      allocated insertErr (fun idx => ?_) h, trivial⟩
    refine ⟨h.sane, fun r hr => ?_, fun r hr hres => ?_⟩
    · obtain rfl | hr := mem_cons.1 hr
      · exact ⟨Nat.two_pow_pos 12, info.vlan.isLt⟩
      · exact h.inRange r hr
    · obtain rfl | hr := mem_cons.1 hr
      · cases hres
      · exact h.nexthop r hr hres
  | nexthopUpdate ip mac =>
    exact ⟨l3NexthopUpdate_keeps (fun _ _ _ _ => NexthopInv.updateRoute hmeets) s h, trivial⟩
  | fib4Del info => exact h.fib4Del hmeets
  | configureFlower f allocated insertErr => exact ⟨⟨h.sane, h.inRange, h.nexthop⟩, trivial⟩
  | deleteFlower cookie => exact ⟨⟨h.sane, h.inRange, h.nexthop⟩, trivial⟩

/-- If the calls meet the condition, every deletion leaves the other next hops alone. -/
theorem fib4_del_independent (s : Offload) (hroutes : s.routes.list = []) (hsane : s.sw.Sane)
    (calls : List OffloadCall) (hmeets : Each (Offload.step b cpuPort) Offload.Unshared s calls) :
    Each (Offload.step b cpuPort) (Offload.DeletesAlone b cpuPort) s calls := by
  have hinit : NexthopInv s.toEngine s.routes.list := by
    refine ⟨hsane, ?_, ?_⟩ <;> simp [hroutes]
  let Inv : Offload → Prop := fun s => NexthopInv s.toEngine s.routes.list
  have hstep : ∀ s call, Inv s → s.Unshared call →
      Inv (s.step b cpuPort call) ∧ s.DeletesAlone b cpuPort call := fun s call h hmeets =>
    h.step call hmeets
  exact each_of_each hstep calls hinit hmeets

end

/-! ## Two routes through one gateway -/

def blankOffload : Offload where
  sw := blankSwitch
  flower := emptyFlower
  routing _ := 0
  routes := ⟨[], 0, nodup_nil, lt_next_nil⟩
  routeUseBm _ := false

lemma blankSwitch_sane : blankSwitch.Sane := by
  intro slot
  show (Row.mk 0 0 0).Sane
  exact ⟨⟨by decide, by decide⟩, by decide, by decide⟩

instance (r : Row) : Decidable r.IsNexthop := inferInstanceAs (Decidable (_ ∧ _))

def firstNet : FibEntry where
  dst := 0x0a010000
  dstLen := 16
  gw4 := 0x0a000001

def secondNet : FibEntry where
  dst := 0x0a020000
  dstLen := 16
  gw4 := 0x0a000001

def gatewayMac : EtherAddr := ⟨0x02, 0, 0, 0, 0, 1⟩

/-- The two routes have one row, and to delete one of them clears it. -/
theorem deleted_route_takes_nexthop :
    ¬ Each (Offload.step pieInitBlocks 28) (Offload.DeletesAlone pieInitBlocks 28) blankOffload
      [.fib4Add firstNet true 0 none, .fib4Add secondNet true 0 none,
        .nexthopUpdate 0x0a000001 gatewayMac, .fib4Del firstNet] := by
  rintro ⟨-, -, -, hdel, -⟩
  let s := [.fib4Add firstNet true 0 none, .fib4Add secondNet true 0 none,
    .nexthopUpdate 0x0a000001 gatewayMac].foldl (Offload.step pieInitBlocks 28) blankOffload
  have hdel : s.Independent (s.step pieInitBlocks 28 (.fib4Del firstNet)) firstNet := hdel
  have hlist : (s.routes.list.map fun r => (r.addr, r.resolved, r.nh.l2Id)) =
      [(1, true, 2056), (0, true, 2056)] := by decide +kernel
  have hown : (s.own firstNet).map Route.addr = some 0 := by decide +kernel
  have hrow : ¬ ((s.step pieInitBlocks 28 (.fib4Del firstNet)).sw.rows (.sram 2056)).IsNexthop := by
    decide +kernel
  obtain ⟨r, hr, hfields⟩ : ∃ r ∈ s.routes.list, (r.addr, r.resolved, r.nh.l2Id) =
    (1, true, 2056) := by
    rw [← List.mem_map, hlist]
    exact mem_cons_self
  simp only [Prod.mk.injEq] at hfields
  obtain ⟨haddr, hres, hid⟩ := hfields
  apply hrow
  rw [← hid]
  apply hdel.others r hr hres
  intro own hsome haddr'
  rw [hsome, map_some, ← haddr', haddr] at hown
  cases hown

def otherGateway : FibEntry where
  dst := 0x0a020000
  dstLen := 16
  gw4 := 0x0a000002

theorem fib4_del_independent_two_gateways :
    Each (Offload.step pieInitBlocks 28) (Offload.DeletesAlone pieInitBlocks 28) blankOffload
      [.fib4Add firstNet true 0 (some gatewayMac),
        .fib4Add otherGateway true 0 (some ⟨0x02, 0, 0, 0, 0, 2⟩), .fib4Del firstNet] :=
  fib4_del_independent blankOffload rfl blankSwitch_sane _ (by decide +kernel)

end SourceMaster.Realtek
