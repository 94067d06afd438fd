import SourceMaster.Realtek.Routes
import SourceMaster.Realtek.HostRoutes

/-!
# Routes over whole runs

`rtl83xx_route_alloc` and `rtl83xx_host_route_alloc` take the first free id of two bitmaps. They do
not look at whether there is one, so that the 513th prefix route gets an id of the host routes
(`route_ids_iff`). `rtl83xx_route_rm` is to take a host route out of the table of the RTL930x by
writing it there as invalid, but `rtl930x_host_route_write` makes every entry valid
(`host_entry_removed_iff`).
-/

namespace SourceMaster.Realtek

open Switch Runs Function List Option HostTable Nat

def MAX_HOST_ROUTES : Nat := 1536

/-- The number of ids for prefix routes and for host routes, and the first of them. -/
def maxIds (host : Bool) : Nat := if host then MAX_HOST_ROUTES else MAX_ROUTES

def firstId (host : Bool) : Nat := if host then MAX_ROUTES else 0

/-- `is_host_route`; `hasHost`: the family has `host_route_write`, as the RTL930x. -/
def Route.isHostRoute (hasHost : Bool) (r : Route) : Bool := hasHost && r.prefixLen == 32

def FibEntry.host (hasHost : Bool) (info : FibEntry) : Bool := hasHost && info.dstLen == 32

/-- The routes and the ids in use: `route_use_bm`, and behind it `host_route_use_bm`. -/
structure RouteIds where
  routes : Routes
  used : Nat → Bool

/-- What `rtl83xx_fib4_add` returns for an entry it does not take. -/
def FibEntry.refused (info : FibEntry) : Option Int :=
  if info.dst = 0 then some 0
  else if info.port < 0 then some (-1)
  else if info.dst &&& 0xff = 0xff then some 0
  else if info.dst &&& 0xffffff00 = 0xc0a86400 then some 0
  else if info.dst &&& 0xff000000 = 0x7f000000 then some 0
  else none

inductive FibEvent
  /-- with the results of `kzalloc` and `rhltable_insert` -/
  | add (info : FibEntry) (allocated : Bool) (insertErr : Int)
  | del (info : FibEntry)

namespace RouteIds

variable (hasHost : Bool)

section

variable (s : RouteIds)

def newId (host : Bool) : Nat :=
  findFirstZeroBit (fun i => s.used (i + firstId host)) (maxIds host) + firstId host

def victim (info : FibEntry) : Option Route :=
  let list := s.routes.lookup info.gw4
  (list.find? fun r => r.dstIp == info.dst && r.prefixLen == info.dstLen).or list.getLast?

/-- `rtl83xx_fib4_add` and `rtl83xx_fib4_del`. The rest of an addition changes no id and keeps the
route if it fails. -/
def fib4 : FibEvent → Int × RouteIds
  | .add info allocated insertErr =>
    match info.refused with
    | some ret => (ret, s)
    | none =>
      let id := s.newId (info.host hasHost)
      if !allocated || insertErr != 0 then (-1, s)
      else (0, ⟨s.routes.insert (info.route id), update s.used id true⟩)
  | .del info =>
    match s.victim info with
    | none => (-ENOENT, s)
    | some r => (0, ⟨s.routes.remove r.addr, update s.used r.id false⟩)

def step (e : FibEvent) : RouteIds := (s.fib4 hasHost e).2

structure Valid (s : RouteIds) : Prop where
  nodup : (s.routes.list.map Route.id).Nodup
  range : ∀ r ∈ s.routes.list, firstId (r.isHostRoute hasHost) ≤ r.id ∧
    r.id < firstId (r.isHostRoute hasHost) + maxIds (r.isHostRoute hasHost)

def HasFree : FibEvent → Prop
  | .add info allocated insertErr => info.refused = none → allocated → insertErr = 0 →
    ∃ i < maxIds (info.host hasHost), s.used (i + firstId (info.host hasHost)) = false
  | .del _ => True

end

structure Inv (s : RouteIds) : Prop extends Valid hasHost s where
  used : ∀ r ∈ s.routes.list, s.used r.id

variable {hasHost} {s : RouteIds} {n : Nat} {r : Route}

lemma findFirstZeroBit_lt {bm : Nat → Bool} (h : ∃ i < n, bm i = false) :
    findFirstZeroBit bm n < n := by
  obtain ⟨i, hi, hfree⟩ := h
  unfold findFirstZeroBit
  cases hfind : (range n).find? fun i => !bm i with
  | none => simpa [hfree] using find?_eq_none.1 hfind i (mem_range.2 hi)
  | some j => exact mem_range.1 (mem_of_find?_eq_some hfind)

lemma Inv.add (h : Inv hasHost s) (info : FibEntry)
    (hfree : ∃ i < maxIds (info.host hasHost), s.used (i + firstId (info.host hasHost)) = false) :
    Inv hasHost ⟨s.routes.insert (info.route (s.newId (info.host hasHost))),
      update s.used (s.newId (info.host hasHost)) true⟩ := by
  have hlt := findFirstZeroBit_lt hfree
  have hzero : s.used (s.newId (info.host hasHost)) = false := findFirstZeroBit_eq_false hlt
  have hrange : s.newId (info.host hasHost) < firstId (info.host hasHost) + maxIds
    (info.host hasHost) := by
    unfold newId
    omega
  have hge : firstId (info.host hasHost) ≤ s.newId (info.host hasHost) := le_add_left _ _
  generalize s.newId (info.host hasHost) = id at hzero hrange hge ⊢
  have hnew : ∀ r ∈ s.routes.list, r.id ≠ id := by
    rintro r hr rfl
    rw [h.used r hr] at hzero
    cases hzero
  refine ⟨⟨nodup_cons.2 ⟨fun hmem => ?_, h.nodup⟩, fun r hr => ?_⟩, fun r hr => ?_⟩
  · obtain ⟨r, hr, heq⟩ := List.mem_map.1 hmem
    exact hnew r hr heq
  · obtain rfl | hr := mem_cons.1 hr
    · exact ⟨hge, hrange⟩
    · exact h.range r hr
  · obtain rfl | hr := mem_cons.1 hr
    · exact update_self ..
    · exact (update_of_ne (hnew r hr) ..).trans (h.used r hr)

lemma victim_mem {info : FibEntry} (h : s.victim info = some r) : r ∈ s.routes.list := by
  obtain hown | ⟨-, hlast⟩ := or_eq_some_iff.1 h
  · exact (mem_filter.1 (mem_of_find?_eq_some hown)).1
  · exact (mem_filter.1 (mem_of_getLast? hlast)).1

lemma Inv.del (h : Inv hasHost s) (hr : r ∈ s.routes.list) :
    Inv hasHost ⟨s.routes.remove r.addr, update s.used r.id false⟩ := by
  have hsub : ∀ r' ∈ (s.routes.remove r.addr).list, r' ∈ s.routes.list ∧ r'.id ≠ r.id := by
    intro r' hr'
    obtain ⟨hmem, hne⟩ := mem_filter.1 hr'
    refine ⟨hmem, fun heq => ?_⟩
    rw [inj_on_of_nodup_map h.nodup hmem hr heq] at hne
    simp at hne
  refine ⟨⟨h.nodup.sublist (filter_sublist.map _), fun r' hr' => h.range r' (hsub r' hr').1⟩,
    fun r' hr' => ?_⟩
  obtain ⟨hmem, hne⟩ := hsub r' hr'
  exact (update_of_ne hne ..).trans (h.used r' hmem)

lemma Inv.step (h : Inv hasHost s) (e : FibEvent) (hfree : s.HasFree hasHost e) :
    Inv hasHost (s.step hasHost e) := by
  unfold RouteIds.step fib4
  cases e with
  | add info allocated insertErr =>
    dsimp only
    split
    next => exact h
    next hnone =>
      split
      next => exact h
      next hok =>
        have hok' : allocated ∧ insertErr = 0 := by simpa using hok
        exact h.add info (hfree hnone hok'.1 hok'.2)
  | del info =>
    dsimp only
    cases hvictim : s.victim info with
    | none => exact h
    | some r => exact h.del (victim_mem hvictim)

/-- From a state without routes, the ids are right after every event, and an addition without a free
id fails, exactly if there always is one. -/
theorem route_ids_iff (hasHost : Bool) (s : RouteIds) (hs : s.routes.list = [])
    (es : List FibEvent) :
    Each (step hasHost) (fun s e => Valid hasHost (s.step hasHost e) ∧
      (¬ s.HasFree hasHost e → (s.fib4 hasHost e).1 ≠ 0)) s es ↔
      Each (step hasHost) (HasFree hasHost) s es := by
  have hinit : Inv hasHost s := by
    refine ⟨⟨?_, ?_⟩, ?_⟩ <;> simp [hs]
  refine each_iff_each (fun s e h hfree => h.step e hfree) (fun s e h => ⟨?_, fun hfree => ?_⟩) es
    hinit
  · rintro ⟨-, hfails⟩
    by_contra hfull
    refine hfails hfull ?_
    cases e with
    | del => exact absurd trivial hfull
    | add info allocated insertErr =>
      unfold HasFree at hfull
      push Not at hfull
      obtain ⟨hnone, hmem, hinsert, -⟩ := hfull
      simp [fib4, hnone, hmem, hinsert]
  · exact ⟨(h.step e hfree).toValid, fun hfull => absurd hfree hfull⟩

def empty : RouteIds := ⟨⟨[], 0, nodup_nil, lt_next_nil⟩, fun _ => false⟩

def prefixInfo : FibEntry := { dst := 0x0a000100, dstLen := 24, gw4 := 0x0a000001 }

lemma step_prefixInfo (s : RouteIds) : s.fib4 true (.add prefixInfo true 0) =
    (0, ⟨s.routes.insert (prefixInfo.route (s.newId false)),
      update s.used (s.newId false) true⟩) := by
  have hnone : prefixInfo.refused = none := by decide
  unfold fib4
  dsimp only
  rfl

lemma newId_of_used (h : n ≤ MAX_ROUTES) (hused : ∀ i, s.used i = decide (i < n)) :
    s.newId false = n := by
  have hmax : maxIds false = MAX_ROUTES := rfl
  have hfirst : firstId false = 0 := rfl
  unfold newId findFirstZeroBit
  rw [hmax, hfirst, add_zero]
  by_cases hlt : n < MAX_ROUTES
  · rw [find?_range_eq_some.2 ⟨by simp [hused], mem_range.2 hlt, by simp [hused]⟩, getD_some]
  · rw [find?_eq_none.2 fun i hi => ?_, getD_none]
    · exact Nat.le_antisymm (Nat.le_of_not_lt hlt) h
    · have hi : i < n := Nat.lt_of_lt_of_le (mem_range.1 hi) (Nat.le_of_not_lt hlt)
      simpa [hused] using hi

lemma used_prefixInfo (h : n ≤ MAX_ROUTES) (i : Nat) :
    ((replicate n (.add prefixInfo true 0)).foldl (step true) empty).used i = decide (i < n) := by
  induction n generalizing i with
  | zero => simp [empty]
  | succ n ih =>
    have hused := ih (le_of_succ_le h)
    rw [replicate_succ', foldl_append, foldl_cons, foldl_nil, step, step_prefixInfo,
      newId_of_used (le_of_succ_le h) hused]
    by_cases hi : i = n
    · simp [hi]
    · refine (update_of_ne hi ..).trans ?_
      rw [hused, decide_eq_decide]
      omega

/-- After 512 prefix routes, one more is added with the id 512. -/
theorem prefix_ids_run_out : let s :=
    (replicate MAX_ROUTES (.add prefixInfo true 0)).foldl (step true) empty
    ¬ s.HasFree true (.add prefixInfo true 0) ∧ (s.fib4 true (.add prefixInfo true 0)).1 = 0 ∧
      ¬ Valid true (s.step true (.add prefixInfo true 0)) := by
  have hused := used_prefixInfo (le_refl MAX_ROUTES)
  refine ⟨fun hfree => ?_, by rw [step_prefixInfo], fun hvalid => ?_⟩
  · obtain ⟨i, hi, hzero⟩ := hfree (by decide) rfl rfl
    rw [hused] at hzero
    exact of_decide_eq_false hzero hi
  · rw [step, step_prefixInfo, newId_of_used (le_refl _) hused] at hvalid
    exact absurd (hvalid.range _ mem_cons_self).2 (lt_irrefl MAX_ROUTES)

/-- A prefix route and a host route come, and the prefix route goes. -/
theorem route_ids_prefix_host : Each (step true) (fun s e => Valid true (s.step true e) ∧
    (¬ s.HasFree true e → (s.fib4 true e).1 ≠ 0)) empty [.add prefixInfo true 0,
      .add { prefixInfo with dst := 0x0a000105, dstLen := 32 } true 0, .del prefixInfo] :=
  (route_ids_iff true empty rfl _).2
    ⟨fun _ _ _ => ⟨0, by decide, rfl⟩,
      fun _ _ _ => ⟨0, by decide, used_prefixInfo (n := 1) (by decide) MAX_ROUTES⟩, trivial,
        trivial⟩

end RouteIds

/-! ## Host routes of the RTL930x -/

def Route.hostRoute (r : Route) : HostRoute where
  dstIp := r.dstIp.toNat
  nhId := if r.gwIp = 0 then 0 else r.id
  -- `ROUTE_ACT_TRAP2CPU` or `ROUTE_ACT_FORWARD`
  attr := { valid := true, action := if r.gwIp = 0 then 1 else 0 }

/-- `host_route_write` to the slot from `find_l3_slot`, which ignores what it reads without
`must_exist`. -/
def HostTable.put (T : HostTable) (rt written : HostRoute) : HostTable :=
  match T.findL3Slot rt false {} with
  | some idx => T.hostRouteWrite idx written
  | none => T

structure HostRoutes extends RouteIds where
  table : HostTable

namespace HostRoutes

/-- The routes that an addition writes: without a gateway the new one, otherwise the host routes
through it.
-/
def written (s : RouteIds) (info : FibEntry) : List Route :=
  if info.gw4 = 0 then (s.routes.lookup info.gw4).take 1
  else (s.routes.lookup info.gw4).filter (Route.isHostRoute true)

section

variable (s : HostRoutes)

def step (e : FibEvent) : HostRoutes where
  toRouteIds := s.toRouteIds.step true e
  table :=
    match e with
    | .add info allocated insertErr =>
      if info.refused.isSome || !allocated || insertErr != 0 then s.table
      else (written (s.toRouteIds.step true e) info).foldl
        (fun T r => T.put r.hostRoute r.hostRoute) s.table
    | .del info =>
      match s.victim info with
      -- `rtl83xx_route_rm`
      | some r => if r.isHostRoute true then s.table.put r.hostRoute
        { r.hostRoute with attr.valid := false } else s.table
      | none => s.table

/-- If a host route is deleted, no entry for its destination is left. -/
def Removed : FibEvent → Prop
  | .add .. => True
  | .del info => ∀ r, s.victim info = some r → r.isHostRoute true →
    ∀ a, ((s.step (.del info)).table.rows a).destination ≠ some r.hostRoute.destination

def KeepsHosts : FibEvent → Prop
  | .add .. => True
  | .del info => ∀ r, s.victim info = some r → r.isHostRoute true = false

lemma destination_put (T : HostTable) (r : Route) :
    ∃ a, ((T.put r.hostRoute { r.hostRoute with attr.valid := false }).rows a).destination =
      some r.hostRoute.destination := by
  have hword : ∀ k < 2048, ∀ n < 2, (1 <<< 31 ||| (n &&& 0x3) <<< 17 ||| k <<< 6).testBit 31 ∧
      (1 <<< 31 ||| (n &&& 0x3) <<< 17 ||| k <<< 6) >>> 29 &&& 0x3 = 0 := by decide +kernel
  have heq : hostWord { r.hostRoute with attr.valid := false } =
      1 <<< 31 ||| ((if r.gwIp = 0 then 1 else 0) &&& 0x3) <<< 17 |||
        (r.hostRoute.nhId &&& 0x7ff) <<< 6 := by
    simp [hostWord, Route.hostRoute, flag]
  obtain ⟨hvalid, htype⟩ :=
    hword (r.hostRoute.nhId &&& 0x7ff) (lt_of_le_of_lt and_le_right (by decide))
    (if r.gwIp = 0 then 1 else 0) (by split <;> decide)
  refine ⟨physical (logical (T.addr r.hostRoute 0 0)), ?_⟩
  show HostRow.destination (update T.rows _ _ _) = _
  rw [update_self, HostRow.destination, heq, if_pos hvalid, htype]
  rfl

/-- No entry is left for a deleted host route exactly if none is deleted. -/
theorem host_entry_removed_iff (es : List FibEvent) :
    Each step Removed s es ↔ Each step KeepsHosts s es := by
  refine @each_iff_each _ _ step (fun _ => True) _ _ (fun _ _ _ _ => trivial)
    (fun s e _ => ?_) es s trivial
  cases e with
  | add => exact Iff.rfl
  | del info =>
    constructor
    · intro hremoved r hr
      by_contra hhost
      have hhost : r.isHostRoute true := by simpa using hhost
      obtain ⟨a, ha⟩ := destination_put s.table r
      refine hremoved r hr hhost a ?_
      simp only [step, hr, hhost, if_true, ha]
    · intro hkeeps r hr hhost
      rw [hkeeps r hr] at hhost
      cases hhost

end

/-- A host route is added and deleted, and its entry stays. -/
theorem deleted_host_stays : let s : HostRoutes := ⟨RouteIds.empty, emptyTable⟩
    let info : FibEntry := { dst := 0xc0a80101, dstLen := 32, gw4 := 0xc0a80001 }
    let s' := [FibEvent.add info true 0, .del info].foldl step s
    s'.routes.list.map Route.id = [] ∧ (s'.table.rows ((physical <| logical <|
      emptyTable.addr firstHost 0 0))).destination = some firstHost.destination := by
  decide +kernel

end HostRoutes

end SourceMaster.Realtek
