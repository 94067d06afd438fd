import SourceMaster.Lib.Runs
import Mathlib.Algebra.Group.Nat.Defs
import Mathlib.Data.Fin.Tuple.Basic
import Mathlib.Data.Set.Insert

/-!
# The VLAN tables of an RTL8366 switch

A port selects one of a few member configurations (MC), which hold a copy of the entry of their VID
in the table of all 4096 VLANs. The driver takes an MC without VID and members for a free one. This
is also what the MC of VID 0 looks like: a port that was given the PVID 0 may select a free MC, and
loses it to the next VID that needs one (`vlan_tables_iff`).
-/

namespace SourceMaster.Rtl8366

open Runs Function Option Set Fin

/-! ## The driver -/

structure Vlan4k where
  member : Nat
  untag : Nat
  fid : Nat

structure VlanMc where
  vid : Nat
  priority : Nat
  member : Nat
  untag : Nat
  fid : Nat

/-- The tables of the switch. The registers can be read and written at any time. -/
structure Smi (ports entries : Nat) where
  vlan4k : Nat → Vlan4k
  vlanMc : Fin entries → VlanMc
  mcIndex : Fin ports → Fin entries

namespace Smi

variable {ports entries : Nat}

section

variable (s : Smi ports entries)

def mcIsUsed (i : Fin entries) : Bool := (find? fun port => s.mcIndex port = i).isSome

def findVid (vid : Nat) : Option (Fin entries) :=
  find? fun i => vid = (s.vlanMc i).vid

def findEmpty : Option (Fin entries) :=
  find? fun i => (s.vlanMc i).vid = 0 ∧ (s.vlanMc i).member = 0

def findUnused : Option (Fin entries) := find? fun i => !s.mcIsUsed i

def setVlan (vid member untag fid : Nat) : Smi ports entries :=
  { s with
    vlan4k := update s.vlan4k vid ⟨member, untag, fid⟩
    vlanMc :=
      match s.findVid vid with
      | none => s.vlanMc
      | some i => update s.vlanMc i { s.vlanMc i with member, untag, fid } }

def getPvid (port : Fin ports) : Nat := (s.vlanMc (s.mcIndex port)).vid

def setMcIndex (port : Fin ports) (i : Fin entries) : Smi ports entries :=
  { s with mcIndex := update s.mcIndex port i }

/-- Updates an MC from the VLANs. Its priority is that of the MC read last. -/
def loadMc (i : Fin entries) (vid priority : Nat) : Smi ports entries :=
  let v := s.vlan4k vid
  { s with vlanMc := update s.vlanMc i ⟨vid, priority, v.member, v.untag, v.fid⟩ }

def setPvid (port : Fin ports) (vid : Nat) : Option (Smi ports entries) :=
  match s.findVid vid with
  | some i => some (s.setMcIndex port i)
  | none =>
    match s.findEmpty with
    | some i => some ((s.loadMc i vid (s.vlanMc i).priority).setMcIndex port i)
    | none =>
      match s.findUnused with
      | some i =>
        let last : Fin entries := ⟨entries - 1, by have := i.isLt; omega⟩
        some ((s.loadMc i vid (s.vlanMc last).priority).setMcIndex port i)
      | none => none

def resetVlan : Smi ports entries := { s with vlanMc := fun _ => ⟨0, 0, 0, 0, 0⟩ }

end

def portMask (ports cpuPort : Nat) (port : Fin ports) : Nat :=
  if port.val = cpuPort then 2 ^ ports - 1 else 2 ^ port.val ||| 2 ^ cpuPort

def initPort (cpuPort : Nat) (s : Smi ports entries) (port : Fin ports) :
    Option (Smi ports entries) :=
  let mask := portMask ports cpuPort port
  (s.setVlan (port + 1) mask mask 0).setPvid port (port + 1)

def initVlan (cpuPort : Nat) (s : Smi ports entries) : Option (Smi ports entries) :=
  (List.finRange ports).foldlM (initPort cpuPort) s.resetVlan

def initPvid (port : Fin ports) : Nat := port + 1

end Smi

/-! ## Calls of the driver -/

inductive Call (ports : Nat)
  | setVlan (vid member untag fid : Nat)
  | setPvid (port : Fin ports) (vid : Nat)

structure Machine (ports entries : Nat) where
  smi : Smi ports entries
  last : Fin ports → Nat

variable {ports entries : Nat}

/-- A call that fails leaves the tables as they are. -/
def Machine.step (m : Machine ports entries) : Call ports → Machine ports entries
  | .setVlan vid member untag fid => { m with smi := m.smi.setVlan vid member untag fid }
  | .setPvid port vid =>
    match m.smi.setPvid port vid with
    | none => m
    | some smi => { smi, last := update m.last port vid }

def VlanMc.CopyOf (e : VlanMc) (v : Vlan4k) : Prop :=
  e.member = v.member ∧ e.untag = v.untag ∧ e.fid = v.fid

namespace Smi

def Current (s : Smi ports entries) (i : Fin entries) : Prop :=
  (s.vlanMc i).CopyOf (s.vlan4k (s.vlanMc i).vid)

end Smi

def Machine.Matches (m : Machine ports entries) : Prop :=
  ∀ port, m.smi.getPvid port = m.last port ∧ m.smi.Current (m.smi.mcIndex port)

/-- The first MC of VID 0 is a copy of its VLAN when a port gets this PVID, and the MC taken as
empty is not selected by another port. -/
def Machine.Safe (m : Machine ports entries) : Call ports → Prop
  | .setVlan _ _ _ _ => True
  | .setPvid port vid =>
    (∀ i, vid = 0 → m.smi.findVid 0 = some i → m.smi.Current i) ∧
      ∀ i, m.smi.findVid vid = none → m.smi.findEmpty = some i → ∀ p, p ≠ port → m.smi.mcIndex p ≠ i

/-! ## The invariant -/

namespace Smi

variable {s : Smi ports entries} {settled : Set (Fin ports)} {last : Fin ports → Nat} {vid : Nat}
  {i : Fin entries} {port : Fin ports}

/-- Every MC with a VID is a copy of its VLAN, and settled ports select that of their PVID. -/
structure Inv (settled : Set (Fin ports)) (s : Smi ports entries) (last : Fin ports →
    Nat) : Prop where
  current : ∀ i, (s.vlanMc i).vid ≠ 0 → s.Current i
  unique : ∀ i j, (s.vlanMc i).vid = (s.vlanMc j).vid → (s.vlanMc i).vid ≠ 0 → i = j
  pvid : ∀ port ∈ settled, s.getPvid port = last port
  selected : ∀ port ∈ settled, s.Current (s.mcIndex port)
  /-- The PVID 0 stands for the first MC of VID 0. -/
  first : ∀ port ∈ settled, s.getPvid port = 0 → ∀ i < s.mcIndex port, (s.vlanMc i).vid ≠ 0

lemma findVid_eq_some :
    s.findVid vid = some i ↔ (s.vlanMc i).vid = vid ∧ ∀ j < i, (s.vlanMc j).vid ≠ vid := by
  simp only [findVid, find?_eq_some_iff, decide_eq_true_eq, decide_eq_false_iff_not,
    eq_comm (a := vid), ne_eq]

lemma findVid_eq_none : s.findVid vid = none ↔ ∀ i, (s.vlanMc i).vid ≠ vid := by
  simp only [findVid, find?_eq_none_iff, decide_eq_false_iff_not, eq_comm (a := vid), ne_eq]

lemma findEmpty_vid (h : s.findEmpty = some i) : (s.vlanMc i).vid = 0 := by
  have hp := eq_true_of_find?_eq_some h
  simp only [decide_eq_true_eq] at hp
  exact hp.1

lemma findUnused_mcIndex (h : s.findUnused = some i) (p : Fin ports) : s.mcIndex p ≠ i := by
  have hp := eq_true_of_find?_eq_some h
  simp only [mcIsUsed, Bool.not_eq_eq_eq_not, Bool.not_true, isSome_eq_false_iff,
    isNone_iff_eq_none, find?_eq_none_iff, decide_eq_false_iff_not] at hp
  exact hp p

variable {s' : Smi ports entries} {cpuPort : Nat} (priority : Nat)

lemma vlanMc_loadMc_self : (s.loadMc i vid priority).vlanMc i =
    ⟨vid, priority, (s.vlan4k vid).member, (s.vlan4k vid).untag, (s.vlan4k vid).fid⟩ :=
  update_self _ _ _

lemma vlanMc_loadMc_of_ne {j : Fin entries} (hj : j ≠ i) (priority : Nat) :
    (s.loadMc i vid priority).vlanMc j = s.vlanMc j :=
  update_of_ne hj _ _

lemma mcIndex_setMcIndex_self : (s.setMcIndex port i).mcIndex port = i := update_self _ _ _

lemma mcIndex_setMcIndex_of_ne {p : Fin ports} (hp : p ≠ port) :
    (s.setMcIndex port i).mcIndex p = s.mcIndex p :=
  update_of_ne hp _ _

lemma Inv.setVlan (h : s.Inv settled last) (vid member untag fid : Nat) :
    (s.setVlan vid member untag fid).Inv settled last := by
  have hvid : ∀ j, ((s.setVlan vid member untag fid).vlanMc j).vid = (s.vlanMc j).vid := by
    intro j
    unfold Smi.setVlan
    cases hfind : s.findVid vid with
    | none => rfl
    | some i =>
      by_cases hji : j = i
      · subst hji
        simp
      · simp [update_of_ne hji]
  -- the MC is updated with its VLAN, if it is the first one of the VID
  have hcurrent : ∀ j, s.Current j →
    (∀ i, s.findVid vid = some i → (s.vlanMc j).vid = vid → j = i) →
      (s.setVlan vid member untag fid).Current j := by
    intro j hj hfirst
    unfold Current VlanMc.CopyOf at hj ⊢
    unfold Smi.setVlan
    cases hfind : s.findVid vid with
    | none =>
      have hne := findVid_eq_none.1 hfind j
      simp [update_of_ne hne, hj]
    | some i =>
      have hi := findVid_eq_some.1 hfind
      by_cases hji : j = i
      · subst hji
        simp [hi.1]
      · have hne : (s.vlanMc j).vid ≠ vid := fun heq => hji (hfirst i hfind heq)
        simp [update_of_ne hji, update_of_ne hne, hj]
  refine ⟨fun j hj => ?_, fun i j heq hne => ?_, fun port hport => ?_, fun port hport => ?_,
    fun port hport hzero j hj => ?_⟩
  · rw [hvid] at hj
    refine hcurrent j (h.current j hj) fun i hfind heq => ?_
    exact h.unique j i (heq.trans (findVid_eq_some.1 hfind).1.symm) hj
  · rw [hvid, hvid] at heq
    rw [hvid] at hne
    exact h.unique i j heq hne
  · rw [getPvid, hvid]
    exact h.pvid port hport
  · refine hcurrent _ (h.selected port hport) fun i hfind heq => ?_
    obtain ⟨hi, hbefore⟩ := findVid_eq_some.1 hfind
    by_cases hzero : vid = 0
    · -- both are the first MC of VID 0
      subst hzero
      have hnotlt : ¬ i < s.mcIndex port := fun hlt => h.first port hport heq i hlt hi
      have hnotgt : ¬ s.mcIndex port < i := fun hlt => hbefore _ hlt heq
      exact le_antisymm (not_lt.1 hnotlt) (not_lt.1 hnotgt)
    · exact h.unique _ i (heq.trans hi.symm) (heq ▸ hzero)
  · rw [getPvid, hvid] at hzero
    rw [hvid]
    exact h.first port hport hzero j hj

lemma Inv.select (h : s.Inv settled last) (hfind : s.findVid vid = some i) (hzero : vid = 0 →
    s.Current i) : (s.setMcIndex port i).Inv (insert port settled) (update last port vid) := by
  obtain ⟨hi, hbefore⟩ := findVid_eq_some.1 hfind
  have hcurrent : s.Current i := by
    by_cases hv : vid = 0
    · exact hzero hv
    · exact h.current i (hi ▸ hv)
  refine ⟨h.current, h.unique, ?_, ?_, ?_⟩
  · intro p hp
    by_cases heq : p = port
    · subst heq
      rw [getPvid, mcIndex_setMcIndex_self, update_self]
      exact hi
    · rw [getPvid, mcIndex_setMcIndex_of_ne heq, update_of_ne heq]
      exact h.pvid p (hp.resolve_left heq)
  · intro p hp
    by_cases heq : p = port
    · subst heq
      rw [mcIndex_setMcIndex_self]
      exact hcurrent
    · rw [mcIndex_setMcIndex_of_ne heq]
      exact h.selected p (hp.resolve_left heq)
  · intro p hp
    by_cases heq : p = port
    · subst heq
      rw [getPvid, mcIndex_setMcIndex_self]
      intro hv j hj
      obtain rfl : vid = 0 := hi.symm.trans hv
      exact hbefore j hj
    · rw [getPvid, mcIndex_setMcIndex_of_ne heq]
      exact h.first p (hp.resolve_left heq)

lemma Inv.mono {settled' : Set (Fin ports)} (h : s.Inv settled last) (hsub : settled' ⊆ settled) :
    s.Inv settled' last where
  current := h.current
  unique := h.unique
  pvid p hp := h.pvid p (hsub hp)
  selected p hp := h.selected p (hsub hp)
  first p hp := h.first p (hsub hp)

lemma Inv.loadMc (h : s.Inv settled last) (hnone : s.findVid vid = none)
    (hfree : ∀ p ∈ settled, s.mcIndex p ≠ i) (priority : Nat) :
    (s.loadMc i vid priority).Inv settled last := by
  have hnew := findVid_eq_none.1 hnone
  have hcurrent : ∀ j, j ≠ i → s.Current j → (s.loadMc i vid priority).Current j := by
    intro j hj hcur
    rw [Current, vlanMc_loadMc_of_ne hj]
    exact hcur
  refine ⟨fun j hj => ?_, fun j l heq hne => ?_, fun p hp => ?_, fun p hp => ?_,
    fun p hp hzero j hj => ?_⟩
  · by_cases hji : j = i
    · subst hji
      rw [Current, vlanMc_loadMc_self]
      exact ⟨rfl, rfl, rfl⟩
    · rw [vlanMc_loadMc_of_ne hji] at hj
      exact hcurrent j hji (h.current j hj)
  · by_cases hji : j = i
    · by_cases hli : l = i
      · rw [hji, hli]
      · rw [hji, vlanMc_loadMc_self, vlanMc_loadMc_of_ne hli] at heq
        exact absurd heq.symm (hnew l)
    · rw [vlanMc_loadMc_of_ne hji] at heq hne
      by_cases hli : l = i
      · rw [hli, vlanMc_loadMc_self] at heq
        exact absurd heq (hnew j)
      · rw [vlanMc_loadMc_of_ne hli] at heq
        exact h.unique j l heq hne
  · show ((s.loadMc i vid priority).vlanMc (s.mcIndex p)).vid = last p
    rw [vlanMc_loadMc_of_ne (hfree p hp)]
    exact h.pvid p hp
  · exact hcurrent _ (hfree p hp) (h.selected p hp)
  · change ((s.loadMc i vid priority).vlanMc (s.mcIndex p)).vid = 0 at hzero
    rw [vlanMc_loadMc_of_ne (hfree p hp)] at hzero
    by_cases hji : j = i
    · -- the new VID is not 0, as a port selects an MC of VID 0
      rw [hji, vlanMc_loadMc_self]
      rintro rfl
      exact hnew _ hzero
    · rw [vlanMc_loadMc_of_ne hji]
      exact h.first p hp hzero j hj

lemma findVid_loadMc (hnone : s.findVid vid = none) (priority : Nat) :
    (s.loadMc i vid priority).findVid vid = some i := by
  have hnew := findVid_eq_none.1 hnone
  refine findVid_eq_some.2 ⟨?_, fun j hj => ?_⟩
  · rw [vlanMc_loadMc_self]
  · rw [vlanMc_loadMc_of_ne hj.ne]
    exact hnew j

lemma current_loadMc : (s.loadMc i vid priority).Current i := by
  rw [Current, vlanMc_loadMc_self]
  exact ⟨rfl, rfl, rfl⟩

lemma Inv.load (h : s.Inv settled last) (hnone : s.findVid vid = none)
    (hfree : ∀ p ∈ settled, p ≠ port → s.mcIndex p ≠ i) (priority : Nat) :
    ((s.loadMc i vid priority).setMcIndex port i).Inv (insert port settled)
    (update last port vid) := by
  have hrest : s.Inv (settled \ {port}) last := h.mono sdiff_subset
  have hloaded := hrest.loadMc hnone (fun p hp => hfree p hp.1 hp.2) priority
  have hselect : ((s.loadMc i vid priority).setMcIndex port i).Inv (insert port (settled \ {port}))
      (update last port vid) :=
    hloaded.select (findVid_loadMc hnone priority) fun _ => current_loadMc priority
  rwa [insert_sdiff_singleton] at hselect

lemma setPvid_cases (h : s.setPvid port vid = some s') :
    (∃ i, s.findVid vid = some i ∧ s' = s.setMcIndex port i) ∨
    s.findVid vid = none ∧ ∃ i priority, s' = (s.loadMc i vid priority).setMcIndex port i ∧
      (s.findEmpty = some i ∨ ∀ p, s.mcIndex p ≠ i) := by
  unfold setPvid at h
  split at h
  next i hi => exact .inl ⟨i, hi, (some.inj h).symm⟩
  next hnone =>
    refine .inr ⟨hnone, ?_⟩
    split at h
    next i hi => exact ⟨i, _, (some.inj h).symm, .inl hi⟩
    next =>
      split at h
      next i hi => exact ⟨i, _, (some.inj h).symm, .inr (findUnused_mcIndex hi)⟩
      next => cases h

/-! ## The initial VLANs -/

lemma inv_resetVlan : s.resetVlan.Inv ∅ last :=
  ⟨fun _ h => absurd rfl h, fun _ _ _ h => absurd rfl h, fun _ h => h.elim, fun _ h => h.elim,
    fun _ h => h.elim⟩

lemma Inv.initPort (h : s.Inv settled initPvid) (hs : s.initPort cpuPort port = some s') :
    s'.Inv (insert port settled) initPvid := by
  have hlast : update initPvid port (port.val + 1) = initPvid := update_eq_self port _
  have hvlan := h.setVlan (port + 1) (portMask ports cpuPort port) (portMask ports cpuPort port) 0
  obtain ⟨i, hfind, rfl⟩ | ⟨hnone, i, priority, rfl, hfree⟩ := setPvid_cases hs
  · exact hlast ▸ hvlan.select hfind (by omega)
  refine hlast ▸ hvlan.load hnone (fun p hp _ hi => ?_) priority
  obtain hempty | hfree := hfree
  · -- a settled port has a PVID that is not 0
    have hpvid := hvlan.pvid p hp
    rw [getPvid, hi, findEmpty_vid hempty, initPvid] at hpvid
    omega
  · exact hfree p hi

lemma Inv.initPorts (ps : List (Fin ports)) (h : s.Inv settled initPvid)
    (hs : ps.foldlM (Smi.initPort cpuPort) s = some s') :
    s'.Inv (settled ∪ {p | p ∈ ps}) initPvid := by
  induction ps generalizing s settled with
  | nil =>
    obtain rfl : s = s' := by simpa using hs
    simpa using h
  | cons p ps ih =>
    obtain ⟨s₁, hs₁, hs₂⟩ := bind_eq_some_iff.1 hs
    refine (ih (h.initPort hs₁) hs₂).mono ?_
    rintro q (hq | hq)
    · exact .inl (.inr hq)
    · obtain rfl | hq := List.mem_cons.1 hq
      · exact .inl (.inl rfl)
      · exact .inr hq

lemma inv_initVlan (hs : s.initVlan cpuPort = some s') : s'.Inv univ initPvid :=
  (inv_resetVlan.initPorts _ hs).mono fun port _ => .inr (List.mem_finRange port)

end Smi

/-! ## Runs -/

namespace Machine

variable {m : Machine ports entries}

def Inv (m : Machine ports entries) : Prop := m.smi.Inv univ m.last

lemma Inv.matches (h : m.Inv) : m.Matches :=
    fun port => ⟨h.pvid port trivial, h.selected port trivial⟩

lemma Inv.step (h : m.Inv) (c : Call ports) (hsafe : m.Safe c) : (m.step c).Inv := by
  cases c with
  | setVlan vid member untag fid => exact Smi.Inv.setVlan h vid member untag fid
  | setPvid port vid =>
    rw [Machine.step]
    split
    next => exact h
    next smi hset =>
      have huniv : insert port univ = (univ : Set (Fin ports)) := insert_eq_of_mem trivial
      obtain ⟨i, hfind, rfl⟩ | ⟨hnone, i, priority, rfl, hfree⟩ := Smi.setPvid_cases hset
      · have hzero : vid = 0 → m.smi.Current i := fun hv => hsafe.1 i hv (hv ▸ hfind)
        have hselect : (m.smi.setMcIndex port i).Inv (insert port univ)
            (update m.last port vid) := Smi.Inv.select h hfind hzero
        rwa [huniv] at hselect
      · have hload : ((m.smi.loadMc i vid priority).setMcIndex port i).Inv (insert port univ)
            (update m.last port vid) := Smi.Inv.load h hnone (fun p _ hp => ?_) priority
        · rwa [huniv] at hload
        obtain hempty | hfree := hfree
        · exact hsafe.2 i hnone hempty p hp
        · exact hfree p

lemma step_setPvid {port : Fin ports} {vid : Nat} {smi : Smi ports entries}
    (h : m.smi.setPvid port vid = some smi) :
    m.step (.setPvid port vid) = ⟨smi, update m.last port vid⟩ := by
  rw [Machine.step, h]

lemma Inv.not_matches (h : m.Inv) (c : Call ports) (hnot : ¬ m.Safe c) :
    ¬ (m.step c).Matches := by
  cases c with
  | setVlan vid member untag fid => exact absurd trivial hnot
  | setPvid port vid =>
    rw [Safe, not_and_or] at hnot
    push Not at hnot
    intro hmatches
    obtain ⟨i, rfl, hfind, hold⟩ | ⟨i, hnone, hempty, p, hp, hi⟩ := hnot
    · have hset : m.smi.setPvid port 0 = some (m.smi.setMcIndex port i) := by
        rw [Smi.setPvid, hfind]
      rw [step_setPvid hset] at hmatches
      have hcurrent := (hmatches port).2
      rw [Smi.mcIndex_setMcIndex_self] at hcurrent
      exact hold hcurrent
    · -- the other port loses its PVID 0
      have hset : m.smi.setPvid port vid =
          some ((m.smi.loadMc i vid (m.smi.vlanMc i).priority).setMcIndex port i) := by
        rw [Smi.setPvid, hnone, hempty]
      rw [step_setPvid hset] at hmatches
      have hbefore := h.pvid p trivial
      rw [Smi.getPvid, hi, Smi.findEmpty_vid hempty] at hbefore
      have hafter := (hmatches p).1
      rw [Smi.getPvid, Smi.mcIndex_setMcIndex_of_ne hp] at hafter
      change ((m.smi.loadMc i vid (m.smi.vlanMc i).priority).vlanMc (m.smi.mcIndex p)).vid =
        update m.last port vid p at hafter
      rw [hi, Smi.vlanMc_loadMc_self, update_of_ne hp, ← hbefore] at hafter
      obtain rfl : vid = 0 := hafter
      exact Smi.findVid_eq_none.1 hnone i (Smi.findEmpty_vid hempty)

end Machine

/-- After the initial VLANs, the tables match in every state iff all calls are safe. -/
theorem vlan_tables_iff (cpuPort : Nat) (s₀ s : Smi ports entries)
    (hinit : s₀.initVlan cpuPort = some s)
    (calls : List (Call ports)) : Always Machine.step Machine.Matches ⟨s, Smi.initPvid⟩ calls ↔
      Each Machine.step Machine.Safe ⟨s, Smi.initPvid⟩ calls :=
  always_iff_each (D := fun _ => True) (fun _ => Machine.Inv.matches)
    (fun _ c _ h => Machine.Inv.step h c)
    (fun _ c _ h => Machine.Inv.not_matches h c) calls (fun _ _ => trivial) (Smi.inv_initVlan hinit)

def blank : Smi 2 3 where
  vlan4k _ := ⟨0, 0, 0⟩
  vlanMc _ := ⟨0, 0, 0, 0, 0⟩
  mcIndex _ := 0

theorem vlan_tables_iff_blank : ∃ s, blank.initVlan 1 = some s ∧
    (Always Machine.step Machine.Matches ⟨s, Smi.initPvid⟩ [.setVlan 7 3 1 0, .setPvid 0 7] ↔
      Each Machine.step Machine.Safe ⟨s, Smi.initPvid⟩ [.setVlan 7 3 1 0, .setPvid 0 7]) := by
  obtain ⟨s, hs⟩ : ∃ s, blank.initVlan 1 = some s := isSome_iff_exists.1 (by decide +kernel)
  exact ⟨s, hs, vlan_tables_iff 1 blank s hs _⟩

/-- The first port is given the PVID 0 and then has the PVID of the second one. -/
theorem pvid_zero_is_lost : ∃ s, blank.initVlan 1 = some s ∧
    ¬ Always Machine.step Machine.Matches ⟨s, Smi.initPvid⟩ [.setPvid 0 0, .setPvid 1 5] := by
  obtain ⟨s, hs⟩ : ∃ s, blank.initVlan 1 = some s := isSome_iff_exists.1 (by decide +kernel)
  refine ⟨s, hs, fun h => ?_⟩
  have hpvid := (h.last 0).1
  obtain rfl : (blank.initVlan 1).get (by decide +kernel) = s := get_of_eq_some _ hs
  revert hpvid
  decide +kernel

end SourceMaster.Rtl8366
