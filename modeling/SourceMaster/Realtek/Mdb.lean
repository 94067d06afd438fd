import Mathlib.Data.Finset.Basic
import SourceMaster.Realtek.Fdb

/-!
# The multicast database

An entry for a multicast address holds the index of a row of the port mask table, a *group*.
`rtl83xx_port_mdb_add` allocates a group for the first port of an address and adds further ports to
its mask, `rtl83xx_port_mdb_del` takes ports out and gives the group back with the last one. As in
the forwarding database, an address whose entry stands behind a free row gets a second entry, with a
group of its own (`mdb_splits_ports`). `mdb_is_map_iff` says in which runs this does not happen.
-/

namespace SourceMaster.Realtek

open Switch Probe Runs Function List Option Nat

def EOPNOTSUPP : Int := 95
def EINVAL : Int := 22

def familyId : Nat := 0x8380

namespace Switch

/-! ## Port masks and groups -/

section

variable (sw : Switch)

def readMcastPmask (idx : Nat) : Nat := sw.mcPmask idx

def writeMcastPmask (idx portmask : Nat) : Switch :=
  { sw with mcPmask := update sw.mcPmask idx (u32 portmask &&& 0x1fffffff) }

def MAX_MC_GROUPS : Nat := 512

def findFirstZeroBit (bm : Nat → Bool) (size : Nat) : Nat :=
  ((range size).find? fun i => !bm i).getD size

def mcGroupAlloc (port : Nat) : Option Nat × Switch :=
  let mcGroup := findFirstZeroBit sw.mcGroupBm (MAX_MC_GROUPS - 1)
  if mcGroup ≥ MAX_MC_GROUPS - 1 then
    (none, sw)
  else
    let sw := { sw with mcGroupBm := update sw.mcGroupBm mcGroup true }
    let portmask := 1 <<< port
    (some mcGroup, sw.writeMcastPmask mcGroup portmask)

def mcGroupAddPort (mcGroup port : Nat) : Nat × Switch :=
  let portmask := sw.readMcastPmask mcGroup
  let portmask := portmask ||| 1 <<< port
  (portmask, sw.writeMcastPmask mcGroup portmask)

def mcGroupDelPort (mcGroup port : Nat) : Nat × Switch :=
  let portmask := sw.readMcastPmask mcGroup
  let portmask := portmask &&& ((2 ^ 64 - 1) ^^^ 1 <<< port)
  let sw := sw.writeMcastPmask mcGroup portmask
  if portmask = 0 then
    (portmask, { sw with mcGroupBm := update sw.mcGroupBm mcGroup false })
  else
    (portmask, sw)

/-! ## `rtl83xx_port_mdb_add` and `rtl83xx_port_mdb_del` -/

section

variable (e : L2Entry)

/-- What `rtl83xx_port_mdb_add` does with the row it found; `put` writes to that row. -/
def mdbAddAt (port vid mac : Nat) (put : Switch → L2Entry → Switch) : Int × Switch :=
  if e.valid then
    (0, (sw.mcGroupAddPort e.mcPortmaskIndex port).2)
  else
    match sw.mcGroupAlloc port with
    | (none, sw) => (-ENOTSUPP, sw)
    | (some mcGroup, sw) => (0, put sw (setupL2McEntry vid mac mcGroup))

/-- `rtl83xx_port_mdb_add`; `e` is what the stack holds where the entry is read to. -/
def portMdbAdd (port : Nat) (addr : EtherAddr) (vid : Nat) : Int × Switch :=
  let mac := addr.toU64
  let seed := l2HashSeed mac vid
  if familyId ≥ 0x9300 then
    (-EOPNOTSUPP, sw)
  else if sw.isLagmember port then
    (-EINVAL, sw)
  else
    let (idx, e) := sw.findL2HashEntry seed false e
    match idx with
    | some idx =>
      sw.mdbAddAt e port vid mac fun sw e => sw.writeL2EntryUsingHash (idx >>> 2) (idx &&& 0x3) e
    | none =>
      let (idx, e) := sw.findL2CamEntry seed false e
      match idx with
      | some idx => sw.mdbAddAt e port vid mac fun sw e => sw.writeCam idx e
      | none => (-ENOTSUPP, sw)

def mdbDelAt (port : Nat) (put : Switch → L2Entry → Switch) : Switch :=
  let (portmask, sw) := sw.mcGroupDelPort e.mcPortmaskIndex port
  if portmask = 0 then put sw { e with valid := false } else sw

def portMdbDel (port : Nat) (addr : EtherAddr) (vid : Nat) : Int × Switch :=
  let mac := addr.toU64
  let seed := l2HashSeed mac vid
  if sw.isLagmember port then
    (0, sw)
  else
    let (idx, e) := sw.findL2HashEntry seed true e
    match idx with
    | some idx =>
      (0, sw.mdbDelAt e port fun sw e => sw.writeL2EntryUsingHash (idx >>> 2) (idx &&& 0x3) e)
    | none =>
      let (idx, e) := sw.findL2CamEntry seed true e
      match idx with
      | some idx => (0, sw.mdbDelAt e port fun sw e => sw.writeCam idx e)
      -- not reported: a TODO stands where -ENOENT was
      | none => (0, sw)

end

def Forwards (k : Key) (port : Nat) : Prop :=
  ∃ s ∈ sw.order k, (sw.entry s).IsFor k ∧
    (sw.mcPmask (sw.entry s).mcPortmaskIndex).testBit port

end

end Switch

/-! ## Runs -/

abbrev McKey := { k : Key // k.addr.isMulticast }

inductive MdbCall
  | add (e : L2Entry) (port : Fin 29) (k : McKey)
  | del (e : L2Entry) (port : Fin 29) (k : McKey)

def MdbCall.port : MdbCall → Fin 29
  | .add _ port _ => port
  | .del _ port _ => port

/-- The switch, and for every address the ports that were added and not deleted since. -/
structure MdbState where
  sw : Switch
  members : Key → Finset Nat

def MdbState.step (st : MdbState) : MdbCall → MdbState
  | .add e port k =>
    let (err, sw) := st.sw.portMdbAdd e port k.1.addr k.1.vid
    ⟨sw, if err = 0 then update st.members k (insert ↑port (st.members k)) else st.members⟩
  | .del e port k =>
    let (err, sw) := st.sw.portMdbDel e port k.1.addr k.1.vid
    ⟨sw, if err = 0 then update st.members k ((st.members k).erase ↑port) else st.members⟩

structure MdbState.IsMap (st : MdbState) : Prop where
  unique : ∀ k s s', (st.sw.entry s).IsFor k → (st.sw.entry s').IsFor k → s = s'
  forwards : ∀ k port, st.sw.Forwards k port ↔ port ∈ st.members k
  groups : ∀ s s', (st.sw.entry s).valid → (st.sw.entry s').valid →
    (st.sw.entry s).mcPortmaskIndex = (st.sw.entry s').mcPortmaskIndex → s = s'
  used : ∀ g, st.sw.mcGroupBm g ↔
    ∃ s, (st.sw.entry s).valid ∧ (st.sw.entry s).mcPortmaskIndex = g

/-- The condition on a call: an addition needs that no free row stands in front of the entry, if a
group is left. -/
def MdbState.Meets (st : MdbState) : MdbCall → Prop
  | .add _ _ k => (∀ g < MAX_MC_GROUPS - 1, st.sw.mcGroupBm g) ∨
      ¬ Hidden st.sw.table (st.sw.order k) k.1
  | .del _ _ _ => True

/-! ## Masks as sets of ports -/

lemma testBit_portmask (x i : Nat) :
    (u32 x &&& 0x1fffffff).testBit i = (decide (i < 29) && x.testBit i) := by
  rw [u32, show (0x1fffffff : Nat) = 2 ^ 29 - 1 by decide, and_two_pow_sub_one_eq_mod,
    mod_mod_of_dvd _ (pow_dvd_pow 2 (by decide)), testBit_mod_two_pow]

lemma testBit_one_shiftLeft (p i : Nat) : (1 <<< p).testBit i = decide (i = p) := by
  rw [one_shiftLeft, testBit_two_pow]
  exact decide_eq_decide.2 eq_comm

def MaskOf (x : Nat) (ports : Finset Nat) : Prop :=
  ∀ i, x.testBit i ↔ i ∈ ports

variable {x p : Nat} {ports : Finset Nat}

lemma maskOf_single (hp : p < 29) : MaskOf (u32 (1 <<< p) &&& 0x1fffffff) {p} := by
  intro i
  rw [testBit_portmask, testBit_one_shiftLeft]
  simp
  omega

section

variable (hports : ∀ i ∈ ports, i < 29)
include hports

lemma MaskOf.insert (h : MaskOf x ports) (hp : p < 29) :
    MaskOf (u32 (x ||| 1 <<< p) &&& 0x1fffffff) (insert p ports) := by
  intro i
  rw [testBit_portmask, testBit_or, testBit_one_shiftLeft]
  simp only [Bool.and_eq_true, Bool.or_eq_true, decide_eq_true_eq, h i, Finset.mem_insert]
  constructor
  · rintro ⟨-, hi | rfl⟩
    · exact .inr hi
    · exact .inl rfl
  · rintro (rfl | hi)
    · exact ⟨hp, .inr rfl⟩
    · exact ⟨hports i hi, .inl hi⟩

lemma MaskOf.erase (h : MaskOf x ports) (p : Nat) :
    MaskOf (x &&& ((2 ^ 64 - 1) ^^^ 1 <<< p)) (ports.erase p) := by
  intro i
  rw [testBit_and, testBit_xor, testBit_two_pow_sub_one, testBit_one_shiftLeft]
  simp only [Bool.and_eq_true, h i, Finset.mem_erase]
  constructor
  · rintro ⟨hi, hx⟩
    have : i < 64 := lt_trans (hports i hi) (by decide)
    simp_all
  · rintro ⟨hne, hi⟩
    have : i < 64 := lt_trans (hports i hi) (by decide)
    simp_all

lemma MaskOf.written (h : MaskOf x ports) : MaskOf (u32 x &&& 0x1fffffff) ports := by
  intro i
  rw [testBit_portmask, Bool.and_eq_true, decide_eq_true_eq, h i]
  exact ⟨fun hi => hi.2, fun hi => ⟨hports i hi, hi⟩⟩

end

lemma MaskOf.eq_zero_iff (h : MaskOf x ports) : x = 0 ↔ ports = ∅ := by
  rw [Finset.eq_empty_iff_forall_notMem]
  constructor
  · rintro rfl i hi
    simpa using (h i).2 hi
  intro hnone
  apply eq_of_testBit_eq
  intro i
  rw [zero_testBit, Bool.eq_false_iff]
  exact fun hi => hnone i ((h i).1 hi)

/-! ## The two calls as operations on the table -/

variable {sw : Switch} {k : Key} {s : Slot} {port : Nat}

lemma seed_ne_zero_of_multicast (hk : k.addr.isMulticast) : k.seed ≠ 0 := by
  intro h
  rw [← Key.ofSeed_seed k, h] at hk
  cases hk

lemma portMdbAdd_eq (hlag : sw.isLagmember port = false) (e : L2Entry) (k : Key) :
    ∃ e', sw.portMdbAdd e port k.addr k.vid =
      match (sw.order k).find? (usable sw.table k) with
      | some s => sw.mdbAddAt (fillL2Entry (sw.rows s) e') port k.vid k.addr.toU64
          fun sw e => sw.write s (fillL2Row e)
      | none => (-ENOTSUPP, sw) := by
  have hsearch := searched_order sw e (camStops_false sw k)
  unfold portMdbAdd
  rw [if_neg (by decide), hlag, if_neg (by decide), ← Key.seed]
  change Searched sw k false e ((sw.order k).find? (usable sw.table k)) at hsearch
  generalize (sw.order k).find? (usable sw.table k) = found at hsearch ⊢
  cases hsearch with
  | hash idx e' h => exact ⟨e', by simp only [h, writeL2EntryUsingHash_split]⟩
  | cam e₁ idx e' h₁ h => exact ⟨e', by simp only [h₁, h]; rfl⟩
  | none e₁ e₂ h₁ h => exact ⟨e, by simp only [h₁, h]⟩

lemma portMdbDel_eq (hlag : sw.isLagmember port = false) (e : L2Entry) (hk : k.addr.isMulticast) :
    ∃ e', sw.portMdbDel e port k.addr k.vid =
      match (sw.order k).find? (holds sw.table k) with
      | some s => (0, sw.mdbDelAt (fillL2Entry (sw.rows s) e') port
          fun sw e => sw.write s (fillL2Row e))
      | none => (0, sw) := by
  have hsearch := searched_order sw e (camStops_true sw (seed_ne_zero_of_multicast hk))
  unfold portMdbDel
  rw [hlag, if_neg (by decide), ← Key.seed]
  change Searched sw k true e ((sw.order k).find? (holds sw.table k)) at hsearch
  generalize (sw.order k).find? (holds sw.table k) = found at hsearch ⊢
  cases hsearch with
  | hash idx e' h => exact ⟨e', by simp only [h, writeL2EntryUsingHash_split]⟩
  | cam e₁ idx e' h₁ h => exact ⟨e', by simp only [h₁, h]; rfl⟩
  | none e₁ e₂ h₁ h => exact ⟨e, by simp only [h₁, h]⟩

lemma mcGroupDelPort_eq (sw : Switch) (g port : Nat) {x : Nat}
    (hx : sw.mcPmask g &&& ((2 ^ 64 - 1) ^^^ 1 <<< port) = x) :
    sw.mcGroupDelPort g port = (x, if x = 0 then
        { sw with
          mcGroupBm := update sw.mcGroupBm g false
          mcPmask := update sw.mcPmask g (u32 x &&& 0x1fffffff) }
      else
        { sw with mcPmask := update sw.mcPmask g (u32 x &&& 0x1fffffff) }) := by
  subst hx
  unfold mcGroupDelPort readMcastPmask
  dsimp only
  split <;> rfl

lemma mcGroupAlloc_cases (sw : Switch) (port : Nat) :
    ((∀ g < MAX_MC_GROUPS - 1, sw.mcGroupBm g) ∧ sw.mcGroupAlloc port = (none, sw)) ∨
    ∃ g < MAX_MC_GROUPS - 1, sw.mcGroupBm g = false ∧ sw.mcGroupAlloc port =
      (some g, { sw with
        mcGroupBm := update sw.mcGroupBm g true
        mcPmask := update sw.mcPmask g (u32 (1 <<< port) &&& 0x1fffffff) }) := by
  unfold mcGroupAlloc findFirstZeroBit
  cases hfind : (range (MAX_MC_GROUPS - 1)).find? fun i => !sw.mcGroupBm i with
  | none =>
    refine .inl ⟨fun g hg => ?_, if_pos (le_refl _)⟩
    simpa using find?_eq_none.1 hfind g (mem_range.2 hg)
  | some g =>
    have hg : g < MAX_MC_GROUPS - 1 := mem_range.1 (mem_of_find?_eq_some hfind)
    refine .inr ⟨g, hg, by simpa using find?_some hfind, ?_⟩
    rw [getD_some, if_neg (not_le.2 hg)]
    rfl

variable (st : MdbState) {r : Row} (e : L2Entry) {g : Nat}

lemma mdbAddAt_of_valid (hr : r.valid) {e : L2Entry} (hg : (fillL2Entry r e).mcPortmaskIndex = g)
    (port vid mac : Nat) (put : Switch → L2Entry → Switch) :
    sw.mdbAddAt (fillL2Entry r e) port vid mac put = (0, { sw with
      mcPmask := update sw.mcPmask g (u32 (sw.mcPmask g ||| 1 <<< port) &&& 0x1fffffff) }) := by
  rw [mdbAddAt, fillL2Entry_valid, if_pos hr, hg]
  rfl

lemma mdbAddAt_of_free (hr : r.valid = false) (e : L2Entry) (port vid mac : Nat)
    (put : Switch → L2Entry → Switch) : sw.mdbAddAt (fillL2Entry r e) port vid mac put =
      match sw.mcGroupAlloc port with
      | (none, sw) => (-ENOTSUPP, sw)
      | (some mcGroup, sw) => (0, put sw (setupL2McEntry vid mac mcGroup)) := by
  rw [mdbAddAt, fillL2Entry_valid, hr, if_neg (by decide)]

lemma step_add (port : Fin 29) (k : McKey)
    (h : st.sw.portMdbAdd e port k.1.addr k.1.vid = (0, sw)) :
    st.step (.add e port k) = ⟨sw, update st.members k (insert ↑port (st.members k))⟩ := by
  rw [MdbState.step, h]
  rfl

lemma step_add_error (port : Fin 29) (k : McKey) {err : Int}
    (h : st.sw.portMdbAdd e port k.1.addr k.1.vid = (err, st.sw)) (herr : err ≠ 0) :
    st.step (.add e port k) = st := by
  rw [MdbState.step, h]
  dsimp only
  rw [if_neg herr]

lemma step_del (port : Fin 29) (k : McKey)
    (h : st.sw.portMdbDel e port k.1.addr k.1.vid = (0, sw)) :
    st.step (.del e port k) = ⟨sw, update st.members k ((st.members k).erase ↑port)⟩ := by
  rw [MdbState.step, h]
  rfl

/-! ## The invariant -/

def mdbRows (grp : Key → Option Nat) (k : Key) : Option Row := (grp k).map (mcRow k)

lemma mdbRows_update (grp : Key → Option Nat) (k : Key) (g : Option Nat) :
    mdbRows (update grp k g) = update (mdbRows grp) k (g.map (mcRow k)) := by
  funext k'
  by_cases h : k' = k
  · subst h
    simp [mdbRows]
  · simp [mdbRows, update_of_ne h]

/-- `grp` gives every address with members a group of its own. -/
structure MdbState.Groups (lag : Nat → Bool) (st : MdbState) (grp : Key → Option Nat) : Prop where
  lag : st.sw.isLagmember = lag
  rows : Represents st.sw.order st.sw.table (mdbRows grp)
  multicast : ∀ k g, grp k = some g → k.addr.isMulticast ∧ g < MAX_MC_GROUPS - 1
  inj : ∀ k k' g, grp k = some g → grp k' = some g → k = k'
  used : ∀ g, st.sw.mcGroupBm g ↔ ∃ k, grp k = some g
  mask : ∀ k g, grp k = some g → MaskOf (st.sw.mcPmask g) (st.members k)
  nonempty : ∀ k g, grp k = some g → st.members k ≠ ∅
  absent : ∀ k, grp k = none → st.members k = ∅
  bound : ∀ k, ∀ i ∈ st.members k, i < 29

lemma mcRow_valid (hk : k.addr.isMulticast) (hg : g < MAX_MC_GROUPS - 1) : (mcRow k g).valid :=
  (fillL2Entry_mcRow hk (lt_of_lt_of_le hg (by decide)) {}).1.valid

namespace MdbState.Groups

variable {lag : Nat → Bool} {st : MdbState} {grp : Key → Option Nat} {g : Nat}

section

variable (h : st.Groups lag grp)
include h

lemma entry_isFor_iff : (st.sw.entry s).IsFor k ↔ holds st.sw.table k s := by
  refine Realtek.entry_isFor_iff h.rows fun k r hr => ?_
  obtain ⟨g, hg, rfl⟩ := map_eq_some_iff.1 hr
  obtain ⟨hk, hlt⟩ := h.multicast k g hg
  exact (fillL2Entry_mcRow hk (lt_of_lt_of_le hlt (by decide)) {}).1

lemma of_holds (hs : holds st.sw.table k s) :
    ∃ g, grp k = some g ∧ ∀ e, (fillL2Entry (st.sw.rows s) e).mcPortmaskIndex = g := by
  obtain ⟨g, hg, hrow⟩ := map_eq_some_iff.1 (h.rows.agrees.2 ⟨s, table_of_holds hs⟩)
  obtain ⟨hk, hlt⟩ := h.multicast k g hg
  refine ⟨g, hg, fun e => ?_⟩
  rw [← hrow]
  exact (fillL2Entry_mcRow hk (lt_of_lt_of_le hlt (by decide)) e).2.2

lemma exists_holds (hg : grp k = some g) :
    ∃ s ∈ st.sw.order k, holds st.sw.table k s ∧ (st.sw.entry s).mcPortmaskIndex = g := by
  obtain ⟨s, hs⟩ := h.rows.agrees.1 (show mdbRows grp k = some (mcRow k g) by simp [mdbRows, hg])
  have hholds := holds_iff.2 ⟨_, hs⟩
  obtain ⟨g', hg', hidx⟩ := h.of_holds hholds
  rw [hg] at hg'
  obtain rfl := some.inj hg'
  exact ⟨s, h.rows.placed hs, hholds, hidx {}⟩

lemma holds_of_valid (hs : (st.sw.entry s).valid) :
    ∃ k, holds st.sw.table k s ∧ grp k = some (st.sw.entry s).mcPortmaskIndex := by
  obtain ⟨k, hk⟩ := table_of_valid hs
  have hholds := holds_iff.2 ⟨_, hk⟩
  obtain ⟨g, hg, hidx⟩ := h.of_holds hholds
  exact ⟨k, hholds, by rw [hg, Switch.entry, hidx]⟩

lemma isMap : st.IsMap where
  unique k s s' hs hs' := h.rows.holds_unique s s' (h.entry_isFor_iff.1 hs)
    (h.entry_isFor_iff.1 hs')
  forwards k port := by
    constructor
    · rintro ⟨s, -, hs, hbit⟩
      obtain ⟨g, hg, hidx⟩ := h.of_holds (h.entry_isFor_iff.1 hs)
      rw [Switch.entry, hidx] at hbit
      exact (h.mask k g hg port).1 hbit
    · intro hport
      cases hg : grp k with
      | none =>
        rw [h.absent k hg] at hport
        exact absurd hport (Finset.notMem_empty port)
      | some g =>
        obtain ⟨s, hmem, hs, hidx⟩ := h.exists_holds hg
        refine ⟨s, hmem, h.entry_isFor_iff.2 hs, ?_⟩
        rw [hidx]
        exact (h.mask k g hg port).2 hport
  groups s s' hs hs' heq := by
    obtain ⟨k, hk, hg⟩ := h.holds_of_valid hs
    obtain ⟨k', hk', hg'⟩ := h.holds_of_valid hs'
    rw [← heq] at hg'
    obtain rfl := h.inj k k' _ hg hg'
    exact h.rows.holds_unique s s' hk hk'
  used g := by
    rw [h.used]
    constructor
    · rintro ⟨k, hk⟩
      obtain ⟨s, -, hs, hidx⟩ := h.exists_holds hk
      exact ⟨s, (h.entry_isFor_iff.2 hs).valid, hidx⟩
    · rintro ⟨s, hs, rfl⟩
      obtain ⟨k, -, hg⟩ := h.holds_of_valid hs
      exact ⟨k, hg⟩

/-! ### Additions -/

variable {ports : Finset Nat}

lemma bound_update (hports : ∀ i ∈ ports, i < 29) :
    ∀ k', ∀ i ∈ update st.members k ports k', i < 29 := by
  intro k' i hi
  by_cases hk : k' = k
  · rw [hk, update_self] at hi
    exact hports i hi
  · rw [update_of_ne hk] at hi
    exact h.bound k' i hi

lemma set_mask (hg : grp k = some g) {x : Nat} (hports : ∀ i ∈ ports, i < 29)
    (hne : ports ≠ ∅) (hx : MaskOf x ports) :
    (MdbState.mk { st.sw with mcPmask := update st.sw.mcPmask g x }
      (update st.members k ports)).Groups lag grp where
  lag := h.lag
  rows := h.rows
  multicast := h.multicast
  inj := h.inj
  used := h.used
  mask k' g' hg' := by
    dsimp only
    by_cases hk : k' = k
    · subst hk
      rw [hg] at hg'
      obtain rfl := some.inj hg'
      rwa [update_self, update_self]
    · have hgg : g' ≠ g := fun e => hk (h.inj k' k g (e ▸ hg') hg)
      rw [update_of_ne hgg, update_of_ne hk]
      exact h.mask k' g' hg'
  nonempty k' g' hg' := by
    dsimp only
    by_cases hk : k' = k
    · rw [hk, update_self]
      exact hne
    · rw [update_of_ne hk]
      exact h.nonempty k' g' hg'
  absent k' hk' := by
    have hk : k' ≠ k := by rintro rfl; simp [hg] at hk'
    dsimp only
    rw [update_of_ne hk]
    exact h.absent k' hk'
  bound := h.bound_update hports

lemma new_entry (hk : k.addr.isMulticast) (hport : port < 29) (hnone : grp k = none)
    (hg : g < MAX_MC_GROUPS - 1) (hfree : st.sw.mcGroupBm g = false)
    (hhidden : ¬ Hidden st.sw.table (st.sw.order k) k)
    (hfind : (st.sw.order k).find? (usable st.sw.table k) = some s) :
    (MdbState.mk (Switch.write { st.sw with
        mcGroupBm := update st.sw.mcGroupBm g true
        mcPmask := update st.sw.mcPmask g (u32 (1 <<< port) &&& 0x1fffffff) } s (mcRow k g))
      (update st.members k (insert port (st.members k)))).Groups lag
      (update grp k (some g)) := by
  have hfresh : ∀ k', grp k' ≠ some g := by
    intro k' hk'
    have := (h.used g).2 ⟨k', hk'⟩
    rw [hfree] at this
    cases this
  have hsingle : insert port (st.members k) = {port} := by rw [h.absent k hnone]; rfl
  have hports : ∀ i ∈ ({port} : Finset Nat), i < 29 := by simpa using hport
  rw [hsingle]
  refine ⟨h.lag, ?_, ?_, ?_, ?_, ?_, ?_, ?_, h.bound_update hports⟩
  · rw [mdbRows_update, table_put _ _ (mcRow_for k g) (mcRow_valid hk hg)]
    exact h.rows.insert (mcRow k g) hhidden hfind
  · intro k' g' hg'
    by_cases hkk : k' = k
    · subst hkk
      obtain rfl : g = g' := by simpa using hg'
      exact ⟨hk, hg⟩
    · rw [update_of_ne hkk] at hg'
      exact h.multicast k' g' hg'
  · intro k₁ k₂ g' h₁ h₂
    by_cases hk₁ : k₁ = k <;> by_cases hk₂ : k₂ = k
    · rw [hk₁, hk₂]
    · obtain rfl : g = g' := by simpa [hk₁] using h₁
      rw [update_of_ne hk₂] at h₂
      exact absurd h₂ (hfresh k₂)
    · obtain rfl : g = g' := by simpa [hk₂] using h₂
      rw [update_of_ne hk₁] at h₁
      exact absurd h₁ (hfresh k₁)
    · rw [update_of_ne hk₁] at h₁
      rw [update_of_ne hk₂] at h₂
      exact h.inj k₁ k₂ g' h₁ h₂
  · intro g'
    change update st.sw.mcGroupBm g true g' ↔ _
    by_cases hgg : g' = g
    · subst hgg
      exact iff_of_true (update_self ..) ⟨k, update_self ..⟩
    rw [update_of_ne hgg, h.used]
    constructor
    · rintro ⟨k', hk'⟩
      have hkk : k' ≠ k := by rintro rfl; simp [hnone] at hk'
      exact ⟨k', by rw [update_of_ne hkk, hk']⟩
    rintro ⟨k', hk'⟩
    by_cases hkk : k' = k
    · rw [hkk, update_self] at hk'
      exact absurd (some.inj hk').symm hgg
    · exact ⟨k', by rwa [update_of_ne hkk] at hk'⟩
  · intro k' g' hg'
    change MaskOf (update st.sw.mcPmask g _ g') (update st.members k {port} k')
    by_cases hkk : k' = k
    · subst hkk
      obtain rfl : g = g' := by simpa using hg'
      rw [update_self, update_self]
      exact maskOf_single hport
    · rw [update_of_ne hkk] at hg' ⊢
      have hgg : g' ≠ g := by rintro rfl; exact hfresh k' hg'
      rw [update_of_ne hgg]
      exact h.mask k' g' hg'
  · intro k' g' hg'
    change update st.members k {port} k' ≠ ∅
    by_cases hkk : k' = k
    · rw [hkk, update_self]
      exact Finset.singleton_ne_empty port
    · rw [update_of_ne hkk] at hg' ⊢
      exact h.nonempty k' g' hg'
  · intro k' hk'
    change update st.members k {port} k' = ∅
    by_cases hkk : k' = k
    · simp [hkk] at hk'
    · rw [update_of_ne hkk] at hk' ⊢
      exact h.absent k' hk'

/-! ### Deletions -/

lemma drop_entry (hg : grp k = some g) (hs : holds st.sw.table k s) (x : Nat) :
    (MdbState.mk (Switch.write { st.sw with
        mcGroupBm := update st.sw.mcGroupBm g false
        mcPmask := update st.sw.mcPmask g x } s ⟨0, 0, 0⟩)
      (update st.members k ∅)).Groups lag (update grp k none) := by
  have hother : ∀ {k' g'}, update grp k none k' = some g' → grp k' = some g' ∧ k' ≠ k ∧ g' ≠ g := by
    intro k' g' hg'
    have hkk : k' ≠ k := by rintro rfl; simp at hg'
    rw [update_of_ne hkk] at hg'
    exact ⟨hg', hkk, fun e => hkk (h.inj k' k g (e ▸ hg') hg)⟩
  refine ⟨h.lag, ?_, ?_, ?_, ?_, ?_, ?_, ?_, h.bound_update (by simp)⟩
  · rw [mdbRows_update, table_clear]
    exact h.rows.erase hs
  · intro k' g' hg'
    exact h.multicast k' g' (hother hg').1
  · intro k₁ k₂ g' h₁ h₂
    exact h.inj k₁ k₂ g' (hother h₁).1 (hother h₂).1
  · intro g'
    change update st.sw.mcGroupBm g false g' ↔ _
    constructor
    · intro hbm
      have hgg : g' ≠ g := by rintro rfl; simp at hbm
      rw [update_of_ne hgg, h.used] at hbm
      obtain ⟨k', hk'⟩ := hbm
      have hkk : k' ≠ k := by
        rintro rfl
        rw [hg] at hk'
        exact hgg (some.inj hk').symm
      exact ⟨k', by rw [update_of_ne hkk, hk']⟩
    · rintro ⟨k', hk'⟩
      obtain ⟨hg', -, hgg⟩ := hother hk'
      rw [update_of_ne hgg, h.used]
      exact ⟨k', hg'⟩
  · intro k' g' hg'
    obtain ⟨hg', hkk, hgg⟩ := hother hg'
    change MaskOf (update st.sw.mcPmask g x g') (update st.members k ∅ k')
    rw [update_of_ne hgg, update_of_ne hkk]
    exact h.mask k' g' hg'
  · intro k' g' hg'
    obtain ⟨hg', hkk, -⟩ := hother hg'
    change update st.members k ∅ k' ≠ ∅
    rw [update_of_ne hkk]
    exact h.nonempty k' g' hg'
  · intro k' hk'
    change update st.members k ∅ k' = ∅
    by_cases hkk : k' = k
    · rw [hkk, update_self]
    · rw [update_of_ne hkk] at hk' ⊢
      exact h.absent k' hk'

lemma grp_eq_none (hk : ∀ s ∈ st.sw.order k, holds st.sw.table k s = false) : grp k = none := by
  rw [eq_none_iff_forall_ne_some]
  intro g hg
  obtain ⟨s, hmem, hs, -⟩ := h.exists_holds hg
  rw [hk s hmem] at hs
  cases hs

variable {port : Fin 29} {e : L2Entry} {k : McKey}

lemma add_of_meets (hlag : lag port = false)
    (hc : st.Meets (.add e port k)) : ∃ grp', (st.step (.add e port k)).Groups lag grp' := by
  obtain ⟨e', heq⟩ := portMdbAdd_eq (h.lag ▸ hlag) e k.1
  cases hfind : (st.sw.order k.1).find? (usable st.sw.table k.1) with
  | none =>
    rw [hfind] at heq
    rw [step_add_error st e port k heq (by decide)]
    exact ⟨grp, h⟩
  | some s =>
    rw [hfind] at heq
    by_cases hs : holds st.sw.table k.1 s
    · -- a port more in the group of the entry
      obtain ⟨g, hg, hidx⟩ := h.of_holds hs
      rw [step_add st e port k (heq.trans (mdbAddAt_of_valid (holds_table.1 hs).1 (hidx e') ..))]
      have hbound : ∀ i ∈ insert port.val (st.members k.1), i < 29 := by
        simpa using h.bound k.1
      exact ⟨grp, h.set_mask hg hbound (Finset.insert_ne_empty _ _)
        ((h.mask k.1 g hg).insert (h.bound k.1) port.isLt)⟩
    · have hfree : st.sw.table s = none := by
        rcases usable_iff.1 (find?_some hfind) with hfree | hheld
        · exact hfree
        · exact absurd (holds_iff.2 hheld) hs
      have hnew := heq.trans (mdbAddAt_of_free (table_eq_none.1 hfree) ..)
      rcases mcGroupAlloc_cases st.sw port with ⟨-, halloc⟩ | ⟨g, hg, hunused, halloc⟩
      · rw [halloc] at hnew
        rw [step_add_error st e port k hnew (by decide)]
        exact ⟨grp, h⟩
      have hhidden : ¬ Hidden st.sw.table (st.sw.order k.1) k.1 := by
        rcases hc with hfull | hhidden
        · rw [hfull g hg] at hunused
          cases hunused
        · exact hhidden
      have hnone : grp k.1 = none :=
        h.grp_eq_none fun s' hs' => not_holds_of_find?_free hhidden hfind hfree hs'
      rw [halloc] at hnew
      rw [step_add st e port k hnew]
      exact ⟨_, h.new_entry k.2 port.isLt hnone hg hunused hhidden hfind⟩

lemma del (e : L2Entry) (k : McKey) (hlag : lag port = false) :
    ∃ grp', (st.step (.del e port k)).Groups lag grp' := by
  obtain ⟨e', heq⟩ := portMdbDel_eq (h.lag ▸ hlag) e k.2
  cases hfind : (st.sw.order k.1).find? (holds st.sw.table k.1) with
  | none =>
    have hnone : grp k.1 = none := h.grp_eq_none fun s hs => by
      simpa using find?_eq_none.1 hfind s hs
    have hsame : (st.members k.1).erase ↑port = st.members k := by rw [h.absent k.1 hnone]; rfl
    rw [hfind] at heq
    rw [step_del st e port k heq, hsame, update_eq_self]
    exact ⟨grp, h⟩
  | some s =>
    have hs : holds st.sw.table k.1 s := find?_some hfind
    obtain ⟨g, hg, hidx⟩ := h.of_holds hs
    obtain ⟨x, hx⟩ : ∃ x, st.sw.mcPmask g &&& ((2 ^ 64 - 1) ^^^ 1 <<< port.val) = x := ⟨_, rfl⟩
    have hmask := (h.mask k.1 g hg).erase (h.bound k.1) port
    rw [hx] at hmask
    have hbound : ∀ i ∈ (st.members k.1).erase port.val, i < 29 := fun i hi =>
      h.bound k.1 i (Finset.mem_of_mem_erase hi)
    rw [hfind] at heq
    dsimp only [mdbDelAt] at heq
    rw [hidx, mcGroupDelPort_eq st.sw g port hx] at heq
    rw [step_del st e port k heq]
    by_cases hzero : x = 0
    · rw [if_pos hzero, if_pos hzero, fillL2Row_of_not_valid rfl, hmask.eq_zero_iff.1 hzero]
      exact ⟨_, h.drop_entry hg hs _⟩
    · rw [if_neg hzero, if_neg hzero]
      exact ⟨grp, h.set_mask hg hbound (fun e => hzero (hmask.eq_zero_iff.2 e))
        (hmask.written hbound)⟩

lemma not_isMap_add (hlag : lag port = false)
    (hc : ¬ st.Meets (.add e port k)) : ¬ (st.step (.add e port k)).IsMap := by
  obtain ⟨hfull, hhidden⟩ := not_or.1 hc
  rw [not_not] at hhidden
  obtain ⟨e', heq⟩ := portMdbAdd_eq (h.lag ▸ hlag) e k.1
  obtain ⟨s, s', hfind, hfree, -, hs', hne⟩ :=
    find?_free_of_hidden (order_nodup st.sw k.1) hhidden h.rows.holds_unique
  rw [hfind] at heq
  have hnew := heq.trans (mdbAddAt_of_free (table_eq_none.1 hfree) ..)
  rcases mcGroupAlloc_cases st.sw port with ⟨hfull', -⟩ | ⟨g, hg, -, halloc⟩
  · exact absurd hfull' hfull
  rw [halloc] at hnew
  rw [step_add st e port k hnew]
  intro hmap
  refine hne (hmap.unique k.1 s s' ?_ ?_)
  · have hnew := (fillL2Entry_mcRow k.2 (lt_of_lt_of_le hg (by decide)) {}).1
    simpa [Switch.entry, Switch.write, mcRow] using hnew
  · have hold := h.entry_isFor_iff.2 hs'
    simpa [Switch.entry, Switch.write, update_of_ne hne.symm] using hold

end

end MdbState.Groups

/-! ## Every run -/

/-- **The multicast database is a map** in every state, from empty tables and on ports that are not
in a LAG, exactly if no free row stands in front of an entry that gets another port: addresses are
forwarded to their members, and valid entries have groups of their own. -/
theorem mdb_is_map_iff (sw : Switch) (hempty : ∀ s, (sw.rows s).valid = false)
    (hunused : ∀ g, sw.mcGroupBm g = false) (calls : List MdbCall)
    (hlag : ∀ c ∈ calls, sw.isLagmember c.port = false) :
    Always MdbState.step MdbState.IsMap ⟨sw, fun _ => ∅⟩ calls ↔
      Each MdbState.step MdbState.Meets ⟨sw, fun _ => ∅⟩ calls := by
  have hinit : (MdbState.mk sw fun _ => ∅).Groups sw.isLagmember fun _ => none := by
    have htable : sw.table = fun _ => none := funext fun s => table_eq_none.2 (hempty s)
    constructor
    case lag => rfl
    case rows =>
      rw [htable]
      exact represents_empty sw.order
    case used =>
      intro g
      simp [hunused g]
    case absent =>
      intro _ _
      rfl
    all_goals simp
  have hmap : ∀ st : MdbState, (∃ grp, st.Groups sw.isLagmember grp) → st.IsMap :=
    fun st ⟨grp, h⟩ => h.isMap
  refine always_iff_each hmap ?_ ?_ calls hlag ⟨_, hinit⟩
  · rintro st c hc ⟨grp, h⟩ hmeets
    cases c with
    | add e port k => exact h.add_of_meets hc hmeets
    | del e port k => exact h.del e k hc
  · rintro st c hc ⟨grp, h⟩ hmeets
    cases c with
    | add e port k => exact h.not_isMap_add hc hmeets
    | del e port k => exact absurd trivial hmeets

def firstGroup : McKey := ⟨⟨⟨1, 0, 0, 0, 0, 1⟩, 1⟩, by decide⟩

def secondGroup : McKey := ⟨⟨⟨1, 0, 0, 0, 0, 2⟩, 7⟩, by decide⟩

theorem mdb_is_map_iff_pair : Always MdbState.step MdbState.IsMap ⟨blankSwitch, fun _ => ∅⟩
      [.add {} 1 firstGroup, .add {} 2 firstGroup] ↔
    Each MdbState.step MdbState.Meets ⟨blankSwitch, fun _ => ∅⟩
      [.add {} 1 firstGroup, .add {} 2 firstGroup] :=
  mdb_is_map_iff blankSwitch blankSwitch_empty (fun _ => rfl) _ (fun _ _ => rfl)

lemma not_isMap_of_forwards {st : MdbState} (hk : st.members k = ∅) (h : st.sw.Forwards k port) :
    ¬ st.IsMap := by
  intro hmap
  have hmem := (hmap.forwards k port).1 h
  rw [hk] at hmem
  exact Finset.notMem_empty port hmem

/-- The ports of the second key end up in two groups; after both are deleted its frames still go to
port 1. -/
theorem mdb_splits_ports :
    let calls : List MdbCall := [.add {} 1 firstGroup, .add {} 1 secondGroup, .del {} 1 firstGroup,
      .add {} 2 secondGroup, .del {} 1 secondGroup, .del {} 2 secondGroup]
    let st := calls.foldl MdbState.step ⟨blankSwitch, fun _ => ∅⟩
    ¬ Always MdbState.step MdbState.IsMap ⟨blankSwitch, fun _ => ∅⟩ calls ∧
      st.members secondGroup = ∅ ∧ st.sw.Forwards secondGroup 1 := by
  intro calls st
  have hmembers : st.members secondGroup = ∅ := by decide +kernel
  have hforwards : st.sw.Forwards secondGroup 1 :=
    ⟨.sram 1037, by decide +kernel, ⟨by decide +kernel, by decide +kernel, by decide +kernel⟩,
      by decide +kernel⟩
  exact ⟨fun h => not_isMap_of_forwards hmembers hforwards h.last, hmembers, hforwards⟩

end SourceMaster.Realtek
