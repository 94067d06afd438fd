import SourceMaster.Lib.Runs
import SourceMaster.Realtek.L2Table

/-!
# The forwarding database

`rtl83xx_port_fdb_add` and `rtl83xx_port_fdb_del` are meant to keep a map from MAC addresses and
VLANs to ports in the L2 table. A deletion leaves a free row, and an addition takes the first free
row it meets: if that row stands in front of the entry the key already has, the key gets a second
entry. `fdb_is_map_iff` says in which runs this does not happen; `fdb_duplicates_entry` is a run in
which it does.
-/

namespace SourceMaster.Realtek

open Switch Probe Runs Function List Option

def ENOTSUPP : Int := 524
def ENOENT : Int := 2

namespace Switch

/-- `rtl83xx_port_fdb_add`; `e` is what the stack holds where the entry is read to. -/
def portFdbAdd (sw : Switch) (e : L2Entry) (port : Nat) (addr : EtherAddr) (vid : Nat) :
    Int × Switch :=
  let mac := addr.toU64
  let seed := l2HashSeed mac vid
  if sw.isLagmember port then
    (0, sw)
  else
    let (idx, e) := sw.findL2HashEntry seed false e
    match idx with
    | some idx =>
      (0, sw.writeL2EntryUsingHash (idx >>> 2) (idx &&& 0x3) (setupL2UcEntry port vid mac))
    | none =>
      let (idx, _) := sw.findL2CamEntry seed false e
      match idx with
      | some idx => (0, sw.writeCam idx (setupL2UcEntry port vid mac))
      | none => (-ENOTSUPP, sw)

/-- `rtl83xx_port_fdb_del`; the port is not looked at. -/
def portFdbDel (sw : Switch) (e : L2Entry) (_port : Nat) (addr : EtherAddr) (vid : Nat) :
    Int × Switch :=
  let mac := addr.toU64
  let seed := l2HashSeed mac vid
  let (idx, e) := sw.findL2HashEntry seed true e
  match idx with
  | some idx =>
    (0, sw.writeL2EntryUsingHash (idx >>> 2) (idx &&& 0x3) { e with valid := false })
  | none =>
    let (idx, e) := sw.findL2CamEntry seed true e
    match idx with
    | some idx => (0, sw.writeCam idx { e with valid := false })
    | none => (-ENOENT, sw)

end Switch

/-! ## Runs -/

inductive FdbCall
  | add (e : L2Entry) (port : Fin 29) (k : Key)
  | del (e : L2Entry) (port : Fin 29) (k : Key)

def FdbCall.port : FdbCall → Fin 29
  | .add _ port _ => port
  | .del _ port _ => port

/-- The switch, and the ports of the last successful additions that were not deleted since. -/
structure FdbState where
  sw : Switch
  fdb : Key → Option Nat

def FdbState.step (st : FdbState) : FdbCall → FdbState
  | .add e port k =>
    let (err, sw) := st.sw.portFdbAdd e port k.addr k.vid
    ⟨sw, if err = 0 then update st.fdb k (some port) else st.fdb⟩
  | .del e port k =>
    let (err, sw) := st.sw.portFdbDel e port k.addr k.vid
    ⟨sw, if err = 0 then update st.fdb k none else st.fdb⟩

structure FdbState.IsMap (st : FdbState) : Prop where
  unique : ∀ k s s', (st.sw.entry s).IsFor k → (st.sw.entry s').IsFor k → s = s'
  carries : ∀ k s, (st.sw.entry s).IsFor k →
    (st.sw.entry s).type = .unicast ∧ st.fdb k = some (st.sw.entry s).port
  present : ∀ k, st.fdb k ≠ none → ∃ s ∈ st.sw.order k, (st.sw.entry s).IsFor k

/-- The condition on a call. An addition needs a unicast address, unless there is no room, and no
free row in front of the entry; a deletion needs nothing, but for the key with seed 0. -/
def FdbState.Meets (st : FdbState) : FdbCall → Prop
  | .add _ _ k =>
    (k.addr.isMulticast = false ∨ ∀ s ∈ st.sw.order k, usable st.sw.table k s = false) ∧
      ¬ Hidden st.sw.table (st.sw.order k) k
  | .del _ _ k => k.seed = 0 → ¬ Hidden st.sw.table camSlots k

/-! ## The two calls as operations on the table -/

variable {sw : Switch} {k : Key} {s : Slot}

lemma portFdbAdd_eq {port : Nat} (hlag : sw.isLagmember port = false) (e : L2Entry) (k : Key) :
    sw.portFdbAdd e port k.addr k.vid = match (sw.order k).find? (usable sw.table k) with
      | some s => (0, sw.write s (ucRow k port))
      | none => (-ENOTSUPP, sw) := by
  have hsearch := searched_order sw e (camStops_false sw k)
  unfold portFdbAdd
  rw [hlag, if_neg (by decide), ← Key.seed]
  change Searched sw k false e ((sw.order k).find? (usable sw.table k)) at hsearch
  generalize (sw.order k).find? (usable sw.table k) = found at hsearch ⊢
  cases hsearch with
  | hash idx e' h => simp only [h, writeL2EntryUsingHash_split]; rfl
  | cam e₁ idx e' h₁ h => simp only [h₁, h]; rfl
  | none e₁ e₂ h₁ h => simp only [h₁, h]

lemma portFdbDel_eq (sw : Switch) (port : Nat) (e : L2Entry) (k : Key) :
    sw.portFdbDel e port k.addr k.vid =
      match ((sw.bucket k).find? (holds sw.table k)).or (camSlots.find? (camStops sw true k)) with
      | some s => (0, sw.write s ⟨0, 0, 0⟩)
      | none => (-ENOENT, sw) := by
  have hsearch := searched sw k true e
  unfold portFdbDel
  dsimp only
  rw [← Key.seed]
  change Searched sw k true e (((sw.bucket k).find? (holds sw.table k)).or _) at hsearch
  generalize ((sw.bucket k).find? (holds sw.table k)).or _ = found at hsearch ⊢
  cases hsearch with
  | hash idx e' h => simp only [h, writeL2EntryUsingHash_split, fillL2Row_of_not_valid]
  | cam e₁ idx e' h₁ h => simp only [h₁, h, writeCam, fillL2Row_of_not_valid]
  | none e₁ e₂ h₁ h => simp only [h₁, h]

/-! ## The invariant -/

variable (fdb : Key → Option Nat) {port : Nat}

def fdbRows (k : Key) : Option Row := (fdb k).map (ucRow k)

lemma fdbRows_update (k : Key) (p : Option Nat) :
    fdbRows (update fdb k p) = update (fdbRows fdb) k (p.map (ucRow k)) := by
  funext k'
  by_cases h : k' = k
  · subst h
    simp [fdbRows]
  · simp [fdbRows, update_of_ne h]

structure FdbState.Inv (lag : Nat → Bool) (st : FdbState) : Prop where
  lag : st.sw.isLagmember = lag
  rows : Represents st.sw.order st.sw.table (fdbRows st.fdb)
  unicast : ∀ k p, st.fdb k = some p → k.addr.isMulticast = false ∧ p < 29

lemma isFor_ucRow (k : Key) (hp : port < 29) (e : L2Entry) :
    (fillL2Entry (ucRow k port) e).IsFor k := by
  cases hk : k.addr.isMulticast with
  | false => exact (fillL2Entry_ucRow hk (by omega) e).1
  | true =>
    rw [ucRow_of_multicast hk]
    exact (fillL2Entry_mcRow hk (by decide) e).1

lemma ucRow_valid (k : Key) (hp : port < 29) : (ucRow k port).valid :=
  (isFor_ucRow k hp {}).valid

namespace FdbState.Inv

variable {lag : Nat → Bool} {st : FdbState}

section

variable (h : st.Inv lag)
include h

lemma row_of_holds (hs : holds st.sw.table k s) :
    ∃ p, st.fdb k = some p ∧ st.sw.rows s = ucRow k p := by
  obtain ⟨p, hp, hrow⟩ := map_eq_some_iff.1 (h.rows.agrees.2 ⟨s, table_of_holds hs⟩)
  exact ⟨p, hp, hrow.symm⟩

lemma entry_isFor_iff : (st.sw.entry s).IsFor k ↔ holds st.sw.table k s := by
  refine Realtek.entry_isFor_iff h.rows fun k r hr => ?_
  obtain ⟨p, hp, rfl⟩ := map_eq_some_iff.1 hr
  exact isFor_ucRow k (h.unicast k p hp).2 {}

lemma isMap : st.IsMap where
  unique k s s' hs hs' := h.rows.holds_unique s s' (h.entry_isFor_iff.1 hs)
    (h.entry_isFor_iff.1 hs')
  carries k s hs := by
    obtain ⟨p, hp, hrow⟩ := h.row_of_holds (h.entry_isFor_iff.1 hs)
    obtain ⟨hk, hlt⟩ := h.unicast k p hp
    obtain ⟨-, htype, hport⟩ := fillL2Entry_ucRow hk (show p < 32 by omega) {}
    rw [Switch.entry, hrow, htype, hport, hp]
    exact ⟨rfl, rfl⟩
  present k hk := by
    obtain ⟨p, hp⟩ := ne_none_iff_exists'.1 hk
    obtain ⟨s, hs⟩ := h.rows.agrees.1
      (show fdbRows st.fdb k = some (ucRow k p) by simp [fdbRows, hp])
    exact ⟨s, h.rows.placed hs, h.entry_isFor_iff.2 (holds_iff.2 ⟨_, hs⟩)⟩

lemma add_found {port : Fin 29} (hk : k.addr.isMulticast = false)
    (hhidden : ¬ Hidden st.sw.table (st.sw.order k) k)
    (hfind : (st.sw.order k).find? (usable st.sw.table k) = some s) :
    (FdbState.mk (st.sw.write s (ucRow k port)) (update st.fdb k (some port))).Inv lag where
  lag := h.lag
  rows := by
    rw [fdbRows_update, table_put _ _ (ucRow_for k port) (ucRow_valid k port.isLt)]
    exact h.rows.insert (ucRow k port) hhidden hfind
  unicast k' p hp := by
    change update st.fdb k (some ↑port) k' = some p at hp
    by_cases hkk : k' = k
    · subst hkk
      obtain rfl : (port : Nat) = p := by simpa using hp
      exact ⟨hk, port.isLt⟩
    · rw [update_of_ne hkk] at hp
      exact h.unicast k' p hp

end

variable {e : L2Entry}

section

variable (h : st.Inv lag)
include h

variable {port : Fin 29}

lemma add_of_meets (hlag : lag port = false)
    (hc : st.Meets (.add e port k)) : (st.step (.add e port k)).Inv lag := by
  obtain ⟨hroom, hhidden⟩ := hc
  have hl : st.sw.isLagmember port = false := by rw [h.lag, hlag]
  unfold FdbState.step
  dsimp only
  rw [portFdbAdd_eq hl]
  cases hfind : (st.sw.order k).find? (usable st.sw.table k) with
  | none => exact h
  | some s =>
    have hk : k.addr.isMulticast = false := by
      rcases hroom with hk | hroom
      · exact hk
      · have := hroom s (mem_of_find?_eq_some hfind)
        rw [find?_some hfind] at this
        cases this
    exact h.add_found hk hhidden hfind

lemma not_isMap_add (hlag : lag port = false)
    (hc : ¬ st.Meets (.add e port k)) : ¬ (st.step (.add e port k)).IsMap := by
  have hl : st.sw.isLagmember port = false := by rw [h.lag, hlag]
  have hfor : ∀ s, ((st.sw.write s (ucRow k port)).entry s).IsFor k := by
    intro s
    simpa [Switch.entry, Switch.write] using isFor_ucRow k port.isLt {}
  unfold FdbState.step
  dsimp only
  rw [portFdbAdd_eq hl]
  by_cases hhidden : Hidden st.sw.table (st.sw.order k) k
  · -- the entry behind the free row stays where it is
    obtain ⟨s, s', hfind, -, hne, -, hs'⟩ :=
      h.rows.insert_of_hidden (ucRow k port) (order_nodup st.sw k) hhidden
    rw [hfind]
    intro hmap
    refine hne (hmap.unique k s s' (hfor s) ?_)
    obtain ⟨r, hr⟩ := holds_iff.1 hs'
    rw [update_of_ne hne.symm] at hr
    have hold := h.entry_isFor_iff.2 (holds_iff.2 ⟨r, hr⟩)
    simpa [Switch.entry, Switch.write, update_of_ne hne.symm] using hold
  · -- a multicast address in a row that is written
    have hroom : ¬ (k.addr.isMulticast = false ∨
        ∀ s ∈ st.sw.order k, usable st.sw.table k s = false) := fun hroom => hc ⟨hroom, hhidden⟩
    rw [not_or, Bool.not_eq_false] at hroom
    obtain ⟨hk, hroom⟩ := hroom
    cases hfind : (st.sw.order k).find? (usable st.sw.table k) with
    | none =>
      refine absurd (fun s hs => ?_) hroom
      simpa using find?_eq_none.1 hfind s hs
    | some s =>
      intro hmap
      have htype := (hmap.carries k s (hfor s)).1
      have hmc := (fillL2Entry_mcRow hk (show 0 < 512 by decide) {}).2.1
      simp only [Switch.entry, Switch.write, update_self, ucRow_of_multicast hk, hmc] at htype
      cases htype

/-! ### Deletions -/

lemma del_found (hs : holds st.sw.table k s) :
    (FdbState.mk (st.sw.write s ⟨0, 0, 0⟩) (update st.fdb k none)).Inv lag where
  lag := h.lag
  rows := by
    rw [fdbRows_update, table_clear]
    exact h.rows.erase hs
  unicast k' p hp := by
    change update st.fdb k none k' = some p at hp
    by_cases hkk : k' = k
    · simp [hkk] at hp
    · rw [update_of_ne hkk] at hp
      exact h.unicast k' p hp

lemma fdb_eq_none (hk : ∀ s, holds st.sw.table k s = false) : st.fdb k = none := by
  rw [eq_none_iff_forall_ne_some]
  intro p hp
  obtain ⟨s, hs⟩ := h.rows.agrees.1 (show fdbRows st.fdb k = some (ucRow k p) by simp [fdbRows, hp])
  have := holds_iff.2 ⟨_, hs⟩
  rw [hk s] at this
  cases this

lemma del_free (hs : st.sw.table s = none) (hk : ∀ s, holds st.sw.table k s = false) :
    (FdbState.mk (st.sw.write s ⟨0, 0, 0⟩) (update st.fdb k none)).Inv lag where
  lag := h.lag
  rows := by
    rw [← h.fdb_eq_none hk, update_eq_self, table_clear, ← hs, update_eq_self]
    exact h.rows
  unicast := by
    rw [← h.fdb_eq_none hk, update_eq_self]
    exact h.unicast

lemma not_holds (hbucket : (st.sw.bucket k).find? (holds st.sw.table k) = none)
    (hcam : ∀ s ∈ camSlots, holds st.sw.table k s = false) (s : Slot) :
    holds st.sw.table k s = false := by
  rw [Bool.eq_false_iff]
  intro hs
  obtain ⟨r, hr⟩ := holds_iff.1 hs
  rcases mem_append.1 (h.rows.placed hr) with hmem | hmem
  · exact find?_eq_none.1 hbucket s hmem hs
  · rw [hcam s hmem] at hs
    cases hs

lemma del_of_meets (hc : st.Meets (.del e port k)) : (st.step (.del e port k)).Inv lag := by
  unfold FdbState.step
  dsimp only
  rw [portFdbDel_eq]
  cases hbucket : (st.sw.bucket k).find? (holds st.sw.table k) with
  | some s => exact h.del_found (find?_some hbucket)
  | none =>
    cases hcam : camSlots.find? (camStops st.sw true k) with
    | none => exact h
    | some s =>
      have hstop := find?_some hcam
      by_cases hs : holds st.sw.table k s
      · exact h.del_found hs
      -- only the key with seed 0 stops at a free row
      have hfree : (st.sw.table s).isNone ∧ k.seed = 0 := by
        simpa [camStops, stops, hs] using hstop
      have huse : camSlots.find? (usable st.sw.table k) = some s := by
        rw [← camStops_seed_zero hfree.2, hcam]
      refine h.del_free (isNone_iff_eq_none.1 hfree.1) (h.not_holds hbucket fun s' hs' => ?_)
      exact not_holds_of_find?_free (hc hfree.2) huse (isNone_iff_eq_none.1 hfree.1) hs'

lemma not_isMap_del (hc : ¬ st.Meets (.del e port k)) : ¬ (st.step (.del e port k)).IsMap := by
  obtain ⟨hseed, hhidden⟩ : k.seed = 0 ∧ Hidden st.sw.table camSlots k := by
    simpa [FdbState.Meets] using hc
  obtain ⟨-, hnodup, hdisjoint⟩ := nodup_append.1 (order_nodup st.sw k)
  obtain ⟨s, s', hfind, hfree, hmem, hs', hne⟩ :=
    find?_free_of_hidden hnodup hhidden h.rows.holds_unique
  have hbucket : (st.sw.bucket k).find? (holds st.sw.table k) = none := by
    rw [find?_eq_none]
    intro s₁ hs₁ hholds
    exact hdisjoint s₁ hs₁ s' hmem (h.rows.holds_unique s₁ s' hholds hs')
  have hcam : camSlots.find? (camStops st.sw true k) = some s := by
    rw [camStops_seed_zero hseed, hfind]
  unfold FdbState.step
  dsimp only
  rw [portFdbDel_eq, hbucket, hcam]
  intro hmap
  -- a free row was cleared, the entry is still there
  have hold : ((st.sw.write s ⟨0, 0, 0⟩).entry s').IsFor k := by
    simpa [Switch.entry, Switch.write, update_of_ne hne.symm] using h.entry_isFor_iff.2 hs'
  have hport := (hmap.carries k s' hold).2
  simp at hport

end

end FdbState.Inv

/-! ## Every run -/

/-- **The forwarding database is a map** in every state, from empty tables and on ports that are not
in a LAG, exactly if no free row stands in front of an entry that is added again. -/
theorem fdb_is_map_iff (sw : Switch) (hempty : ∀ s, (sw.rows s).valid = false)
    (calls : List FdbCall) (hlag : ∀ c ∈ calls, sw.isLagmember c.port = false) :
    Always FdbState.step FdbState.IsMap ⟨sw, fun _ => none⟩ calls ↔
      Each FdbState.step FdbState.Meets ⟨sw, fun _ => none⟩ calls := by
  have hinit : (FdbState.mk sw fun _ => none).Inv sw.isLagmember := by
    have htable : sw.table = fun _ => none := funext fun s => table_eq_none.2 (hempty s)
    refine ⟨rfl, ?_, fun k p hp => by cases hp⟩
    rw [htable]
    exact represents_empty sw.order
  refine always_iff_each (fun st h => h.isMap) ?_ ?_ calls hlag hinit
  · intro st c hc h hmeets
    cases c with
    | add e port k => exact h.add_of_meets hc hmeets
    | del e port k => exact h.del_of_meets hmeets
  · intro st c hc h hmeets
    cases c with
    | add e port k => exact h.not_isMap_add hc hmeets
    | del e port k => exact h.not_isMap_del hmeets

def blankSwitch : Switch where
  rows _ := ⟨0, 0, 0⟩
  mcPmask _ := 0
  mcGroupBm _ := false
  isLagmember _ := false
  l2Ctrl0 := 0

lemma blankSwitch_empty (s : Slot) : (blankSwitch.rows s).valid = false := by
  change (Row.mk 0 0 0).valid = false
  decide

def firstKey : Key := ⟨⟨0, 0, 0, 0, 0, 1⟩, 1⟩

def secondKey : Key := ⟨⟨0, 0, 0, 0, 0, 2⟩, 7⟩

theorem fdb_is_map_iff_move : Always FdbState.step FdbState.IsMap ⟨blankSwitch, fun _ => none⟩
      [.add {} 1 firstKey, .add {} 2 firstKey] ↔
    Each FdbState.step FdbState.Meets ⟨blankSwitch, fun _ => none⟩
    [.add {} 1 firstKey, .add {} 2 firstKey] :=
  fdb_is_map_iff blankSwitch blankSwitch_empty _ (fun _ _ => rfl)

/-- The freed row of the first key is taken for a second entry of the second key, whose deletion
leaves the older one. -/
theorem fdb_duplicates_entry :
    let calls : List FdbCall := [.add {} 1 firstKey, .add {} 2 secondKey, .del {} 1 firstKey,
      .add {} 3 secondKey, .del {} 3 secondKey]
    let st := calls.foldl FdbState.step ⟨blankSwitch, fun _ => none⟩
    ¬ Always FdbState.step FdbState.IsMap ⟨blankSwitch, fun _ => none⟩ calls ∧
      st.fdb secondKey = none ∧ (st.sw.entry (.sram 13)).IsFor secondKey ∧
      (st.sw.entry (.sram 13)).port = 2 := by
  intro calls st
  have hfdb : st.fdb secondKey = none := by decide +kernel
  have hentry : (st.sw.entry (.sram 13)).IsFor secondKey :=
    ⟨by decide +kernel, by decide +kernel, by decide +kernel⟩
  refine ⟨?_, hfdb, hentry, by decide +kernel⟩
  intro hmap
  have hcarries := (hmap.last.carries secondKey (.sram 13) hentry).2
  cases hcarries

end SourceMaster.Realtek
