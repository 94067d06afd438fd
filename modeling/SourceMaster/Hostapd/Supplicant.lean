import SourceMaster.Hostapd.Vlist
import SourceMaster.Lib.Runs

/-!
# The interfaces of wpa_supplicant

The script of wpa_supplicant keeps a list of interfaces for every phy. Setting a configuration stops
the interfaces that are gone or have changed, and the interfaces that are not running are started
later. The interfaces in the supplicant then follow the lists, unless an update repeats the name of
an old interface: it is not stopped, and it stays in the supplicant when its entry is removed
(`interfaces_follow_lists`).
-/

namespace SourceMaster.Hostapd

open Runs Vlist List Option Obj Function

/-! ## Comparing configurations -/

inductive Val
  | null
  | bool (b : Bool)
  | int (n : Int)
  | double (x : Float)
  | string (s : String)
  | array (values : List Val)
  | object (fields : List (String × Val))

def Val.field (fields : List (String × Val)) (key : String) : Val :=
  ((fields.find? fun e => e.1 = key).map Prod.snd).getD .null

def Val.isNull : Val → Bool
  | .null => true
  | _ => false

mutual

def isEqual : Val → Val → Bool
  | .null, .null => true
  | .bool a, .bool b => a == b
  | .int a, .int b => a == b
  | .double a, .double b => a == b
  | .string a, .string b => a == b
  | .array a, .array b => a.length == b.length && isEqualAll a b
  | .object a, .object b => isEqualFields a b && b.all fun e => !(Val.field a e.1).isNull
  | _, _ => false

def isEqualAll : List Val → List Val → Bool
  | a :: as, b :: bs => isEqual a b && isEqualAll as bs
  | _, _ => true

def isEqualFields : List (String × Val) → List (String × Val) → Bool
  | (key, a) :: as, bs => isEqual a (Val.field bs key) && isEqualFields as bs
  | [], _ => true

end

/-! ## The script -/

structure IfaceConfig where
  iface : String
  config : Option String
  fields : Obj String Val

structure Iface where
  config : IfaceConfig
  configData : Option String
  running : Bool

def strVal : Option String → Val
  | none => .null
  | some s => .string s

def Iface.value (i : Iface) : Val :=
  .object (((i.config.fields.set "iface" (.string i.config.iface)).set "config"
    (strVal i.config.config)).set
    "config_data" (strVal i.configData)).entries

structure Wpas where
  /-- The list of each phy. -/
  config : Obj String (Obj String (Option Iface))
  ifacePhy : Obj String String
  /-- The names of the interfaces in the supplicant, the one that was added last first. -/
  interfaces : List String

def prepareConfig (readfile : Option String → Option String) (config : IfaceConfig) : Iface where
  config := config
  configData := readfile config.config
  running := false

namespace Wpas

def init : Wpas where
  config := .empty
  ifacePhy := .empty
  interfaces := []

section

variable (s : Wpas)

def ifaceStop (iface : Iface) : Wpas × Iface :=
  let ifname := iface.config.iface
  if !iface.running then (s, iface)
  else
    ({ s with ifacePhy := s.ifacePhy.delete ifname, interfaces := s.interfaces.erase ifname },
      { iface with running := false })

/-- Whether the supplicant accepts the interface is not checked. -/
def ifaceStart (phy : String) (accepted : Bool) (s : Wpas) (iface : Iface) : Wpas × Iface :=
  let ifname := iface.config.iface
  if iface.running then (s, iface)
  else
    ({ s with
        ifacePhy := s.ifacePhy.set ifname phy
        interfaces := if accepted then ifname :: s.interfaces else s.interfaces },
      { iface with running := true })

/-- The second component is the new interface after the call. -/
def ifaceCb (newIf oldIf : Option Iface) : Wpas × Option Iface :=
  match newIf, oldIf with
  | some n, some o =>
    if isEqual o.value n.value then (s, some { n with running := o.running })
    else ((s.ifaceStop o).1, some n)
  | none, some o => ((s.ifaceStop o).1, none)
  | n, none => (s, n)

def data (phy : String) : Obj String (Option Iface) := (s.config.get phy).getD .empty

def setData (phy : String) (data : Obj String (Option Iface)) : Wpas :=
  { s with config := s.config.set phy data }

section

variable (phy ifname : String)

def store (iface : Iface) : Wpas :=
  s.setData phy ((s.data phy).set ifname (some iface))

def callback (phy : String) (s : Wpas) (c : Call String Iface) : Wpas :=
  match s.ifaceCb c.newVal c.oldVal with
  | (s, none) => s
  | (s, some iface) => s.store phy c.key iface

section

variable (readfile : Option String → Option String)

def values (configs : List IfaceConfig) : Values String Iface :=
  .array (configs.map fun config => (config.iface, some (prepareConfig readfile config)))

def setConfig (phy : String) (configs : List IfaceConfig) : Wpas :=
  let (newData, calls) := update (s.data phy) (values readfile configs)
  calls.foldl (callback phy) (s.setData phy newData)

end

def entry : Option Iface := index (s.data phy) ifname

def forEach (f : Wpas → Iface → Wpas × Iface) (phy : String) (s : Wpas) (ifname : String) : Wpas :=
  match s.entry phy ifname with
  | none => s -- no entry is null
  | some iface => (f s iface).1.store phy ifname (f s iface).2

def startPending (opened : Bool) (accepted : Iface → Bool) (phy : String) : Wpas :=
  if opened then
    (s.data phy).keys.foldl (forEach (fun s iface => s.ifaceStart phy (accepted iface) iface) phy) s
  else s

def stop (phy : String) : Wpas := (s.data phy).keys.foldl (forEach ifaceStop phy) s

/-! ## Which phy an interface belongs to -/

def Added : Prop := ifname ∈ s.interfaces ∧ s.ifacePhy.get ifname = some phy

def Running : Prop := ∃ i, s.entry phy ifname = some i ∧ i.running

end

end

variable {s : Wpas} {phy p ifname k : String} {iface : Iface}

lemma Added.unique (h : s.Added phy ifname) (h' : s.Added p ifname) : phy = p :=
  some.inj (h.2.symm.trans h'.2)

lemma data_setData (s : Wpas) (phy : String) (data : Obj String (Option Iface)) (p : String) :
    (s.setData phy data).data p = if phy = p then data else s.data p := by
  rw [Wpas.data, setData, get_set]
  split <;> rfl

lemma data_store (s : Wpas) (phy ifname : String) (iface : Iface) (p : String) :
    (s.store phy ifname iface).data p = if phy =
    p then (s.data phy).set ifname (some iface) else s.data p :=
  data_setData s phy _ p

lemma entry_store (s : Wpas) (phy ifname : String) (iface : Iface) (p k : String) :
    (s.store phy ifname iface).entry p k = if phy = p ∧
    ifname = k then some iface else s.entry p k := by
  rw [entry, data_store]
  by_cases hp : phy = p
  · subst hp
    rw [if_pos rfl, index, get_set]
    by_cases hk : ifname = k <;> simp [hk, entry, index]
  · rw [if_neg hp, if_neg fun h => hp h.1, entry]

lemma mem_keys_store (h : ifname ∈ (s.data phy).keys) :
    k ∈ ((s.store phy ifname iface).data p).keys ↔ k ∈ (s.data p).keys := by
  rw [data_store]
  split
  next hp =>
    subst hp
    rw [Obj.mem_keys, get_set]
    split
    next hk => simp [← hk, h]
    next => rw [Obj.mem_keys]
  next => rfl

lemma mem_keys_of_entry (h : s.entry phy ifname = some iface) : ifname ∈ (s.data phy).keys :=
  mem_keys.2 ⟨some iface, join_eq_some_iff.1 h⟩

/-! ## The invariant -/

/-- The entries of the lists have their names, and an interface is in the supplicant once. -/
structure Wf (s : Wpas) : Prop where
  named : ∀ p k i, s.entry p k = some i → i.config.iface = k
  full : ∀ p k, k ∈ (s.data p).keys → (s.entry p k).isSome
  known : ∀ k ∈ s.interfaces, ∃ p, s.ifacePhy.get k = some p
  nodup : s.interfaces.Nodup

structure Inv (s : Wpas) : Prop where
  wf : s.Wf
  running : ∀ p k, s.Added p k ↔ s.Running p k

lemma Wf.store (h : s.Wf) (hk : ifname ∈ (s.data phy).keys)
    (hname : iface.config.iface = ifname) :
    (s.store phy ifname iface).Wf where
  named p k i hi := by
    rw [entry_store] at hi
    split at hi
    next heq =>
      obtain rfl : iface = i := some.inj hi
      exact hname.trans heq.2
    next => exact h.named p k i hi
  full p k hmem := by
    rw [entry_store]
    split
    next => rfl
    next => exact h.full p k ((mem_keys_store hk).1 hmem)
  known := h.known
  nodup := h.nodup

/-! ### Stopping and starting -/

lemma data_ifaceStop : (s.ifaceStop iface).1.data p = s.data p := by
  unfold ifaceStop
  split <;> rfl

lemma entry_ifaceStop : (s.ifaceStop iface).1.entry p k = s.entry p k := by
  rw [entry, data_ifaceStop, entry]

lemma wf_ifaceStop (h : s.Wf) : (s.ifaceStop iface).1.Wf := by
  unfold ifaceStop
  split
  next => exact h
  next =>
    refine ⟨h.named, h.full, fun k hk => ?_, h.nodup.erase _⟩
    obtain ⟨hne, hk⟩ := h.nodup.mem_erase_iff.1 hk
    obtain ⟨p, hp⟩ := h.known k hk
    exact ⟨p, by rw [get_delete, if_neg (Ne.symm hne), hp]⟩

lemma added_ifaceStop (h : s.Wf) :
    (s.ifaceStop iface).1.Added p k ↔ s.Added p k ∧ ¬ (iface.running ∧ iface.config.iface = k) := by
  unfold ifaceStop
  cases hrun : iface.running with
  | false => simp
  | true =>
    by_cases hk : iface.config.iface = k
    · simp [Added, get_delete, hk]
    · simp [Added, get_delete, hk, h.nodup.mem_erase_iff, Ne.symm hk]

lemma ifaceStop_iface : (s.ifaceStop iface).2 = { iface with running := false } := by
  unfold ifaceStop
  cases hrun : iface.running with
  | false => simp [← hrun]
  | true => rfl

lemma inv_stop (h : s.Inv) (hentry : s.entry phy ifname = some iface) :
    ((s.ifaceStop iface).1.store phy ifname (s.ifaceStop iface).2).Inv := by
  have hname := h.wf.named _ _ _ hentry
  have hkeys : ifname ∈ ((s.ifaceStop iface).1.data phy).keys := by
    rw [data_ifaceStop]
    exact mem_keys_of_entry hentry
  have hname' : (s.ifaceStop iface).2.config.iface = ifname := by
    rw [ifaceStop_iface]
    exact hname
  refine ⟨(wf_ifaceStop h.wf).store hkeys hname', fun p k => ?_⟩
  show (s.ifaceStop iface).1.Added p k ↔ _
  rw [added_ifaceStop h.wf, Running, entry_store, entry_ifaceStop, ifaceStop_iface, hname,
    h.running]
  by_cases hk : ifname = k
  · subst hk
    by_cases hp : phy = p
    · subst hp
      simp [Running, hentry]
    · -- the name is in the supplicant for one phy only
      simp only [hp, false_and, if_false]
      refine ⟨And.left, fun hrun => ⟨hrun, fun hthis => hp ?_⟩⟩
      exact ((h.running phy ifname).2 ⟨iface, hentry, hthis.1⟩).unique ((h.running p ifname).2 hrun)
  · simp [hk, Running]

section

variable {accepted : Bool}

/-- The supplicant accepts the interface, and none of its interfaces has the name. -/
def Startable (s : Wpas) (accepted : Bool) (iface : Iface) : Prop :=
  iface.running = false → accepted ∧ iface.config.iface ∉ s.interfaces

lemma data_ifaceStart : (s.ifaceStart phy accepted iface).1.data p = s.data p := by
  unfold ifaceStart
  split <;> rfl

lemma entry_ifaceStart : (s.ifaceStart phy accepted iface).1.entry p k = s.entry p k := by
  rw [entry, data_ifaceStart, entry]

lemma ifaceStart_iface : (s.ifaceStart phy accepted iface).2 =
    { iface with running := true } := by
  unfold ifaceStart
  cases hrun : iface.running with
  | true => simp [← hrun]
  | false => rfl

lemma mem_interfaces_ifaceStart (h : k ∈ (s.ifaceStart phy accepted iface).1.interfaces) :
    k = iface.config.iface ∨ k ∈ s.interfaces := by
  unfold ifaceStart at h
  cases hrun : iface.running with
  | true => exact .inr (by simpa [hrun] using h)
  | false => cases accepted <;> simp_all

lemma wf_ifaceStart (h : s.Wf) (hstart : s.Startable accepted iface) :
    (s.ifaceStart phy accepted iface).1.Wf := by
  unfold ifaceStart
  cases hrun : iface.running with
  | true => exact h
  | false =>
    obtain ⟨rfl, hnew⟩ := hstart hrun
    refine ⟨h.named, h.full, fun k hk => ?_, nodup_cons.2 ⟨hnew, h.nodup⟩⟩
    show ∃ p, (s.ifacePhy.set iface.config.iface phy).get k = some p
    rw [get_set]
    split
    next => exact ⟨phy, rfl⟩
    next hne => exact h.known k ((mem_cons.1 hk).resolve_left (Ne.symm hne))

lemma added_ifaceStart (hstart : s.Startable accepted iface) :
    (s.ifaceStart phy accepted iface).1.Added p k ↔
      if iface.running = false ∧ iface.config.iface = k then phy = p else s.Added p k := by
  unfold ifaceStart
  cases hrun : iface.running with
  | true => simp
  | false =>
    obtain ⟨rfl, -⟩ := hstart hrun
    by_cases hk : iface.config.iface = k
    · simp [Added, get_set, hk]
    · simp [Added, get_set, hk, Ne.symm hk]

lemma inv_start (h : s.Inv) (hentry : s.entry phy ifname = some iface)
    (hstart : s.Startable accepted iface) :
    ((s.ifaceStart phy accepted iface).1.store phy ifname
    (s.ifaceStart phy accepted iface).2).Inv := by
  have hname := h.wf.named _ _ _ hentry
  have hkeys : ifname ∈ ((s.ifaceStart phy accepted iface).1.data phy).keys := by
    rw [data_ifaceStart]
    exact mem_keys_of_entry hentry
  have hname' : (s.ifaceStart phy accepted iface).2.config.iface = ifname := by
    rw [ifaceStart_iface]
    exact hname
  refine ⟨(wf_ifaceStart h.wf hstart).store hkeys hname', fun p k => ?_⟩
  show (s.ifaceStart phy accepted iface).1.Added p k ↔ _
  rw [added_ifaceStart hstart, Running, entry_store, entry_ifaceStart, ifaceStart_iface, hname,
    h.running]
  by_cases hk : ifname = k
  · subst hk
    by_cases hp : phy = p
    · subst hp
      cases hrun : iface.running with
      | true => simp [Running, hentry, hrun]
      | false => simp
    · simp only [hp, if_false, and_true]
      split
      next hrun =>
        -- no other phy has an interface of this name
        refine ⟨False.elim, fun hother => (hstart hrun).2 ?_⟩
        rw [hname]
        exact ((h.running p ifname).2 hother).1
      next => rfl
  · simp [hk, Running]

end

/-! ### The callback -/

def stopOld (s : Wpas) : Option Iface → Wpas
  | none => s
  | some o => (s.ifaceStop o).1

lemma callback_cases (phy : String) (s : Wpas) (c : Call String Iface) :
    (∃ n o, c.newVal = some n ∧ c.oldVal = some o ∧
      callback phy s c = s.store phy c.key { n with running := o.running }) ∨
    (c.newVal = none ∧ callback phy s c = s.stopOld c.oldVal) ∨
    ∃ n, c.newVal = some n ∧ callback phy s c = (s.stopOld c.oldVal).store phy c.key n := by
  unfold callback
  rcases hnew : c.newVal with _ | n <;> rcases hold : c.oldVal with _ | o
  · exact .inr (.inl ⟨rfl, rfl⟩)
  · exact .inr (.inl ⟨rfl, rfl⟩)
  · exact .inr (.inr ⟨n, rfl, rfl⟩)
  · cases heq : isEqual o.value n.value with
    | true => exact .inl ⟨n, o, rfl, rfl, by simp [ifaceCb, heq]⟩
    | false => exact .inr (.inr ⟨n, rfl, by simp [ifaceCb, heq, stopOld]⟩)

variable {old : Option Iface}

lemma data_stopOld : (s.stopOld old).data p = s.data p := by
  cases old with
  | none => rfl
  | some o => exact data_ifaceStop

lemma entry_stopOld : (s.stopOld old).entry p k = s.entry p k := by
  rw [entry, data_stopOld, entry]

lemma wf_stopOld (h : s.Wf) : (s.stopOld old).Wf := by
  cases old with
  | none => exact h
  | some o => exact wf_ifaceStop h

lemma added_stopOld (h : s.Wf) : (s.stopOld old).Added p k ↔
    s.Added p k ∧ ¬ ∃ o, old = some o ∧ o.running ∧ o.config.iface = k := by
  cases old with
  | none => simp [stopOld]
  | some o => simpa [stopOld] using added_ifaceStop h

/-- Left to do for the calls `cs`: their new interfaces are not running, their old ones still
are. -/
structure Updating (phy : String) (s : Wpas) (cs : List (Call String Iface)) : Prop where
  wf : s.Wf
  nodup : (cs.map Call.key).Nodup
  new : ∀ c ∈ cs, c.newVal = s.entry phy c.key ∧ ∀ n, c.newVal = some n → n.running = false
  old : ∀ c ∈ cs, ∀ o, c.oldVal = some o → o.config.iface = c.key
  running : ∀ p k, s.Added p k ↔
    s.Running p k ∨ p = phy ∧ ∃ c ∈ cs, c.key = k ∧ ∃ o, c.oldVal = some o ∧ o.running

section

variable {s' : Wpas} {c : Call String Iface} {cs : List (Call String Iface)}

section

variable (h : Updating phy s (c :: cs))
include h

lemma Updating.key_ne {d : Call String Iface} (hd : d ∈ cs) : d.key ≠ c.key := by
  intro heq
  exact (nodup_cons.1 h.nodup).1 (heq ▸ List.mem_map_of_mem hd)

lemma Updating.head : s.Added p c.key ↔
    s.Running p c.key ∨ p = phy ∧ ∃ o, c.oldVal = some o ∧ o.running := by
  rw [h.running]
  refine or_congr_right (and_congr_right fun _ => ⟨?_, fun ho => ⟨c, by simp, rfl, ho⟩⟩)
  rintro ⟨d, hd, hkey, ho⟩
  obtain rfl | hd := mem_cons.1 hd
  · exact ho
  · exact absurd hkey (h.key_ne hd)

lemma Updating.not_running : ¬ s.Running phy c.key := by
  rintro ⟨i, hi, hrun⟩
  obtain ⟨hnew, hstopped⟩ := h.new c (by simp)
  rw [hstopped i (hnew.trans hi)] at hrun
  cases hrun

lemma Updating.next (hwf : s'.Wf) (hentry : ∀ p k, ¬ (phy = p ∧ c.key = k) →
    s'.entry p k = s.entry p k) (hadded : ∀ p k, c.key ≠ k → (s'.Added p k ↔ s.Added p k))
    (hkey : ∀ p, s'.Added p c.key ↔ s'.Running p c.key) : Updating phy s' cs where
  wf := hwf
  nodup := (nodup_cons.1 h.nodup).2
  new d hd := by
    rw [hentry phy d.key fun heq => h.key_ne hd heq.2.symm]
    exact h.new d (mem_cons_of_mem c hd)
  old d hd := h.old d (mem_cons_of_mem c hd)
  running p k := by
    by_cases hk : c.key = k
    · subst hk
      rw [hkey, or_iff_left]
      rintro ⟨-, d, hd, heq, -⟩
      exact h.key_ne hd heq
    · rw [hadded p k hk, h.running, Running, Running, hentry p k fun heq => hk heq.2]
      simp [hk]

lemma Updating.keep {n o : Iface} (hnew : c.newVal = some n) (hold : c.oldVal = some o) :
    Updating phy (s.store phy c.key { n with running := o.running }) cs := by
  have hentry : s.entry phy c.key = some n := (h.new c (by simp)).1.symm.trans hnew
  have hname : n.config.iface = c.key := h.wf.named _ _ _ hentry
  refine h.next (h.wf.store (mem_keys_of_entry hentry) hname) (fun p k hne => ?_)
    (fun p k _ => Iff.rfl) fun p => ?_
  · rw [entry_store, if_neg hne]
  show s.Added p c.key ↔ _
  rw [h.head, Running, Running, entry_store]
  by_cases hp : phy = p
  · subst hp
    have hnot := h.not_running
    rw [Running] at hnot
    simp [hnot, hold]
  · simp [hp, Ne.symm hp]

lemma Updating.stopOld_key : (s.stopOld c.oldVal).Added p c.key ↔ s.Running p c.key := by
  rw [added_stopOld h.wf]
  have hnot := h.not_running
  constructor
  · rintro ⟨hadded, hstop⟩
    obtain hrun | ⟨-, o, ho, hrun⟩ := h.head.1 hadded
    · exact hrun
    · exact absurd ⟨o, ho, hrun, h.old c (by simp) o ho⟩ hstop
  · intro hrun
    have hadded : s.Added p c.key := h.head.2 (.inl hrun)
    refine ⟨hadded, ?_⟩
    rintro ⟨o, ho, horun, -⟩
    -- the name would be in the supplicant for two phys
    have hphy : s.Added phy c.key := h.head.2 (.inr ⟨rfl, o, ho, horun⟩)
    exact hnot (hphy.unique hadded ▸ hrun)

lemma Updating.stop : Updating phy (s.stopOld c.oldVal) cs := by
  refine h.next (wf_stopOld h.wf) (fun p k _ => entry_stopOld) (fun p k hk => ?_) fun p => ?_
  · rw [added_stopOld h.wf, and_iff_left]
    rintro ⟨o, ho, -, heq⟩
    exact hk ((h.old c (by simp) o ho).symm.trans heq)
  · rw [h.stopOld_key, Running, Running, entry_stopOld]

end

lemma Updating.store (h : Updating phy s cs) {n : Iface} (hentry : s.entry phy ifname = some n) :
    Updating phy (s.store phy ifname n) cs := by
  have hsame : ∀ p k, (s.store phy ifname n).entry p k = s.entry p k := by
    intro p k
    rw [entry_store]
    split
    next heq => rw [← heq.1, ← heq.2, hentry]
    next => rfl
  refine ⟨h.wf.store (mem_keys_of_entry hentry) (h.wf.named _ _ _ hentry), h.nodup, fun d hd =>
    ?_, h.old, fun p k => ?_⟩
  · rw [hsame]
    exact h.new d hd
  · rw [Running, hsame]
    exact h.running p k

lemma Updating.callback (h : Updating phy s (c :: cs)) : Updating phy (callback phy s c) cs := by
  obtain ⟨n, o, hnew, hold, heq⟩ | ⟨-, heq⟩ | ⟨n, hnew, heq⟩ := callback_cases phy s c
  · rw [heq]
    exact h.keep hnew hold
  · rw [heq]
    exact h.stop
  · rw [heq]
    have hentry : s.entry phy c.key = some n := (h.new c (by simp)).1.symm.trans hnew
    exact h.stop.store (entry_stopOld.trans hentry)

lemma Updating.callbacks (h : Updating phy s cs) : (cs.foldl (Wpas.callback phy) s).Inv := by
  induction cs generalizing s with
  | nil => exact ⟨h.wf, by simpa using h.running⟩
  | cons c cs ih => exact ih h.callback

end

/-! ### The functions -/

section

variable (readfile : Option String → Option String) (configs : List IfaceConfig)

lemma mem_values {k : String} {v : Option Iface} (h : (k, v) ∈ (values readfile configs).pairs) :
    ∃ n, v = some n ∧ n.config.iface = k ∧ n.running = false := by
  obtain ⟨config, -, heq⟩ := List.mem_map.1 h
  obtain ⟨rfl, rfl⟩ := Prod.mk.inj heq
  exact ⟨_, rfl, rfl, rfl⟩

variable {readfile configs} {newData : Obj String (Option Iface)} {calls : List (Call String Iface)}

lemma entry_setData_self : (s.setData phy newData).entry phy k = index newData k := by
  rw [entry, data_setData, if_pos rfl]

lemma entry_setData_of_ne (hp : phy ≠ p) : (s.setData phy newData).entry p k = s.entry p k := by
  rw [entry, data_setData, if_neg hp, entry]

section

variable (h : Reported (s.data phy) (values readfile configs) newData calls)
include h

lemma reported_new
    {v : Option Iface} (hv : newData.get k = some v) :
    ∃ n, v = some n ∧ n.config.iface = k ∧ n.running = false :=
  mem_values readfile configs (mem_of_lastOf _ ((h.stored k).symm.trans hv))

lemma reported_index
    (hi : index newData k = some iface) : iface.config.iface = k ∧ iface.running = false := by
  obtain ⟨n, hn, hprop⟩ := reported_new h (join_eq_some_iff.1 hi)
  obtain rfl : iface = n := some.inj hn
  exact hprop

end

lemma wf_setData (hs : s.Wf) (h : Reported (s.data phy) (values readfile configs) newData calls) :
    (s.setData phy newData).Wf where
  named p k i hi := by
    by_cases hp : phy = p
    · subst hp
      rw [entry_setData_self] at hi
      exact (reported_index h hi).1
    · rw [entry_setData_of_ne hp] at hi
      exact hs.named p k i hi
  full p k hk := by
    rw [data_setData] at hk
    by_cases hp : phy = p
    · subst hp
      rw [if_pos rfl] at hk
      obtain ⟨v, hv⟩ := mem_keys.1 hk
      obtain ⟨n, rfl, -⟩ := reported_new h hv
      rw [entry_setData_self, index, hv]
      rfl
    · rw [if_neg hp] at hk
      rw [entry_setData_of_ne hp]
      exact hs.full p k hk
  known := hs.known
  nodup := hs.nodup

lemma updating_setData (hs : s.Inv)
    (h : Reported (s.data phy) (values readfile configs) newData calls) :
    Updating phy (s.setData phy newData) calls where
  wf := wf_setData hs.wf h
  nodup := h.once
  new c hc := by
    rw [entry_setData_self, h.newVal hc]
    exact ⟨rfl, fun n hn => (reported_index h hn).2⟩
  old c hc o ho := hs.wf.named phy c.key o ((h.oldVal hc).symm.trans ho)
  running p k := by
    show s.Added p k ↔ _
    rw [hs.running]
    by_cases hp : phy = p
    · subst hp
      have hnot : ¬ (s.setData phy newData).Running phy k := by
        rintro ⟨i, hi, hrun⟩
        rw [entry_setData_self] at hi
        rw [(reported_index h hi).2] at hrun
        cases hrun
      rw [or_iff_right hnot]
      constructor
      · rintro ⟨i, hi, hrun⟩
        obtain ⟨c, hc, rfl⟩ := List.mem_map.1 ((h.mem k).2 (.inl (mem_keys_of_entry hi)))
        exact ⟨rfl, c, hc, rfl, i, (h.oldVal hc).trans hi, hrun⟩
      · rintro ⟨-, c, hc, rfl, o, ho, hrun⟩
        exact ⟨o, (h.oldVal hc).symm.trans ho, hrun⟩
    · rw [Running, Running, entry_setData_of_ne hp, or_iff_left fun h => hp h.1.symm]

lemma inv_setConfig (hs : s.Inv) (hrep : NoRepeat (s.data phy) (values readfile configs)) :
    (s.setConfig readfile phy configs).Inv :=
  (updating_setData hs (reported_of_noRepeat hrep)).callbacks

end

lemma inv_stop_all (hs : s.Inv) (ks : List String) :
    (ks.foldl (forEach ifaceStop phy) s).Inv := by
  induction ks generalizing s with
  | nil => exact hs
  | cons k ks ih =>
    refine ih ?_
    unfold forEach
    split
    next => exact hs
    next iface hentry => exact inv_stop hs hentry

section

variable {accepted : Iface → Bool} {ks : List String}

abbrev startOne (accepted : Iface → Bool) (phy : String) : Wpas → String → Wpas :=
  forEach (fun s iface => s.ifaceStart phy (accepted iface) iface) phy

structure Starting (accepted : Iface → Bool) (phy : String) (s : Wpas)
    (ks : List String) : Prop where
  inv : s.Inv
  nodup : ks.Nodup
  startable : ∀ k ∈ ks, ∀ i, s.entry phy k = some i → s.Startable (accepted i) i
  done : ∀ k i, k ∉ ks → s.entry phy k = some i → i.running

lemma Starting.next (h : Starting accepted phy s (k :: ks)) :
    Starting accepted phy (startOne accepted phy s k) ks := by
  obtain ⟨hk, hnodup⟩ := nodup_cons.1 h.nodup
  unfold startOne forEach
  split
  next hnone =>
    refine ⟨h.inv, hnodup, fun k' hk' => h.startable k' (mem_cons_of_mem k hk'), fun k' i hk' hi =>
      ?_⟩
    refine h.done k' i (fun hmem => ?_) hi
    obtain rfl | hmem := mem_cons.1 hmem
    · rw [hnone] at hi
      cases hi
    · exact hk' hmem
  next iface hentry =>
    have hstart : s.Startable (accepted iface) iface := h.startable k (by simp) iface hentry
    refine ⟨inv_start h.inv hentry hstart, hnodup, fun k' hk' i hi hrun => ?_, fun k' i hk' hi =>
      ?_⟩
    · have hne : k ≠ k' := fun heq => hk (heq ▸ hk')
      rw [entry_store, if_neg fun heq => hne heq.2, entry_ifaceStart] at hi
      obtain ⟨hacc, hnew⟩ := h.startable k' (mem_cons_of_mem k hk') i hi hrun
      refine ⟨hacc, fun hmem => ?_⟩
      obtain heq | hmem := mem_interfaces_ifaceStart hmem
      · exact hne (((h.inv.wf.named _ _ _ hentry).symm.trans heq.symm).trans
          (h.inv.wf.named _ _ _ hi))
      · exact hnew hmem
    · rw [entry_store] at hi
      split at hi
      next =>
        obtain rfl := some.inj hi
        rw [ifaceStart_iface]
      next hne =>
        rw [entry_ifaceStart] at hi
        refine h.done k' i (fun hmem => ?_) hi
        obtain rfl | hmem := mem_cons.1 hmem
        · exact hne ⟨rfl, rfl⟩
        · exact hk' hmem

lemma Starting.all (h : Starting accepted phy s ks) :
    Starting accepted phy (ks.foldl (startOne accepted phy) s) [] := by
  induction ks generalizing s with
  | nil => exact h
  | cons k ks ih => exact ih h.next

end

/-! ### The other phys -/

section

variable {f : Wpas → Iface → Wpas × Iface} {α : Type}

lemma entry_store_of_ne (hp : phy ≠ p) : (s.store phy ifname iface).entry p k = s.entry p k := by
  rw [entry_store, if_neg fun heq => hp heq.1]

lemma entry_callback_of_ne (hp : phy ≠ p) (c : Call String Iface) :
    (callback phy s c).entry p k = s.entry p k := by
  obtain ⟨n, o, -, -, heq⟩ | ⟨-, heq⟩ | ⟨n, -, heq⟩ := callback_cases phy s c
  · rw [heq, entry_store_of_ne hp]
  · rw [heq, entry_stopOld]
  · rw [heq, entry_store_of_ne hp, entry_stopOld]

lemma entry_forEach_of_ne (hf : ∀ s iface, (f s iface).1.entry p k = s.entry p k) (hp : phy ≠ p) :
    (forEach f phy s ifname).entry p k = s.entry p k := by
  unfold forEach
  split
  next => rfl
  next => rw [entry_store_of_ne hp, hf]

lemma entry_foldl {step : Wpas → α → Wpas} (hstep : ∀ s a, (step s a).entry p k = s.entry p k)
    (as : List α) (s : Wpas) : (as.foldl step s).entry p k = s.entry p k := by
  induction as generalizing s with
  | nil => rfl
  | cons a as ih => rw [foldl_cons, ih, hstep]

end

end Wpas

/-! ## Runs of the script -/

/-- The script, and the phys whose interfaces were started since their list was set. -/
structure Supplicant where
  wpas : Wpas
  started : String → Bool

/-- A request to the script with what the functions it calls return. -/
inductive Request
  | setConfig (readfile : Option String → Option String) (phy : String) (configs : List IfaceConfig)
  | startPending (opened : Bool) (accepted : Iface → Bool) (phy : String)
  | stop (phy : String)

namespace Supplicant

def init : Supplicant where
  wpas := .init
  started _ := false

variable (m : Supplicant)

def step : Request → Supplicant
  | .setConfig readfile phy configs =>
    { wpas := m.wpas.setConfig readfile phy configs, started := update m.started phy false }
  | .startPending opened accepted phy =>
    { wpas := m.wpas.startPending opened accepted phy
      started := if opened then update m.started phy true else m.started }
  | .stop phy => { wpas := m.wpas.stop phy, started := update m.started phy false }

/-- The interfaces of a started phy are those of its list, and every interface is in the list of its
phy. -/
def Follows : Prop :=
  (∀ phy, m.started phy → ∀ k, m.wpas.Added phy k ↔ k ∈ (m.wpas.data phy).keys) ∧
    ∀ k ∈ m.wpas.interfaces, ∃ phy, m.wpas.Added phy k ∧ k ∈ (m.wpas.data phy).keys

/-- A configuration does not repeat the name of a listed interface. The interfaces that are started
are accepted and have new names. -/
def Regular : Request → Prop
  | .setConfig readfile phy configs => NoRepeat (m.wpas.data phy) (Wpas.values readfile configs)
  | .startPending opened accepted phy =>
    opened → ∀ k i, m.wpas.entry phy k = some i → m.wpas.Startable (accepted i) i
  | .stop _ => True

structure Inv (m : Supplicant) : Prop where
  wpas : m.wpas.Inv
  started : ∀ phy, m.started phy → ∀ k i, m.wpas.entry phy k = some i → i.running

lemma Inv.follows {m : Supplicant} (h : m.Inv) : m.Follows := by
  refine ⟨fun phy hphy k => ?_, fun k hk => ?_⟩
  · rw [h.wpas.running]
    constructor
    · rintro ⟨i, hi, -⟩
      exact Wpas.mem_keys_of_entry hi
    · intro hk
      obtain ⟨i, hi⟩ := isSome_iff_exists.1 (h.wpas.wf.full phy k hk)
      exact ⟨i, hi, h.started phy hphy k i hi⟩
  · obtain ⟨phy, hphy⟩ := h.wpas.wf.known k hk
    obtain ⟨i, hi, hrun⟩ := (h.wpas.running phy k).1 ⟨hk, hphy⟩
    exact ⟨phy, ⟨hk, hphy⟩, Wpas.mem_keys_of_entry hi⟩

lemma init_inv : init.Inv := by
  have hentry : ∀ p k, Wpas.init.entry p k = none := fun _ _ => rfl
  refine ⟨⟨⟨fun p k i hi => ?_, fun p k hk => ?_, fun k hk => ?_, nodup_nil⟩, fun p k => ?_⟩,
    fun phy hphy => ?_⟩
  · cases (hentry p k).symm.trans hi
  · cases hk
  · cases hk
  · constructor
    · rintro ⟨hk, -⟩
      cases hk
    · rintro ⟨i, hi, -⟩
      cases (hentry p k).symm.trans hi
  · cases hphy

lemma Inv.of_wpas {m : Supplicant} (h : m.Inv) {wpas : Wpas} (hwpas : wpas.Inv) {phy : String}
    {b : Bool} (hother : ∀ p k, phy ≠ p → wpas.entry p k = m.wpas.entry p k)
    (hstarted : b → ∀ k i, wpas.entry phy k = some i → i.running) :
    Inv ⟨wpas, update m.started phy b⟩ := by
  refine ⟨hwpas, fun p hp k i hi => ?_⟩
  by_cases hne : phy = p
  · subst hne
    exact hstarted (by simpa using hp) k i hi
  · rw [hother p k hne] at hi
    exact h.started p (by simpa [update_of_ne (Ne.symm hne)] using hp) k i hi

lemma Inv.step {m : Supplicant} (h : m.Inv) (r : Request) (hr : m.Regular r) :
    (m.step r).Inv := by
  cases r with
  | setConfig readfile phy configs =>
    refine h.of_wpas (Wpas.inv_setConfig h.wpas hr) (fun p k hne => ?_) (by simp)
    rw [Wpas.setConfig, Wpas.entry_foldl fun s c => Wpas.entry_callback_of_ne hne c,
      Wpas.entry_setData_of_ne hne]
  | startPending opened accepted phy =>
    cases opened with
    | false => exact h
    | true =>
      have hstarting : Wpas.Starting accepted phy m.wpas (m.wpas.data phy).keys :=
        ⟨h.wpas, (m.wpas.data phy).nodup, fun k _ i hi => hr rfl k i hi,
          fun k i hk hi => absurd (Wpas.mem_keys_of_entry hi) hk⟩
      refine h.of_wpas hstarting.all.inv (fun p k hne => ?_) fun _ k i hi =>
        hstarting.all.done k i (by simp) hi
      exact Wpas.entry_foldl (fun s a =>
        Wpas.entry_forEach_of_ne (fun _ _ => Wpas.entry_ifaceStart) hne) _ _
  | stop phy =>
    refine h.of_wpas (Wpas.inv_stop_all h.wpas _) (fun p k hne => ?_) (by simp)
    exact Wpas.entry_foldl (fun s a =>
      Wpas.entry_forEach_of_ne (fun _ _ => Wpas.entry_ifaceStop) hne) _ _

/-- The callback gets the old value of every key iff no key with an old value is repeated. Then the
interfaces in the supplicant follow the lists. -/
theorem interfaces_follow_lists {κ V : Type} [DecidableEq κ] :
    (∀ (data : Obj κ (Option V)) (values : Values κ V),
      Reported data values (update data values).1 (update data values).2 ↔ NoRepeat data values) ∧
    ∀ rs : List Request, Each step Regular init rs → Always step Follows init rs :=
  ⟨fun _ _ => ⟨noRepeat_of_reported, reported_of_noRepeat⟩,
    fun rs => always_of_each (D := fun _ => True) (fun _ => Inv.follows)
      (fun _ r _ h => h.step r) rs
      (fun _ _ => trivial) init_inv⟩

def wlan0 (file : String) : IfaceConfig where
  iface := "wlan0"
  config := some file
  fields := .empty

def changed : List Request :=
  [.setConfig id "phy0" [wlan0 "a"], .startPending true (fun _ => true) "phy0",
    .setConfig id "phy0" [wlan0 "b"], .startPending true (fun _ => true) "phy0",
    .setConfig id "phy0" [], .startPending true (fun _ => true) "phy0"]

lemma startable_of_nil {s : Wpas} (hs : s.interfaces = []) (iface : Iface) :
    s.Startable true iface :=
  fun _ => ⟨rfl, by simp [hs]⟩

lemma changed_regular : Each step Regular init changed := by
  have hone : ∀ s file, NoRepeat s (Wpas.values id [wlan0 file]) :=
    fun s file => noRepeat_of_nodup (nodup_singleton _)
  refine ⟨hone _ "a", fun _ _ i _ => startable_of_nil rfl i, hone _ "b",
    fun _ _ i _ => startable_of_nil (by decide +kernel) i, noRepeat_of_nodup nodup_nil,
    fun _ _ i _ => startable_of_nil (by decide +kernel) i, trivial⟩

theorem interfaces_follow_changed : Each step Regular init changed ∧
    Always step Follows init changed :=
  ⟨changed_regular, (interfaces_follow_lists (κ := String) (V := Iface)).2 changed changed_regular⟩

def repeated : List Request :=
  [.setConfig id "phy0" [wlan0 "a"], .startPending true (fun _ => true) "phy0",
    .setConfig id "phy0" [wlan0 "b", wlan0 "b"], .setConfig id "phy0" [],
    .startPending true (fun _ => true) "phy0"]

/-- The callback gets no old value for the repeated key, and the interface stays. -/
theorem repeated_interface_stays : (∃ (data : Obj String (Option Nat)) (values : Values String Nat),
      ¬ Reported data values (update data values).1 (update data values).2) ∧
    ¬ Always step Follows init repeated := by
  refine ⟨⟨empty.set "wlan0" (some 0), .array [("wlan0", some 1), ("wlan0", some 1)], fun h => ?_⟩,
    fun h => ?_⟩
  · have hcount := noRepeat_of_reported h "wlan0" (by decide)
    exact absurd hcount (by decide)
  · obtain ⟨phy, hadded, hkey⟩ := h.last.2 "wlan0" (by decide +kernel)
    have hphy : (repeated.foldl step init).wpas.ifacePhy.get "wlan0" = some "phy0" := by
      decide +kernel
    obtain rfl : "phy0" = phy := some.inj (hphy.symm.trans hadded.2)
    exact absurd hkey (by decide +kernel)

end Supplicant

end SourceMaster.Hostapd
