import Mathlib.Data.List.Induction
import SourceMaster.Hostapd.Assign

/-!
# BSSIDs after a reload

Step 1 of `iface_reload_config` lets a BSS that is kept and whose address is generated keep the old
address, unless the list of addresses says that another BSS has it. The list maps an address to the
index of a BSS, and the test is for a true value, so an address of the first BSS, with index 0,
passes as free. `bssids_nodup_iff` says when the addresses are distinct in the end.
-/

namespace SourceMaster.Hostapd

open Function List Option Nat Bss Kept

variable {σ : Type}

/-! ## Who gets which address -/

section

variable (c : Calls σ) (new old : List Bss)

/-- `prev_bss_hash` after the first `i` iterations of step 1. -/
def hashesAt : Nat → List (Option String)
  | 0 => old.map fun b => some (bssConfigHash c b.data)
  | i + 1 =>
    match new[i]? with
    | none => hashesAt i
    | some cur => (findPrev c i cur (hashesAt i)).2

def prevAt (i : Nat) : Option Nat :=
  new[i]?.bind fun cur => (findPrev c i cur (hashesAt c new old i)).1

def wanted (i : Nat) : Option String :=
  new[i]?.bind fun cur =>
    if cur.defaultMacaddr then (prevAt c new old i).bind (addr old) else none

def staticAddr (i : Nat) : Option String :=
  new[i]?.bind fun cur => if cur.defaultMacaddr then none else some cur.bssid

/-- BSS `i` keeps its old address `a`: no BSS but the first has it statically, and none in front of
it, but for the first, wanted it. -/
structure Takes (i : Nat) (a : String) : Prop where
  wants : wanted c new old i = some a
  notStatic : ∀ k, k ≠ 0 → staticAddr new k ≠ some a
  first : ∀ j, 0 < j → j < i → wanted c new old j ≠ some a

/-- The address of a kept or static BSS, before new addresses are assigned. -/
def HasAddr (i : Nat) (a : String) : Prop :=
  Takes c new old i a ∨ ((∀ a', ¬ Takes c new old i a') ∧ addr new i = some a ∧
    (isDefault new i = some false ∨ (prevAt c new old i).isSome))

/-- No two BSS that are kept or static get the same address, unless one is the first BSS, static and
not kept: the BSS that took its address gives it back. -/
def Undisputed : Prop :=
  ∀ i j a, i < j → HasAddr c new old i a → HasAddr c new old j a →
    i = 0 ∧ isDefault new 0 = some false ∧ prevAt c new old 0 = none ∧ Takes c new old j a

def StaticDistinct : Prop :=
  ∀ i j a, staticAddr new i = some a → staticAddr new j = some a → i = j

/-- A kept BSS without its old address keeps the configured one, which is not in the list and not
generated for another BSS. -/
def NotGenerated (generate : Nat → Option String) : Prop :=
  ∀ i a, (prevAt c new old i).isSome → isDefault new i = some true →
    (∀ a', ¬ Takes c new old i a') →
    addr new i = some a → ∀ id < 32, generate id = some a → a ∈ c.wdevMacaddr

end

variable {c : Calls σ} {new old : List Bss} {i : Nat} {a : String}

lemma staticAddr_iff : staticAddr new i = some a ↔
    isDefault new i = some false ∧ addr new i = some a := by
  unfold staticAddr isDefault addr
  cases new[i]? with
  | none => simp
  | some b => cases h : b.defaultMacaddr <;> simp [h]

lemma Takes.unique {a' : String} (h : Takes c new old i a) (h' : Takes c new old i a') :
    a = a' := by
  have := h.wants.symm.trans h'.wants
  exact some.inj this

lemma wanted_some (h : wanted c new old i = some a) :
    isDefault new i = some true ∧ (prevAt c new old i).isSome := by
  obtain ⟨b, hb, h⟩ := bind_eq_some_iff.1 h
  split at h
  next hd =>
    obtain ⟨p, hp, -⟩ := bind_eq_some_iff.1 h
    exact ⟨by simp [isDefault, hb, hd], by simp [hp]⟩
  next => cases h

lemma Takes.isDefault (h : Takes c new old i a) : isDefault new i = some true :=
  (wanted_some h.wants).1

lemma Takes.kept (h : Takes c new old i a) : (prevAt c new old i).isSome :=
  (wanted_some h.wants).2

lemma not_takes_static (h : isDefault new i = some false) : ∀ a, ¬ Takes c new old i a := by
  intro a ht
  rw [ht.isDefault] at h
  cases h

/-! ## The list of static addresses -/

lemma ifaceConfigMacaddrList_spec (bss : List Bss) :
    (∀ a v, ifaceConfigMacaddrList bss a = some v → ∃ k : Nat, v = k ∧ staticAddr bss k = some a) ∧
      ∀ k a, staticAddr bss k = some a → ∃ k' : Nat, k ≤ k' ∧
      ifaceConfigMacaddrList bss a = some (k' : Int) := by
  induction bss using reverseRecOn with
  | nil => simp [ifaceConfigMacaddrList, staticAddr]
  | append_singleton bss b ih =>
    obtain ⟨ihval, ihsome⟩ := ih
    have hlist : ifaceConfigMacaddrList (bss ++ [b]) =
        if b.defaultMacaddr then ifaceConfigMacaddrList bss
        else update (ifaceConfigMacaddrList bss) b.bssid (some (bss.length : Int)) := by
      simp [ifaceConfigMacaddrList, zipIdx_append, foldl_append]
    have hold : ∀ k, k < bss.length → staticAddr (bss ++ [b]) k = staticAddr bss k := by
      intro k hk
      simp [staticAddr, getElem?_append_left hk]
    have hlast : staticAddr (bss ++ [b]) bss.length =
        if b.defaultMacaddr then none else some b.bssid := by
      simp [staticAddr]
    have hlt : ∀ {k a}, staticAddr bss k = some a → k < bss.length := fun h =>
      isDefault_lt (staticAddr_iff.1 h).1
    rw [hlist]
    constructor
    · intro a v hv
      have hin : ∀ {a v}, ifaceConfigMacaddrList bss a = some v →
          ∃ k : Nat, v = k ∧ staticAddr (bss ++ [b]) k = some a := by
        intro a v hv
        obtain ⟨k, hk, hs⟩ := ihval a v hv
        exact ⟨k, hk, by rw [hold k (hlt hs), hs]⟩
      split at hv
      · exact hin hv
      next hd =>
        by_cases hab : a = b.bssid
        · rw [hab, update_self] at hv
          exact ⟨bss.length, (some.inj hv).symm, by rw [hlast, if_neg hd, hab]⟩
        · rw [update_of_ne hab] at hv
          exact hin hv
    · intro k a hk
      have hle : k ≤ bss.length := by
        have := isDefault_lt (staticAddr_iff.1 hk).1
        simp at this
        omega
      by_cases hab : b.defaultMacaddr = false ∧ a = b.bssid
      · exact ⟨bss.length, hle, by rw [hab.1, hab.2, if_neg (by decide), update_self]⟩
      have hk' : staticAddr bss k = some a := by
        rcases Nat.lt_or_eq_of_le hle with hlt' | rfl
        · rwa [hold k hlt'] at hk
        rw [hlast] at hk
        split at hk
        · cases hk
        next hd => exact absurd ⟨by simpa using hd, (some.inj hk).symm⟩ hab
      obtain ⟨k', hle', hlist⟩ := ihsome k a hk'
      refine ⟨k', hle', ?_⟩
      split
      · exact hlist
      next hd => rwa [update_of_ne fun heq => hab ⟨by simpa using hd, heq⟩]

/-! ## Step 1 -/

def Bss.withoutBssid (b : Bss) : Bss := { b with bssid := "" }

structure Finding (c : Calls σ) (new old : List Bss) (n : Nat) (st : Reload) : Prop where
  rest : ∀ t : Nat, st.bss[t]?.map withoutBssid = new[t]?.map withoutBssid
  took : ∀ t a, t < n → Takes c new old t a → addr st.bss t = some a
  stays : ∀ t, (t < n → ∀ a, ¬ Takes c new old t a) → addr st.bss t = addr new t
  kept : ∀ t, (st.kept t).map prev = if t < n then prevAt c new old t else none
  hashes : st.prevBssHash = hashesAt c new old n
  values : ∀ a v, st.macaddrList a = some v → ∃ t : Nat, v = t ∧
    (staticAddr new t = some a ∨ (t < n ∧ Takes c new old t a))
  static : ∀ k a, k ≠ 0 → staticAddr new k = some a →
    ∃ k' : Nat, k' ≠ 0 ∧ staticAddr new k' = some a ∧ st.macaddrList a = some (k' : Int)
  first : ∀ a, staticAddr new 0 = some a → (st.macaddrList a).isSome
  taken : ∀ t a, 0 < t → t < n → Takes c new old t a → st.macaddrList a = some (t : Int)
  takenFirst : ∀ a, 0 < n → Takes c new old 0 a → (st.macaddrList a).isSome

namespace Finding

variable {n : Nat} {st st' : Reload} {w : σ}

section

variable (h : Finding c new old n st)
include h

lemma notListed_iff (hwant : wanted c new old n = some a) :
    notListed st.macaddrList a ↔ Takes c new old n a := by
  have hlisted : notListed st.macaddrList a ↔
      ∀ v, st.macaddrList a = some v → v = 0 := by
    unfold notListed
    cases st.macaddrList a <;> simp
  rw [hlisted]
  constructor
  · intro hzero
    have hstatic : ∀ k, k ≠ 0 → staticAddr new k ≠ some a := by
      intro k hk hs
      obtain ⟨k', hk', -, hlist⟩ := h.static k a hk hs
      have := hzero _ hlist
      omega
    refine ⟨hwant, hstatic, ?_⟩
    -- the first one that wanted the address has taken it
    intro j
    induction j using Nat.strongRecOn with
    | _ j ih =>
      intro hj hjn hwj
      have htakes : Takes c new old j a :=
        ⟨hwj, hstatic, fun i hi hij => ih i hij hi (Nat.lt_trans hij hjn)⟩
      have := hzero _ (h.taken j a hj hjn htakes)
      omega
  · intro htakes v hv
    obtain ⟨t, rfl, hs | ⟨htn, ht⟩⟩ := h.values a v hv
    · by_contra hne
      exact htakes.notStatic t (fun e => hne (by rw [e]; rfl)) hs
    · by_contra hne
      exact htakes.first t (Nat.pos_of_ne_zero fun e => hne (by rw [e]; rfl)) htn ht.wants

lemma flags (t : Nat) : isDefault st.bss t = isDefault new t := by
  have := congrArg (Option.map defaultMacaddr) (h.rest t)
  simpa [isDefault, withoutBssid, comp_def] using this

lemma length : st.bss.length = new.length := by
  have hlt : ∀ t, t < st.bss.length ↔ t < new.length := by
    intro t
    have := congrArg isSome (h.rest t)
    rw [isSome_map, isSome_map] at this
    rw [← addr_isSome, ← addr_isSome, addr, addr, isSome_map, isSome_map, this]
  have h₁ := hlt st.bss.length
  have h₂ := hlt new.length
  omega

lemma findPrev_eq {cur b : Bss} (hcur : st.bss[n]? = some cur) (hb : new[n]? = some b) :
    findPrev c n cur st.prevBssHash = findPrev c n b (hashesAt c new old n) ∧
      cur.defaultMacaddr = b.defaultMacaddr := by
  have hrest := h.rest n
  rw [hcur, hb] at hrest
  have hrest : cur.withoutBssid = b.withoutBssid := some.inj hrest
  have hdata : cur.data = b.data := by have := congrArg data hrest; exact this
  have hdef : cur.defaultMacaddr = b.defaultMacaddr := by
    have := congrArg defaultMacaddr hrest
    exact this
  refine ⟨?_, hdef⟩
  rw [h.hashes]
  unfold findPrev bssFindExisting
  rw [hdata]

variable {hashes : List (Option String)} {kept : Nat → Option Kept}

lemma pass (hnot : ∀ a, ¬ Takes c new old n a)
    (hhashes : hashes = hashesAt c new old (n + 1))
    (hkept : ∀ t, (kept t).map prev = if t < n + 1 then prevAt c new old t else none) :
    Finding c new old (n + 1)
      { bss := st.bss, kept := kept, macaddrList := st.macaddrList, prevBssHash := hashes } := by
  have hlt : ∀ {t a}, t < n + 1 → Takes c new old t a → t < n := by
    intro t a ht htakes
    rcases Nat.lt_succ_iff_lt_or_eq.1 ht with ht | rfl
    · exact ht
    · exact absurd htakes (hnot a)
  constructor
  case rest => exact h.rest
  case took => exact fun t a ht htakes => h.took t a (hlt ht htakes) htakes
  case stays => exact fun t ht => h.stays t fun htn => ht (Nat.lt_succ_of_lt htn)
  case kept => exact hkept
  case hashes => exact hhashes
  case values =>
    intro a v hv
    obtain ⟨t, ht, hs | ⟨htn, htakes⟩⟩ := h.values a v hv
    · exact ⟨t, ht, .inl hs⟩
    · exact ⟨t, ht, .inr ⟨Nat.lt_succ_of_lt htn, htakes⟩⟩
  case static => exact h.static
  case first => exact h.first
  case taken => exact fun t a hpos ht htakes => h.taken t a hpos (hlt ht htakes) htakes
  case takenFirst =>
    intro a hpos htakes
    exact h.takenFirst a (hlt hpos htakes) htakes

lemma take (hn : n < new.length) (htakes : Takes c new old n a)
    (hhashes : hashes = hashesAt c new old (n + 1))
    (hkept : ∀ t, (kept t).map prev = if t < n + 1 then prevAt c new old t else none) :
    Finding c new old (n + 1)
      { bss := setBssid st.bss n a, kept := kept
        macaddrList := update st.macaddrList a (some (n : Int)), prevBssHash := hashes } := by
  have hn' : n < st.bss.length := by rw [h.length]; exact hn
  constructor
  case rest =>
    intro t
    rw [← h.rest t]
    change (st.bss.modify n _)[t]?.map withoutBssid = _
    rw [getElem?_modify]
    cases st.bss[t]? with
    | none => rfl
    | some b => by_cases hnt : n = t <;> simp [hnt, withoutBssid]
  case took =>
    intro t a' ht ht'
    rcases Nat.lt_succ_iff_lt_or_eq.1 ht with ht | rfl
    · change addr (setBssid st.bss n a) t = some a'
      rw [addr_setBssid_ne (Nat.ne_of_lt ht)]
      exact h.took t a' ht ht'
    · rw [ht'.unique htakes]
      exact addr_setBssid_self hn'
  case stays =>
    intro t ht
    have hne : t ≠ n := by
      rintro rfl
      exact ht (lt_succ_self t) a htakes
    rw [addr_setBssid_ne hne]
    exact h.stays t fun htn => ht (Nat.lt_succ_of_lt htn)
  case kept => exact hkept
  case hashes => exact hhashes
  case values =>
    intro x v hv
    change update st.macaddrList a (some (n : Int)) x = some v at hv
    by_cases hx : x = a
    · rw [hx, update_self] at hv
      exact ⟨n, (some.inj hv).symm, .inr ⟨lt_succ_self n, hx ▸ htakes⟩⟩
    · rw [update_of_ne hx] at hv
      obtain ⟨t, ht, hs | ⟨htn, ht'⟩⟩ := h.values x v hv
      · exact ⟨t, ht, .inl hs⟩
      · exact ⟨t, ht, .inr ⟨Nat.lt_succ_of_lt htn, ht'⟩⟩
  case static =>
    intro k x hk hs
    have hx : x ≠ a := by
      rintro rfl
      exact htakes.notStatic k hk hs
    obtain ⟨k', hk', hs', hlist⟩ := h.static k x hk hs
    exact ⟨k', hk', hs', (update_of_ne hx ..).trans hlist⟩
  case first =>
    intro x hs
    change (update st.macaddrList a (some (n : Int)) x).isSome
    by_cases hx : x = a
    · simp [hx]
    · rw [update_of_ne hx]
      exact h.first x hs
  case taken =>
    intro t x hpos ht ht'
    change update st.macaddrList a (some (n : Int)) x = _
    rcases Nat.lt_succ_iff_lt_or_eq.1 ht with ht | rfl
    · have hx : x ≠ a := by
        rintro rfl
        exact htakes.first t hpos ht ht'.wants
      rw [update_of_ne hx]
      exact h.taken t x hpos ht ht'
    · rw [ht'.unique htakes, update_self]
  case takenFirst =>
    intro x _ ht'
    change (update st.macaddrList a (some (n : Int)) x).isSome
    by_cases hx : x = a
    · simp [hx]
    · rw [update_of_ne hx]
      rcases Nat.eq_zero_or_pos n with rfl | hpos
      · exact absurd (ht'.unique htakes) hx
      · exact h.takenFirst x hpos ht'

end

lemma step (h : Finding c new old n st) (hn : n < new.length)
    (hst : findExisting c old w st n = some st') : Finding c new old (n + 1) st' := by
  have hn' : n < st.bss.length := by rw [h.length]; exact hn
  have hb : new[n]? = some new[n] := getElem?_eq_getElem hn
  have hcur : st.bss[n]? = some st.bss[n] := getElem?_eq_getElem hn'
  obtain ⟨hfind, hdef⟩ := h.findPrev_eq hcur hb
  have hprev : prevAt c new old n = (findPrev c n new[n] (hashesAt c new old n)).1 := by
    rw [prevAt, hb, bind_some]
  have hhashes : (findPrev c n new[n] (hashesAt c new old n)).2 = hashesAt c new old (n + 1) := by
    rw [hashesAt, hb]
  have hkept : ∀ {k : Option Kept}, k.map prev = prevAt c new old n → ∀ t,
      (update st.kept n k t).map prev =
        if t < n + 1 then prevAt c new old t else none := by
    intro k hk t
    by_cases ht : t = n
    · rw [ht, update_self, if_pos (lt_succ_self n), hk]
    · rw [update_of_ne ht, h.kept t]
      exact if_congr ⟨fun h => Nat.lt_succ_of_lt h, fun h =>
        Nat.lt_of_le_of_ne (Nat.le_of_lt_succ h) ht⟩
        rfl rfl
  have hsame : update st.kept n none = st.kept := by
    have hnone : st.kept n = none := by
      have := h.kept n
      simpa using this
    rw [← hnone, update_eq_self]
  unfold findExisting at hst
  simp only [hcur, bind_eq_bind, bind_some] at hst
  rw [hfind] at hst
  cases hp : (findPrev c n new[n] (hashesAt c new old n)).1 with
  | none =>
    rw [hp] at hst hprev
    obtain rfl := some.inj hst
    have hnot : ∀ a, ¬ Takes c new old n a := by
      intro a ht
      have := ht.kept
      rw [hprev] at this
      cases this
    exact h.pass hnot hhashes (hsame ▸ hkept hprev.symm)
  | some p =>
    rw [hp] at hst hprev
    obtain ⟨o, ho, hst⟩ := bind_eq_some_iff.1 hst
    obtain ⟨handle, -, hst⟩ := bind_eq_some_iff.1 hst
    have hwant : wanted c new old n = if new[n].defaultMacaddr then some o.bssid else none := by
      rw [wanted, hb, bind_some, hprev, bind_some, addr, ho, map_some]
    have hk := @hkept (some ⟨handle, p⟩) (by rw [hprev]; rfl)
    rw [hdef] at hst
    split at hst
    next htest =>
      rw [Bool.and_eq_true] at htest
      rw [if_pos htest.1] at hwant
      obtain rfl := some.inj hst
      exact h.take hn ((h.notListed_iff hwant).1 htest.2) hhashes hk
    next htest =>
      obtain rfl := some.inj hst
      refine h.pass (fun a ht => htest ?_) hhashes hk
      have hw := ht.wants
      rw [hwant] at hw
      split at hw
      next hd =>
        obtain rfl := some.inj hw
        rw [Bool.and_eq_true]
        exact ⟨hd, (h.notListed_iff ht.wants).2 ht⟩
      next => cases hw

end Finding

lemma finding_zero : Finding c new old 0
    { bss := new, kept := fun _ => none, macaddrList := ifaceConfigMacaddrList new
      prevBssHash := old.map fun b => some (bssConfigHash c b.data) } := by
  obtain ⟨hvalues, hsome⟩ := ifaceConfigMacaddrList_spec new
  constructor
  case rest => exact fun _ => rfl
  case took => exact fun t _ ht => absurd ht (not_lt_zero t)
  case stays => exact fun _ _ => rfl
  case kept => exact fun _ => rfl
  case hashes => rfl
  case values =>
    intro a v hv
    obtain ⟨k, hk, hs⟩ := hvalues a v hv
    exact ⟨k, hk, .inl hs⟩
  case static =>
    intro k a hk hs
    obtain ⟨k', hle, hlist⟩ := hsome k a hs
    obtain ⟨t, ht, hs'⟩ := hvalues a k' hlist
    obtain rfl : k' = t := Int.ofNat.inj ht
    exact ⟨k', by omega, hs', hlist⟩
  case first =>
    intro a hs
    obtain ⟨k', -, hlist⟩ := hsome 0 a hs
    exact isSome_iff_exists.2 ⟨k', hlist⟩
  case taken => exact fun t _ _ ht => absurd ht (not_lt_zero t)
  case takenFirst => exact fun _ h0 => absurd h0 (Nat.lt_irrefl 0)

lemma findExisting_run {w : σ} (n : Nat) (hn : n ≤ new.length) {st : Reload}
    (hst : (range n).foldlM (findExisting c old w)
      { bss := new, kept := fun _ => none, macaddrList := ifaceConfigMacaddrList new
        prevBssHash := old.map fun b => some (bssConfigHash c b.data) } = some st) :
    Finding c new old n st :=
  Loops.range_inv (Finding c new old) finding_zero
    (fun _ _ _ hi hfind hst => hfind.step (Nat.lt_of_lt_of_le hi hn) hst) hst

/-! ## The list with the addresses of the interfaces -/

variable {list : MacaddrList} {v : Int}

lemma macaddrInit_of_some (h : list a = some v) : macaddrInit c list a = some v := by
  simp [macaddrInit, h]

lemma macaddrInit_isSome (h : (list a).isSome) : (macaddrInit c list a).isSome := by
  obtain ⟨v, hv⟩ := isSome_iff_exists.1 h
  rw [macaddrInit_of_some hv]
  rfl

lemma macaddrInit_cases (h : macaddrInit c list a = some v) : list a = some v ∨ v < 0 := by
  unfold macaddrInit at h
  split at h
  next idx hidx => exact .inl (hidx.trans h)
  next =>
    split at h
    · right
      rw [← some.inj h]
      decide
    · cases h

lemma macaddrInit_wdev (list : MacaddrList) (h : a ∈ c.wdevMacaddr) :
    (macaddrInit c list a).isSome := by
  unfold macaddrInit
  split
  · rfl
  · simp [h]

/-! ## Step 6 after step 1 -/

/-- The BSS that step 6 gives a new address. -/
abbrev GetsNew (c : Calls σ) (st : Reload) : Nat → Prop :=
  Fresh st.bss st.kept (macaddrInit c st.macaddrList) st.bss.length

namespace Finding

variable {st : Reload} {generate : Nat → Option String} {t : Nat}

section

variable (h : Finding c new old new.length st)
include h

lemma kept_eq (t : Nat) : (st.kept t).map prev = prevAt c new old t := by
  rw [h.kept t]
  split
  · rfl
  next ht => rw [prevAt, getElem?_eq_none (Nat.le_of_not_lt ht), bind_none]

lemma kept_eq_none (t : Nat) : st.kept t = none ↔ prevAt c new old t = none := by
  rw [← h.kept_eq t, map_eq_none_iff]

lemma kept_isSome (t : Nat) : (st.kept t).isSome ↔ (prevAt c new old t).isSome := by
  rw [← h.kept_eq t, isSome_map]

lemma addr_static (ht : isDefault new t = some false) : addr st.bss t = addr new t :=
  h.stays t fun _ => not_takes_static ht

lemma static_eq (hstatic : StaticDistinct new) (ht : t ≠ 0) (hs : staticAddr new t = some a) :
    st.macaddrList a = some (t : Int) := by
  obtain ⟨k, -, hs', hlist⟩ := h.static t a ht hs
  rwa [hstatic t k a hs hs']

lemma staticAddr_of (ht : isDefault st.bss t = some false) (ha : addr st.bss t = some a) :
    staticAddr new t = some a := by
  rw [h.flags] at ht
  rw [h.addr_static ht] at ha
  exact staticAddr_iff.2 ⟨ht, ha⟩

lemma listed (hstatic : StaticDistinct new) :
    Listed st.bss st.kept (macaddrInit c st.macaddrList) where
  newStatic i a hi ha := by
    have hs := h.staticAddr_of hi.2 ha
    have hlt := isDefault_lt hi.2
    rcases Nat.eq_zero_or_pos i with rfl | hpos
    · obtain ⟨v, hv⟩ := isSome_iff_exists.1 (h.first a hs)
      obtain ⟨t, rfl, hs' | ⟨htn, htakes⟩⟩ := h.values a v hv
      · obtain rfl := hstatic 0 t a hs hs'
        exact ⟨0, hlt, macaddrInit_of_some hv, .inl rfl⟩
      · refine ⟨t, by rw [h.length]; exact htn, macaddrInit_of_some hv, .inr ⟨?_, ?_⟩⟩
        · exact (h.kept_isSome t).2 htakes.kept
        · rw [h.flags, htakes.isDefault]
    · exact ⟨i, hlt, macaddrInit_of_some (h.static_eq hstatic (Nat.ne_of_gt hpos) hs), .inl rfl⟩
  values a v hv := by
    rcases macaddrInit_cases hv with hv | hneg
    · obtain ⟨t, rfl, hs | ⟨-, htakes⟩⟩ := h.values a v hv
      · refine .inr ⟨t, rfl, fun hnew => ?_⟩
        have := hnew.2
        rw [h.flags, (staticAddr_iff.1 hs).1] at this
        cases this
      · refine .inr ⟨t, rfl, fun hnew => ?_⟩
        have := (h.kept_isSome t).2 htakes.kept
        rw [hnew.1] at this
        cases this
    · exact .inl hneg

lemma displaced_iff (hstatic : StaticDistinct new) :
    Displaced st.bss st.kept (macaddrInit c st.macaddrList) st.bss.length t ↔
      isDefault new 0 = some false ∧ prevAt c new old 0 = none ∧
        ∃ a, addr new 0 = some a ∧ Takes c new old t a := by
  constructor
  · rintro ⟨k, -, hk, hne, a, ha, hlist⟩
    have hs := h.staticAddr_of hk.2 ha
    rcases Nat.eq_zero_or_pos k with rfl | hpos
    · obtain ⟨v, hv⟩ := isSome_iff_exists.1 (h.first a hs)
      have hvt := macaddrInit_of_some (c := c) hv
      rw [hlist] at hvt
      obtain ⟨t', ht', hs' | ⟨-, htakes⟩⟩ := h.values a v hv
      · obtain rfl := hstatic 0 t' a hs hs'
        have : (t : Int) = (0 : Nat) := by rw [← ht']; exact some.inj hvt
        exact absurd (Int.ofNat.inj this).symm hne
      · have : (t : Int) = t' := by rw [← ht']; exact some.inj hvt
        obtain rfl : t = t' := Int.ofNat.inj this
        obtain ⟨hd, haddr⟩ := staticAddr_iff.1 hs
        exact ⟨hd, (h.kept_eq_none 0).1 hk.1, a, haddr, htakes⟩
    · have hself := macaddrInit_of_some (c := c) (h.static_eq hstatic (Nat.ne_of_gt hpos) hs)
      rw [hlist] at hself
      exact absurd (Int.ofNat.inj (some.inj hself)).symm hne
  · rintro ⟨hd, hprev, a, ha, htakes⟩
    have hne : t ≠ 0 := by
      rintro rfl
      rw [htakes.isDefault] at hd
      cases hd
    have htn : t < new.length := isDefault_lt htakes.isDefault
    refine ⟨0, by rw [h.length]; omega, ⟨(h.kept_eq_none 0).2 hprev, by rw [h.flags, hd]⟩, hne.symm,
      a,
      by rw [h.addr_static hd, ha],
        macaddrInit_of_some (h.taken t a (Nat.pos_of_ne_zero hne) htn htakes)⟩

lemma hasAddr_of_not_fresh (ht : ¬ GetsNew c st t) (ha : addr st.bss t = some a) :
    HasAddr c new old t a := by
  have hlt : t < st.bss.length := addr_isSome.1 (by simp [ha])
  have hltn : t < new.length := by rw [← h.length]; exact hlt
  by_cases htakes : ∃ a', Takes c new old t a'
  · obtain ⟨a', htakes⟩ := htakes
    rw [h.took t a' hltn htakes] at ha
    obtain rfl := some.inj ha
    exact .inl htakes
  · rw [not_exists] at htakes
    rw [h.stays t fun _ => htakes] at ha
    refine .inr ⟨htakes, ha, ?_⟩
    rcases isDefault_of_addr ha with hd | hd
    · exact .inl hd
    right
    rw [← h.kept_isSome]
    by_contra hnone
    refine ht (.inl ⟨hlt, ?_, by rw [h.flags, hd]⟩)
    simpa using hnone

lemma addr_of_hasAddr (ha : HasAddr c new old t a) : addr st.bss t = some a := by
  rcases ha with htakes | ⟨hnot, ha, -⟩
  · exact h.took t a (isDefault_lt htakes.isDefault) htakes
  · rw [h.stays t fun _ => hnot, ha]

lemma not_newDefault_of_hasAddr (ha : HasAddr c new old t a) : ¬ NewDefault st.bss st.kept t := by
  rintro ⟨hkept, hd⟩
  rw [h.flags] at hd
  rw [h.kept_eq_none] at hkept
  rcases ha with htakes | ⟨-, -, hs | hk⟩
  · have := htakes.kept
    rw [hkept] at this
    cases this
  · rw [hd] at hs
    cases hs
  · rw [hkept] at hk
    cases hk

end

end Finding

lemma HasAddr.eq_of_takes {a' : String} (h : HasAddr c new old i a) (ht : Takes c new old i a') :
    a = a' := by
  rcases h with h | ⟨hnot, -⟩
  · exact h.unique ht
  · exact absurd ht (hnot a')

namespace Finding

variable {st : Reload} {generate : Nat → Option String}

lemma undisputed_iff (h : Finding c new old new.length st) (hstatic : StaticDistinct new) :
    (∀ t t' a, ¬ GetsNew c st t → ¬ GetsNew c st t' →
      addr st.bss t = some a → addr st.bss t' = some a → t = t') ↔ Undisputed c new old := by
  have hfresh : ∀ {t a}, HasAddr c new old t a → GetsNew c st t →
      isDefault new 0 = some false ∧ prevAt c new old 0 = none ∧
        addr new 0 = some a ∧ Takes c new old t a := by
    intro t a ha hf
    rcases hf with ⟨-, hnew⟩ | hdisplaced
    · exact absurd hnew (h.not_newDefault_of_hasAddr ha)
    · obtain ⟨hd, hprev, a', ha', htakes⟩ := (h.displaced_iff hstatic).1 hdisplaced
      obtain rfl := ha.eq_of_takes htakes
      exact ⟨hd, hprev, ha', htakes⟩
  constructor
  · intro hstay i j a hij hi hj
    -- the first BSS has its static address and keeps it
    have hzero : isDefault new 0 = some false → addr new 0 = some a → ∀ t, HasAddr c new old t a →
        ¬ GetsNew c st t → t = 0 := by
      intro hd ha t ht hnot
      refine hstay t 0 a hnot ?_ (h.addr_of_hasAddr ht) (by rw [h.addr_static hd, ha])
      exact not_fresh_static (h.listed hstatic) (by rw [h.flags, hd])
    by_cases hfj : GetsNew c st j
    · obtain ⟨hd, hprev, ha, htakes⟩ := hfresh hj hfj
      by_cases hfi : GetsNew c st i
      · obtain ⟨-, -, -, htakes'⟩ := hfresh hi hfi
        have hpos : 0 < i := by
          rcases Nat.eq_zero_or_pos i with rfl | hpos
          · rw [htakes'.isDefault] at hd
            cases hd
          · exact hpos
        exact absurd htakes'.wants (htakes.first i hpos hij)
      · exact ⟨hzero hd ha i hi hfi, hd, hprev, htakes⟩
    · by_cases hfi : GetsNew c st i
      · obtain ⟨hd, -, ha, -⟩ := hfresh hi hfi
        have := hzero hd ha j hj hfj
        omega
      · have := hstay i j a hfi hfj (h.addr_of_hasAddr hi) (h.addr_of_hasAddr hj)
        omega
  · intro hun t t' a ht ht' ha ha'
    have hne : ∀ {t t'}, t < t' → HasAddr c new old t a → HasAddr c new old t' a →
        GetsNew c st t' := by
      intro t t' hlt hi hj
      obtain ⟨rfl, hd, hprev, htakes⟩ := hun t t' a hlt hi hj
      refine .inr ((h.displaced_iff hstatic).2 ⟨hd, hprev, a, ?_, htakes⟩)
      rw [← h.addr_static hd]
      exact h.addr_of_hasAddr hi
    have hi := h.hasAddr_of_not_fresh ht ha
    have hj := h.hasAddr_of_not_fresh ht' ha'
    rcases Nat.lt_trichotomy t t' with hlt | heq | hgt
    · exact absurd (hne hlt hi hj) ht'
    · exact heq
    · exact absurd (hne hgt hj hi) ht

lemma nodup_iff (h : Finding c new old new.length st) (hstatic : StaticDistinct new)
    (hgen : NotGenerated c new old generate) {res : List Bss × MacaddrList}
    (hrun : (range st.bss.length).foldlM (assignBssid generate st.kept)
      (st.bss, macaddrInit c st.macaddrList) = some res) :
    (res.1.map bssid).Nodup ↔ Undisputed c new old := by
  have hassign := assignBssid_run (h.listed hstatic) _ hrun
  rw [hassign.nodup_iff, h.undisputed_iff hstatic]
  intro t a hnot ha
  have hlt : t < new.length := by rw [← h.length]; exact addr_isSome.1 (by simp [ha])
  rcases h.hasAddr_of_not_fresh hnot ha with htakes | ⟨hnotakes, ha', hkind⟩
  · left
    rcases Nat.eq_zero_or_pos t with rfl | hpos
    · exact macaddrInit_isSome (h.takenFirst a hlt htakes)
    · rw [macaddrInit_of_some (h.taken t a hpos hlt htakes)]
      rfl
  · rcases isDefault_of_addr ha' with hd | hd
    · left
      have hs := staticAddr_iff.2 ⟨hd, ha'⟩
      rcases Nat.eq_zero_or_pos t with rfl | hpos
      · exact macaddrInit_isSome (h.first a hs)
      · rw [macaddrInit_of_some (h.static_eq hstatic (Nat.ne_of_gt hpos) hs)]
        rfl
    · have hk : (prevAt c new old t).isSome := by
        rcases hkind with hs | hk
        · rw [hd] at hs
          cases hs
        · exact hk
      by_cases hw : a ∈ c.wdevMacaddr
      · exact .inl (macaddrInit_wdev _ hw)
      · exact .inr fun id hid hg => hw (hgen t a hk hd hnotakes ha' id hid hg)

end Finding

/-! ## Step 6 after step 2 -/

structure FirstPreserved (st st' : Reload) (a : String) : Prop where
  length : st'.bss.length = st.bss.length
  flags : ∀ t, isDefault st'.bss t = isDefault st.bss t
  addrFirst : addr st'.bss 0 = some a
  addrRest : ∀ t, t ≠ 0 → addr st'.bss t = addr st.bss t
  static : isDefault st.bss 0 = some false → addr st.bss 0 = some a
  list : st'.macaddrList = update st.macaddrList a (some 0)
  kept : ∀ t, (st'.kept t).isSome ↔ t = 0 ∨ (st.kept t).isSome

lemma preserveFirst_cases {st st' : Reload} {w : σ} (h : preserveFirst c old w st = some st') :
    ((∃ t < st.bss.length, (st.kept t).isSome) ∧ st' = st) ∨
      ((∀ t < st.bss.length, st.kept t = none) ∧ ∃ a, FirstPreserved st st' a) := by
  unfold preserveFirst at h
  split at h
  next hany =>
    obtain ⟨t, ht, hk⟩ := List.any_eq_true.1 hany
    exact .inl ⟨⟨t, mem_range.1 ht, hk⟩, (some.inj h).symm⟩
  next hany =>
    have hnone : ∀ t < st.bss.length, st.kept t = none := by
      intro t ht
      by_contra hk
      exact hany (List.any_eq_true.2 ⟨t, mem_range.2 ht, isSome_iff_ne_none.2 hk⟩)
    obtain ⟨first, hfirst, h⟩ := bind_eq_some_iff.1 h
    obtain ⟨o, -, h⟩ := bind_eq_some_iff.1 h
    have hpos : 0 < st.bss.length := by
      by_contra hpos
      simp [getElem?_eq_none (Nat.le_of_not_lt hpos)] at hfirst
    have haddr : addr st.bss 0 = some first.bssid := by rw [addr, hfirst]; rfl
    have hflag : isDefault st.bss 0 = some first.defaultMacaddr := by rw [isDefault, hfirst]; rfl
    have hkept : ∀ handle t, (update st.kept 0 (some ⟨handle, 0⟩) t).isSome ↔
        t = 0 ∨ (st.kept t).isSome := by
      intro handle t
      by_cases ht : t = 0
      · simp [ht]
      · simp [ht]
    refine .inr ⟨hnone, o.bssid, ?_⟩
    split at h
    · split at h
      · cases h
      next hd =>
        obtain ⟨bss, hbss, h⟩ := bind_eq_some_iff.1 h
        obtain rfl := some.inj hbss
        obtain ⟨handle, -, h⟩ := bind_eq_some_iff.1 h
        obtain rfl := some.inj h
        have hd : first.defaultMacaddr := by simpa using hd
        have hstatic : isDefault st.bss 0 = some false → addr st.bss 0 = some o.bssid := by
          intro hs
          rw [hflag, hd] at hs
          cases hs
        exact ⟨length_setBssid, fun _ => isDefault_setBssid, addr_setBssid_self hpos,
          fun _ ht => addr_setBssid_ne ht, hstatic, rfl, hkept handle⟩
    next heq =>
      obtain ⟨bss, hbss, h⟩ := bind_eq_some_iff.1 h
      obtain rfl := some.inj hbss
      obtain ⟨handle, -, h⟩ := bind_eq_some_iff.1 h
      obtain rfl := some.inj h
      have heq : first.bssid = o.bssid := by simpa using heq
      rw [heq] at haddr
      exact ⟨rfl, fun _ => rfl, haddr, fun _ _ => rfl, fun _ => haddr, rfl, hkept handle⟩

namespace Finding

variable {st st' : Reload} {generate : Nat → Option String} {t : Nat}

lemma not_takes (h : Finding c new old new.length st) (hnone : ∀ t < new.length, st.kept t = none)
    (t : Nat) (a : String) : ¬ Takes c new old t a := by
  intro ht
  have hkept := (h.kept_eq_none t).1 (hnone t (isDefault_lt ht.isDefault))
  have := ht.kept
  rw [hkept] at this
  cases this

section First

variable (h : Finding c new old new.length st) (hf : FirstPreserved st st' a)
include h hf

lemma first_static {b : String} (hd : isDefault st'.bss t = some false)
    (hb : addr st'.bss t = some b) :
    staticAddr new t = some b := by
  rw [hf.flags, h.flags] at hd
  refine staticAddr_iff.2 ⟨hd, ?_⟩
  rw [← h.addr_static hd]
  rcases Nat.eq_zero_or_pos t with rfl | ht
  · rw [hf.static (by rw [h.flags, hd])]
    rwa [hf.addrFirst] at hb
  · rwa [hf.addrRest t (Nat.ne_of_gt ht)] at hb

lemma first_list_static (hstatic : StaticDistinct new) {b : String} (ht : t ≠ 0)
    (hs : staticAddr new t = some b)
    (hne : b ≠ a) : macaddrInit c st'.macaddrList b = some (t : Int) := by
  apply macaddrInit_of_some
  rw [hf.list, update_of_ne hne]
  exact h.static_eq hstatic ht hs

omit h in
lemma first_list : macaddrInit c st'.macaddrList a = some ((0 : Nat) : Int) := by
  apply macaddrInit_of_some
  rw [hf.list, update_self]
  rfl

variable (hnone : ∀ t < new.length, st.kept t = none)
include hnone

lemma first_kept (t : Nat) : (st'.kept t).isSome ↔ t = 0 := by
  rw [hf.kept]
  refine or_iff_left_of_imp fun hk => ?_
  by_cases ht : t < new.length
  · rw [hnone t ht] at hk
    cases hk
  · rw [h.kept_isSome, prevAt, getElem?_eq_none (Nat.le_of_not_lt ht)] at hk
    cases hk

lemma first_kept_eq_none (ht : t ≠ 0) : st'.kept t = none := by
  by_contra hk
  exact ht ((h.first_kept hf hnone t).1 (isSome_iff_ne_none.2 hk))

lemma first_kept_ne_none : st'.kept 0 ≠ none :=
  isSome_iff_ne_none.1 ((h.first_kept hf hnone 0).2 rfl)

variable (hstatic : StaticDistinct new)

include hstatic in
lemma first_listed : Listed st'.bss st'.kept (macaddrInit c st'.macaddrList) := by
  have hlen : st'.bss.length = new.length := by rw [hf.length, h.length]
  have hpos : 0 < new.length := by
    rw [← hlen]
    exact addr_isSome.1 (by simp [hf.addrFirst])
  have hnew : ∀ {t}, NewStatic st'.bss st'.kept t → t ≠ 0 := by
    rintro t ⟨hk, -⟩ rfl
    exact h.first_kept_ne_none hf hnone hk
  constructor
  case newStatic =>
    intro i b hi hb
    have hs := h.first_static hf hi.2 hb
    by_cases hba : b = a
    · refine ⟨0, by rw [hlen]; exact hpos, by rw [hba, first_list hf],
        .inr ⟨(h.first_kept hf hnone 0).2 rfl, ?_⟩⟩
      rcases isDefault_of_addr hf.addrFirst with hd | hd
      · exact absurd (hstatic i 0 b hs (h.first_static hf hd (by rw [hf.addrFirst, hba]))) (hnew hi)
      · exact hd
    · exact ⟨i, isDefault_lt hi.2, h.first_list_static hf hstatic (hnew hi) hs hba, .inl rfl⟩
  case values =>
    intro b v hv
    rcases macaddrInit_cases hv with hv | hneg
    · rw [hf.list] at hv
      by_cases hba : b = a
      · rw [hba, update_self] at hv
        exact .inr ⟨0, (some.inj hv).symm, fun hnd => h.first_kept_ne_none hf hnone hnd.1⟩
      rw [update_of_ne hba] at hv
      obtain ⟨t, rfl, hs | ⟨-, htakes⟩⟩ := h.values b v hv
      · refine .inr ⟨t, rfl, fun hnd => ?_⟩
        have := hnd.2
        rw [hf.flags, h.flags, (staticAddr_iff.1 hs).1] at this
        cases this
      · exact absurd htakes (h.not_takes hnone t b)
    · exact .inl hneg

lemma first_stays {b : String} (hnot : ¬ GetsNew c st' t)
    (hb : addr st'.bss t = some b) : staticAddr new t = some b ∨ (t = 0 ∧ b = a) := by
  rcases isDefault_of_addr hb with hd | hd
  · exact .inl (h.first_static hf hd hb)
  have hk : t = 0 := by
    by_contra ht
    exact hnot (.inl ⟨addr_isSome.1 (by simp [hb]), h.first_kept_eq_none hf hnone ht, hd⟩)
  rw [hk, hf.addrFirst] at hb
  exact .inr ⟨hk, (some.inj hb).symm⟩

lemma first_displaced (hnot : ¬ GetsNew c st' 0)
    (hs : staticAddr new t = some a) : t = 0 := by
  by_contra ht
  obtain ⟨hd, ha⟩ := staticAddr_iff.1 hs
  have hd' : isDefault st'.bss t = some false := by rw [hf.flags, h.flags, hd]
  refine hnot (.inr ⟨t, isDefault_lt hd', ⟨h.first_kept_eq_none hf hnone ht, hd'⟩, ht, a, ?_,
    first_list hf⟩)
  rw [hf.addrRest t ht, h.addr_static hd, ha]

end First

lemma undisputed_of_none (h : Finding c new old new.length st) (hstatic : StaticDistinct new)
    (hnone : ∀ t < new.length, st.kept t = none) : Undisputed c new old := by
  have hs : ∀ {t a}, HasAddr c new old t a → staticAddr new t = some a := by
    rintro t a (htakes | ⟨-, ha, hd | hk⟩)
    · exact absurd htakes (h.not_takes hnone t a)
    · exact staticAddr_iff.2 ⟨hd, ha⟩
    · have hlt : t < new.length := addr_isSome.1 (by simp [ha])
      rw [(h.kept_eq_none t).1 (hnone t hlt)] at hk
      cases hk
  intro i j a hij hi hj
  have := hstatic i j a (hs hi) (hs hj)
  omega

lemma nodup_first (h : Finding c new old new.length st) (hstatic : StaticDistinct new)
    (hnone : ∀ t < new.length, st.kept t = none) (hf : FirstPreserved st st' a)
    {res : List Bss × MacaddrList}
    (hrun : (range st'.bss.length).foldlM (assignBssid generate st'.kept)
      (st'.bss, macaddrInit c st'.macaddrList) = some res) :
    (res.1.map bssid).Nodup := by
  have hassign := assignBssid_run (h.first_listed hf hnone hstatic) _ hrun
  rw [hassign.nodup_iff]
  · intro t t' b ht ht' hb hb'
    rcases h.first_stays hf hnone ht hb with hs | ⟨rfl, rfl⟩ <;>
      rcases h.first_stays hf hnone ht' hb' with hs' | ⟨rfl, hba⟩
    · exact hstatic t t' b hs hs'
    · exact h.first_displaced hf hnone ht' (hba ▸ hs)
    · exact (h.first_displaced hf hnone ht hs').symm
    · rfl
  · intro t b hnot hb
    left
    by_cases hba : b = a
    · rw [hba, first_list hf]
      rfl
    rcases h.first_stays hf hnone hnot hb with hs | ⟨-, rfl⟩
    · rcases Nat.eq_zero_or_pos t with rfl | ht
      · rw [hf.addrFirst] at hb
        exact absurd (some.inj hb).symm hba
      · rw [h.first_list_static hf hstatic (Nat.ne_of_gt ht) hs hba]
        rfl
    · exact absurd rfl hba

end Finding

/-! ## The whole function -/

variable {config : Config} {w : σ} {st : Reload}

lemma reuseBss_cases (h : reuseBss c config old w = some st) :
    ∃ st₁, Finding c config.bss old config.bss.length st₁ ∧
      preserveFirst c old w st₁ = some st := by
  obtain ⟨st₁, hst₁, h⟩ := bind_eq_some_iff.1 h
  refine ⟨st₁, findExisting_run _ (Nat.le_refl _) hst₁, ?_⟩
  split at h
  · cases h
  · exact h

lemma assignBssids_nodup_iff {bss : List Bss}
    (hstatic : StaticDistinct config.bss)
    (hgen : NotGenerated c config.bss old
      (c.macaddrGenerate (config.numGlobalMacaddr.getD 1) (config.mbssid.getD 0)))
    (hst : reuseBss c config old w = some st) (hbss : assignBssids c config st = some bss) :
    (bss.map bssid).Nodup ↔ Undisputed c config.bss old := by
  obtain ⟨st₁, hfind, hfirst⟩ := reuseBss_cases hst
  obtain ⟨res, hrun, hbss⟩ := bind_eq_some_iff.1 hbss
  obtain rfl := some.inj hbss
  rcases preserveFirst_cases hfirst with ⟨-, rfl⟩ | ⟨hnone, a, hf⟩
  · exact hfind.nodup_iff hstatic hgen hrun
  · rw [hfind.length] at hnone
    exact iff_of_true (hfind.nodup_first hstatic hnone hf hrun)
      (hfind.undisputed_of_none hstatic hnone)

lemma ifaceReloadConfig_cases {o : Config} {r : Reloaded σ}
    (h : ifaceReloadConfig c config (some o) w = some r) :
    (bssIsEqual o.bss config.bss ∧ r.config = config) ∨
      (bssIsEqual o.bss config.bss = false ∧ ∃ st, reuseBss c config o.bss w = some st ∧
        assignBssids c config st = some r.config.bss) := by
  unfold ifaceReloadConfig at h
  dsimp only at h
  split at h
  · cases h
  split at h
  next heq =>
    obtain rfl := some.inj h
    exact .inl ⟨heq, rfl⟩
  next hne =>
    refine .inr ⟨by simpa using hne, ?_⟩
    split at h
    · cases h
    split at h
    · cases h
    unfold reloadBss at h
    obtain ⟨st, hst, h⟩ := bind_eq_some_iff.1 h
    obtain ⟨_, -, h⟩ := bind_eq_some_iff.1 h
    obtain ⟨bss, hbss, h⟩ := bind_eq_some_iff.1 h
    obtain ⟨_, -, h⟩ := bind_eq_some_iff.1 h
    obtain ⟨_, -, h⟩ := bind_eq_some_iff.1 h
    obtain ⟨_, -, h⟩ := bind_eq_some_iff.1 h
    obtain rfl := some.inj h
    exact ⟨st, hst, hbss⟩

/-- **BSSIDs after a reload.** If the static addresses are distinct and the function returns true,
all addresses are distinct exactly if none is disputed; for the old configuration nothing is
checked. -/
theorem bssids_nodup_iff (c : Calls σ) (config o : Config) (w : σ) (r : Reloaded σ)
    (hstatic : StaticDistinct config.bss)
    (hgen : NotGenerated c config.bss o.bss
      (c.macaddrGenerate (config.numGlobalMacaddr.getD 1) (config.mbssid.getD 0)))
    (h : ifaceReloadConfig c config (some o) w = some r) :
    (r.config.bss.map bssid).Nodup ↔
      if bssIsEqual o.bss config.bss then (config.bss.map bssid).Nodup
      else Undisputed c config.bss o.bss := by
  rcases ifaceReloadConfig_cases h with ⟨heq, hr⟩ | ⟨hne, st, hst, hbss⟩
  · rw [if_pos heq, hr]
  · rw [hne, if_neg (by decide)]
    exact assignBssids_nodup_iff hstatic hgen hst hbss

def quietCalls : Calls Unit where
  sha1 s := s
  sha1Lines lines := String.join lines
  phyIsFullmac := false
  wdevMacaddr := []
  macaddrGenerate _ _ _ := none
  interface _ := true
  bss _ _ := some 0
  delete _ w := w
  wdevRemove _ w := w
  rename _ _ w := some w
  addBss _ _ w := some (0, w)
  setBssOrder _ w := some w
  setConfig _ _ _ _ w := some w
  reloadWpaPsk _ w := w

def twoBss : Config where
  bss := [{ ifname := "wlan0", bssid := "02:00:00:00:00:01", data := ["ssid=a"] },
    { ifname := "wlan1", bssid := "02:00:00:00:00:02", defaultMacaddr := true, data := ["ssid=b"] }]

def firstTakesSecond : Config where
  bss := [{ ifname := "wlan0", bssid := "02:00:00:00:00:02", data := ["ssid=a"] },
    { ifname := "wlan1", bssid := "02:00:00:00:00:03", defaultMacaddr := true, data := ["ssid=b"] }]

lemma firstTakesSecond_static : StaticDistinct firstTakesSecond.bss := by
  have hzero : ∀ i a, staticAddr firstTakesSecond.bss i = some a → i = 0 := by
    intro i a h
    match i with
    | 0 => rfl
    | 1 => cases h
    | i + 2 => cases h
  intro i j a hi hj
  rw [hzero i a hi, hzero j a hj]

/-- Both BSS are kept, and both have the address of the first one, which is 0 in the list. -/
theorem reload_gives_first_bssid_twice : StaticDistinct firstTakesSecond.bss ∧
    (ifaceReloadConfig quietCalls firstTakesSecond (some twoBss) ()).map
      (fun r => r.config.bss.map bssid) = some ["02:00:00:00:00:02", "02:00:00:00:00:02"] :=
  ⟨firstTakesSecond_static, by decide +kernel⟩

theorem bssids_nodup_iff_first : ∃ r,
    ifaceReloadConfig quietCalls firstTakesSecond (some twoBss) () = some r ∧
    ((r.config.bss.map bssid).Nodup ↔
      if bssIsEqual twoBss.bss firstTakesSecond.bss then (firstTakesSecond.bss.map bssid).Nodup
      else Undisputed quietCalls firstTakesSecond.bss twoBss.bss) := by
  have hsome : (ifaceReloadConfig quietCalls firstTakesSecond (some twoBss) ()).isSome := by
    decide +kernel
  obtain ⟨r, hr⟩ := isSome_iff_exists.1 hsome
  exact ⟨r, hr, bssids_nodup_iff quietCalls firstTakesSecond twoBss () r firstTakesSecond_static
    (fun _ _ _ _ _ _ _ _ hgen => by cases hgen) hr⟩

end SourceMaster.Hostapd
